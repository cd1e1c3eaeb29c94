import Rzi.JoinThreads

/-!
# The credentials a join uses

`begin_join` reads the attempt count, builds the configuration, and only then sets `join_active`,
which makes the setters answer BUSY; the sections are separate, and the policy is not guarded at all.
A setter that is accepted in between is missed: the join goes on with the values it read before.
`join_uses_credentials` follows one joining thread and any setters: as long as no accepted setter
changes what the join has read already, `backend.join` gets the configuration, and the service the
attempt count, that were stored when `join_active` was set.
-/

namespace Rzi.Lorawan
open Lts

/-- The attempt count has been read, and `join_active` is not set yet. -/
def Pc.attemptsRead : Pc → Bool
  | .configDue _ | .casDue _ _ | .retriesDue _ _ | .activeDue _ => true
  | _ => false

/-- The configuration has been built, and `join_active` is not set yet. -/
def Pc.configBuilt : Pc → Bool
  | .casDue _ _ | .retriesDue _ _ | .activeDue _ => true
  | _ => false

/-- One thread that starts joins, and setters on others. -/
def ThreadAct.startOrSet : ThreadAct Unit → Bool
  | .join _ start _ => start
  | .event _ _ => false
  | .next _ _ | .set _ _ => true

def joinerStep (build : Build) (x : Threads Unit) (a : ThreadAct Unit) : Option (Threads Unit) :=
  if a.startOrSet then threadStep build x a else none

/-- Each call of `backend.join` was given the configuration that was stored when `join_active` was
set, and the service took the attempt count of that moment. -/
def UsesCredentials (build : Build) (x : Threads Unit) : Prop :=
  ∀ call ∈ x.shared.calls, call.config = call.inForce.joinConfig build ∧
    call.retries = call.inForce.joinAttempts.toNat

/-- A setter changes nothing that the join has read and not yet locked. -/
def Undisturbed (build : Build) (x : Threads Unit) : ThreadAct Unit → Prop
  | .set setter a =>
    ((x.pc ()).attemptsRead = true →
      (setter.call build a x.shared.credentials).2.joinAttempts = x.shared.credentials.joinAttempts) ∧
    ((x.pc ()).configBuilt = true →
      (setter.call build a x.shared.credentials).2.joinConfig build =
        x.shared.credentials.joinConfig build)
  | _ => True

/-- What the joining thread holds, against the store. -/
def Held (build : Build) (m : Shared) : Pc → Prop
  | .configDue attempts => m.credentials.loaded = true ∧ attempts = m.credentials.joinAttempts
  | .casDue config attempts | .retriesDue config attempts =>
    config = m.credentials.joinConfig build ∧ attempts = m.credentials.joinAttempts
  | .activeDue config =>
    config = m.credentials.joinConfig build ∧ m.joinRetriesRemaining = m.credentials.joinAttempts.toNat
  | .joinDue config inForce retries =>
    config = inForce.joinConfig build ∧ retries = inForce.joinAttempts.toNat
  | _ => True

structure HeldInv (build : Build) (x : Threads Unit) : Prop where
  held : Held build x.shared (x.pc ())
  calls : UsesCredentials build x

variable {build : Build} {env : Env} {x y : Threads Unit} {a : ThreadAct Unit} {m : Shared} {pc : Pc}

/-! ### One step -/

theorem held_ofResult {α : Type} {r : Except Err α} {f : α → Pc}
    (h : ∀ v, r = .ok v → Held build m (f v)) : Held build m (.ofResult r f) := by
  cases r with
  | error e => trivial
  | ok v => exact h v rfl

/-- A section that only reads returns what the store holds after it. -/
theorem readLocked_ok {α : Type} {f : CredentialStore → α} {s : Answers} {c : CredentialStore} {v : α}
    (h : (readLocked f s c).1 = .ok v) :
    v = f (readLocked f s c).2 ∧ (readLocked f s c).2.loaded = true := by
  rw [readLocked_eq] at h ⊢
  rcases ensureLoadedLocked_cases s c with ⟨hok, hloaded⟩ | ⟨e, -, he⟩
  · rw [hok] at h
    exact ⟨(Except.ok.inj h).symm, hloaded⟩
  · rw [he] at h
    cases h

theorem advance_held (h : Held build m pc) (hpc : pc ≠ .idle) :
    Held build (advance build env m pc).2 (advance build env m pc).1 := by
  cases pc with
  | idle => exact absurd rfl hpc
  | policyDue start policy =>
    refine held_ofResult fun _ _ => ?_
    cases start <;> trivial
  | activationDue =>
    refine held_ofResult fun mode _ => ?_
    split <;> trivial
  | attemptsDue =>
    refine held_ofResult fun attempts hattempts => ?_
    obtain ⟨hv, hloaded⟩ := readLocked_ok hattempts
    exact ⟨hloaded, hv⟩
  | configDue attempts =>
    obtain ⟨hloaded, hattempts⟩ := h
    have hread : buildConfig build env.settings m.credentials =
        (.ok (m.credentials.joinConfig build), m.credentials) := by
      rw [buildConfig, readLocked_eq, ensureLoadedLocked_of_loaded hloaded]
      rfl
    simp only [advance, hread]
    exact ⟨rfl, hattempts⟩
  | casDue config attempts =>
    simp only [advance]
    split
    · trivial
    · exact h
  | retriesDue config attempts => exact ⟨h.1, congrArg (fun n : UInt8 => (n.toNat : Int)) h.2⟩
  | activeDue config => exact h
  | joinDue config inForce retries =>
    simp only [advance]
    split <;> trivial
  | failedDue =>
    simp only [advance]
    split <;> trivial
  | failedRetriesDue =>
    simp only [advance]
    split <;> trivial
  | _ => trivial

theorem advance_calls (h : ∀ call ∈ m.calls, call.config = call.inForce.joinConfig build ∧
      call.retries = call.inForce.joinAttempts.toNat) (hheld : Held build m pc) :
    ∀ call ∈ (advance build env m pc).2.calls, call.config = call.inForce.joinConfig build ∧
      call.retries = call.inForce.joinAttempts.toNat := by
  cases pc with
  | joinDue config inForce retries =>
    intro call hcall
    rcases List.mem_append.1 hcall with hcall | hcall
    · exact h call hcall
    · rw [List.mem_singleton.1 hcall]
      exact hheld
  | casDue config attempts =>
    simp only [advance]
    split
    · exact h
    · exact h
  | _ => exact h

theorem set_held (h : Held build m pc) {c : CredentialStore}
    (hloaded : m.credentials.loaded = true → c.loaded = true)
    (hattempts : pc.attemptsRead = true → c.joinAttempts = m.credentials.joinAttempts)
    (hconfig : pc.configBuilt = true → c.joinConfig build = m.credentials.joinConfig build) :
    Held build { m with credentials := c } pc := by
  cases pc with
  | configDue attempts => exact ⟨hloaded h.1, h.2.trans (hattempts rfl).symm⟩
  | casDue config attempts => exact ⟨h.1.trans (hconfig rfl).symm, h.2.trans (hattempts rfl).symm⟩
  | retriesDue config attempts => exact ⟨h.1.trans (hconfig rfl).symm, h.2.trans (hattempts rfl).symm⟩
  | activeDue config =>
    refine ⟨h.1.trans (hconfig rfl).symm, ?_⟩
    rw [hattempts rfl]
    exact h.2
  | joinDue config inForce retries => exact h
  | _ => trivial

/-! ### Whole runs -/

theorem HeldInv.step (h : HeldInv build x) (hG : Undisturbed build x a)
    (hy : joinerStep build x a = some y) : HeldInv build y := by
  unfold joinerStep at hy
  split at hy
  · rename_i hscope
    cases a with
    | join i start policy =>
      simp only [threadStep] at hy
      split at hy
      · cases hy
      split at hy
      · cases hy
        exact h
      · cases hy
        refine ⟨?_, h.calls⟩
        simp only [Threads.goto, Function.update_self]
        trivial
    | event i joined => cases hscope
    | next i env =>
      simp only [threadStep] at hy
      split at hy
      · cases hy
      · rename_i hpc
        cases hy
        refine ⟨?_, advance_calls h.calls h.held⟩
        simp only [Function.update_self]
        exact advance_held h.held hpc
    | set setter s =>
      cases hy
      have hwritten := @Setter.call_written build setter s x.shared.credentials
      exact ⟨set_held h.held hwritten.loaded_of_loaded hG.1 hG.2, h.calls⟩
  · cases hy

theorem heldInv_init (build : Build) : HeldInv build Threads.init :=
  ⟨trivial, fun call hcall => by cases hcall⟩

/-- **When a join uses the credentials in force.** In every interleaving of joins on one thread with
setters on others in which no setter changes what the join has read and not yet locked, every call of
`backend.join` gets the configuration and the attempt count stored when `join_active` was set. -/
theorem join_uses_credentials (build : Build) (as : List (ThreadAct Unit))
    (hG : Meets (joinerStep build) (Undisturbed build) Threads.init as) :
    Always (joinerStep build) (UsesCredentials build) Threads.init as :=
  always_of_invariant (fun _ h => h.calls) (fun _ _ _ h hU hy => h.step hU hy) (heldInv_init build) hG

instance decidableUndisturbed (build : Build) (x : Threads Unit) :
    (a : ThreadAct Unit) → Decidable (Undisturbed build x a)
  | .set setter a => inferInstanceAs (Decidable
      (((x.pc ()).attemptsRead = true → (setter.call build a x.shared.credentials).2.joinAttempts =
        x.shared.credentials.joinAttempts) ∧
      ((x.pc ()).configBuilt = true → (setter.call build a x.shared.credentials).2.joinConfig build =
        x.shared.credentials.joinConfig build)))
  | .join _ _ _ | .event _ _ | .next _ _ => .isTrue trivial

def newKey : Setter := .appKey (some (List.replicate 16 7))

/-- A key is set while the join is between `build_config` and `set_join_active`. -/
def keyWithinJoin : List (ThreadAct Unit) :=
  .join () true ⟨-1, -1, -1⟩ :: List.replicate 4 (.next () joiningEnv) ++
    .set newKey defaultAnswers :: List.replicate 4 (.next () joiningEnv)

/-- The join goes out with the old key. -/
theorem join_misses_new_key : ¬ ∀ as : List (ThreadAct Unit),
    Always (joinerStep fullBuild) (UsesCredentials fullBuild) Threads.init as := by
  intro h
  have hcalls : (run (joinerStep fullBuild) Threads.init keyWithinJoin).map (fun x =>
      x.shared.calls.all fun call => call.config = call.inForce.joinConfig fullBuild) = some false := by
    decide
  obtain ⟨x, hx, heq⟩ := Option.map_eq_some_iff.1 hcalls
  have huses := h keyWithinJoin keyWithinJoin x (List.prefix_refl _) hx
  have hall : (x.shared.calls.all fun call => call.config = call.inForce.joinConfig fullBuild) = true :=
    List.all_eq_true.2 fun call hcall => decide_eq_true (huses call hcall).1
  rw [hall] at heq
  cases heq

/-- A key that is set before the join, and one that comes too late. -/
theorem join_uses_new_key :
    Always (joinerStep fullBuild) (UsesCredentials fullBuild) Threads.init
      (.set newKey defaultAnswers :: .join () true ⟨-1, -1, 2⟩ ::
        List.replicate 7 (.next () joiningEnv) ++
        [.set (.appKey (some (List.replicate 16 9))) defaultAnswers, .next () joiningEnv]) :=
  join_uses_credentials fullBuild _ (by decide)

end Rzi.Lorawan
