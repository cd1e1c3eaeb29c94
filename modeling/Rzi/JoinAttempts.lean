import Rzi.LorawanService
import Rzi.Lib.Run

/-!
# Counting the attempts of a join sequence

A sequence with `n` attempts should give the subscribers JOIN_FAILED when `n + 1` attempts of its own
have failed. `Accounts` follows that rule from outside: the running sequence, and how many failures
published for it have been dispatched. The service counts every JOIN_FAILED it takes from the queue,
also one that was still queued when its sequence was stopped. `attempts_accounted_iff`: along any
order of joins, stops, results and dispatches the service keeps the accounts exactly if every
JOIN_FAILED is dispatched while the sequence it was published for is running.
-/

namespace Rzi.Lorawan
open Lts

/-- A running sequence: its number, its attempts and its own failures so far. -/
structure Sequence where
  number : Nat
  attempts : Nat
  failures : Nat
deriving DecidableEq, Repr

/-- The running sequence, and the number of sequences that ran out of attempts. -/
structure Accounts where
  running : Option Sequence
  exhausted : Nat
deriving DecidableEq, Repr

/-- A failure published for sequence `number` is dispatched. -/
def Accounts.fail (p : Accounts) (number : Nat) : Accounts :=
  match p.running with
  | none => p
  | some q =>
    if q.number ≠ number then p
    else if q.failures = q.attempts then ⟨none, p.exhausted + 1⟩
    else ⟨some { q with failures := q.failures + 1 }, p.exhausted⟩

def Accounts.dispatched (p : Accounts) (q : Queued) : Accounts :=
  match q.event with
  | .joined => { p with running := none }
  | .joinFailed _ => p.fail q.sequence
  | _ => p

/-- The accounts after a step from `s`: a join that succeeds starts the next sequence with the
stored attempts, a stop whose policy is accepted ends it. -/
def Accounts.after (build : Build) (s : Service) (p : Accounts) : Act → Accounts
  | .join start policy env =>
    if start = 1 ∧ (lorawanJoin build start policy env s).1 = .ok () then
      { p with running := some ⟨s.joins.length + 1,
          (lorawanJoin build start policy env s).2.credentials.joinAttempts.toNat, 0⟩ }
    else if start = 0 ∧ (updatePolicy policy env.settings s.credentials).1 = .ok () then
      { p with running := none }
    else p
  | .dispatch =>
    match s.events with
    | [] => p
    | q :: _ => p.dispatched q
  | _ => p

/-- The service and its accounts, step by step. -/
def accountedStep (build : Build) (x : Service × Accounts) (a : Act) : Option (Service × Accounts) :=
  (step build x.1 a).map fun s => (s, x.2.after build x.1 a)

/-- The subscribers were given one JOIN_FAILED for each exhausted sequence, and the service counts
for the running sequence what is left of its attempts. -/
structure Accounted (x : Service × Accounts) : Prop where
  delivered : x.1.delivered.countP Event.isJoinFailed = x.2.exhausted
  active : x.1.joinSequenceActive = x.2.running.isSome
  remaining : ∀ q, x.2.running = some q → x.1.joinRetriesRemaining + q.failures = q.attempts

/-- A JOIN_FAILED is dispatched while the sequence it was published for is running. -/
def OwnFailure (x : Service × Accounts) : Act → Prop
  | .dispatch => ∀ q ∈ x.1.events.head?, q.event.isJoinFailed = true →
      x.2.running.map (·.number) = some q.sequence
  | _ => True

variable {build : Build} {s : Service} {p : Accounts} {a : Act}

theorem joined_accounted (h : Accounted (s, p)) (start : Int) (policy : Policy) (env : Env) :
    Accounted ((lorawanJoin build start policy env s).2,
      p.after build s (.join start policy env)) := by
  have hout := lorawanJoin_outcome build start policy env s
  simp only [Accounts.after]
  generalize (lorawanJoin build start policy env s).1 = r at hout ⊢
  generalize (lorawanJoin build start policy env s).2 = t at hout ⊢
  cases hout with
  | kept _ c hc hstart hstop =>
    rw [if_neg (fun hr => hstart hr.1 hr.2), if_neg (fun hr => hstop hr.1 hr.2)]
    exact ⟨h.delivered, h.active, h.remaining⟩
  | stopped _ c events hstart hpolicy hquiet =>
    rw [if_neg (by simp [hstart]), if_pos ⟨hstart, by rw [hpolicy]⟩]
    exact ⟨h.delivered, rfl, fun q hq => by cases hq⟩
  | started c config hstart hactive hc hconfig =>
    rw [if_pos ⟨hstart, rfl⟩]
    exact ⟨h.delivered, rfl, fun q hq => by cases hq; rfl⟩
  | refused e c config events hstart hactive he hquiet =>
    rw [if_neg (by simp), if_neg (by simp [hstart])]
    have hnone : p.running = none := by
      have hsome := h.active.symm.trans hactive
      exact Option.not_isSome_iff_eq_none.1 (by simpa using hsome)
    refine ⟨h.delivered, ?_, fun q hq => ?_⟩
    · rw [hnone]
      rfl
    · rw [hnone] at hq
      cases hq

/-! ### The dispatcher -/

variable {q : Queued} {events : List Queued}

theorem Accounted.running_some (h : Accounted (s, p)) (hs : s.joinSequenceActive = true) :
    ∃ r, p.running = some r := Option.isSome_iff_exists.1 (h.active.symm.trans hs)

/-- What the dispatcher makes of a JOIN_FAILED. -/
theorem dispatch_joinFailed (e : Option Err) (s : Service) :
    (s.joinSequenceActive = false ∧ dispatch (.joinFailed e) s = deliver (.joinFailed e) s) ∨
    (s.joinSequenceActive = true ∧ 0 < s.joinRetriesRemaining ∧ dispatch (.joinFailed e) s =
      { s with joinRetriesRemaining := s.joinRetriesRemaining - 1 }) ∨
    (s.joinSequenceActive = true ∧ s.joinRetriesRemaining = 0 ∧ dispatch (.joinFailed e) s =
      deliver (.joinFailed e) (publishState .ready (clearJoinSequence s))) := by
  unfold dispatch swallowJoinEvent
  cases hactive : s.joinSequenceActive with
  | false => exact .inl ⟨rfl, by simp⟩
  | true =>
    by_cases hremaining : 0 < s.joinRetriesRemaining
    · exact .inr (.inl ⟨rfl, hremaining, by simp [hremaining]⟩)
    · exact .inr (.inr ⟨rfl, by omega, by simp [hremaining]⟩)

theorem dispatch_other (hq : q.event.isJoinResult = false) (s : Service) :
    dispatch q.event s = deliver q.event s ∧ (eventFromBackend q.event).toList.countP
      Event.isJoinFailed = 0 := by
  cases h : q.event <;> rw [h] at hq <;> first | exact ⟨rfl, rfl⟩ | cases hq

theorem deliver_joinFailed_count (e : Option Err) (s : Service) :
    (deliver (.joinFailed e) s).delivered.countP Event.isJoinFailed =
      s.delivered.countP Event.isJoinFailed + 1 := by
  simp [deliver, eventFromBackend, Event.isJoinFailed]

theorem dispatched_accounted (h : Accounted (s, p)) (hown : q.event.isJoinFailed = true →
      p.running.map (·.number) = some q.sequence) :
    Accounted (dispatch q.event s, p.dispatched q) := by
  unfold Accounts.dispatched
  split
  · rename_i hq
    rw [hq]
    refine ⟨?_, rfl, fun r hr => by cases hr⟩
    simpa [dispatch, swallowJoinEvent, deliver, eventFromBackend, clearJoinSequence,
      Event.isJoinFailed] using h.delivered
  · rename_i e hq
    obtain ⟨r, hr, hnumber⟩ := Option.map_eq_some_iff.1 (hown (by rw [hq]; rfl))
    have hactive : s.joinSequenceActive = true := by
      have hsome := h.active
      rw [hr] at hsome
      exact hsome
    have hremaining : s.joinRetriesRemaining + r.failures = r.attempts := h.remaining r hr
    rw [hq, Accounts.fail, hr]
    simp only
    rw [if_neg (by simp [hnumber])]
    rcases dispatch_joinFailed e s with ⟨hs, -⟩ | ⟨-, hpos, heq⟩ | ⟨-, hzero, heq⟩
    · rw [hactive] at hs
      cases hs
    · -- one of its attempts is left
      rw [heq, if_neg (by omega)]
      refine ⟨h.delivered, hactive, fun r' hr' => ?_⟩
      cases hr'
      simp only
      omega
    · -- the last attempt has failed
      rw [heq, if_pos (by omega)]
      refine ⟨?_, rfl, fun r' hr' => by cases hr'⟩
      rw [deliver_joinFailed_count]
      exact congrArg (· + 1) h.delivered
  · rename_i hjoined hfailed
    have hq : q.event.isJoinResult = false := by
      cases hev : q.event <;> first | rfl | exact absurd hev hjoined | exact absurd hev (hfailed _)
    obtain ⟨heq, hcount⟩ := dispatch_other hq s
    rw [heq]
    refine ⟨?_, h.active, h.remaining⟩
    simp only [deliver, List.countP_append, hcount, Nat.add_zero]
    exact h.delivered

/-- A failure that is dispatched after its sequence breaks the accounts at once. -/
theorem dispatched_not_accounted (h : Accounted (s, p))
    (hfailed : q.event.isJoinFailed = true) (hforeign : p.running.map (·.number) ≠ some q.sequence) :
    ¬ Accounted (dispatch q.event s, p.dispatched q) := by
  obtain ⟨e, hq⟩ : ∃ e, q.event = .joinFailed e := by
    cases hev : q.event <;> rw [hev] at hfailed <;> first | exact ⟨_, rfl⟩ | cases hfailed
  have hfail : p.dispatched q = p := by
    rw [Accounts.dispatched, hq]
    simp only [Accounts.fail]
    split
    · rfl
    · rename_i r hr
      rw [if_pos]
      intro hnumber
      exact hforeign (by rw [hr, Option.map_some, hnumber])
  intro hbad
  rw [hq, hfail] at hbad
  rcases dispatch_joinFailed e s with ⟨-, heq⟩ | ⟨hs, hpos, heq⟩ | ⟨hs, -, heq⟩ <;> rw [heq] at hbad
  · have hcount := hbad.delivered
    rw [deliver_joinFailed_count] at hcount
    have hdelivered : s.delivered.countP Event.isJoinFailed = p.exhausted := h.delivered
    simp only at hcount
    omega
  · obtain ⟨r, hr⟩ := h.running_some hs
    have hbefore : s.joinRetriesRemaining + r.failures = r.attempts := h.remaining r hr
    have hafter : s.joinRetriesRemaining - 1 + r.failures = r.attempts := hbad.remaining r hr
    omega
  · obtain ⟨r, hr⟩ := h.running_some hs
    have hactive := hbad.active
    rw [hr] at hactive
    cases hactive

/-! ### Whole runs -/

theorem dispatcher_eq_some {t : Service} (h : dispatcher s = some t) :
    ∃ q events, s.events = q :: events ∧ t = dispatch q.event { s with events := events } := by
  unfold dispatcher at h
  split at h
  · cases h
  · rename_i q events hevents
    exact ⟨q, events, hevents, (Option.some.inj h).symm⟩

theorem after_dispatch (hevents : s.events = q :: events) :
    p.after build s .dispatch = p.dispatched q := by
  simp only [Accounts.after, hevents]

theorem accountedStep_eq_some {x y : Service × Accounts} (h : accountedStep build x a = some y) :
    step build x.1 a = some y.1 ∧ y.2 = x.2.after build x.1 a := by
  obtain ⟨t, ht, rfl⟩ := Option.map_eq_some_iff.1 h
  exact ⟨ht, rfl⟩

theorem init_accounted (h : Accounted (s, p)) (setRegion start : Except Err Unit) :
    Accounted ((lorawanInit setRegion start s).2, p) := by
  unfold lorawanInit
  split
  · exact h
  split
  · exact h
  split
  · exact ⟨h.delivered, h.active, h.remaining⟩
  · exact ⟨h.delivered, h.active, h.remaining⟩

theorem step_accounted {x y : Service × Accounts} (h : Accounted x) (hown : OwnFailure x a)
    (hy : accountedStep build x a = some y) : Accounted y := by
  obtain ⟨s, p⟩ := x
  obtain ⟨t, p'⟩ := y
  obtain ⟨ht, rfl⟩ := accountedStep_eq_some hy
  cases a with
  | join start policy env =>
    cases ht
    exact joined_accounted h start policy env
  | publish event sequence =>
    simp only [step] at ht
    split at ht
    · cases ht
    · cases ht
      exact ⟨h.delivered, h.active, h.remaining⟩
  | dispatch =>
    obtain ⟨q, events, hevents, rfl⟩ := dispatcher_eq_some ht
    have hq : p.after build s .dispatch = p.dispatched q := after_dispatch hevents
    simp only [hq]
    exact dispatched_accounted (s := { s with events := events })
      ⟨h.delivered, h.active, h.remaining⟩ (hown q (congrArg List.head? hevents))
  | init setRegion start =>
    cases ht
    exact init_accounted h setRegion start
  | leave env =>
    cases ht
    unfold lorawanLeave
    split
    · exact h
    · split
      · exact h
      · exact ⟨h.delivered, h.active, h.remaining⟩
  | set setter a =>
    cases ht
    exact ⟨h.delivered, h.active, h.remaining⟩
  | clearSettings rc =>
    cases ht
    exact ⟨h.delivered, h.active, h.remaining⟩

theorem step_not_accounted {x y : Service × Accounts} (h : Accounted x) (hforeign : ¬ OwnFailure x a)
    (hy : accountedStep build x a = some y) : ¬ Accounted y := by
  obtain ⟨s, p⟩ := x
  obtain ⟨t, p'⟩ := y
  obtain ⟨ht, rfl⟩ := accountedStep_eq_some hy
  cases a with
  | dispatch =>
    simp only [OwnFailure, not_forall] at hforeign
    obtain ⟨q, hhead, hfailed, hne⟩ := hforeign
    obtain ⟨q', events, hevents, rfl⟩ := dispatcher_eq_some ht
    obtain rfl : q' = q := Option.some.inj ((congrArg List.head? hevents).symm.trans hhead)
    have hq : p.after build s .dispatch = p.dispatched q' := after_dispatch hevents
    simp only [hq]
    exact dispatched_not_accounted (s := { s with events := events })
      ⟨h.delivered, h.active, h.remaining⟩ hfailed hne
  | _ => exact absurd trivial hforeign

theorem accounted_init : Accounted (Service.init, ⟨none, 0⟩) :=
  ⟨rfl, rfl, fun q hq => by cases hq⟩

/-- **When the attempts are counted right.** Along any run from the image, the subscribers see one
JOIN_FAILED for each sequence whose `n + 1` own failures were dispatched, and no other failure uses up
an attempt or ends a sequence, exactly if every JOIN_FAILED is dispatched while the sequence it was
published for is running. -/
theorem attempts_accounted_iff (build : Build) (as : List Act) (u : Service × Accounts)
    (hr : run (accountedStep build) (Service.init, ⟨none, 0⟩) as = some u) :
    Always (accountedStep build) Accounted (Service.init, ⟨none, 0⟩) as ↔
      Meets (accountedStep build) OwnFailure (Service.init, ⟨none, 0⟩) as :=
  always_iff_meets (fun _ h => h) (fun _ _ _ h hown hy => step_accounted h hown hy)
    (fun _ _ _ h hforeign hy => step_not_accounted h hforeign hy) accounted_init hr

instance decidableOwnFailure (x : Service × Accounts) : (a : Act) → Decidable (OwnFailure x a)
  | .dispatch => inferInstanceAs (Decidable (∀ q ∈ x.1.events.head?, q.event.isJoinFailed = true →
      x.2.running.map (·.number) = some q.sequence))
  | .init _ _ | .join _ _ _ | .leave _ | .set _ _ | .clearSettings _ | .publish _ _ => .isTrue trivial

/-- A failure of the first sequence is still queued when the second one starts. -/
def lateFailure : List Act :=
  [.init (.ok ()) (.ok ()), .join 1 ⟨-1, -1, 1⟩ joiningEnv, .publish (.joinFailed none) 1,
    .join 0 ⟨-1, -1, -1⟩ joiningEnv, .join 1 ⟨-1, -1, -1⟩ joiningEnv, .dispatch, .dispatch, .dispatch]

/-- It uses up an attempt of the second sequence. -/
theorem late_failure_uses_attempt : ¬ ∀ (as : List Act) (u : Service × Accounts),
    run (accountedStep fullBuild) (Service.init, ⟨none, 0⟩) as = some u →
    Always (accountedStep fullBuild) Accounted (Service.init, ⟨none, 0⟩) as := by
  intro h
  have hsome : (run (accountedStep fullBuild) (Service.init, ⟨none, 0⟩) lateFailure).isSome = true := by
    decide
  obtain ⟨u, hu⟩ := Option.isSome_iff_exists.1 hsome
  have hlast : (run (accountedStep fullBuild) (Service.init, ⟨none, 0⟩) lateFailure).map
      (fun x => (x.1.joinRetriesRemaining, x.2.running)) = some (0, some ⟨2, 1, 0⟩) := by
    decide
  rw [hu] at hlast
  have haccounted := h lateFailure u hu lateFailure u (List.prefix_refl _) hu
  obtain ⟨hzero, hrunning⟩ := Prod.mk.inj (Option.some.inj hlast)
  have hremaining := haccounted.remaining _ hrunning
  rw [hzero] at hremaining
  cases hremaining

/-- A sequence with one retry fails twice, and the subscribers are told once. -/
theorem own_failures_accounted :
    Always (accountedStep fullBuild) Accounted (Service.init, ⟨none, 0⟩)
      [.init (.ok ()) (.ok ()), .join 1 ⟨-1, -1, 1⟩ joiningEnv, .dispatch, .dispatch,
        .publish (.joinFailed none) 1, .dispatch, .publish (.joinFailed none) 1, .dispatch] := by
  have hsome : (run (accountedStep fullBuild) (Service.init, ⟨none, 0⟩)
      [.init (.ok ()) (.ok ()), .join 1 ⟨-1, -1, 1⟩ joiningEnv, .dispatch, .dispatch,
        .publish (.joinFailed none) 1, .dispatch, .publish (.joinFailed none) 1,
        .dispatch]).isSome = true := by decide
  obtain ⟨u, hu⟩ := Option.isSome_iff_exists.1 hsome
  exact (attempts_accounted_iff fullBuild _ u hu).2 (by decide)

end Rzi.Lorawan
