import Rzi.JoinThreads

/-!
# The two join flags

`join_sequence_active` and `credentials.join_active` are written one after the other: a start sets
the first and then the second, `clear_join_sequence` clears the first and then the second, with no
lock around either pair. `flags_agree` says when they agree once all calls have returned: no start
sets `join_active` after the sequence was cleared under it, unless that clear has its own write of
`join_active` still ahead, and no clear resets `join_active` after a new sequence has set it.
-/

namespace Rzi.Lorawan
open Lts

/-- Between the `atomic_cas` of a start and its write of `join_active`. -/
def Pc.starting : Pc → Bool
  | .retriesDue _ _ | .activeDue _ => true
  | _ => false

/-- Between the `atomic_clear` of a clear and its write of `join_active`. -/
def Pc.clearing : Pc → Bool
  | .clearRetriesDue | .clearActiveDue => true
  | _ => false

/-- Before the write of `join_active` in a start. -/
def Pc.atActive : Pc → Bool
  | .activeDue _ => true
  | _ => false

variable {ι : Type*}

/-- No call and no dispatch is in progress. -/
def Threads.Quiescent (x : Threads ι) : Prop := ∀ i, x.pc i = .idle

def Threads.FlagsAgree (x : Threads ι) : Prop :=
  x.Quiescent → x.shared.joinSequenceActive = x.shared.credentials.joinActive

/-- The writes of `join_active` come in the order of the writes of `join_sequence_active`: a start
writes it while the sequence is active, or a clear is still to write it; a clear writes it while no
sequence is active, or a start is still to write it. -/
def InOrder (x : Threads ι) : ThreadAct ι → Prop
  | .next i _ =>
    ((x.pc i).atActive = true → x.shared.joinSequenceActive = true ∨
      ∃ j, (x.pc j).clearing = true) ∧
    (x.pc i = .clearActiveDue → x.shared.joinSequenceActive = false ∨
      ∃ j, (x.pc j).starting = true)
  | _ => True

/-- Where the flags differ, a thread is about to write the second one. -/
structure FlagsInv (x : Threads ι) : Prop where
  active : x.shared.joinSequenceActive = true →
    x.shared.credentials.joinActive = true ∨ ∃ j, (x.pc j).starting = true
  inactive : x.shared.joinSequenceActive = false →
    x.shared.credentials.joinActive = false ∨ ∃ j, (x.pc j).clearing = true

variable {build : Build} {env : Env} {x y : Threads ι} {a : ThreadAct ι} {i : ι}

theorem flagsInv_init : FlagsInv (Threads.init : Threads ι) :=
  ⟨(fun h => by cases h), fun _ => .inl rfl⟩

theorem FlagsInv.agree (h : FlagsInv x) : x.FlagsAgree := by
  intro hquiet
  cases hactive : x.shared.joinSequenceActive with
  | true =>
    rcases h.active hactive with hj | ⟨j, hj⟩
    · exact hj.symm
    · rw [hquiet j] at hj
      cases hj
  | false =>
    rcases h.inactive hactive with hj | ⟨j, hj⟩
    · exact hj.symm
    · rw [hquiet j] at hj
      cases hj

/-! ### One step -/

/-- The step of a thread leaves the flags alone, and the thread is between no two writes, or it is one
of the four writes. -/
inductive FlagStep (m : Shared) : Pc → Pc → Shared → Prop
  | other {p p' : Pc} {m' : Shared} (hactive : m'.joinSequenceActive = m.joinSequenceActive)
      (hjoin : m'.credentials.joinActive = m.credentials.joinActive)
      (hstarting : p.starting = true → p'.starting = true)
      (hclearing : p.clearing = true → p'.clearing = true) : FlagStep m p p' m'
  | set {p p' : Pc} {m' : Shared} (hactive : m'.joinSequenceActive = true)
      (hp : p'.starting = true) (hclearing : p.clearing = false) : FlagStep m p p' m'
  | setActive {config : Zephyr.JoinConfig} {p' : Pc} {m' : Shared}
      (hactive : m'.joinSequenceActive = m.joinSequenceActive)
      (hjoin : m'.credentials.joinActive = true) : FlagStep m (.activeDue config) p' m'
  | clear {p p' : Pc} {m' : Shared} (hactive : m'.joinSequenceActive = false)
      (hp : p'.clearing = true) (hstarting : p.starting = false) : FlagStep m p p' m'
  | clearActive {p' : Pc} {m' : Shared} (hactive : m'.joinSequenceActive = m.joinSequenceActive)
      (hjoin : m'.credentials.joinActive = false) : FlagStep m .clearActiveDue p' m'

theorem advance_flagStep (build : Build) (env : Env) (m : Shared) (pc : Pc) :
    FlagStep m pc (advance build env m pc).1 (advance build env m pc).2 := by
  cases pc with
  | policyDue start policy =>
    exact .other rfl (updatePolicy_joinActive policy env.settings m.credentials) (by simp [Pc.starting])
      (by simp [Pc.clearing])
  | activationDue =>
    exact .other rfl (readLocked_joinActive _ env.settings m.credentials) (by simp [Pc.starting])
      (by simp [Pc.clearing])
  | attemptsDue =>
    exact .other rfl (readLocked_joinActive _ env.settings m.credentials) (by simp [Pc.starting])
      (by simp [Pc.clearing])
  | configDue attempts =>
    exact .other rfl (readLocked_joinActive _ env.settings m.credentials) (by simp [Pc.starting])
      (by simp [Pc.clearing])
  | casDue config attempts =>
    simp only [advance]
    split
    · exact .other rfl rfl (by simp [Pc.starting]) (by simp [Pc.clearing])
    · exact .set rfl rfl rfl
  | retriesDue config attempts => exact .other rfl rfl (fun _ => rfl) (by simp [Pc.clearing])
  | activeDue config => exact .setActive rfl rfl
  | clearFlagDue => exact .clear rfl rfl rfl
  | clearRetriesDue => exact .other rfl rfl (by simp [Pc.starting]) (fun _ => rfl)
  | clearActiveDue => exact .clearActive rfl rfl
  | _ => exact .other rfl rfl (by simp [Pc.starting]) (by simp [Pc.clearing])

variable [DecidableEq ι]

/-- Another thread stays where it is. -/
theorem exists_update {P : Pc → Bool} {p' : Pc} (hi : P (x.pc i) = true → P p' = true)
    (h : ∃ j, P (x.pc j) = true) : ∃ j, P (Function.update x.pc i p' j) = true := by
  obtain ⟨j, hj⟩ := h
  refine ⟨j, ?_⟩
  by_cases hji : j = i
  · rw [hji, Function.update_self]
    exact hi (hji ▸ hj)
  · rw [Function.update_of_ne hji]
    exact hj

theorem FlagsInv.goto (h : FlagsInv x) (hidle : x.pc i = .idle) (pc : Pc) : FlagsInv (x.goto i pc) := by
  refine ⟨fun ha => ?_, fun ha => ?_⟩
  · rcases h.active ha with hj | hj
    · exact .inl hj
    · exact .inr (exists_update (by simp [hidle, Pc.starting]) hj)
  · rcases h.inactive ha with hj | hj
    · exact .inl hj
    · exact .inr (exists_update (by simp [hidle, Pc.clearing]) hj)

theorem FlagsInv.advance (h : FlagsInv x) (hord : InOrder x (.next i env)) :
    FlagsInv ⟨(advance build env x.shared (x.pc i)).2,
      Function.update x.pc i (Lorawan.advance build env x.shared (x.pc i)).1⟩ := by
  have hstep := advance_flagStep build env x.shared (x.pc i)
  obtain ⟨hset, hclear⟩ := hord
  generalize (Lorawan.advance build env x.shared (x.pc i)).1 = p' at hstep ⊢
  generalize (Lorawan.advance build env x.shared (x.pc i)).2 = m' at hstep ⊢
  generalize hp : x.pc i = p at hstep
  cases hstep with
  | other hactive hjoin hstarting hclearing =>
    refine ⟨fun ha => ?_, fun ha => ?_⟩
    · rw [hjoin]
      rcases h.active (hactive.symm.trans ha) with hj | hj
      · exact .inl hj
      · exact .inr (exists_update (by rwa [hp]) hj)
    · rw [hjoin]
      rcases h.inactive (hactive.symm.trans ha) with hj | hj
      · exact .inl hj
      · exact .inr (exists_update (by rwa [hp]) hj)
  | set hactive hstarting hclearing =>
    refine ⟨fun _ => .inr ⟨i, by simp [hstarting]⟩, fun ha => ?_⟩
    exact absurd (hactive.symm.trans ha) (by decide)
  | setActive hactive hjoin =>
    refine ⟨fun _ => .inl hjoin, fun ha => .inr ?_⟩
    rcases hset (by rw [hp]; rfl) with hs | hs
    · exact absurd (hs.symm.trans (hactive.symm.trans ha)) (by decide)
    · exact exists_update (by simp [hp, Pc.clearing]) hs
  | clear hactive hclearing hstarting =>
    refine ⟨fun ha => ?_, fun _ => .inr ⟨i, by simp [hclearing]⟩⟩
    exact absurd (hactive.symm.trans ha) (by decide)
  | clearActive hactive hjoin =>
    refine ⟨fun ha => .inr ?_, fun _ => .inl hjoin⟩
    rcases hclear hp with hs | hs
    · exact absurd (hs.symm.trans (hactive.symm.trans ha)) (by decide)
    · exact exists_update (by simp [hp, Pc.starting]) hs

/-! ### Whole runs -/

theorem FlagsInv.step (h : FlagsInv x) (hord : InOrder x a) (hy : threadStep build x a = some y) :
    FlagsInv y := by
  cases a with
  | join i start policy =>
    simp only [threadStep] at hy
    split at hy
    · cases hy
    rename_i hidle
    split at hy
    · cases hy
      exact h
    · cases hy
      exact h.goto (not_not.1 hidle) _
  | event i joined =>
    simp only [threadStep] at hy
    split at hy
    · cases hy
    · rename_i hidle
      cases hy
      exact h.goto (not_not.1 hidle) _
  | next i env =>
    simp only [threadStep] at hy
    split at hy
    · cases hy
    · cases hy
      exact h.advance hord
  | set setter a =>
    cases hy
    have hjoin := @Setter.call_joinActive build setter a x.shared.credentials
    refine ⟨fun ha => ?_, fun ha => ?_⟩
    · rw [hjoin]
      exact h.active ha
    · rw [hjoin]
      exact h.inactive ha

/-- **When the two flags agree.** In every interleaving of joins, stops, events and setters on any
threads whose writes of `join_active` come in order, the flags agree in every state in which no call
and no dispatch is in progress. -/
theorem flags_agree (build : Build) (as : List (ThreadAct ι))
    (hord : Meets (threadStep build) InOrder (Threads.init : Threads ι) as) :
    Always (threadStep build) Threads.FlagsAgree (Threads.init : Threads ι) as :=
  always_of_invariant (fun _ h => h.agree) (fun _ _ _ h hG hy => h.step hG hy) flagsInv_init hord

instance decidableInOrder {n : Nat} (x : Threads (Fin n)) :
    (a : ThreadAct (Fin n)) → Decidable (InOrder x a)
  | .next i _ => inferInstanceAs (Decidable
      (((x.pc i).atActive = true → x.shared.joinSequenceActive = true ∨
        ∃ j, (x.pc j).clearing = true) ∧
      (x.pc i = .clearActiveDue → x.shared.joinSequenceActive = false ∨
        ∃ j, (x.pc j).starting = true)))
  | .join _ _ _ | .event _ _ | .set _ _ => .isTrue trivial

/-- Thread 1 stops the join of thread 0 between its two writes. -/
def stopWithinStart : List (ThreadAct (Fin 2)) :=
  .join 0 true ⟨-1, -1, -1⟩ :: List.replicate 5 (.next 0 joiningEnv) ++
    .join 1 false ⟨-1, -1, -1⟩ :: List.replicate 6 (.next 1 joiningEnv) ++
    List.replicate 3 (.next 0 joiningEnv)

/-- The setters are then refused although no sequence is active. -/
theorem stop_within_start_blocks_setters : ¬ ∀ as : List (ThreadAct (Fin 2)),
    Always (threadStep fullBuild) Threads.FlagsAgree Threads.init as := by
  intro h
  have hsome : (run (threadStep fullBuild) (Threads.init : Threads (Fin 2)) stopWithinStart).map
      (fun x => (decide (∀ i, x.pc i = .idle), x.shared.joinSequenceActive,
        x.shared.credentials.joinActive)) = some (true, false, true) := by
    decide
  obtain ⟨x, hx, heq⟩ := Option.map_eq_some_iff.1 hsome
  obtain ⟨hquiet, hflags⟩ := Prod.mk.inj heq
  obtain ⟨hactive, hjoin⟩ := Prod.mk.inj hflags
  have hidle : ∀ i, x.pc i = .idle := of_decide_eq_true hquiet
  have hagree := h stopWithinStart stopWithinStart x (List.prefix_refl _) hx hidle
  rw [hactive, hjoin] at hagree
  cases hagree

/-- A start that has returned and is then stopped keeps the order. -/
theorem stop_after_start_agrees :
    Always (threadStep fullBuild) Threads.FlagsAgree (Threads.init : Threads (Fin 2))
      (.join 0 true ⟨-1, -1, -1⟩ :: List.replicate 8 (.next 0 joiningEnv) ++
        .join 1 false ⟨-1, -1, -1⟩ :: List.replicate 6 (.next 1 joiningEnv)) :=
  flags_agree fullBuild _ (by decide)

end Rzi.Lorawan
