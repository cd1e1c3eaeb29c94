import Mathlib.Data.List.Nodup
import Mathlib.Data.List.Perm.Basic
import Rzi.Fuota

/-!
# The state_changed callback (`set_state_locked`)

`set_state_locked` changes the state under the mutex and invokes the callback after it has released it.
Between the two another thread may change the state and invoke its own callback. Every change is
reported once all the same; `reported_in_order` says in which runs the reports come in the order of the
changes.
-/

namespace Rzi.Fuota.Observe

/-- The dispatcher, or a thread in `rzi_fuota_apply`. -/
inductive Party where
  | dispatcher
  | applier (tid : Tid)
deriving DecidableEq, Repr

/-- The thread that takes a step. -/
def party : Act → Party
  | .call n => .applier (.app n)
  | .takeWork => .applier .work
  | .enter tid _ | .announced tid | .beginCopy tid _ | .copyChunk tid _ _ | .requestUpgrade tid _
  | .writeBack tid _ | .restored tid | .reboot tid => .applier tid
  | .start | .event _ _ | .dispatch | .setExpectedSize _ | .readImage _ _ => .dispatcher

/-- The argument of a `state_changed` callback. -/
def argument : Todo → Option FState
  | .stateChanged state => some state
  | _ => none

/-- The arguments of the callbacks made so far. -/
def reported (s : Sys) : List FState := s.observed.filterMap argument

def owes : Applier → Option FState
  | .announcing => some .applying
  | .restoring => some .complete
  | _ => none

/-- The state that a thread has changed to and not reported. -/
def owed (s : Sys) : Party → Option FState
  | .dispatcher => s.todo.head?.bind argument
  | .applier tid => owes (s.appliers tid)

/-- The service with the changes of its state, and those of them that are not reported, in their order. -/
structure Rec where
  sys : Sys
  changes : List FState
  pending : List (Party × FState)

def Rec.init : Rec := ⟨.init, [], []⟩

variable (b : Build)

def next (r : Rec) (a : Act) : Option Rec :=
  (step b r.sys a).map fun t =>
    if t.svc.state ≠ r.sys.svc.state then
      ⟨t, r.changes ++ [t.svc.state], r.pending ++ [(party a, t.svc.state)]⟩
    else if owed r.sys (party a) ≠ none ∧ owed t (party a) = none then
      ⟨t, r.changes, r.pending.filter (·.1 ≠ party a)⟩
    else ⟨t, r.changes, r.pending⟩

/-- No thread has a callback to make. -/
def Quiescent (s : Sys) : Prop := ∀ p, owed s p = none

/-- The step is not a callback that overtakes the callback of an earlier change to another state. -/
def NoOvertake (r : Rec) (a : Act) : Prop :=
  ∀ t, step b r.sys a = some t → owed r.sys (party a) ≠ none → owed t (party a) = none →
    ∀ before v after, r.pending = before ++ (party a, v) :: after → ∀ e ∈ before, e.2 = v

/-! ### What one step does -/

variable {b} {s t : Sys} {a : Act} {p : Party} {r r' : Rec}

/-- What a step by `p` does: nothing that concerns the reports, a change of the state that `p` is then
to report, or the report of one. -/
inductive Kind (s : Sys) (p : Party) (t : Sys) : Prop
  | quiet (hstate : t.svc.state = s.svc.state) (howed : owed t = owed s) (hrep : reported t = reported s)
  | change (hstate : t.svc.state ≠ s.svc.state) (hfree : owed s p = none)
      (howed : owed t = Function.update (owed s) p (some t.svc.state)) (hrep : reported t = reported s)
  | report (v : FState) (hstate : t.svc.state = s.svc.state) (hwas : owed s p = some v)
      (howed : owed t = Function.update (owed s) p none) (hrep : reported t = reported s ++ [v])

/-- At most the first of what is left to do is a change to report. -/
def Headed (s : Sys) : Prop := ∀ v, .stateChanged v ∉ s.todo.tail

theorem owed_applier {tid : Tid} {pc : Applier} (htodo : t.todo = s.todo)
    (happ : t.appliers = Function.update s.appliers tid pc) :
    owed t = Function.update (owed s) (.applier tid) (owes pc) := by
  funext p
  cases p with
  | dispatcher =>
    rw [Function.update_of_ne (by simp)]
    show t.todo.head?.bind argument = s.todo.head?.bind argument
    rw [htodo]
  | applier tid' =>
    show owes (t.appliers tid') = _
    rw [happ]
    by_cases h : tid' = tid
    · rw [h, Function.update_self, Function.update_self]
    · rw [Function.update_of_ne h, Function.update_of_ne (by simpa using h)]
      rfl

theorem owed_dispatcher (happ : t.appliers = s.appliers) :
    owed t = Function.update (owed s) .dispatcher (t.todo.head?.bind argument) := by
  funext p
  cases p with
  | dispatcher => rw [Function.update_self]; rfl
  | applier tid =>
    rw [Function.update_of_ne (by simp)]
    show owes (t.appliers tid) = owes (s.appliers tid)
    rw [happ]

theorem owed_todo (s : Sys) (svc : Service) (todo : List Todo) (work : WorkQueue.Item)
    (history : List Event) (observed : List Todo) :
    owed ⟨svc, todo, work, s.appliers, history, observed⟩ =
      Function.update (owed s) .dispatcher (todo.head?.bind argument) := by
  apply owed_dispatcher
  rfl

/-- A step of a thread in `rzi_fuota_apply` between two places where it owes nothing. -/
theorem Kind.moved {tid : Tid} {pc : Applier} (htodo : t.todo = s.todo)
    (happ : t.appliers = Function.update s.appliers tid pc) (hstate : t.svc.state = s.svc.state)
    (hobs : t.observed = s.observed) (hpc : owes pc = none) (hwas : owes (s.appliers tid) = none) :
    Kind s (.applier tid) t := by
  refine .quiet hstate ?_ (by rw [reported, hobs]; rfl)
  rw [owed_applier htodo happ, hpc]
  exact Function.update_eq_self_iff.2 hwas.symm

theorem Kind.same (htodo : t.todo = s.todo) (happ : t.appliers = s.appliers)
    (hstate : t.svc.state = s.svc.state) (hobs : t.observed = s.observed) : Kind s p t := by
  refine .quiet hstate ?_ (by rw [reported, hobs]; rfl)
  rw [owed_dispatcher happ, htodo]
  exact Function.update_eq_self_iff.2 rfl

theorem return_todo (s : Sys) (tid : Tid) :
    (s.return tid).todo = s.todo ∧ (s.return tid).svc = s.svc ∧ (s.return tid).observed = s.observed := by
  cases tid <;> exact ⟨rfl, rfl, rfl⟩

theorem Kind.returned {tid : Tid} (hwas : owes (s.appliers tid) = none) :
    Kind s (.applier tid) (s.return tid) := by
  obtain ⟨htodo, hsvc, hobs⟩ := return_todo s tid
  exact .moved htodo (return_appliers tid) (by rw [hsvc]) hobs rfl hwas

/-- The state that a section leaves, and what it leaves to do: a report exactly of a change. -/
def Announces (old : FState) (r : Service × List Todo) : Prop :=
  (r.1.state = old ∧ ∀ v, .stateChanged v ∉ r.2) ∨
    (r.1.state ≠ old ∧ ∃ rest, r.2 = .stateChanged r.1.state :: rest ∧ ∀ v, .stateChanged v ∉ rest)

theorem setState_announces (power : Bool) (next : FState) (svc : Service) :
    Announces svc.state (setState b power next svc) := by
  unfold setState
  by_cases h : svc.state = next
  · rw [if_pos h]
    exact .inl ⟨rfl, fun v => List.not_mem_nil⟩
  · rw [if_neg h]
    exact .inr ⟨fun heq => h heq.symm, [], rfl, fun v => List.not_mem_nil⟩

theorem Announces.append {old : FState} {svc : Service} {todo more : List Todo}
    (h : Announces old (svc, todo)) (hmore : ∀ v, .stateChanged v ∉ more) :
    Announces old (svc, todo ++ more) := by
  rcases h with ⟨hstate, hnone⟩ | ⟨hstate, rest, htodo, hrest⟩
  · refine .inl ⟨hstate, fun v hv => ?_⟩
    rcases List.mem_append.1 hv with hv | hv
    exacts [hnone v hv, hmore v hv]
  · refine .inr ⟨hstate, rest ++ more, ?_, fun v hv => ?_⟩
    · show todo ++ more = _
      rw [show todo = _ from htodo]
      rfl
    · rcases List.mem_append.1 hv with hv | hv
      exacts [hrest v hv, hmore v hv]

theorem handleEvent_announces (ans : Answers) (e : Event) (svc : Service) :
    Announces svc.state (handleEvent b ans e svc) := by
  have hnone : ∀ {todo : List Todo}, (∀ v, .stateChanged v ∉ todo) → Announces svc.state (svc, todo) :=
    fun h => .inl ⟨rfl, h⟩
  cases e with
  | joined => exact setState_announces ans.powerLockGet .ready _
  | joinFailed => exact setState_announces ans.powerLockGet .idle _
  | stateChanged ready =>
    unfold handleEvent
    dsimp only
    split
    · exact setState_announces ans.powerLockGet .idle _
    · exact hnone fun v => List.not_mem_nil
  | clockSynced | other => exact hnone fun v => List.not_mem_nil
  | sessionStarted =>
    exact (setState_announces ans.powerLockGet .transferring svc).append fun v => by simp
  | sessionEnded =>
    unfold handleEvent
    dsimp only
    split
    · exact setState_announces ans.powerLockGet .ready svc
    · exact hnone fun v => List.not_mem_nil
  | transferDone successful size =>
    show Announces svc.state (handleTransferDone b ans successful size svc)
    unfold handleTransferDone
    cases successful with
    | true =>
      rw [if_pos rfl]
      dsimp only
      have hauto : ∀ v, Todo.stateChanged v ∉ (if b.autoApply then [Todo.submitApply] else []) := by
        intro v
        split <;> simp
      refine Announces.append (Announces.append ?_ fun v => by simp) hauto
      split <;> exact setState_announces ans.powerLockGet .complete _
    | false =>
      rw [if_neg Bool.false_ne_true]
      exact (setState_announces ans.powerLockGet .failed _).append fun v => by simp
  | rebootRequested =>
    refine hnone fun v => ?_
    split <;> simp

theorem argument_eq_some {x : Todo} {v : FState} : argument x = some v ↔ x = .stateChanged v := by
  cases x <;> simp [argument]

theorem not_mem_head {todo : List Todo} (h : ∀ v, .stateChanged v ∉ todo) :
    todo.head?.bind argument = none := by
  cases todo with
  | nil => rfl
  | cons x todo =>
    show argument x = none
    rw [Option.eq_none_iff_forall_ne_some]
    intro v hv
    rw [argument_eq_some] at hv
    exact h v (by rw [hv]; exact List.mem_cons_self ..)

theorem handled_kind (ans : Answers) (e : Event) (htodo : s.todo = []) :
    Kind s .dispatcher { s with
      svc := (handleEvent b ans e s.svc).1
      todo := (handleEvent b ans e s.svc).2
      history := e :: s.history } ∧
    ∀ v, .stateChanged v ∉ (handleEvent b ans e s.svc).2.tail := by
  have hfree : owed s .dispatcher = none := by
    show s.todo.head?.bind argument = none
    rw [htodo]
    rfl
  rcases handleEvent_announces (b := b) ans e s.svc with ⟨hstate, hnone⟩ | ⟨hstate, rest, htodo', hrest⟩
  · refine ⟨.quiet hstate ?_ rfl, fun v hv => hnone v (List.mem_of_mem_tail hv)⟩
    rw [owed_todo, not_mem_head hnone]
    exact Function.update_eq_self_iff.2 hfree.symm
  · refine ⟨.change hstate hfree ?_ rfl, fun v hv => ?_⟩
    · rw [owed_todo, htodo']
      rfl
    · rw [htodo'] at hv
      exact hrest v hv

/-- The first of the things left to do is done: a report, or a step after which the dispatcher owes
nothing as before. -/
theorem dispatch_kind {callback : Todo} {todo : List Todo} (work : WorkQueue.Item)
    (htodo : s.todo = callback :: todo) (hs : Headed s) :
    (callback = .submitApply → Kind s .dispatcher { s with todo := todo, applyWork := work }) ∧
    (callback ≠ .submitApply →
      Kind s .dispatcher { s with todo := todo, observed := s.observed ++ [callback] }) ∧
    ∀ v, .stateChanged v ∉ todo.tail := by
  have htail : ∀ v, .stateChanged v ∉ todo := by
    intro v
    have hv := hs v
    rw [htodo] at hv
    exact hv
  have hwas : owed s .dispatcher = argument callback := by
    show s.todo.head?.bind argument = _
    rw [htodo]
    rfl
  have howed : ∀ work observed, owed ⟨s.svc, todo, work, s.appliers, s.history, observed⟩ =
      Function.update (owed s) .dispatcher none := by
    intro work observed
    rw [owed_todo, not_mem_head htail]
  have hquiet (h : argument callback = none) (work : WorkQueue.Item) (observed : List Todo) :
      owed ⟨s.svc, todo, work, s.appliers, s.history, observed⟩ = owed s :=
    (howed _ _).trans (Function.update_eq_self_iff.2 (hwas.trans h).symm)
  refine ⟨fun h => ?_, fun h => ?_, fun v hv => htail v (List.mem_of_mem_tail hv)⟩
  · exact .quiet rfl (hquiet (by rw [h]; rfl) _ _) rfl
  · have hobs : (s.observed ++ [callback]).filterMap argument =
        reported s ++ [callback].filterMap argument := List.filterMap_append
    cases callback with
    | stateChanged v => exact .report v rfl hwas (howed _ _) hobs
    | submitApply => exact absurd rfl h
    | sessionStarted | complete _ =>
      exact .quiet rfl (hquiet rfl _ _) (hobs.trans (List.append_nil _))

/-- A section of `rzi_fuota_apply` that calls `set_state_locked`. -/
theorem Kind.set {tid : Tid} {pc : Applier} {power : Bool} {next : FState} {svc : Service}
    (htodo : t.todo = s.todo) (happ : t.appliers = Function.update s.appliers tid pc)
    (hobs : t.observed = s.observed) (hsvc : t.svc = (setState b power next svc).1)
    (hold : svc.state = s.svc.state) (hpc : owes pc = if svc.state = next then none else some next)
    (hwas : owes (s.appliers tid) = none) : Kind s (.applier tid) t := by
  have hstate : t.svc.state = next := by rw [hsvc, setState_state]
  by_cases h : svc.state = next
  · rw [if_pos h] at hpc
    exact .moved htodo happ (by rw [hstate, ← h, hold]) hobs hpc hwas
  · rw [if_neg h] at hpc
    refine .change (fun heq => h ?_) hwas ?_ (by rw [reported, hobs]; rfl)
    · rw [hold, ← heq, hstate]
    · rw [owed_applier htodo happ, hpc, hstate]

theorem Kind.reports {tid : Tid} {pc : Applier} {v : FState} (htodo : t.todo = s.todo)
    (happ : t.appliers = Function.update s.appliers tid pc) (hstate : t.svc.state = s.svc.state)
    (hobs : t.observed = s.observed ++ [.stateChanged v]) (hpc : owes pc = none)
    (hwas : owes (s.appliers tid) = some v) : Kind s (.applier tid) t := by
  refine .report v hstate hwas ?_ ?_
  · rw [owed_applier htodo happ, hpc]
  · rw [reported, hobs, List.filterMap_append]
    rfl

theorem setState_todo (power : Bool) (next : FState) (svc : Service) :
    (setState b power next svc).2 = if svc.state = next then [] else [.stateChanged next] := by
  unfold setState
  split_ifs <;> rfl

theorem enterApply_kind {tid : Tid} (power : Bool) (hwas : owes (s.appliers tid) = none) :
    Kind s (.applier tid) (enterApply b tid power s) ∧ (enterApply b tid power s).todo = s.todo := by
  unfold enterApply
  split_ifs
  · exact ⟨.returned hwas, (return_todo s tid).1⟩
  · exact ⟨.returned hwas, (return_todo s tid).1⟩
  · refine ⟨.set rfl rfl rfl rfl rfl ?_ hwas, rfl⟩
    rw [setState_todo]
    by_cases h : s.svc.state = .applying
    · rw [if_pos h, if_pos h]
      rfl
    · rw [if_neg h, if_neg h]
      rfl

theorem writeBack_kind {tid : Tid} (rc : Err) (power : Bool) (hwas : owes (s.appliers tid) = none) :
    Kind s (.applier tid) (writeBack b tid rc power s) ∧ (writeBack b tid rc power s).todo = s.todo := by
  obtain ⟨htodo, -, hobs⟩ := return_todo s tid
  unfold writeBack
  dsimp only
  rw [setState_todo]
  by_cases h : s.svc.state = .complete
  · rw [if_pos h, if_pos rfl]
    exact ⟨.set htodo (return_appliers tid) hobs rfl rfl (by rw [if_pos h]; rfl) hwas, htodo⟩
  · rw [if_neg h, if_neg (List.cons_ne_nil _ _)]
    exact ⟨.set rfl rfl rfl rfl rfl (by rw [if_neg h]; rfl) hwas, rfl⟩

theorem Headed.same (hs : Headed s) (h : t.todo = s.todo) : Headed t := by
  intro v
  rw [h]
  exact hs v

theorem step_kind (h : step b s a = some t) (hs : Headed s) : Kind s (party a) t ∧ Headed t := by
  cases step_transition h with
  | notStarted | started | ignored | sizeRefused | sized | read => exact ⟨.same rfl rfl rfl rfl, hs⟩
  | handled e ans htodo hstarted => exact handled_kind ans e htodo
  | submitted todo htodo =>
    obtain ⟨hsubmit, -, hhead⟩ := dispatch_kind (s.applyWork.submit true) htodo hs
    exact ⟨hsubmit rfl, hhead⟩
  | observed callback todo htodo hcallback =>
    obtain ⟨-, hcall, hhead⟩ := dispatch_kind s.applyWork htodo hs
    exact ⟨hcall hcallback, hhead⟩
  | entered tid power hpc =>
    have hwas : owes (s.appliers tid) = none := by rw [hpc]; rfl
    have hkind := enterApply_kind (b := b) power hwas
    exact ⟨hkind.1, hs.same hkind.2⟩
  | announced tid hpc => exact ⟨.reports rfl rfl rfl rfl rfl (by rw [hpc]; rfl), hs⟩
  | wroteBack tid power rc hpc =>
    have hwas : owes (s.appliers tid) = none := by rw [hpc]; rfl
    have hkind := writeBack_kind (b := b) rc power hwas
    exact ⟨hkind.1, hs.same hkind.2⟩
  | restored tid hpc =>
    obtain ⟨htodo, hsvc, hobs⟩ := return_todo s tid
    refine ⟨.reports htodo (return_appliers tid) (by rw [hsvc]) ?_ rfl (by rw [hpc]; rfl), ?_⟩
    · rfl
    · exact hs.same htodo
  | unsupported tid | rebooted tid =>
    exact ⟨.returned (by rw [‹s.appliers tid = _›]; rfl), hs.same (return_todo s tid).1⟩
  | called | taken | beginFailed | begun | chunkFailed | chunkCopied | upgradeFailed | upgraded =>
    exact ⟨.moved rfl rfl rfl rfl rfl (by rw [‹s.appliers _ = _›]; rfl), hs⟩

/-! ### The changes and the reports -/

/-- What a step does to the changes and to those of them that are not reported. -/
inductive Move (b : Build) (r : Rec) (a : Act) : Rec → Prop
  | quiet (t : Sys) (ht : step b r.sys a = some t) (hhead : Headed t)
      (hstate : t.svc.state = r.sys.svc.state) (howed : owed t = owed r.sys)
      (hrep : reported t = reported r.sys) : Move b r a ⟨t, r.changes, r.pending⟩
  | change (t : Sys) (ht : step b r.sys a = some t) (hhead : Headed t)
      (hfree : owed r.sys (party a) = none)
      (howed : owed t = Function.update (owed r.sys) (party a) (some t.svc.state))
      (hrep : reported t = reported r.sys) :
      Move b r a ⟨t, r.changes ++ [t.svc.state], r.pending ++ [(party a, t.svc.state)]⟩
  | report (t : Sys) (v : FState) (ht : step b r.sys a = some t) (hhead : Headed t)
      (hstate : t.svc.state = r.sys.svc.state) (hwas : owed r.sys (party a) = some v)
      (howed : owed t = Function.update (owed r.sys) (party a) none)
      (hrep : reported t = reported r.sys ++ [v]) :
      Move b r a ⟨t, r.changes, r.pending.filter (·.1 ≠ party a)⟩

theorem next_move (h : next b r a = some r') (hs : Headed r.sys) : Move b r a r' := by
  obtain ⟨t, ht, rfl⟩ := Option.map_eq_some_iff.1 h
  obtain ⟨hkind, hhead⟩ := step_kind ht hs
  cases hkind with
  | quiet hstate howed hrep =>
    rw [if_neg (not_not.2 hstate), if_neg (by rw [howed]; exact fun h => h.1 h.2)]
    exact .quiet t ht hhead hstate howed hrep
  | change hstate hfree howed hrep =>
    rw [if_pos hstate]
    exact .change t ht hhead hfree howed hrep
  | report v hstate hwas howed hrep =>
    rw [if_neg (not_not.2 hstate),
      if_pos ⟨by rw [hwas]; exact Option.some_ne_none v, by rw [howed, Function.update_self]⟩]
    exact .report t v ht hhead hstate hwas howed hrep

/-- Exactly the changes that are not reported are owed, each by one thread. -/
structure Books (r : Rec) : Prop where
  headed : Headed r.sys
  owed : ∀ p v, owed r.sys p = some v ↔ (p, v) ∈ r.pending
  nodup : (r.pending.map Prod.fst).Nodup
  last : r.changes.getLast?.getD .idle = r.sys.svc.state
  perm : (reported r.sys ++ r.pending.map Prod.snd).Perm r.changes

theorem Books.init : Books .init :=
  ⟨fun _ => List.not_mem_nil,
    fun p v => by cases p <;> exact ⟨fun h => (by cases h), fun h => (by cases h)⟩, .nil, rfl, .refl _⟩

theorem Books.split (h : Books r) {v : FState} (hwas : Observe.owed r.sys p = some v) :
    ∃ before after, r.pending = before ++ (p, v) :: after ∧
      r.pending.filter (·.1 ≠ p) = before ++ after := by
  obtain ⟨before, after, hp⟩ := List.append_of_mem ((h.owed p v).1 hwas)
  refine ⟨before, after, hp, ?_⟩
  have hnd := h.nodup
  rw [hp, List.map_append, List.map_cons] at hnd
  obtain ⟨hnot, -⟩ := List.nodup_cons.1 (List.nodup_middle.1 hnd)
  have hall : ∀ e ∈ before ++ after, decide (e.1 ≠ p) = true := by
    intro e he
    refine decide_eq_true fun heq => hnot ?_
    rw [← List.map_append]
    exact List.mem_map.2 ⟨e, he, heq⟩
  rw [List.filter_eq_self.2 hall |>.symm, hp]
  simp only [List.filter_append, List.filter_cons, ne_eq, not_true_eq_false, decide_false,
    Bool.false_eq_true, if_false]

theorem Books.move (h : Books r) (hm : Move b r a r') : Books r' := by
  cases hm with
  | quiet t _ hhead hstate howed hrep =>
    refine ⟨hhead, fun p v => ?_, h.nodup, h.last.trans hstate.symm, ?_⟩
    · rw [howed]
      exact h.owed p v
    · rw [hrep]
      exact h.perm
  | change t _ hhead hfree howed hrep =>
    have hnot : ∀ v, (party a, v) ∉ r.pending := by
      intro v hv
      rw [(h.owed _ v).2 hv] at hfree
      cases hfree
    refine ⟨hhead, fun p v => ?_, ?_, ?_, ?_⟩
    · rw [howed, List.mem_append, List.mem_singleton, Prod.mk.injEq]
      by_cases hp : p = party a
      · rw [hp, Function.update_self, Option.some_inj]
        refine ⟨fun hv => .inr ⟨rfl, hv.symm⟩, fun hv => ?_⟩
        rcases hv with hv | hv
        exacts [absurd hv (hnot v), hv.2.symm]
      · rw [Function.update_of_ne hp, h.owed]
        exact ⟨.inl, fun hv => hv.elim id fun hv => (hp hv.1).elim⟩
    · rw [List.map_append, List.map_singleton]
      refine List.nodup_append.2 ⟨h.nodup, List.nodup_singleton _, ?_⟩
      rintro p hp q hq rfl
      obtain ⟨e, he, rfl⟩ := List.mem_map.1 hp
      have heq : e.1 = party a := List.mem_singleton.1 hq
      exact hnot e.2 (by rw [← heq]; exact he)
    · rw [List.getLast?_append]
      rfl
    · rw [hrep, List.map_append, ← List.append_assoc]
      exact h.perm.append_right _
  | report t v _ hhead hstate hwas howed hrep =>
    obtain ⟨before, after, hp, hfilter⟩ := h.split hwas
    refine ⟨hhead, fun p v => ?_, ?_, h.last.trans hstate.symm, ?_⟩
    · rw [howed, List.mem_filter, decide_eq_true_iff]
      by_cases hp : p = party a
      · rw [hp, Function.update_self]
        exact ⟨fun hv => (by cases hv), fun hv => (hv.2 rfl).elim⟩
      · rw [Function.update_of_ne hp, h.owed]
        exact ⟨fun hv => ⟨hv, hp⟩, fun hv => hv.1⟩
    · exact h.nodup.sublist (List.filter_sublist.map _)
    · have hperm := h.perm
      rw [hp] at hperm
      show (reported t ++ (r.pending.filter (·.1 ≠ party a)).map Prod.snd).Perm r.changes
      rw [hfilter, hrep, List.append_assoc]
      refine .trans (.append_left _ ?_) hperm
      rw [List.map_append, List.map_append, List.map_cons, List.singleton_append]
      exact List.perm_middle.symm

theorem Books.next (h : Books r) (hn : next b r a = some r') : Books r' := h.move (next_move hn h.headed)

theorem Books.settled (h : Books r) : Quiescent r.sys ↔ r.pending = [] := by
  constructor
  · intro hq
    refine List.eq_nil_iff_forall_not_mem.2 fun e he => ?_
    have howed := (h.owed e.1 e.2).2 he
    rw [hq e.1] at howed
    cases howed
  · intro hp p
    refine Option.eq_none_iff_forall_ne_some.2 fun v hv => ?_
    have hmem := (h.owed p v).1 hv
    rw [hp] at hmem
    cases hmem

/-- The reports are the changes so far, in their order, but for those at the end that are not reported. -/
def Faithful (r : Rec) : Prop := reported r.sys ++ r.pending.map Prod.snd = r.changes

theorem cons_eq_concat {α : Type} {v : α} {l : List α} (h : ∀ w ∈ l, w = v) : v :: l = l ++ [v] := by
  rw [List.eq_replicate_of_mem h, ← List.replicate_succ, List.replicate_succ']

theorem Faithful.move (hf : Faithful r) (hb : Books r) (hG : NoOvertake b r a) (hm : Move b r a r') :
    Faithful r' := by
  cases hm with
  | quiet t _ _ _ _ hrep =>
    show reported t ++ _ = _
    rw [hrep]
    exact hf
  | change t _ _ _ _ hrep =>
    show reported t ++ _ = _
    rw [hrep, List.map_append, ← List.append_assoc]
    exact congrArg (· ++ _) hf
  | report t v ht _ _ hwas howed hrep =>
    obtain ⟨before, after, hp, hfilter⟩ := hb.split hwas
    have hsame := hG t ht (by rw [hwas]; exact Option.some_ne_none v)
      (by rw [howed, Function.update_self]) before v after hp
    have hmap : ∀ w ∈ before.map Prod.snd, w = v := by
      intro w hw
      obtain ⟨e, he, rfl⟩ := List.mem_map.1 hw
      exact hsame e he
    show reported t ++ (r.pending.filter (·.1 ≠ party a)).map Prod.snd = r.changes
    unfold Faithful at hf
    rw [hp, List.map_append, List.map_cons] at hf
    calc reported t ++ (r.pending.filter (·.1 ≠ party a)).map Prod.snd
        = reported r.sys ++ ((v :: before.map Prod.snd) ++ after.map Prod.snd) := by
          rw [hfilter, hrep, List.map_append, List.append_assoc]
          rfl
      _ = reported r.sys ++ ((before.map Prod.snd ++ [v]) ++ after.map Prod.snd) := by
          rw [cons_eq_concat hmap]
      _ = r.changes := by rw [List.append_assoc, List.singleton_append]; exact hf

/-! ### With one thread in `rzi_fuota_apply` -/

/-- Only the dispatcher and the thread `tid` have changes to report. -/
def Solo (tid : Tid) (r : Rec) : Prop := ∀ e ∈ r.pending, e.1 = .dispatcher ∨ e.1 = .applier tid

theorem Solo.move {tid : Tid} (h : Solo tid r) (ha : party a = .dispatcher ∨ party a = .applier tid)
    (hm : Move b r a r') : Solo tid r' := by
  cases hm with
  | quiet => exact h
  | change t =>
    intro e he
    rcases List.mem_append.1 he with he | he
    · exact h e he
    · rw [List.mem_singleton.1 he]
      exact ha
  | report => exact fun e he => h e (List.mem_filter.1 he).1

theorem Solo.length_le {tid : Tid} (h : Solo tid r) (hb : Books r) : r.pending.length ≤ 2 := by
  have hsub : r.pending.map Prod.fst ⊆ [.dispatcher, .applier tid] := by
    intro p hp
    obtain ⟨e, he, rfl⟩ := List.mem_map.1 hp
    rcases h e he with h | h <;> rw [h] <;> simp
  have hlen := List.Nodup.length_le_of_subset hb.nodup hsub
  rwa [List.length_map] at hlen

/-- A callback that overtakes another puts the reports out of the order of the changes. -/
theorem NoOvertake.of_prefix {tid : Tid} (hf : Faithful r) (hb : Books r) (hsolo : Solo tid r)
    (hm : Move b r a r') (hpre : reported r'.sys <+: r'.changes) : NoOvertake b r a := by
  intro t ht hwas hthen before v after hp e he
  cases hm with
  | quiet t' ht' _ _ howed _ =>
    cases ht.symm.trans ht'
    rw [howed] at hthen
    exact absurd hthen hwas
  | change t' ht' _ hfree _ _ => exact absurd hfree hwas
  | report t' v' ht' _ _ hv' _ hrep =>
    have hv : v' = v := by
      have hmem := (hb.owed (party a) v).2 (by rw [hp]; simp)
      rw [hv'] at hmem
      exact Option.some_inj.1 hmem
    -- with at most two changes to report, the other one is the first and this one the last
    have hlen := hsolo.length_le hb
    rw [hp, List.length_append, List.length_cons] at hlen
    obtain ⟨e', rfl⟩ : ∃ e', before = [e'] := by
      refine List.length_eq_one_iff.1 ?_
      have := List.length_pos_of_mem he
      omega
    rw [List.mem_singleton.1 he]
    unfold Faithful at hf
    rw [← hf, hp, hrep, List.prefix_append_right_inj] at hpre
    simp only [List.singleton_append, List.map_cons, List.cons_prefix_cons] at hpre
    rw [← hpre.1, hv]

theorem Move.mono (hm : Move b r a r') :
    reported r.sys <+: reported r'.sys ∧ r.changes <+: r'.changes := by
  cases hm with
  | quiet t _ _ _ _ hrep =>
    rw [hrep]
    exact ⟨List.prefix_refl _, List.prefix_refl _⟩
  | change t _ _ _ _ hrep =>
    rw [hrep]
    exact ⟨List.prefix_refl _, List.prefix_append ..⟩
  | report t v _ _ _ _ _ hrep =>
    rw [hrep]
    exact ⟨List.prefix_append .., List.prefix_refl _⟩

theorem run_mono {as : List Act} (hb : Books r) (hr : Lts.run (next b) r as = some r') :
    Books r' ∧ reported r.sys <+: reported r'.sys ∧ r.changes <+: r'.changes := by
  refine Lts.run_invariant' (I := fun u => Books u ∧ reported r.sys <+: reported u.sys ∧
    r.changes <+: u.changes) ?_ ⟨hb, List.prefix_refl _, List.prefix_refl _⟩ hr
  rintro u a w ⟨hb, hrep, hch⟩ hn
  obtain ⟨hrep', hch'⟩ := (next_move hn hb.headed).mono
  exact ⟨hb.next hn, hrep.trans hrep', hch.trans hch'⟩

theorem Books.length_le (h : Books r) : (reported r.sys).length ≤ r.changes.length := by
  have hlen := h.perm.length_eq
  rw [List.length_append] at hlen
  omega

theorem prefix_iff_meets {tid : Tid} {as : List Act} (hb : Books r) (hf : Faithful r)
    (hsolo : Solo tid r) (has : ∀ a ∈ as, party a = .dispatcher ∨ party a = .applier tid)
    (hr : Lts.run (next b) r as = some r') :
    reported r'.sys <+: r'.changes ↔ Lts.Meets (next b) (NoOvertake b) r as := by
  induction as generalizing r with
  | nil =>
    cases hr
    exact ⟨fun _ => trivial, fun _ => ⟨_, hf⟩⟩
  | cons a as ih =>
    obtain ⟨u, hn, hr⟩ := Lts.run_cons_eq_some.1 hr
    have hm := next_move hn hb.headed
    have hsolo' := hsolo.move (has a (List.mem_cons_self ..)) hm
    have has' : ∀ a ∈ as, party a = .dispatcher ∨ party a = .applier tid :=
      fun a ha => has a (List.mem_cons_of_mem _ ha)
    constructor
    · intro hpre
      -- what is in order at the end is in order after the step
      obtain ⟨-, hrep, hch⟩ := run_mono (hb.next hn) hr
      have hpre' : reported u.sys <+: u.changes :=
        List.prefix_of_prefix_length_le (hrep.trans hpre) hch (hb.next hn).length_le
      have hG := NoOvertake.of_prefix hf hb hsolo hm hpre'
      exact .cons hn hG ((ih (hb.next hn) (hf.move hb hG hm) hsolo' has' hr).1 hpre)
    · rintro ⟨hG, h⟩
      exact (ih (hb.next hn) (hf.move hb hG hm) hsolo' has' hr).2 (h u hn)

theorem next_sys (r : Rec) (a : Act) : (next b r a).map Rec.sys = step b r.sys a := by
  unfold next
  rw [Option.map_map]
  refine (Option.map_congr fun t _ => ?_).trans (Option.map_id' ..)
  show Rec.sys (ite _ _ _) = t
  split_ifs <;> rfl

/-- The record follows the service. -/
theorem run_next (as : List Act) (r : Rec) :
    (Lts.run (next b) r as).map Rec.sys = Lts.run (step b) r.sys as := by
  induction as generalizing r with
  | nil => rfl
  | cons a as ih =>
    rw [Lts.run_cons, Lts.run_cons, ← next_sys, Option.map_bind]
    cases next b r a with
    | none => rfl
    | some u => exact ih u

/-- In every run, where no thread has a callback to make, every change has been reported once. If no
callback overtook one of another thread for an earlier change, the reports are in the order of the
changes and the last one is the current state. Where one thread at most is in `rzi_fuota_apply`, they are
in that order in no other case. -/
theorem reported_in_order (b : Build) (as : List Act) (r : Rec)
    (hr : Lts.run (next b) .init as = some r) (hq : Quiescent r.sys) :
    (reported r.sys).Perm r.changes ∧
      (Lts.Meets (next b) (NoOvertake b) .init as →
        reported r.sys = r.changes ∧ (reported r.sys).getLast?.getD .idle = r.sys.svc.state) ∧
      ∀ tid, (∀ a ∈ as, party a = .dispatcher ∨ party a = .applier tid) →
        (reported r.sys = r.changes ↔ Lts.Meets (next b) (NoOvertake b) .init as) := by
  have hb : Books r := (run_mono .init hr).1
  have hp : r.pending = [] := hb.settled.1 hq
  have hperm : (reported r.sys).Perm r.changes := by
    have hperm := hb.perm
    rwa [hp, List.map_nil, List.append_nil] at hperm
  refine ⟨hperm, fun hG => ?_, fun tid has => ?_⟩
  · have hstep : ∀ u a w, Books u ∧ Faithful u → NoOvertake b u a → next b u a = some w →
        Books w ∧ Faithful w :=
      fun u a w h hG hn => ⟨h.1.next hn, h.2.move h.1 hG (next_move hn h.1.headed)⟩
    have hf : Faithful r := (Lts.run_invariant hstep ⟨.init, rfl⟩ hG hr).2
    have heq : reported r.sys = r.changes := by
      rwa [Faithful, hp, List.map_nil, List.append_nil] at hf
    exact ⟨heq, by rw [heq, hb.last]⟩
  · rw [← prefix_iff_meets .init rfl (fun e he => (by cases he)) has hr]
    exact ⟨fun h => h ▸ List.prefix_rfl, fun h => h.eq_of_length hperm.length_eq⟩

/-- A session starts during a failed installation, and its callback is made before that of the change
back to COMPLETE. -/
def overtaken : List Act :=
  firstTransfer ++
    [.call 0, .enter (.app 0) true, .announced (.app 0), .beginCopy (.app 0) (some .io),
      .writeBack (.app 0) true, .event .sessionStarted goodAnswers, .dispatch, .dispatch,
      .restored (.app 0)]

theorem last_report_stale : ¬ ∀ (b : Build) (as : List Act) (r : Rec),
    Lts.run (next b) .init as = some r → Quiescent r.sys →
      reported r.sys = r.changes ∧ (reported r.sys).getLast?.getD .idle = r.sys.svc.state := by
  intro h
  have hr : Lts.run (next fullBuild) .init overtaken = some _ := rfl
  have hlast := (h fullBuild overtaken _ hr ((run_mono .init hr).1.settled.2 rfl)).2
  cases hlast

theorem reported_in_order_failed_install :
    ∃ r, Lts.run (next fullBuild) .init (firstTransfer ++
        [.call 0, .enter (.app 0) true, .announced (.app 0), .beginCopy (.app 0) (some .io),
          .writeBack (.app 0) true, .restored (.app 0)]) = some r ∧
      reported r.sys = [.transferring, .complete, .applying, .complete] ∧
      Lts.Meets (next fullBuild) (NoOvertake fullBuild) .init (firstTransfer ++
        [.call 0, .enter (.app 0) true, .announced (.app 0), .beginCopy (.app 0) (some .io),
          .writeBack (.app 0) true, .restored (.app 0)]) := by
  have hr : Lts.run (next fullBuild) .init (firstTransfer ++
      [.call 0, .enter (.app 0) true, .announced (.app 0), .beginCopy (.app 0) (some .io),
        .writeBack (.app 0) true, .restored (.app 0)]) = some _ := rfl
  have horder := reported_in_order fullBuild _ _ hr ((run_mono .init hr).1.settled.2 rfl)
  refine ⟨_, hr, rfl, (horder.2.2 (.app 0) ?_).1 rfl⟩
  decide

end Rzi.Fuota.Observe
