import Rzi.LorawanService
import Rzi.Lib.Run

/-!
# The event queue of the service (`src/lorawan/lorawan.c`)

`publish` puts an event into the message queue and, when the queue is full, sets `overflow` in a step
of its own; the dispatcher takes one event, dispatches it and only then looks at the flag. Publishers
and the dispatcher interleave freely, and the queue has any capacity.

`losses_reported_iff` says when each loss is reported: a publisher that sets the flag only after the
dispatcher has emptied the queue and gone to wait leaves the flag to a later event.
-/

namespace Rzi.Lorawan.Events
open Lts

/-- What the dispatcher passes to `dispatch` when it finds the flag set. -/
def overflowError : BackendEvent := .error (some .overflow)

/-- Where the dispatcher is in its loop. -/
inductive Pc where
  | waiting
  | dispatching (event : BackendEvent)
  | testing
  | reporting
deriving DecidableEq, Repr

/-- What happened to an event, or the report of a loss. -/
inductive Entry where
  | accepted (event : BackendEvent)
  | rejected (event : BackendEvent)
  | dispatched (event : BackendEvent)
  | reported
deriving DecidableEq, Repr

structure State where
  events : List BackendEvent
  overflow : Bool
  /-- the publishers whose put failed and that have not set the flag yet -/
  failing : Nat
  pc : Pc
  log : List Entry
deriving DecidableEq, Repr

def State.init : State := ⟨[], false, 0, .waiting, []⟩

inductive Act where
  /-- `k_msgq_put` with `K_NO_WAIT` -/
  | put (event : BackendEvent)
  /-- `atomic_set` after a failed put -/
  | set
  | get
  | dispatch
  /-- `atomic_cas` -/
  | test
  | report
deriving DecidableEq, Repr

variable (capacity : Nat)

def step (s : State) : Act → Option State
  | .put event =>
    if s.events.length < capacity then
      some { s with events := s.events ++ [event], log := s.log ++ [.accepted event] }
    else some { s with failing := s.failing + 1, log := s.log ++ [.rejected event] }
  | .set =>
    match s.failing with
    | 0 => none
    | n + 1 => some { s with failing := n, overflow := true }
  | .get =>
    match s.pc, s.events with
    | .waiting, event :: events => some { s with events := events, pc := .dispatching event }
    | _, _ => none
  | .dispatch =>
    match s.pc with
    | .dispatching event => some { s with pc := .testing, log := s.log ++ [.dispatched event] }
    | _ => none
  | .test =>
    match s.pc with
    | .testing =>
      if s.overflow then some { s with overflow := false, pc := .reporting }
      else some { s with pc := .waiting }
    | _ => none
  | .report =>
    match s.pc with
    | .reporting => some { s with pc := .waiting, log := s.log ++ [.reported] }
    | _ => none

/-! ### The property -/

def acceptedEvents (log : List Entry) : List BackendEvent :=
  log.filterMap fun
    | .accepted event => some event
    | _ => none

def dispatchedEvents (log : List Entry) : List BackendEvent :=
  log.filterMap fun
    | .dispatched event => some event
    | _ => none

/-- An ERROR event that carries OVERFLOW was dispatched. -/
def Entry.isOverflowError : Entry → Bool
  | .reported => true
  | .dispatched event => event == overflowError
  | _ => false

/-- The event the dispatcher has taken and not dispatched yet. -/
def Pc.held : Pc → List BackendEvent
  | .dispatching event => [event]
  | _ => []

/-- No step is left to a publisher or to the dispatcher. -/
def State.Quiescent (s : State) : Prop := s.events = [] ∧ s.pc = .waiting ∧ s.failing = 0

/-- Each rejected event was followed by an ERROR event that carries OVERFLOW. -/
def Reported (log : List Entry) : Prop :=
  ∀ before event after, log = before ++ .rejected event :: after → ∃ x ∈ after, x.isOverflowError

/-- The accepted events were dispatched once each and in their order, but for those on their way. -/
def InOrder (s : State) : Prop :=
  acceptedEvents s.log = dispatchedEvents s.log ++ s.pc.held ++ s.events

structure NothingLost (s : State) : Prop where
  inOrder : InOrder s
  reported : s.Quiescent → Reported s.log

/-- The flag is not set behind the back of a dispatcher that waits for the next event, unless the
losses have been reported already. -/
def FlagInTime (s : State) : Act → Prop
  | .set => s.events ≠ [] ∨ s.pc ≠ .waiting ∨ 1 < s.failing ∨ Reported s.log
  | _ => True

/-! ### Logs -/

variable {capacity} {s t : State} {a : Act} {log : List Entry} {x : Entry} {event : BackendEvent}

theorem acceptedEvents_append (log : List Entry) (x : Entry) :
    acceptedEvents (log ++ [x]) = acceptedEvents log ++ acceptedEvents [x] :=
  List.filterMap_append

theorem dispatchedEvents_append (log : List Entry) (x : Entry) :
    dispatchedEvents (log ++ [x]) = dispatchedEvents log ++ dispatchedEvents [x] :=
  List.filterMap_append

theorem reported_nil : Reported [] := by
  intro before event after h
  simp at h

/-- Where an entry stands in a log with one more entry. -/
theorem split_append {before after : List Entry} {y : Entry} (h : log ++ [x] = before ++ y :: after) :
    (log = before ∧ x = y ∧ after = []) ∨ ∃ rest, after = rest ++ [x] ∧ log = before ++ y :: rest := by
  rcases List.eq_nil_or_concat after with rfl | ⟨rest, z, rfl⟩
  · obtain ⟨hlog, hx⟩ := List.append_inj' h rfl
    exact .inl ⟨hlog, List.singleton_inj.1 hx, rfl⟩
  · rw [List.concat_eq_append, ← List.cons_append, ← List.append_assoc] at h
    obtain ⟨hlog, hx⟩ := List.append_inj' h rfl
    obtain rfl := List.singleton_inj.1 hx
    exact .inr ⟨rest, List.concat_eq_append, hlog⟩

theorem reported_of_isOverflowError (hx : x.isOverflowError = true) : Reported (log ++ [x]) := by
  intro before event after h
  rcases split_append h with ⟨-, rfl, -⟩ | ⟨rest, rfl, -⟩
  · cases hx
  · exact ⟨x, by simp, hx⟩

theorem Reported.append (h : Reported log) (hx : ∀ event, x ≠ .rejected event) :
    Reported (log ++ [x]) := by
  intro before event after heq
  rcases split_append heq with ⟨-, rfl, -⟩ | ⟨rest, rfl, hlog⟩
  · exact absurd rfl (hx event)
  · obtain ⟨z, hz, hover⟩ := h before event rest hlog
    exact ⟨z, List.mem_append_left _ hz, hover⟩

/-! ### Steps -/

/-- What a step can do. -/
inductive Moved (capacity : Nat) (s : State) : Act → State → Prop
  | accepted (event : BackendEvent) (h : s.events.length < capacity) : Moved capacity s (.put event)
      { s with events := s.events ++ [event], log := s.log ++ [.accepted event] }
  | rejected (event : BackendEvent) (h : capacity ≤ s.events.length) : Moved capacity s (.put event)
      { s with failing := s.failing + 1, log := s.log ++ [.rejected event] }
  | flagged (n : Nat) (h : s.failing = n + 1) :
      Moved capacity s .set { s with failing := n, overflow := true }
  | got (event : BackendEvent) (events : List BackendEvent) (hpc : s.pc = .waiting)
      (h : s.events = event :: events) :
      Moved capacity s .get { s with events := events, pc := .dispatching event }
  | dispatched (event : BackendEvent) (hpc : s.pc = .dispatching event) :
      Moved capacity s .dispatch { s with pc := .testing, log := s.log ++ [.dispatched event] }
  | found (hpc : s.pc = .testing) (h : s.overflow = true) :
      Moved capacity s .test { s with overflow := false, pc := .reporting }
  | done (hpc : s.pc = .testing) (h : s.overflow = false) :
      Moved capacity s .test { s with pc := .waiting }
  | reported (hpc : s.pc = .reporting) :
      Moved capacity s .report { s with pc := .waiting, log := s.log ++ [.reported] }

theorem step_moved (ht : step capacity s a = some t) : Moved capacity s a t := by
  cases a with
  | put event =>
    simp only [step] at ht
    split_ifs at ht with hroom
    · cases ht
      exact .accepted event hroom
    · cases ht
      exact .rejected event (Nat.le_of_not_lt hroom)
  | set =>
    simp only [step] at ht
    split at ht
    · cases ht
    · rename_i n hn
      cases ht
      exact .flagged n hn
  | get =>
    simp only [step] at ht
    split at ht
    · rename_i event events hpc hevents
      cases ht
      exact .got event events hpc hevents
    · cases ht
  | dispatch =>
    simp only [step] at ht
    split at ht
    · rename_i event hpc
      cases ht
      exact .dispatched event hpc
    · cases ht
  | test =>
    simp only [step] at ht
    split at ht
    · rename_i hpc
      split_ifs at ht with hflag
      · cases ht
        exact .found hpc hflag
      · cases ht
        exact .done hpc (Bool.eq_false_iff.2 hflag)
    · cases ht
  | report =>
    simp only [step] at ht
    split at ht
    · rename_i hpc
      cases ht
      exact .reported hpc
    · cases ht

theorem InOrder.step (h : InOrder s) (ht : step capacity s a = some t) : InOrder t := by
  unfold InOrder at h ⊢
  rcases step_moved ht with ⟨event, -⟩ | ⟨event, -⟩ | ⟨n, -⟩ | ⟨event, events, hpc, hevents⟩ |
    ⟨event, hpc⟩ | ⟨hpc, -⟩ | ⟨hpc, -⟩ | hpc
  · rw [acceptedEvents_append, dispatchedEvents_append, h]
    simp [acceptedEvents, dispatchedEvents]
  · rw [acceptedEvents_append, dispatchedEvents_append, h]
    simp [acceptedEvents, dispatchedEvents]
  · exact h
  · rw [h, hpc, hevents]
    simp [Pc.held]
  · rw [acceptedEvents_append, dispatchedEvents_append, h, hpc]
    simp [acceptedEvents, dispatchedEvents, Pc.held]
  · rw [h, hpc]
    rfl
  · rw [h, hpc]
    rfl
  · rw [acceptedEvents_append, dispatchedEvents_append, h, hpc]
    simp [acceptedEvents, dispatchedEvents, Pc.held]

/-- A loss has been reported, or something is left that will see to it: a publisher on its way to the
flag, a report on its way, or the flag with an event behind which the dispatcher looks at it. -/
def Owed (s : State) : Prop :=
  Reported s.log ∨ 0 < s.failing ∨ s.pc = .reporting ∨
    s.overflow = true ∧ (s.events ≠ [] ∨ s.pc ≠ .waiting)

theorem Owed.reported (h : Owed s) (hs : s.Quiescent) : Reported s.log := by
  obtain ⟨hevents, hpc, hfailing⟩ := hs
  rcases h with h | h | h | ⟨-, h | h⟩
  · exact h
  · omega
  · rw [hpc] at h
    cases h
  · exact absurd hevents h
  · exact absurd hpc h

theorem Owed.step (h : Owed s) (hG : FlagInTime s a) (ht : step capacity s a = some t) :
    Owed t := by
  rcases step_moved ht with ⟨event, -⟩ | ⟨event, -⟩ | ⟨n, hn⟩ | ⟨event, events, hpc, -⟩ |
    ⟨event, hpc⟩ | ⟨hpc, -⟩ | ⟨hpc, hflag⟩ | hpc
  · rcases h with h | h | h | ⟨h, -⟩
    · exact .inl (h.append nofun)
    · exact .inr (.inl h)
    · exact .inr (.inr (.inl h))
    · exact .inr (.inr (.inr ⟨h, .inl (by simp)⟩))
  · exact .inr (.inl (Nat.succ_pos _))
  · rcases hG with h | h | h | h
    · exact .inr (.inr (.inr ⟨rfl, .inl h⟩))
    · exact .inr (.inr (.inr ⟨rfl, .inr h⟩))
    · exact .inr (.inl (show 0 < n by omega))
    · exact .inl h
  · rcases h with h | h | h | ⟨h, -⟩
    · exact .inl h
    · exact .inr (.inl h)
    · cases hpc.symm.trans h
    · exact .inr (.inr (.inr ⟨h, .inr nofun⟩))
  · rcases h with h | h | h | ⟨h, -⟩
    · exact .inl (h.append nofun)
    · exact .inr (.inl h)
    · cases hpc.symm.trans h
    · exact .inr (.inr (.inr ⟨h, .inr nofun⟩))
  · exact .inr (.inr (.inl rfl))
  · -- the dispatcher goes to wait without a flag: whoever owes the report has still to set it
    rcases h with h | h | h | ⟨h, -⟩
    · exact .inl h
    · exact .inr (.inl h)
    · cases hpc.symm.trans h
    · cases hflag.symm.trans h
  · exact .inl (reported_of_isOverflowError rfl)

/-- A flag that comes too late is a loss that nothing reports. -/
theorem not_nothingLost_of_late (hG : ¬ FlagInTime s a) (ht : step capacity s a = some t) :
    ¬ NothingLost t := by
  rcases step_moved ht with ⟨event, -⟩ | ⟨event, -⟩ | ⟨n, hn⟩ | ⟨event, events, -, -⟩ | ⟨event, -⟩ |
    ⟨-, -⟩ | ⟨-, -⟩ | -
  case flagged =>
    simp only [FlagInTime, not_or, not_not] at hG
    obtain ⟨hevents, hpc, hfailing, hreported⟩ := hG
    intro h
    exact hreported (h.reported ⟨hevents, hpc, show n = 0 by omega⟩)
  all_goals exact absurd trivial hG

/-- **The event queue loses nothing silently.** For every capacity and every interleaving, accepted
events are dispatched once each and in their order. The rejected ones are reported by the time nothing
is left to do, if and only if no publisher sets the flag once the dispatcher waits at an empty queue
with the loss still unreported. -/
theorem losses_reported_iff (capacity : Nat) (as : List Act)
    (hr : run (step capacity) .init as = some t) :
    InOrder t ∧
      (Always (step capacity) NothingLost .init as ↔ Meets (step capacity) FlagInTime .init as) := by
  have hinit : InOrder .init ∧ Owed .init := ⟨rfl, .inl reported_nil⟩
  refine ⟨run_invariant' (fun _ _ _ => InOrder.step) hinit.1 hr, ?_⟩
  exact always_iff_meets (I := fun s => InOrder s ∧ Owed s) (fun _ h => ⟨h.1, h.2.reported⟩)
    (fun _ _ _ h hG ht => ⟨h.1.step ht, h.2.step hG ht⟩)
    (fun _ _ _ _ => not_nothingLost_of_late) hinit hr

/-- The second event finds a queue for one event full, and its publisher sets the flag while the
first is on its way. -/
def flagWhileDispatching : List Act :=
  [.put .ready, .put .joined, .get, .set, .dispatch, .test, .report]

theorem losses_reported_while_dispatching :
    Always (step 1) NothingLost .init flagWhileDispatching := by
  refine ((losses_reported_iff 1 flagWhileDispatching (t :=
    (run (step 1) .init flagWhileDispatching).getD .init) rfl).2).2 ?_
  exact .cons rfl trivial <| .cons rfl trivial <| .cons rfl trivial <|
    .cons rfl (.inr (.inl nofun)) <| .cons rfl trivial <| .cons rfl trivial <|
    .cons rfl trivial trivial

/-- The flag is set after the dispatcher has looked at it and gone to wait. -/
def flagAfterDrain : List Act := [.put .ready, .put .joined, .get, .dispatch, .test, .set]

theorem loss_unreported_after_drain : ¬ ∀ capacity as t, run (step capacity) .init as = some t →
    Always (step capacity) NothingLost .init as := by
  intro h
  have hlast : run (step 1) .init flagAfterDrain = some ⟨[], true, 0, .waiting,
      [.accepted .ready, .rejected .joined, .dispatched .ready]⟩ := rfl
  have hlost := h 1 flagAfterDrain _ hlast flagAfterDrain _ (List.prefix_refl _) hlast
  obtain ⟨x, hx, hover⟩ :=
    hlost.reported ⟨rfl, rfl, rfl⟩ [.accepted .ready] .joined [.dispatched .ready] rfl
  rw [List.mem_singleton.1 hx] at hover
  cases hover

end Rzi.Lorawan.Events
