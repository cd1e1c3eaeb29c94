import Rzi.UspBackend
import Rzi.Lib.Run
import Mathlib.Data.List.Chain

/-!
# The announced Class B state of the USP backend (`usp_set_class`, `usp_stop_class_b`)

Three places write `class_b_state`: the two calls and the CLASS_B_STATUS event. `usp_set_class` writes
it before it asks the modem and puts it back if the modem refuses; each publishes only what it changed.
`classB_announced`: over every run the state is the one published last, no state is published twice in
a row, and a refused class change is invisible.
-/

namespace Rzi.Usp.ClassB
open Lts
open Lorawan (ClassBState BackendEvent)

/-- `usp_get_class_b_state`. -/
def uspGetClassBState (s : State) : Except Err ClassBState :=
  if s.ready then .ok s.classBState else .error .notReady

/-- The backend with everything it has published. -/
structure Traced where
  backend : State
  published : List BackendEvent

def Traced.init : Traced := ⟨State.init, []⟩

inductive Act where
  | call (c : Call) (modem : Modem)
  | event (source : Except Err (ModemEvent × Nat)) (modem : Modem)

/-- The modem emits no event before `usp_start` has set the sink and registered the handler. -/
def step (s : Traced) : Act → Option Traced
  | .call c modem =>
    let out := c.run modem s.backend
    some ⟨out.state, s.published ++ out.published⟩
  | .event source modem =>
    if s.backend.eventSink then
      let (b, events) := handleEvent modem source s.backend
      some ⟨b, s.published ++ events⟩
    else none

/-- The arguments of the CLASS_B events. -/
def announced (events : List BackendEvent) : List ClassBState := events.filterMap classBOf

/-- The argument of the last CLASS_B event, IDLE if there is none. -/
def lastAnnounced (events : List BackendEvent) : ClassBState := (announced events).getLastD .idle

/-- The class that a call asks the modem for. -/
def classChange : Call → Option DeviceClass
  | .setClass deviceClass => some deviceClass
  | .stopClassB => some .a
  | _ => none

/-! ### What a call or an event announces -/

/-- Either the state is left alone and nothing is announced, or it is another one and announced. -/
inductive Announces (s t : State) (events : List BackendEvent) : Prop
  | quiet (hstate : t.classBState = s.classBState) (hevents : announced events = [])
  | changed (hstate : t.classBState ≠ s.classBState) (hevents : announced events = [t.classBState])

theorem announced_append (xs ys : List BackendEvent) :
    announced (xs ++ ys) = announced xs ++ announced ys := List.filterMap_append

theorem announced_plain {events : List BackendEvent} (h : Plain events) : announced events = [] := by
  unfold announced
  rw [List.filterMap_eq_nil_iff]
  intro e he
  exact (h e he).2

theorem announced_publishClassB {s : State} (hs : s.eventSink = true) (state : ClassBState) :
    announced (publishClassB state s) = [state] := by
  rw [publishClassB, if_pos hs]
  rfl

/-- `set_class_b_state` with the publication that its result decides. -/
theorem announces_setClassBState {s : State} (hs : s.eventSink = true) (state : ClassBState) :
    Announces s (setClassBState state s).2
      (if (setClassBState state s).1 then publishClassB state (setClassBState state s).2 else []) := by
  unfold setClassBState
  split
  · exact .quiet rfl rfl
  · rename_i hne
    refine .changed (fun heq => hne heq.symm) ?_
    exact announced_publishClassB (s := { s with classBState := state }) hs state

/-- A class change that the modem refuses leaves the whole state as it was. -/
theorem uspSetClass_rejected {modem : Modem} {deviceClass : DeviceClass} {e : Err} (s : State)
    (h : modem.request (.setClass deviceClass) = .error e) :
    ∃ e', uspSetClass modem deviceClass s = finish (.error e') s := by
  unfold uspSetClass enter
  split
  · refine ⟨e, ?_⟩
    simp only [h]
    unfold setClassBState
    split
    · rfl
    · -- written, and written back
      rename_i hne
      simp only [if_pos, if_neg (fun heq : deviceClass.initialState = s.classBState => hne heq.symm)]
  · exact ⟨_, rfl⟩

theorem uspStopClassB_rejected {modem : Modem} {e : Err} (s : State)
    (h : modem.request (.setClass .a) = .error e) :
    ∃ e', uspStopClassB modem s = finish (.error e') s := by
  unfold uspStopClassB enter
  split
  · exact ⟨e, by simp only [h]⟩
  · exact ⟨_, rfl⟩

theorem run_rejected {c : Call} {deviceClass : DeviceClass} {modem : Modem} {e : Err} (s : State)
    (hc : classChange c = some deviceClass) (h : modem.request (.setClass deviceClass) = .error e) :
    ∃ e', c.run modem s = finish (.error e') s := by
  cases c with
  | setClass requested =>
    cases hc
    exact uspSetClass_rejected s h
  | stopClassB =>
    cases hc
    exact uspStopClassB_rejected s h
  | _ => cases hc

/-- Nothing is published and the Class B state is left alone. -/
def Quiet (s : State) (out : Outcome) : Prop :=
  out.published = [] ∧ out.state.classBState = s.classBState

theorem quiet_finish {s t : State} (rc : Except Err Unit) (h : t.classBState = s.classBState) :
    Quiet s (finish rc t) := ⟨rfl, h⟩

theorem quiet_enter {s : State} {call : State → Outcome} (h : Quiet s (call s)) :
    Quiet s (enter s call) := by
  unfold enter
  split
  · exact h
  · exact quiet_finish _ rfl

theorem quiet_requestUplink (modem : Modem) (r : Request) (s : State) :
    Quiet s (requestUplink modem r s) := by
  refine quiet_enter ?_
  split
  · exact quiet_finish _ rfl
  · split
    · exact quiet_finish _ rfl
    · exact quiet_finish _ rfl

theorem run_quiet (modem : Modem) (s : State) {c : Call} (hc : classChange c = none) :
    Quiet s (c.run modem s) := by
  cases c with
  | setClass deviceClass => cases hc
  | stopClassB => cases hc
  | start region bypass => exact quiet_finish _ rfl
  | join config =>
    simp only [Call.run, uspJoin]
    split
    · exact quiet_finish _ rfl
    · exact quiet_enter (quiet_finish _ rfl)
  | leave =>
    refine quiet_enter ?_
    split
    · exact quiet_finish _ rfl
    · exact quiet_finish _ rfl
  | send port data type => exact quiet_requestUplink modem _ s
  | sendEmpty withPort port type => exact quiet_requestUplink modem _ s
  | multicastAdd session =>
    refine quiet_enter ?_
    split
    · exact quiet_finish _ rfl
    · split
      · exact quiet_finish _ rfl
      · exact quiet_finish _ rfl
  | multicastRemove devAddr =>
    refine quiet_enter ?_
    simp only
    split
    · exact quiet_finish _ rfl
    · split
      · exact quiet_finish _ rfl
      · exact quiet_finish _ rfl
  | multicastClear =>
    refine quiet_enter ?_
    simp only
    split
    · exact quiet_finish _ rfl
    · exact quiet_finish _ rfl

/-- A call announces what it changes, if it finds the sink set whenever the backend is ready. -/
theorem run_announces (modem : Modem) {s : State} (hs : s.ready = true → s.eventSink = true)
    (c : Call) : Announces s (c.run modem s).state (c.run modem s).published := by
  cases hc : classChange c with
  | none =>
    obtain ⟨hpublished, hstate⟩ := run_quiet modem s hc
    exact .quiet hstate (by rw [hpublished]; rfl)
  | some deviceClass =>
    cases hmodem : modem.request (.setClass deviceClass) with
    | error e =>
      obtain ⟨e', h⟩ := run_rejected s hc hmodem
      rw [h]
      exact .quiet rfl rfl
    | ok u =>
      cases hready : s.ready with
      | false =>
        have hrefused : c.run modem s = finish (.error .notReady) s := by
          cases c with
          | setClass requested => simp [Call.run, uspSetClass, enter, hready]
          | stopClassB => simp [Call.run, uspStopClassB, enter, hready]
          | _ => cases hc
        rw [hrefused]
        exact .quiet rfl rfl
      | true =>
        have hann := announces_setClassBState (hs hready)
        cases c with
        | setClass requested =>
          cases hc
          simp only [Call.run, uspSetClass, enter, if_pos hready, hmodem]
          exact hann _
        | stopClassB =>
          cases hc
          simp only [Call.run, uspStopClassB, enter, if_pos hready, hmodem]
          exact hann .idle
        | _ => cases hc

theorem handleReset_quiet (modem : Modem) (s : State) :
    (handleReset modem s).1.classBState = s.classBState ∧
      announced (handleReset modem s).2 = [] := by
  rcases handleReset_cases modem s with ⟨e, h⟩ | h
  · rw [h]
    exact ⟨rfl, rfl⟩
  · rw [h]
    exact ⟨rfl, rfl⟩

theorem handleEventType_announces (modem : Modem) {s : State} (hs : s.eventSink = true)
    (event : ModemEvent) :
    Announces s (handleEventType modem event s).1 (handleEventType modem event s).2 := by
  cases event with
  | reset =>
    obtain ⟨hstate, hevents⟩ := handleReset_quiet modem s
    exact .quiet hstate hevents
  | downData first rest => exact .quiet rfl (announced_plain (publishDownlinks_plain _))
  | classBStatus ready =>
    cases ready with
    | none => exact .quiet rfl rfl
    | some ready => exact announces_setClassBState hs _
  | txDone status =>
    cases status with
    | none => exact .quiet rfl rfl
    | some type => cases type <;> exact .quiet rfl rfl
  | linkCheck answered data =>
    cases answered with
    | false => exact .quiet rfl rfl
    | true => cases data <;> exact .quiet rfl rfl
  | macTime answered => cases answered <;> exact .quiet rfl rfl
  | firmwareManagement reboot => cases reboot <;> exact .quiet rfl rfl
  | _ => exact .quiet rfl rfl

theorem handleEvent_announces (modem : Modem) {s : State} (hs : s.eventSink = true)
    (source : Except Err (ModemEvent × Nat)) :
    Announces s (handleEvent modem source s).1 (handleEvent modem source s).2 := by
  cases source with
  | error e => exact .quiet rfl rfl
  | ok source =>
    obtain ⟨event, missed⟩ := source
    have hmissed : announced (if 0 < missed then [.error (some .overflow)] else []) = [] := by
      split
      · rfl
      · rfl
    have hann := handleEventType_announces modem hs event
    simp only [handleEvent]
    cases hann with
    | quiet hstate hevents =>
      exact .quiet hstate (by rw [announced_append, hmissed, hevents, List.nil_append])
    | changed hstate hevents =>
      exact .changed hstate (by rw [announced_append, hmissed, hevents, List.nil_append])

theorem handleEvent_eventSink (modem : Modem) {s : State} (hs : s.eventSink = true)
    (source : Except Err (ModemEvent × Nat)) : (handleEvent modem source s).1.eventSink = true := by
  cases source with
  | error e => exact hs
  | ok source =>
    obtain ⟨event, missed⟩ := source
    have heffect := handleEventType_effect modem event s
    simp only [handleEvent]
    generalize handleEventType modem event s = out at heffect ⊢
    cases heffect with
    | reset =>
      rcases handleReset_cases modem s with ⟨e, h⟩ | h
      · rw [h]
        exact hs
      · rw [h]
        exact hs
    | txDone status => exact hs
    | classB event state _ _ => exact hs
    | same event b events hb _ _ _ => exact hb.eventSink hs

/-! ### Runs -/

/-- The sink is set once the backend is ready; the state is the one announced last. -/
structure Told (s : Traced) : Prop where
  sink : s.backend.ready = true → s.backend.eventSink = true
  last : s.backend.classBState = lastAnnounced s.published
  chain : (.idle :: announced s.published).IsChain (· ≠ ·)

variable {s t : Traced}

theorem told_init : Told Traced.init where
  sink := fun h => h
  last := rfl
  chain := .singleton _

theorem Told.announces (h : Told s) {b : State} {events : List BackendEvent}
    (hsink : b.ready = true → b.eventSink = true) (ha : Announces s.backend b events) :
    Told ⟨b, s.published ++ events⟩ := by
  cases ha with
  | quiet hstate hevents =>
    have hann : announced (s.published ++ events) = announced s.published := by
      rw [announced_append, hevents, List.append_nil]
    refine ⟨hsink, ?_, ?_⟩
    · rw [lastAnnounced, hann]
      exact hstate.trans h.last
    · rw [hann]
      exact h.chain
  | changed hstate hevents =>
    have hann : announced (s.published ++ events) = announced s.published ++ [b.classBState] := by
      rw [announced_append, hevents]
    refine ⟨hsink, ?_, ?_⟩
    · rw [lastAnnounced, hann, List.getLastD_concat]
    · rw [hann, ← List.cons_append]
      refine h.chain.append (.singleton _) ?_
      intro x hx y hy
      rw [List.head?_cons, Option.mem_some_iff] at hy
      rw [List.getLast?_cons, Option.mem_some_iff, ← List.getLastD_eq_getLast?] at hx
      rw [← hy, ← hx]
      intro heq
      exact hstate (heq.symm.trans h.last.symm)

theorem Told.step {a : Act} (h : Told s) (ht : ClassB.step s a = some t) : Told t := by
  cases a with
  | call c modem =>
    simp only [ClassB.step, Option.some.injEq] at ht
    subst ht
    refine h.announces ?_ (run_announces modem h.sink c)
    have heffect := c.run_effect modem s.backend
    generalize c.run modem s.backend = out at heffect ⊢
    cases heffect with
    | same rc b hb _ => exact fun hready => hb.eventSink (h.sink (hb.ready ▸ hready))
    | accepted _ hready _ => exact fun _ => h.sink hready
    | classB state _ hready => exact fun _ => h.sink hready
  | event source modem =>
    simp only [ClassB.step] at ht
    split at ht
    · rename_i hsink
      cases ht
      exact h.announces (fun _ => handleEvent_eventSink modem hsink source)
        (handleEvent_announces modem hsink source)
    · cases ht

/-- **Announced Class B state.** After every run of calls and modem events the state that
`usp_get_class_b_state` reads is the argument of the last published CLASS_B event, IDLE if there is none;
no state is published twice in a row, nor IDLE first; and a class change that the modem refuses returns
an error, publishes nothing and leaves the backend as it was. -/
theorem classB_announced (as : List Act) (hr : run step Traced.init as = some t) :
    t.backend.classBState = lastAnnounced t.published ∧
    uspGetClassBState t.backend =
      (if t.backend.ready then .ok (lastAnnounced t.published) else .error .notReady) ∧
    (.idle :: announced t.published).IsChain (· ≠ ·) ∧
    ∀ c deviceClass modem e, classChange c = some deviceClass →
      modem.request (.setClass deviceClass) = .error e →
      (∃ e', (c.run modem t.backend).rc = .error e') ∧ step t (.call c modem) = some t := by
  have htold : Told t := run_invariant' (fun _ _ _ h ht => h.step ht) told_init hr
  refine ⟨htold.last, ?_, htold.chain, ?_⟩
  · rw [uspGetClassBState, htold.last]
  · intro c deviceClass modem e hc hmodem
    obtain ⟨e', h⟩ := run_rejected t.backend hc hmodem
    refine ⟨⟨e', by rw [h]; rfl⟩, ?_⟩
    simp only [step, h, finish, List.append_nil]

/-- A modem that accepts everything but a class. -/
def classless : Modem := { agreeable with
  answer := fun r => match r with
    | .setClass _ => .fail
    | _ => .ok }

/-- Class B is taken twice, becomes active and is stopped: three events; the refused change none. -/
def classBRun : List Act :=
  [.call (.start .eu868 false) agreeable, .event (.ok (.reset, 0)) agreeable,
    .call (.setClass .b) classless, .call (.setClass .b) agreeable, .call (.setClass .b) agreeable,
    .event (.ok (.classBStatus (some true), 0)) agreeable, .call .stopClassB agreeable]

theorem classB_announced_run :
    (((run step Traced.init classBRun).map fun t => announced t.published) =
      some [.acquiringBeacon, .active, .idle]) ∧
    ∃ t, run step Traced.init classBRun = some t ∧
      uspGetClassBState t.backend =
        (if t.backend.ready then .ok (lastAnnounced t.published) else .error .notReady) ∧
      ∀ modem e, modem.request (.setClass .c) = .error e →
        step t (.call (.setClass .c) modem) = some t := by
  refine ⟨by decide, ?_⟩
  obtain ⟨t, ht, -⟩ := Option.map_eq_some_iff.1
    (show (run step Traced.init classBRun).map (fun t => announced t.published) =
      some [.acquiringBeacon, .active, .idle] by decide)
  obtain ⟨-, hget, -, hrejected⟩ := classB_announced classBRun ht
  exact ⟨t, ht, hget, fun modem e h => (hrejected (.setClass .c) .c modem e rfl h).2⟩

end Rzi.Usp.ClassB
