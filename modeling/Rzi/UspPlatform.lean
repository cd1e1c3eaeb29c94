import Rzi.UspClassB
import Rzi.Lib.Run

/-!
# The shared modem platform (`src/usp/usp_platform.c`)

The modem queues its events, and the engine's callback takes them out one by one and hands each to the
registered handler. The P2P backend may bring the modem up long before `usp_start` registers the handler
of the LoRaWAN backend, so events can be taken with no handler there; `reset_seen` keeps the one that the
backend cannot do without. The callback and the registration hold the USP lock from end to end, while
`usp_start` writes its static variables without it. The queue itself is the modem's, which may change it
between any two sections: what a read answers is the parameter `getEvent`, and `Counts` is what the loop
relies on.

`events_handled` says what the backend's handler is called with in any run, `callback_returns` that the loop
ends, and `ready_iff` that the order of the start and of the modem's RESET does not matter.
-/

namespace Rzi.Usp.Platform
open Lts
open Lorawan (BackendEvent)
open Zephyr (Region)
open ClassB (handleEvent_eventSink)

/-- An event with the number of events of its type that the modem has dropped. -/
abbrev Taken := ModemEvent × Nat

/-- Where a thread is in `usp_start`. -/
inductive StartPc where
  | idle
  /-- before `rzi_usp_init` -/
  | initDue
  /-- before `rzi_usp_set_event_handler` -/
  | handlerDue
deriving DecidableEq

structure State (Q : Type) where
  initialized : Bool
  resetSeen : Bool
  /-- the handler of the LoRaWAN backend is registered -/
  handler : Bool
  queue : Q
  backend : Usp.State
  start : StartPc
  /-- what `handle_event` was called with, oldest first -/
  handled : List (Except Err Taken)
  /-- what `handle_event` gave to the sink, oldest first -/
  published : List BackendEvent
  /-- the events taken while there was no handler, and since, oldest first -/
  early : List Taken
  since : List Taken

def State.boot {Q : Type} (queue : Q) : State Q where
  initialized := false
  resetSeen := false
  handler := false
  queue := queue
  backend := .init
  start := .idle
  handled := []
  published := []
  early := []
  since := []

section Model
variable {Q : Type} (getEvent : Q → Except ModemRc (Taken × Nat) × Q)

def isReset : ModemEvent → Bool
  | .reset => true
  | _ => false

/-- A call of the handler; `modem` is what it is answered by the modem. -/
def handle (modem : Modem) (source : Except Err Taken) (s : State Q) : State Q :=
  { s with
    backend := (handleEvent modem source s.backend).1
    published := s.published ++ (handleEvent modem source s.backend).2
    handled := s.handled ++ [source] }

/-- A call of the handler where there is one. -/
def deliver (modem : Modem) (source : Except Err Taken) (s : State Q) : State Q :=
  if s.handler then handle modem source s else s

/-- An event is taken. -/
def note (taken : Taken) (s : State Q) : State Q :=
  if s.handler then { s with resetSeen := s.resetSeen || isReset taken.1, since := s.since ++ [taken] }
  else { s with resetSeen := s.resetSeen || isReset taken.1, early := s.early ++ [taken] }

/-- `modem_event_callback`, of at most `fuel` turns. -/
def modemEventCallback (modem : Nat → Modem) : Nat → State Q → Option (State Q)
  | 0, _ => none
  | fuel + 1, s =>
    match getEvent s.queue with
    | (.error rc, queue) =>
      if rc = .noEvent then some { s with queue := queue }
      else
        match uspError rc with
        | some e => some (deliver (modem fuel) (.error e) { s with queue := queue })
        | none => some { s with queue := queue }
    | (.ok (taken, pending), queue) =>
      let s := note taken { s with queue := queue }
      let s := deliver (modem fuel) (.ok taken) s
      if 0 < pending then modemEventCallback modem fuel s else some s

/-- `rzi_usp_init`. -/
def uspInit (s : State Q) : State Q := { s with initialized := true }

/-- `rzi_usp_set_event_handler` with the handler of the LoRaWAN backend. -/
def setEventHandler (modem : Modem) (s : State Q) : State Q :=
  let s := { s with handler := true }
  if s.resetSeen then handle modem (.ok (.reset, 0)) s else s

/-- The next step of `usp_start`. -/
def startStep (modem : Modem) (s : State Q) : Option (State Q) :=
  match s.start with
  | .idle => none
  | .initDue => some { uspInit s with start := .handlerDue }
  | .handlerDue => some { setEventHandler modem s with start := .idle }

inductive Act (Q : Type) where
  /-- the modem changes its queue -/
  | modem (queue : Q)
  /-- the engine runs the callback -/
  | callback (modem : Nat → Modem) (fuel : Nat)
  /-- another backend calls `rzi_usp_init` -/
  | init
  /-- `usp_start` up to `rzi_usp_init` -/
  | start (region : Region) (bypass : Bool)
  | startStep (modem : Modem)
  /-- another call of the LoRaWAN backend -/
  | call (c : Call) (modem : Modem)

def isStart : Call → Bool
  | .start _ _ => true
  | _ => false

/-- One section or one step. The modem runs once it is initialized, and the service starts the backend
once. -/
def step (s : State Q) : Act Q → Option (State Q)
  | .modem queue => if s.initialized then some { s with queue := queue } else none
  | .callback modem fuel => if s.initialized then modemEventCallback getEvent modem fuel s else none
  | .init => some (uspInit s)
  | .start region bypass =>
    if s.start = .idle ∧ s.handler = false then
      some { s with backend := (uspStart region bypass s.backend).state, start := .initDue }
    else none
  | .startStep modem => startStep modem s
  | .call c modem =>
    if isStart c then none else some { s with backend := (c.run modem s.backend).state }

end Model

/-! ### The loop -/

section Loop
variable {Q : Type} {getEvent : Q → Except ModemRc (Taken × Nat) × Q} {modem : Nat → Modem} {fuel : Nat}
  {s t : State Q}

/-- What the modem documents of `smtc_modem_get_event`: it takes one event and says how many are left, and
without one it takes nothing. -/
structure Counts (getEvent : Q → Except ModemRc (Taken × Nat) × Q) (pending : Q → Nat) : Prop where
  taken : ∀ q e n q', getEvent q = (.ok (e, n), q') → pending q' = n ∧ pending q = n + 1
  noEvent : ∀ q q', getEvent q = (.error .noEvent, q') → pending q = 0 ∧ pending q' = 0

theorem taken_of_handler {m : Modem} {taken : Taken} (hs : s.handler = true) :
    deliver m (.ok taken) (note taken s) = handle m (.ok taken)
      { s with resetSeen := s.resetSeen || isReset taken.1, since := s.since ++ [taken] } := by
  rw [note, if_pos hs]
  exact if_pos hs

theorem taken_of_none {m : Modem} {taken : Taken} (hs : s.handler = false) :
    deliver m (.ok taken) (note taken s) =
      { s with resetSeen := s.resetSeen || isReset taken.1, early := s.early ++ [taken] } := by
  have hno : ¬ s.handler = true := by simp [hs]
  rw [note, if_neg hno]
  exact if_neg hno

theorem deliver_queue (m : Modem) (source : Except Err Taken) (s : State Q) :
    (deliver m source s).queue = s.queue := by
  unfold deliver
  split <;> rfl

theorem note_queue (taken : Taken) (s : State Q) : (note taken s).queue = s.queue := by
  unfold note
  split <;> rfl

theorem note_backend (taken : Taken) (s : State Q) : (note taken s).backend = s.backend := by
  unfold note
  split <;> rfl

/-- The callback returns: its loop ends after at most one turn more than there are events. -/
theorem callback_returns {pending : Q → Nat} (hcounts : Counts getEvent pending)
    (hfuel : pending s.queue < fuel) : ∃ t, modemEventCallback getEvent modem fuel s = some t := by
  induction fuel generalizing s with
  | zero => exact absurd hfuel (Nat.not_lt_zero _)
  | succ fuel ih =>
    unfold modemEventCallback
    rcases hget : getEvent s.queue with ⟨rc | ⟨taken, left⟩, queue⟩
    · dsimp only
      split
      · exact ⟨_, rfl⟩
      · split <;> exact ⟨_, rfl⟩
    · obtain ⟨hleft, hpending⟩ := hcounts.taken _ _ _ _ hget
      dsimp only
      split
      · refine ih ?_
        rw [deliver_queue, note_queue]
        show pending queue < fuel
        omega
      · exact ⟨_, rfl⟩

/-- A callback that the modem answers without a failure leaves no event. -/
theorem callback_empties {pending : Q → Nat} (hcounts : Counts getEvent pending)
    (hanswers : ∀ q rc q', getEvent q = (.error rc, q') → rc = .noEvent)
    (hrun : modemEventCallback getEvent modem fuel s = some t) : pending t.queue = 0 := by
  induction fuel generalizing s with
  | zero => cases hrun
  | succ fuel ih =>
    unfold modemEventCallback at hrun
    rcases hget : getEvent s.queue with ⟨rc | ⟨taken, left⟩, queue⟩
    · obtain rfl := hanswers _ _ _ hget
      simp only [hget, if_true] at hrun
      cases hrun
      exact (hcounts.noEvent _ _ hget).2
    · obtain ⟨hleft, -⟩ := hcounts.taken _ _ _ _ hget
      simp only [hget] at hrun
      split at hrun
      · exact ih hrun
      · cases hrun
        rw [deliver_queue, note_queue]
        show pending queue = 0
        omega

/-- An invariant of the sections of a turn is one of the callback. -/
theorem callback_invariant {I : State Q → Prop} (hqueue : ∀ s queue, I s → I { s with queue := queue })
    (herror : ∀ s n e, I s → I (deliver (modem n) (.error e) s))
    (htaken : ∀ s n taken, I s → I (deliver (modem n) (.ok taken) (note taken s)))
    (hs : I s) (hrun : modemEventCallback getEvent modem fuel s = some t) : I t := by
  induction fuel generalizing s with
  | zero => cases hrun
  | succ fuel ih =>
    unfold modemEventCallback at hrun
    rcases hget : getEvent s.queue with ⟨rc | ⟨taken, left⟩, queue⟩
    · simp only [hget] at hrun
      split at hrun
      · cases hrun
        exact hqueue s queue hs
      · split at hrun
        · cases hrun
          exact herror _ _ _ (hqueue s queue hs)
        · cases hrun
          exact hqueue s queue hs
    · simp only [hget] at hrun
      have hturn := htaken { s with queue := queue } fuel taken (hqueue s queue hs)
      split at hrun
      · exact ih hturn hrun
      · cases hrun
        exact hturn

end Loop

/-! ### What the handler is called with -/

section Runs
variable {Q : Type} {getEvent : Q → Except ModemRc (Taken × Nat) × Q} {queue : Q} {s t : State Q}
  {acts : List (Act Q)} {a : Act Q} {m : Modem}

/-- Some event of the list is a RESET. -/
def hasReset (events : List Taken) : Bool := events.any fun taken => isReset taken.1

theorem hasReset_append (events : List Taken) (taken : Taken) :
    hasReset (events ++ [taken]) = (hasReset events || isReset taken.1) := by
  simp [hasReset]

/-- The RESET that the handler is given when it is registered: one, if the modem reported any before. -/
def replayed (s : State Q) : List Taken := if s.handler && hasReset s.early then [(.reset, 0)] else []

/-- The events that the handler was called with. -/
def events (s : State Q) : List Taken := s.handled.filterMap fun source => source.toOption

structure Inv (s : State Q) : Prop where
  events : events s = replayed s ++ s.since
  resetSeen : s.resetSeen = (hasReset s.early || hasReset s.since)
  quiet : s.handler = false → s.since = [] ∧ s.handled = [] ∧ s.published = []
  starting : s.start ≠ .idle → s.handler = false
  sink : s.start ≠ .idle ∨ s.handler = true → s.backend.eventSink = true
  ready : s.backend.ready = true → s.handler = true ∧ s.resetSeen = true

theorem inv_boot (queue : Q) : Inv (.boot queue) where
  events := rfl
  resetSeen := rfl
  quiet _ := ⟨rfl, rfl, rfl⟩
  starting h := absurd rfl h
  sink h := by rcases h with h | h <;> simp [State.boot] at h
  ready h := by simp [State.boot, Usp.State.init] at h

/-- An event makes the backend ready only if it is a RESET. -/
theorem handleEvent_ready (m : Modem) (source : Except Err Taken) (b : Usp.State)
    (hsource : ∀ taken, source = .ok taken → isReset taken.1 = false) :
    (handleEvent m source b).1.ready = b.ready := by
  rcases source with e | ⟨event, missed⟩
  · rfl
  have heffect := handleEventType_effect m event b
  simp only [handleEvent]
  generalize handleEventType m event b = out at heffect ⊢
  cases heffect with
  | reset =>
    have := hsource _ rfl
    cases this
  | txDone status => rfl
  | classB event state _ _ => rfl
  | same event b' events hb _ _ _ => exact hb.ready

/-- The handler is called with an error. -/
theorem Inv.failed (h : Inv s) (m : Modem) (e : Err) : Inv (deliver m (.error e) s) := by
  unfold deliver
  split
  · rename_i hhandler
    refine ⟨?_, h.resetSeen, fun hno => ?_, h.starting, fun _ => ?_, h.ready⟩
    · show (s.handled ++ [Except.error e]).filterMap _ = _
      rw [List.filterMap_append]
      exact (List.append_nil _).trans h.events
    · rw [show s.handler = false from hno] at hhandler
      cases hhandler
    · exact handleEvent_eventSink m (h.sink (.inr hhandler)) _
  · exact h

/-- The handler, where there is one, is called with the event that was taken. -/
theorem Inv.taken (h : Inv s) (m : Modem) (taken : Taken) :
    Inv (deliver m (.ok taken) (note taken s)) := by
  rcases Bool.eq_false_or_eq_true s.handler with hhandler | hhandler
  · rw [taken_of_handler hhandler]
    refine ⟨?_, ?_, fun hno => absurd (hhandler.symm.trans hno) (by simp), h.starting,
      fun _ => handleEvent_eventSink m (h.sink (.inr hhandler)) _, fun hready => ⟨hhandler, ?_⟩⟩
    · show (s.handled ++ [Except.ok taken]).filterMap _ = replayed s ++ (s.since ++ [taken])
      rw [List.filterMap_append, ← List.append_assoc, ← h.events]
      rfl
    · show (s.resetSeen || isReset taken.1) = (hasReset s.early || hasReset (s.since ++ [taken]))
      rw [hasReset_append, h.resetSeen, Bool.or_assoc]
    · show (s.resetSeen || isReset taken.1) = true
      cases hreset : isReset taken.1 with
      | true => exact Bool.or_true _
      | false =>
        have hsame := handleEvent_ready m (.ok taken) s.backend (fun _ heq => (by cases heq; exact hreset))
        rw [Bool.or_false]
        exact (h.ready (hsame.symm.trans hready)).2
  · obtain ⟨hsince, hhandled, hpublished⟩ := h.quiet hhandler
    rw [taken_of_none hhandler]
    refine ⟨?_, ?_, fun _ => ⟨hsince, hhandled, hpublished⟩, h.starting, h.sink, fun hready => ?_⟩
    · show s.handled.filterMap _ = _ ++ s.since
      rw [hhandled]
      simp [replayed, hhandler, hsince]
    · show (s.resetSeen || isReset taken.1) = (hasReset (s.early ++ [taken]) || hasReset s.since)
      rw [hasReset_append, h.resetSeen, hsince]
      simp [hasReset]
    · exact absurd ((h.ready hready).1.symm.trans hhandler) (by simp)

theorem setEventHandler_of_seen (hs : s.resetSeen = true) :
    setEventHandler m s = handle m (.ok (.reset, 0)) { s with handler := true } := if_pos hs

theorem setEventHandler_of_unseen (hs : s.resetSeen = false) :
    setEventHandler m s = { s with handler := true } := if_neg (by simp [hs])

theorem Inv.startStep (h : Inv s) (hstep : Platform.startStep m s = some t) : Inv t := by
  unfold Platform.startStep at hstep
  cases hpc : s.start with
  | idle =>
    rw [hpc] at hstep
    cases hstep
  | initDue =>
    rw [hpc] at hstep
    cases hstep
    have hno := h.starting (by rw [hpc]; simp)
    exact ⟨h.events, h.resetSeen, h.quiet, fun _ => hno, fun _ => h.sink (.inl (by rw [hpc]; simp)), h.ready⟩
  | handlerDue =>
    have hno := h.starting (by rw [hpc]; simp)
    have hsink := h.sink (.inl (by rw [hpc]; simp))
    obtain ⟨hsince, hhandled, hpublished⟩ := h.quiet hno
    have hreset : s.resetSeen = hasReset s.early := by
      rw [h.resetSeen, hsince]
      exact Bool.or_false _
    rw [hpc] at hstep
    cases hstep
    rcases Bool.eq_false_or_eq_true s.resetSeen with hseen | hseen
    · rw [setEventHandler_of_seen hseen]
      refine ⟨?_, h.resetSeen, fun hno => (by cases hno), fun hne => absurd rfl hne,
        fun _ => handleEvent_eventSink m hsink _, fun _ => ⟨rfl, hseen⟩⟩
      show (s.handled ++ [Except.ok (ModemEvent.reset, 0)]).filterMap _ = _ ++ s.since
      rw [hhandled, hsince]
      simp [replayed, ← hreset, hseen, handle, Except.toOption]
    · rw [setEventHandler_of_unseen hseen]
      refine ⟨?_, h.resetSeen, fun hno => (by cases hno), fun hne => absurd rfl hne, fun _ => hsink,
        fun hready => ?_⟩
      · show s.handled.filterMap _ = _ ++ s.since
        rw [hhandled, hsince]
        simp [replayed, ← hreset, hseen]
      · exact absurd ((h.ready hready).1.symm.trans hno) (by simp)

/-- What a call keeps of the backend. -/
theorem call_keeps (m : Modem) (b : Usp.State) (c : Call) :
    (c.run m b).state.ready = b.ready ∧ (b.eventSink = true → (c.run m b).state.eventSink = true) := by
  have heffect := c.run_effect m b
  generalize c.run m b = out at heffect ⊢
  cases heffect with
  | same rc b' hb _ => exact ⟨hb.ready, hb.eventSink⟩
  | accepted _ _ _ => exact ⟨rfl, id⟩
  | classB state _ _ => exact ⟨rfl, id⟩

theorem Inv.step (h : Inv s) (hstep : Platform.step getEvent s a = some t) : Inv t := by
  cases a with
  | modem queue =>
    simp only [Platform.step] at hstep
    split at hstep
    · cases hstep
      exact ⟨h.events, h.resetSeen, h.quiet, h.starting, h.sink, h.ready⟩
    · cases hstep
  | callback modem fuel =>
    simp only [Platform.step] at hstep
    split at hstep
    · exact callback_invariant
        (fun _ _ h => ⟨h.events, h.resetSeen, h.quiet, h.starting, h.sink, h.ready⟩)
        (fun _ n e h => h.failed (modem n) e) (fun _ n taken h => h.taken (modem n) taken) h hstep
    · cases hstep
  | init =>
    cases hstep
    exact ⟨h.events, h.resetSeen, h.quiet, h.starting, h.sink, h.ready⟩
  | start region bypass =>
    simp only [Platform.step] at hstep
    split at hstep
    · rename_i hidle
      cases hstep
      exact ⟨h.events, h.resetSeen, h.quiet, fun _ => hidle.2, fun _ => rfl, h.ready⟩
    · cases hstep
  | startStep modem => exact h.startStep hstep
  | call c modem =>
    simp only [Platform.step] at hstep
    split at hstep
    · cases hstep
    · cases hstep
      obtain ⟨hready, hsink⟩ := call_keeps modem s.backend c
      exact ⟨h.events, h.resetSeen, h.quiet, h.starting, fun hs => hsink (h.sink hs),
        fun hr => h.ready (hready.symm.trans hr)⟩

/-- **What the handler is called with.** In every run the handler of the LoRaWAN backend is called with every
event that is taken after it was registered, once and in their order, and first of all with one RESET if the
modem reported any before; it is never called before, nor without a sink for what it publishes. -/
theorem events_handled (hrun : run (step getEvent) (.boot queue) acts = some t) :
    events t = replayed t ++ t.since ∧
    (t.handler = false → t.handled = [] ∧ t.published = []) ∧
    (t.handler = true → t.backend.eventSink = true) := by
  have hinv : Inv t := run_invariant' (fun _ _ _ h hstep => Inv.step h hstep) (inv_boot queue) hrun
  exact ⟨hinv.events, fun hno => (hinv.quiet hno).2, fun hhandler => hinv.sink (.inr hhandler)⟩

/-- The modem accepts what it is configured with, in a build with the region. -/
structure Configures (m : Modem) (region : Region) : Prop where
  answer : ∀ r, m.answer r = .ok
  listed : m.listRegion.1 = .ok
  built : region ∈ m.listRegion.2.take 32

/-- The modem accepts it whenever the handler may be called. -/
def Configured (s : State Q) : Act Q → Prop
  | .callback modem _ => ∀ n, Configures (modem n) s.backend.region
  | .startStep m => Configures m s.backend.region
  | _ => True

theorem Configures.request (h : Configures m region) (r : Request) : m.request r = .ok () := by
  rw [Modem.request, h.answer]
  rfl

theorem Configures.reset {b : Usp.State} (h : Configures m b.region) : (handleReset m b).1.ready = true := by
  have hservice : configureService m { b with ready := false, txPending := false, fuotaImageReady := false } =
      .ok () := by
    simp [configureService, checkRegionBuilt, h.listed, uspResult, h.built, h.request, bind, Except.bind]
  have hcredentials : ∀ settings, configureCredentials m settings = .ok () := fun settings => by
    simp [configureCredentials, h.request, bind, Except.bind]
  unfold handleReset
  simp only [hservice, hcredentials]
  split
  · rename_i e herror
    split at herror <;> cases herror
  · rfl

theorem handleEvent_region (m : Modem) (source : Except Err Taken) (b : Usp.State) :
    (handleEvent m source b).1.region = b.region := by
  rcases source with e | ⟨event, missed⟩
  · rfl
  show (handleEventType m event b).1.region = b.region
  unfold handleEventType
  split <;> try rfl
  · rcases handleReset_cases m b with ⟨e, h⟩ | h <;> rw [h]
  · show (setClassBState _ b).2.region = b.region
    rw [setClassBState_state]

theorem handleEvent_reset {b : Usp.State} (h : Configures m b.region) (n : Nat) :
    (handleEvent m (.ok (.reset, n)) b).1.ready = true := h.reset

theorem eq_reset_of_isReset {event : ModemEvent} (h : isReset event = true) : event = .reset := by
  cases event <;> first | rfl | cases h

/-- The backend is ready as soon as it can be. -/
structure Prompt (s : State Q) : Prop where
  inv : Inv s
  ready : s.handler = true → s.resetSeen = true → s.backend.ready = true

theorem Prompt.failed (h : Prompt s) (e : Err) : Prompt (deliver m (.error e) s) := by
  refine ⟨h.inv.failed m e, ?_⟩
  unfold deliver
  split <;> exact h.ready

theorem Prompt.taken (h : Prompt s) (hm : Configures m s.backend.region) (taken : Taken) :
    Prompt (deliver m (.ok taken) (note taken s)) := by
  refine ⟨h.inv.taken m taken, ?_⟩
  rcases Bool.eq_false_or_eq_true s.handler with hhandler | hhandler
  · rw [taken_of_handler hhandler]
    intro _ hseen
    have hseen : (s.resetSeen || isReset taken.1) = true := hseen
    show (handleEvent m (.ok taken) s.backend).1.ready = true
    cases hreset : isReset taken.1 with
    | true =>
      obtain ⟨event, missed⟩ := taken
      obtain rfl := eq_reset_of_isReset hreset
      exact handleEvent_reset hm missed
    | false =>
      rw [hreset, Bool.or_false] at hseen
      rw [handleEvent_ready m (.ok taken) s.backend (fun _ heq => (by cases heq; exact hreset))]
      exact h.ready hhandler hseen
  · rw [taken_of_none hhandler]
    intro hhandler'
    exact absurd (hhandler'.symm.trans hhandler) (by simp)

theorem Prompt.step (h : Prompt s) (hm : Configured s a) (hstep : Platform.step getEvent s a = some t) :
    Prompt t := by
  refine ⟨h.inv.step hstep, ?_⟩
  rcases a with queue | ⟨modem, fuel⟩ | _ | ⟨region, bypass⟩ | modem | ⟨c, modem⟩
  · simp only [Platform.step] at hstep
    split at hstep <;> cases hstep
    exact h.ready
  · simp only [Platform.step] at hstep
    split at hstep
    · have hregion : ∀ (n : Nat) (source : Except Err Taken) (u : State Q),
          u.backend.region = s.backend.region → (deliver (modem n) source u).backend.region = s.backend.region := fun n source u hu => by
        unfold deliver
        split
        · exact (handleEvent_region _ _ _).trans hu
        · exact hu
      have hprompt := callback_invariant (fun _ _ h => ⟨⟨⟨h.1.inv.events, h.1.inv.resetSeen, h.1.inv.quiet,
          h.1.inv.starting, h.1.inv.sink, h.1.inv.ready⟩, h.1.ready⟩, h.2⟩)
        (fun u n e h => ⟨h.1.failed e, hregion n _ u h.2⟩)
        (fun u n taken h => ⟨h.1.taken (h.2 ▸ hm n) taken, hregion n _ _ ((note_backend taken u).symm ▸ h.2)⟩)
        (I := fun u => Prompt u ∧ u.backend.region = s.backend.region) ⟨h, rfl⟩ hstep
      exact hprompt.1.ready
    · cases hstep
  · cases hstep
    exact h.ready
  · simp only [Platform.step] at hstep
    split at hstep <;> cases hstep
    exact h.ready
  · change Platform.startStep modem s = some t at hstep
    unfold Platform.startStep at hstep
    split at hstep <;> cases hstep
    · exact h.ready
    · rcases Bool.eq_false_or_eq_true s.resetSeen with hseen | hseen
      · rw [setEventHandler_of_seen hseen]
        exact fun _ _ => handleEvent_reset hm 0
      · rw [setEventHandler_of_unseen hseen]
        exact fun _ hseen' => absurd (hseen'.symm.trans hseen) (by simp)
  · simp only [Platform.step] at hstep
    split at hstep
    · cases hstep
    · cases hstep
      exact fun hhandler hseen => (call_keeps modem s.backend c).1.trans (h.ready hhandler hseen)

/-- **The start and the RESET.** With a modem that accepts its configuration the backend is ready exactly if
the handler is registered and the modem has reported a RESET, in whichever order the two happened and
whatever else ran between them. -/
theorem ready_iff (hrun : run (step getEvent) (.boot queue) acts = some t)
    (hm : Meets (step getEvent) Configured (.boot queue) acts) :
    t.backend.ready = true ↔ t.handler = true ∧ hasReset (t.early ++ t.since) = true := by
  have hprompt : Prompt t := run_invariant (fun _ _ _ h hG hstep => Prompt.step h hG hstep)
    ⟨inv_boot queue, fun h => by cases h⟩ hm hrun
  have hseen : t.resetSeen = hasReset (t.early ++ t.since) := by
    rw [hprompt.inv.resetSeen]
    exact (List.any_append).symm
  rw [← hseen]
  exact ⟨hprompt.inv.ready, fun h => hprompt.ready h.1 h.2⟩

/-! ### A modem that is up before the service -/

/-- Takes the events of a list. -/
def takeFirst : List Taken → Except ModemRc (Taken × Nat) × List Taken
  | [] => (.error .noEvent, [])
  | taken :: rest => (.ok (taken, rest.length), rest)

/-- The P2P backend has the modem report its RESET before the service starts; a join follows. -/
def lateStart : List (Act (List Taken)) :=
  [.init, .modem [(.reset, 0)], .callback (fun _ => agreeable) 2, .start .us915 false, .startStep agreeable,
    .startStep agreeable, .modem [(.joined, 0), (.other, 2)], .callback (fun _ => agreeable) 3]

theorem events_handled_late_start : ∃ t, run (step takeFirst) (.boot []) lateStart = some t ∧
    events t = [(.reset, 0), (.joined, 0), (.other, 2)] ∧ t.backend.eventSink = true := by
  obtain ⟨t, ht⟩ : ∃ t, run (step takeFirst) (.boot []) lateStart = some t := ⟨_, rfl⟩
  obtain ⟨hevents, -, hsink⟩ := events_handled ht
  have hhandler : (run (step takeFirst) (.boot []) lateStart).map (·.handler) = some true := rfl
  have hearly : (run (step takeFirst) (.boot []) lateStart).map (·.early) = some [(.reset, 0)] := rfl
  have hsince : (run (step takeFirst) (.boot []) lateStart).map (·.since) =
      some [(.joined, 0), (.other, 2)] := rfl
  simp only [ht, Option.map_some, Option.some.injEq] at hhandler hearly hsince
  refine ⟨t, ht, ?_, hsink hhandler⟩
  rw [hevents, replayed, hhandler, hearly, hsince]
  rfl

theorem agreeable_configures (region : Region) : Configures agreeable region where
  answer _ := rfl
  listed := rfl
  built := by cases region <;> simp [agreeable]

theorem ready_iff_late_start :
    ∃ t, run (step takeFirst) (.boot []) lateStart = some t ∧ t.backend.ready = true := by
  obtain ⟨t, ht⟩ : ∃ t, run (step takeFirst) (.boot []) lateStart = some t := ⟨_, rfl⟩
  have hm : Meets (step takeFirst) Configured (.boot []) lateStart :=
    .of_forall (by simp [lateStart, Configured, agreeable_configures])
  have hhandler : (run (step takeFirst) (.boot []) lateStart).map (·.handler) = some true := rfl
  have hreset : (run (step takeFirst) (.boot []) lateStart).map (fun s => hasReset (s.early ++ s.since)) =
      some true := rfl
  simp only [ht, Option.map_some, Option.some.injEq] at hhandler hreset
  exact ⟨t, ht, (ready_iff ht hm).2 ⟨hhandler, hreset⟩⟩

end Runs

end Rzi.Usp.Platform
