import Rzi.JoinLeave
import Rzi.UspBackend

/-!
# Recovery from a modem reset

The service over the USP backend: the service's calls reach the backend, and what the backend
publishes is queued in the service. A RESET of the modem ends its session. The handler drops the
uplink, but neither the Class B state nor the multicast table, and READY does not end a join sequence.
`reset_recovers_iff` says from which states the reset leaves nothing of the session behind.
-/

namespace Rzi.Usp.Reset
open Lts
open Lorawan (BackendEvent ClassBState Service Policy Answers Build Setter Env SequenceEnds)
open Zephyr (JoinConfig Region)

/-- The service, the backend and the events the backend handed to the service. -/
structure System where
  service : Service
  backend : State
  published : List BackendEvent

def System.init : System := ⟨Service.init, State.init, []⟩

inductive Act where
  | init (region : Region) (bypass : Bool) (setRegion : Except Err Unit)
  | join (start : Int) (policy : Policy) (settings : Answers) (modem : Modem)
  | leave (settings : Answers) (modem : Modem)
  | set (setter : Setter) (settings : Answers)
  | clearSettings (rc : Except Err Unit)
  | dispatch (modem : Modem)
  /-- the calls that the service only passes on -/
  | call (c : Call) (modem : Modem)
  | event (source : Except Err (ModemEvent × Nat)) (modem : Modem)

/-- Hand events to the sink, which is the `publish` of the service. -/
def sink (events : List BackendEvent) (service : Service) : Service :=
  events.foldl (fun s e => Lorawan.publish e s.joins.length s) service

/-- What the backend answers the service. -/
def backendEnv (modem : Modem) (b : State) (settings : Answers) (join : Except Err Unit) : Env :=
  ⟨settings, join, uspIsJoined modem b, (uspLeave modem b).rc⟩

/-- The configuration with which a join of the service calls `usp_join`, if it gets that far. -/
def requestedConfig (build : Build) (start : Int) (policy : Policy) (settings : Answers)
    (modem : Modem) (s : System) : Option JoinConfig :=
  let env := backendEnv modem s.backend settings (.ok ())
  ((Lorawan.lorawanJoin build start policy env s.service).2.joins.drop s.service.joins.length).head?

/-- Whether `stop_join` calls `usp_leave`. -/
def stopLeaves (start : Int) (policy : Policy) (settings : Answers) (modem : Modem) (s : System) :
    Bool :=
  decide (start = 0) && (Lorawan.updatePolicy policy settings s.service.credentials).1.isOk &&
    s.service.joinSequenceActive && s.service.started &&
    (match uspIsJoined modem s.backend with
      | .ok joined => !joined
      | .error _ => false)

/-- `rzi_lorawan_join` on the USP backend. -/
def join (build : Build) (start : Int) (policy : Policy) (settings : Answers) (modem : Modem)
    (s : System) : System :=
  match requestedConfig build start policy settings modem s with
  | some config =>
    let out := uspJoin modem config s.backend
    let env := backendEnv modem s.backend settings out.rc
    { s with
      service := (Lorawan.lorawanJoin build start policy env s.service).2
      backend := out.state }
  | none =>
    let env := backendEnv modem s.backend settings (.ok ())
    { s with
      service := (Lorawan.lorawanJoin build start policy env s.service).2
      backend := if stopLeaves start policy settings modem s then (uspLeave modem s.backend).state
        else s.backend }

/-- Whether the dispatcher stops the backend with the next event: its last attempt has failed. -/
def dispatchLeaves (s : Service) : Bool :=
  match s.events with
  | [] => false
  | q :: _ => q.event.isJoinFailed && s.joinSequenceActive && s.joinRetriesRemaining == 0

/-- One turn of the dispatcher. -/
def dispatcher (modem : Modem) (s : System) : Option System :=
  (Lorawan.dispatcher s.service).map fun service =>
    { s with
      service := service
      backend := if dispatchLeaves s.service then (uspLeave modem s.backend).state else s.backend }

def Call.isPassedOn : Call → Bool
  | .start _ _ | .join _ | .leave => false
  | _ => true

def step (build : Build) (s : System) : Act → Option System
  | .init region bypass setRegion =>
    let out := uspStart region bypass s.backend
    some { s with
      service := (Lorawan.lorawanInit setRegion out.rc s.service).2
      backend := if !s.service.started && setRegion.isOk then out.state else s.backend }
  | .join start policy settings modem => some (join build start policy settings modem s)
  | .leave settings modem =>
    let env := backendEnv modem s.backend settings (.ok ())
    some { s with
      service := (Lorawan.lorawanLeave env s.service).2
      backend := if s.service.started then (uspLeave modem s.backend).state else s.backend }
  | .set setter settings => some { s with
      service := { s.service with credentials := (setter.call build settings s.service.credentials).2 } }
  | .clearSettings rc => some { s with
      service := { s.service with
        credentials := (Lorawan.clearSettings rc s.service.credentials).2 } }
  | .dispatch modem => dispatcher modem s
  | .call c modem =>
    if s.service.started && Call.isPassedOn c then
      let out := c.run modem s.backend
      some ⟨sink out.published s.service, out.state, s.published ++ out.published⟩
    else none
  | .event source modem =>
    if s.backend.eventSink then
      let (backend, events) := handleEvent modem source s.backend
      some ⟨sink events s.service, backend, s.published ++ events⟩
    else none

def Reachable (build : Build) (s : System) : Prop := ∃ as, run (step build) System.init as = some s

/-- Up to `k` events dispatched. -/
def drain (modem : Modem) : Nat → System → System
  | 0, s => s
  | k + 1, s => drain modem k ((dispatcher modem s).getD s)

/-- The queued events dispatched, and the one that the end of a sequence adds to them. -/
def dispatchAll (modem : Modem) (s : System) : System := drain modem (s.service.events.length + 1) s

/-- The state of the last CLASS_B event. -/
def lastClassB (events : List BackendEvent) : Option ClassBState := (events.filterMap classBOf).getLast?

/-- Nothing is left of the session. -/
structure Recovered (build : Build) (s : System) : Prop where
  uplink : uspIsBusy s.backend = .ok false
  sequence : s.service.joinSequenceActive = false
  join : ∀ policy env, env.settings.NeverBusy → env.join ≠ .error .busy →
    (Lorawan.lorawanJoin build 1 policy env s.service).1 ≠ .error .busy
  classB : s.backend.classBState = .idle
  notified : ∀ state, lastClassB s.published = some state → state = .idle
  multicast : uspMulticastCount s.backend = .ok 0

/-- The session holds nothing that the reset would have to end: no Class B, no multicast group and no
join sequence that goes on after the queued events. -/
structure NothingToEnd (s : System) : Prop where
  classB : s.backend.classBState = .idle
  multicast : true ∉ s.backend.multicastUsed.toList
  sequence : SequenceEnds s.service

/-- The subscribers were told the Class B state, and the sink is there to tell them the next. -/
structure Told (s : System) : Prop where
  classB : (lastClassB s.published).getD .idle = s.backend.classBState
  eventSink : s.backend.ready = true → s.backend.eventSink = true

variable {build : Build} {s t : System} {modem : Modem}

/-! ### What the subscribers were told -/

theorem lastClassB_append (events new : List BackendEvent) :
    lastClassB (events ++ new) = (lastClassB new).or (lastClassB events) := by
  rw [lastClassB, List.filterMap_append, List.getLast?_append]
  rfl

theorem lastClassB_plain {events : List BackendEvent} (h : Plain events) : lastClassB events = none := by
  have hnil : events.filterMap classBOf = [] := by
    rw [List.filterMap_eq_nil_iff]
    exact fun e he => (h e he).2
  rw [lastClassB, hnil]
  rfl

/-- A step that publishes nothing about Class B and leaves its state. -/
theorem Told.same {service : Service} {b : State} {events : List BackendEvent} (h : Told s)
    (hb : b.classBState = s.backend.classBState)
    (hsink : b.ready = true → b.eventSink = true) (hevents : lastClassB events = none) :
    Told ⟨service, b, s.published ++ events⟩ := by
  refine ⟨?_, hsink⟩
  rw [lastClassB_append, hevents, Option.none_or, hb]
  exact h.classB

theorem Told.keep {service : Service} {b : State} (h : Told s) (hb : Same s.backend b) :
    Told { s with service := service, backend := b } := by
  refine ⟨h.classB.trans hb.classBState.symm, fun hready => hb.eventSink (h.eventSink ?_)⟩
  rw [← hb.ready]
  exact hready

/-- A new Class B state, published. -/
theorem told_classBState {service : Service} (hsink : s.backend.eventSink = true)
    (state : ClassBState) : Told ⟨service, { s.backend with classBState := state },
      s.published ++ publishClassB state s.backend⟩ := by
  refine ⟨?_, fun _ => hsink⟩
  rw [lastClassB_append, publishClassB, if_pos hsink]
  rfl

/-- All a leave changes in the backend is that the image of a FUOTA session is dropped. -/
theorem uspLeave_state (modem : Modem) (b : State) :
    ∃ image, (uspLeave modem b).state = { b with fuotaImageReady := image } := by
  unfold uspLeave enter
  split
  · simp only
    split
    · exact ⟨b.fuotaImageReady, rfl⟩
    · exact ⟨false, rfl⟩
  · exact ⟨b.fuotaImageReady, rfl⟩

theorem uspLeave_same (modem : Modem) (b : State) : Same b (uspLeave modem b).state := by
  obtain ⟨image, h⟩ := uspLeave_state modem b
  rw [h]
  exact ⟨rfl, rfl, rfl, id⟩

theorem uspJoin_same (modem : Modem) (config : JoinConfig) (b : State) :
    Same b (uspJoin modem config b).state := by
  unfold uspJoin enter
  split
  · exact .refl b
  · split
    · exact ⟨rfl, rfl, rfl, id⟩
    · exact .refl b

theorem Same.ite {b b' : State} {p : Bool} (h : Same b b') : Same b (if p then b' else b) := by
  split
  · exact h
  · exact .refl b

theorem Told.call (h : Told s) (c : Call) (service : Service) :
    Told ⟨service, (c.run modem s.backend).state, s.published ++ (c.run modem s.backend).published⟩ := by
  have heffect := c.run_effect modem s.backend
  generalize c.run modem s.backend = out at heffect ⊢
  cases heffect with
  | same rc b hb _ =>
    refine h.same hb.classBState (fun hready => hb.eventSink (h.eventSink ?_)) rfl
    rw [← hb.ready]
    exact hready
  | accepted _ _ _ => exact h.same rfl h.eventSink rfl
  | classB state _ hready => exact told_classBState (h.eventSink hready) state

theorem lastClassB_missed (missed : Nat) (events : List BackendEvent) :
    lastClassB ((if 0 < missed then [.error (some .overflow)] else []) ++ events) =
      lastClassB events := by
  split
  · rfl
  · rfl

theorem Told.event (h : Told s) (hsink : s.backend.eventSink = true)
    (source : Except Err (ModemEvent × Nat)) (service : Service) :
    Told ⟨service, (handleEvent modem source s.backend).1,
      s.published ++ (handleEvent modem source s.backend).2⟩ := by
  cases source with
  | error e => exact h.same rfl (fun _ => hsink) rfl
  | ok source =>
    obtain ⟨event, missed⟩ := source
    have heffect := handleEventType_effect modem event s.backend
    have hmissed {b : State} {events : List BackendEvent} (htold : Told ⟨service, b, s.published ++ events⟩) :
        Told ⟨service, b, s.published ++
          ((if 0 < missed then [.error (some .overflow)] else []) ++ events)⟩ := by
      refine ⟨?_, htold.eventSink⟩
      rw [lastClassB_append, lastClassB_missed, ← lastClassB_append]
      exact htold.classB
    simp only [handleEvent]
    refine hmissed ?_
    generalize handleEventType modem event s.backend = out at heffect ⊢
    cases heffect with
    | reset =>
      rcases handleReset_cases modem s.backend with ⟨e, hreset⟩ | hreset
      · rw [hreset]
        exact h.same rfl (fun _ => hsink) rfl
      · rw [hreset]
        exact h.same rfl (fun _ => hsink) rfl
    | txDone status =>
      refine h.same rfl (fun _ => hsink) ?_
      cases status with
      | none => rfl
      | some type => cases type <;> rfl
    | classB event state _ _ => exact told_classBState hsink state
    | same event b events hb hevents _ _ =>
      exact h.same hb.classBState (fun _ => hb.eventSink hsink) (lastClassB_plain hevents)

theorem Told.dispatcher (h : Told s) (ht : dispatcher modem s = some t) : Told t := by
  obtain ⟨service, -, rfl⟩ := Option.map_eq_some_iff.1 ht
  exact h.keep (Same.ite (uspLeave_same modem s.backend))

theorem Told.step {a : Act} (h : Told s) (ht : step build s a = some t) : Told t := by
  cases a with
  | init region bypass setRegion =>
    cases ht
    exact h.keep (Same.ite ⟨rfl, rfl, rfl, fun _ => rfl⟩)
  | join start policy settings modem =>
    cases ht
    unfold join
    split
    · exact h.keep (uspJoin_same modem _ s.backend)
    · exact h.keep (Same.ite (uspLeave_same modem s.backend))
  | leave settings modem =>
    cases ht
    exact h.keep (Same.ite (uspLeave_same modem s.backend))
  | set setter settings =>
    cases ht
    exact h.keep (.refl _)
  | clearSettings rc =>
    cases ht
    exact h.keep (.refl _)
  | dispatch modem => exact h.dispatcher ht
  | call c modem =>
    simp only [Reset.step] at ht
    split at ht
    · cases ht
      exact h.call c _
    · cases ht
  | event source modem =>
    simp only [Reset.step] at ht
    split at ht
    · rename_i hsink
      cases ht
      exact h.event hsink source _
    · cases ht

theorem Reachable.told (h : Reachable build s) : Told s := by
  obtain ⟨as, has⟩ := h
  have hinit : Told System.init := by
    refine ⟨rfl, fun hready => ?_⟩
    cases hready
  exact run_invariant' (fun _ _ _ hs ht => hs.step ht) hinit has

/-! ### Dispatching what is queued -/

theorem dispatcher_getD_service (modem : Modem) (s : System) :
    ((dispatcher modem s).getD s).service = (Lorawan.dispatcher s.service).getD s.service := by
  unfold dispatcher
  cases Lorawan.dispatcher s.service with
  | none => rfl
  | some service => rfl

/-- The dispatcher changes nothing of the backend that a session shows in. -/
theorem dispatcher_getD_backend (modem : Modem) (s : System) :
    (∃ image, ((dispatcher modem s).getD s).backend = { s.backend with fuotaImageReady := image }) ∧
      ((dispatcher modem s).getD s).published = s.published := by
  unfold dispatcher
  cases Lorawan.dispatcher s.service with
  | none => exact ⟨⟨s.backend.fuotaImageReady, rfl⟩, rfl⟩
  | some service =>
    refine ⟨?_, rfl⟩
    simp only [Option.map_some, Option.getD_some]
    split
    · exact uspLeave_state modem s.backend
    · exact ⟨s.backend.fuotaImageReady, rfl⟩

theorem drain_service (modem : Modem) (k : Nat) (s : System) :
    (drain modem k s).service = Lorawan.drain k s.service := by
  induction k generalizing s with
  | zero => rfl
  | succ k ih => rw [drain, ih, dispatcher_getD_service, Lorawan.drain]

theorem drain_backend (modem : Modem) (k : Nat) (s : System) :
    (∃ image, (drain modem k s).backend = { s.backend with fuotaImageReady := image }) ∧
      (drain modem k s).published = s.published := by
  induction k generalizing s with
  | zero => exact ⟨⟨s.backend.fuotaImageReady, rfl⟩, rfl⟩
  | succ k ih =>
    obtain ⟨⟨image, himage⟩, hpublished⟩ := dispatcher_getD_backend modem s
    obtain ⟨⟨image', himage'⟩, hpublished'⟩ := ih ((dispatcher modem s).getD s)
    rw [himage] at himage'
    exact ⟨⟨image', himage'⟩, hpublished'.trans hpublished⟩

/-- A dispatched event adds to what was delivered and to what is queued. -/
theorem dispatch_adds (event : BackendEvent) (service : Service) :
    service.delivered ⊆ (Lorawan.dispatch event service).delivered ∧
      service.events ⊆ (Lorawan.dispatch event service).events := by
  have hswallow : (Lorawan.swallowJoinEvent event service).2.delivered = service.delivered ∧
      service.events ⊆ (Lorawan.swallowJoinEvent event service).2.events := by
    unfold Lorawan.swallowJoinEvent
    split
    · exact ⟨rfl, List.Subset.refl _⟩
    · split
      · exact ⟨rfl, List.Subset.refl _⟩
      · split
        · exact ⟨rfl, List.Subset.refl _⟩
        · exact ⟨rfl, List.subset_append_left _ _⟩
    · exact ⟨rfl, List.Subset.refl _⟩
  unfold Lorawan.dispatch
  split
  · refine ⟨?_, hswallow.2⟩
    rw [hswallow.1]
    exact List.Subset.refl _
  · refine ⟨?_, hswallow.2⟩
    simp only [Lorawan.deliver, hswallow.1]
    exact List.subset_append_left _ _

/-- A READY that is queued is delivered by the time the queue is empty. -/
theorem drain_delivers (k : Nat) {service : Service} (h : Lorawan.Event.ready ∈ service.delivered ∨
    ∃ q ∈ service.events, q.event = .ready) :
    Lorawan.Event.ready ∈ (Lorawan.drain k service).delivered ∨
      ∃ q ∈ (Lorawan.drain k service).events, q.event = .ready := by
  induction k generalizing service with
  | zero => exact h
  | succ k ih =>
    refine ih ?_
    cases hevents : service.events with
    | nil =>
      have hstay : (Lorawan.dispatcher service).getD service = service := by
        unfold Lorawan.dispatcher
        rw [hevents]
        rfl
      rw [hstay]
      exact h
    | cons q events =>
      have hnext : (Lorawan.dispatcher service).getD service =
          Lorawan.dispatch q.event { service with events := events } := by
        unfold Lorawan.dispatcher
        rw [hevents]
        rfl
      rw [hnext]
      obtain ⟨hdelivered, hqueued⟩ := dispatch_adds q.event { service with events := events }
      rcases h with h | ⟨q', hq', hready⟩
      · exact .inl (hdelivered h)
      · rw [hevents] at hq'
        rcases List.mem_cons.1 hq' with rfl | hq'
        · left
          rw [hready]
          simp [Lorawan.dispatch, Lorawan.swallowJoinEvent, Lorawan.deliver, Lorawan.eventFromBackend]
        · exact .inr ⟨q', hqueued hq', hready⟩

/-- What is handed to the sink is behind the queued events. -/
theorem sink_eq (events : List BackendEvent) (service : Service) :
    sink events service = { service with
      events := service.events ++ events.map fun e => ⟨e, service.joins.length⟩ } := by
  induction events generalizing service with
  | nil =>
    simp [sink]
  | cons e events ih =>
    have hcons : sink (e :: events) service =
        sink events (Lorawan.publish e service.joins.length service) := rfl
    rw [hcons, ih]
    simp [Lorawan.publish]

theorem sequenceEnds_sink {events : List BackendEvent} (service : Service)
    (h : ∀ e ∈ events, e.isJoinResult = false) :
    SequenceEnds (sink events service) ↔ SequenceEnds service := by
  have hjoined : ¬ ∃ q ∈ events.map (fun e => (⟨e, service.joins.length⟩ : Lorawan.Queued)),
      q.event = .joined := by
    rintro ⟨q, hq, hjoined⟩
    obtain ⟨e, he, rfl⟩ := List.mem_map.1 hq
    have hresult := h e he
    simp only at hjoined
    rw [hjoined] at hresult
    cases hresult
  have hfailed : (events.map (fun e => (⟨e, service.joins.length⟩ : Lorawan.Queued))).countP
      (·.event.isJoinFailed) = 0 := by
    rw [List.countP_eq_zero]
    intro q hq
    obtain ⟨e, he, rfl⟩ := List.mem_map.1 hq
    have hresult := h e he
    cases e <;> simp_all [BackendEvent.isJoinResult, BackendEvent.isJoinFailed]
  rw [sink_eq]
  unfold SequenceEnds
  rw [List.countP_append, hfailed, Nat.add_zero]
  simp only [List.mem_append, or_and_right, exists_or, hjoined, or_false]

/-! ### After a handled RESET -/

theorem dispatchAll_service (modem : Modem) (s : System) :
    (dispatchAll modem s).service = Lorawan.dispatchAll s.service := drain_service modem _ s

/-- Once the queue is empty, nothing is left of a session that there was not to end. -/
theorem recovered_dispatchAll (h : Told s) (hready : s.backend.ready = true)
    (hidle : s.backend.txPending = false) :
    Recovered build (dispatchAll modem s) ↔ NothingToEnd s := by
  obtain ⟨⟨image, hbackend⟩, hpublished⟩ := drain_backend modem (s.service.events.length + 1) s
  have hsequence : (dispatchAll modem s).service.joinSequenceActive = false ↔
      SequenceEnds s.service := by
    rw [dispatchAll_service, ← Lorawan.sequenceEnds_of_empty (Lorawan.dispatchAll_events s.service),
      Lorawan.dispatchAll, Lorawan.sequenceEnds_drain]
  have hcount : uspMulticastCount (dispatchAll modem s).backend = .ok 0 ↔
      true ∉ s.backend.multicastUsed.toList := by
    rw [dispatchAll, hbackend, uspMulticastCount, if_neg (by simp [hready]), Except.ok.injEq,
      List.count_eq_zero]
  have hclassB : (dispatchAll modem s).backend.classBState = s.backend.classBState := by
    rw [dispatchAll, hbackend]
  constructor
  · intro hr
    exact ⟨hclassB.symm.trans hr.classB, hcount.1 hr.multicast, hsequence.1 hr.sequence⟩
  · rintro ⟨hb, hm, hq⟩
    refine ⟨?_, hsequence.2 hq, ?_, hclassB.trans hb, ?_, hcount.2 hm⟩
    · rw [dispatchAll, hbackend, uspIsBusy, if_neg (by simp [hready]), hidle]
    · intro policy env ha hjoin
      exact Lorawan.lorawanJoin_not_busy ha hjoin (hsequence.2 hq) policy
    · intro state hstate
      rw [dispatchAll, hpublished] at hstate
      have htold := h.classB
      rw [hstate, hb] at htold
      exact htold

/-- The system after a RESET that the handler could serve, with what it has published. -/
theorem reset_state {missed : Nat}
    (ht : step build s (.event (.ok (.reset, missed)) modem) = some t)
    (hready : t.backend.ready = true) :
    ∃ events, t.service = sink events s.service ∧
      t.backend = { s.backend with ready := true, txPending := false, fuotaImageReady := false } ∧
      .ready ∈ events ∧ ∀ e ∈ events, e.isJoinResult = false := by
  simp only [step, handleEvent, handleEventType] at ht
  split at ht
  · rcases handleReset_cases modem s.backend with ⟨e, hreset⟩ | hreset
    · rw [hreset] at ht
      cases ht
      cases hready
    · rw [hreset] at ht
      cases ht
      refine ⟨_, rfl, rfl, List.mem_append_right _ (List.mem_singleton.2 rfl), ?_⟩
      intro e he
      rcases List.mem_append.1 he with he | he
      · split at he
        · rw [List.mem_singleton.1 he]
          rfl
        · cases he
      · rw [List.mem_singleton.1 he]
        rfl
  · cases ht

/-- **Recovery from a modem reset.** From every reachable state, after a RESET that was handled
successfully and the dispatch of everything up to its READY, nothing of the session is left exactly if
there was no Class B state, no multicast group and no join sequence to end. -/
theorem reset_recovers_iff (build : Build) (s t : System) (modem modem' : Modem) (missed : Nat)
    (hs : Reachable build s) (ht : step build s (.event (.ok (.reset, missed)) modem) = some t)
    (hready : t.backend.ready = true) :
    (dispatchAll modem' t).service.events = [] ∧
      Lorawan.Event.ready ∈ (dispatchAll modem' t).service.delivered ∧
      (Recovered build (dispatchAll modem' t) ↔ NothingToEnd s) := by
  obtain ⟨events, hservice, hbackend, hmem, hresults⟩ := reset_state ht hready
  have hempty : (dispatchAll modem' t).service.events = [] := by
    rw [dispatchAll_service]
    exact Lorawan.dispatchAll_events t.service
  refine ⟨hempty, ?_, ?_⟩
  · have hqueued : ∃ q ∈ t.service.events, q.event = .ready := by
      rw [hservice, sink_eq]
      exact ⟨⟨.ready, s.service.joins.length⟩,
        List.mem_append_right _ (List.mem_map_of_mem hmem), rfl⟩
    rw [dispatchAll_service] at hempty ⊢
    rcases drain_delivers (t.service.events.length + 1) (.inr hqueued) with h | ⟨q, hq, -⟩
    · exact h
    · rw [Lorawan.dispatchAll] at hempty
      rw [hempty] at hq
      cases hq
  · have hidle : t.backend.txPending = false := by rw [hbackend]
    rw [recovered_dispatchAll (hs.told.step ht) hready hidle]
    have hends : SequenceEnds t.service ↔ SequenceEnds s.service := by
      rw [hservice]
      exact sequenceEnds_sink s.service hresults
    constructor
    · rintro ⟨hb, hm, hq⟩
      rw [hbackend] at hb hm
      exact ⟨hb, hm, hends.1 hq⟩
    · rintro ⟨hb, hm, hq⟩
      refine ⟨?_, ?_, hends.2 hq⟩
      · rw [hbackend]
        exact hb
      · rw [hbackend]
        exact hm

/-- The capabilities of the USP backend: no ABP. -/
def uspBuild : Build := { Lorawan.fullBuild with capAbp := false }

/-- The service started, the modem ready and joined, each event dispatched. -/
def joinedRun : List Act :=
  [.init .eu868 false (.ok ()), .event (.ok (.reset, 0)) agreeable, .dispatch agreeable,
    .dispatch agreeable, .join 1 ⟨-1, -1, -1⟩ Lorawan.defaultAnswers agreeable,
    .event (.ok (.joined, 0)) agreeable, .dispatch agreeable, .dispatch agreeable]

def joined : System := (run (step uspBuild) System.init joinedRun).getD System.init

theorem joined_reachable : Reachable uspBuild joined := ⟨joinedRun, rfl⟩

/-- The state that a RESET leaves. -/
def afterReset (s : System) : System :=
  (step uspBuild s (.event (.ok (.reset, 0)) agreeable)).getD s

/-- A joined device in Class A recovers. -/
theorem reset_recovers_joined :
    Recovered uspBuild (dispatchAll agreeable (afterReset joined)) := by
  have h := reset_recovers_iff uspBuild joined (afterReset joined) agreeable agreeable 0
    joined_reachable rfl rfl
  refine h.2.2.2 ⟨rfl, by decide, .inl ?_⟩
  decide

/-- The joined device in Class B with a multicast session. -/
def classBRun : List Act := joinedRun ++
  [.call (.setClass .b) agreeable, .event (.ok (.classBStatus (some true), 0)) agreeable,
    .call (.multicastAdd ⟨.b, 0x11223344, .replicate 16 1, .replicate 16 2, 869525000, 0, 3, -1⟩)
      agreeable]

def inClassB : System := (run (step uspBuild) System.init classBRun).getD System.init

theorem inClassB_reachable : Reachable uspBuild inClassB := ⟨classBRun, rfl⟩

/-- After the reset the backend still reports Class B as active. -/
theorem reset_keeps_class_b : ¬ ∀ (s t : System) (modem modem' : Modem) (missed : Nat),
    Reachable uspBuild s → step uspBuild s (.event (.ok (.reset, missed)) modem) = some t →
    t.backend.ready = true → Recovered uspBuild (dispatchAll modem' t) := by
  intro h
  have hrecovered := h inClassB (afterReset inClassB) agreeable agreeable 0 inClassB_reachable rfl rfl
  have hactive : (dispatchAll agreeable (afterReset inClassB)).backend.classBState = .active := by
    decide
  rw [hrecovered.classB] at hactive
  cases hactive

end Rzi.Usp.Reset
