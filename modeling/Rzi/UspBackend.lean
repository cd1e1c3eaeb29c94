import Rzi.LorawanService

/-!
# The USP backend (`backend/usp/lorawan_backend_usp*.c`)

Every call and the modem's event handler hold the USP lock from end to end, so each of them is one
step: `Call.run` for the calls and `handleEvent` for the events. LoRa Basics Modem itself is not here;
what it answers to the requests of a call is the argument `modem`. The build has Class B, Class C,
multicast and FUOTA.
-/

namespace Rzi.Usp
open Lorawan (ClassBState BackendEvent Downlink)
open Zephyr (JoinConfig JoinOtaa MessageType Region TxStatus)

/-- `smtc_modem_return_code_t`. -/
inductive ModemRc where
  | ok | notInit | invalid | invalidStackId | busy | noTime | noEvent | fail | other
deriving DecidableEq, Repr

/-- `rzi_usp_result`. -/
def uspResult : ModemRc → Except Err Unit
  | .ok => .ok ()
  | .notInit => .error .notReady
  | .invalid | .invalidStackId => .error .invalid
  | .busy => .error .busy
  | .noTime | .noEvent => .error .noData
  | .fail | .other => .error .io

/-- The error of an event published for `rc`, `none` for 0. -/
def uspError (rc : ModemRc) : Option Err :=
  match uspResult rc with
  | .error e => some e
  | .ok () => none

/-- `enum rzi_lorawan_class`. -/
inductive DeviceClass where
  | a | b | c
deriving DecidableEq, Repr

structure MulticastSession where
  deviceClass : DeviceClass
  devAddr : UInt32
  applicationSessionKey : Vector UInt8 16
  networkSessionKey : Vector UInt8 16
  frequencyHz : UInt32
  dataRate : UInt8
  periodicity : UInt16
  groupId : Int
deriving DecidableEq

/-- The requests the backend makes of the modem. -/
inductive Request where
  | setDeveui (eui : Vector UInt8 8)
  | setJoineui (eui : Vector UInt8 8)
  | setAppkey (key : Vector UInt8 16)
  | setNwkkey (key : Vector UInt8 16)
  | setChannelMask (mask : List UInt8)
  | setRegion (region : Region)
  | setJoinDutyCycleBackoffBypass (enabled : Bool)
  | joinNetwork
  | leaveNetwork
  | requestUplink (port : UInt8) (confirmed : Bool) (data : List UInt8)
  | requestEmptyUplink (withPort : Bool) (port : UInt8) (confirmed : Bool)
  | setClass (deviceClass : DeviceClass)
  | multicastSetGrpConfig (group : Fin 4) (devAddr : UInt32) (nwkSkey appSkey : Vector UInt8 16)
  | multicastClassCStartSession (group : Fin 4) (frequencyHz : UInt32) (dataRate : UInt8)
  | multicastClassBStartSession (group : Fin 4) (frequencyHz : UInt32) (dataRate : UInt8)
      (periodicity : UInt16)
  | multicastClassCStopSession (group : Fin 4)
  | multicastClassBStopSession (group : Fin 4)
  | multicastClassCStopAllSessions
  | multicastClassBStopAllSessions
deriving DecidableEq

/-- What the modem answers during one call. -/
structure Modem where
  answer : Request → ModemRc
  /-- `smtc_modem_get_list_region` -/
  listRegion : ModemRc × List Region
  /-- `smtc_modem_get_status`: whether the joined bit is set -/
  status : ModemRc × Bool

def Modem.request (modem : Modem) (r : Request) : Except Err Unit := uspResult (modem.answer r)

/-- What the backend reads of `join_settings`. -/
structure JoinSettings where
  otaa : JoinOtaa
  channelMask : Option (Vector UInt16 6)
deriving DecidableEq

/-- The static variables of the backend. -/
structure State where
  ready : Bool
  txPending : Bool
  credentialsValid : Bool
  joinSettings : JoinSettings
  joinBackoffBypass : Bool
  region : Region
  /-- `event_sink` is set -/
  eventSink : Bool
  classBState : ClassBState
  fuotaImageReady : Bool
  multicast : Vector MulticastSession 4
  multicastUsed : Vector Bool 4

def State.init : State where
  ready := false
  txPending := false
  credentialsValid := false
  joinSettings := ⟨⟨.replicate 8 0, .replicate 8 0, .replicate 16 0, .replicate 16 0, 0⟩, none⟩
  joinBackoffBypass := false
  region := .eu868
  eventSink := false
  classBState := .idle
  fuotaImageReady := false
  multicast := .replicate 4 ⟨.a, 0, .replicate 16 0, .replicate 16 0, 0, 0, 0, 0⟩
  multicastUsed := .replicate 4 false

/-- What a call returns, the state it leaves and the events it hands to the sink. -/
structure Outcome where
  rc : Except Err Unit
  state : State
  published : List BackendEvent

/-- A call that publishes nothing. -/
def finish (rc : Except Err Unit) (s : State) : Outcome := ⟨rc, s, []⟩

/-- `rzi_lorawan_usp_enter` before the locked part of a call. -/
def enter (s : State) (call : State → Outcome) : Outcome :=
  if s.ready then call s else finish (.error .notReady) s

/-! ### Configuring the modem -/

def configureCredentials (modem : Modem) (settings : JoinSettings) : Except Err Unit := do
  modem.request (.setDeveui settings.otaa.devEui)
  modem.request (.setJoineui settings.otaa.joinEui)
  modem.request (.setAppkey settings.otaa.applicationKey)
  modem.request (.setNwkkey settings.otaa.networkKey)

/-- The channel mask as the modem takes it, each word low byte first. -/
def maskBytes (mask : Vector UInt16 6) : List UInt8 :=
  mask.toList.flatMap fun (word : UInt16) => [word.toUInt8, (word >>> 8).toUInt8]

def configureChannelMask (modem : Modem) (region : Region) (settings : JoinSettings) :
    Except Err Unit :=
  if region ≠ .us915 ∧ region ≠ .au915 then .ok ()
  else
    match settings.channelMask with
    | none => modem.request (.setChannelMask [])
    | some mask =>
      if modem.answer (.setChannelMask (maskBytes mask)) = .fail then .error .notSupported
      else modem.request (.setChannelMask (maskBytes mask))

def checkRegionBuilt (modem : Modem) (region : Region) : Except Err Unit := do
  uspResult modem.listRegion.1
  if region ∈ modem.listRegion.2.take 32 then .ok () else .error .notSupported

def configureService (modem : Modem) (s : State) : Except Err Unit := do
  checkRegionBuilt modem s.region
  modem.request (.setRegion s.region)
  modem.request (.setJoinDutyCycleBackoffBypass s.joinBackoffBypass)

/-! ### The events of the modem -/

/-- `smtc_modem_dl_window_t`. -/
inductive ModemWindow where
  | rx1 | rx2 | rxc | rxcMulticast (group : Fin 4) | rxb | rxbMulticast (group : Fin 4) | other
deriving DecidableEq, Repr

/-- A downlink with its `smtc_modem_dl_metadata_t`. -/
structure ModemDownlink where
  data : List UInt8
  fport : UInt8
  rssi : Int
  snr : Int
  fpending : Bool
  window : ModemWindow
  dataRate : UInt8
  frequencyHz : UInt32
deriving DecidableEq, Repr

/-- `map_window`: the window, the flag bits it adds and the multicast group. -/
def mapWindow : ModemWindow → UInt8 × UInt32 × UInt8
  | .rx1 => (1, 0, 0)
  | .rx2 => (2, 0, 0)
  | .rxc => (3, 0, 0)
  | .rxcMulticast group => (3, 4, UInt8.ofNat group)
  | .rxb => (4, 0, 0)
  | .rxbMulticast group => (4, 4, UInt8.ofNat group)
  | .other => (0, 0, 0)

def toDownlink (d : ModemDownlink) : Downlink where
  port := d.fport
  data := d.data
  rssiDbm := d.rssi - 64
  snrQuarterDb := d.snr
  flags := (if d.fpending then 1 else 0) ||| (mapWindow d.window).2.1
  window := (mapWindow d.window).1
  multicastGroup := (mapWindow d.window).2.2
  dataRate := d.dataRate
  frequencyHz := d.frequencyHz

/-- `publish_downlinks` on what `smtc_modem_get_downlink_data` answers, turn by turn. -/
def publishDownlinks : List (Except ModemRc ModemDownlink) → List BackendEvent
  | [] => []
  | .error rc :: _ => [.error (uspError rc)]
  | .ok d :: rest => .downlink (toDownlink d) :: publishDownlinks rest

/-- `smtc_modem_event_t`, with what the handler then asks the modem for. -/
inductive ModemEvent where
  | reset
  | joined
  | joinFail
  /-- `none` stands for every status other than SENT and CONFIRMED -/
  | txDone (status : Option MessageType)
  | downData (first : Except ModemRc ModemDownlink) (rest : List (Except ModemRc ModemDownlink))
  | regionalDutyCycle (limited : Bool)
  | noDownlinkThreshold (adrBackoffEnd userThreshold : Bool)
  | linkCheck (answered : Bool) (data : Option (UInt8 × UInt8))
  | macTime (answered : Bool)
  /-- READY, NOT_READY or another status -/
  | classBStatus (ready : Option Bool)
  | alcsyncTime
  | newMulticastSession
  | noMoreMulticastSession
  | fuotaDone (successful : Bool)
  | firmwareManagement (rebootImmediately : Bool)
  | other

/-- `rzi_lorawan_usp_set_class_b_state`: whether the state changed. -/
def setClassBState (state : ClassBState) (s : State) : Bool × State :=
  if s.classBState = state then (false, s) else (true, { s with classBState := state })

/-- `rzi_lorawan_usp_publish_class_b`. -/
def publishClassB (state : ClassBState) (s : State) : List BackendEvent :=
  if s.eventSink then [.classB state] else []

/-- `handle_event` on RESET. -/
def handleReset (modem : Modem) (s : State) : State × List BackendEvent :=
  let s := { s with ready := false, txPending := false, fuotaImageReady := false }
  let configured := do
    configureService modem s
    if s.credentialsValid then configureCredentials modem s.joinSettings
  match configured with
  | .error e => (s, [.error (some e)])
  | .ok () => ({ s with ready := true }, [.ready])

def txDoneEvent : Option MessageType → BackendEvent
  | some .confirmed => .txDone .confirmed none
  | some .unconfirmed => .txDone .sent none
  | none => .txDone .notSent (some .io)

def noDownlinkReasons (adrBackoffEnd userThreshold : Bool) : UInt8 :=
  (if adrBackoffEnd then 1 else 0) ||| (if userThreshold then 2 else 0)

/-- The `switch` of `handle_event`. -/
def handleEventType (modem : Modem) (event : ModemEvent) (s : State) : State × List BackendEvent :=
  match event with
  | .reset => handleReset modem s
  | .joined => ({ s with fuotaImageReady := false }, [.joined])
  | .joinFail => (s, [.joinFailed (some .timeout)])
  | .txDone status => ({ s with txPending := false }, [txDoneEvent status])
  | .downData first rest => (s, publishDownlinks (first :: rest))
  | .regionalDutyCycle limited => (s, [.dutyCycle limited])
  | .noDownlinkThreshold adr user => (s, [.noDownlink (noDownlinkReasons adr user)])
  | .linkCheck true (some (margin, gateways)) => (s, [.linkCheck ⟨margin, gateways, 0, 0⟩])
  | .linkCheck _ _ => (s, [])
  | .macTime true => (s, [.deviceTime none, .fuota])
  | .macTime false => (s, [.deviceTime (some .timeout)])
  | .classBStatus none => (s, [])
  | .classBStatus (some ready) =>
    let next := if ready then .active else .idle
    let (changed, s) := setClassBState next s
    (s, if changed then publishClassB next s else [])
  | .alcsyncTime | .newMulticastSession | .noMoreMulticastSession => (s, [.fuota])
  | .fuotaDone successful => ({ s with fuotaImageReady := successful }, [.fuota])
  | .firmwareManagement reboot => (s, if reboot then [.fuota] else [])
  | .other => (s, [])

/-- `handle_event`; a `source` that is an error stands for the null event. -/
def handleEvent (modem : Modem) (source : Except Err (ModemEvent × Nat)) (s : State) :
    State × List BackendEvent :=
  match source with
  | .error e => (s, [.error (some e)])
  | .ok (event, missed) =>
    let (s, events) := handleEventType modem event s
    (s, (if 0 < missed then [.error (some .overflow)] else []) ++ events)

/-! ### The calls -/

/-- `usp_start`. -/
def uspStart (region : Region) (bypass : Bool) (s : State) : Outcome :=
  finish (.ok ()) { s with region := region, joinBackoffBypass := bypass, eventSink := true }

def uspJoin (modem : Modem) (config : JoinConfig) (s : State) : Outcome :=
  match config.activation with
  | .abp _ => finish (.error .notSupported) s
  | .otaa params =>
    enter s fun s =>
      let s := { s with joinSettings := ⟨params, config.channelMask⟩, credentialsValid := true }
      let rc := do
        configureCredentials modem s.joinSettings
        configureChannelMask modem s.region s.joinSettings
        modem.request .joinNetwork
      finish rc s

def uspLeave (modem : Modem) (s : State) : Outcome :=
  enter s fun s =>
    if s.txPending then finish (.error .busy) s
    else finish (modem.request .leaveNetwork) { s with fuotaImageReady := false }

/-- The part `usp_send` and `usp_send_empty` share: one request, owned until its TXDONE. -/
def requestUplink (modem : Modem) (r : Request) (s : State) : Outcome :=
  enter s fun s =>
    if s.txPending then finish (.error .busy) s
    else
      match modem.request r with
      | .ok () => finish (.ok ()) { s with txPending := true }
      | .error e => finish (.error e) s

def uspSend (modem : Modem) (port : UInt8) (data : List UInt8) (type : MessageType) (s : State) :
    Outcome := requestUplink modem (.requestUplink port (type == .confirmed) data) s

def uspSendEmpty (modem : Modem) (withPort : Bool) (port : UInt8) (type : MessageType) (s : State) :
    Outcome := requestUplink modem (.requestEmptyUplink withPort port (type == .confirmed)) s

def uspIsJoined (modem : Modem) (s : State) : Except Err Bool :=
  if !s.ready then .error .notReady
  else
    match uspResult modem.status.1 with
    | .error e => .error e
    | .ok () => .ok modem.status.2

def uspIsBusy (s : State) : Except Err Bool :=
  if !s.ready then .error .notReady else .ok s.txPending

/-- The Class B state that a class change starts in. -/
def DeviceClass.initialState : DeviceClass → ClassBState
  | .a => .idle
  | .b => .acquiringBeacon
  | .c => .idle

def uspSetClass (modem : Modem) (deviceClass : DeviceClass) (s : State) : Outcome :=
  enter s fun s =>
    let previous := s.classBState
    let next := deviceClass.initialState
    let (changed, s) := setClassBState next s
    match modem.request (.setClass deviceClass) with
    | .error e => finish (.error e) (if changed then (setClassBState previous s).2 else s)
    | .ok () => ⟨.ok (), s, if changed then publishClassB next s else []⟩

def uspStopClassB (modem : Modem) (s : State) : Outcome :=
  enter s fun s =>
    match modem.request (.setClass .a) with
    | .error e => finish (.error e) s
    | .ok () =>
      let (notify, s) := setClassBState .idle s
      ⟨.ok (), s, if notify then publishClassB .idle s else []⟩

/-! ### The multicast table -/

/-- `allocate_group`. -/
def allocateGroup (requested : Int) (used : Vector Bool 4) : Option (Fin 4) :=
  if 0 ≤ requested then
    (List.finRange 4).find? fun i => (i.val : Int) = requested && !used[i]
  else (List.finRange 4).find? fun i => !used[i]

/-- The requests that start a session in its group. -/
def startSession (modem : Modem) (group : Fin 4) (session : MulticastSession) : Except Err Unit := do
  modem.request (.multicastSetGrpConfig group session.devAddr session.networkSessionKey
    session.applicationSessionKey)
  if session.deviceClass = .c then
    modem.request (.multicastClassCStartSession group session.frequencyHz session.dataRate)
  else
    modem.request (.multicastClassBStartSession group session.frequencyHz session.dataRate
      (min session.periodicity 7))

def uspMulticastAdd (modem : Modem) (session : MulticastSession) (s : State) : Outcome :=
  enter s fun s =>
    match allocateGroup session.groupId s.multicastUsed with
    | none => finish (.error .noResource) s
    | some group =>
      match startSession modem group session with
      | .error e => finish (.error e) s
      | .ok () =>
        -- the keys are not kept
        let stored := { session with
          groupId := group
          applicationSessionKey := .replicate 16 0
          networkSessionKey := .replicate 16 0 }
        finish (.ok ()) { s with
          multicast := s.multicast.set group stored
          multicastUsed := s.multicastUsed.set group true }

def uspMulticastRemove (modem : Modem) (devAddr : UInt32) (s : State) : Outcome :=
  enter s fun s =>
    match (List.finRange 4).find? fun i => s.multicastUsed[i] && s.multicast[i].devAddr == devAddr with
    | none => finish (.error .notFound) s
    | some group =>
      let stop := if s.multicast[group].deviceClass = .c then
        Request.multicastClassCStopSession group else .multicastClassBStopSession group
      match modem.request stop with
      | .error e => finish (.error e) s
      | .ok () => finish (.ok ()) { s with multicastUsed := s.multicastUsed.set group false }

def uspMulticastCount (s : State) : Except Err Nat :=
  if !s.ready then .error .notReady else .ok (s.multicastUsed.toList.count true)

def uspMulticastClear (modem : Modem) (s : State) : Outcome :=
  enter s fun s =>
    let rc := do
      modem.request .multicastClassCStopAllSessions
      modem.request .multicastClassBStopAllSessions
    match rc with
    | .error e => finish (.error e) s
    | .ok () => finish (.ok ()) { s with multicastUsed := .replicate 4 false }

/-- The calls that change the backend's state. -/
inductive Call where
  | start (region : Region) (bypass : Bool)
  | join (config : JoinConfig)
  | leave
  | send (port : UInt8) (data : List UInt8) (type : MessageType)
  | sendEmpty (withPort : Bool) (port : UInt8) (type : MessageType)
  | setClass (deviceClass : DeviceClass)
  | stopClassB
  | multicastAdd (session : MulticastSession)
  | multicastRemove (devAddr : UInt32)
  | multicastClear

def Call.run (modem : Modem) (s : State) : Call → Outcome
  | .start region bypass => uspStart region bypass s
  | .join config => uspJoin modem config s
  | .leave => uspLeave modem s
  | .send port data type => uspSend modem port data type s
  | .sendEmpty withPort port type => uspSendEmpty modem withPort port type s
  | .setClass deviceClass => uspSetClass modem deviceClass s
  | .stopClassB => uspStopClassB modem s
  | .multicastAdd session => uspMulticastAdd modem session s
  | .multicastRemove devAddr => uspMulticastRemove modem devAddr s
  | .multicastClear => uspMulticastClear modem s

def Call.isUplink : Call → Bool
  | .send _ _ _ | .sendEmpty _ _ _ => true
  | _ => false

/-! ### What a call or an event can do -/

def isTxDone : BackendEvent → Bool
  | .txDone _ _ => true
  | _ => false

def classBOf : BackendEvent → Option ClassBState
  | .classB state => some state
  | _ => none

/-- Neither a completion nor a Class B state is among the events. -/
def Plain (events : List BackendEvent) : Prop :=
  ∀ e ∈ events, isTxDone e = false ∧ classBOf e = none

/-- The uplink, the Class B state and the readiness are left alone. -/
structure Same (s t : State) : Prop where
  ready : t.ready = s.ready
  txPending : t.txPending = s.txPending
  classBState : t.classBState = s.classBState
  eventSink : s.eventSink = true → t.eventSink = true

/-- What a call can do. -/
inductive CallEffect (c : Call) (s : State) : Outcome → Prop
  | same (rc : Except Err Unit) (t : State) (ht : Same s t) (hrc : c.isUplink = true → rc ≠ .ok ()) :
      CallEffect c s (finish rc t)
  | accepted (hc : c.isUplink = true) (hready : s.ready = true) (hpending : s.txPending = false) :
      CallEffect c s (finish (.ok ()) { s with txPending := true })
  | classB (state : ClassBState) (hc : c.isUplink = false) (hready : s.ready = true) :
      CallEffect c s ⟨.ok (), { s with classBState := state }, publishClassB state s⟩

/-- What an event can do, given what its type does. -/
inductive EventEffect (modem : Modem) (s : State) : ModemEvent → State × List BackendEvent → Prop
  | reset : EventEffect modem s .reset (handleReset modem s)
  | txDone (status : Option MessageType) :
      EventEffect modem s (.txDone status) ({ s with txPending := false }, [txDoneEvent status])
  | classB (event : ModemEvent) (state : ClassBState) (hreset : event ≠ .reset)
      (htx : ∀ status, event ≠ .txDone status) :
      EventEffect modem s event ({ s with classBState := state }, publishClassB state s)
  | same (event : ModemEvent) (t : State) (events : List BackendEvent) (ht : Same s t)
      (hevents : Plain events) (hreset : event ≠ .reset) (htx : ∀ status, event ≠ .txDone status) :
      EventEffect modem s event (t, events)

variable {s t : State} {modem : Modem}

theorem Same.refl (s : State) : Same s s := ⟨rfl, rfl, rfl, id⟩

theorem plain_nil : Plain [] := by
  intro e he
  cases he

theorem plain_singleton {e : BackendEvent} (htx : isTxDone e = false) (hb : classBOf e = none) :
    Plain [e] := by
  intro e' he'
  rw [List.mem_singleton.1 he']
  exact ⟨htx, hb⟩

theorem setClassBState_state (state : ClassBState) (s : State) :
    (setClassBState state s).2 = { s with classBState := state } := by
  unfold setClassBState
  split
  · rename_i h
    rw [← h]
  · rfl

theorem enter_effect {c : Call} {call : State → Outcome}
    (h : s.ready = true → CallEffect c s (call s)) : CallEffect c s (enter s call) := by
  unfold enter
  split
  · rename_i hready
    exact h hready
  · exact .same _ s (.refl s) (by simp)

theorem requestUplink_effect {c : Call} (hc : c.isUplink = true) (r : Request) :
    CallEffect c s (requestUplink modem r s) := by
  refine enter_effect fun hready => ?_
  split
  · exact .same _ s (.refl s) (by simp)
  · rename_i hpending
    split
    · exact .accepted hc hready (Bool.eq_false_of_not_eq_true hpending)
    · exact .same _ s (.refl s) (by simp)

/-- The state that a class change leaves, published if it is another one. -/
theorem classB_effect {c : Call} (hc : c.isUplink = false) (hready : s.ready = true)
    (state : ClassBState) : CallEffect c s ⟨.ok (), (setClassBState state s).2,
      if (setClassBState state s).1 then publishClassB state (setClassBState state s).2 else []⟩ := by
  unfold setClassBState
  split
  · exact .same _ s (.refl s) (by simp [hc])
  · exact .classB state hc hready

theorem uspSetClass_effect (deviceClass : DeviceClass) :
    CallEffect (.setClass deviceClass) s (uspSetClass modem deviceClass s) := by
  refine enter_effect fun hready => ?_
  simp only
  split
  · -- the state is put back
    refine .same _ _ ?_ (by simp [Call.isUplink])
    split
    · rw [setClassBState_state, setClassBState_state]
      exact .refl s
    · rename_i h
      unfold setClassBState at h ⊢
      split at h
      · rename_i heq
        rw [if_pos heq]
        exact .refl s
      · exact absurd rfl h
  · exact classB_effect rfl hready _

theorem Call.run_effect (modem : Modem) (s : State) (c : Call) : CallEffect c s (c.run modem s) := by
  cases c with
  | start region bypass => exact .same _ _ ⟨rfl, rfl, rfl, fun _ => rfl⟩ (by simp [Call.isUplink])
  | join config =>
    simp only [Call.run, uspJoin]
    split
    · exact .same _ s (.refl s) (by simp)
    · refine enter_effect fun _ => ?_
      exact .same _ _ ⟨rfl, rfl, rfl, id⟩ (by simp [Call.isUplink])
  | leave =>
    simp only [Call.run, uspLeave]
    refine enter_effect fun _ => ?_
    split
    · exact .same _ s (.refl s) (by simp)
    · exact .same _ _ ⟨rfl, rfl, rfl, id⟩ (by simp [Call.isUplink])
  | send port data type => exact requestUplink_effect rfl _
  | sendEmpty withPort port type => exact requestUplink_effect rfl _
  | setClass deviceClass => exact uspSetClass_effect deviceClass
  | stopClassB =>
    simp only [Call.run, uspStopClassB]
    refine enter_effect fun hready => ?_
    split
    · exact .same _ s (.refl s) (by simp)
    · exact classB_effect rfl hready .idle
  | multicastAdd session =>
    simp only [Call.run, uspMulticastAdd]
    refine enter_effect fun _ => ?_
    split
    · exact .same _ s (.refl s) (by simp)
    · split
      · exact .same _ s (.refl s) (by simp)
      · exact .same _ _ ⟨rfl, rfl, rfl, id⟩ (by simp [Call.isUplink])
  | multicastRemove devAddr =>
    simp only [Call.run, uspMulticastRemove]
    refine enter_effect fun _ => ?_
    split
    · exact .same _ s (.refl s) (by simp)
    · split
      · exact .same _ s (.refl s) (by simp)
      · exact .same _ _ ⟨rfl, rfl, rfl, id⟩ (by simp [Call.isUplink])
  | multicastClear =>
    simp only [Call.run, uspMulticastClear]
    refine enter_effect fun _ => ?_
    split
    · exact .same _ s (.refl s) (by simp)
    · exact .same _ _ ⟨rfl, rfl, rfl, id⟩ (by simp [Call.isUplink])

theorem publishDownlinks_plain (answers : List (Except ModemRc ModemDownlink)) :
    Plain (publishDownlinks answers) := by
  induction answers with
  | nil => exact plain_nil
  | cons answer rest ih =>
    cases answer with
    | error rc => exact plain_singleton rfl rfl
    | ok d =>
      intro e he
      rcases List.mem_cons.1 he with rfl | he
      · exact ⟨rfl, rfl⟩
      · exact ih e he

theorem handleEventType_effect (modem : Modem) (event : ModemEvent) (s : State) :
    EventEffect modem s event (handleEventType modem event s) := by
  have hquiet {event : ModemEvent} {e : BackendEvent} (htx : isTxDone e = false)
      (hb : classBOf e = none) (hreset : event ≠ .reset) (hdone : ∀ status, event ≠ .txDone status) :
      EventEffect modem s event (s, [e]) :=
    .same event s [e] (.refl s) (plain_singleton htx hb) hreset hdone
  have hnone {event : ModemEvent} (hreset : event ≠ .reset)
      (hdone : ∀ status, event ≠ .txDone status) : EventEffect modem s event (s, []) :=
    .same event s [] (.refl s) plain_nil hreset hdone
  cases event with
  | reset => exact .reset
  | txDone status => exact .txDone status
  | joined => exact .same _ _ _ ⟨rfl, rfl, rfl, id⟩ (plain_singleton rfl rfl) (by simp) (by simp)
  | joinFail => exact hquiet rfl rfl (by simp) (by simp)
  | downData first rest =>
    exact .same _ s _ (.refl s) (publishDownlinks_plain _) (by simp) (by simp)
  | regionalDutyCycle limited => exact hquiet rfl rfl (by simp) (by simp)
  | noDownlinkThreshold adr user => exact hquiet rfl rfl (by simp) (by simp)
  | linkCheck answered data =>
    cases answered with
    | false => exact hnone (by simp) (by simp)
    | true =>
      cases data with
      | none => exact hnone (by simp) (by simp)
      | some data => exact hquiet rfl rfl (by simp) (by simp)
  | macTime answered =>
    cases answered with
    | false => exact hquiet rfl rfl (by simp) (by simp)
    | true =>
      refine .same _ s _ (.refl s) ?_ (by simp) (by simp)
      intro e he
      simp only [List.mem_cons, List.not_mem_nil, or_false] at he
      rcases he with rfl | rfl
      · exact ⟨rfl, rfl⟩
      · exact ⟨rfl, rfl⟩
  | classBStatus ready =>
    cases ready with
    | none => exact hnone (by simp) (by simp)
    | some ready =>
      by_cases h : s.classBState = if ready then .active else .idle
      · have hsame : handleEventType modem (.classBStatus (some ready)) s = (s, []) := by
          simp [handleEventType, setClassBState, h]
        rw [hsame]
        exact hnone (by simp) (by simp)
      · have hchanged : handleEventType modem (.classBStatus (some ready)) s =
            ({ s with classBState := if ready then .active else .idle },
              publishClassB (if ready then .active else .idle) s) := by
          simp [handleEventType, setClassBState, h, publishClassB]
        rw [hchanged]
        exact .classB _ _ (by simp) (by simp)
  | alcsyncTime => exact hquiet rfl rfl (by simp) (by simp)
  | newMulticastSession => exact hquiet rfl rfl (by simp) (by simp)
  | noMoreMulticastSession => exact hquiet rfl rfl (by simp) (by simp)
  | fuotaDone successful =>
    exact .same _ _ _ ⟨rfl, rfl, rfl, id⟩ (plain_singleton rfl rfl) (by simp) (by simp)
  | firmwareManagement reboot =>
    simp only [handleEventType]
    split
    · exact hquiet rfl rfl (by simp) (by simp)
    · exact hnone (by simp) (by simp)
  | other => exact hnone (by simp) (by simp)

/-- A handled RESET ends the uplink; whether the backend is ready again is up to the modem. -/
theorem handleReset_cases (modem : Modem) (s : State) :
    (∃ e, handleReset modem s = ({ s with
        ready := false, txPending := false, fuotaImageReady := false }, [.error (some e)])) ∨
      handleReset modem s = ({ s with
        ready := true, txPending := false, fuotaImageReady := false }, [.ready]) := by
  unfold handleReset
  simp only
  split
  · exact .inl ⟨_, rfl⟩
  · exact .inr rfl

/-- A modem that accepts everything, in a build with every region and with no session. -/
def agreeable : Modem where
  answer _ := .ok
  listRegion := (.ok, [.eu868, .us915, .au915, .cn470, .as923Grp1, .as923Grp2, .as923Grp3,
    .as923Grp4, .in865, .kr920, .ru864])
  status := (.ok, false)

end Rzi.Usp
