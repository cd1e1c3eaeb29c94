import Rzi.Err
import Rzi.Lib.Run
import Rzi.Lib.WorkItem

/-!
# The Zephyr backend (`backend/zephyr/lorawan_backend_zephyr.c`)

The adapter's static state and its work-queue thread. API threads and the dispatcher call
`zephyrJoin`, `zephyrLeave`, `zephyrSend` and the nonce setter, each one locked section (a send
submits its work item after it); the worker runs the join and the send handler, whose steps are
their locked sections, the blocking MAC call and the publish call. `step rejects` interleaves them
in any order. A return code is `none` for 0 and otherwise the POSIX value it stands for.
-/

namespace Rzi.Zephyr
open WorkQueue

inductive Region where
  | eu868 | us915 | au915 | cn470 | as923Grp1 | as923Grp2 | as923Grp3 | as923Grp4 | in865 | kr920
  | ru864
deriving DecidableEq, Repr

/-- `rzi_lorawan_region_has_fixed_plan`. -/
def Region.hasFixedPlan (r : Region) : Bool := r == .us915 || r == .au915

structure JoinOtaa where
  devEui : Vector UInt8 8
  joinEui : Vector UInt8 8
  networkKey : Vector UInt8 16
  applicationKey : Vector UInt8 16
  devNonce : UInt16
deriving DecidableEq

structure JoinAbp where
  devAddr : UInt32
  networkSessionKey : Vector UInt8 16
  applicationSessionKey : Vector UInt8 16
deriving DecidableEq

/-- The activation tag of a join configuration with its union member. -/
inductive Activation where
  | otaa (params : JoinOtaa)
  | abp (params : JoinAbp)
deriving DecidableEq

/-- `struct rzi_lorawan_join_config`; the mask is present when `channel_mask_set` is. -/
structure JoinConfig where
  activation : Activation
  retryIntervalS : UInt8
  channelMask : Option (Vector UInt16 6)
deriving DecidableEq

/-- Zephyr's `struct lorawan_join_config` as `fill_zephyr_join` fills it. -/
inductive MacJoin where
  | otaa (devEui joinEui : Vector UInt8 8) (nwkKey appKey : Vector UInt8 16) (devNonce : UInt16)
  | abp (devAddr : UInt32) (nwkSkey appSkey : Vector UInt8 16)
deriving DecidableEq

inductive MessageType where
  | unconfirmed | confirmed
deriving DecidableEq, Repr

inductive TxStatus where
  | sent | confirmed | notSent
deriving DecidableEq, Repr

inductive Event where
  | ready
  | joined
  | joinFailed (error : Err)
  | txDone (status : TxStatus) (error : Option Err)
deriving DecidableEq, Repr

def Event.isJoinResult : Event → Bool
  | .joined | .joinFailed _ => true
  | _ => false

/-- `rzi_lorawan_zephyr_err` on a nonzero code. -/
def zephyrErr : Errno → Err
  | .netdown => .notJoined
  | rc => errFromErrno rc

/-- An uplink as `zephyr_send` stores it. -/
structure Tx where
  port : UInt8
  data : List UInt8
  type : MessageType
deriving DecidableEq

/-- Where the work-queue thread is. -/
inductive Worker where
  /-- no handler runs -/
  | idle
  /-- `join_work_handler` before its first locked section -/
  | joinEntry
  /-- inside `lorawan_join` -/
  | joining (config : MacJoin)
  /-- `lorawan_join` returned, before the second locked section -/
  | joinEnded (rc : Option Errno)
  /-- past the second locked section, before `publish` -/
  | joinPublish (rc : Option Errno)
  /-- about to return from `join_work_handler` -/
  | joinReturn
  /-- `send_work_handler` before its first locked section -/
  | sendEntry
  /-- inside `lorawan_send` -/
  | sending (tx : Tx)
  /-- `lorawan_send` returned, before the second locked section -/
  | sendEnded (type : MessageType) (rc : Option Errno)
  /-- past the second locked section, before `publish` -/
  | sendPublish (type : MessageType) (rc : Option Errno)
  /-- about to return from `send_work_handler` -/
  | sendReturn
deriving DecidableEq

/-- The adapter's static variables, its work items and thread, and what it published. -/
structure State where
  started : Bool
  joined : Bool
  joinPending : Bool
  joinStop : Bool
  txPending : Bool
  nextDevNonce : UInt16
  currentRegion : Region
  joinSettings : JoinConfig
  tx : Tx
  joinWork : Item
  sendWork : Item
  worker : Worker
  /-- `zephyr_start` has released the lock and not yet published -/
  readyDue : Bool
  /-- threads in `zephyr_send` between the locked section and the submission -/
  submitters : Nat
  /-- the events handed to the sink, oldest first -/
  published : List Event
deriving DecidableEq

def init : State where
  started := false
  joined := false
  joinPending := false
  joinStop := false
  txPending := false
  nextDevNonce := 1
  currentRegion := .eu868
  joinSettings := ⟨.otaa ⟨.replicate 8 0, .replicate 8 0, .replicate 16 0, .replicate 16 0, 0⟩, 0, none⟩
  tx := ⟨0, [], .unconfirmed⟩
  joinWork := .idle
  sendWork := .idle
  worker := .idle
  readyDue := false
  submitters := 0
  published := []

/-- `publish`: hand the event to the sink. -/
def State.publish (s : State) (event : Event) : State :=
  { s with published := s.published ++ [event] }

/-- `zephyr_start` up to its `publish`, with the answers of the device and of the MAC. -/
def zephyrStart (region : Region) (deviceReady : Bool) (regionRc startRc : Option Errno)
    (s : State) : Except Err Unit × State :=
  if !deviceReady then (.error .noDevice, s)
  else
    let s := { s with currentRegion := region }
    match regionRc, startRc with
    | some rc, _ => (.error (zephyrErr rc), s)
    | none, some rc => (.error (zephyrErr rc), s)
    | none, none =>
      (.ok (), { s with
        joinWork := .idle, sendWork := .idle, started := true, joined := false, readyDue := true })

/-- Every channel of a fixed plan, 72 bits from bit 0 of word 0. -/
def fixedPlanMask : List UInt16 :=
  (List.range 72).foldl (fun mask channel =>
    mask.modify (channel / 16) (· ||| 1 <<< UInt16.ofNat (channel % 16))) (List.replicate 6 0)

def joinMask (config : JoinConfig) (region : Region) : Option (List UInt16) :=
  match config.channelMask with
  | some mask => some mask.toList
  | none => if region.hasFixedPlan then some fixedPlanMask else none

/-- `apply_channel_mask`, with the MAC's answer `mib` to a mask. -/
def applyChannelMask (mib : List UInt16 → Option Errno) (config : JoinConfig) (region : Region) :
    Except Err Unit :=
  match (joinMask config region).bind mib with
  | none => .ok ()
  | some rc => .error (zephyrErr rc)

def zephyrJoin (rejects : Bool) (mib : List UInt16 → Option Errno) (config : JoinConfig)
    (s : State) : Except Err Unit × State :=
  if !s.started then (.error .notReady, s)
  else if s.joinPending || s.txPending then (.error .busy, s)
  else
    match applyChannelMask mib config s.currentRegion with
    | .error e => (.error e, s)
    | .ok () =>
      (.ok (), { s with
        joinSettings := config
        joinPending := true
        joinStop := false
        joinWork := s.joinWork.schedule rejects true })

def zephyrLeave (s : State) : Except Err Unit × State :=
  if s.joinPending then
    (.ok (), { s with
      joinStop := true
      joinWork := s.joinWork.cancel
      joinPending := s.joinWork.cancelBusy })
  else (.error .notSupported, s)

/-- `zephyr_send` up to the submission of `send_work`; the size is stored in one byte. -/
def zephyrSend (port : UInt8) (data : List UInt8) (type : MessageType) (s : State) :
    Except Err Unit × State :=
  if !s.started then (.error .notReady, s)
  else if !s.joined then (.error .notJoined, s)
  else if s.joinPending || s.txPending then (.error .busy, s)
  else
    (.ok (), { s with
      tx := ⟨port, data.take (data.length % 256), type⟩
      txPending := true
      submitters := s.submitters + 1 })

def zephyrSetDevNonce (nonce : UInt16) (s : State) : Except Err Unit × State :=
  if !s.started then (.error .notReady, s)
  else (.ok (), { s with nextDevNonce := if nonce = 0 then 1 else nonce })

def zephyrIsJoined (s : State) : Except Err Bool :=
  if !s.started then .error .notReady else .ok s.joined

/-- `fill_zephyr_join`: the MAC's join parameters and the next DevNonce. -/
def fillZephyrJoin (config : JoinConfig) (nextDevNonce : UInt16) : MacJoin × UInt16 :=
  match config.activation with
  | .otaa p =>
    if p.devNonce ≠ 0 then
      (.otaa p.devEui p.joinEui p.networkKey p.applicationKey p.devNonce, nextDevNonce)
    else (.otaa p.devEui p.joinEui p.networkKey p.applicationKey nextDevNonce, nextDevNonce + 1)
  | .abp p => (.abp p.devAddr p.networkSessionKey p.applicationSessionKey, nextDevNonce)

/-- The first locked section of `join_work_handler`. -/
def joinHandlerEntry (s : State) : State :=
  if s.joinStop then { s with joinPending := false, worker := .joinReturn }
  else
    { s with
      nextDevNonce := (fillZephyrJoin s.joinSettings s.nextDevNonce).2
      worker := .joining (fillZephyrJoin s.joinSettings s.nextDevNonce).1 }

def joinEvent : Option Errno → Event
  | none => .joined
  | some rc => .joinFailed (zephyrErr rc)

/-- The second locked section of `join_work_handler`: another attempt is scheduled unless this one
succeeded or the join was stopped. -/
def joinHandlerEnded (rejects : Bool) (rc : Option Errno) (s : State) : State :=
  let s' :=
    if rc.isNone || s.joinStop then { s with joined := rc.isNone, joinPending := false }
    else
      { s with
        joined := rc.isNone
        joinWork := s.joinWork.schedule rejects (s.joinSettings.retryIntervalS == 0) }
  if s.joinStop && rc.isSome then { s' with worker := .joinReturn }
  else { s' with worker := .joinPublish rc }

def sendEvent (type : MessageType) : Option Errno → Event
  | some rc => .txDone .notSent (some (zephyrErr rc))
  | none => .txDone (if type = .confirmed then .confirmed else .sent) none

inductive Act where
  | start (region : Region) (deviceReady : Bool) (regionRc startRc : Option Errno)
  | publishReady
  | join (config : JoinConfig) (mib : List UInt16 → Option Errno)
  | leave
  | send (port : UInt8) (data : List UInt8) (type : MessageType)
  | submit
  | setDevNonce (nonce : UInt16)
  | expire
  | takeJoin
  | takeSend
  | enter
  | joinReturns (rc : Option Errno)
  | sendReturns (rc : Option Errno)
  | relock
  | publish
  | handlerReturn

def step (rejects : Bool) (s : State) : Act → Option State
  -- the caller of `start` holds the service's own started flag, so it is not called twice
  | .start region ready regionRc startRc =>
    if s.started then none else some (zephyrStart region ready regionRc startRc s).2
  | .publishReady => if s.readyDue then some { s.publish .ready with readyDue := false } else none
  | .join config mib => some (zephyrJoin rejects mib config s).2
  | .leave => some (zephyrLeave s).2
  | .send port data type => some (zephyrSend port data type s).2
  | .submit =>
    if s.submitters = 0 then none
    else some { s with submitters := s.submitters - 1, sendWork := s.sendWork.submit rejects }
  | .setDevNonce nonce => some (zephyrSetDevNonce nonce s).2
  | .expire => s.joinWork.expire.map fun w => { s with joinWork := w }
  | .takeJoin =>
    if s.worker = .idle then s.joinWork.start.map fun w => { s with joinWork := w, worker := .joinEntry }
    else none
  | .takeSend =>
    if s.worker = .idle then s.sendWork.start.map fun w => { s with sendWork := w, worker := .sendEntry }
    else none
  | .enter =>
    match s.worker with
    | .joinEntry => some (joinHandlerEntry s)
    | .sendEntry => some { s with worker := .sending s.tx }
    | _ => none
  | .joinReturns rc =>
    match s.worker with
    | .joining _ => some { s with worker := .joinEnded rc }
    | _ => none
  | .sendReturns rc =>
    match s.worker with
    | .sending tx => some { s with worker := .sendEnded tx.type rc }
    | _ => none
  | .relock =>
    match s.worker with
    | .joinEnded rc => some (joinHandlerEnded rejects rc s)
    | .sendEnded type rc => some { s with txPending := false, worker := .sendPublish type rc }
    | _ => none
  | .publish =>
    match s.worker with
    | .joinPublish rc => some { s.publish (joinEvent rc) with worker := .joinReturn }
    | .sendPublish type rc => some { s.publish (sendEvent type rc) with worker := .sendReturn }
    | _ => none
  | .handlerReturn =>
    match s.worker with
    | .joinReturn => some { s with joinWork := s.joinWork.finish, worker := .idle }
    | .sendReturn => some { s with sendWork := s.sendWork.finish, worker := .idle }
    | _ => none

def otaaConfig : JoinConfig :=
  ⟨.otaa ⟨.replicate 8 1, .replicate 8 2, .replicate 16 3, .replicate 16 3, 0⟩, 8, none⟩

/-- The states the system reaches from the image's initial values. -/
def Reachable (rejects : Bool) (s : State) : Prop := ∃ as, Lts.run (step rejects) init as = some s

/-! ### What a step does to a join -/

/-- The thread is in `join_work_handler`. -/
def Worker.inJoin : Worker → Bool
  | .joinEntry | .joining _ | .joinEnded _ | .joinPublish _ | .joinReturn => true
  | _ => false

/-- The thread is in `join_work_handler` and has not executed its second locked section. -/
def Worker.joinOpen : Worker → Bool
  | .joinEntry | .joining _ | .joinEnded _ => true
  | _ => false

/-- The join result the thread is about to publish. -/
def Worker.joinResult : Worker → List Event
  | .joinPublish rc => [joinEvent rc]
  | _ => []

def joinResults (events : List Event) : List Event := events.filter Event.isJoinResult

/-- The step is a call of `zephyr_join` that passes its checks. -/
def AcceptedJoin (s : State) : Act → Prop
  | .join config mib => s.started = true ∧ s.joinPending = false ∧ s.txPending = false ∧
      applyChannelMask mib config s.currentRegion = .ok ()
  | _ => False

/-- The step leaves the join variables, the join work item and the join handler alone. -/
structure Frame (s t : State) : Prop where
  started : t.started = s.started
  pending : t.joinPending = s.joinPending
  stop : t.joinStop = s.joinStop
  joined : t.joined = s.joined
  work : t.joinWork = s.joinWork
  results : joinResults t.published = joinResults s.published
  worker : t.worker = s.worker ∨ s.worker.inJoin = false ∧ t.worker.inJoin = false

/-- What a step can do to a join. -/
inductive JoinStep (rejects : Bool) (s : State) : Act → State → Prop
  | other (a t) (hf : Frame s t) (hj : ¬ AcceptedJoin s a)
      (hl : a = .leave → s.joinPending = false) : JoinStep rejects s a t
  | started (a region) (hs : s.started = false) (hj : ¬ AcceptedJoin s a) (hl : a ≠ .leave) :
      JoinStep rejects s a { s with
        currentRegion := region, joinWork := .idle, sendWork := .idle, started := true
        joined := false, readyDue := true }
  | accepted (config mib) (hs : s.started = true) (hp : s.joinPending = false)
      (hj : AcceptedJoin s (.join config mib)) :
      JoinStep rejects s (.join config mib) { s with
        joinSettings := config, joinPending := true, joinStop := false
        joinWork := s.joinWork.schedule rejects true }
  | left (hp : s.joinPending = true) : JoinStep rejects s .leave { s with
      joinStop := true, joinWork := s.joinWork.cancel, joinPending := s.joinWork.cancelBusy }
  | expired (w) (hw : s.joinWork.expire = some w) :
      JoinStep rejects s .expire { s with joinWork := w }
  | taken (w) (hi : s.worker = .idle) (hw : s.joinWork.start = some w) :
      JoinStep rejects s .takeJoin { s with joinWork := w, worker := .joinEntry }
  | dropped (hw : s.worker = .joinEntry) (hst : s.joinStop = true) :
      JoinStep rejects s .enter { s with joinPending := false, worker := .joinReturn }
  | called (config nonce) (hw : s.worker = .joinEntry) (hst : s.joinStop = false) :
      JoinStep rejects s .enter { s with nextDevNonce := nonce, worker := .joining config }
  | returned (config rc) (hw : s.worker = .joining config) :
      JoinStep rejects s (.joinReturns rc) { s with worker := .joinEnded rc }
  | ended (rc) (hw : s.worker = .joinEnded rc) :
      JoinStep rejects s .relock (joinHandlerEnded rejects rc s)
  | published (rc) (hw : s.worker = .joinPublish rc) :
      JoinStep rejects s .publish { s.publish (joinEvent rc) with worker := .joinReturn }
  | finished (hw : s.worker = .joinReturn) :
      JoinStep rejects s .handlerReturn { s with joinWork := s.joinWork.finish, worker := .idle }

variable {rejects : Bool} {s t : State} {a : Act}

theorem Frame.rest {region : Region} {txPending ready : Bool} {tx : Tx} {sendWork : Item} {n : Nat}
    {nonce : UInt16} : Frame s { s with
      currentRegion := region, txPending := txPending, tx := tx, sendWork := sendWork
      submitters := n, nextDevNonce := nonce, readyDue := ready } :=
  ⟨rfl, rfl, rfl, rfl, rfl, rfl, .inl rfl⟩

theorem Frame.send {w : Worker} {txPending : Bool} {sendWork : Item} (hs : s.worker.inJoin = false)
    (hw : w.inJoin = false) :
    Frame s { s with txPending := txPending, sendWork := sendWork, worker := w } :=
  ⟨rfl, rfl, rfl, rfl, rfl, rfl, .inr ⟨hs, hw⟩⟩

theorem joinHandlerEnded_success : joinHandlerEnded rejects none s =
    { s with joined := true, joinPending := false, worker := .joinPublish none } := by
  simp [joinHandlerEnded]

theorem joinHandlerEnded_stopped {e : Errno} (h : s.joinStop = true) :
    joinHandlerEnded rejects (some e) s =
      { s with joined := false, joinPending := false, worker := .joinReturn } := by
  simp [joinHandlerEnded, h]

theorem joinHandlerEnded_retry {e : Errno} (h : s.joinStop = false) :
    joinHandlerEnded rejects (some e) s = { s with
      joined := false
      joinWork := s.joinWork.schedule rejects (s.joinSettings.retryIntervalS == 0)
      worker := .joinPublish (some e) } := by
  simp [joinHandlerEnded, h]

theorem joinHandlerEnded_started (rc : Option Errno) :
    (joinHandlerEnded rejects rc s).started = s.started := by
  simp only [joinHandlerEnded]
  split_ifs <;> rfl

theorem joinHandlerEnded_worker (rc : Option Errno) :
    (joinHandlerEnded rejects rc s).worker = .joinPublish rc ∨
      (joinHandlerEnded rejects rc s).worker = .joinReturn := by
  simp only [joinHandlerEnded]
  by_cases hst : (s.joinStop && rc.isSome) = true
  · exact .inr (by rw [if_pos hst])
  · exact .inl (by rw [if_neg hst])

theorem joinHandlerEnded_pending {rc : Option Errno}
    (h : (joinHandlerEnded rejects rc s).joinPending = true) : s.joinPending = true := by
  rcases rc with _ | e
  · rw [joinHandlerEnded_success] at h
    cases h
  cases hst : s.joinStop
  · rw [joinHandlerEnded_retry hst] at h
    exact h
  · rw [joinHandlerEnded_stopped hst] at h
    cases h

theorem Worker.inJoin_of_joinOpen {w : Worker} (h : w.joinOpen = true) : w.inJoin = true := by
  cases w <;> first | rfl | cases h

theorem Worker.joinOpen_eq_false {w : Worker} (h : w.inJoin = false) : w.joinOpen = false := by
  cases w <;> first | rfl | cases h

/-- What is the same for every place outside `join_work_handler` is not changed by a frame step. -/
theorem Frame.worker_eq {β : Type*} {s t : State} (h : Frame s t) {f : Worker → β} {b : β}
    (hf : ∀ w, w.inJoin = false → f w = b) : f t.worker = f s.worker := by
  rcases h.worker with hw | ⟨hs, ht⟩
  · rw [hw]
  · rw [hf _ hs, hf _ ht]

theorem joinResults_append_of_not {events : List Event} {event : Event}
    (h : event.isJoinResult = false) : joinResults (events ++ [event]) = joinResults events := by
  simp [joinResults, List.filter_append, h]

theorem isJoinResult_joinEvent (rc : Option Errno) : (joinEvent rc).isJoinResult = true := by
  cases rc <;> rfl

theorem isJoinResult_sendEvent (type : MessageType) (rc : Option Errno) :
    (sendEvent type rc).isJoinResult = false := by
  cases rc <;> rfl

theorem zephyrJoin_rejected {config : JoinConfig} {mib : List UInt16 → Option Errno}
    (h : ¬ AcceptedJoin s (.join config mib)) : ∃ e, zephyrJoin rejects mib config s = (.error e, s) := by
  unfold zephyrJoin
  split_ifs with hs hb
  · exact ⟨_, rfl⟩
  · exact ⟨_, rfl⟩
  · rcases hm : applyChannelMask mib config s.currentRegion with e | u
    · exact ⟨e, rfl⟩
    · simp only [Bool.or_eq_true, not_or, Bool.not_eq_true, Bool.not_eq_true'] at hs hb
      exact absurd ⟨by simpa using hs, hb.1, hb.2, hm⟩ h

theorem zephyrJoin_accepted {config : JoinConfig} {mib : List UInt16 → Option Errno}
    (h : AcceptedJoin s (.join config mib)) : zephyrJoin rejects mib config s = (.ok (), { s with
      joinSettings := config, joinPending := true, joinStop := false
      joinWork := s.joinWork.schedule rejects true }) := by
  obtain ⟨hs, hp, ht, hm⟩ := h
  simp [zephyrJoin, hs, hp, ht, hm]

theorem zephyrSend_cases (port : UInt8) (data : List UInt8) (type : MessageType) (s : State) :
    (∃ e, zephyrSend port data type s = (.error e, s)) ∨
      s.started = true ∧ s.joinPending = false ∧ s.txPending = false ∧
        zephyrSend port data type s = (.ok (), { s with
          tx := ⟨port, data.take (data.length % 256), type⟩
          txPending := true
          submitters := s.submitters + 1 }) := by
  unfold zephyrSend
  split_ifs with hs hj hb
  · exact .inl ⟨_, rfl⟩
  · exact .inl ⟨_, rfl⟩
  · exact .inl ⟨_, rfl⟩
  · simp only [Bool.or_eq_true, not_or, Bool.not_eq_true, Bool.not_eq_true'] at hs hb
    exact .inr ⟨by simpa using hs, hb.1, hb.2, rfl⟩

/-- Every step, with what it finds and what it leaves. -/
inductive Transition (rejects : Bool) (s : State) : Act → State → Prop
  | startFailed (region current ready regionRc startRc) (hs : s.started = false) :
      Transition rejects s (.start region ready regionRc startRc) { s with currentRegion := current }
  | started (region) (hs : s.started = false) :
      Transition rejects s (.start region true none none) { s with
        currentRegion := region, joinWork := .idle, sendWork := .idle, started := true
        joined := false, readyDue := true }
  | readyPublished (hdue : s.readyDue = true) :
      Transition rejects s .publishReady { s.publish .ready with readyDue := false }
  | joinRejected (config mib) (hj : ¬ AcceptedJoin s (.join config mib)) :
      Transition rejects s (.join config mib) s
  | joinAccepted (config mib) (hj : AcceptedJoin s (.join config mib)) :
      Transition rejects s (.join config mib) { s with
        joinSettings := config, joinPending := true, joinStop := false
        joinWork := s.joinWork.schedule rejects true }
  | leaveRejected (hp : s.joinPending = false) : Transition rejects s .leave s
  | left (hp : s.joinPending = true) : Transition rejects s .leave { s with
      joinStop := true, joinWork := s.joinWork.cancel, joinPending := s.joinWork.cancelBusy }
  | sendRejected (port data type e) (hsend : zephyrSend port data type s = (.error e, s)) :
      Transition rejects s (.send port data type) s
  | sendAccepted (port data type) (hs : s.started = true) (hj : s.joinPending = false)
      (hp : s.txPending = false) (hsend : (zephyrSend port data type s).1 = .ok ()) :
      Transition rejects s (.send port data type) { s with
        tx := ⟨port, data.take (data.length % 256), type⟩
        txPending := true
        submitters := s.submitters + 1 }
  | submitted (hn : s.submitters ≠ 0) : Transition rejects s .submit { s with
      submitters := s.submitters - 1, sendWork := s.sendWork.submit rejects }
  | devNonceSet (nonce next) : Transition rejects s (.setDevNonce nonce) { s with nextDevNonce := next }
  | expired (w) (hw : s.joinWork.expire = some w) :
      Transition rejects s .expire { s with joinWork := w }
  | joinTaken (w) (hi : s.worker = .idle) (hw : s.joinWork.start = some w) :
      Transition rejects s .takeJoin { s with joinWork := w, worker := .joinEntry }
  | sendTaken (w) (hi : s.worker = .idle) (hw : s.sendWork.start = some w) :
      Transition rejects s .takeSend { s with sendWork := w, worker := .sendEntry }
  | joinDropped (hw : s.worker = .joinEntry) (hst : s.joinStop = true) :
      Transition rejects s .enter { s with joinPending := false, worker := .joinReturn }
  | joinCalled (config nonce) (hw : s.worker = .joinEntry) (hst : s.joinStop = false) :
      Transition rejects s .enter { s with nextDevNonce := nonce, worker := .joining config }
  | sendCalled (hw : s.worker = .sendEntry) :
      Transition rejects s .enter { s with worker := .sending s.tx }
  | joinReturned (config rc) (hw : s.worker = .joining config) :
      Transition rejects s (.joinReturns rc) { s with worker := .joinEnded rc }
  | sendReturned (tx rc) (hw : s.worker = .sending tx) :
      Transition rejects s (.sendReturns rc) { s with worker := .sendEnded tx.type rc }
  | joinEnded (rc) (hw : s.worker = .joinEnded rc) :
      Transition rejects s .relock (joinHandlerEnded rejects rc s)
  | sendEnded (type rc) (hw : s.worker = .sendEnded type rc) :
      Transition rejects s .relock { s with txPending := false, worker := .sendPublish type rc }
  | joinPublished (rc) (hw : s.worker = .joinPublish rc) :
      Transition rejects s .publish { s.publish (joinEvent rc) with worker := .joinReturn }
  | sendPublished (type rc) (hw : s.worker = .sendPublish type rc) :
      Transition rejects s .publish { s.publish (sendEvent type rc) with worker := .sendReturn }
  | joinFinished (hw : s.worker = .joinReturn) :
      Transition rejects s .handlerReturn { s with joinWork := s.joinWork.finish, worker := .idle }
  | sendFinished (hw : s.worker = .sendReturn) :
      Transition rejects s .handlerReturn { s with sendWork := s.sendWork.finish, worker := .idle }

theorem start_transition {region : Region} {ready : Bool} {regionRc startRc : Option Errno}
    (hs : s.started = false) :
    Transition rejects s (.start region ready regionRc startRc)
      (zephyrStart region ready regionRc startRc s).2 := by
  simp only [zephyrStart]
  cases ready with
  | false => exact .startFailed _ s.currentRegion _ _ _ hs
  | true =>
    cases regionRc with
    | some rc => exact .startFailed _ region _ _ _ hs
    | none =>
      cases startRc with
      | some rc => exact .startFailed _ region _ _ _ hs
      | none => exact .started region hs

theorem step_transition (h : step rejects s a = some t) : Transition rejects s a t := by
  cases a with
  | start region ready regionRc startRc =>
    simp only [step] at h
    split_ifs at h with hs
    cases h
    exact start_transition (by simpa using hs)
  | publishReady =>
    simp only [step] at h
    split_ifs at h with hdue
    cases h
    exact .readyPublished hdue
  | join config mib =>
    cases h
    by_cases hj : AcceptedJoin s (.join config mib)
    · rw [zephyrJoin_accepted hj]
      exact .joinAccepted config mib hj
    · obtain ⟨e, he⟩ := @zephyrJoin_rejected rejects s config mib hj
      rw [he]
      exact .joinRejected config mib hj
  | leave =>
    cases h
    simp only [zephyrLeave]
    split_ifs with hp
    · exact .left hp
    · exact .leaveRejected (by simpa using hp)
  | send port data type =>
    cases h
    rcases zephyrSend_cases port data type s with ⟨e, he⟩ | ⟨hs, hj, hp, hok⟩
    · rw [he]
      exact .sendRejected port data type e he
    · rw [hok]
      exact .sendAccepted port data type hs hj hp (by rw [hok])
  | submit =>
    simp only [step] at h
    split_ifs at h with hn
    cases h
    exact .submitted hn
  | setDevNonce nonce =>
    cases h
    unfold zephyrSetDevNonce
    split_ifs
    · exact .devNonceSet nonce s.nextDevNonce
    · exact .devNonceSet nonce _
    · exact .devNonceSet nonce _
  | expire =>
    simp only [step, Option.map_eq_some_iff] at h
    obtain ⟨w, hw, rfl⟩ := h
    exact .expired w hw
  | takeJoin =>
    simp only [step] at h
    split_ifs at h with hi
    obtain ⟨w, hw, rfl⟩ := Option.map_eq_some_iff.1 h
    exact .joinTaken w hi hw
  | takeSend =>
    simp only [step] at h
    split_ifs at h with hi
    obtain ⟨w, hw, rfl⟩ := Option.map_eq_some_iff.1 h
    exact .sendTaken w hi hw
  | enter =>
    simp only [step] at h
    split at h <;> cases h
    case h_1 hw =>
      unfold joinHandlerEntry
      split_ifs with hst
      · exact .joinDropped hw hst
      · exact .joinCalled _ _ hw (by simpa using hst)
    case h_2 hw => exact .sendCalled hw
  | joinReturns rc =>
    simp only [step] at h
    split at h <;> cases h
    case h_1 config hw => exact .joinReturned config rc hw
  | sendReturns rc =>
    simp only [step] at h
    split at h <;> cases h
    case h_1 tx hw => exact .sendReturned tx rc hw
  | relock =>
    simp only [step] at h
    split at h <;> cases h
    case h_1 rc hw => exact .joinEnded rc hw
    case h_2 type rc hw => exact .sendEnded type rc hw
  | publish =>
    simp only [step] at h
    split at h <;> cases h
    case h_1 rc hw => exact .joinPublished rc hw
    case h_2 type rc hw => exact .sendPublished type rc hw
  | handlerReturn =>
    simp only [step] at h
    split at h <;> cases h
    case h_1 hw => exact .joinFinished hw
    case h_2 hw => exact .sendFinished hw

theorem step_joinStep (h : step rejects s a = some t) : JoinStep rejects s a t := by
  cases step_transition h with
  | startFailed | submitted | devNonceSet | sendRejected | sendAccepted =>
    exact .other _ _ .rest id (by simp)
  | started region hs => exact .started _ region hs id (by simp)
  | readyPublished =>
    exact .other _ _ ⟨rfl, rfl, rfl, rfl, rfl, joinResults_append_of_not rfl, .inl rfl⟩ id (by simp)
  | joinRejected config mib hj => exact .other _ _ .rest hj (by simp)
  | joinAccepted config mib hj => exact .accepted config mib hj.1 hj.2.1 hj
  | leaveRejected hp => exact .other _ _ .rest id fun _ => hp
  | left hp => exact .left hp
  | expired w hw => exact .expired w hw
  | joinTaken w hi hw => exact .taken w hi hw
  | joinDropped hw hst => exact .dropped hw hst
  | joinCalled config nonce hw hst => exact .called config nonce hw hst
  | joinReturned config rc hw => exact .returned config rc hw
  | joinEnded rc hw => exact .ended rc hw
  | joinPublished rc hw => exact .published rc hw
  | joinFinished hw => exact .finished hw
  | sendTaken | sendCalled | sendReturned | sendEnded | sendFinished =>
    exact .other _ _ (.send (by rw [‹s.worker = _›]; rfl) rfl) id (by simp)
  | sendPublished type rc hw =>
    exact .other _ _ ⟨rfl, rfl, rfl, rfl, rfl,
      joinResults_append_of_not (isJoinResult_sendEvent type rc),
      .inr ⟨by rw [hw]; rfl, rfl⟩⟩ id (by simp)

end Rzi.Zephyr
