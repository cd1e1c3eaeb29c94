import Rzi.Err
import Rzi.Lib.LittleEndian
import Rzi.Lib.Run
import Rzi.Lib.WorkItem
import Mathlib.Logic.Function.Basic

/-!
# FUOTA coordination (`services/fuota/lorawan_fuota.c`)

The service's static variables are changed under one mutex by the dispatcher (backend events) and by
threads in `rzi_fuota_apply` (application threads and the automatic apply work item). A step is one
mutex-held section, one callback, or one iteration of `copy_image_to_slot`, which runs without the
mutex. `set_state_locked` and the notifications release the mutex around their callback, so an event
leaves the dispatcher with callbacks and later sections still to do (`Todo`).

What the backend answers is part of the step. The handled events are recorded, newest first.
-/

namespace Rzi.Fuota
open WorkQueue LittleEndian

/-- `enum rzi_fuota_state`. -/
inductive FState where
  | idle | ready | transferring | complete | failed | applying
deriving DecidableEq, Repr

inductive Event where
  | joined
  | joinFailed
  | stateChanged (ready : Bool)
  | clockSynced
  | sessionStarted
  | sessionEnded
  | transferDone (successful : Bool) (imageSize : UInt32)
  | rebootRequested
  | other
deriving DecidableEq, Repr

/-- `struct rzi_lorawan_fuota_ops`: the members that are not NULL. -/
structure Ops where
  startClockSync : Bool
  getImageSize : Bool
  readImage : Bool
  reboot : Bool
deriving DecidableEq, Repr

/-- The build options and the backend's operations, NULL as `none`. -/
structure Build where
  imgManager : Bool
  autoApply : Bool
  powerLock : Bool
  ops : Option Ops
  capFuota : Bool
deriving DecidableEq, Repr

def Build.hasReadImage (b : Build) : Bool := b.ops.any (·.readImage)

/-- What the backend and the power manager answer during one locked section. -/
structure Answers where
  startClockSync : Except Err Unit
  getImageSize : Except Err UInt32
  readImage : UInt32 → Nat → Except Err (List UInt8)
  powerLockGet : Bool

/-- The variables under the mutex. -/
structure Service where
  started : Bool
  state : FState
  imageReady : Bool
  imageSize : UInt32
  expectedSize : UInt32
  lastError : Option Err
  powerFlashHeld : Bool
deriving DecidableEq, Repr

def Service.init : Service := ⟨false, .idle, false, 0, 0, none, false⟩

/-- What an event leaves the dispatcher with once it has released the mutex. -/
inductive Todo where
  | stateChanged (state : FState)
  | sessionStarted
  | complete (status : Option Err)
  | submitApply
deriving DecidableEq, Repr

section Service
variable (b : Build)

/-- `set_state_locked` up to its callback. -/
def setState (power : Bool) (next : FState) (s : Service) : Service × List Todo :=
  if s.state = next then (s, [])
  else
    let want := next == .transferring || next == .applying
    let held :=
      if !b.powerLock then s.powerFlashHeld
      else if want && !s.powerFlashHeld && power then true
      else if !want && s.powerFlashHeld then false
      else s.powerFlashHeld
    ({ s with state := next, powerFlashHeld := held }, [.stateChanged next])

def imageMagic : Nat := 0x96f3b83d

def imageTlvMagic : Nat := 0x6907

/-- A field of a byte string, as `sys_get_le16` and `sys_get_le32` read it. -/
def field (bytes : List UInt8) (at_ size : Nat) : Nat := getLe ((bytes.drop at_).take size)

/-- The image size from the image's own header and its TLV area. -/
def headerImageSize (read : UInt32 → Nat → Except Err (List UInt8)) : Except Err UInt32 := do
  let header ← read 0 32
  if field header 0 4 ≠ imageMagic then throw .noData
  let payloadEnd := UInt32.ofNat (field header 8 2) + UInt32.ofNat (field header 12 4)
  let tlv ← read payloadEnd 4
  if field tlv 0 2 ≠ imageTlvMagic then pure payloadEnd
  else pure (payloadEnd + UInt32.ofNat (field tlv 2 2))

/-- `detect_image_size`: the size to store, or the error that leaves `image_size` as it is. -/
def detectImageSize (ans : Answers) (reported : UInt32) (s : Service) : Except Err UInt32 :=
  if s.expectedSize ≠ 0 then .ok s.expectedSize
  else if reported ≠ 0 then .ok reported
  else
    let measured := if b.ops.any (·.getImageSize) then ans.getImageSize else .error .noData
    match measured with
    | .ok size =>
      if size ≠ 0 then .ok size
      else if b.hasReadImage then headerImageSize ans.readImage
      else .error .notSupported
    | .error _ =>
      if b.hasReadImage then headerImageSize ans.readImage else .error .notSupported

def handleJoined (ans : Answers) (s : Service) : Service × List Todo :=
  let rc := if b.ops.any (·.startClockSync) then ans.startClockSync else .ok ()
  setState b ans.powerLockGet .ready { s with
    imageReady := false
    imageSize := s.expectedSize
    lastError := match rc with
      | .ok () => none
      | .error e => some e }

/-- The TRANSFER_DONE case of `handle_fuota_event`. -/
def handleTransferDone (ans : Answers) (successful : Bool) (reported : UInt32) (s : Service) :
    Service × List Todo :=
  if successful then
    let s' := match detectImageSize b ans reported s with
      | .ok size => { s with imageSize := size, imageReady := true, lastError := none }
      | .error e =>
        { s with imageReady := true, lastError := if e = .noData then none else some e }
    let (s'', todo) := setState b ans.powerLockGet .complete s'
    (s'', todo ++ [.complete none] ++ if b.autoApply then [.submitApply] else [])
  else
    let (s', todo) :=
      setState b ans.powerLockGet .failed { s with imageReady := false, lastError := some .io }
    (s', todo ++ [.complete (some .io)])

/-- `fuota_on_event` after its started check: the first locked section, and what follows it. -/
def handleEvent (ans : Answers) (e : Event) (s : Service) : Service × List Todo :=
  match e with
  | .joined => handleJoined b ans s
  | .joinFailed => setState b ans.powerLockGet .idle { s with imageReady := false }
  | .stateChanged ready =>
    if ready ∧ s.state ≠ .idle then setState b ans.powerLockGet .idle { s with imageReady := false }
    else (s, [])
  | .clockSynced => (s, [])
  | .sessionStarted =>
    let (s', todo) := setState b ans.powerLockGet .transferring s
    (s', todo ++ [.sessionStarted])
  | .sessionEnded =>
    if s.state = .transferring ∧ s.imageReady = false then setState b ans.powerLockGet .ready s
    else (s, [])
  | .transferDone successful size => handleTransferDone b ans successful size s
  | .rebootRequested => (s, if s.imageReady && b.autoApply then [.submitApply] else [])
  | .other => (s, [])

end Service

/-! ### The threads -/

/-- A thread that may be in `rzi_fuota_apply`. -/
inductive Tid where
  | work
  | app (n : Nat)
deriving DecidableEq, Repr

/-- Where a thread is in `rzi_fuota_apply`. -/
inductive Applier where
  | idle
  /-- before the first locked section -/
  | called
  /-- in the callback of the change to APPLYING -/
  | announcing
  /-- before `copy_image_to_slot` -/
  | entered
  /-- in the loop of `copy_image_to_slot` -/
  | copying (offset remaining : UInt32)
  /-- `copy_image_to_slot` returned an error -/
  | copyFailed (rc : Err)
  /-- in the callback of the change back to COMPLETE -/
  | restoring
  /-- before the reboot -/
  | copied
deriving DecidableEq, Repr

/-- The service, its threads, and a record of the events handled. -/
structure Sys where
  svc : Service
  todo : List Todo
  applyWork : Item
  appliers : Tid → Applier
  history : List Event
  /-- the callbacks made, oldest first -/
  observed : List Todo

def Sys.init : Sys := ⟨.init, [], .idle, fun _ => .idle, [], []⟩

def applyChunk : UInt32 := 256

def chunkRequest (remaining : UInt32) : UInt32 := min remaining applyChunk

def Sys.at (s : Sys) (tid : Tid) (pc : Applier) : Sys :=
  { s with appliers := Function.update s.appliers tid pc }

/-- The thread returns from `rzi_fuota_apply`; for the work item its handler returns with it. -/
def Sys.return (s : Sys) (tid : Tid) : Sys :=
  match tid with
  | .work => { s.at tid .idle with applyWork := s.applyWork.finish }
  | .app _ => s.at tid .idle

inductive Act where
  | start
  | event (e : Event) (ans : Answers)
  /-- the dispatcher does what the last event left to do -/
  | dispatch
  | setExpectedSize (size : UInt32)
  | readImage (offset : UInt32) (size : Nat)
  | call (n : Nat)
  | takeWork
  | enter (tid : Tid) (power : Bool)
  | announced (tid : Tid)
  | beginCopy (tid : Tid) (initRc : Option Errno)
  | copyChunk (tid : Tid) (read : Except Err Unit) (write : Option Errno)
  | requestUpgrade (tid : Tid) (rc : Option Errno)
  | writeBack (tid : Tid) (power : Bool)
  | restored (tid : Tid)
  | reboot (tid : Tid)

/-- The first locked section of `rzi_fuota_apply`. -/
def enterApply (b : Build) (tid : Tid) (power : Bool) (s : Sys) : Sys :=
  if s.svc.imageReady = false then s.return tid
  else if s.svc.imageSize = 0 then s.return tid
  else
    let (svc, todo) := setState b power .applying s.svc
    { s.at tid (if todo = [] then .entered else .announcing) with svc := svc }

/-- The locked section of `rzi_fuota_apply` after a failed copy. -/
def writeBack (b : Build) (tid : Tid) (rc : Err) (power : Bool) (s : Sys) : Sys :=
  let (svc, todo) := setState b power .complete { s.svc with lastError := some rc }
  if todo = [] then { s.return tid with svc := svc }
  else { s.at tid .restoring with svc := svc }

def step (b : Build) (s : Sys) : Act → Option Sys
  | .start =>
    if s.svc.started ∨ (b.ops = none ∧ b.capFuota = false) then some s
    else some { s with svc := { s.svc with started := true } }
  | .event e ans =>
    if s.todo ≠ [] then none
    else if s.svc.started = false then some s
    else
      let (svc, todo) := handleEvent b ans e s.svc
      some { s with svc := svc, todo := todo, history := e :: s.history }
  | .dispatch =>
    match s.todo with
    | [] => none
    | .submitApply :: todo => some { s with todo := todo, applyWork := s.applyWork.submit true }
    | callback :: todo => some { s with todo := todo, observed := s.observed ++ [callback] }
  | .setExpectedSize size =>
    if size = 0 then some s
    else some { s with svc := { s.svc with
      expectedSize := size
      imageSize := if s.svc.imageReady ∧ s.svc.imageSize = 0 then size else s.svc.imageSize } }
  | .readImage _ _ => some s
  | .call n => if s.appliers (.app n) = .idle then some (s.at (.app n) .called) else none
  | .takeWork =>
    if s.appliers .work = .idle then
      s.applyWork.start.map fun w => { s.at .work .called with applyWork := w }
    else none
  | .enter tid power =>
    if s.appliers tid = .called then some (enterApply b tid power s) else none
  | .announced tid =>
    if s.appliers tid = .announcing then
      some { s.at tid .entered with observed := s.observed ++ [.stateChanged .applying] }
    else none
  | .beginCopy tid initRc =>
    if s.appliers tid = .entered then
      if b.imgManager = false then some (s.return tid)
      else if b.hasReadImage = false then some (s.at tid (.copyFailed .notSupported))
      else
        match initRc with
        | some e => some (s.at tid (.copyFailed (errFromErrno e)))
        | none => some (s.at tid (.copying 0 s.svc.imageSize))
    else none
  | .copyChunk tid read write =>
    match s.appliers tid with
    | .copying offset remaining =>
      if remaining = 0 then none
      else
        match read, write with
        | .error e, _ => some (s.at tid (.copyFailed e))
        | .ok (), some e => some (s.at tid (.copyFailed (errFromErrno e)))
        | .ok (), none =>
          some (s.at tid (.copying (offset + chunkRequest remaining)
            (remaining - chunkRequest remaining)))
    | _ => none
  | .requestUpgrade tid rc =>
    match s.appliers tid with
    | .copying _ remaining =>
      if remaining ≠ 0 then none
      else
        match rc with
        | some e => some (s.at tid (.copyFailed (errFromErrno e)))
        | none => some (s.at tid .copied)
    | _ => none
  | .writeBack tid power =>
    match s.appliers tid with
    | .copyFailed rc => some (writeBack b tid rc power s)
    | _ => none
  | .restored tid =>
    if s.appliers tid = .restoring then
      some { s.return tid with observed := s.observed ++ [.stateChanged .complete] }
    else none
  | .reboot tid => if s.appliers tid = .copied then some (s.return tid) else none

def fullBuild : Build := ⟨true, false, true, some ⟨true, true, true, true⟩, true⟩

/-- A backend whose operations succeed, with an image of 512 bytes. -/
def goodAnswers : Answers := ⟨.ok (), .ok 512, fun _ size => .ok (List.replicate size 0), true⟩

def firstTransfer : List Act :=
  [.start, .event .sessionStarted goodAnswers, .dispatch, .dispatch,
    .event (.transferDone true 512) goodAnswers, .dispatch, .dispatch]

/-- `rzi_fuota_read_image`, with the backend's answer `read`. -/
def readImage (b : Build) (read : UInt32 → Nat → Except Err (List UInt8)) (offset : UInt32)
    (size : Nat) (s : Service) : Except Err (List UInt8) :=
  if size = 0 then .error .invalid
  else if s.imageReady = false then .error .notFound
  else if b.hasReadImage = false then .error .notSupported
  else read offset size

def getStatus (s : Sys) : FState × Bool × UInt32 × Option Err :=
  (s.svc.state, s.svc.imageReady, s.svc.imageSize, s.svc.lastError)

/-! ### What a step does to the state, the readiness and the appliers -/

def eventState (e : Event) (x : FState × Bool) : FState × Bool :=
  match e with
  | .joined => (.ready, false)
  | .joinFailed => (.idle, false)
  | .stateChanged ready => if ready ∧ x.1 ≠ .idle then (.idle, false) else x
  | .sessionStarted => (.transferring, x.2)
  | .sessionEnded => if x.1 = .transferring ∧ x.2 = false then (.ready, x.2) else x
  | .transferDone successful _ => if successful then (.complete, true) else (.failed, false)
  | .clockSynced | .rebootRequested | .other => x

/-- Past the checks of `rzi_fuota_apply`, and the copy has not returned. -/
def Applier.active : Applier → Bool
  | .announcing | .entered | .copying _ _ => true
  | _ => false

def Applier.failing : Applier → Bool
  | .copyFailed _ => true
  | _ => false

variable {b : Build} {s t : Sys} {a : Act}

@[simp] theorem setState_state (power : Bool) (next : FState) (svc : Service) :
    (setState b power next svc).1.state = next := by
  by_cases h : svc.state = next <;> simp [setState, h]

@[simp] theorem setState_imageReady (power : Bool) (next : FState) (svc : Service) :
    (setState b power next svc).1.imageReady = svc.imageReady := by
  by_cases h : svc.state = next <;> simp [setState, h]

theorem handleEvent_state (ans : Answers) (e : Event) (svc : Service) :
    ((handleEvent b ans e svc).1.state, (handleEvent b ans e svc).1.imageReady) =
      eventState e (svc.state, svc.imageReady) := by
  cases e with
  | joined => simp [handleEvent, handleJoined, eventState]
  | joinFailed => simp [handleEvent, eventState]
  | stateChanged ready =>
    simp only [handleEvent, eventState]
    split_ifs <;> simp
  | sessionStarted => simp [handleEvent, eventState]
  | sessionEnded =>
    simp only [handleEvent, eventState]
    split_ifs <;> simp
  | transferDone successful size =>
    cases successful
    · simp [handleEvent, handleTransferDone, eventState]
    · simp only [handleEvent, handleTransferDone, eventState, ↓reduceIte, setState_state,
        setState_imageReady]
      split <;> rfl
  | _ => rfl

theorem eventState_cases (e : Event) (x : FState × Bool) :
    eventState e x = x ∨ eventState e x = (.idle, false) ∨ eventState e x = (.ready, false) ∨
      eventState e x = (.transferring, x.2) ∨ eventState e x = (.failed, false) ∨
      eventState e x = (.complete, true) := by
  cases e with
  | joined => simp [eventState]
  | joinFailed => simp [eventState]
  | sessionStarted => simp [eventState]
  | stateChanged ready =>
    simp only [eventState]
    split_ifs <;> simp
  | sessionEnded =>
    simp only [eventState]
    split_ifs with h
    · rw [h.2]
      simp
    · simp
  | transferDone successful size => cases successful <;> simp [eventState]
  | _ => exact .inl rfl

/-- The step leaves the state, the readiness and the history alone. -/
structure Same (s t : Sys) : Prop where
  state : t.svc.state = s.svc.state
  ready : t.svc.imageReady = s.svc.imageReady
  history : t.history = s.history

/-- What a step can do. -/
inductive Effect (s : Sys) : Act → Sys → Prop
  | quiet (a : Act) (t : Sys) (h : Same s t) (happ : t.appliers = s.appliers) : Effect s a t
  | handled (e : Event) (ans : Answers) (t : Sys)
      (hstate : (t.svc.state, t.svc.imageReady) = eventState e (s.svc.state, s.svc.imageReady))
      (hhist : t.history = e :: s.history) (happ : t.appliers = s.appliers) :
      Effect s (.event e ans) t
  | moved (a : Act) (t : Sys) (tid : Tid) (pc : Applier) (h : Same s t)
      (happ : t.appliers = Function.update s.appliers tid pc)
      (hpc : pc.active = true ∨ pc.failing = true → (s.appliers tid).active = true) : Effect s a t
  | entered (tid : Tid) (power : Bool) (t : Sys) (pc : Applier)
      (hready : s.svc.imageReady = true) (hsize : s.svc.imageSize ≠ 0)
      (hstate : t.svc.state = .applying) (hready' : t.svc.imageReady = true)
      (hhist : t.history = s.history) (happ : t.appliers = Function.update s.appliers tid pc)
      (hpc : pc.failing = false) : Effect s (.enter tid power) t
  | restored (tid : Tid) (power : Bool) (t : Sys) (pc : Applier)
      (hfail : (s.appliers tid).failing = true) (hstate : t.svc.state = .complete)
      (hready : t.svc.imageReady = s.svc.imageReady)
      (hhist : t.history = s.history) (happ : t.appliers = Function.update s.appliers tid pc)
      (hpc : pc.active = false ∧ pc.failing = false) : Effect s (.writeBack tid power) t

theorem return_same (tid : Tid) : Same s (s.return tid) := by
  cases tid <;> exact ⟨rfl, rfl, rfl⟩

@[simp] theorem return_appliers (tid : Tid) :
    (s.return tid).appliers = Function.update s.appliers tid .idle := by
  cases tid <;> rfl

theorem Effect.returned (tid : Tid) : Effect s a (s.return tid) := by
  refine .moved _ _ tid .idle (return_same tid) (return_appliers tid) ?_
  rintro (h | h) <;> cases h

theorem Effect.at {tid : Tid} {pc : Applier} (h : (s.appliers tid).active = true) :
    Effect s a (s.at tid pc) :=
  .moved _ _ tid pc ⟨rfl, rfl, rfl⟩ rfl fun _ => h

theorem enterApply_effect (tid : Tid) (power : Bool) :
    Effect s (.enter tid power) (enterApply b tid power s) := by
  unfold enterApply
  split_ifs with hready hsize
  · exact .returned tid
  · exact .returned tid
  · refine .entered tid power _ _ (by simpa using hready) hsize (by simp) ?_ rfl rfl ?_
    · simpa using hready
    · split_ifs <;> rfl

theorem writeBack_effect (tid : Tid) (rc : Err) (power : Bool) (h : s.appliers tid = .copyFailed rc) :
    Effect s (.writeBack tid power) (writeBack b tid rc power s) := by
  unfold writeBack
  dsimp only
  split_ifs
  · refine .restored tid power _ .idle (by rw [h]; rfl) (by simp) (by simp) ?_ ?_ ⟨rfl, rfl⟩
    · exact (return_same tid).history
    · exact return_appliers tid
  · exact .restored tid power _ .restoring (by rw [h]; rfl) (by simp) (by simp) rfl rfl ⟨rfl, rfl⟩

/-- Every step, with what it finds and what it leaves. -/
inductive Transition (b : Build) (s : Sys) : Act → Sys → Prop
  | notStarted (h : s.svc.started = true ∨ b.ops = none ∧ b.capFuota = false) :
      Transition b s .start s
  | started : Transition b s .start { s with svc := { s.svc with started := true } }
  | ignored (e : Event) (ans : Answers) (htodo : s.todo = []) (hstarted : s.svc.started = false) :
      Transition b s (.event e ans) s
  | handled (e : Event) (ans : Answers) (htodo : s.todo = []) (hstarted : s.svc.started = true) :
      Transition b s (.event e ans) { s with
        svc := (handleEvent b ans e s.svc).1
        todo := (handleEvent b ans e s.svc).2
        history := e :: s.history }
  | submitted (todo : List Todo) (htodo : s.todo = .submitApply :: todo) :
      Transition b s .dispatch { s with todo := todo, applyWork := s.applyWork.submit true }
  | observed (callback : Todo) (todo : List Todo) (htodo : s.todo = callback :: todo)
      (hcallback : callback ≠ .submitApply) :
      Transition b s .dispatch { s with todo := todo, observed := s.observed ++ [callback] }
  | sizeRefused : Transition b s (.setExpectedSize 0) s
  | sized (size : UInt32) (hsize : size ≠ 0) :
      Transition b s (.setExpectedSize size) { s with svc := { s.svc with
        expectedSize := size
        imageSize := if s.svc.imageReady ∧ s.svc.imageSize = 0 then size else s.svc.imageSize } }
  | read (offset : UInt32) (size : Nat) : Transition b s (.readImage offset size) s
  | called (n : Nat) (hpc : s.appliers (.app n) = .idle) :
      Transition b s (.call n) (s.at (.app n) .called)
  | taken (work : Item) (hpc : s.appliers .work = .idle) (hwork : s.applyWork.start = some work) :
      Transition b s .takeWork { s.at .work .called with applyWork := work }
  | entered (tid : Tid) (power : Bool) (hpc : s.appliers tid = .called) :
      Transition b s (.enter tid power) (enterApply b tid power s)
  | announced (tid : Tid) (hpc : s.appliers tid = .announcing) :
      Transition b s (.announced tid)
        { s.at tid .entered with observed := s.observed ++ [.stateChanged .applying] }
  | unsupported (tid : Tid) (initRc : Option Errno) (hpc : s.appliers tid = .entered)
      (himg : b.imgManager = false) : Transition b s (.beginCopy tid initRc) (s.return tid)
  | beginFailed (tid : Tid) (initRc : Option Errno) (rc : Err) (hpc : s.appliers tid = .entered)
      (himg : b.imgManager = true) : Transition b s (.beginCopy tid initRc) (s.at tid (.copyFailed rc))
  | begun (tid : Tid) (hpc : s.appliers tid = .entered) (himg : b.imgManager = true)
      (hread : b.hasReadImage = true) :
      Transition b s (.beginCopy tid none) (s.at tid (.copying 0 s.svc.imageSize))
  | chunkFailed (tid : Tid) (read : Except Err Unit) (write : Option Errno) (rc : Err)
      (offset remaining : UInt32) (hpc : s.appliers tid = .copying offset remaining)
      (hremaining : remaining ≠ 0) :
      Transition b s (.copyChunk tid read write) (s.at tid (.copyFailed rc))
  | chunkCopied (tid : Tid) (offset remaining : UInt32)
      (hpc : s.appliers tid = .copying offset remaining) (hremaining : remaining ≠ 0) :
      Transition b s (.copyChunk tid (.ok ()) none) (s.at tid (.copying
        (offset + chunkRequest remaining) (remaining - chunkRequest remaining)))
  | upgradeFailed (tid : Tid) (e : Errno) (offset : UInt32) (hpc : s.appliers tid = .copying offset 0) :
      Transition b s (.requestUpgrade tid (some e)) (s.at tid (.copyFailed (errFromErrno e)))
  | upgraded (tid : Tid) (offset : UInt32) (hpc : s.appliers tid = .copying offset 0) :
      Transition b s (.requestUpgrade tid none) (s.at tid .copied)
  | wroteBack (tid : Tid) (power : Bool) (rc : Err) (hpc : s.appliers tid = .copyFailed rc) :
      Transition b s (.writeBack tid power) (writeBack b tid rc power s)
  | restored (tid : Tid) (hpc : s.appliers tid = .restoring) :
      Transition b s (.restored tid)
        { s.return tid with observed := s.observed ++ [.stateChanged .complete] }
  | rebooted (tid : Tid) (hpc : s.appliers tid = .copied) :
      Transition b s (.reboot tid) (s.return tid)

/-- The steps of the copy, which only the copying thread sees. -/
theorem beginCopy_transition {tid : Tid} {initRc : Option Errno}
    (h : step b s (.beginCopy tid initRc) = some t) : Transition b s (.beginCopy tid initRc) t := by
  simp only [step] at h
  split_ifs at h with hpc himg hread
  · cases h
    exact .unsupported tid initRc hpc himg
  · cases h
    exact .beginFailed tid initRc .notSupported hpc (Bool.of_not_eq_false himg)
  · cases initRc with
    | some e =>
      cases h
      exact .beginFailed tid (some e) _ hpc (Bool.of_not_eq_false himg)
    | none =>
      cases h
      exact .begun tid hpc (Bool.of_not_eq_false himg) (Bool.of_not_eq_false hread)

theorem copyChunk_transition {tid : Tid} {read : Except Err Unit} {write : Option Errno}
    (h : step b s (.copyChunk tid read write) = some t) :
    Transition b s (.copyChunk tid read write) t := by
  simp only [step] at h
  cases hpc : s.appliers tid with
  | copying offset remaining =>
    rw [hpc] at h
    simp only at h
    split_ifs at h with hremaining
    cases read with
    | error e =>
      cases h
      exact .chunkFailed tid _ write e offset remaining hpc hremaining
    | ok u =>
      cases write with
      | some e =>
        cases h
        exact .chunkFailed tid _ _ _ offset remaining hpc hremaining
      | none =>
        cases h
        exact .chunkCopied tid offset remaining hpc hremaining
  | _ =>
    rw [hpc] at h
    cases h

theorem requestUpgrade_transition {tid : Tid} {rc : Option Errno}
    (h : step b s (.requestUpgrade tid rc) = some t) : Transition b s (.requestUpgrade tid rc) t := by
  simp only [step] at h
  cases hpc : s.appliers tid with
  | copying offset remaining =>
    rw [hpc] at h
    simp only at h
    split_ifs at h with hremaining
    rw [not_not.1 hremaining] at hpc
    cases rc with
    | some e =>
      cases h
      exact .upgradeFailed tid e offset hpc
    | none =>
      cases h
      exact .upgraded tid offset hpc
  | _ =>
    rw [hpc] at h
    cases h

theorem step_transition (h : step b s a = some t) : Transition b s a t := by
  cases a with
  | start =>
    simp only [step] at h
    split_ifs at h with hnot
    · cases h
      exact .notStarted hnot
    · cases h
      exact .started
  | event e ans =>
    simp only [step] at h
    split_ifs at h with htodo hstarted
    · cases h
      exact .ignored e ans (not_not.1 htodo) hstarted
    · cases h
      exact .handled e ans (not_not.1 htodo) (Bool.of_not_eq_false hstarted)
  | dispatch =>
    simp only [step] at h
    cases htodo : s.todo with
    | nil =>
      rw [htodo] at h
      cases h
    | cons callback todo =>
      rw [htodo] at h
      by_cases hcallback : callback = .submitApply
      · subst hcallback
        cases h
        exact .submitted todo htodo
      · have hobserved := Transition.observed (b := b) callback todo htodo hcallback
        cases callback with
        | submitApply => exact absurd rfl hcallback
        | stateChanged state | sessionStarted | complete rc =>
          cases h
          exact hobserved
  | setExpectedSize size =>
    simp only [step] at h
    by_cases hsize : size = 0
    · rw [if_pos hsize] at h
      cases h
      rw [hsize]
      exact .sizeRefused
    · rw [if_neg hsize] at h
      cases h
      exact .sized size hsize
  | readImage offset size =>
    cases h
    exact .read offset size
  | call n =>
    simp only [step] at h
    split_ifs at h with hpc
    cases h
    exact .called n hpc
  | takeWork =>
    simp only [step] at h
    split_ifs at h with hpc
    obtain ⟨work, hwork, rfl⟩ := Option.map_eq_some_iff.1 h
    exact .taken work hpc hwork
  | enter tid power =>
    simp only [step] at h
    split_ifs at h with hpc
    cases h
    exact .entered tid power hpc
  | announced tid =>
    simp only [step] at h
    split_ifs at h with hpc
    cases h
    exact .announced tid hpc
  | beginCopy tid initRc => exact beginCopy_transition h
  | copyChunk tid read write => exact copyChunk_transition h
  | requestUpgrade tid rc => exact requestUpgrade_transition h
  | writeBack tid power =>
    simp only [step] at h
    split at h
    · rename_i rc hpc
      cases h
      exact .wroteBack tid power rc hpc
    · cases h
  | restored tid =>
    simp only [step] at h
    split_ifs at h with hpc
    cases h
    exact .restored tid hpc
  | reboot tid =>
    simp only [step] at h
    split_ifs at h with hpc
    cases h
    exact .rebooted tid hpc

theorem step_effect (h : step b s a = some t) : Effect s a t := by
  have hidle {pc : Applier} {p : Prop} (hpc : (pc.active || pc.failing) = false)
      (h : pc.active = true ∨ pc.failing = true) : p := by
    rw [← Bool.or_eq_true, hpc] at h
    cases h
  cases step_transition h with
  | notStarted | started | ignored | submitted | observed | sizeRefused | sized | read =>
    exact .quiet _ _ ⟨rfl, rfl, rfl⟩ rfl
  | handled e ans htodo hstarted => exact .handled e ans _ (handleEvent_state ans e s.svc) rfl rfl
  | called n hpc => exact .moved _ _ (.app n) .called ⟨rfl, rfl, rfl⟩ rfl (hidle rfl)
  | taken work hpc hwork => exact .moved _ _ .work .called ⟨rfl, rfl, rfl⟩ rfl (hidle rfl)
  | entered tid power hpc => exact enterApply_effect tid power
  | announced tid hpc => exact .moved _ _ tid .entered ⟨rfl, rfl, rfl⟩ rfl fun _ => by rw [hpc]; rfl
  | unsupported tid initRc hpc himg => exact .returned tid
  | beginFailed tid | begun tid | chunkFailed tid | chunkCopied tid | upgradeFailed tid | upgraded tid =>
    exact .at (by rw [‹s.appliers tid = _›]; rfl)
  | wroteBack tid power rc hpc => exact writeBack_effect tid rc power hpc
  | restored tid hpc =>
    refine .moved _ _ tid .idle ?_ (return_appliers tid) (hidle rfl)
    exact ⟨(return_same tid).state, (return_same tid).ready, (return_same tid).history⟩
  | rebooted tid hpc => exact .returned tid

end Rzi.Fuota
