import Mathlib.Data.Vector.Basic
import Rzi.Err
import Rzi.Lib.Run

/-!
# The raw LoRa service on USP (`lora.c`, `lora_backend_usp.c`)

The service keeps `started`, `rx_active` and the configuration; the backend keeps its own flags, which
the USP lock protects and which the radio's callbacks change. An operation takes place in one step. What
the radio stack and the clock answer during it is its argument `radio`; results of the stack are given
as `rac_result` and `rzi_usp_result` map them. The radio parameters that a transaction is submitted with
are not part of the model.

`receive_active_iff_meets` says in which runs `rzi_lora_receive_active` agrees with the backend.
-/

namespace Rzi.Lora

/-- RZI_LORA_MAX_PAYLOAD. -/
def maxPayload : Nat := 255

/-- The fields of `struct rzi_lora_config` that the service itself reads. -/
structure Config where
  spreadingFactor : UInt8
  codingRate : UInt8
  preambleLength : UInt16
  txPowerDbm : Int8
  encrypt : Bool
  key : Vector UInt8 16
  iv : Vector UInt8 16
deriving DecidableEq

/-- `struct rx_packet`. -/
structure Packet where
  rssiDbm : Int16
  snrQuarterDb : Int8
  data : List UInt8
deriving DecidableEq

/-- The static variables of `lora_backend_usp.c`. -/
structure Backend where
  opened : Bool
  testMode : Bool
  txBusy : Bool
  rxActive : Bool
  rxContinuous : Bool
  rxDeadlineMs : Int
  txBuffer : List UInt8
  rxQueue : List Packet
  txDone : Bool
  txError : Int
deriving DecidableEq

/-- The static variables of `lora.c`. -/
structure Service where
  started : Bool
  rxActive : Bool
  config : Config
  backend : Backend
deriving DecidableEq

def Backend.init : Backend :=
  ⟨false, false, false, false, false, 0, List.replicate maxPayload 0, [], false, 0⟩

def Config.init : Config := ⟨7, 0, 8, 14, false, Vector.replicate 16 0, Vector.replicate 16 0⟩

def Service.init : Service := ⟨false, false, .init, .init⟩

/-- What the radio stack and the clock answer during a call. -/
structure Radio where
  isr : Bool
  /-- `smtc_rac_open_radio` grants both handles -/
  openRadio : Bool
  submit : Except Err Unit
  testStart : Except Err Unit
  testStop : Except Err Unit
  /-- the modem's answer to the test itself -/
  test : Except Err Unit
  /-- `k_uptime_get` when a deadline is set -/
  uptimeMs : Int
  /-- `k_uptime_get` when a window is submitted -/
  submitMs : Int

/-- `rp_status_t`, as the callbacks tell its values apart. -/
inductive Status where
  | txDone | rxPacket | taskAborted | other
deriving DecidableEq, Repr

variable (radio : Radio)

/-! ### The backend -/

/-- `open_radio`. -/
def openRadio (b : Backend) : Except Err Unit × Backend :=
  if b.opened then (.ok (), b)
  else if !radio.openRadio then (.error .noResource, b)
  else (.ok (), { b with opened := true })

/-- `abort_p2p`; the callbacks of the aborted transactions are steps of their own. -/
def abortP2p (b : Backend) : Backend := { b with rxActive := false }

def enterTestMode (b : Backend) : Except Err Unit × Backend :=
  if b.testMode then (.ok (), b)
  else
    let b := abortP2p b
    match radio.testStart with
    | .error e => (.error e, b)
    | .ok () => (.ok (), { b with testMode := true })

def leaveTestMode (b : Backend) : Except Err Unit × Backend :=
  if !b.testMode then (.ok (), b)
  else
    match radio.testStop with
    | .error e => (.error e, b)
    | .ok () => (.ok (), { b with testMode := false })

def submitRxWindow (b : Backend) : Except Err Unit :=
  if !b.rxContinuous && b.rxDeadlineMs - radio.submitMs ≤ 0 then .error .timeout else radio.submit

/-- The result of a reception, in `smtc_rac_data_result` and the buffer. -/
structure Reception where
  data : List UInt8
  rssi : Int16
  snr : Int8

/-- `k_msgq_put` on `rx_queue`, without waiting. -/
def putPacket (packet : Packet) (b : Backend) : Backend :=
  if b.rxQueue.length < 2 then { b with rxQueue := b.rxQueue ++ [packet] } else b

/-- `on_rx_done`. -/
def onRxDone (status : Status) (r : Reception) (b : Backend) : Backend :=
  let b := if status = .rxPacket ∧ r.data ≠ [] then
    putPacket ⟨r.rssi, r.snr * 4, r.data.take maxPayload⟩ b else b
  if !b.rxActive then b
  else if !(b.rxContinuous || status = .taskAborted) || submitRxWindow radio b ≠ .ok () then
    { b with rxActive := false }
  else b

/-- The error that `on_tx_done` reports. -/
def txResult : Status → Int
  | .txDone => 0
  | .taskAborted => -(Err.busy.code : Int)
  | _ => -(Err.io.code : Int)

/-- `on_tx_done`. -/
def onTxDone (status : Status) (b : Backend) : Backend :=
  { b with txBusy := false, txError := txResult status, txDone := true }

def uspStart (b : Backend) : Except Err Unit × Backend := openRadio radio b

def uspStop (b : Backend) : Except Err Unit × Backend :=
  let r := leaveTestMode radio { abortP2p b with txBusy := false }
  (r.1, { r.2 with txDone := false, rxQueue := [] })

def uspSend (data : List UInt8) (b : Backend) : Except Err Unit × Backend :=
  match leaveTestMode radio b with
  | (.error e, b) => (.error e, b)
  | (.ok (), b) =>
    if b.txBusy then (.error .busy, b)
    else
      let b := { b with txBuffer := data ++ b.txBuffer.drop data.length }
      match radio.submit with
      | .error e => (.error e, { b with txBusy := false })
      | .ok () => (.ok (), { b with txBusy := true })

/-- RX_CONTINUOUS. -/
def rxContinuous : UInt32 := 65535

def uspReceive (timeoutMs : UInt32) (b : Backend) : Except Err Unit × Backend :=
  let b := { b with rxActive := false }
  if timeoutMs = 0 then (.ok (), b)
  else
    match leaveTestMode radio b with
    | (.error e, b) => (.error e, b)
    | (.ok (), b) =>
      let b := { b with
        rxContinuous := timeoutMs = rxContinuous
        rxDeadlineMs := radio.uptimeMs + timeoutMs.toNat }
      match submitRxWindow radio b with
      | .error e => (.error e, b)
      | .ok () => (.ok (), { b with rxActive := true })

/-- `usp_test_rssi`, `usp_test_tone`, `usp_test_tx` and `usp_test_cw`: a test that needs test mode. -/
def uspTest (b : Backend) : Except Err Unit × Backend :=
  match enterTestMode radio b with
  | (.error e, b) => (.error e, b)
  | (.ok (), b) => (radio.test, b)

def uspTestRx (b : Backend) : Except Err Unit × Backend := uspReceive radio rxContinuous b

/-- `usp_test_get_rssi`, without the value. -/
def uspTestGetRssi (b : Backend) : Except Err Unit × Backend :=
  (if b.testMode then radio.test else .error .notReady, b)

def uspTestStop (b : Backend) : Except Err Unit × Backend :=
  (if b.testMode then radio.test else .ok (), b)

/-- What a poll publishes: the error of a transmission, and packets. -/
structure Published where
  txDone : Option Int
  packets : List Packet

/-- `usp_poll`. -/
def uspPoll (b : Backend) : Published × Backend :=
  (⟨if b.txDone then some b.txError else none, b.rxQueue⟩, { b with txDone := false, rxQueue := [] })

/-! ### The service -/

/-- `apply_cipher`. -/
def applyCipher (config : Config) (data : List UInt8) : List UInt8 :=
  if !config.encrypt then data
  else data.mapIdx fun i b => b ^^^ (config.key.toList.getD (i % 16) 0 ^^^ config.iv.toList.getD (i % 16) 0)

/-- A backend call, with the rest of the service as it is. -/
def withBackend (f : Backend → Except Err Unit × Backend) (s : Service) : Except Err Unit × Service :=
  ((f s.backend).1, { s with backend := (f s.backend).2 })

/-- `rzi_lora_init`, for a modulation that is or is not one of the two; the USP backend takes every
configuration. -/
def loraInit (known : Bool) (s : Service) : Except Err Unit × Service :=
  if radio.isr then (.error .isr, s)
  else if !known then (.error .invalid, s)
  else
    match withBackend (uspStart radio) s with
    | (.error e, s) => (.error e, s)
    | (.ok (), s) => (.ok (), { s with started := true })

/-- `rzi_lora_stop`. -/
def loraStop (s : Service) : Except Err Unit × Service :=
  if radio.isr then (.error .isr, s)
  else
    match withBackend (uspStop radio) s with
    | (.error e, s) => (.error e, s)
    | (.ok (), s) => (.ok (), { s with started := false, rxActive := false })

/-- `rzi_lora_set_config`; `none` is NULL. -/
def loraSetConfig (config : Option Config) (s : Service) : Except Err Unit × Service :=
  if radio.isr then (.error .isr, s)
  else
    match config with
    | none => (.error .invalid, s)
    | some c =>
      if c.spreadingFactor < 5 ∨ 12 < c.spreadingFactor ∨ c.txPowerDbm < 5 ∨ 22 < c.txPowerDbm ∨
          c.preambleLength < 5 ∨ 3 < c.codingRate then (.error .invalid, s)
      else (.ok (), { s with config := c })

/-- `rzi_lora_send`; `none` is NULL. -/
def loraSend (data : Option (List UInt8)) (s : Service) : Except Err Unit × Service :=
  if radio.isr then (.error .isr, s)
  else
    match data with
    | none => (.error .invalid, s)
    | some data =>
      if data = [] then (.error .invalid, s)
      else if maxPayload < data.length then (.error .tooLarge, s)
      else if !s.started then (.error .notSupported, s)
      else withBackend (uspSend radio (applyCipher s.config data)) s

/-- `rzi_lora_receive`. -/
def loraReceive (timeoutMs : UInt32) (s : Service) : Except Err Unit × Service :=
  if radio.isr then (.error .isr, s)
  else if !s.started then (.error .notSupported, s)
  else
    match withBackend (uspReceive radio timeoutMs) s with
    | (.error e, s) => (.error e, s)
    | (.ok (), s) => (.ok (), { s with rxActive := timeoutMs ≠ 0 })

/-- `rzi_lora_receive_active`. -/
def loraReceiveActive (s : Service) : Bool := s.rxActive

/-- A function of the backend's test table, as `call_test` and its siblings call it. -/
def loraTest (f : Radio → Backend → Except Err Unit × Backend) (s : Service) :
    Except Err Unit × Service :=
  if radio.isr then (.error .isr, s) else withBackend (f radio) s

/-! ### Runs -/

/-- The calls of the service and the callbacks of the radio. -/
inductive Act where
  | init (radio : Radio) (known : Bool)
  | stop (radio : Radio)
  | setConfig (radio : Radio) (config : Option Config)
  | send (radio : Radio) (data : Option (List UInt8))
  | receive (radio : Radio) (timeoutMs : UInt32)
  /-- an RSSI, tone, packet or continuous-wave test -/
  | test (radio : Radio)
  | testGetRssi (radio : Radio)
  | testRx (radio : Radio)
  | testStop (radio : Radio)
  | poll
  | txDone (status : Status)
  | rxDone (radio : Radio) (status : Status) (r : Reception)

def next (s : Service) : Act → Service
  | .init radio known => (loraInit radio known s).2
  | .stop radio => (loraStop radio s).2
  | .setConfig radio config => (loraSetConfig radio config s).2
  | .send radio data => (loraSend radio data s).2
  | .receive radio timeoutMs => (loraReceive radio timeoutMs s).2
  | .test radio => (loraTest radio uspTest s).2
  | .testGetRssi radio => (loraTest radio uspTestGetRssi s).2
  | .testRx radio => (loraTest radio uspTestRx s).2
  | .testStop radio => (loraTest radio uspTestStop s).2
  | .poll => { s with backend := (uspPoll s.backend).2 }
  | .txDone status => { s with backend := onTxDone status s.backend }
  | .rxDone radio status r => { s with backend := onRxDone radio status r s.backend }

/-- A window of this kind can be submitted. -/
def Submits (continuous : Bool) (deadlineMs : Int) : Prop :=
  (continuous = true ∨ radio.submitMs < deadlineMs) ∧ radio.submit = .ok ()

/-- `usp_receive` opens a window. -/
def Opens (timeoutMs : UInt32) (b : Backend) : Prop :=
  timeoutMs ≠ 0 ∧ (b.testMode = true → radio.testStop = .ok ()) ∧
    Submits radio (timeoutMs = rxContinuous) (radio.uptimeMs + timeoutMs.toNat)

/-- An open window stays open, or is closed by `rzi_lora_stop` or a receive of no time; and it is a
receive that opens one. -/
def Keeps (s : Service) : Act → Prop
  | .receive radio timeoutMs => s.backend.rxActive = true → radio.isr = false → s.started = true →
      timeoutMs ≠ 0 → Opens radio timeoutMs s.backend
  | .test radio => s.backend.rxActive = true → radio.isr = true
  | .testRx radio => radio.isr = false → (Opens radio rxContinuous s.backend ↔ s.backend.rxActive = true)
  | .rxDone radio status _ => s.backend.rxActive = true →
      (s.backend.rxContinuous = true ∨ status = .taskAborted) ∧
        Submits radio s.backend.rxContinuous s.backend.rxDeadlineMs
  | _ => True

variable {radio} {b : Backend} {s t : Service}

theorem submitRxWindow_ok : submitRxWindow radio b = .ok () ↔
    Submits radio b.rxContinuous b.rxDeadlineMs := by
  unfold submitRxWindow Submits
  cases b.rxContinuous with
  | true => simp
  | false =>
    simp only [Bool.not_false, Bool.true_and, decide_eq_true_eq, Bool.false_eq_true, false_or]
    split
    · constructor
      · intro h
        cases h
      · intro h
        omega
    · constructor
      · intro h
        exact ⟨by omega, h⟩
      · exact fun h => h.2

theorem leaveTestMode_cases (radio : Radio) (b : Backend) :
    (∃ b', leaveTestMode radio b = (.ok (), b') ∧ b'.testMode = false ∧ b'.rxActive = b.rxActive ∧
        (b.testMode = true → radio.testStop = .ok ())) ∨
      ∃ e, leaveTestMode radio b = (.error e, b) ∧ b.testMode = true ∧ radio.testStop = .error e := by
  unfold leaveTestMode
  split
  · rename_i htest
    have hmode : b.testMode = false := by simpa using htest
    exact .inl ⟨b, rfl, hmode, rfl, fun h => absurd (hmode.symm.trans h) Bool.false_ne_true⟩
  · rename_i htest
    have hmode : b.testMode = true := by simpa using htest
    split
    · rename_i e he
      exact .inr ⟨e, rfl, hmode, he⟩
    · rename_i hok
      exact .inl ⟨_, rfl, rfl, rfl, fun _ => hok⟩

/-- A receive of some time either opens its window or fails without one. -/
theorem uspReceive_cases (radio : Radio) {timeoutMs : UInt32} (htime : timeoutMs ≠ 0) (b : Backend) :
    (Opens radio timeoutMs b ∧ (uspReceive radio timeoutMs b).1 = .ok () ∧
        (uspReceive radio timeoutMs b).2.rxActive = true ∧
        (uspReceive radio timeoutMs b).2.testMode = false) ∨
      (¬ Opens radio timeoutMs b ∧ (∃ e, (uspReceive radio timeoutMs b).1 = .error e) ∧
        (uspReceive radio timeoutMs b).2.rxActive = false) := by
  unfold uspReceive
  dsimp only
  rw [if_neg htime]
  rcases leaveTestMode_cases radio { b with rxActive := false } with
    ⟨b', hleave, hmode, hactive, hstop⟩ | ⟨e, hleave, htest, hstop⟩ <;> rw [hleave] <;> dsimp only
  · split
    · rename_i e he
      refine .inr ⟨fun h => ?_, ⟨e, rfl⟩, hactive⟩
      rw [submitRxWindow_ok.2 h.2.2] at he
      cases he
    · rename_i hok
      exact .inl ⟨⟨htime, hstop, submitRxWindow_ok.1 hok⟩, rfl, rfl, hmode⟩
  · refine .inr ⟨fun h => ?_, ⟨e, rfl⟩, rfl⟩
    have hstopped := h.2.1 htest
    rw [hstop] at hstopped
    cases hstopped

/-- The flags agree, and no window is open in test mode. -/
structure Agree (s : Service) : Prop where
  active : s.rxActive = s.backend.rxActive
  test : s.backend.testMode = true → s.backend.rxActive = false

theorem agree_init : Agree .init := ⟨rfl, fun h => (by cases h)⟩

/-- A step that leaves the three flags alone. -/
theorem Agree.of_same (h : Agree s) (hservice : t.rxActive = s.rxActive)
    (hactive : t.backend.rxActive = s.backend.rxActive)
    (htest : t.backend.testMode = true → s.backend.testMode = true) : Agree t :=
  ⟨by rw [hservice, hactive, h.active], fun ht => by rw [hactive]; exact h.test (htest ht)⟩

theorem loraStop_agree (radio : Radio) (h : Agree s) : Agree (loraStop radio s).2 := by
  unfold loraStop
  split
  · exact h
  unfold withBackend uspStop
  dsimp only
  rcases leaveTestMode_cases radio { abortP2p s.backend with txBusy := false } with
    ⟨b', hleave, hmode, hactive, -⟩ | ⟨e, hleave, htest, -⟩ <;> rw [hleave] <;> dsimp only
  · exact ⟨hactive.symm, fun ht => absurd (hmode.symm.trans ht) Bool.false_ne_true⟩
  · -- test mode cannot be left, and so there was no window
    have hwas : s.backend.rxActive = false := h.test htest
    exact ⟨h.active.trans hwas, fun _ => rfl⟩

theorem loraInit_agree (radio : Radio) (known : Bool) (h : Agree s) : Agree (loraInit radio known s).2 := by
  have hopen : (openRadio radio s.backend).2.rxActive = s.backend.rxActive ∧
      (openRadio radio s.backend).2.testMode = s.backend.testMode := by
    unfold openRadio
    split
    · exact ⟨rfl, rfl⟩
    · split <;> exact ⟨rfl, rfl⟩
  have hbackend : Agree { s with backend := (openRadio radio s.backend).2 } :=
    h.of_same rfl hopen.1 fun ht => hopen.2.symm.trans ht
  unfold loraInit
  split
  · exact h
  split
  · exact h
  unfold withBackend uspStart
  split
  · rename_i hr
    obtain rfl := (Prod.mk.inj hr).2
    exact hbackend
  · rename_i hr
    obtain rfl := (Prod.mk.inj hr).2
    exact ⟨hbackend.active, hbackend.test⟩

theorem loraSetConfig_agree (radio : Radio) (config : Option Config) (h : Agree s) :
    Agree (loraSetConfig radio config s).2 := by
  unfold loraSetConfig
  split
  · exact h
  split
  · exact h
  · split
    · exact h
    · exact ⟨h.active, h.test⟩

theorem loraSend_agree (radio : Radio) (data : Option (List UInt8)) (h : Agree s) :
    Agree (loraSend radio data s).2 := by
  have hsend : ∀ data, Agree (withBackend (uspSend radio data) s).2 := by
    intro data
    unfold withBackend uspSend
    rcases leaveTestMode_cases radio s.backend with ⟨b', hleave, hmode, hactive, -⟩ | ⟨e, hleave, -, -⟩ <;>
      rw [hleave] <;> dsimp only
    · have hleft : Agree { s with backend := b' } :=
        ⟨h.active.trans hactive.symm, fun ht => absurd (hmode.symm.trans ht) Bool.false_ne_true⟩
      split
      · exact hleft
      · split <;> exact hleft.of_same rfl rfl id
    · exact h
  unfold loraSend
  split
  · exact h
  split
  · exact h
  split
  · exact h
  split
  · exact h
  split
  · exact h
  · exact hsend _

theorem loraTest_agree {f : Radio → Backend → Except Err Unit × Backend} (radio : Radio) (h : Agree s)
    (hf : (f radio s.backend).2 = s.backend) : Agree (loraTest radio f s).2 := by
  unfold loraTest
  split
  · exact h
  · unfold withBackend
    rw [hf]
    exact h

/-- Entering test mode closes a window. -/
theorem loraTest_active (radio : Radio) (h : Agree s) (hisr : radio.isr = false) :
    (loraTest radio uspTest s).2.backend.rxActive = false ∧
      (loraTest radio uspTest s).2.rxActive = s.rxActive := by
  unfold loraTest withBackend uspTest enterTestMode
  rw [if_neg (by simp [hisr])]
  refine ⟨?_, rfl⟩
  by_cases htest : s.backend.testMode = true
  · rw [if_pos htest]
    exact h.test htest
  · rw [if_neg htest]
    dsimp only
    split <;> rename_i hr <;> split at hr <;> cases hr <;> rfl

theorem onRxDone_active (radio : Radio) (status : Status) (r : Reception) (b : Backend) :
    (onRxDone radio status r b).testMode = b.testMode ∧
      ((onRxDone radio status r b).rxActive = true ↔ b.rxActive = true ∧
        (b.rxContinuous = true ∨ status = .taskAborted) ∧ Submits radio b.rxContinuous b.rxDeadlineMs) := by
  unfold onRxDone
  dsimp only
  generalize hb : (if status = .rxPacket ∧ r.data ≠ [] then
    putPacket ⟨r.rssi, r.snr * 4, r.data.take maxPayload⟩ b else b) = b'
  -- the queue is all that a packet changes
  have hsame : b'.testMode = b.testMode ∧ b'.rxActive = b.rxActive ∧ b'.rxContinuous = b.rxContinuous ∧
      b'.rxDeadlineMs = b.rxDeadlineMs := by
    subst hb
    unfold putPacket
    split
    · split <;> exact ⟨rfl, rfl, rfl, rfl⟩
    · exact ⟨rfl, rfl, rfl, rfl⟩
  obtain ⟨htest, hactive, hcontinuous, hdeadline⟩ := hsame
  rw [← htest, ← hactive, ← hcontinuous, ← hdeadline, ← submitRxWindow_ok]
  split
  · rename_i hclosed
    simp only [Bool.not_eq_true', Bool.eq_false_iff] at hclosed
    exact ⟨rfl, fun h => absurd h hclosed, fun h => absurd h.1 hclosed⟩
  rename_i hopen
  have hopen : b'.rxActive = true := by simpa using hopen
  split
  · rename_i hends
    refine ⟨rfl, fun h => (by cases h), fun ⟨_, hagain, hsubmit⟩ => ?_⟩
    rcases hagain with hagain | hagain <;> simp [hagain, hsubmit] at hends
  · rename_i hagain
    rw [Bool.or_eq_true, not_or, decide_eq_true_eq, not_not] at hagain
    refine ⟨rfl, fun _ => ⟨hopen, ?_, hagain.2⟩, fun _ => hopen⟩
    cases hcontinuous : b'.rxContinuous with
    | true => exact .inl rfl
    | false => exact .inr (by simpa [hcontinuous] using hagain.1)

/-- The state after a step: the flags agree exactly when the step keeps the agreement, and test mode has
no window. -/
structure Flags (t : Service) (keeps : Prop) : Prop where
  active : t.rxActive = t.backend.rxActive ↔ keeps
  test : t.backend.testMode = true → t.backend.rxActive = false

theorem Agree.flags (h : Agree t) {keeps : Prop} (hkeeps : keeps) : Flags t keeps :=
  ⟨⟨fun _ => hkeeps, fun _ => h.active⟩, h.test⟩

theorem loraReceive_flags (radio : Radio) (timeoutMs : UInt32) (h : Agree s) :
    Flags (loraReceive radio timeoutMs s).2 (Keeps s (.receive radio timeoutMs)) := by
  unfold loraReceive
  split
  · rename_i hisr
    exact h.flags fun _ hthread => absurd (hthread.symm.trans hisr) Bool.false_ne_true
  rename_i hisr
  have hthread : radio.isr = false := by simpa using hisr
  split
  · rename_i hstarted
    exact h.flags fun _ _ hs => absurd hs (by simpa using hstarted)
  rename_i hstarted
  have hstarted : s.started = true := by simpa using hstarted
  unfold withBackend
  by_cases htime : timeoutMs = 0
  · subst htime
    exact ⟨⟨fun _ _ _ _ h0 => absurd rfl h0, fun _ => rfl⟩, fun _ => rfl⟩
  rcases uspReceive_cases radio htime s.backend with ⟨hopens, hrc, hactive, hmode⟩ | ⟨hnot, ⟨e, hrc⟩, hactive⟩ <;>
    rw [hrc] <;> dsimp only
  · refine ⟨⟨fun _ _ _ _ _ => hopens, fun _ => ?_⟩,
      fun ht => absurd (hmode.symm.trans ht) Bool.false_ne_true⟩
    rw [hactive]
    exact decide_eq_true htime
  · -- the window that was open is gone, and the service does not know it
    refine ⟨⟨fun heq hwas => ?_, fun hkeeps => ?_⟩, fun _ => hactive⟩
    · rw [hactive, h.active, hwas] at heq
      cases heq
    · rw [hactive, h.active, Bool.eq_false_iff]
      exact fun hwas => hnot (hkeeps hwas hthread hstarted htime)

theorem loraTestRx_flags (radio : Radio) (h : Agree s) :
    Flags (loraTest radio uspTestRx s).2 (Keeps s (.testRx radio)) := by
  unfold loraTest
  split
  · rename_i hisr
    exact h.flags fun hthread => absurd (hthread.symm.trans hisr) Bool.false_ne_true
  rename_i hisr
  have hthread : radio.isr = false := by simpa using hisr
  have htime : rxContinuous ≠ 0 := by decide
  unfold withBackend uspTestRx
  dsimp only
  rcases uspReceive_cases radio htime s.backend with ⟨hopens, -, hactive, hmode⟩ | ⟨hnot, -, hactive⟩
  · refine ⟨?_, fun ht => absurd (hmode.symm.trans ht) Bool.false_ne_true⟩
    rw [hactive, h.active]
    exact ⟨fun hwas _ => ⟨fun _ => hwas, fun _ => hopens⟩, fun hkeeps => (hkeeps hthread).1 hopens⟩
  · refine ⟨?_, fun _ => hactive⟩
    rw [hactive, h.active, Bool.eq_false_iff]
    exact ⟨fun hwas _ => ⟨fun hopens => absurd hopens hnot, fun hopen => absurd hopen hwas⟩,
      fun hkeeps hwas => hnot ((hkeeps hthread).2 hwas)⟩

theorem loraTest_flags (radio : Radio) (h : Agree s) :
    Flags (loraTest radio uspTest s).2 (Keeps s (.test radio)) := by
  cases hisr : radio.isr with
  | true =>
    unfold loraTest
    rw [if_pos hisr]
    exact h.flags fun _ => hisr
  | false =>
    obtain ⟨hactive, hsame⟩ := loraTest_active radio h hisr
    refine ⟨?_, fun _ => hactive⟩
    rw [hactive, hsame, h.active, Bool.eq_false_iff]
    refine ⟨fun hwas hopen => absurd hopen hwas, fun hkeeps hopen => ?_⟩
    exact Bool.false_ne_true (hisr.symm.trans (hkeeps hopen))

theorem rxDone_flags (radio : Radio) (status : Status) (r : Reception) (h : Agree s) :
    Flags { s with backend := onRxDone radio status r s.backend } (Keeps s (.rxDone radio status r)) := by
  obtain ⟨htest, hactive⟩ := onRxDone_active radio status r s.backend
  constructor
  · show s.rxActive = (onRxDone radio status r s.backend).rxActive ↔ _
    rw [h.active, Bool.eq_iff_iff, hactive]
    exact ⟨fun hiff hopen => (hiff.1 hopen).2, fun hkeeps => ⟨fun hopen => ⟨hopen, hkeeps hopen⟩, fun h => h.1⟩⟩
  · intro ht
    rw [Bool.eq_false_iff]
    intro hopen
    exact absurd (hactive.1 hopen).1 (by simp [h.test (htest.symm.trans ht)])

theorem next_flags (h : Agree s) (a : Act) : Flags (next s a) (Keeps s a) := by
  cases a with
  | init radio known => exact (loraInit_agree radio known h).flags trivial
  | stop radio => exact (loraStop_agree radio h).flags trivial
  | setConfig radio config => exact (loraSetConfig_agree radio config h).flags trivial
  | send radio data => exact (loraSend_agree radio data h).flags trivial
  | receive radio timeoutMs => exact loraReceive_flags radio timeoutMs h
  | test radio => exact loraTest_flags radio h
  | testGetRssi radio => exact (loraTest_agree radio h rfl).flags trivial
  | testRx radio => exact loraTestRx_flags radio h
  | testStop radio => exact (loraTest_agree radio h rfl).flags trivial
  | poll =>
    have hpoll : Agree (next s .poll) := h.of_same rfl rfl id
    exact hpoll.flags trivial
  | txDone status =>
    have hdone : Agree (next s (.txDone status)) := h.of_same rfl rfl id
    exact hdone.flags trivial
  | rxDone radio status r => exact rxDone_flags radio status r h

/-- The runs in every state of which `rzi_lora_receive_active` agrees with the backend are those whose
steps all keep the agreement. -/
theorem receive_active_iff_meets (acts : List Act) :
    Lts.Always (fun s a => some (next s a)) (fun s => loraReceiveActive s = s.backend.rxActive) .init acts ↔
      Lts.Meets (fun s a => some (next s a)) Keeps .init acts := by
  refine Lts.always_iff_meets (fun s h => Agree.active h) (fun s a t h hkeeps ht => ?_)
    (fun s a t h hnot ht hactive => ?_) agree_init (Lts.run_total next .init acts)
  · cases ht
    exact ⟨(next_flags h a).active.2 hkeeps, (next_flags h a).test⟩
  · cases ht
    exact hnot ((next_flags h a).active.1 hactive)

/-- A radio without failures. -/
def goodRadio : Radio := ⟨false, true, .ok (), .ok (), .ok (), .ok (), 0, 0⟩

/-- A timed receive ends with its first packet, and the service still reports it. -/
def timedReceive : List Act :=
  [.init goodRadio true, .receive goodRadio 1000, .rxDone goodRadio .rxPacket ⟨[1], -40, 8⟩]

theorem timed_receive_disagrees : ¬ Lts.Always (fun s a => some (next s a))
    (fun s => loraReceiveActive s = s.backend.rxActive) .init timedReceive := by
  intro h
  have hend := h timedReceive _ List.prefix_rfl (Lts.run_total next .init timedReceive)
  revert hend
  decide

end Rzi.Lora
