import Rzi.AtHex
import Rzi.AtNetworkMode
import Rzi.LoraSend

/-!
# The P2P link between two AT ports (`at_lora.c`, `at_lora_p2p.c`, `lora.c`, `lora_backend_usp.c`)

AT+PSEND enciphers its payload and hands it to the radio, which transmits it from `tx_buffer` some time
before the transaction completes. At the other end `on_rx_done` puts the packet into a queue of two; the
AT thread takes it out, deciphers it with the configuration of that moment and prints it. Other threads
call the service meanwhile, and the radio calls back, at any time.

`packets_printed_iff` says which packets are printed, and `link` what arrives of the texts that were
sent. The radio transmits a transaction at most once; what lies between the two radios may lose packets.
-/

namespace Rzi.At.Link
open Lts Strtol
open Lora (Packet Radio Reception applyCipher)

/-! ### The receiver -/

/-- `rzi_at_publish_event`, on the formatted text; the AT service has started. -/
def publishEvent {ω : Type} (port : Port ω) (text : List UInt8) (s : At.State ω) : Int × At.State ω :=
  writeFormatted port (crlf ++ ascii "+EVT:") crlf text s

/-- The text of the event in `on_rx_done` of `at_lora.c`. -/
def rxText (data : List UInt8) (rssiDbm : Int16) (snrQuarterDb : Int8) : List UInt8 :=
  ascii "RXP2P:" ++ signedDecimal rssiDbm.toInt ++ ascii ":" ++
    signedDecimal (snrQuarterDb.toInt.tdiv 4) ++ ascii ":" ++ Recv.binToHex data

/-- `rzi_lora_publish_rx`, with `on_rx_done` of `at_lora.c` as the callback. -/
def publishRx (port : Port Lora.Service) (packet : Packet) (d : At.State Lora.Service) :
    At.State Lora.Service :=
  let payload := packet.data.take Lora.maxPayload
  if payload = [] then d
  else (publishEvent port (rxText (applyCipher d.rest.config payload) packet.rssiDbm
    packet.snrQuarterDb) d).2

/-- The AT port of a device with its radio service. -/
structure Receiver where
  device : At.State Lora.Service
  /-- the packet that `k_msgq_get` has returned to `usp_poll` -/
  hand : Option Packet
  /-- the packets that the radio has reported -/
  heard : List Packet
  /-- the packets that were published, with the configuration of that moment -/
  shown : List (Lora.Config × Packet)

def Receiver.boot : Receiver := ⟨⟨.reset, false, true, [], .init, [], false⟩, none, [], []⟩

def Receiver.queue (s : Receiver) : List Packet := s.device.rest.backend.rxQueue

/-- The packets that are still to be printed. -/
def Receiver.pending (s : Receiver) : List Packet := s.hand.toList ++ s.queue

inductive RAct where
  /-- a call of the service by any thread, or a callback of the radio -/
  | call (a : Lora.Act)
  /-- `k_msgq_get` in `usp_poll`, on the AT thread -/
  | take
  | publish

/-- The packet that a callback reports. -/
def heardBy : Lora.Act → List Packet
  | .rxDone _ .rxPacket r =>
    if r.data = [] then [] else [⟨r.rssi, r.snr * 4, r.data.take Lora.maxPayload⟩]
  | _ => []

def receive (port : Port Lora.Service) (s : Receiver) : RAct → Option Receiver
  | .call .poll => none
  | .call a => some { s with
      device := { s.device with rest := Lora.next s.device.rest a }
      heard := s.heard ++ heardBy a }
  | .take =>
    match s.hand, s.queue with
    | none, packet :: queue =>
      let service := s.device.rest
      let backend := { service.backend with rxQueue := queue }
      some { s with
        device := { s.device with rest := { service with backend := backend } }
        hand := some packet }
    | _, _ => none
  | .publish =>
    match s.hand with
    | none => none
    | some packet => some { s with
        device := publishRx port packet s.device
        hand := none
        shown := s.shown ++ [(s.device.rest.config, packet)] }

/-- Every packet that the radio has reported is printed, being printed or in the queue, in that order. -/
def Complete (s : Receiver) : Prop := s.shown.map (·.2) ++ s.pending = s.heard

/-- A packet finds room in the queue, and no `rzi_lora_stop` finds a packet there. -/
def Room (s : Receiver) : RAct → Prop
  | .call (.rxDone _ .rxPacket r) => r.data ≠ [] → s.queue.length < 2
  | .call (.stop radio) => radio.isr = false → s.queue = []
  | _ => True

/-- What a packet is printed as. -/
def rxLine (x : Lora.Config × Packet) : List UInt8 :=
  crlf ++ ascii "+EVT:" ++ rxText (applyCipher x.1 x.2.data) x.2.rssiDbm x.2.snrQuarterDb ++ crlf

/-- The line fits the buffer of `write_formatted`. -/
def lineFits (port : Port Lora.Service) (x : Lora.Config × Packet) : Bool :=
  (rxLine x).length < port.txBufferSize

/-! ### The sender -/

/-- `rzi_at_lora_ensure_started`, in a network mode. -/
def ensureStarted (radio : Radio) (mode : UInt8) (s : Lora.Service) : Except Err Unit × Lora.Service :=
  if mode = NetworkMode.lorawan then (.error .busy, s)
  else if s.started then (.ok (), s)
  else Lora.loraInit radio true s

def handlePsend (radio : Radio) (mode : UInt8) (argument : List UInt8) (s : Lora.Service) :
    Except Err Answer × Lora.Service :=
  let hexLen := argument.length
  if hexLen = 0 ∨ hexLen % 2 ≠ 0 then (.error .invalid, s)
  else if Lora.maxPayload * 2 < hexLen then (.error .tooLarge, s)
  else
    match Send.hexToBin argument (hexLen / 2) with
    | .error e => (.error e, s)
    | .ok payload =>
      match ensureStarted radio mode s with
      | (.error e, s) => (.error e, s)
      | (.ok (), s) => respondOk (Lora.loraSend radio (some payload) s)

/-- A text that AT+PSEND has accepted, with the configuration of that moment. -/
structure Sent where
  argument : List UInt8
  payload : List UInt8
  config : Lora.Config
deriving DecidableEq

/-- What the radio is to transmit for it. -/
def Sent.frame (x : Sent) : List UInt8 := applyCipher x.config x.payload

/-- The text of an AT+PSEND in a state, once it is accepted. -/
def sentBy (argument : List UInt8) (s : Lora.Service) : Sent :=
  ⟨argument, (Send.hexToBin argument (argument.length / 2)).toOption.getD [], s.config⟩

structure Sender where
  service : Lora.Service
  /-- the transaction that has not completed -/
  current : Option Sent
  /-- the radio has not transmitted it yet -/
  fresh : Bool
  accepted : List Sent
  aired : List (List UInt8)
deriving DecidableEq

def Sender.boot : Sender := ⟨.init, none, false, [], []⟩

/-- The calls and callbacks other than those of a transmission, and `rzi_lora_stop`. -/
def quiet : Lora.Act → Bool
  | .send _ _ | .stop _ | .txDone _ => false
  | _ => true

inductive SAct where
  | psend (radio : Radio) (mode : UInt8) (argument : List UInt8)
  /-- the radio transmits the payload of the transaction, which it reads from `tx_buffer` -/
  | transmit
  | txDone (status : Lora.Status)
  | call (a : Lora.Act)

def send (s : Sender) : SAct → Option Sender
  | .psend radio mode argument =>
    match handlePsend radio mode argument s.service with
    | (.error _, t) => some { s with service := t }
    | (.ok _, t) => some { s with
        service := t
        current := some (sentBy argument s.service)
        fresh := true
        accepted := s.accepted ++ [sentBy argument s.service] }
  | .transmit =>
    match s.current, s.fresh with
    | some x, true => some { s with
        fresh := false
        aired := s.aired ++ [s.service.backend.txBuffer.take x.payload.length] }
    | _, _ => none
  | .txDone status =>
    if s.current.isSome then
      some { s with
        service := { s.service with backend := Lora.onTxDone status s.service.backend }
        current := none
        fresh := false }
    else none
  | .call a => if quiet a then some { s with service := Lora.next s.service a } else none

/-- Byte `i` of what `apply_cipher` combines the data with. -/
def streamByte (config : Lora.Config) (i : Nat) : UInt8 :=
  if config.encrypt then config.key.toList.getD (i % 16) 0 ^^^ config.iv.toList.getD (i % 16) 0 else 0

/-- Two devices encipher texts of this length alike. -/
def SameStream (c c' : Lora.Config) (n : Nat) : Prop := ∀ i < n, streamByte c i = streamByte c' i

instance (c c' : Lora.Config) (n : Nat) : Decidable (SameStream c c' n) :=
  inferInstanceAs (Decidable (∀ i < n, _))

variable {s t : Lora.Service} {b : Lora.Backend} {radio : Radio} {a : Lora.Act}

/-! ### What the service does to the queue and to the transmit buffer -/

/-- The queue, the buffer and the flag of a transmission are the same. -/
structure Untouched (b c : Lora.Backend) : Prop where
  queue : c.rxQueue = b.rxQueue
  buffer : c.txBuffer = b.txBuffer
  busy : c.txBusy = b.txBusy

theorem Untouched.refl (b : Lora.Backend) : Untouched b b := ⟨rfl, rfl, rfl⟩

theorem leaveTestMode_untouched (radio : Radio) (b : Lora.Backend) :
    Untouched b (Lora.leaveTestMode radio b).2 := by
  unfold Lora.leaveTestMode
  split
  · exact .refl b
  · split <;> exact ⟨rfl, rfl, rfl⟩

theorem enterTestMode_untouched (radio : Radio) (b : Lora.Backend) :
    Untouched b (Lora.enterTestMode radio b).2 := by
  unfold Lora.enterTestMode
  split
  · exact .refl b
  · dsimp only
    split <;> exact ⟨rfl, rfl, rfl⟩

theorem uspReceive_untouched (radio : Radio) (timeoutMs : UInt32) (b : Lora.Backend) :
    Untouched b (Lora.uspReceive radio timeoutMs b).2 := by
  have hleave := leaveTestMode_untouched radio { b with rxActive := false }
  unfold Lora.uspReceive
  dsimp only
  split
  · exact ⟨rfl, rfl, rfl⟩
  split <;> rename_i hr <;> rw [hr] at hleave
  · exact ⟨hleave.queue, hleave.buffer, hleave.busy⟩
  · split <;> exact ⟨hleave.queue, hleave.buffer, hleave.busy⟩

theorem uspTest_untouched (radio : Radio) (b : Lora.Backend) :
    Untouched b (Lora.uspTest radio b).2 := by
  have henter := enterTestMode_untouched radio b
  unfold Lora.uspTest
  split <;> rename_i hr <;> rw [hr] at henter <;> exact henter

theorem loraTest_untouched {f : Radio → Lora.Backend → Except Err Unit × Lora.Backend} (radio : Radio)
    (s : Lora.Service) (hf : Untouched s.backend (f radio s.backend).2) :
    Untouched s.backend (Lora.loraTest radio f s).2.backend := by
  unfold Lora.loraTest
  split
  · exact .refl _
  · exact hf

theorem loraInit_untouched (radio : Radio) (known : Bool) (s : Lora.Service) :
    Untouched s.backend (Lora.loraInit radio known s).2.backend := by
  have hopen : Untouched s.backend (Lora.openRadio radio s.backend).2 := by
    unfold Lora.openRadio
    split
    · exact .refl _
    · split <;> exact ⟨rfl, rfl, rfl⟩
  unfold Lora.loraInit Lora.withBackend Lora.uspStart
  split
  · exact .refl _
  · split
    · exact .refl _
    · split <;> rename_i hr <;> obtain rfl := (Prod.mk.inj hr).2 <;> exact hopen

theorem loraSetConfig_untouched (radio : Radio) (config : Option Lora.Config) (s : Lora.Service) :
    Untouched s.backend (Lora.loraSetConfig radio config s).2.backend := by
  unfold Lora.loraSetConfig
  split
  · exact .refl _
  · split
    · exact .refl _
    · split <;> exact .refl _

theorem loraReceive_untouched (radio : Radio) (timeoutMs : UInt32) (s : Lora.Service) :
    Untouched s.backend (Lora.loraReceive radio timeoutMs s).2.backend := by
  have hreceive := uspReceive_untouched radio timeoutMs s.backend
  unfold Lora.loraReceive Lora.withBackend
  split
  · exact .refl _
  · split
    · exact .refl _
    · split <;> rename_i hr <;> obtain rfl := (Prod.mk.inj hr).2 <;> exact hreceive

/-- The calls and callbacks that touch none of them. -/
def touchesNone : Lora.Act → Bool
  | .send _ _ | .stop _ | .poll | .txDone _ | .rxDone _ _ _ => false
  | _ => true

theorem next_untouched (s : Lora.Service) (h : touchesNone a = true) :
    Untouched s.backend (Lora.next s a).backend := by
  cases a with
  | send | stop | poll | txDone | rxDone => cases h
  | init radio known => exact loraInit_untouched radio known s
  | setConfig radio config => exact loraSetConfig_untouched radio config s
  | receive radio timeoutMs => exact loraReceive_untouched radio timeoutMs s
  | test radio => exact loraTest_untouched radio s (uspTest_untouched radio s.backend)
  | testGetRssi radio => exact loraTest_untouched radio s (.refl _)
  | testRx radio => exact loraTest_untouched radio s (uspReceive_untouched radio _ s.backend)
  | testStop radio => exact loraTest_untouched radio s (.refl _)

/-- A send is accepted when no transmission is under way, and leaves its data in the buffer; while one
is under way the buffer stays as it is. -/
theorem uspSend_cases (radio : Radio) (data : List UInt8) (b : Lora.Backend) :
    (Lora.uspSend radio data b).2.rxQueue = b.rxQueue ∧
      (((∃ e, (Lora.uspSend radio data b).1 = .error e) ∧
          (Lora.uspSend radio data b).2.txBusy = b.txBusy ∧
          (b.txBusy = true → (Lora.uspSend radio data b).2.txBuffer = b.txBuffer)) ∨
        (Lora.uspSend radio data b).1 = .ok () ∧ b.txBusy = false ∧
          (Lora.uspSend radio data b).2.txBusy = true ∧
          (Lora.uspSend radio data b).2.txBuffer.take data.length = data) := by
  have hleave := leaveTestMode_untouched radio b
  unfold Lora.uspSend
  split <;> rename_i hr <;> rw [hr] at hleave
  · exact ⟨hleave.queue, .inl ⟨⟨_, rfl⟩, hleave.busy, fun _ => hleave.buffer⟩⟩
  · split
    · exact ⟨hleave.queue, .inl ⟨⟨_, rfl⟩, hleave.busy, fun _ => hleave.buffer⟩⟩
    · rename_i hbusy
      have hidle : b.txBusy = false := hleave.busy.symm.trans (by simpa using hbusy)
      dsimp only
      split
      · exact ⟨hleave.queue, .inl ⟨⟨_, rfl⟩, hidle.symm, fun h => by cases hidle.symm.trans h⟩⟩
      · exact ⟨hleave.queue, .inr ⟨rfl, hidle, rfl, List.take_left⟩⟩

theorem onRxDone_queue (radio : Radio) (status : Lora.Status) (r : Reception) (b : Lora.Backend) :
    (Lora.onRxDone radio status r b).rxQueue =
      if b.rxQueue.length < 2 then b.rxQueue ++ heardBy (.rxDone radio status r) else b.rxQueue := by
  have hput : (if status = .rxPacket ∧ r.data ≠ [] then
      Lora.putPacket ⟨r.rssi, r.snr * 4, r.data.take Lora.maxPayload⟩ b else b).rxQueue =
      if b.rxQueue.length < 2 then b.rxQueue ++ heardBy (.rxDone radio status r) else b.rxQueue := by
    by_cases hdata : r.data = []
    · cases status <;> simp [heardBy, hdata]
    · cases status with
      | rxPacket =>
        rw [if_pos ⟨rfl, hdata⟩, Lora.putPacket]
        simp only [heardBy, if_neg hdata]
        split <;> rfl
      | _ => simp [heardBy]
  rw [← hput]
  unfold Lora.onRxDone
  dsimp only
  generalize (if status = .rxPacket ∧ r.data ≠ [] then
    Lora.putPacket ⟨r.rssi, r.snr * 4, r.data.take Lora.maxPayload⟩ b else b) = c
  split
  · rfl
  · split <;> rfl

theorem loraSend_queue (radio : Radio) (data : Option (List UInt8)) (s : Lora.Service) :
    (Lora.loraSend radio data s).2.backend.rxQueue = s.backend.rxQueue := by
  unfold Lora.loraSend
  split
  · rfl
  · split
    · rfl
    · split_ifs
      · rfl
      · rfl
      · rfl
      · exact (uspSend_cases radio _ s.backend).1

theorem loraStop_queue (radio : Radio) (s : Lora.Service) :
    (Lora.loraStop radio s).2.backend.rxQueue = if radio.isr then s.backend.rxQueue else [] := by
  unfold Lora.loraStop Lora.withBackend Lora.uspStop
  dsimp only
  split
  · rfl
  · split <;> rename_i hr <;> obtain rfl := (Prod.mk.inj hr).2 <;> rfl

/-- The calls and callbacks that leave the queue alone, and hear nothing. -/
def leavesQueue : Lora.Act → Bool
  | .poll | .stop _ | .rxDone _ _ _ => false
  | _ => true

theorem next_queue (s : Lora.Service) (h : leavesQueue a = true) :
    (Lora.next s a).backend.rxQueue = s.backend.rxQueue ∧ heardBy a = [] := by
  by_cases hnone : touchesNone a = true
  · refine ⟨(next_untouched s hnone).queue, ?_⟩
    cases a <;> first | rfl | cases hnone
  · cases a with
    | send radio data => exact ⟨loraSend_queue radio data s, rfl⟩
    | txDone status => exact ⟨rfl, rfl⟩
    | poll | stop | rxDone => cases h
    | _ => exact absurd rfl hnone

/-! ### What is printed -/

variable {port : Port Lora.Service} {x y : Receiver} {act : RAct} {acts : List RAct}

theorem heardBy_data {packet : Packet} (h : packet ∈ heardBy a) :
    packet.data ≠ [] ∧ packet.data.length ≤ Lora.maxPayload := by
  cases a with
  | rxDone radio status r =>
    cases status with
    | rxPacket =>
      simp only [heardBy] at h
      split at h
      · cases h
      · rename_i hdata
        obtain rfl := List.mem_singleton.1 h
        refine ⟨fun hnil => ?_, List.length_take_le _ _⟩
        rcases List.take_eq_nil_iff.1 hnil with hzero | hnil
        · cases hzero
        · exact hdata hnil
    | _ => cases h
  | _ => cases h

theorem publishEvent_out {ω : Type} (port : Port ω) (text : List UInt8) (s : At.State ω) :
    (publishEvent port text s).2 =
      if (crlf ++ ascii "+EVT:" ++ text ++ crlf).length < port.txBufferSize then
        { s with out := s.out ++ [crlf ++ ascii "+EVT:" ++ text ++ crlf] }
      else s := by
  have hhead : (crlf ++ ascii "+EVT:").length = 7 := by decide
  have hsuffix : crlf.length = 2 := rfl
  unfold publishEvent writeFormatted
  simp only [List.length_append, hhead, hsuffix]
  split_ifs <;> first | rfl | omega

/-- What holds of the lines and the packets in every run. -/
structure Printed (port : Port Lora.Service) (x : Receiver) : Prop where
  lines : x.device.out = (x.shown.filter (lineFits port)).map rxLine
  order : (x.shown.map (·.2) ++ x.pending).Sublist x.heard
  data : ∀ packet ∈ x.heard, packet.data ≠ [] ∧ packet.data.length ≤ Lora.maxPayload

theorem printed_boot : Printed port .boot := ⟨rfl, .refl _, fun _ h => by cases h⟩

theorem publishRx_spec {packet : Packet} (d : At.State Lora.Service)
    (hdata : packet.data ≠ [] ∧ packet.data.length ≤ Lora.maxPayload) :
    (publishRx port packet d).rest = d.rest ∧ (publishRx port packet d).out =
      d.out ++ ([(d.rest.config, packet)].filter (lineFits port)).map rxLine := by
  have hpublish : publishRx port packet d = if lineFits port (d.rest.config, packet) = true then
      { d with out := d.out ++ [rxLine (d.rest.config, packet)] } else d := by
    unfold publishRx
    rw [List.take_of_length_le hdata.2]
    simp only [lineFits, decide_eq_true_eq]
    exact (if_neg hdata.1).trans (publishEvent_out port _ d)
  rw [hpublish]
  by_cases hfits : lineFits port (d.rest.config, packet) = true
  · rw [if_pos hfits, List.filter_cons_of_pos hfits]
    exact ⟨rfl, rfl⟩
  · rw [if_neg hfits, List.filter_cons_of_neg hfits]
    exact ⟨rfl, (List.append_nil _).symm⟩

/-- What a step does to the packets that are printed, on their way, and heard. -/
inductive Moved (port : Port Lora.Service) (x y : Receiver) : RAct → Prop
  | call (a : Lora.Act) (hpoll : a ≠ .poll) (hhand : y.hand = x.hand) (hshown : y.shown = x.shown)
      (hout : y.device.out = x.device.out) (hheard : y.heard = x.heard ++ heardBy a)
      (hqueue : y.queue = (Lora.next x.device.rest a).backend.rxQueue) : Moved port x y (.call a)
  | take (hpending : y.pending = x.pending) (hshown : y.shown = x.shown)
      (hout : y.device.out = x.device.out) (hheard : y.heard = x.heard) : Moved port x y .take
  | publish (packet : Packet) (hhand : x.hand = some packet) (hpending : x.pending = packet :: y.pending)
      (hshown : y.shown = x.shown ++ [(x.device.rest.config, packet)]) (hheard : y.heard = x.heard)
      (hout : packet.data ≠ [] ∧ packet.data.length ≤ Lora.maxPayload → y.device.out = x.device.out ++
        ([(x.device.rest.config, packet)].filter (lineFits port)).map rxLine) :
      Moved port x y .publish

theorem receive_call (hpoll : a ≠ .poll) : receive port x (.call a) = some { x with
    device := { x.device with rest := Lora.next x.device.rest a }, heard := x.heard ++ heardBy a } := by
  cases a <;> first | exact absurd rfl hpoll | rfl

theorem moved (h : receive port x act = some y) : Moved port x y act := by
  cases act with
  | call a =>
    have hpoll : a ≠ .poll := by
      rintro rfl
      cases h
    rw [receive_call hpoll] at h
    obtain rfl := Option.some.inj h
    exact .call a hpoll rfl rfl rfl rfl rfl
  | take =>
    simp only [receive] at h
    split at h
    · rename_i packet queue hhand hqueue
      obtain rfl := Option.some.inj h
      refine .take ?_ rfl rfl rfl
      rw [Receiver.pending, Receiver.pending, hhand, hqueue]
      rfl
    · cases h
  | publish =>
    simp only [receive] at h
    split at h
    · cases h
    · rename_i packet hhand
      obtain rfl := Option.some.inj h
      have hqueue : (publishRx port packet x.device).rest = x.device.rest := by
        unfold publishRx
        dsimp only
        split
        · rfl
        · rw [publishEvent_out]
          split <;> rfl
      refine .publish packet hhand ?_ rfl rfl fun hdata => (publishRx_spec x.device hdata).2
      show x.pending = packet :: (publishRx port packet x.device).rest.backend.rxQueue
      rw [hqueue, Receiver.pending, hhand]
      rfl

/-- Where there is room, the queue is longer by what is heard. -/
theorem queue_room (hpoll : a ≠ .poll) (hroom : Room x (.call a)) :
    (Lora.next x.device.rest a).backend.rxQueue = x.queue ++ heardBy a := by
  by_cases hleaves : leavesQueue a = true
  · obtain ⟨hsame, hnone⟩ := next_queue x.device.rest hleaves
    rw [hsame, hnone]
    exact (List.append_nil _).symm
  · cases a with
    | poll => exact absurd rfl hpoll
    | stop radio =>
      rw [show (Lora.next x.device.rest (.stop radio)).backend.rxQueue = _ from
        loraStop_queue radio x.device.rest]
      split
      · exact (List.append_nil _).symm
      · rename_i hisr
        rw [hroom (by simpa using hisr)]
        rfl
    | rxDone radio status r =>
      rw [show (Lora.next x.device.rest (.rxDone radio status r)).backend.rxQueue = _ from
        onRxDone_queue radio status r x.device.rest.backend]
      split
      · rfl
      · rename_i hfull
        have hnone : heardBy (.rxDone radio status r) = [] := by
          cases status with
          | rxPacket => exact if_pos (by_contra fun hdata => hfull (hroom hdata))
          | _ => rfl
        rw [hnone]
        exact (List.append_nil _).symm
    | _ => exact absurd rfl hleaves

/-- Where there is none, a packet is dropped, or all that were queued. -/
theorem queue_noRoom (hroom : ¬ Room x (.call a)) :
    (Lora.next x.device.rest a).backend.rxQueue.Sublist x.queue ∧
      (Lora.next x.device.rest a).backend.rxQueue.length < x.queue.length + (heardBy a).length := by
  cases a with
  | stop radio =>
    simp only [Room, Classical.not_imp] at hroom
    rw [show (Lora.next x.device.rest (.stop radio)).backend.rxQueue = _ from
      loraStop_queue radio x.device.rest, hroom.1]
    exact ⟨List.nil_sublist _, List.length_pos_of_ne_nil hroom.2⟩
  | rxDone radio status r =>
    cases status with
    | rxPacket =>
      simp only [Room, Classical.not_imp] at hroom
      rw [show (Lora.next x.device.rest (.rxDone radio .rxPacket r)).backend.rxQueue = _ from
        (onRxDone_queue radio .rxPacket r x.device.rest.backend).trans (if_neg hroom.2), heardBy,
        if_neg hroom.1]
      exact ⟨.refl _, Nat.lt_succ_self _⟩
    | _ => exact absurd trivial hroom
  | _ => exact absurd trivial hroom

theorem Printed.step (hx : Printed port x) (h : receive port x act = some y) : Printed port y := by
  rcases moved h with ⟨a, hpoll, hhand, hshown, hout, hheard, hqueue⟩ |
    ⟨hpending, hshown, hout, hheard⟩ | ⟨packet, hhand, hpending, hshown, hheard, hout⟩
  · refine ⟨by rw [hout, hshown, hx.lines], ?_, ?_⟩
    · have hsub : y.pending.Sublist (x.pending ++ heardBy a) := by
        rw [Receiver.pending, Receiver.pending, hhand, List.append_assoc, hqueue]
        refine List.Sublist.append_left ?_ _
        by_cases hroom : Room x (.call a)
        · rw [queue_room hpoll hroom]
        · exact (queue_noRoom hroom).1.trans (List.sublist_append_left _ _)
      rw [hshown, hheard]
      refine (List.Sublist.append_left hsub _).trans ?_
      rw [← List.append_assoc]
      exact hx.order.append_right _
    · intro packet hmem
      rw [hheard] at hmem
      rcases List.mem_append.1 hmem with hmem | hmem
      · exact hx.data packet hmem
      · exact heardBy_data hmem
  · refine ⟨by rw [hout, hshown, hx.lines], ?_, ?_⟩
    · rw [hshown, hpending, hheard]
      exact hx.order
    · rw [hheard]
      exact hx.data
  · have hmem : packet ∈ x.heard := by
      refine hx.order.subset (List.mem_append_right _ ?_)
      rw [hpending]
      exact List.mem_cons_self
    refine ⟨?_, ?_, ?_⟩
    · rw [hout (hx.data packet hmem), hshown, List.filter_append, List.map_append, hx.lines]
    · have horder := hx.order
      rw [hpending] at horder
      rw [hshown, hheard, List.map_append, List.append_assoc]
      exact horder
    · rw [hheard]
      exact hx.data

theorem complete_boot : Complete .boot := rfl

theorem Complete.step (hx : Complete x) (hroom : Room x act) (h : receive port x act = some y) :
    Complete y := by
  unfold Complete at hx ⊢
  rcases moved h with ⟨a, hpoll, hhand, hshown, hout, hheard, hqueue⟩ |
    ⟨hpending, hshown, hout, hheard⟩ | ⟨packet, hhand, hpending, hshown, hheard, hout⟩
  · have hadded : y.queue = x.queue ++ heardBy a := hqueue.trans (queue_room hpoll hroom)
    rw [hshown, hheard, Receiver.pending, hhand, hadded, ← hx, Receiver.pending]
    simp only [List.append_assoc]
  · rw [hshown, hpending, hheard, hx]
  · rw [hshown, hheard, ← hx, hpending, List.map_append, List.append_assoc]
    rfl

/-- A packet that finds no room, or is thrown away, is missing from then on. -/
theorem Complete.lost (hx : Complete x) (hroom : ¬ Room x act) (h : receive port x act = some y) :
    ¬ Complete y := by
  rcases moved h with ⟨a, hpoll, hhand, hshown, -, hheard, hqueue⟩ | - | -
  · have hfewer : y.queue.length < x.queue.length + (heardBy a).length := by
      rw [hqueue]
      exact (queue_noRoom hroom).2
    intro hy
    have hlx := congrArg List.length hx
    have hly := congrArg List.length hy
    rw [hshown, hheard, Receiver.pending, hhand] at hly
    rw [Receiver.pending] at hlx
    simp only [List.length_append] at hlx hly
    omega
  · exact absurd trivial hroom
  · exact absurd trivial hroom

theorem applyCipher_length (config : Lora.Config) (data : List UInt8) :
    (applyCipher config data).length = data.length := by
  unfold applyCipher
  split
  · rfl
  · exact List.length_mapIdx

theorem signedDecimal_length {n : Int} {k : Nat} (hk : 0 < k) (hn : n.natAbs < 10 ^ k) :
    (signedDecimal n).length ≤ k + 1 := by
  have hdecimal := (decimal_length hk).2 hn
  unfold signedDecimal
  rw [List.length_append]
  split
  · exact (Nat.add_le_add_left hdecimal 1).trans_eq (Nat.add_comm 1 k)
  · exact (Nat.zero_add _).trans_le (hdecimal.trans (Nat.le_succ k))

theorem rxLine_length {config : Lora.Config} {packet : Packet}
    (hdata : packet.data.length ≤ Lora.maxPayload) : (rxLine (config, packet)).length < 537 := by
  have hrssi : (signedDecimal packet.rssiDbm.toInt).length ≤ 6 := by
    refine signedDecimal_length (by omega) ?_
    have hlo := packet.rssiDbm.le_toInt
    have hhi := packet.rssiDbm.toInt_lt
    omega
  have hsnr : (signedDecimal (packet.snrQuarterDb.toInt.tdiv 4)).length ≤ 3 := by
    refine signedDecimal_length (by omega) ?_
    have hlo := packet.snrQuarterDb.le_toInt
    have hhi := packet.snrQuarterDb.toInt_lt
    rw [Int.natAbs_tdiv]
    show packet.snrQuarterDb.toInt.natAbs / 4 < 10 ^ 2
    omega
  have hhead : (crlf ++ ascii "+EVT:").length = 7 := by decide
  have hname : (ascii "RXP2P:").length = 6 := by decide
  have hcolon : (ascii ":").length = 1 := by decide
  have hsuffix : crlf.length = 2 := rfl
  have hmax : Lora.maxPayload = 255 := rfl
  simp only [rxLine, rxText, List.length_append, Recv.binToHex_length, applyCipher_length, hname, hcolon,
    hsuffix] at hhead ⊢
  omega

def exampleRadio : Radio := ⟨false, true, .ok (), .ok (), .ok (), .ok (), 0, 0⟩

/-- The radio reports a packet. -/
def packetIn (data : List UInt8) : RAct := .call (.rxDone exampleRadio .rxPacket ⟨data, -40, 9⟩)

def examplePort : Port Lora.Service := ⟨128, 640, 32, true, fun _ => 0, none⟩

/-- The second packet comes while the first one is printed. -/
def twoPackets : List RAct := [packetIn [1], .take, packetIn [2], .publish, .take, .publish]

theorem onRxDone_buffer (radio : Radio) (status : Lora.Status) (r : Reception) (b : Lora.Backend) :
    (Lora.onRxDone radio status r b).txBuffer = b.txBuffer ∧
      (Lora.onRxDone radio status r b).txBusy = b.txBusy := by
  have hput : (if status = .rxPacket ∧ r.data ≠ [] then
      Lora.putPacket ⟨r.rssi, r.snr * 4, r.data.take Lora.maxPayload⟩ b else b).txBuffer = b.txBuffer ∧
      (if status = .rxPacket ∧ r.data ≠ [] then
        Lora.putPacket ⟨r.rssi, r.snr * 4, r.data.take Lora.maxPayload⟩ b else b).txBusy = b.txBusy := by
    unfold Lora.putPacket
    split
    · split <;> exact ⟨rfl, rfl⟩
    · exact ⟨rfl, rfl⟩
  unfold Lora.onRxDone
  dsimp only
  revert hput
  generalize (if status = .rxPacket ∧ r.data ≠ [] then
    Lora.putPacket ⟨r.rssi, r.snr * 4, r.data.take Lora.maxPayload⟩ b else b) = c
  intro hput
  split
  · exact hput
  · split <;> exact hput

theorem next_buffer (s : Lora.Service) (h : quiet a = true) :
    (Lora.next s a).backend.txBuffer = s.backend.txBuffer ∧
      (Lora.next s a).backend.txBusy = s.backend.txBusy := by
  by_cases hnone : touchesNone a = true
  · exact ⟨(next_untouched s hnone).buffer, (next_untouched s hnone).busy⟩
  · cases a with
    | send | stop | txDone => cases h
    | poll => exact ⟨rfl, rfl⟩
    | rxDone radio status r => exact onRxDone_buffer radio status r s.backend
    | _ => exact absurd rfl hnone

/-- On the USP backend it is the function of `at_lora.c` over any backend. -/
theorem ensureStarted_usp {image : NetworkMode.Image Lora.Backend} {radio : Radio} {mode : UInt8}
    {u : LoraService.Service Lora.Backend} (hapi : image.api = LoraService.uspApi radio)
    (hisr : radio.isr = false) :
    (NetworkMode.ensureStarted image mode u).map id LoraService.Service.onUsp =
      ensureStarted radio mode u.onUsp := by
  have hinit := @LoraService.loraInit_usp radio u (some (NetworkMode.modulation mode))
  unfold NetworkMode.ensureStarted ensureStarted
  split
  · rfl
  · rw [show LoraService.loraIsStarted u = u.onUsp.started from rfl]
    split
    · rfl
    · rw [hapi, ← hisr]
      exact hinit

theorem loraInit_config (radio : Radio) (known : Bool) (s : Lora.Service) :
    (Lora.loraInit radio known s).2.config = s.config := by
  unfold Lora.loraInit Lora.withBackend
  split
  · rfl
  · split
    · rfl
    · split <;> rename_i hr <;> obtain rfl := (Prod.mk.inj hr).2 <;> rfl

theorem ensureStarted_spec (radio : Radio) (mode : UInt8) (s : Lora.Service) :
    Untouched s.backend (ensureStarted radio mode s).2.backend ∧
      (ensureStarted radio mode s).2.config = s.config := by
  unfold ensureStarted
  split_ifs
  · exact ⟨.refl _, rfl⟩
  · exact ⟨.refl _, rfl⟩
  · exact ⟨loraInit_untouched radio true s, loraInit_config radio true s⟩

/-- A service call that was refused: what a transmission under way transmits is still there. -/
structure Refused (s t : Lora.Service) : Prop where
  busy : t.backend.txBusy = s.backend.txBusy
  buffer : s.backend.txBusy = true → t.backend.txBuffer = s.backend.txBuffer

theorem Refused.refl (s : Lora.Service) : Refused s s := ⟨rfl, fun _ => rfl⟩

theorem loraSend_cases (radio : Radio) (payload : List UInt8) (s : Lora.Service) :
    ((∃ e, (Lora.loraSend radio (some payload) s).1 = .error e) ∧
        Refused s (Lora.loraSend radio (some payload) s).2) ∨
      (Lora.loraSend radio (some payload) s).1 = .ok () ∧ s.backend.txBusy = false ∧
        (Lora.loraSend radio (some payload) s).2.backend.txBusy = true ∧
        (Lora.loraSend radio (some payload) s).2.backend.txBuffer.take payload.length =
          applyCipher s.config payload := by
  unfold Lora.loraSend
  dsimp only
  split_ifs
  · exact .inl ⟨⟨_, rfl⟩, .refl s⟩
  · exact .inl ⟨⟨_, rfl⟩, .refl s⟩
  · exact .inl ⟨⟨_, rfl⟩, .refl s⟩
  · exact .inl ⟨⟨_, rfl⟩, .refl s⟩
  · obtain ⟨-, ⟨herror, hbusy, hbuffer⟩ | ⟨hok, hidle, hbusy, hbuffer⟩⟩ :=
      uspSend_cases radio (applyCipher s.config payload) s.backend
    · exact .inl ⟨herror, hbusy, hbuffer⟩
    · rw [applyCipher_length] at hbuffer
      exact .inr ⟨hok, hidle, hbusy, hbuffer⟩

/-- AT+PSEND either is refused, or it is accepted and its payload is in the buffer, enciphered. -/
theorem handlePsend_cases (radio : Radio) (mode : UInt8) (argument : List UInt8) (s : Lora.Service) :
    ((∃ e, (handlePsend radio mode argument s).1 = .error e) ∧
        Refused s (handlePsend radio mode argument s).2) ∨
      (∃ reply, (handlePsend radio mode argument s).1 = .ok reply) ∧ s.backend.txBusy = false ∧
        (handlePsend radio mode argument s).2.backend.txBusy = true ∧
        (handlePsend radio mode argument s).2.backend.txBuffer.take (sentBy argument s).payload.length =
          (sentBy argument s).frame ∧
        Recv.binToHex (sentBy argument s).payload = argument.map upper := by
  unfold handlePsend
  dsimp only
  split_ifs
  · exact .inl ⟨⟨_, rfl⟩, .refl s⟩
  · exact .inl ⟨⟨_, rfl⟩, .refl s⟩
  · cases hpayload : Send.hexToBin argument (argument.length / 2) with
    | error e => exact .inl ⟨⟨_, rfl⟩, .refl s⟩
    | ok payload =>
      have hsent : sentBy argument s = ⟨argument, payload, s.config⟩ := by
        rw [sentBy, hpayload]
        rfl
      obtain ⟨hsame, hconfig⟩ := ensureStarted_spec radio mode s
      rcases hr : ensureStarted radio mode s with ⟨e | u, t⟩ <;> rw [hr] at hsame hconfig <;>
        dsimp only at hsame hconfig ⊢
      · exact .inl ⟨⟨_, rfl⟩, hsame.busy, fun _ => hsame.buffer⟩
      · rcases loraSend_cases radio payload t with ⟨⟨e, herror⟩, hrefused⟩ | ⟨hok, hidle, hbusy, hbuffer⟩
        · rcases hs : Lora.loraSend radio (some payload) t with ⟨e | u, t'⟩ <;> rw [hs] at herror hrefused
          · exact .inl ⟨⟨_, rfl⟩, hrefused.busy.trans hsame.busy, fun h =>
              (hrefused.buffer (hsame.busy.trans h)).trans hsame.buffer⟩
          · cases herror
        · rcases hs : Lora.loraSend radio (some payload) t with ⟨e | u, t'⟩ <;>
            rw [hs] at hok hbusy hbuffer
          · cases hok
          · rw [hsent, Sent.frame, ← hconfig]
            exact .inr ⟨⟨_, rfl⟩, hsame.busy.symm.trans hidle, hbusy, hbuffer,
              (Hex.binToHex_of_hexToBin hpayload).2⟩

variable {v v' : Sender} {sact : SAct}

/-- What holds of the sender in every run without `rzi_lora_stop`: what the radio is about to transmit
is the text that was accepted last. -/
structure SendInv (v : Sender) : Prop where
  busy : v.service.backend.txBusy = v.current.isSome
  buffer : ∀ x, v.current = some x →
    v.service.backend.txBuffer.take x.payload.length = x.frame
  order : (v.aired ++ if v.fresh then (v.current.map Sent.frame).toList else []).Sublist
    (v.accepted.map Sent.frame)
  payload : ∀ x ∈ v.accepted, Recv.binToHex x.payload = x.argument.map upper

theorem sendInv_boot : SendInv .boot :=
  ⟨rfl, fun _ h => (by cases h), .refl _, fun _ h => (by cases h)⟩

/-- A step that leaves what is transmitted as it is. -/
theorem SendInv.refused (hv : SendInv v) {t : Lora.Service} (h : Refused v.service t) :
    SendInv { v with service := t } := by
  refine ⟨h.busy.trans hv.busy, fun x hx => ?_, hv.order, hv.payload⟩
  have hbusy : v.service.backend.txBusy = true := by
    rw [hv.busy, show v.current = some x from hx]
    rfl
  show t.backend.txBuffer.take x.payload.length = x.frame
  rw [h.buffer hbusy]
  exact hv.buffer x hx

theorem SendInv.step (hv : SendInv v) (h : send v sact = some v') : SendInv v' := by
  have hairedOrder : v.aired.Sublist (v.accepted.map Sent.frame) :=
    (List.sublist_append_left _ _).trans hv.order
  cases sact with
  | psend radio mode argument =>
    rcases handlePsend_cases radio mode argument v.service with ⟨⟨e, herror⟩, hrefused⟩ |
      ⟨⟨reply, hok⟩, hidle, hbusy, hbuffer, hhex⟩
    · rcases hr : handlePsend radio mode argument v.service with ⟨e' | reply, t⟩ <;>
        rw [hr] at herror hrefused
      · rw [send, hr] at h
        obtain rfl := Option.some.inj h
        exact hv.refused hrefused
      · cases herror
    · rcases hr : handlePsend radio mode argument v.service with ⟨e' | reply', t⟩ <;>
        rw [hr] at hok hbusy hbuffer
      · cases hok
      · rw [send, hr] at h
        obtain rfl := Option.some.inj h
        refine ⟨hbusy, fun x hx => ?_, ?_, fun x hx => ?_⟩
        · obtain rfl := Option.some.inj hx
          exact hbuffer
        · show (v.aired ++ [(sentBy argument v.service).frame]).Sublist
            ((v.accepted ++ [sentBy argument v.service]).map Sent.frame)
          rw [List.map_append]
          exact hairedOrder.append (.refl _)
        · rcases List.mem_append.1 hx with hx | hx
          · exact hv.payload x hx
          · obtain rfl := List.mem_singleton.1 hx
            exact hhex
  | transmit =>
    simp only [send] at h
    split at h
    · rename_i x hcurrent hfresh
      obtain rfl := Option.some.inj h
      refine ⟨hv.busy, hv.buffer, ?_, hv.payload⟩
      have horder := hv.order
      rw [hfresh, hcurrent] at horder
      show ((v.aired ++ [v.service.backend.txBuffer.take x.payload.length]) ++ []).Sublist _
      rw [List.append_nil, hv.buffer x hcurrent]
      exact horder
    · cases h
  | txDone status =>
    simp only [send] at h
    split at h
    · obtain rfl := Option.some.inj h
      refine ⟨rfl, fun x hx => (by cases hx), ?_, hv.payload⟩
      show (v.aired ++ []).Sublist _
      rw [List.append_nil]
      exact hairedOrder
    · cases h
  | call a =>
    simp only [send] at h
    split at h
    · rename_i hquiet
      obtain rfl := Option.some.inj h
      obtain ⟨hbuffer, hbusy⟩ := next_buffer v.service hquiet
      exact hv.refused ⟨hbusy, fun _ => hbuffer⟩
    · cases h

/-! ### What arrives -/

theorem applyCipher_get (config : Lora.Config) (data : List UInt8) (i : Nat) :
    (applyCipher config data)[i]? = data[i]?.map (· ^^^ streamByte config i) := by
  unfold applyCipher streamByte
  cases config.encrypt with
  | false => simp
  | true => simp [List.getElem?_mapIdx]

/-- Deciphering gives back the text exactly where the two devices encipher alike. -/
theorem applyCipher_applyCipher (c c' : Lora.Config) (data : List UInt8) :
    applyCipher c' (applyCipher c data) = data ↔ SameStream c c' data.length := by
  have hbyte : ∀ b x y : UInt8, b ^^^ x ^^^ y = b ↔ x = y := by
    intro b x y
    constructor
    · intro h
      have hxy : x ^^^ y = 0 := by
        rw [← UInt8.xor_right_inj b, ← UInt8.xor_assoc, h, UInt8.xor_zero]
      exact UInt8.xor_eq_zero_iff.1 hxy
    · rintro rfl
      rw [UInt8.xor_assoc, UInt8.xor_self, UInt8.xor_zero]
  constructor
  · intro h i hi
    have hget : (applyCipher c' (applyCipher c data))[i]? = data[i]? := by rw [h]
    rw [applyCipher_get, applyCipher_get, List.getElem?_eq_getElem hi] at hget
    exact (hbyte _ _ _).1 (Option.some.inj hget)
  · intro h
    refine List.ext_getElem? fun i => ?_
    rw [applyCipher_get, applyCipher_get]
    by_cases hi : i < data.length
    · rw [List.getElem?_eq_getElem hi]
      exact congrArg some ((hbyte _ _ _).2 (h i hi))
    · rw [List.getElem?_eq_none (Nat.le_of_not_lt hi)]
      rfl

/-- Lists that have a common list of images, up to elements that are left out, can be matched. -/
theorem sublist_map_lift {α β γ : Type} {f : α → γ} {g : β → γ} {xs : List α} {ys : List β}
    (h : (ys.map g).Sublist (xs.map f)) : ∃ l : List (α × β),
      (l.map (·.1)).Sublist xs ∧ l.map (·.2) = ys ∧ ∀ p ∈ l, f p.1 = g p.2 := by
  obtain ⟨zs, hsub, hmap⟩ := List.sublist_map_iff.1 h
  have hlen : zs.length = ys.length := by
    have := congrArg List.length hmap
    simpa using this.symm
  refine ⟨zs.zip ys, ?_, List.map_snd_zip hlen.ge, fun p hp => ?_⟩
  · rw [List.map_fst_zip hlen.le]
    exact hsub
  · obtain ⟨i, hi, rfl⟩ := List.getElem_of_mem hp
    rw [List.length_zip, ← hlen, Nat.min_self] at hi
    rw [List.getElem_zip]
    have hget := congrArg (fun l => l[i]?) hmap
    simpa [List.getElem?_eq_getElem hi, List.getElem?_eq_getElem (hlen ▸ hi)] using hget.symm

def cipherConfig : Lora.Config := { Lora.Config.init with encrypt := true, key := .replicate 16 0x0f }

/-- AT+PSEND=a5 and AT+PSEND=0bC4 with a cipher. -/
def sendTwo : List SAct :=
  [.call (.setConfig exampleRadio (some cipherConfig)), .psend exampleRadio NetworkMode.p2pLora (ascii "a5"),
    .transmit, .txDone .txDone, .psend exampleRadio NetworkMode.p2pLora (ascii "0bC4"), .transmit]

/-- The second packet arrives. -/
def receiveSecond : List RAct :=
  [.call (.setConfig exampleRadio (some cipherConfig)), packetIn [0x04, 0xcb], .take, .publish]

end Rzi.At.Link
