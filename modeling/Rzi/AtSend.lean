import Rzi.AtService
import Rzi.Lib.Strtol
import Rzi.ZephyrBackend

/-!
# Uplinks from the AT interface (`commands/lorawan/at_lorawan_join_send.c`, `at_lorawan.c`)

AT+SEND and AT+LPSEND take their uplink from the line, record its confirmation mode in
`tx_confirmed` and only then ask the service to send it. The event line for a TXDONE reads the flag,
which by then may be that of a later line, also of one that the service refused.
`events_attributed_iff` says when the line is the one of the uplink the TXDONE completes.
-/

namespace Rzi.At.Send
open Lts Strtol
open Zephyr (TxStatus)

/-! ### Arguments -/

/-- `strchr`: the text from the first `c` on. -/
def strchr (text : List UInt8) (c : UInt8) : Option (List UInt8) :=
  match text.dropWhile (· != c) with
  | [] => none
  | rest => some rest

def hexNibble (value : UInt8) : Option UInt8 :=
  if 0x30 ≤ value ∧ value ≤ 0x39 then some (value - 0x30)
  else if 0x41 ≤ value ∧ value ≤ 0x46 then some (value - 0x41 + 10)
  else if 0x61 ≤ value ∧ value ≤ 0x66 then some (value - 0x61 + 10)
  else none

/-- The loop of `rzi_at_lorawan_hex_to_bin`. -/
def hexBytes : List UInt8 → Except Err (List UInt8)
  | high :: low :: rest =>
    match hexNibble high, hexNibble low with
    | some h, some l => (hexBytes rest).map fun bytes => (h <<< 4 ||| l) :: bytes
    | _, _ => .error .invalid
  | _ => .ok []

/-- `rzi_at_lorawan_hex_to_bin`. -/
def hexToBin (hex : List UInt8) (outLen : Nat) : Except Err (List UInt8) :=
  if hex.length ≠ outLen * 2 then .error .invalid else hexBytes hex

/-- `RZI_LORAWAN_MAX_PAYLOAD`. -/
def maxPayload : Nat := 242

/-- What a line asks the service to send. -/
structure Uplink where
  port : UInt8
  payload : List UInt8
  confirmed : Bool
deriving DecidableEq, Repr

/-- A line with the argument it was written with; AT+SEND also reads the stored AT+CFM. -/
inductive Line where
  | send (argument : List UInt8) (cfm : Except Err Bool)
  | lpsend (argument : List UInt8)

/-- `handle_send` up to the flag. -/
def parseSend (argument : List UInt8) (cfm : Except Err Bool) : Except Err Uplink :=
  match strchr argument 0x3a with
  | none => .error .invalid
  | some colon =>
    let (port, portEnd) := strtol 32 10 argument
    if portEnd ≠ colon ∨ port < 1 ∨ 223 < port then .error .invalid
    else
      let hex := colon.tail
      if hex.length = 0 then .error .invalid
      else if maxPayload * 2 < hex.length then .error .tooLarge
      else
        match hexToBin hex (hex.length / 2) with
        | .error e => .error e
        | .ok payload => cfm.map fun confirmed => ⟨UInt8.ofNat port.toNat, payload, confirmed⟩

/-- `handle_lpsend` up to the flag. -/
def parseLpsend (argument : List UInt8) : Except Err Uplink :=
  let (port, rest) := strtol 32 10 argument
  if rest = argument ∨ rest.head? ≠ some 0x3a ∨ port < 1 ∨ 223 < port then .error .invalid
  else
    let cursor := rest.tail
    let (ack, rest) := strtol 32 10 cursor
    if rest = cursor ∨ rest.head? ≠ some 0x3a ∨ ack ≠ 0 ∧ ack ≠ 1 then .error .invalid
    else
      let hex := rest.tail
      if hex.length = 0 ∨ hex.length % 2 ≠ 0 then .error .invalid
      else if maxPayload * 2 < hex.length then .error .tooLarge
      else
        match hexToBin hex (hex.length / 2) with
        | .error e => .error e
        | .ok payload => .ok ⟨UInt8.ofNat port.toNat, payload, ack ≠ 0⟩

def Line.parse : Line → Except Err Uplink
  | .send argument cfm => parseSend argument cfm
  | .lpsend argument => parseLpsend argument

/-! ### The handlers and the events -/

/-- What the handlers and `on_event` read and write of `struct rzi_at_lorawan_context`. -/
structure Context where
  confirmationStatus : Bool
  txConfirmed : Bool
deriving DecidableEq, Repr

/-- `on_event` for a TXDONE: the context and the line it publishes. -/
def onTxDone (status : TxStatus) (context : Context) : Context × String :=
  if !context.txConfirmed then (context, "TX_DONE")
  else if status = .confirmed then ({ context with confirmationStatus := true }, "SEND_CONFIRMED_OK")
  else if status = .notSent then
    ({ context with confirmationStatus := false }, "SEND_CONFIRMED_FAILED")
  else (context, "TX_DONE")

/-- A published event line, with the TXDONE it is for and the uplink that one completes. -/
structure Printed where
  line : String
  status : TxStatus
  uplink : Uplink

/-- The AT thread, the service's uplinks and the dispatcher. -/
structure State where
  context : Context
  /-- the AT thread is between the flag and the service's answer -/
  handler : Option Uplink
  /-- the accepted uplinks whose TXDONE has not been delivered, oldest first -/
  outstanding : List Uplink
  /-- what the handlers returned -/
  responses : List (Except Err Unit)
  printed : List Printed
  /-- the modes of the lines that passed their checks -/
  modes : List Bool

def State.init : State := ⟨⟨false, false⟩, none, [], [], [], []⟩

inductive Act where
  /-- a line is executed up to its call of the service -/
  | line (l : Line)
  /-- `rzi_lorawan_send` accepts the uplink or refuses it -/
  | answer (rc : Except Err Unit)
  | txDone (status : TxStatus)

def step (s : State) : Act → Option State
  | .line l =>
    if s.handler.isSome then none
    else
      match l.parse with
      | .error e => some { s with responses := s.responses ++ [.error e] }
      | .ok u => some { s with
          context := { s.context with txConfirmed := u.confirmed }
          handler := some u
          modes := s.modes ++ [u.confirmed] }
  | .answer rc =>
    match s.handler with
    | none => none
    | some u => some { s with
        handler := none
        outstanding := if rc.isOk then s.outstanding ++ [u] else s.outstanding
        responses := s.responses ++ [rc] }
  | .txDone status =>
    match s.outstanding with
    | [] => none
    | u :: outstanding => some { s with
        context := (onTxDone status s.context).1
        outstanding := outstanding
        printed := s.printed ++ [⟨(onTxDone status s.context).2, status, u⟩] }

/-- The line for the TXDONE of an uplink. -/
def eventLine (confirmed : Bool) (status : TxStatus) : String :=
  match confirmed, status with
  | false, _ => "TX_DONE"
  | true, .confirmed => "SEND_CONFIRMED_OK"
  | true, .notSent => "SEND_CONFIRMED_FAILED"
  | true, .sent => "TX_DONE"

/-- Every published line is the one of the uplink its TXDONE completes. -/
def Attributed (s : State) : Prop :=
  ∀ p ∈ s.printed, p.line = eventLine p.uplink.confirmed p.status

/-- A TXDONE other than SENT comes while the last line that passed its checks has the mode of the
uplink that it completes. -/
def LastLineMatches (s : State) : Act → Prop
  | .txDone status => status = .sent ∨
      ∀ u, s.outstanding.head? = some u → s.modes.getLast? = some u.confirmed
  | _ => True

/-- The flag is the mode of the last line that passed its checks, and there is one before any uplink. -/
structure Marked (s : State) : Prop where
  flag : s.context.txConfirmed = s.modes.getLast?.getD false
  handler : s.handler.isSome = true → s.modes ≠ []
  outstanding : s.outstanding ≠ [] → s.modes ≠ []

variable {s t : State} {a : Act}

theorem onTxDone_eq (status : TxStatus) (context : Context) :
    (onTxDone status context).2 = eventLine context.txConfirmed status ∧
      (onTxDone status context).1.txConfirmed = context.txConfirmed := by
  obtain ⟨confirmation, flag⟩ := context
  cases flag <;> cases status <;> exact ⟨rfl, rfl⟩

/-- The line tells the modes apart unless the status is SENT. -/
theorem eventLine_eq_iff (flag confirmed : Bool) (status : TxStatus) :
    eventLine flag status = eventLine confirmed status ↔ status = .sent ∨ flag = confirmed := by
  cases flag <;> cases confirmed <;> cases status <;> decide

theorem Marked.step (h : Marked s) (ht : step s a = some t) : Marked t := by
  cases a with
  | line l =>
    simp only [Send.step] at ht
    split at ht
    · cases ht
    · split at ht
      · cases ht
        exact ⟨h.flag, h.handler, h.outstanding⟩
      · cases ht
        refine ⟨?_, fun _ => by simp, fun _ => by simp⟩
        simp
  | answer rc =>
    simp only [Send.step] at ht
    split at ht
    · cases ht
    · rename_i u hu
      cases ht
      refine ⟨h.flag, (fun hh => by cases hh), ?_⟩
      intro _
      exact h.handler (by rw [hu]; rfl)
  | txDone status =>
    simp only [Send.step] at ht
    split at ht
    · cases ht
    · rename_i u outstanding hu
      cases ht
      refine ⟨(onTxDone_eq status s.context).2.trans h.flag, h.handler, ?_⟩
      intro _
      exact h.outstanding (by rw [hu]; simp)

theorem attributed_append {p : Printed} {printed : List Printed} :
    (∀ q ∈ printed ++ [p], q.line = eventLine q.uplink.confirmed q.status) ↔
      (∀ q ∈ printed, q.line = eventLine q.uplink.confirmed q.status) ∧
        p.line = eventLine p.uplink.confirmed p.status := by
  simp only [List.forall_mem_append, List.forall_mem_singleton]

/-- Only a TXDONE publishes an event line or touches the confirmation status. -/
theorem step_unpublished (ht : step s a = some t) (ha : ∀ status, a ≠ .txDone status) :
    t.printed = s.printed ∧ t.context.confirmationStatus = s.context.confirmationStatus := by
  cases a with
  | line l =>
    simp only [step] at ht
    split at ht
    · cases ht
    · split at ht
      · cases ht
        exact ⟨rfl, rfl⟩
      · cases ht
        exact ⟨rfl, rfl⟩
  | answer rc =>
    simp only [step] at ht
    split at ht
    · cases ht
    · cases ht
      exact ⟨rfl, rfl⟩
  | txDone status => exact absurd rfl (ha status)

theorem Attributed.congr (hs : Attributed s) (h : t.printed = s.printed) : Attributed t := by
  unfold Attributed
  rw [h]
  exact hs

/-- One step publishes the right line exactly if the last line matches. -/
theorem attributed_step (h : Marked s) (hs : Attributed s) (ht : step s a = some t) :
    Attributed t ↔ LastLineMatches s a := by
  cases a with
  | line l => exact ⟨fun _ => trivial, fun _ => hs.congr (step_unpublished ht nofun).1⟩
  | answer rc => exact ⟨fun _ => trivial, fun _ => hs.congr (step_unpublished ht nofun).1⟩
  | txDone status =>
    simp only [step] at ht
    split at ht
    · cases ht
    · rename_i u outstanding hu
      cases ht
      have hmodes : s.modes ≠ [] := h.outstanding (by rw [hu]; simp)
      have hflag : s.modes.getLast? = some s.context.txConfirmed := by
        rw [h.flag, List.getLast?_eq_some_getLast hmodes]
        rfl
      unfold Attributed LastLineMatches
      rw [attributed_append, (onTxDone_eq status s.context).1, eventLine_eq_iff, hu, hflag]
      simp only [List.head?_cons, Option.some.injEq, forall_eq']
      exact ⟨fun hp => hp.2, fun hp => ⟨hs, hp⟩⟩

/-- **Attribution of event lines.** Along a run every line published for a TXDONE is that of the
uplink it completes, exactly if each TXDONE other than SENT comes while the last line that passed its
checks has the mode of that uplink. -/
theorem events_attributed_iff (as : List Act) (hr : run step State.init as = some t) :
    Always step Attributed State.init as ↔ Meets step LastLineMatches State.init as := by
  have hinit : Marked State.init ∧ Attributed State.init :=
    ⟨⟨rfl, (fun h => by cases h), fun h => absurd rfl h⟩, fun p hp => by cases hp⟩
  refine always_iff_meets (I := fun s => Marked s ∧ Attributed s) (fun _ h => h.2)
    (fun _ _ _ h hG ht => ?_) (fun _ _ _ h hG ht => ?_) hinit hr
  · exact ⟨h.1.step ht, (attributed_step h.1 h.2 ht).2 hG⟩
  · exact fun hp => hG ((attributed_step h.1 h.2 ht).1 hp)

/-- A confirmed uplink is accepted, and its TXDONE comes. -/
def confirmedUplink : List Act :=
  [.line (.lpsend (ascii "2:1:48")), .answer (.ok ()), .txDone .confirmed]

theorem confirmed_uplink_attributed : Always step Attributed State.init confirmedUplink := by
  refine (events_attributed_iff confirmedUplink (t :=
    (run step State.init confirmedUplink).getD State.init) rfl).2 ?_
  refine .cons rfl trivial <| .cons rfl trivial <| .cons rfl (.inr ?_) trivial
  intro u hu
  cases hu
  rfl

/-- The same with an unconfirmed AT+SEND in between, which the service refuses as busy. -/
def refusedBetween : List Act :=
  [.line (.lpsend (ascii "2:1:48")), .answer (.ok ()), .line (.send (ascii "2:49") (.ok false)),
    .answer (.error .busy), .txDone .confirmed]

theorem refused_line_changes_event : ¬ ∀ as t, run step State.init as = some t →
    Always step Attributed State.init as := by
  intro h
  have hlines : ((run step State.init refusedBetween).map fun s => s.printed.map fun p =>
      (p.line, eventLine p.uplink.confirmed p.status)) =
        some [("TX_DONE", "SEND_CONFIRMED_OK")] := by decide
  obtain ⟨t, ht, hprinted⟩ := Option.map_eq_some_iff.1 hlines
  have hattributed := h refusedBetween t ht refusedBetween t (List.prefix_refl _) ht
  obtain ⟨p, hp, hline⟩ : ∃ p ∈ t.printed,
      (p.line, eventLine p.uplink.confirmed p.status) = ("TX_DONE", "SEND_CONFIRMED_OK") := by
    rw [← List.mem_map, hprinted]
    exact List.mem_singleton.2 rfl
  have heq := hattributed p hp
  rw [(Prod.mk.inj hline).1, (Prod.mk.inj hline).2] at heq
  exact absurd heq (by decide)

end Rzi.At.Send
