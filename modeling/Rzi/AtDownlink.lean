import Rzi.AtReply
import Rzi.Lib.Run
import Rzi.Lib.Strtol
import Mathlib.Data.List.Nodup

/-!
# The retained downlink (`handle_recv` and `on_event`, `commands/lorawan`)

The dispatcher retains the last downlink and AT+RECV=? takes it out under `state_lock`, before the reply
is formatted and written; a newer downlink may come in between. The downlinks are numbered as they
arrive, which the code does not do. `downlinks_kept_iff` says when none is lost by a reply that is not
written.
-/

namespace Rzi.At.Recv
open Lts

/-- `RZI_LORAWAN_MAX_PAYLOAD`. -/
def maxPayload : Nat := 242

/-- `struct rzi_at_lorawan_last_downlink` where it is valid. -/
structure LastDownlink where
  port : UInt8
  data : List UInt8
  hsize : data.length ≤ maxPayload
  number : Nat
deriving DecidableEq

def hexDigits : List UInt8 := ascii "0123456789ABCDEF"

/-- `rzi_at_lorawan_bin_to_hex`. -/
def binToHex (data : List UInt8) : List UInt8 :=
  data.flatMap fun (b : UInt8) => [hexDigits.getD (b >>> 4).toNat 0, hexDigits.getD (b &&& 0x0f).toNat 0]

/-- The value that AT+RECV=? answers. -/
def recvValue (taken : Option LastDownlink) : List UInt8 :=
  match taken with
  | none => ascii "AT+RECV="
  | some d => ascii "AT+RECV=" ++ Strtol.decimal d.port.toNat ++ [0x3a] ++ binToHex d.data

/-- The AT service with the retained downlink. -/
abbrev Service := At.State (Option LastDownlink)

/-- The locked section of `handle_recv`. -/
def takeDownlink (s : Service) : Option LastDownlink × Service := (s.rest, { s with rest := none })

def handleRecv (port : Port (Option LastDownlink)) (_request : Request) (s : Service) : Int × Service :=
  let (taken, s) := takeDownlink s
  respondValue port (recvValue taken) s

/-- `on_event` for DOWNDATA, up to the event line. -/
def onDownData (d : LastDownlink) (s : Service) : Service := { s with rest := some d }

/-- The AT thread and the dispatcher. -/
structure System where
  service : Service
  /-- what `handle_recv` has taken and not yet answered -/
  handler : Option (Option LastDownlink)
  /-- the number of the next downlink -/
  arrived : Nat
  /-- the downlinks that were answered, oldest first -/
  returned : List Nat

def System.boot : System := ⟨⟨.reset, false, true, [], none, [], false⟩, none, 0, []⟩

inductive Act where
  | downData (port : UInt8) (data : List UInt8) (hsize : data.length ≤ maxPayload)
  /-- AT+RECV=? up to its reply -/
  | recv
  /-- the reply, with what the port's write function returns if it is called -/
  | reply (writeRc : Int)

section Steps
variable (port : Port (Option LastDownlink))

def answer (writeRc : Int) (taken : Option LastDownlink) (s : Service) : Int × Service :=
  respondValue { port with writeRc := fun _ => writeRc } (recvValue taken) s

/-- The value has been written as a whole, and the port has taken it. -/
def Complete (writeRc : Int) (taken : Option LastDownlink) (s : Service) : Prop :=
  answer port writeRc taken s =
    (0, { s with out := s.out ++ [crlf ++ recvValue taken ++ (crlf ++ ascii "OK" ++ crlf)] })

/-- The return code and the output of a complete answer. -/
def completeB (writeRc : Int) (taken : Option LastDownlink) (s : Service) : Bool :=
  (answer port writeRc taken s).1 == 0 && (answer port writeRc taken s).2.out ==
    s.out ++ [crlf ++ recvValue taken ++ (crlf ++ ascii "OK" ++ crlf)]

def step (x : System) : Act → Option System
  | .downData p data hsize => some { x with
      service := onDownData ⟨p, data, hsize, x.arrived⟩ x.service
      arrived := x.arrived + 1 }
  | .recv =>
    if x.handler.isSome then none
    else some { x with
      service := (takeDownlink x.service).2
      handler := some (takeDownlink x.service).1 }
  | .reply writeRc =>
    match x.handler with
    | none => none
    | some taken => some { x with
        service := (answer port writeRc taken x.service).2
        handler := none
        returned := x.returned ++
          if completeB port writeRc taken x.service then (taken.map (·.number)).toList else [] }

/-- The next AT+RECV=? returns the downlink, if it is answered. -/
def Offers (x : System) (d : LastDownlink) : Prop :=
  ∃ y, step port x .recv = some y ∧ y.handler = some (some d)

/-- A downlink that is answered has been returned, one that is not answered is still there. -/
def Keeps (x : System) : Act → Prop
  | .reply writeRc => ∀ d y, x.handler = some (some d) → step port x (.reply writeRc) = some y →
      (Complete port writeRc (some d) x.service → d.number ∈ y.returned) ∧
        (¬ Complete port writeRc (some d) x.service → Offers port y d)
  | _ => True

/-- AT+RECV=? loses no downlink in the run, and returns none twice. -/
structure NoLoss (as : List Act) : Prop where
  kept : Meets (step port) (Keeps port) .boot as
  once : Always (step port) (fun x => x.returned.Nodup) .boot as

/-- The reply to an AT+RECV=? that has found a downlink fits the buffer and is written. -/
def Delivers (x : System) : Act → Prop
  | .reply writeRc => ∀ d, x.handler = some (some d) →
      Fits port (recvValue (some d)) ∧ writeRc = 0
  | _ => True

end Steps

variable {port : Port (Option LastDownlink)} {x y : System} {a : Act} {as : List Act} {writeRc : Int}
  {taken : Option LastDownlink} {s : Service}

/-- Without a newer downlink, the two steps are the handler. -/
theorem handleRecv_eq (request : Request) (s : Service) :
    handleRecv { port with writeRc := fun _ => writeRc } request s =
      answer port writeRc (takeDownlink s).1 (takeDownlink s).2 := rfl

theorem binToHex_length (data : List UInt8) : (binToHex data).length = 2 * data.length := by
  unfold binToHex
  induction data with
  | nil => rfl
  | cons b data ih =>
    rw [List.flatMap_cons, List.length_append, ih]
    simp only [List.length_cons, List.length_nil]
    omega

theorem recvValue_length (d : LastDownlink) : (recvValue (some d)).length =
    9 + (Strtol.decimal d.port.toNat).length + 2 * d.data.length := by
  have hprefix : (ascii "AT+RECV=").length = 8 := by decide
  simp only [recvValue, List.length_append, hprefix, binToHex_length, List.length_singleton]
  omega

theorem answer_cases (port : Port (Option LastDownlink)) (writeRc : Int) (taken : Option LastDownlink)
    (s : Service) :
    (Fits port (recvValue taken) ∧ answer port writeRc taken s = (writeRc, { s with
        out := s.out ++ [crlf ++ recvValue taken ++ (crlf ++ ascii "OK" ++ crlf)] })) ∨
      (¬ Fits port (recvValue taken) ∧ answer port writeRc taken s = (Err.overflow.rc, s)) := by
  rw [answer, respondValue_eq]
  by_cases hfits : Fits port (recvValue taken)
  · exact .inl ⟨hfits, if_pos hfits⟩
  · exact .inr ⟨hfits, if_neg hfits⟩

theorem complete_iff : Complete port writeRc taken s ↔ Fits port (recvValue taken) ∧ writeRc = 0 := by
  unfold Complete
  rcases answer_cases port writeRc taken s with ⟨hfits, heq⟩ | ⟨hfits, heq⟩
  · rw [heq]
    constructor
    · exact fun h => ⟨hfits, (Prod.mk.inj h).1⟩
    · rintro ⟨-, rfl⟩
      rfl
  · rw [heq]
    exact iff_of_false (fun h => Err.overflow.rc_ne_zero (Prod.mk.inj h).1) fun h => hfits h.1

theorem completeB_iff : completeB port writeRc taken s = true ↔ Complete port writeRc taken s := by
  rw [complete_iff, completeB, Bool.and_eq_true, beq_iff_eq, beq_iff_eq]
  rcases answer_cases port writeRc taken s with ⟨hfits, heq⟩ | ⟨hfits, heq⟩
  · rw [heq]
    exact ⟨fun h => ⟨hfits, h.1⟩, fun h => ⟨h.2, rfl⟩⟩
  · rw [heq]
    exact iff_of_false (fun h => Err.overflow.rc_ne_zero h.1) fun h => hfits h.1

/-- An answer does not touch the retained downlink. -/
theorem answer_rest (port : Port (Option LastDownlink)) (writeRc : Int) (taken : Option LastDownlink)
    (s : Service) : (answer port writeRc taken s).2.rest = s.rest := by
  rcases answer_cases port writeRc taken s with ⟨-, heq⟩ | ⟨-, heq⟩ <;> rw [heq]

/-! ### Where a downlink is -/

/-- The downlinks that were returned, the one that is being answered and the one that is retained. -/
def System.known (x : System) : List Nat :=
  x.returned ++ ((x.handler.getD none).map (·.number)).toList ++ (x.service.rest.map (·.number)).toList

/-- Every downlink is in one place. -/
structure Inv (x : System) : Prop where
  nodup : x.known.Nodup
  arrived : ∀ n ∈ x.known, n < x.arrived

theorem inv_boot : Inv .boot := ⟨List.nodup_nil, fun _ hn => (by cases hn)⟩

/-- Downlinks are forgotten, none is new. -/
theorem Inv.sublist (h : Inv x) (hknown : y.known.Sublist x.known) (harrived : y.arrived = x.arrived) :
    Inv y := by
  refine ⟨h.nodup.sublist hknown, fun n hn => ?_⟩
  rw [harrived]
  exact h.arrived n (hknown.subset hn)

theorem Inv.downData (h : Inv x) {d : LastDownlink} (hd : d.number = x.arrived) :
    Inv { x with service := onDownData d x.service, arrived := x.arrived + 1 } := by
  have hsub : (x.returned ++ ((x.handler.getD none).map (·.number)).toList).Sublist x.known :=
    List.sublist_append_left _ _
  have hold : ∀ n ∈ x.returned ++ ((x.handler.getD none).map (·.number)).toList, n < x.arrived :=
    fun n hn => h.arrived n (hsub.subset hn)
  constructor
  · show (x.returned ++ ((x.handler.getD none).map (·.number)).toList ++ [d.number]).Nodup
    rw [List.nodup_append]
    refine ⟨h.nodup.sublist hsub, List.nodup_singleton _, fun n hn m hm => ?_⟩
    rw [List.mem_singleton.1 hm, hd]
    exact Nat.ne_of_lt (hold n hn)
  · intro n hn
    rcases List.mem_append.1 hn with hn | hn
    · exact Nat.lt_succ_of_lt (hold n hn)
    · have hnumber : n = d.number := List.mem_singleton.1 hn
      rw [hnumber, hd]
      exact Nat.lt_succ_self _

theorem Inv.next (h : Inv x) (hstep : step port x a = some y) : Inv y := by
  rcases a with ⟨p, data, hsize⟩ | - | writeRc
  · cases hstep
    exact h.downData rfl
  · simp only [step] at hstep
    split at hstep
    · cases hstep
    · rename_i hidle
      have hnone : x.handler = none := by simpa using hidle
      cases hstep
      refine h.sublist ?_ rfl
      simp only [System.known, hnone, takeDownlink, Option.getD_none, Option.getD_some, Option.map_none,
        Option.toList_none, List.append_nil]
      exact List.Sublist.refl _
  · simp only [step] at hstep
    split at hstep
    · cases hstep
    · rename_i taken htaken
      cases hstep
      refine h.sublist ?_ rfl
      simp only [System.known, htaken, answer_rest, Option.getD_none, Option.getD_some, Option.map_none,
        Option.toList_none, List.append_nil]
      refine List.Sublist.append (List.Sublist.append (List.Sublist.refl _) ?_) (List.Sublist.refl _)
      split
      · exact List.Sublist.refl _
      · exact List.nil_sublist _

/-! ### What a reply leaves -/

/-- The state after a reply. -/
theorem step_reply (htaken : x.handler = some taken) (hstep : step port x (.reply writeRc) = some y) :
    y.handler = none ∧ y.service.rest = x.service.rest ∧
      (Complete port writeRc taken x.service →
        y.returned = x.returned ++ (taken.map (·.number)).toList) := by
  rw [step, htaken] at hstep
  cases hstep
  refine ⟨rfl, answer_rest _ _ _ _, fun hcomplete => ?_⟩
  dsimp only
  rw [if_pos (completeB_iff.2 hcomplete)]

theorem offers_iff (hidle : x.handler = none) {d : LastDownlink} :
    Offers port x d ↔ x.service.rest = some d := by
  unfold Offers
  rw [step, if_neg (by rw [hidle]; exact Bool.false_ne_true)]
  constructor
  · rintro ⟨y, hy, hd⟩
    cases hy
    exact Option.some.inj hd
  · exact fun h => ⟨_, rfl, congrArg some h⟩

/-- What is being answered is not what is retained. -/
theorem Inv.rest_ne (h : Inv x) {d : LastDownlink} (htaken : x.handler = some (some d)) :
    x.service.rest ≠ some d := by
  intro hrest
  have hnodup := h.nodup
  rw [System.known, htaken, hrest, List.append_assoc] at hnodup
  have htwice : [d.number, d.number].Nodup := hnodup.sublist (List.sublist_append_right _ _)
  simp at htwice

/-- A downlink survives a reply exactly where the reply is written. -/
theorem Inv.keeps_iff (h : Inv x) : Keeps port x a ↔ Delivers port x a := by
  rcases a with ⟨p, data, hsize⟩ | - | writeRc
  · exact Iff.rfl
  · exact Iff.rfl
  · constructor
    · intro hkeeps d htaken
      rw [← @complete_iff _ _ _ x.service]
      by_contra hcomplete
      have hstep : ∃ y, step port x (.reply writeRc) = some y := by
        rw [step, htaken]
        exact ⟨_, rfl⟩
      obtain ⟨y, hstep⟩ := hstep
      obtain ⟨hidle, hrest, -⟩ := step_reply htaken hstep
      have hoffers := (hkeeps d y htaken hstep).2 hcomplete
      rw [offers_iff hidle, hrest] at hoffers
      exact h.rest_ne htaken hoffers
    · intro hdelivers d y htaken hstep
      have hcomplete := complete_iff (s := x.service) |>.2 (hdelivers d htaken)
      obtain ⟨-, -, hreturned⟩ := step_reply htaken hstep
      refine ⟨fun _ => ?_, fun hnot => absurd hcomplete hnot⟩
      rw [hreturned hcomplete]
      exact List.mem_append_right _ (List.mem_singleton.2 rfl)

/-! ### Runs -/

/-- No run returns a downlink twice. -/
theorem returned_once (port : Port (Option LastDownlink)) (as : List Act) :
    Always (step port) (fun x => x.returned.Nodup) .boot as := by
  refine always_of_invariant' (fun x h => ?_) (fun x a y h hstep => Inv.next h hstep) inv_boot
  have hsub : x.returned.Sublist x.known := by
    rw [System.known, List.append_assoc]
    exact List.sublist_append_left _ _
  exact h.nodup.sublist hsub

/-- In a run from the boot, AT+RECV=? loses no downlink exactly where each reply to one that has found a
downlink fits the buffer and is written. -/
theorem downlinks_kept_iff (port : Port (Option LastDownlink)) (as : List Act) :
    NoLoss port as ↔ Meets (step port) (Delivers port) .boot as := by
  constructor
  · exact fun h => h.kept.of_invariant (fun x a hinv hkeeps => hinv.keeps_iff.1 hkeeps)
      (fun x a y hinv _ hstep => hinv.next hstep) inv_boot
  · intro h
    refine ⟨?_, returned_once port as⟩
    exact h.of_invariant (fun x a hinv hdelivers => hinv.keeps_iff.2 hdelivers)
      (fun x a y hinv _ hstep => hinv.next hstep) inv_boot

/-- The smallest buffer. -/
def smallPort : Port (Option LastDownlink) := ⟨600, 128, 160, true, fun _ => 0, none⟩

/-- A payload of 60 bytes does not fit the smallest buffer, and is lost. -/
theorem recv_loses_downlink : ¬ NoLoss smallPort
    [.downData 2 (.replicate 60 0xaa) (by decide), .recv, .reply 0] := by
  intro h
  have hreply := ((h.kept.2 _ rfl).2 _ rfl).1
  have harrived := @Inv.next smallPort _ _ (.downData 2 (.replicate 60 0xaa) (by decide)) inv_boot rfl
  have hinv := @Inv.next smallPort _ _ .recv harrived rfl
  have hdelivers := hinv.keeps_iff.1 hreply _ rfl
  have hfits := hdelivers.1
  unfold Fits at hfits
  rw [recvValue_length] at hfits
  simp only [List.length_replicate] at hfits
  have hsize : smallPort.txBufferSize = 128 := rfl
  omega

end Rzi.At.Recv
