import Rzi.AtParser
import Rzi.Lib.Run

/-!
# The AT receive path (`src/at/at.c`)

`rzi_at_receive` puts a chunk into the ring buffer and raises `rx_overflow` when the chunk does not
fit; the AT thread tests the flag once per wake-up, resets the parser if it was set, and drains the
ring through a 64-byte buffer into the parser. A step is one receive call, the flag test, the parser
reset, one ring read or one parser feed.

Characters carry the position at which they were received (`Tok`), so that a line can be compared
with what was dropped; `erase_step` shows that the positions steer nothing.
-/

namespace Rzi.At
open Lts

/-- Where the AT thread is in `process_input`. -/
inductive Pc (α : Type*) where
  | waiting
  | resetting
  | draining (buffer : List α)
deriving DecidableEq, Repr

/-- The receive path, with a record of what it was given, dropped and executed. -/
structure Rx (α : Type*) where
  ring : List α
  rxOverflow : Bool
  pc : Pc α
  parser : Parser α
  received : List α
  lost : List α
  /-- the character received last was dropped -/
  gap : Bool
  /-- the lines passed to `execute`, each with its terminator -/
  lines : List (List α × α)
deriving DecidableEq, Repr

inductive Act (α : Type*) where
  | receive (data : List α)
  | test
  | reset
  | get
  | feed
deriving DecidableEq, Repr

def Rx.init {α : Type*} : Rx α := ⟨[], false, .waiting, .reset, [], [], false, []⟩

section Model
variable {α : Type*} (val : α → UInt8) (ringSize lineMax : Nat)

/-- `rzi_at_receive`; `ring_buf_put` stores the longest prefix that fits. -/
def receive (data : List α) (s : Rx α) : Rx α :=
  let written := min (ringSize - s.ring.length) data.length
  { s with
    ring := s.ring ++ data.take written
    rxOverflow := s.rxOverflow || written != data.length
    received := s.received ++ data
    lost := s.lost ++ data.drop written
    gap := if data = [] then s.gap else written != data.length }

/-- One step of the AT thread in `process_input`, or a receive call. -/
def step (s : Rx α) : Act α → Option (Rx α)
  | .receive data => some (receive ringSize data s)
  | .test =>
    match s.pc with
    | .waiting =>
      if s.rxOverflow then some { s with rxOverflow := false, pc := .resetting }
      else some { s with pc := .draining [] }
    | _ => none
  | .reset =>
    match s.pc with
    | .resetting => some { s with parser := .reset, pc := .draining [] }
    | _ => none
  | .get =>
    match s.pc with
    | .draining [] =>
      if s.ring = [] then some { s with pc := .waiting }
      else some { s with ring := s.ring.drop 64, pc := .draining (s.ring.take 64) }
    | _ => none
  | .feed =>
    match s.pc with
    | .draining (c :: buffer) => some { s with
        parser := (At.feed val lineMax s.parser c).1
        lines := s.lines ++ executed val lineMax s.parser c
        pc := .draining buffer }
    | _ => none

end Model

/-! ### Characters with their position -/

/-- A received byte and its position in the input. -/
structure Tok where
  index : Nat
  byte : UInt8
deriving DecidableEq, Repr

def tagFrom : Nat → List UInt8 → List Tok
  | _, [] => []
  | n, b :: data => ⟨n, b⟩ :: tagFrom (n + 1) data

/-- A call on bytes as the call on the same bytes with their positions. -/
def Act.tag (n : Nat) : Act UInt8 → Act Tok
  | .receive data => .receive (tagFrom n data)
  | .test => .test
  | .reset => .reset
  | .get => .get
  | .feed => .feed

def tagStep (ringSize lineMax : Nat) (s : Rx Tok) (a : Act UInt8) : Option (Rx Tok) :=
  step Tok.byte ringSize lineMax s (a.tag s.received.length)

def Pc.erase : Pc Tok → Pc UInt8
  | .waiting => .waiting
  | .resetting => .resetting
  | .draining buffer => .draining (buffer.map Tok.byte)

def Rx.erase (s : Rx Tok) : Rx UInt8 where
  ring := s.ring.map Tok.byte
  rxOverflow := s.rxOverflow
  pc := s.pc.erase
  parser := s.parser.map Tok.byte
  received := s.received.map Tok.byte
  lost := s.lost.map Tok.byte
  gap := s.gap
  lines := s.lines.map (Prod.map (List.map Tok.byte) Tok.byte)

variable {ringSize lineMax : Nat} {s t : Rx Tok}

@[simp] theorem map_byte_tagFrom (n : Nat) (data : List UInt8) :
    (tagFrom n data).map Tok.byte = data := by
  induction data generalizing n with
  | nil => rfl
  | cons b data ih => simp [tagFrom, ih]

@[simp] theorem length_tagFrom (n : Nat) (data : List UInt8) :
    (tagFrom n data).length = data.length := by
  rw [← List.length_map (f := Tok.byte), map_byte_tagFrom]

@[simp] theorem tagFrom_eq_nil {n : Nat} {data : List UInt8} : tagFrom n data = [] ↔ data = [] := by
  rw [← List.length_eq_zero_iff, length_tagFrom, List.length_eq_zero_iff]

theorem erase_receive (n : Nat) (data : List UInt8) :
    (receive ringSize (tagFrom n data) s).erase = receive ringSize data s.erase := by
  simp only [receive, Rx.erase, length_tagFrom, List.length_map, List.map_append, List.map_take,
    List.map_drop, map_byte_tagFrom, tagFrom_eq_nil]

/-- The receive path over bytes is the receive path over positioned bytes, positions forgotten. -/
theorem erase_step (a : Act UInt8) :
    step id ringSize lineMax s.erase a = (tagStep ringSize lineMax s a).map Rx.erase := by
  obtain ⟨ring, overflow, pc, parser, received, lost, gap, lines⟩ := s
  cases a with
  | receive data => simp only [step, tagStep, Act.tag, Option.map_some, erase_receive]
  | test =>
    cases pc with
    | waiting => cases overflow <;> rfl
    | _ => rfl
  | reset => cases pc <;> rfl
  | get =>
    rcases pc with _ | _ | buffer
    · rfl
    · rfl
    rcases buffer with _ | ⟨c, buffer⟩
    · by_cases hr : ring = []
      · simp [step, tagStep, Act.tag, Rx.erase, Pc.erase, hr]
      · simp [step, tagStep, Act.tag, Rx.erase, Pc.erase, hr, List.map_take, List.map_drop]
    · rfl
  | feed =>
    rcases pc with _ | _ | buffer
    · rfl
    · rfl
    rcases buffer with _ | ⟨c, buffer⟩
    · rfl
    · simp [step, tagStep, Act.tag, Rx.erase, Pc.erase, feed_map, executed_map]

theorem erase_run (as : List (Act UInt8)) :
    run (step id ringSize lineMax) s.erase as = (run (tagStep ringSize lineMax) s as).map Rx.erase := by
  induction as generalizing s with
  | nil => rfl
  | cons a as ih =>
    rw [run_cons, run_cons, erase_step]
    cases tagStep ringSize lineMax s a with
    | none => rfl
    | some t => exact ih

end Rzi.At
