import Mathlib.Algebra.Group.Nat.Defs
import Mathlib.Data.List.TakeWhile

/-!
# Arrays and strings in memory

An object in memory is the list of its bytes, less than 2 ^ w of them for a `size_t` of `w` bits. A
`CBuffer` has the room that its user is promised, a `CString` has a terminator. `overwrite` is what a
loop leaves that writes one element after the other.
-/

namespace CArray

section Overwrite
variable {α : Type*} {cells xs : List α} {i n : Nat}

/-- `xs` written from `i` on; what does not fit is dropped. -/
def overwrite : List α → Nat → List α → List α
  | cells, _, [] => cells
  | cells, i, x :: xs => overwrite (cells.set i x) (i + 1) xs

@[simp] theorem overwrite_length (cells : List α) (i : Nat) (xs : List α) :
    (overwrite cells i xs).length = cells.length := by
  induction xs generalizing cells i with
  | nil => rfl
  | cons x xs ih => rw [overwrite, ih, List.length_set]

theorem overwrite_append (cells : List α) (i : Nat) (xs ys : List α) :
    overwrite cells i (xs ++ ys) = overwrite (overwrite cells i xs) (i + xs.length) ys := by
  induction xs generalizing cells i with
  | nil => rfl
  | cons x xs ih =>
    have hi : i + 1 + xs.length = i + (x :: xs).length := by
      rw [List.length_cons]
      omega
    rw [List.cons_append, overwrite, overwrite, ih, hi]

/-- The elements before and after the written ones stay. -/
theorem overwrite_eq (h : i + xs.length ≤ cells.length) :
    overwrite cells i xs = cells.take i ++ xs ++ cells.drop (i + xs.length) := by
  induction xs generalizing cells i with
  | nil => simp [overwrite]
  | cons x xs ih =>
    rw [List.length_cons] at h
    have hfit : i + 1 + xs.length ≤ (cells.set i x).length := by
      rw [List.length_set]
      omega
    have hi : i < (cells.set i x).length := by omega
    have htake : (cells.set i x).take (i + 1) = cells.take i ++ [x] := by
      rw [List.take_succ_eq_append_getElem hi, List.getElem_set_self, List.take_set_of_le (Nat.le_refl i)]
    have hdrop : (cells.set i x).drop (i + 1 + xs.length) = cells.drop (i + (x :: xs).length) := by
      rw [List.drop_set_of_lt (by omega), List.length_cons]
      congr 1
      omega
    rw [overwrite, ih hfit, htake, hdrop]
    simp

theorem overwrite_zero (h : xs.length ≤ cells.length) :
    overwrite cells 0 xs = xs ++ cells.drop xs.length := by
  rw [overwrite_eq (by omega)]
  simp

theorem drop_overwrite (h : i + xs.length ≤ n) : (overwrite cells i xs).drop n = cells.drop n := by
  induction xs generalizing cells i with
  | nil => rfl
  | cons x xs ih =>
    rw [List.length_cons] at h
    rw [overwrite, ih (by omega), List.drop_set_of_lt (by omega)]

end Overwrite

/-- An array with room for `n` bytes. -/
structure CBuffer (w n : Nat) where
  cells : List UInt8
  room : n ≤ cells.length
  addressable : cells.length < 2 ^ w

/-- An array with a NUL. -/
structure CString (w : Nat) where
  cells : List UInt8
  terminated : 0 ∈ cells
  addressable : cells.length < 2 ^ w

variable {w n : Nat}

namespace CBuffer
variable (b : CBuffer w n)

def get (i : Nat) : UInt8 := b.cells.getD i 0

def set (i : Nat) (x : UInt8) : CBuffer w n where
  cells := b.cells.set i x
  room := by rw [List.length_set]; exact b.room
  addressable := by rw [List.length_set]; exact b.addressable

def overwrite (i : Nat) (xs : List UInt8) : CBuffer w n where
  cells := CArray.overwrite b.cells i xs
  room := by rw [overwrite_length]; exact b.room
  addressable := by rw [overwrite_length]; exact b.addressable

/-- The bytes that the user is promised. -/
def bytes : List UInt8 := b.cells.take n

/-- The string that a NUL at `i` makes of the array. -/
def terminate (i : Nat) (hi : i < n) : CString w where
  cells := b.cells.set i 0
  terminated := List.mem_set (Nat.lt_of_lt_of_le hi b.room) 0
  addressable := by rw [List.length_set]; exact b.addressable

variable {b} {i : Nat} {xs : List UInt8}

@[simp] theorem overwrite_cells : (b.overwrite i xs).cells = CArray.overwrite b.cells i xs := rfl

theorem overwrite_cons (x : UInt8) : b.overwrite i (x :: xs) = (b.set i x).overwrite (i + 1) xs := rfl

@[simp] theorem bytes_length : b.bytes.length = n := List.length_take_of_le b.room

theorem size_lt (b : CBuffer w n) : n < 2 ^ w := Nat.lt_of_le_of_lt b.room b.addressable

theorem drop_bytes (hi : i < n) : b.bytes.drop i = b.get i :: b.bytes.drop (i + 1) := by
  have hlen : i < b.bytes.length := by rw [bytes_length]; exact hi
  have hget : b.get i = b.bytes[i] := by
    have hcells : i < b.cells.length := Nat.lt_of_lt_of_le hi b.room
    rw [get, List.getD_eq_getElem?_getD, List.getElem?_eq_getElem hcells]
    exact List.getElem_take.symm
  rw [List.drop_eq_getElem_cons hlen, hget]

theorem overwrite_bytes (h : xs.length = n) : (b.overwrite 0 xs).bytes = xs := by
  have hroom := b.room
  rw [bytes, overwrite_cells, overwrite_zero (by omega)]
  exact List.take_left' h

end CBuffer

namespace CString
variable (s : CString w)

/-- The bytes before the NUL. -/
def chars : List UInt8 := s.cells.takeWhile (· != 0)

def strlen : Nat := s.chars.length

def get (i : Nat) : UInt8 := s.cells.getD i 0

variable {s} {i : Nat} {text rest : List UInt8}

theorem cells_eq (s : CString w) : ∃ rest, s.cells = s.chars ++ 0 :: rest := by
  have hsplit := List.takeWhile_append_dropWhile (p := (· != 0)) (l := s.cells)
  have hhead := List.head?_dropWhile_not (· != 0) s.cells
  rcases h : s.cells.dropWhile (· != 0) with - | ⟨c, rest⟩
  · have hzero := List.dropWhile_eq_nil_iff.1 h 0 s.terminated
    cases hzero
  · rw [h] at hsplit hhead
    have hc : c = 0 := by simpa using hhead
    exact ⟨rest, by rw [← hc, chars, hsplit]⟩

theorem strlen_lt (s : CString w) : s.strlen < 2 ^ w := by
  obtain ⟨rest, h⟩ := s.cells_eq
  have haddr := s.addressable
  rw [h, List.length_append] at haddr
  exact Nat.lt_of_le_of_lt (Nat.le_add_right _ _) haddr

/-- Up to its NUL a string is read as its characters. -/
theorem get_eq (hi : i ≤ s.chars.length) : s.get i = (s.chars.drop i).headD 0 := by
  obtain ⟨rest, h⟩ := s.cells_eq
  rw [get, List.getD_eq_getElem?_getD, ← List.head?_drop, h, List.drop_append_of_le_length hi]
  rcases s.chars.drop i with - | ⟨c, chars⟩ <;> rfl

theorem chars_eq (h : s.cells = text ++ 0 :: rest) (h0 : 0 ∉ text) : s.chars = text := by
  rw [chars, h, List.takeWhile_append_of_pos]
  · simp
  · intro c hc
    simp only [bne_iff_ne]
    rintro rfl
    exact h0 hc

end CString

end CArray
