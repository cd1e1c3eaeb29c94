import Mathlib.Data.List.Basic

/-!
# Text lines

`Lines.lines` takes a byte string apart at its CR LF pairs; a CR or an LF alone is part of a line. A
text that ends with a pair has an empty last line.
-/

namespace Lines

def crLf : List UInt8 := [0x0d, 0x0a]

def lines : List UInt8 → List (List UInt8)
  | [] => [[]]
  | 0x0d :: 0x0a :: bs => [] :: lines bs
  | b :: bs => (lines bs).modifyHead (b :: ·)

theorem lines_ne_nil (bs : List UInt8) : lines bs ≠ [] := by
  induction bs using lines.induct with
  | case1 => simp [lines]
  | case2 bs ih => simp [lines]
  | case3 b bs hne ih =>
    rw [lines]
    · simpa using ih
    · exact hne

theorem lines_crLf (bs : List UInt8) : lines (crLf ++ bs) = [] :: lines bs := by
  simp [crLf, lines]

/-- A pair ends a line whatever stands before it: a CR in front of it begins no pair. -/
theorem lines_append_crLf (as bs : List UInt8) : lines (as ++ (crLf ++ bs)) = lines as ++ lines bs := by
  induction as using lines.induct with
  | case1 => simp [lines, lines_crLf]
  | case2 as ih => simp [lines, ih]
  | case3 a as hne ih =>
    have hne' : ∀ rest, a = 0x0d → as ++ (crLf ++ bs) = 0x0a :: rest → False := by
      intro rest ha hrest
      cases as with
      | nil => simp [crLf] at hrest
      | cons b as =>
        rw [List.cons_append] at hrest
        exact hne as ha (by rw [(List.cons.inj hrest).1])
    rw [List.cons_append, lines, ih, lines]
    · obtain ⟨l, ls, hls⟩ := List.exists_cons_of_ne_nil (lines_ne_nil as)
      rw [hls]
      rfl
    · exact hne
    · exact hne'

/-- A text without an LF is one line. -/
theorem lines_of_not_mem {bs : List UInt8} (h : (0x0a : UInt8) ∉ bs) : lines bs = [bs] := by
  induction bs using lines.induct with
  | case1 => rfl
  | case2 bs ih => simp at h
  | case3 b bs hne ih =>
    rw [lines, ih fun hmem => h (List.mem_cons_of_mem _ hmem)]
    · rfl
    · exact hne

end Lines
