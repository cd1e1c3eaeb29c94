import Mathlib.Logic.Function.Iterate
import Mathlib.Data.List.Basic

/-!
# Reflected cyclic redundancy checks

`Crc.step` is one division step of a reflected CRC of width `w`, `Crc.feed` takes a list of symbols of
`k` bits into the remainder. For a polynomial with its top bit set a step is injective, so what a symbol
changed stays changed; and a burst of symbols of at most `w` bits is packed into the remainder as it is
(`feed_burst`), so two different bursts leave different remainders.
-/

namespace Crc

variable {w k : Nat} {poly : BitVec w}

/-- One step: the remainder moves down one bit, and the polynomial is subtracted if that bit was set. -/
def step (poly c : BitVec w) : BitVec w :=
  if c.getLsbD 0 then (c >>> 1) ^^^ poly else c >>> 1

/-- A symbol goes into the low bits of the remainder, then one step a bit. -/
def symbol (poly c : BitVec w) (x : BitVec k) : BitVec w := (step poly)^[k] (c ^^^ x.setWidth w)

def feed (poly c : BitVec w) (xs : List (BitVec k)) : BitVec w := xs.foldl (symbol poly) c

/-- The symbols side by side, the first one lowest. -/
def pack (w : Nat) : List (BitVec k) → BitVec w
  | [] => 0#w
  | x :: xs => x.setWidth w ^^^ (pack w xs <<< k)

/-! ### Steps -/

theorem xor_xor_xor_comm (a b c d : BitVec w) : (a ^^^ b) ^^^ (c ^^^ d) = (a ^^^ c) ^^^ (b ^^^ d) := by
  rw [BitVec.xor_assoc, ← BitVec.xor_assoc b, BitVec.xor_comm b, BitVec.xor_assoc c,
    ← BitVec.xor_assoc]

theorem step_xor (a b : BitVec w) : step poly (a ^^^ b) = step poly a ^^^ step poly b := by
  unfold step
  rw [BitVec.getLsbD_xor, BitVec.ushiftRight_xor_distrib]
  cases a.getLsbD 0 <;> cases b.getLsbD 0 <;>
    simp only [Bool.false_xor, Bool.true_xor, Bool.xor_false, Bool.not_true, if_true,
      Bool.false_eq_true, if_false]
  · rw [BitVec.xor_assoc]
  · rw [BitVec.xor_assoc, BitVec.xor_assoc, BitVec.xor_comm poly]
  · rw [xor_xor_xor_comm, BitVec.xor_self, BitVec.xor_zero]

theorem iterate_step_xor (n : Nat) (a b : BitVec w) :
    (step poly)^[n] (a ^^^ b) = (step poly)^[n] a ^^^ (step poly)^[n] b := by
  induction n generalizing a b with
  | zero => rfl
  | succ n ih => simp only [Function.iterate_succ_apply, step_xor, ih]

/-- With the top bit of the polynomial set, only the remainder 0 is stepped to 0. -/
theorem step_eq_zero (hpoly : poly.msb = true) {c : BitVec w} (h : step poly c = 0#w) : c = 0#w := by
  unfold step at h
  split at h
  · -- the top bit of the result is the one of the polynomial
    have hmsb := congrArg BitVec.msb h
    rw [BitVec.msb_xor, hpoly] at hmsb
    simp at hmsb
  · rename_i h0
    apply BitVec.eq_of_getLsbD_eq
    intro i hi
    rw [BitVec.getLsbD_zero]
    cases i with
    | zero => simpa using h0
    | succ i =>
      have hbit := congrArg (fun x : BitVec w => x.getLsbD i) h
      simp only [BitVec.getLsbD_ushiftRight, BitVec.getLsbD_zero] at hbit
      rwa [Nat.add_comm 1 i] at hbit

theorem step_injective (hpoly : poly.msb = true) : Function.Injective (step poly) := by
  intro a b h
  rw [← BitVec.xor_eq_zero_iff]
  refine step_eq_zero hpoly ?_
  rw [step_xor, h, BitVec.xor_self]

/-- `y` has no bit from `n` on. -/
def Fits (n : Nat) (y : BitVec w) : Prop := ∀ i, n ≤ i → y.getLsbD i = false

theorem Fits.mono {m n : Nat} {y : BitVec w} (h : Fits m y) (hmn : m ≤ n) : Fits n y :=
  fun i hi => h i (Nat.le_trans hmn hi)

theorem fits_zero (n : Nat) : Fits n (0#w) := fun _ _ => BitVec.getLsbD_zero

theorem fits_setWidth (x : BitVec k) : Fits k (x.setWidth w) := by
  intro i hi
  simp [BitVec.getLsbD_of_ge x i hi]

theorem Fits.xor {n : Nat} {a b : BitVec w} (ha : Fits n a) (hb : Fits n b) : Fits n (a ^^^ b) := by
  intro i hi
  rw [BitVec.getLsbD_xor, ha i hi, hb i hi, Bool.xor_false]

theorem Fits.shiftLeft {n : Nat} {y : BitVec w} (h : Fits n y) (m : Nat) : Fits (m + n) (y <<< m) := by
  intro i hi
  rw [BitVec.getLsbD_shiftLeft, h (i - m) (by omega), Bool.and_false]

theorem Fits.shiftLeft_ushiftRight {n : Nat} {y : BitVec w} (hy : Fits (w - n) y) :
    (y <<< n) >>> n = y := by
  apply BitVec.eq_of_getLsbD_eq
  intro i hi
  rw [BitVec.getLsbD_ushiftRight, BitVec.getLsbD_shiftLeft]
  by_cases hlast : n + i < w
  · simp [hlast]
  · rw [hy i (by omega)]
    simp [hlast]

/-- A remainder whose low bit is clear only moves down. -/
theorem step_shiftLeft {y : BitVec w} (hy : Fits (w - 1) y) : step poly (y <<< 1) = y := by
  have h0 : (y <<< 1).getLsbD 0 = false := by simp
  rw [step, h0, if_neg Bool.false_ne_true, hy.shiftLeft_ushiftRight]

theorem iterate_step_shiftLeft (n : Nat) {y : BitVec w} (hy : Fits (w - n) y) :
    (step poly)^[n] (y <<< n) = y := by
  induction n with
  | zero => exact BitVec.shiftLeft_zero y
  | succ n ih =>
    have hlow : Fits (w - 1) (y <<< n) := by
      intro i hi
      rw [BitVec.getLsbD_shiftLeft]
      by_cases hn : i < n
      · simp [hn]
      · rw [hy (i - n) (by omega), Bool.and_false]
    rw [BitVec.shiftLeft_add, Function.iterate_succ_apply, step_shiftLeft hlow]
    exact ih (hy.mono (by omega))

/-! ### Bursts -/

theorem feed_append (c : BitVec w) (xs ys : List (BitVec k)) :
    feed poly c (xs ++ ys) = feed poly (feed poly c xs) ys := List.foldl_append

theorem symbol_injective (hpoly : poly.msb = true) (x : BitVec k) :
    Function.Injective fun c => symbol poly c x := by
  intro a b h
  have hxor := (step_injective hpoly).iterate k h
  exact (BitVec.xor_left_inj _).1 hxor

/-- What differs before the symbols `xs` differs after them. -/
theorem feed_injective (hpoly : poly.msb = true) (xs : List (BitVec k)) :
    Function.Injective fun c => feed poly c xs := by
  induction xs with
  | nil => exact fun a b h => h
  | cons x xs ih => exact fun a b h => symbol_injective hpoly x (ih h)

theorem fits_pack (xs : List (BitVec k)) : Fits (k * xs.length) (pack w xs) := by
  induction xs with
  | nil => exact fits_zero _
  | cons x xs ih =>
    refine Fits.xor ((fits_setWidth x).mono ?_) ((ih.shiftLeft k).mono ?_)
    · rw [List.length_cons, Nat.mul_succ]
      omega
    · rw [List.length_cons, Nat.mul_succ]
      omega

/-- Symbols of at most `w` bits can be read off their packing. -/
theorem pack_injective {xs ys : List (BitVec k)} (hlen : xs.length = ys.length)
    (hw : k * xs.length ≤ w) (h : pack w xs = pack w ys) : xs = ys := by
  induction xs generalizing ys with
  | nil => exact (List.length_eq_zero_iff.1 hlen.symm).symm
  | cons x xs ih =>
    cases ys with
    | nil => cases hlen
    | cons y ys =>
      rw [List.length_cons, Nat.mul_succ] at hw
      have hbit (i : Nat) := congrArg (fun z : BitVec w => z.getLsbD i) h
      simp only [pack, BitVec.getLsbD_xor, BitVec.getLsbD_setWidth, BitVec.getLsbD_shiftLeft] at hbit
      have hxy : x = y := by
        apply BitVec.eq_of_getLsbD_eq
        intro i hi
        have := hbit i
        simpa [hi, show i < w by omega] using this
      subst hxy
      have hlen' : xs.length = ys.length := by simpa using hlen
      have hxs : Fits (w - k) (pack w xs) := (fits_pack xs).mono (by omega)
      have hys : Fits (w - k) (pack w ys) := (fits_pack ys).mono (by rw [← hlen']; omega)
      have htail : pack w xs = pack w ys := by
        have hshift := (BitVec.xor_right_inj _).1 h
        rw [← hxs.shiftLeft_ushiftRight, hshift, hys.shiftLeft_ushiftRight]
      rw [ih hlen' (by omega) htail]

/-- If two words of at most `w` bits lead to one remainder, their packings differ by what the remainders
before them differ by. -/
theorem feed_burst (hpoly : poly.msb = true) {xs ys : List (BitVec k)} (hlen : xs.length = ys.length)
    (hw : k * xs.length ≤ w) {c d : BitVec w} (h : feed poly c xs = feed poly d ys) :
    c ^^^ d = pack w xs ^^^ pack w ys := by
  induction xs generalizing ys c d with
  | nil =>
    rw [List.length_eq_zero_iff.1 hlen.symm] at h ⊢
    rw [show c = d from h, BitVec.xor_self, BitVec.xor_self]
  | cons x xs ih =>
    cases ys with
    | nil => cases hlen
    | cons y ys =>
      have hlen' : xs.length = ys.length := by simpa using hlen
      rw [List.length_cons, Nat.mul_succ] at hw
      have hrest := ih hlen' (by omega) h
      -- the difference after the first symbol, moved up by `k`, is the one before its steps
      have hfits : Fits (w - k) (pack w xs ^^^ pack w ys) :=
        ((fits_pack xs).mono (by omega)).xor ((fits_pack ys).mono (by rw [← hlen']; omega))
      rw [← @iterate_step_shiftLeft w poly k _ hfits, symbol, symbol, ← iterate_step_xor] at hrest
      have hdiff := (step_injective hpoly).iterate k hrest
      rw [BitVec.shiftLeft_xor_distrib, xor_xor_xor_comm] at hdiff
      rw [pack, pack, xor_xor_xor_comm, ← hdiff, BitVec.xor_comm (c ^^^ d), ← BitVec.xor_assoc,
        BitVec.xor_self, BitVec.zero_xor]

/-- **Bursts are detected.** Two lists that differ only inside a stretch of at most `w` bits leave
different remainders. -/
theorem feed_burst_ne (hpoly : poly.msb = true) (c : BitVec w) (before after : List (BitVec k))
    {xs ys : List (BitVec k)} (hlen : xs.length = ys.length) (hw : k * xs.length ≤ w) (hne : xs ≠ ys) :
    feed poly c (before ++ xs ++ after) ≠ feed poly c (before ++ ys ++ after) := by
  intro h
  simp only [feed_append] at h
  have hxor := feed_burst hpoly hlen hw (feed_injective hpoly after h)
  rw [BitVec.xor_self] at hxor
  exact hne (pack_injective hlen hw (BitVec.xor_eq_zero_iff.1 hxor.symm))

end Crc
