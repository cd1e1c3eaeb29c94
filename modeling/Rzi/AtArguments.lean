import Rzi.AtService
import Rzi.Lib.Strtol

/-!
# Numbers in the arguments of AT commands

`parse_long` of `at_network_mode.c`, `rzi_at_lora_parse_long` and `rzi_at_lorawan_parse_long` are one
function, and `respond_ok` is how a handler ends that has called the service. A `long` has `w` bits.
-/

namespace Rzi.At
open Strtol

variable {w : Nat} {argument : List UInt8} {σ : Type*}

def parseLong (w : Nat) (argument : List UInt8) : Except Err Int :=
  let (value, rest) := strtol w 10 argument
  if rest = argument ∨ rest ≠ [] then .error .invalid else .ok value

def respondOk (r : Except Err Unit × σ) : Except Err Answer × σ :=
  match r with
  | (.error e, s) => (.error e, s)
  | (.ok (), s) => (.ok .ok, s)

/-- What follows a number is the whole text only where there is no number. -/
theorem scan_moved {x : Number} {rest : List UInt8} (hscan : scan 10 argument = some (x, rest)) :
    rest ≠ argument := by
  have hlen := scan_length hscan
  rintro rfl
  exact absurd hlen (Nat.lt_irrefl _)

theorem parseLong_ok {v : Int} :
    parseLong w argument = .ok v ↔ ∃ x, Numeral argument x ∧ v = x.long w := by
  unfold parseLong
  cases hscan : scan 10 argument with
  | none =>
    rw [strtol_none hscan]
    dsimp only
    rw [if_pos (.inl rfl)]
    constructor
    · intro h
      cases h
    · rintro ⟨x, hx, -⟩
      cases hscan.symm.trans (scan_numeral hx)
  | some r =>
    obtain ⟨x, rest⟩ := r
    rw [strtol_some hscan]
    dsimp only
    by_cases hrest : rest = []
    · subst hrest
      rw [if_neg (not_or.2 ⟨scan_moved hscan, not_not.2 rfl⟩)]
      constructor
      · intro h
        cases h
        exact ⟨x, numeral_iff.2 hscan, rfl⟩
      · rintro ⟨y, hy, rfl⟩
        cases hscan.symm.trans (scan_numeral hy)
        rfl
    · rw [if_pos (.inr hrest)]
      constructor
      · intro h
        cases h
      · rintro ⟨y, hy, -⟩
        cases hscan.symm.trans (scan_numeral hy)
        exact absurd rfl hrest

theorem parseLong_error (h : ∀ x, ¬ Numeral argument x) : parseLong w argument = .error .invalid := by
  unfold parseLong
  cases hscan : scan 10 argument with
  | none =>
    rw [strtol_none hscan]
    exact if_pos (.inl rfl)
  | some r =>
    obtain ⟨x, rest⟩ := r
    rw [strtol_some hscan]
    refine if_pos (.inr ?_)
    rintro rfl
    exact h x (numeral_iff.2 hscan)

/-- A text that is a number is read as that number, cut to a `long`; every other text is refused. -/
theorem parseLong_cases (w : Nat) (argument : List UInt8) :
    (∃ x, Numeral argument x ∧ (∀ y, Numeral argument y → y = x) ∧
        parseLong w argument = .ok (x.long w)) ∨
      (∀ x, ¬ Numeral argument x) ∧ parseLong w argument = .error .invalid := by
  by_cases hnumeral : ∃ x, Numeral argument x
  · obtain ⟨x, hx⟩ := hnumeral
    exact .inl ⟨x, hx, fun y hy => hy.unique hx, parseLong_ok.2 ⟨x, hx, rfl⟩⟩
  · rw [not_exists] at hnumeral
    exact .inr ⟨hnumeral, parseLong_error hnumeral⟩

theorem two_pow_le (hw : 32 ≤ w) : (2147483648 : Int) ≤ 2 ^ (w - 1) := by
  have hnat : 2 ^ 31 ≤ 2 ^ (w - 1) := Nat.pow_le_pow_right (n := 2) (by decide) (by omega)
  have hint : ((2 ^ 31 : Nat) : Int) ≤ (2 ^ (w - 1) : Nat) := Int.ofNat_le.2 hnat
  rw [Int.natCast_pow] at hint
  exact hint

theorem ofInt_eq {n : Nat} (h : n < 4294967296) : UInt32.ofInt n = UInt32.ofNat n := by
  have hmod : ((n : Int) % 2 ^ 32).toNat = n := by omega
  rw [UInt32.ofInt, hmod]

theorem separates_colon : Separates 0x3a := by
  unfold Separates
  decide

end Rzi.At
