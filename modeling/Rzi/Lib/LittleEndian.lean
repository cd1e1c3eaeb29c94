import Mathlib.Data.List.Basic
import Mathlib.Tactic.Ring

/-!
# Little-endian byte strings

`putLe k n` is the `k` low bytes of `n`, least significant first; `getLe` reads a byte string back.
-/

namespace LittleEndian

def putLe : Nat → Nat → List UInt8
  | 0, _ => []
  | k + 1, n => UInt8.ofNat n :: putLe k (n / 256)

def getLe : List UInt8 → Nat
  | [] => 0
  | b :: bs => b.toNat + 256 * getLe bs

@[simp] theorem length_putLe (k n : Nat) : (putLe k n).length = k := by
  induction k generalizing n with
  | zero => rfl
  | succ k ih => simp [putLe, ih]

theorem getLe_putLe (k n : Nat) : getLe (putLe k n) = n % 256 ^ k := by
  induction k generalizing n with
  | zero => simp [putLe, getLe, Nat.mod_one]
  | succ k ih =>
    have hb : (UInt8.ofNat n).toNat = n % 256 := by simp
    rw [putLe, getLe, ih, hb, Nat.pow_succ', Nat.mod_mul]

theorem getLe_putLe_of_lt {k n : Nat} (h : n < 256 ^ k) : getLe (putLe k n) = n := by
  rw [getLe_putLe, Nat.mod_eq_of_lt h]

theorem getLe_lt (bs : List UInt8) : getLe bs < 256 ^ bs.length := by
  induction bs with
  | nil => exact Nat.one_pos
  | cons b bs ih =>
    have hb := b.toNat_lt
    rw [getLe, List.length_cons, Nat.pow_succ']
    omega

theorem putLe_getLe (bs : List UInt8) : putLe bs.length (getLe bs) = bs := by
  induction bs with
  | nil => rfl
  | cons b bs ih =>
    have hb := b.toNat_lt
    have hdiv : (b.toNat + 256 * getLe bs) / 256 = getLe bs := by omega
    have hmod : UInt8.ofNat (b.toNat + 256 * getLe bs) = b := by
      apply UInt8.toNat_inj.1
      rw [UInt8.toNat_ofNat']
      omega
    rw [List.length_cons, getLe, putLe, hdiv, hmod, ih]

end LittleEndian
