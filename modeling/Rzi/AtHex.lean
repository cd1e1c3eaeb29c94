import Rzi.AtDownlink
import Rzi.AtSend
import Rzi.Lib.CArray
import Rzi.Lib.DigitPairs
import Mathlib.Data.Int.Bitwise
import Mathlib.Data.Nat.Bitwise

/-!
# Hexadecimal text (`commands/lorawan/at_lorawan.c`, `commands/lora/at_lora.c`)

Keys, addresses and payloads are written and read by two loops over arrays, of which each of the two
files has a copy. `hexToBin_reads` and `binToHex_cells` say what the loops leave in the arrays, in terms
of the codec of `DigitPairs` with the sixteen digits. `hex_codec` says how the two directions and the
two copies belong together. The arrays of a call do not overlap.
-/

namespace Rzi.At.Hex
open CArray DigitPairs
open Strtol (isDigit)

variable {w n : Nat}

theorem end_lt (len w : Nat) : len * 2 % 2 ^ w < 2 * len + 1 := by
  have hle := Nat.mod_le (len * 2) (2 ^ w)
  omega

/-! ### `at_lorawan.c` -/

namespace Lorawan

def hexNibble (value : UInt8) : Int :=
  if 0x30 ≤ value ∧ value ≤ 0x39 then value.toNat - 0x30
  else if 0x41 ≤ value ∧ value ≤ 0x46 then value.toNat - 0x41 + 10
  else if 0x61 ≤ value ∧ value ≤ 0x66 then value.toNat - 0x61 + 10
  else -1

/-- The loop of `rzi_at_lorawan_hex_to_bin` from `i` on, with `left` turns to go. -/
def hexToBinLoop (hex : CString w) : Nat → Nat → CBuffer w n → Int × CBuffer w n
  | _, 0, out => (0, out)
  | i, left + 1, out =>
    let high := hexNibble (hex.get (i * 2 % 2 ^ w))
    let low := hexNibble (hex.get ((i * 2 % 2 ^ w + 1) % 2 ^ w))
    if high < 0 ∨ low < 0 then (Err.invalid.rc, out)
    else hexToBinLoop hex (i + 1) left (out.set i (UInt8.ofInt (Int.lor (high <<< (4 : Nat)) low)))

def hexToBin (hex : CString w) (outLen : Nat) (out : CBuffer w outLen) : Int × CBuffer w outLen :=
  let len := hex.strlen
  if len ≠ outLen * 2 % 2 ^ w then (Err.invalid.rc, out) else hexToBinLoop hex 0 outLen out

def digits : List UInt8 := ascii "0123456789ABCDEF"

/-- The loop of `rzi_at_lorawan_bin_to_hex` from `i` on, with `left` turns to go. -/
def binToHexLoop {len : Nat} (data : CBuffer w len) :
    Nat → Nat → CBuffer w (2 * len + 1) → CBuffer w (2 * len + 1)
  | _, 0, out => out
  | i, left + 1, out =>
    let out := out.set (i * 2 % 2 ^ w) (digits.getD (data.get i >>> 4).toNat 0)
    let out := out.set ((i * 2 % 2 ^ w + 1) % 2 ^ w) (digits.getD (data.get i &&& 0x0f).toNat 0)
    binToHexLoop data (i + 1) left out

/-- The string that `rzi_at_lorawan_bin_to_hex` leaves in `out`. -/
def binToHex {len : Nat} (data : CBuffer w len) (out : CBuffer w (2 * len + 1)) : CString w :=
  (binToHexLoop data 0 len out).terminate (len * 2 % 2 ^ w) (end_lt len w)

end Lorawan

/-! ### `at_lora.c` -/

namespace Lora

def hexNibble (value : UInt8) : Int :=
  if 0x30 ≤ value ∧ value ≤ 0x39 then value.toNat - 0x30
  else if 0x41 ≤ value ∧ value ≤ 0x46 then value.toNat - 0x41 + 10
  else if 0x61 ≤ value ∧ value ≤ 0x66 then value.toNat - 0x61 + 10
  else -1

/-- The loop of `rzi_at_lora_hex_to_bin` from `i` on, with `left` turns to go. -/
def hexToBinLoop (hex : CString w) : Nat → Nat → CBuffer w n → Int × CBuffer w n
  | _, 0, out => (0, out)
  | i, left + 1, out =>
    let high := hexNibble (hex.get (i * 2 % 2 ^ w))
    let low := hexNibble (hex.get ((i * 2 % 2 ^ w + 1) % 2 ^ w))
    if high < 0 ∨ low < 0 then (Err.invalid.rc, out)
    else hexToBinLoop hex (i + 1) left (out.set i (UInt8.ofInt (Int.lor (high <<< (4 : Nat)) low)))

def hexToBin (hex : CString w) (outLen : Nat) (out : CBuffer w outLen) : Int × CBuffer w outLen :=
  let len := hex.strlen
  if len ≠ outLen * 2 % 2 ^ w then (Err.invalid.rc, out) else hexToBinLoop hex 0 outLen out

def digits : List UInt8 := ascii "0123456789ABCDEF"

/-- The loop of `rzi_at_lora_bin_to_hex` from `i` on, with `left` turns to go. -/
def binToHexLoop {len : Nat} (data : CBuffer w len) :
    Nat → Nat → CBuffer w (2 * len + 1) → CBuffer w (2 * len + 1)
  | _, 0, out => out
  | i, left + 1, out =>
    let out := out.set (i * 2 % 2 ^ w) (digits.getD (data.get i >>> 4).toNat 0)
    let out := out.set ((i * 2 % 2 ^ w + 1) % 2 ^ w) (digits.getD (data.get i &&& 0x0f).toNat 0)
    binToHexLoop data (i + 1) left out

/-- The string that `rzi_at_lora_bin_to_hex` leaves in `out`. -/
def binToHex {len : Nat} (data : CBuffer w len) (out : CBuffer w (2 * len + 1)) : CString w :=
  (binToHexLoop data 0 len out).terminate (len * 2 % 2 ^ w) (end_lt len w)

end Lora

/-! ### The sixteen digits -/

/-- The digits of either case; the upper one is written. -/
def hexDigits : Alphabet UInt8 (Fin 16) where
  value c := if h : Strtol.digit c < 16 then some ⟨Strtol.digit c, h⟩ else none
  digit v := UInt8.ofNat (if v.val < 10 then 0x30 + v else 0x41 + (v - 10))
  value_digit := by decide

/-- The halves of a byte. -/
def halves : UInt8 ≃ Fin 16 × Fin 16 where
  toFun b := (⟨b.toNat / 16, by have := b.toNat_lt; omega⟩, ⟨b.toNat % 16, by omega⟩)
  invFun p := UInt8.ofNat (16 * p.1 + p.2)
  left_inv b := by
    have hb := b.toNat_lt
    apply UInt8.toNat_inj.1
    rw [UInt8.toNat_ofNat']
    dsimp only
    omega
  right_inv p := by
    obtain ⟨h, l⟩ := p
    have hlt : (UInt8.ofNat (16 * h + l)).toNat = 16 * h + l := by
      rw [UInt8.toNat_ofNat']
      omega
    ext
    · dsimp only
      omega
    · dsimp only
      omega

theorem value_eq_some {c : UInt8} {v : Fin 16} :
    hexDigits.value c = some v ↔ Strtol.digit c = v.val := by
  have hv := v.isLt
  dsimp only [hexDigits]
  split
  · rw [Option.some.injEq, Fin.ext_iff]
  · constructor
    · intro h
      cases h
    · omega

theorem value_eq_none {c : UInt8} : hexDigits.value c = none ↔ 16 ≤ Strtol.digit c := by
  rw [Option.eq_none_iff_forall_ne_some]
  constructor
  · intro h
    by_contra hlt
    exact h ⟨_, not_le.1 hlt⟩ (value_eq_some.2 rfl)
  · intro hge v hv
    have := value_eq_some.1 hv
    omega

theorem isDigit_iff {c : UInt8} : isDigit 16 c = true ↔ ∃ v, hexDigits.value c = some v := by
  simp only [value_eq_some, isDigit, decide_eq_true_eq]
  constructor
  · intro h
    exact ⟨⟨_, h⟩, rfl⟩
  · rintro ⟨v, hv⟩
    omega

/-- The three ranges of digits. -/
theorem digit_cases (c : UInt8) :
    ((0x30 ≤ c ∧ c ≤ 0x39) ∧ Strtol.digit c = c.toNat - 0x30) ∨
      ((0x41 ≤ c ∧ c ≤ 0x46) ∧ Strtol.digit c = c.toNat - 0x41 + 10) ∨
      ((0x61 ≤ c ∧ c ≤ 0x66) ∧ Strtol.digit c = c.toNat - 0x61 + 10) ∨
      (¬ (0x30 ≤ c ∧ c ≤ 0x39) ∧ ¬ (0x41 ≤ c ∧ c ≤ 0x46) ∧ ¬ (0x61 ≤ c ∧ c ≤ 0x66) ∧
        16 ≤ Strtol.digit c) := by
  unfold Strtol.digit
  simp only [UInt8.le_iff_toNat_le, UInt8.reduceToNat]
  split_ifs <;> omega

theorem hexNibble_eq (c : UInt8) :
    Lorawan.hexNibble c = if Strtol.digit c < 16 then (Strtol.digit c : Int) else -1 := by
  have hc := digit_cases c
  unfold Lorawan.hexNibble
  simp only [UInt8.le_iff_toNat_le, UInt8.reduceToNat] at *
  split_ifs <;> omega

theorem hexNibble_some {c : UInt8} {v : Fin 16} (h : hexDigits.value c = some v) :
    Lorawan.hexNibble c = v.val := by
  rw [hexNibble_eq, value_eq_some.1 h, if_pos v.isLt]

theorem hexNibble_none {c : UInt8} (h : hexDigits.value c = none) : Lorawan.hexNibble c = -1 := by
  rw [hexNibble_eq, if_neg (not_lt.2 (value_eq_none.1 h))]

theorem upper_toNat (c : UInt8) :
    (upper c).toNat = if 0x61 ≤ c.toNat ∧ c.toNat ≤ 0x7a then c.toNat - 0x20 else c.toNat := by
  unfold upper
  simp only [UInt8.le_iff_toNat_le, UInt8.reduceToNat]
  split
  · rw [UInt8.toNat_sub_of_le _ _ (UInt8.le_iff_toNat_le.2 (by simp only [UInt8.reduceToNat]; omega))]
    rfl
  · rfl

/-- A digit is written in upper case. -/
theorem normal_eq_upper {c : UInt8} (h : isDigit 16 c = true) : hexDigits.normal c = upper c := by
  obtain ⟨v, hv⟩ := isDigit_iff.1 h
  rw [hexDigits.normal_of_value hv]
  have hdigit := value_eq_some.1 hv
  have hc := digit_cases c
  have hupper := upper_toNat c
  have hdigits : (hexDigits.digit v).toNat = if v.val < 10 then 0x30 + v.val else 0x41 + (v.val - 10) := by
    dsimp only [hexDigits]
    rw [UInt8.toNat_ofNat']
    split <;> omega
  apply UInt8.toNat_inj.1
  rw [hdigits, hupper]
  simp only [UInt8.le_iff_toNat_le, UInt8.reduceToNat] at hc
  split_ifs <;> omega

theorem or_halves (h l : Fin 16) : h.val <<< 4 ||| l.val = 16 * h.val + l.val := by
  rw [← Nat.shiftLeft_add_eq_or_of_lt (i := 4) l.isLt, Nat.shiftLeft_eq]
  omega

theorem byte_eq (h l : Fin 16) :
    UInt8.ofInt (Int.lor ((h.val : Int) <<< (4 : Nat)) l.val) = halves.symm (h, l) := by
  have hor : Int.lor ((h.val : Int) <<< (4 : Nat)) l.val = ((16 * h.val + l.val : Nat) : Int) := by
    rw [← or_halves]
    rfl
  have hmod : (((16 * h.val + l.val : Nat) : Int) % 2 ^ 8).toNat = 16 * h.val + l.val := by omega
  rw [hor, UInt8.ofInt, hmod]
  rfl

theorem digits_eq : ∀ v : Fin 16, Lorawan.digits.getD v.val 0 = hexDigits.digit v := by decide

theorem digits_high (b : UInt8) :
    Lorawan.digits.getD (b >>> 4).toNat 0 = hexDigits.digit (halves b).1 := by
  have hv : (b >>> 4).toNat = (halves b).1.val := by
    rw [UInt8.toNat_shiftRight]
    exact Nat.shiftRight_eq_div_pow _ _
  rw [hv, digits_eq]

theorem digits_low (b : UInt8) :
    Lorawan.digits.getD (b &&& 0x0f).toNat 0 = hexDigits.digit (halves b).2 := by
  have hv : (b &&& 0x0f).toNat = (halves b).2.val := by
    rw [UInt8.toNat_and]
    exact Nat.and_two_pow_sub_one_eq_mod _ 4
  rw [hv, digits_eq]

/-! ### Reading -/

/-- `r` is what reading `text` leaves that `left` turns are to fill `out` with from `i` on: the bytes of
the text, or INVALID and some of them. -/
def Reads (text : List UInt8) (i left : Nat) (out : CBuffer w n) (r : Int × CBuffer w n) : Prop :=
  ∃ bytes, bytes.length ≤ left ∧
    ((r = (0, out.overwrite i bytes) ∧ text.length = 2 * left ∧
        decode hexDigits halves text = some bytes) ∨
      (r = (Err.invalid.rc, out.overwrite i bytes) ∧
        (text.length = 2 * left → decode hexDigits halves text = none)))

namespace Reads
variable {i left : Nat} {out : CBuffer w n} {r : Int × CBuffer w n} {high low : UInt8}
  {text rest bytes : List UInt8} {h l : Fin 16}

theorem nil (out : CBuffer w n) (i : Nat) : Reads [] i 0 out (0, out) :=
  ⟨[], Nat.le_refl 0, .inl ⟨rfl, rfl, rfl⟩⟩

theorem invalid (hd : text.length = 2 * left → decode hexDigits halves text = none) :
    Reads text i left out (Err.invalid.rc, out) :=
  ⟨[], Nat.zero_le left, .inr ⟨rfl, hd⟩⟩

theorem cons (hh : hexDigits.value high = some h) (hl : hexDigits.value low = some l)
    (hrest : Reads rest (i + 1) left (out.set i (halves.symm (h, l))) r) :
    Reads (high :: low :: rest) i (left + 1) out r := by
  obtain ⟨bytes, hsize, hcases⟩ := hrest
  have hlen : (high :: low :: rest).length = rest.length + 2 := rfl
  refine ⟨halves.symm (h, l) :: bytes, Nat.succ_le_succ hsize, ?_⟩
  rw [CBuffer.overwrite_cons, decode_cons hh hl, hlen]
  rcases hcases with ⟨heq, hall, hd⟩ | ⟨heq, hd⟩
  · exact .inl ⟨heq, by omega, by rw [hd]; rfl⟩
  · exact .inr ⟨heq, fun hall => by rw [hd (by omega)]; rfl⟩

theorem eq_of_decode (hr : Reads text i left out r) (hlen : text.length = 2 * left)
    (hd : decode hexDigits halves text = some bytes) : r = (0, out.overwrite i bytes) := by
  obtain ⟨written, -, ⟨heq, -, hd'⟩ | ⟨-, hd'⟩⟩ := hr
  · rw [hd, Option.some.injEq] at hd'
    rw [heq, hd']
  · rw [hd' hlen] at hd
    cases hd

theorem eq_zero_iff (hr : Reads text i left out r) :
    r.1 = 0 ↔ text.length = 2 * left ∧ ∃ bytes, decode hexDigits halves text = some bytes := by
  constructor
  · intro hzero
    obtain ⟨bytes, -, ⟨-, hlen, hd⟩ | ⟨heq, -⟩⟩ := hr
    · exact ⟨hlen, bytes, hd⟩
    · rw [heq] at hzero
      exact absurd hzero (Err.rc_ne_zero .invalid)
  · rintro ⟨hlen, bytes, hd⟩
    rw [hr.eq_of_decode hlen hd]

/-- The cells behind the `left` stay, also where the text is refused. -/
theorem frame (hr : Reads text i left out r) : r.2.cells.drop (i + left) = out.cells.drop (i + left) := by
  obtain ⟨bytes, hsize, ⟨heq, -⟩ | ⟨heq, -⟩⟩ := hr
  · rw [heq]
    exact drop_overwrite (by omega)
  · rw [heq]
    exact drop_overwrite (by omega)

end Reads

section Reading
variable {hex : CString w} {i k left : Nat} {out : CBuffer w n} {high low : UInt8}
  {rest : List UInt8} {h l : Fin 16}

/-- Up to the NUL an index does not wrap. -/
theorem get_index (hk : k ≤ hex.chars.length) :
    hex.get (k % 2 ^ w) = (hex.chars.drop k).headD 0 := by
  have hlt := hex.strlen_lt
  rw [Nat.mod_eq_of_lt (Nat.lt_of_le_of_lt hk hlt), CString.get_eq hk]

theorem length_of_drop (hd : hex.chars.drop k = high :: rest) :
    hex.chars.length = k + 1 + rest.length := by
  have hlen := congrArg List.length hd
  rw [List.length_drop, List.length_cons] at hlen
  omega

theorem get_next (hd : hex.chars.drop k = high :: rest) :
    hex.get ((k % 2 ^ w + 1) % 2 ^ w) = rest.headD 0 := by
  have hlen := length_of_drop hd
  rw [Nat.mod_add_mod, get_index (by omega), ← List.drop_drop, hd]
  rfl

/-- A turn over two digits. -/
theorem hexToBinLoop_pair (hd : hex.chars.drop (i * 2) = high :: low :: rest)
    (hh : hexDigits.value high = some h) (hl : hexDigits.value low = some l) :
    Lorawan.hexToBinLoop hex i (left + 1) out =
      Lorawan.hexToBinLoop hex (i + 1) left (out.set i (halves.symm (h, l))) := by
  have hlen := length_of_drop hd
  have hok : ¬ ((h.val : Int) < 0 ∨ (l.val : Int) < 0) := by omega
  rw [Lorawan.hexToBinLoop, get_index (by omega), get_next hd, hd, List.headD_cons, List.headD_cons,
    hexNibble_some hh, hexNibble_some hl, if_neg hok, byte_eq]

/-- A turn at the NUL or at another character that is no digit. -/
theorem hexToBinLoop_stop (hi : i * 2 ≤ hex.chars.length)
    (hbad : ∀ high low rest, hex.chars.drop (i * 2) = high :: low :: rest →
      hexDigits.value high = none ∨ hexDigits.value low = none) :
    Lorawan.hexToBinLoop hex i (left + 1) out = (Err.invalid.rc, out) := by
  have hneg : (-1 : Int) < 0 := by decide
  rcases hd : hex.chars.drop (i * 2) with - | ⟨high, - | ⟨low, rest⟩⟩
  · rw [Lorawan.hexToBinLoop, get_index hi, hd]
    exact if_pos (.inl hneg)
  · rw [Lorawan.hexToBinLoop, get_next hd]
    exact if_pos (.inr hneg)
  · rw [Lorawan.hexToBinLoop, get_index hi, get_next hd, hd, List.headD_cons, List.headD_cons]
    rcases hbad high low rest hd with hv | hv
    · rw [hexNibble_none hv]
      exact if_pos (.inl hneg)
    · rw [hexNibble_none hv]
      exact if_pos (.inr hneg)

/-- The loop reads the rest of the string; where turns outnumber its pairs it ends at the NUL. -/
theorem hexToBinLoop_reads (out : CBuffer w n) (hi : i * 2 ≤ hex.chars.length)
    (hle : hex.chars.length ≤ (i + left) * 2) :
    Reads (hex.chars.drop (i * 2)) i left out (Lorawan.hexToBinLoop hex i left out) := by
  induction left generalizing i out with
  | zero =>
    have hend : hex.chars.length ≤ i * 2 := hle
    rw [List.drop_of_length_le hend]
    exact .nil out i
  | succ left ih =>
    rcases hd : hex.chars.drop (i * 2) with - | ⟨high, - | ⟨low, rest⟩⟩
    · rw [hexToBinLoop_stop hi fun high low rest h => by rw [hd] at h; cases h]
      exact .invalid fun hlen => by cases hlen
    · rw [hexToBinLoop_stop hi fun high low rest h => by rw [hd] at h; cases h]
      exact .invalid fun _ => rfl
    · have hstop (hbad : hexDigits.value high = none ∨ hexDigits.value low = none) :
          Lorawan.hexToBinLoop hex i (left + 1) out = (Err.invalid.rc, out) := by
        refine hexToBinLoop_stop hi fun high' low' rest' h => ?_
        rw [hd] at h
        obtain ⟨rfl, rfl, rfl⟩ : high = high' ∧ low = low' ∧ rest = rest' := by simpa using h
        exact hbad
      rcases hh : hexDigits.value high with - | h
      · rw [hstop (.inl hh)]
        exact .invalid fun _ => decode_high hh _
      · rcases hl : hexDigits.value low with - | l
        · rw [hstop (.inr hl)]
          exact .invalid fun _ => decode_low hl _
        · have hlen := length_of_drop hd
          have hrest : hex.chars.drop ((i + 1) * 2) = rest := by
            rw [Nat.succ_mul, ← List.drop_drop, hd]
            rfl
          rw [List.length_cons] at hlen
          rw [hexToBinLoop_pair hd hh hl, ← hrest]
          exact .cons hh hl (ih _ (by omega) (by omega))

theorem hexToBin_reads (hex : CString w) (out : CBuffer w n) :
    Reads hex.chars 0 n out (Lorawan.hexToBin hex n out) := by
  have hlt := hex.strlen_lt
  by_cases hlen : hex.strlen ≠ n * 2 % 2 ^ w
  · -- a length that wraps is not the length of the string
    have hne : ¬ hex.chars.length = 2 * n := fun hall => by
      rw [CString.strlen, hall, Nat.mul_comm] at hlen hlt
      exact hlen (Nat.mod_eq_of_lt hlt).symm
    have hcall : Lorawan.hexToBin hex n out = (Err.invalid.rc, out) := if_pos hlen
    rw [hcall]
    exact .invalid fun hall => absurd hall hne
  · have hle : hex.chars.length ≤ (0 + n) * 2 := by
      rw [Nat.zero_add, ← CString.strlen, not_not.1 hlen]
      exact Nat.mod_le _ _
    have hcall : Lorawan.hexToBin hex n out = Lorawan.hexToBinLoop hex 0 n out := if_neg hlen
    have hreads := hexToBinLoop_reads out (Nat.zero_le _) hle
    rw [Nat.zero_mul, List.drop_zero] at hreads
    rw [hcall]
    exact hreads

theorem hexToBin_frame (hex : CString w) (out : CBuffer w n) :
    (Lorawan.hexToBin hex n out).2.cells.drop n = out.cells.drop n := by
  have hframe := (hexToBin_reads hex out).frame
  rw [Nat.zero_add] at hframe
  exact hframe

end Reading

/-! ### Writing -/

section Writing
variable {len i left : Nat} {data : CBuffer w len} {out : CBuffer w (2 * len + 1)}

theorem binToHexLoop_eq (h : i + left = len) :
    Lorawan.binToHexLoop data i left out =
      out.overwrite (i * 2) (encode hexDigits halves (data.bytes.drop i)) := by
  induction left generalizing i out with
  | zero =>
    have hend : data.bytes.length ≤ i := by
      rw [CBuffer.bytes_length]
      omega
    rw [List.drop_of_length_le hend]
    rfl
  | succ left ih =>
    have hsize := out.size_lt
    have hhigh : i * 2 % 2 ^ w = i * 2 := Nat.mod_eq_of_lt (by omega)
    have hlow : (i * 2 + 1) % 2 ^ w = i * 2 + 1 := Nat.mod_eq_of_lt (by omega)
    rw [Lorawan.binToHexLoop, ih (by omega), hhigh, hlow, digits_high, digits_low,
      CBuffer.drop_bytes (i := i) (by omega), encode_cons, CBuffer.overwrite_cons, CBuffer.overwrite_cons,
      Nat.succ_mul i 2]

/-- The bytes behind the text stay. -/
theorem binToHex_cells (data : CBuffer w len) (out : CBuffer w (2 * len + 1)) :
    (Lorawan.binToHex data out).cells =
      encode hexDigits halves data.bytes ++ 0 :: out.cells.drop (2 * len + 1) := by
  have hsize := out.size_lt
  have hroom := out.room
  have hend : len * 2 % 2 ^ w = 0 + (encode hexDigits halves data.bytes).length := by
    rw [Nat.mod_eq_of_lt (by omega), encode_length, CBuffer.bytes_length]
    omega
  have hlen : (encode hexDigits halves data.bytes ++ [0]).length = 2 * len + 1 := by
    rw [List.length_append, encode_length, CBuffer.bytes_length]
    rfl
  have hcells : (Lorawan.binToHex data out).cells =
      CArray.overwrite out.cells 0 (encode hexDigits halves data.bytes ++ [0]) := by
    rw [overwrite_append, ← hend]
    dsimp only [Lorawan.binToHex, CBuffer.terminate]
    rw [binToHexLoop_eq (Nat.zero_add len), List.drop_zero]
    rfl
  rw [hcells, overwrite_zero (by rw [hlen]; exact hroom), hlen, List.append_assoc]
  rfl

theorem digit_ne_nul : ∀ v, hexDigits.digit v ≠ 0 := by decide

theorem binToHex_chars (data : CBuffer w len) (out : CBuffer w (2 * len + 1)) :
    (Lorawan.binToHex data out).chars = encode hexDigits halves data.bytes := by
  refine CString.chars_eq (binToHex_cells data out) fun hmem => ?_
  obtain ⟨v, hv⟩ := mem_encode hmem
  exact digit_ne_nul v hv

end Writing

/-! ### The two copies -/

theorem hexNibble_copy (value : UInt8) : Lora.hexNibble value = Lorawan.hexNibble value := rfl

theorem digits_copy : Lora.digits = Lorawan.digits := rfl

theorem hexToBinLoop_copy (hex : CString w) (i left : Nat) (out : CBuffer w n) :
    Lora.hexToBinLoop hex i left out = Lorawan.hexToBinLoop hex i left out := by
  induction left generalizing i out with
  | zero => rfl
  | succ left ih =>
    rw [Lora.hexToBinLoop, Lorawan.hexToBinLoop]
    simp only [hexNibble_copy, ih]

theorem binToHexLoop_copy {len : Nat} (data : CBuffer w len) (i left : Nat)
    (out : CBuffer w (2 * len + 1)) :
    Lora.binToHexLoop data i left out = Lorawan.binToHexLoop data i left out := by
  induction left generalizing i out with
  | zero => rfl
  | succ left ih =>
    rw [Lora.binToHexLoop, Lorawan.binToHexLoop]
    simp only [digits_copy, ih]

theorem hexToBin_copy : @Lora.hexToBin w = @Lorawan.hexToBin w := by
  funext hex outLen out
  rw [Lora.hexToBin, Lorawan.hexToBin, hexToBinLoop_copy]

theorem binToHex_copy : @Lora.binToHex w = @Lorawan.binToHex w := by
  funext len data out
  rw [Lora.binToHex, Lorawan.binToHex, binToHexLoop_copy]

/-! ### The lists of the other modules -/

section Lists
variable {text bytes : List UInt8} {hex : CString w}

theorem sub_add_eq {a c : UInt8} (h : a ≤ c) (k : UInt8) :
    c - a + k = UInt8.ofNat (c.toNat - a.toNat + k.toNat) := by
  rw [UInt8.ofNat_add, UInt8.ofNat_sub (UInt8.le_iff_toNat_le.1 h), UInt8.ofNat_toNat, UInt8.ofNat_toNat,
    UInt8.ofNat_toNat]

theorem sendNibble_eq (c : UInt8) :
    Send.hexNibble c = (hexDigits.value c).map fun v : Fin 16 => UInt8.ofNat v.val := by
  have hvalue {a b k : UInt8} (hc : a ≤ c ∧ c ≤ b) (hb : b.toNat - a.toNat + k.toNat < 16)
      (hd : Strtol.digit c = c.toNat - a.toNat + k.toNat) :
      (hexDigits.value c).map (fun v : Fin 16 => UInt8.ofNat v.val) = some (c - a + k) := by
    have hle := UInt8.le_iff_toNat_le.1 hc.2
    have hv : hexDigits.value c = some ⟨c.toNat - a.toNat + k.toNat, by omega⟩ := value_eq_some.2 hd
    rw [hv, sub_add_eq hc.1]
    rfl
  rcases digit_cases c with ⟨hc, hd⟩ | ⟨hc, hd⟩ | ⟨hc, hd⟩ | ⟨h1, h2, h3, hd⟩
  · rw [Send.hexNibble, if_pos hc, ← UInt8.add_zero (c - 0x30)]
    exact (hvalue (k := 0) hc (by decide) hd).symm
  · have h1 : ¬ (0x30 ≤ c ∧ c ≤ 0x39) := fun h => absurd (UInt8.le_trans hc.1 h.2) (by decide)
    rw [Send.hexNibble, if_neg h1, if_pos hc]
    exact (hvalue (k := 10) hc (by decide) hd).symm
  · have h1 : ¬ (0x30 ≤ c ∧ c ≤ 0x39) := fun h => absurd (UInt8.le_trans hc.1 h.2) (by decide)
    have h2 : ¬ (0x41 ≤ c ∧ c ≤ 0x46) := fun h => absurd (UInt8.le_trans hc.1 h.2) (by decide)
    rw [Send.hexNibble, if_neg h1, if_neg h2, if_pos hc]
    exact (hvalue (k := 10) hc (by decide) hd).symm
  · rw [value_eq_none.2 hd, Send.hexNibble, if_neg h1, if_neg h2, if_neg h3]
    rfl

theorem sendByte_eq (h l : Fin 16) : UInt8.ofNat h <<< 4 ||| UInt8.ofNat l = halves.symm (h, l) := by
  have hh : (UInt8.ofNat h).toNat = h := Nat.mod_eq_of_lt (by omega)
  have hl : (UInt8.ofNat l).toNat = l := Nat.mod_eq_of_lt (by omega)
  have hfour : UInt8.toNat 4 % 8 = 4 := rfl
  have hlt : h.val <<< 4 < 2 ^ 8 := by
    rw [Nat.shiftLeft_eq]
    omega
  apply UInt8.toNat_inj.1
  rw [UInt8.toNat_or, UInt8.toNat_shiftLeft, hh, hl, hfour, Nat.mod_eq_of_lt hlt, or_halves]
  exact (Nat.mod_eq_of_lt (by omega)).symm

theorem hexBytes_eq (heven : Even text.length) :
    Send.hexBytes text = (decode hexDigits halves text).elim (.error .invalid) .ok := by
  induction text using decode.induct hexDigits with
  | case1 => rfl
  | case2 c => exact (Nat.not_even_one heven).elim
  | case3 high low rest h l hl hh ih =>
    have hrest : Even rest.length := by
      rw [List.length_cons, List.length_cons, Nat.even_add_one, Nat.even_add_one, not_not] at heven
      exact heven
    rw [Send.hexBytes, sendNibble_eq, sendNibble_eq, hh, hl, ih hrest, decode_cons hh hl]
    dsimp only [Option.map_some]
    rw [sendByte_eq]
    rcases decode hexDigits halves rest with - | symbols <;> rfl
  | case4 high low rest hnot =>
    rw [Send.hexBytes, sendNibble_eq, sendNibble_eq]
    rcases value_none_or hnot with hh | hl
    · rw [hh, decode_high hh]
      rfl
    · rw [hl, decode_low hl]
      rcases hexDigits.value high with - | h <;> rfl

theorem sendHexToBin_eq (text : List UInt8) (n : Nat) : Send.hexToBin text n =
    if text.length = 2 * n then (decode hexDigits halves text).elim (.error .invalid) .ok
    else .error .invalid := by
  unfold Send.hexToBin
  by_cases hlen : text.length = 2 * n
  · have heven : Even text.length := ⟨n, by omega⟩
    rw [if_pos hlen, if_neg (by omega), hexBytes_eq heven]
  · rw [if_neg hlen, if_pos (by omega)]

/-- The texts of `n` bytes. -/
theorem decodes_iff : (text.length = 2 * n ∧ ∃ bytes, decode hexDigits halves text = some bytes) ↔
    text.length = 2 * n ∧ ∀ c ∈ text, isDigit 16 c = true := by
  rw [decode_isSome_iff]
  simp only [isDigit_iff]
  constructor
  · rintro ⟨hlen, -, hdigits⟩
    exact ⟨hlen, hdigits⟩
  · rintro ⟨hlen, hdigits⟩
    exact ⟨hlen, ⟨n, by omega⟩, hdigits⟩

theorem sendHexToBin_ok : Send.hexToBin text n = .ok bytes ↔
    text.length = 2 * n ∧ decode hexDigits halves text = some bytes := by
  rw [sendHexToBin_eq]
  split
  · rename_i hlen
    rcases decode hexDigits halves text with - | written
    · simp
    · simp [hlen]
  · rename_i hlen
    simp [hlen]

theorem sendHexToBin_succeeds_iff : (∃ bytes, Send.hexToBin text n = .ok bytes) ↔
    text.length = 2 * n ∧ ∀ c ∈ text, isDigit 16 c = true := by
  rw [← decodes_iff]
  simp only [sendHexToBin_ok, exists_and_left]

/-- The loop over the arrays is the function on lists. -/
theorem hexToBin_list (hex : CString w) (out : CBuffer w n) :
    match Send.hexToBin hex.chars n with
    | .ok bytes => Lorawan.hexToBin hex n out = (0, out.overwrite 0 bytes)
    | .error e => (Lorawan.hexToBin hex n out).1 = e.rc := by
  obtain ⟨bytes, -, ⟨heq, hlen, hd⟩ | ⟨heq, hd⟩⟩ := hexToBin_reads hex out
  · rw [sendHexToBin_ok.2 ⟨hlen, hd⟩]
    exact heq
  · rw [sendHexToBin_eq, heq]
    split_ifs with hlen
    · rw [hd hlen]
      rfl
    · rfl

theorem recvBinToHex_eq (data : List UInt8) : Recv.binToHex data = encode hexDigits halves data := by
  have hdigits : DigitPairs.digits hexDigits halves = fun b : UInt8 =>
      [Lorawan.digits.getD (b >>> 4).toNat 0, Lorawan.digits.getD (b &&& 0x0f).toNat 0] := by
    funext b
    rw [digits_high, digits_low]
    rfl
  rw [encode, hdigits]
  rfl

theorem binToHex_list {len : Nat} (data : CBuffer w len) (out : CBuffer w (2 * len + 1)) :
    (Lorawan.binToHex data out).chars = Recv.binToHex data.bytes := by
  rw [binToHex_chars, recvBinToHex_eq]

/-- On lists the round trip has no bound on the length. -/
theorem sendHexToBin_binToHex (data : List UInt8) :
    Send.hexToBin (Recv.binToHex data) data.length = .ok data := by
  rw [sendHexToBin_ok, recvBinToHex_eq]
  exact ⟨encode_length data, decode_encode data⟩

/-- What a text that is accepted is printed as. -/
theorem binToHex_of_hexToBin (h : Send.hexToBin text n = .ok bytes) :
    bytes.length = n ∧ Recv.binToHex bytes = text.map upper := by
  obtain ⟨hlen, hd⟩ := sendHexToBin_ok.1 h
  have hsize := length_of_decode hd
  refine ⟨by omega, ?_⟩
  rw [recvBinToHex_eq, encode_of_decode hd]
  have hdigits := (sendHexToBin_succeeds_iff.1 ⟨bytes, h⟩).2
  exact List.map_congr_left fun c hc => normal_eq_upper (hdigits c hc)

theorem binToHex_injective : Function.Injective Recv.binToHex := by
  intro data other h
  rw [recvBinToHex_eq, recvBinToHex_eq] at h
  exact Option.some_injective _ (by rw [← decode_encode data, h, decode_encode])

end Lists

/-! ### The codec -/

section Codec
variable {hex : CString w} {out : CBuffer w n}

/-- What is written is read back. -/
theorem hexToBin_binToHex (data : CBuffer w n) (text : CBuffer w (2 * n + 1)) (out : CBuffer w n) :
    Lorawan.hexToBin (Lorawan.binToHex data text) n out = (0, out.overwrite 0 data.bytes) := by
  have hchars := binToHex_chars data text
  apply (hexToBin_reads _ out).eq_of_decode
  · rw [hchars, encode_length, CBuffer.bytes_length]
  · rw [hchars, decode_encode]

theorem hexToBin_succeeds_iff : (Lorawan.hexToBin hex n out).1 = 0 ↔
    hex.chars.length = 2 * n ∧ ∀ c ∈ hex.chars, isDigit 16 c = true := by
  rw [(hexToBin_reads hex out).eq_zero_iff, decodes_iff]

theorem binToHex_hexToBin (h : (Lorawan.hexToBin hex n out).1 = 0) (text : CBuffer w (2 * n + 1)) :
    (Lorawan.binToHex (Lorawan.hexToBin hex n out).2 text).chars = hex.chars.map upper := by
  have hreads := hexToBin_reads hex out
  obtain ⟨hlen, bytes, hd⟩ := hreads.eq_zero_iff.1 h
  have hsize : bytes.length = n := by
    have := length_of_decode hd
    omega
  rw [binToHex_chars, hreads.eq_of_decode hlen hd, CBuffer.overwrite_bytes hsize, encode_of_decode hd]
  exact List.map_congr_left fun c hc => normal_eq_upper ((hexToBin_succeeds_iff.1 h).2 c hc)

end Codec

/-- Each direction undoes the other up to the case of the digits, reading takes exactly the texts of two
digits a byte, and the two files agree. -/
theorem hex_codec (w : Nat) :
    (∀ (n : Nat) (data : CBuffer w n) (text : CBuffer w (2 * n + 1)) (out : CBuffer w n),
      (Lorawan.hexToBin (Lorawan.binToHex data text) n out).1 = 0 ∧
        (Lorawan.hexToBin (Lorawan.binToHex data text) n out).2.bytes = data.bytes) ∧
    (∀ (hex : CString w) (n : Nat) (out : CBuffer w n),
      ((Lorawan.hexToBin hex n out).1 = 0 ↔
        hex.chars.length = 2 * n ∧ ∀ c ∈ hex.chars, isDigit 16 c = true) ∧
      ((Lorawan.hexToBin hex n out).1 = 0 → ∀ text : CBuffer w (2 * n + 1),
        (Lorawan.binToHex (Lorawan.hexToBin hex n out).2 text).chars = hex.chars.map upper)) ∧
    @Lora.hexToBin w = @Lorawan.hexToBin w ∧ @Lora.binToHex w = @Lorawan.binToHex w := by
  refine ⟨fun n data text out => ?_, fun hex n out => ⟨hexToBin_succeeds_iff, binToHex_hexToBin⟩,
    hexToBin_copy, binToHex_copy⟩
  rw [hexToBin_binToHex]
  exact ⟨rfl, CBuffer.overwrite_bytes CBuffer.bytes_length⟩

/-- A text in both cases comes back in upper case. -/
theorem hex_codec_mixed_case :
    (Lorawan.binToHex (Lorawan.hexToBin (w := 16) ⟨ascii "0aFf" ++ [0], by decide, by decide⟩ 2
        ⟨[0, 0], by decide, by decide⟩).2 ⟨[0, 0, 0, 0, 0], by decide, by decide⟩).chars =
      ascii "0AFF" := by
  obtain ⟨-, hread, -⟩ := hex_codec 16
  have hzero := hread ⟨ascii "0aFf" ++ [0], by decide, by decide⟩ 2 ⟨[0, 0], by decide, by decide⟩
  rw [hzero.2 (by decide)]
  decide

end Rzi.At.Hex
