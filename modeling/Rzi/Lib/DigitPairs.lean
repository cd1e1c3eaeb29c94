import Mathlib.Algebra.Group.Nat.Even
import Mathlib.Logic.Equiv.Defs

/-!
# Codes of two digits

A symbol is two halves, and is written as their digits, the high one first. A value may have more than
one digit: `Alphabet.digit` is the one that is written, and `Alphabet.normal` replaces a digit by it.
`decode_eq_some_iff` says what a text decodes to, `decode_isSome_iff` which texts decode.
-/

namespace DigitPairs

variable {γ ν σ : Type*}

/-- Digits of type `γ` for the values `ν`. -/
structure Alphabet (γ ν : Type*) where
  value : γ → Option ν
  digit : ν → γ
  value_digit : ∀ v, value (digit v) = some v

namespace Alphabet
variable (A : Alphabet γ ν) {c : γ} {v : ν}

def normal (c : γ) : γ := (A.value c).elim c A.digit

variable {A}

theorem normal_of_value (h : A.value c = some v) : A.normal c = A.digit v := by rw [normal, h]; rfl

@[simp] theorem value_normal (c : γ) : A.value (A.normal c) = A.value c := by
  rcases h : A.value c with - | v
  · have hc : A.normal c = c := by rw [normal, h]; rfl
    rw [hc, h]
  · rw [normal_of_value h, A.value_digit]

end Alphabet

variable (A : Alphabet γ ν) (halves : σ ≃ ν × ν)

def digits (x : σ) : List γ := [A.digit (halves x).1, A.digit (halves x).2]

def encode (symbols : List σ) : List γ := symbols.flatMap (digits A halves)

def decode : List γ → Option (List σ)
  | [] => some []
  | [_] => none
  | high :: low :: rest =>
    match A.value high, A.value low with
    | some h, some l => (decode rest).map (halves.symm (h, l) :: ·)
    | _, _ => none

variable {A halves} {symbols : List σ} {text : List γ} {high low : γ} {h l : ν}

theorem encode_cons (x : σ) : encode A halves (x :: symbols) =
    A.digit (halves x).1 :: A.digit (halves x).2 :: encode A halves symbols := rfl

@[simp] theorem encode_length (symbols : List σ) :
    (encode A halves symbols).length = 2 * symbols.length := by
  induction symbols with
  | nil => rfl
  | cons x symbols ih =>
    simp only [encode_cons, List.length_cons, ih]
    omega

theorem mem_encode {c : γ} (hc : c ∈ encode A halves symbols) : ∃ v, A.digit v = c := by
  obtain ⟨x, -, hx⟩ := List.mem_flatMap.1 hc
  simp only [digits, List.mem_cons, List.not_mem_nil, or_false] at hx
  rcases hx with rfl | rfl
  · exact ⟨_, rfl⟩
  · exact ⟨_, rfl⟩

/-! ### Decoding -/

theorem value_none_or (hnot : ∀ h l, A.value high = some h → A.value low = some l → False) :
    A.value high = none ∨ A.value low = none := by
  rcases hh : A.value high with - | h
  · exact .inl rfl
  · exact .inr (Option.eq_none_iff_forall_ne_some.2 fun l hl => hnot h l hh hl)

theorem decode_cons (hh : A.value high = some h) (hl : A.value low = some l) (rest : List γ) :
    decode A halves (high :: low :: rest) =
      (decode A halves rest).map (halves.symm (h, l) :: ·) := by
  rw [decode, hh, hl]

theorem decode_high (hh : A.value high = none) (rest : List γ) :
    decode A halves (high :: rest) = none := by
  rcases rest with - | ⟨low, rest⟩
  · rfl
  · rw [decode, hh]

theorem decode_low (hl : A.value low = none) (rest : List γ) :
    decode A halves (high :: low :: rest) = none := by
  rcases hh : A.value high with - | h
  · exact decode_high hh _
  · rw [decode, hh, hl]

theorem decode_encode (symbols : List σ) : decode A halves (encode A halves symbols) = some symbols := by
  induction symbols with
  | nil => rfl
  | cons x symbols ih =>
    rw [encode_cons, decode_cons (A.value_digit _) (A.value_digit _), ih, Equiv.symm_apply_apply]
    rfl

/-- Only the values of the digits count. -/
theorem decode_normal (text : List γ) : decode A halves (text.map A.normal) = decode A halves text := by
  induction text using decode.induct A with
  | case1 => rfl
  | case2 c => rfl
  | case3 high low rest h l hl hh ih =>
    rw [List.map_cons, List.map_cons, decode_cons hh hl, ← ih]
    exact decode_cons ((A.value_normal high).trans hh) ((A.value_normal low).trans hl) _
  | case4 high low rest hnot =>
    rw [List.map_cons, List.map_cons]
    rcases value_none_or hnot with hh | hl
    · rw [decode_high hh, decode_high ((A.value_normal high).trans hh)]
    · rw [decode_low hl, decode_low ((A.value_normal low).trans hl)]

theorem encode_of_decode (hd : decode A halves text = some symbols) :
    encode A halves symbols = text.map A.normal := by
  induction text using decode.induct A generalizing symbols with
  | case1 =>
    obtain rfl := Option.some.inj hd
    rfl
  | case2 c => cases hd
  | case3 high low rest h l hl hh ih =>
    rw [decode_cons hh hl, Option.map_eq_some_iff] at hd
    obtain ⟨symbols, hrest, rfl⟩ := hd
    rw [encode_cons, Equiv.apply_symm_apply, ih hrest, List.map_cons, List.map_cons,
      A.normal_of_value hh, A.normal_of_value hl]
  | case4 high low rest hnot =>
    rcases value_none_or hnot with hh | hl
    · rw [decode_high hh] at hd
      cases hd
    · rw [decode_low hl] at hd
      cases hd

theorem length_of_decode (hd : decode A halves text = some symbols) :
    text.length = 2 * symbols.length := by
  rw [← List.length_map A.normal, ← encode_of_decode hd, encode_length]

theorem decode_eq_some_iff : decode A halves text = some symbols ↔
    encode A halves symbols = text.map A.normal := by
  constructor
  · exact encode_of_decode
  · intro he
    rw [← decode_normal, ← he, decode_encode]

theorem decode_isSome_iff : (∃ symbols, decode A halves text = some symbols) ↔
    Even text.length ∧ ∀ c ∈ text, ∃ v, A.value c = some v := by
  constructor
  · rintro ⟨symbols, hd⟩
    refine ⟨⟨symbols.length, by rw [length_of_decode hd, Nat.two_mul]⟩, fun c hc => ?_⟩
    have hmem : A.normal c ∈ encode A halves symbols := by
      rw [encode_of_decode hd]
      exact List.mem_map_of_mem hc
    obtain ⟨v, hv⟩ := mem_encode hmem
    exact ⟨v, by rw [← A.value_normal, ← hv, A.value_digit]⟩
  · rintro ⟨heven, hvalues⟩
    induction text using decode.induct A with
    | case1 => exact ⟨[], rfl⟩
    | case2 c => exact (Nat.not_even_one heven).elim
    | case3 high low rest h l hl hh ih =>
      have hrest : Even rest.length := by
        rw [List.length_cons, List.length_cons, Nat.even_add_one, Nat.even_add_one, not_not] at heven
        exact heven
      obtain ⟨symbols, hd⟩ := ih hrest fun c hc => hvalues c (by simp [hc])
      exact ⟨_, by rw [decode_cons hh hl, hd]; rfl⟩
    | case4 high low rest hnot =>
      obtain ⟨h, hh⟩ := hvalues high (by simp)
      obtain ⟨l, hl⟩ := hvalues low (by simp)
      exact (hnot h l hh hl).elim

end DigitPairs
