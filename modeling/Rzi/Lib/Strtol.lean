import Mathlib.Algebra.Group.Int.Defs
import Mathlib.Algebra.Group.Nat.Defs
import Mathlib.Data.List.Forall2
import Mathlib.Data.List.TakeWhile

/-!
# `strtol` and `strtoul`

`Strtol.scan` reads the longest number at the start of a text, as C's `strtol` and `strtoul` do: white
space, a sign, digits. `strtol` and `strtoul` saturate it to a `long` of `w` bits. `Numeral` and
`Numerals` are the grammar, of one number and of numbers with a separator between them;
`scan_eq_some` and `numerals_cons_iff` say that the scanner reads them. A text is the list of the bytes
of a C string before its NUL.
-/

namespace Strtol

/-- `isspace`, in the C locale. -/
def isSpace (b : UInt8) : Bool := b == 0x20 || (0x09 ≤ b && b ≤ 0x0d)

/-- The value of a digit or a letter as a digit, 36 for another byte. -/
def digit (b : UInt8) : Nat :=
  if 0x30 ≤ b ∧ b ≤ 0x39 then b.toNat - 0x30
  else if 0x41 ≤ b ∧ b ≤ 0x5a then b.toNat - 0x41 + 10
  else if 0x61 ≤ b ∧ b ≤ 0x7a then b.toNat - 0x61 + 10
  else 36

def isDigit (base : Nat) (b : UInt8) : Bool := digit b < base

def value (base : Nat) (digits : List UInt8) : Nat := digits.foldl (fun v d => base * v + digit d) 0

/-- A number as it is written; -0 is not 0. -/
structure Number where
  negative : Bool
  magnitude : Nat
deriving DecidableEq, Repr

namespace Number
variable (w : Nat) (x : Number)

def toInt : Int := if x.negative then -(x.magnitude : Int) else x.magnitude

/-- The number as a `long` of `w` bits. -/
def long : Int :=
  if x.negative then max (-2 ^ (w - 1)) (-(x.magnitude : Int)) else min (2 ^ (w - 1) - 1) x.magnitude

/-- The number as an `unsigned long` of `w` bits, into which a negative number in range wraps. -/
def ulong : Nat :=
  if 2 ^ w ≤ x.magnitude then 2 ^ w - 1
  else if x.negative then (2 ^ w - x.magnitude) % 2 ^ w
  else x.magnitude

end Number

/-- What follows a 0x that a hexadecimal digit follows. -/
def skipPrefix : List UInt8 → List UInt8
  | zero :: x :: d :: rest =>
    if zero = 0x30 ∧ (x = 0x78 ∨ x = 0x58) ∧ isDigit 16 d = true then d :: rest
    else zero :: x :: d :: rest
  | text => text

/-- The sign, minus or not, and what follows it. -/
def takeSign : List UInt8 → Bool × List UInt8
  | [] => (false, [])
  | b :: rest =>
    if b = 0x2d then (true, rest) else if b = 0x2b then (false, rest) else (false, b :: rest)

def scanDigits (base : Nat) (negative : Bool) (body : List UInt8) : Option (Number × List UInt8) :=
  let digits := body.takeWhile (isDigit base)
  if digits = [] then none
  else some (⟨negative, value base digits⟩, body.dropWhile (isDigit base))

/-- The number at the start of a text and what follows it. -/
def scan (base : Nat) (text : List UInt8) : Option (Number × List UInt8) :=
  let (negative, body) := takeSign (text.dropWhile isSpace)
  scanDigits base negative (if base = 16 then skipPrefix body else body)

/-- The value and the text from `end` on, which is the whole text where there is no number. -/
def strtol (w base : Nat) (text : List UInt8) : Int × List UInt8 :=
  match scan base text with
  | none => (0, text)
  | some (x, rest) => (x.long w, rest)

def strtoul (w base : Nat) (text : List UInt8) : Nat × List UInt8 :=
  match scan base text with
  | none => (0, text)
  | some (x, rest) => (x.ulong w, rest)

section Results
variable {w base : Nat} {text rest : List UInt8} {x : Number}

theorem strtol_none (h : scan base text = none) : strtol w base text = (0, text) := by
  rw [strtol, h]

theorem strtol_some (h : scan base text = some (x, rest)) : strtol w base text = (x.long w, rest) := by
  rw [strtol, h]

theorem strtoul_none (h : scan base text = none) : strtoul w base text = (0, text) := by
  rw [strtoul, h]

theorem strtoul_some (h : scan base text = some (x, rest)) : strtoul w base text = (x.ulong w, rest) := by
  rw [strtoul, h]

end Results

/-! ### The grammar -/

inductive Sign where
  | none | plus | minus
deriving DecidableEq, Repr

def Sign.bytes : Sign → List UInt8
  | .none => []
  | .plus => [0x2b]
  | .minus => [0x2d]

/-- A decimal number with nothing behind it. -/
inductive Numeral : List UInt8 → Number → Prop
  | intro (spaces : List UInt8) (sign : Sign) (digits : List UInt8)
    (hspaces : ∀ b ∈ spaces, isSpace b = true) (hne : digits ≠ [])
    (hdigits : ∀ d ∈ digits, isDigit 10 d = true) :
    Numeral (spaces ++ (sign.bytes ++ digits)) ⟨sign == .minus, value 10 digits⟩

/-- Decimal numbers with a separator between them. -/
inductive Numerals (sep : UInt8) : List UInt8 → List Number → Prop
  | one {part : List UInt8} {x : Number} : Numeral part x → Numerals sep part [x]
  | cons {part text : List UInt8} {x : Number} {xs : List Number} :
    Numeral part x → Numerals sep text xs → Numerals sep (part ++ sep :: text) (x :: xs)

section Scan
variable {part rest text : List UInt8} {x : Number} {xs : List Number} {sep : UInt8}

/-- What may follow a number: nothing, or no further digit. -/
def Ended (rest : List UInt8) : Prop := ∀ d ∈ rest.head?, isDigit 10 d = false

theorem takeWhile_ended {digits : List UInt8} (hd : ∀ d ∈ digits, isDigit 10 d = true) (hr : Ended rest) :
    (digits ++ rest).takeWhile (isDigit 10) = digits ∧ (digits ++ rest).dropWhile (isDigit 10) = rest := by
  rw [List.takeWhile_append_of_pos hd, List.dropWhile_append_of_pos hd]
  cases rest with
  | nil => simp
  | cons d rest =>
    have hstop := hr d rfl
    simp [hstop]

theorem isDigit_ten {d : UInt8} : isDigit 10 d = true ↔ 0x30 ≤ d.toNat ∧ d.toNat ≤ 0x39 := by
  unfold isDigit digit
  simp only [UInt8.le_iff_toNat_le, decide_eq_true_eq, UInt8.reduceToNat]
  split <;> try split <;> try split
  all_goals omega

theorem isSpace_iff {b : UInt8} :
    isSpace b = true ↔ b.toNat = 0x20 ∨ 0x09 ≤ b.toNat ∧ b.toNat ≤ 0x0d := by
  unfold isSpace
  rw [Bool.or_eq_true, Bool.and_eq_true, beq_iff_eq, decide_eq_true_eq, decide_eq_true_eq,
    UInt8.le_iff_toNat_le, UInt8.le_iff_toNat_le, ← UInt8.toNat_inj]
  rfl

theorem digit_not_space {d : UInt8} (h : isDigit 10 d = true) : isSpace d = false := by
  rw [← Bool.not_eq_true, isSpace_iff]
  rw [isDigit_ten] at h
  omega

theorem digit_not_sign {d : UInt8} (h : isDigit 10 d = true) : d ≠ 0x2d ∧ d ≠ 0x2b := by
  rw [isDigit_ten] at h
  constructor
  · rintro rfl
    exact absurd h (by decide)
  · rintro rfl
    exact absurd h (by decide)

theorem takeSign_bytes (sign : Sign) {d : UInt8} (h : isDigit 10 d = true) (body : List UInt8) :
    takeSign (sign.bytes ++ d :: body) = (sign == .minus, d :: body) := by
  obtain ⟨hminus, hplus⟩ := digit_not_sign h
  cases sign with
  | none => simp [Sign.bytes, takeSign, hminus, hplus]
  | plus => rfl
  | minus => rfl

theorem scan_ten (text : List UInt8) : scan 10 text =
    scanDigits 10 (takeSign (text.dropWhile isSpace)).1 (takeSign (text.dropWhile isSpace)).2 := rfl

/-- The scanner on a text that begins with a numeral: the sign and the digits stop the skipping. -/
theorem scan_append (h : Numeral part x) (hr : Ended rest) : scan 10 (part ++ rest) = some (x, rest) := by
  obtain ⟨spaces, sign, digits, hspaces, hne, hdigits⟩ := h
  obtain ⟨d, ds, rfl⟩ := List.exists_cons_of_ne_nil hne
  have hd := hdigits d List.mem_cons_self
  have hbody : (spaces ++ (sign.bytes ++ d :: ds) ++ rest).dropWhile isSpace =
      sign.bytes ++ d :: (ds ++ rest) := by
    rw [List.append_assoc, List.dropWhile_append_of_pos hspaces, List.append_assoc]
    cases sign with
    | none => simp [Sign.bytes, digit_not_space hd]
    | plus => rfl
    | minus => rfl
  obtain ⟨htake, hdrop⟩ := takeWhile_ended hdigits hr
  rw [scan_ten, hbody, takeSign_bytes sign hd]
  show scanDigits 10 (sign == .minus) (d :: ds ++ rest) = _
  rw [scanDigits, htake, hdrop, if_neg hne]

theorem ended_dropWhile (text : List UInt8) : Ended (text.dropWhile (isDigit 10)) := by
  intro d hd
  cases htext : text.dropWhile (isDigit 10) with
  | nil =>
    rw [htext] at hd
    cases hd
  | cons e rest =>
    rw [htext] at hd
    cases hd
    have hhead := List.head_dropWhile_not (isDigit 10) (l := text) (by simp [htext])
    simpa [htext] using hhead

/-- What the scanner reads is a numeral, up to the last digit. -/
theorem scan_sound (h : scan 10 text = some (x, rest)) :
    ∃ part, Numeral part x ∧ text = part ++ rest ∧ Ended rest := by
  have hspaces : ∀ b ∈ text.takeWhile isSpace, isSpace b = true := fun b hb =>
    List.mem_takeWhile_imp hb
  have hsign : ∃ sign : Sign, (takeSign (text.dropWhile isSpace)).1 = (sign == .minus) ∧
      text.dropWhile isSpace = sign.bytes ++ (takeSign (text.dropWhile isSpace)).2 := by
    cases text.dropWhile isSpace with
    | nil => exact ⟨.none, rfl, rfl⟩
    | cons b body =>
      rw [takeSign]
      by_cases hminus : b = 0x2d
      · rw [if_pos hminus, hminus]
        exact ⟨.minus, rfl, rfl⟩
      · by_cases hplus : b = 0x2b
        · rw [if_neg hminus, if_pos hplus, hplus]
          exact ⟨.plus, rfl, rfl⟩
        · rw [if_neg hminus, if_neg hplus]
          exact ⟨.none, rfl, rfl⟩
  obtain ⟨sign, hnegative, hbody⟩ := hsign
  rw [scan_ten, hnegative, scanDigits] at h
  generalize (takeSign (text.dropWhile isSpace)).2 = body at h hbody
  split at h
  · cases h
  · rename_i hne
    cases h
    refine ⟨_, .intro _ sign _ hspaces hne fun d hd => List.mem_takeWhile_imp hd, ?_,
      ended_dropWhile body⟩
    rw [List.append_assoc, List.append_assoc, List.takeWhile_append_dropWhile, ← hbody,
      List.takeWhile_append_dropWhile]

/-- A number is not empty. -/
theorem scan_length (h : scan 10 text = some (x, rest)) : rest.length < text.length := by
  obtain ⟨part, ⟨spaces, sign, digits, -, hne, -⟩, rfl, -⟩ := scan_sound h
  have hpos := List.length_pos_iff.2 hne
  simp only [List.length_append]
  omega

/-- What the scanner reads, exactly. -/
theorem scan_eq_some : scan 10 text = some (x, rest) ↔
    ∃ part, Numeral part x ∧ text = part ++ rest ∧ Ended rest := by
  refine ⟨scan_sound, ?_⟩
  rintro ⟨part, hpart, rfl, hrest⟩
  exact scan_append hpart hrest

theorem scan_numeral (h : Numeral part x) : scan 10 part = some (x, []) := by
  have hscan : scan 10 (part ++ []) = some (x, []) := scan_append h fun d hd => (by cases hd)
  rwa [List.append_nil] at hscan

/-- A text is one number in one way. -/
theorem Numeral.unique {y : Number} (hx : Numeral part x) (hy : Numeral part y) : x = y := by
  have h := (scan_numeral hx).symm.trans (scan_numeral hy)
  cases h
  rfl

theorem numeral_iff : Numeral part x ↔ scan 10 part = some (x, []) := by
  refine ⟨scan_numeral, fun h => ?_⟩
  obtain ⟨part', hpart, htext, -⟩ := scan_sound h
  rw [List.append_nil] at htext
  rwa [htext]

theorem ended_cons (hsep : isDigit 10 sep = false) (rest : List UInt8) : Ended (sep :: rest) := by
  intro d hd
  cases hd
  exact hsep

theorem Numerals.ne_nil (h : Numerals sep text xs) : xs ≠ [] := by
  cases h with
  | one => exact List.cons_ne_nil _ _
  | cons => exact List.cons_ne_nil _ _

/-- One turn of a loop over numbers with a separator between them. -/
theorem numerals_cons_iff (hsep : isDigit 10 sep = false) :
    Numerals sep text (x :: xs) ↔ ∃ rest, scan 10 text = some (x, rest) ∧
      (rest = [] ∧ xs = [] ∨ ∃ text', rest = sep :: text' ∧ Numerals sep text' xs) := by
  constructor
  · intro h
    cases h with
    | one hpart => exact ⟨[], scan_numeral hpart, .inl ⟨rfl, rfl⟩⟩
    | cons hpart hrest => exact ⟨_, scan_append hpart (ended_cons hsep _), .inr ⟨_, rfl, hrest⟩⟩
  · rintro ⟨rest, hscan, ⟨rfl, rfl⟩ | ⟨text', rfl, hrest⟩⟩
    · exact .one (numeral_iff.2 hscan)
    · obtain ⟨part, hpart, rfl, -⟩ := scan_sound hscan
      exact .cons hpart hrest

/-- A loop over numbers, by what the scanner reads first. -/
theorem numerals_iff_of_scan (hsep : isDigit 10 sep = false) (hscan : scan 10 text = some (x, rest)) :
    Numerals sep text xs ↔ ∃ ys, xs = x :: ys ∧
      (rest = [] ∧ ys = [] ∨ ∃ text', rest = sep :: text' ∧ Numerals sep text' ys) := by
  constructor
  · intro hxs
    obtain ⟨y, ys, rfl⟩ := List.exists_cons_of_ne_nil hxs.ne_nil
    obtain ⟨rest', hsome, hrest⟩ := (numerals_cons_iff hsep).1 hxs
    rw [hscan] at hsome
    cases hsome
    exact ⟨ys, rfl, hrest⟩
  · rintro ⟨ys, rfl, hrest⟩
    exact (numerals_cons_iff hsep).2 ⟨rest, hscan, hrest⟩

theorem not_numerals_of_scan (hsep : isDigit 10 sep = false) (hscan : scan 10 text = none) :
    ¬ Numerals sep text xs := by
  intro hxs
  obtain ⟨x, xs, rfl⟩ := List.exists_cons_of_ne_nil hxs.ne_nil
  obtain ⟨rest, hsome, -⟩ := (numerals_cons_iff hsep).1 hxs
  rw [hscan] at hsome
  cases hsome

/-- A text is a list of numbers in one way. -/
theorem Numerals.unique {ys : List Number} (hsep : isDigit 10 sep = false)
    (hx : Numerals sep text xs) (hy : Numerals sep text ys) : xs = ys := by
  induction xs generalizing text ys with
  | nil => exact absurd rfl hx.ne_nil
  | cons x xs ih =>
    cases ys with
    | nil => exact absurd rfl hy.ne_nil
    | cons y ys =>
      obtain ⟨rest, hscan, hrest⟩ := (numerals_cons_iff hsep).1 hx
      obtain ⟨rest', hscan', hrest'⟩ := (numerals_cons_iff hsep).1 hy
      cases hscan.symm.trans hscan'
      rcases hrest with ⟨rfl, rfl⟩ | ⟨text', rfl, hmore⟩
      · rcases hrest' with ⟨-, rfl⟩ | ⟨text', hcons, -⟩
        · rfl
        · cases hcons
      · rcases hrest' with ⟨hnil, -⟩ | ⟨text'', hcons, hmore'⟩
        · cases hnil
        · cases hcons
          rw [ih hmore hmore']

/-! ### Numbers at the start of a text -/

/-- A text begins with numbers; `rest` follows the last of them. -/
def Leads (sep : UInt8) (text : List UInt8) (xs : List Number) (rest : List UInt8) : Prop :=
  ∃ part, Numerals sep part xs ∧ text = part ++ rest ∧ Ended rest

theorem ended_nil : Ended [] := fun d hd => (by cases hd)

theorem leads_nil : Leads sep text xs [] ↔ Numerals sep text xs := by
  constructor
  · rintro ⟨part, hpart, rfl, -⟩
    rwa [List.append_nil]
  · exact fun h => ⟨text, h, (List.append_nil text).symm, ended_nil⟩

theorem Leads.ne_nil (h : Leads sep text xs rest) : xs ≠ [] :=
  h.choose_spec.1.ne_nil

/-- A loop over the numbers at the start of a text, by what the scanner reads first. -/
theorem leads_iff_of_scan (hsep : isDigit 10 sep = false) {next : List UInt8}
    (hscan : scan 10 text = some (x, next)) :
    Leads sep text xs rest ↔ ∃ ys, xs = x :: ys ∧
      (ys = [] ∧ rest = next ∨ ∃ text', next = sep :: text' ∧ Leads sep text' ys rest) := by
  constructor
  · rintro ⟨part, hpart, rfl, hrest⟩
    cases hpart with
    | one hone =>
      cases hscan.symm.trans (scan_append hone hrest)
      exact ⟨[], rfl, .inl ⟨rfl, rfl⟩⟩
    | @cons first text' y ys hfirst hmore =>
      rw [List.append_assoc, List.cons_append] at hscan
      cases hscan.symm.trans (scan_append hfirst (ended_cons hsep _))
      exact ⟨ys, rfl, .inr ⟨_, rfl, text', hmore, rfl, hrest⟩⟩
  · obtain ⟨part, hpart, rfl, hnext⟩ := scan_sound hscan
    rintro ⟨ys, rfl, ⟨rfl, rfl⟩ | ⟨text', rfl, part', hpart', rfl, hrest⟩⟩
    · exact ⟨part, .one hpart, rfl, hnext⟩
    · refine ⟨part ++ sep :: part', .cons hpart hpart', ?_, hrest⟩
      rw [List.append_assoc, List.cons_append]

theorem leads_cons_iff (hsep : isDigit 10 sep = false) :
    Leads sep text (x :: xs) rest ↔ ∃ next, scan 10 text = some (x, next) ∧
      (xs = [] ∧ rest = next ∨ ∃ text', next = sep :: text' ∧ Leads sep text' xs rest) := by
  constructor
  · intro h
    obtain ⟨part, hpart, rfl, hrest⟩ := h
    have hscan : ∃ next, scan 10 (part ++ rest) = some (x, next) := by
      cases hpart with
      | one hone => exact ⟨rest, scan_append hone hrest⟩
      | cons hfirst _ =>
        rw [List.append_assoc, List.cons_append]
        exact ⟨_, scan_append hfirst (ended_cons hsep _)⟩
    obtain ⟨next, hscan⟩ := hscan
    obtain ⟨ys, hys, hmore⟩ := (leads_iff_of_scan hsep hscan).1 ⟨part, hpart, rfl, hrest⟩
    cases hys
    exact ⟨next, hscan, hmore⟩
  · rintro ⟨next, hscan, hmore⟩
    exact (leads_iff_of_scan hsep hscan).2 ⟨xs, rfl, hmore⟩

theorem not_leads_of_scan (hsep : isDigit 10 sep = false) (hscan : scan 10 text = none) :
    ¬ Leads sep text xs rest := by
  rintro ⟨part, hpart, rfl, hrest⟩
  cases hpart with
  | one hone => cases hscan.symm.trans (scan_append hone hrest)
  | cons hfirst _ =>
    rw [List.append_assoc, List.cons_append] at hscan
    cases hscan.symm.trans (scan_append hfirst (ended_cons hsep _))

/-- A text begins with so many numbers in one way. -/
theorem Leads.unique {ys : List Number} {rest' : List UInt8} (hsep : isDigit 10 sep = false)
    (hx : Leads sep text xs rest) (hy : Leads sep text ys rest') (hlen : xs.length = ys.length) :
    xs = ys ∧ rest = rest' := by
  induction xs generalizing text ys with
  | nil => exact absurd rfl hx.ne_nil
  | cons x xs ih =>
    cases hscan : scan 10 text with
    | none => exact absurd hx (not_leads_of_scan hsep hscan)
    | some r =>
      obtain ⟨xs', hxs, hxrest⟩ := (leads_iff_of_scan hsep hscan).1 hx
      obtain ⟨ys', rfl, hyrest⟩ := (leads_iff_of_scan hsep hscan).1 hy
      obtain ⟨rfl, rfl⟩ := List.cons.inj hxs
      have hlen' : xs.length = ys'.length := Nat.succ.inj hlen
      rcases hxrest with ⟨rfl, rfl⟩ | ⟨text', hnext, hxs'⟩
      · rcases hyrest with ⟨rfl, rfl⟩ | ⟨_, -, hys'⟩
        · exact ⟨rfl, rfl⟩
        · exact absurd (List.length_eq_zero_iff.1 hlen'.symm) hys'.ne_nil
      · rcases hyrest with ⟨rfl, -⟩ | ⟨text'', hnext', hys'⟩
        · exact absurd (List.length_eq_zero_iff.1 hlen') hxs'.ne_nil
        · obtain ⟨-, rfl⟩ := List.cons.inj (hnext.symm.trans hnext')
          obtain ⟨rfl, rfl⟩ := ih hxs' hys' hlen'
          exact ⟨rfl, rfl⟩

/-! ### The fields between separators -/

/-- A byte that no numeral has. -/
def Separates (sep : UInt8) : Prop :=
  isDigit 10 sep = false ∧ isSpace sep = false ∧ sep ≠ 0x2b ∧ sep ≠ 0x2d

theorem Numeral.not_mem (hsep : Separates sep) (h : Numeral part x) : sep ∉ part := by
  obtain ⟨hdigit, hspace, hplus, hminus⟩ := hsep
  obtain ⟨spaces, sign, digits, hspaces, -, hdigits⟩ := h
  have hsign : sep ∉ sign.bytes := by
    cases sign with
    | none => exact List.not_mem_nil
    | plus => exact fun hmem => hplus (List.mem_singleton.1 hmem)
    | minus => exact fun hmem => hminus (List.mem_singleton.1 hmem)
  intro hmem
  rcases List.mem_append.1 hmem with hmem | hmem
  · rw [hspaces sep hmem] at hspace
    cases hspace
  · rcases List.mem_append.1 hmem with hmem | hmem
    · exact hsign hmem
    · rw [hdigits sep hmem] at hdigit
      cases hdigit

/-- Each of the fields is a number. -/
theorem numerals_iff_splitOn (hsep : Separates sep) :
    Numerals sep text xs ↔ List.Forall₂ Numeral (text.splitOn sep) xs := by
  constructor
  · intro h
    induction h with
    | one hpart =>
      rw [List.splitOn_eq_singleton (hpart.not_mem hsep)]
      exact .cons hpart .nil
    | cons hpart _ ih =>
      rw [List.splitOn_append_cons_self_of_not_mem (hpart.not_mem hsep)]
      exact .cons hpart ih
  · intro h
    induction xs generalizing text with
    | nil => exact absurd (List.forall₂_nil_right_iff.1 h) (List.splitOn_ne_nil _ _)
    | cons x xs ih =>
      by_cases hmem : sep ∈ text
      · obtain ⟨part, text', rfl, hpart⟩ := List.eq_append_cons_of_mem hmem
        rw [List.splitOn_append_cons_self_of_not_mem hpart] at h
        cases h with
        | cons hx hxs => exact .cons hx (ih hxs)
      · rw [List.splitOn_eq_singleton hmem] at h
        cases h with
        | cons hx hxs =>
          cases hxs
          exact .one hx

end Scan

/-! ### Values -/

section Values
variable {w : Nat} {x : Number} {n : Nat}

theorem long_eq_clamp (w : Nat) (x : Number) :
    x.long w = max (-2 ^ (w - 1)) (min (2 ^ (w - 1) - 1) x.toInt) := by
  have hpos : (0 : Int) < 2 ^ (w - 1) := Int.pow_pos (by decide)
  unfold Number.long Number.toInt
  split <;> omega

/-- A `long` that is not at its limits is the number. -/
theorem long_eq_of_mem (hlo : -2 ^ (w - 1) < x.long w) (hhi : x.long w < 2 ^ (w - 1) - 1) :
    x.long w = x.toInt := by
  rw [long_eq_clamp] at hlo hhi ⊢
  omega

theorem long_eq (hlo : -2 ^ (w - 1) ≤ x.toInt) (hhi : x.toInt ≤ 2 ^ (w - 1) - 1) :
    x.long w = x.toInt := by
  rw [long_eq_clamp]
  omega

theorem ulong_eq (h₀ : 0 ≤ x.toInt) (hlt : x.toInt < 2 ^ w) : (x.ulong w : Int) = x.toInt := by
  have hcast : ((2 ^ w : Nat) : Int) = 2 ^ w := by push_cast; rfl
  unfold Number.ulong Number.toInt at *
  cases hneg : x.negative with
  | true =>
    simp only [hneg, if_true] at *
    have hzero : x.magnitude = 0 := by omega
    have hpos : 0 < 2 ^ w := Nat.two_pow_pos w
    rw [hzero, if_neg (by omega), Nat.sub_zero, Nat.mod_self]
    rfl
  | false =>
    simp only [hneg, Bool.false_eq_true, if_false] at *
    rw [if_neg (by omega)]

theorem ulong_lt (w : Nat) (x : Number) : x.ulong w < 2 ^ w := by
  have hpos : 0 < 2 ^ w := Nat.two_pow_pos w
  unfold Number.ulong
  split
  · omega
  · split
    · exact Nat.mod_lt _ hpos
    · omega

end Values

/-! ### Printing -/

/-- `%u` of `printf`. -/
def decimal (n : Nat) : List UInt8 := (Nat.toDigits 10 n).map fun c => c.val.toUInt8

/-- `%d` of `printf`. -/
def signedDecimal (n : Int) : List UInt8 := (if n < 0 then [0x2d] else []) ++ decimal n.natAbs

theorem digit_of_isDigit {c : Char} (h : c.isDigit = true) :
    isDigit 10 c.val.toUInt8 = true ∧ digit c.val.toUInt8 = c.toNat - '0'.toNat := by
  have hrange : 0x30 ≤ c.val.toNat ∧ c.val.toNat ≤ 0x39 := by
    simpa [Char.isDigit, UInt32.le_iff_toNat_le] using h
  have hbyte : c.val.toUInt8.toNat = c.val.toNat := by
    rw [UInt32.toNat_toUInt8]
    omega
  have hdigit : isDigit 10 c.val.toUInt8 = true := by
    rw [isDigit_ten, hbyte]
    exact hrange
  refine ⟨hdigit, ?_⟩
  rw [digit, if_pos, hbyte]
  · rfl
  · rw [UInt8.le_iff_toNat_le, UInt8.le_iff_toNat_le, hbyte]
    exact hrange

theorem decimal_length {n k : Nat} (hk : 0 < k) : (decimal n).length ≤ k ↔ n < 10 ^ k := by
  rw [decimal, List.length_map]
  exact Nat.length_toDigits_le_iff (by decide) hk

/-- What is printed is a numeral, of the number that was printed. -/
theorem decimal_numeral (n : Nat) : Numeral (decimal n) ⟨false, n⟩ := by
  have hchars : ∀ c ∈ Nat.toDigits 10 n, c.isDigit = true := fun c hc =>
    Nat.isDigit_of_mem_toDigits (by decide) (by decide) hc
  have hvalue : ∀ (l : List Char) (init : Nat), (∀ c ∈ l, c.isDigit = true) →
      (l.map fun c => c.val.toUInt8).foldl (fun v d => 10 * v + digit d) init =
        Nat.ofDigitChars 10 l init := by
    intro l
    induction l with
    | nil => exact fun _ _ => Nat.ofDigitChars_nil.symm
    | cons c l ih =>
      intro init hl
      rw [List.map_cons, List.foldl_cons, Nat.ofDigitChars_cons,
        (digit_of_isDigit (hl c List.mem_cons_self)).2, ih _ fun d hd => hl d (List.mem_cons_of_mem c hd)]
  have hnumeral := Numeral.intro [] .none (decimal n) (fun _ h => (by cases h))
    (by simp [decimal]) fun d hd => by
      obtain ⟨c, hc, rfl⟩ := List.mem_map.1 hd
      exact (digit_of_isDigit (hchars c hc)).1
  rwa [show value 10 (decimal n) = n from (hvalue _ 0 hchars).trans Nat.ofDigitChars_ten_toDigits]
    at hnumeral

end Strtol
