import Rzi.AtArguments
import Rzi.LoraService

/-!
# The P2P configuration from the AT interface (`at_lora_p2p.c`, `handle_tconf` of `at_lora_test.c`)

Six commands set one field of the configuration each; AT+P2P and AT+TCONF set the same six at once, from
numbers with colons between them. The single commands check the number itself, the tuple commands only
what `rzi_lora_set_config` makes of it once it has been cut to the width of its field;
`tuples_agree_iff` says for which arguments they agree. A `long` has `w` bits. Commands run on the AT
thread, never in an ISR.
-/

namespace Rzi.At.P2p
open Strtol LoraService

variable {β : Type*} (w : Nat) (api : Api β)

/-! ### The single commands -/

/-- The arguments of `write_u32`. -/
structure Field where
  name : List UInt8
  min : UInt32
  max : UInt32
  store : Config → UInt32 → Config
  load : Config → UInt32

def setFreq (config : Config) (value : UInt32) : Config := { config with frequencyHz := value }
def setSf (config : Config) (value : UInt32) : Config := { config with spreadingFactor := value.toUInt8 }
def setBw (config : Config) (value : UInt32) : Config := { config with bandwidth := value }
def setCr (config : Config) (value : UInt32) : Config := { config with codingRate := value.toUInt8 }
def setPl (config : Config) (value : UInt32) : Config := { config with preambleLength := value.toUInt16 }
def setTp (config : Config) (value : UInt32) : Config := { config with txPowerDbm := value.toUInt8.toInt8 }

def pfreq : Field := ⟨ascii "PFREQ", 150000000, 960000000, setFreq, (·.frequencyHz)⟩
def psf : Field := ⟨ascii "PSF", 5, 12, setSf, (·.spreadingFactor.toUInt32)⟩
def pbw : Field := ⟨ascii "PBW", 0, 960000000, setBw, (·.bandwidth)⟩
def pcr : Field := ⟨ascii "PCR", 0, 3, setCr, (·.codingRate.toUInt32)⟩
def ppl : Field := ⟨ascii "PPL", 5, 65535, setPl, (·.preambleLength.toUInt32)⟩
def ptp : Field := ⟨ascii "PTP", 5, 22, setTp, fun c => UInt32.ofInt c.txPowerDbm.toInt⟩

def writeU32 (f : Field) (operation : Operation) (argument : List UInt8) (s : Service β) :
    Except Err Answer × Service β :=
  match loraGetConfig false s with
  | .error e => (.error e, s)
  | .ok config =>
    if operation = .read then
      (.ok (.value (ascii "AT+" ++ f.name ++ ascii "=" ++ decimal (f.load config).toNat)), s)
    else
      match parseLong w argument with
      | .error _ => (.error .invalid, s)
      | .ok parsed =>
        if parsed < f.min.toNat ∨ f.max.toNat < parsed then (.error .invalid, s)
        else respondOk (loraSetConfig api false (some (f.store config (UInt32.ofInt parsed))) s)

def handlePfreq := writeU32 w api pfreq
def handlePsf := writeU32 w api psf
def handlePbw := writeU32 w api pbw
def handlePcr := writeU32 w api pcr
def handlePpl := writeU32 w api ppl
def handlePtp := writeU32 w api ptp

/-! ### The tuple commands -/

/-- The loop over numbers and colons, with `left` values to come; `closed` if nothing behind a colon is
an error. -/
def colonLoop (closed : Bool) : Nat → List UInt8 → List Nat → Except Err (List Nat)
  | 0, _, values => .ok values
  | left + 1, cursor, values =>
    if cursor = [] then .ok values
    else
      let (parsed, rest) := strtoul w 10 cursor
      if rest = cursor then .error .invalid
      else if rest = [] then .ok (values ++ [parsed])
      else if rest.head? ≠ some 0x3a ∨ closed = true ∧ rest.tail = [] then .error .invalid
      else colonLoop closed left rest.tail (values ++ [parsed])

/-- `parse_colon_u32`, on an array of `expected` values. -/
def parseColonU32 (expected : Nat) (argument : List UInt8) : Except Err (List UInt32) :=
  match colonLoop w true expected argument [] with
  | .error e => .error e
  | .ok values =>
    if values.length = expected then .ok (values.map UInt32.ofNat) else .error .invalid

/-- The reply to a read. -/
def tupleText (name : List UInt8) (c : Config) : List UInt8 :=
  name ++ ascii "=" ++ decimal c.frequencyHz.toNat ++ ascii ":" ++ decimal c.spreadingFactor.toNat ++
    ascii ":" ++ decimal c.bandwidth.toNat ++ ascii ":" ++ decimal c.codingRate.toNat ++ ascii ":" ++
    decimal c.preambleLength.toNat ++ ascii ":" ++ signedDecimal c.txPowerDbm.toInt

def handleP2p (operation : Operation) (argument : List UInt8) (s : Service β) :
    Except Err Answer × Service β :=
  if operation = .read then
    match loraGetConfig false s with
    | .error e => (.error e, s)
    | .ok config => (.ok (.value (tupleText (ascii "AT+P2P") config)), s)
  else
    match parseColonU32 w 6 argument with
    | .error e => (.error e, s)
    | .ok values =>
      match loraGetConfig false s with
      | .error e => (.error e, s)
      | .ok config => respondOk (loraSetConfig api false (some { config with
          frequencyHz := values.getD 0 0
          spreadingFactor := (values.getD 1 0).toUInt8
          bandwidth := values.getD 2 0
          codingRate := (values.getD 3 0).toUInt8
          preambleLength := (values.getD 4 0).toUInt16
          txPowerDbm := (values.getD 5 0).toUInt8.toInt8 }) s)

def handleTconf (operation : Operation) (argument : List UInt8) (s : Service β) :
    Except Err Answer × Service β :=
  match loraGetConfig false s with
  | .error e => (.error e, s)
  | .ok config =>
    if operation = .read then (.ok (.value (tupleText (ascii "AT+TCONF") config)), s)
    else
      match colonLoop w false 6 argument [] with
      | .error e => (.error e, s)
      | .ok values =>
        if values.length < 6 then (.error .invalid, s)
        else respondOk (loraSetConfig api false (some { config with
          frequencyHz := UInt32.ofNat (values.getD 0 0)
          spreadingFactor := UInt8.ofNat (values.getD 1 0)
          bandwidth := UInt32.ofNat (values.getD 2 0)
          codingRate := UInt8.ofNat (values.getD 3 0)
          preambleLength := UInt16.ofNat (values.getD 4 0)
          txPowerDbm := (UInt8.ofNat (values.getD 5 0)).toInt8 }) s)

/-! ### What agreement means -/

/-- The fields of a tuple, in its order. -/
def tupleFields : List Field := [pfreq, psf, pbw, pcr, ppl, ptp]

/-- A single command accepts an argument. -/
def Accepts (s : Service β) (f : Field) (argument : List UInt8) : Prop :=
  (writeU32 w api f .write argument s).1 = .ok .ok

/-- Single commands in sequence, each on its own argument. -/
def singles (fs : List Field) (arguments : List (List UInt8)) (s : Service β) : Service β :=
  (fs.zip arguments).foldl (fun s p => (writeU32 w api p.1 .write p.2 s).2) s

/-- A tuple command is the single commands on the fields of its argument. -/
structure Agrees (handle : Operation → List UInt8 → Service β → Except Err Answer × Service β)
    (argument : List UInt8) (s : Service β) : Prop where
  accepts : (handle .write argument s).1 = .ok .ok ↔
    List.Forall₂ (Accepts w api s) tupleFields (argument.splitOn 0x3a)
  stores : (handle .write argument s).1 = .ok .ok →
    (handle .write argument s).2.config = (singles w api tupleFields (argument.splitOn 0x3a) s).config
  others : (handle .write argument s).1 = .ok .ok → ∃ frequency sf bandwidth cr preamble power,
    (handle .write argument s).2.config = { s.config with
      frequencyHz := frequency, spreadingFactor := sf, bandwidth := bandwidth, codingRate := cr
      preambleLength := preamble, txPowerDbm := power }

/-- The ranges of the single commands. -/
def InRange (f : Field) (x : Number) : Prop := (f.min.toNat : Int) ≤ x.toInt ∧ x.toInt ≤ f.max.toNat

/-- Six numbers in the ranges of the single commands, and nothing else. -/
def Exact (argument : List UInt8) : Prop :=
  ∃ xs, Numerals 0x3a argument xs ∧ List.Forall₂ InRange tupleFields xs

/-- Numbers that `rzi_lora_set_config` accepts once they are unsigned and cut to the widths of the
fields: of the frequency and the bandwidth it checks nothing. -/
def Passes : List Number → Prop
  | [_, sf, _, cr, preamble, power] =>
    5 ≤ sf.ulong w % 256 ∧ sf.ulong w % 256 ≤ 12 ∧ cr.ulong w % 256 ≤ 3 ∧
      5 ≤ preamble.ulong w % 65536 ∧ 5 ≤ power.ulong w % 256 ∧ power.ulong w % 256 ≤ 22
  | _ => False

/-- Six such numbers, of which one is out of the range of its single command, or is followed by a colon
and whatever else where the argument should end. -/
def Misread (argument : List UInt8) : Prop :=
  ∃ xs rest, Leads 0x3a argument xs rest ∧ Passes w xs ∧
    (rest = [] ∧ ¬ List.Forall₂ InRange tupleFields xs ∨ rest.head? = some 0x3a)

variable {w} {api} {s : Service β} {argument cursor rest : List UInt8} {values vs : List Nat}

/-! ### One number -/

theorem tupleFields_max {f : Field} (hf : f ∈ tupleFields) : f.max.toNat ≤ 960000000 := by
  revert f
  decide

theorem long_of_inRange (hw : 32 ≤ w) {f : Field} (hmax : f.max.toNat ≤ 960000000) {x : Number}
    (h : InRange f x) : x.long w = x.toInt := by
  have hpow := two_pow_le hw
  obtain ⟨hlo, hhi⟩ := h
  exact long_eq (by omega) (by omega)

/-- The saturated number is in the range of a field exactly when the number is. -/
theorem long_inRange (hw : 32 ≤ w) {f : Field} (hmax : f.max.toNat ≤ 960000000) {x : Number} :
    (f.min.toNat : Int) ≤ x.long w ∧ x.long w ≤ f.max.toNat ↔ InRange f x := by
  have hpow := two_pow_le hw
  constructor
  · intro h
    have hx : x.long w = x.toInt := long_eq_of_mem (by omega) (by omega)
    rw [hx] at h
    exact h
  · intro h
    rw [long_of_inRange hw hmax h]
    exact h

/-- A write of one field. -/
theorem writeU32_cases (hw : 32 ≤ w) (happly : Takes api) {f : Field} (hmax : f.max.toNat ≤ 960000000)
    (argument : List UInt8) (s : Service β) :
    (∃ x b, Numeral argument x ∧ InRange f x ∧ (f.store s.config (UInt32.ofInt x.toInt)).Valid ∧
        writeU32 w api f .write argument s =
          (.ok .ok, { s with config := f.store s.config (UInt32.ofInt x.toInt), backend := b })) ∨
      (¬ ∃ x, Numeral argument x ∧ InRange f x ∧ (f.store s.config (UInt32.ofInt x.toInt)).Valid) ∧
        writeU32 w api f .write argument s = (.error .invalid, s) := by
  unfold writeU32
  rcases parseLong_cases w argument with ⟨x, hx, hunique, hparse⟩ | ⟨hnone, hparse⟩
  · have hlong := @long_inRange w hw f hmax x
    simp only [hparse, loraGetConfig, Bool.false_eq_true, if_false, reduceCtorEq]
    by_cases hrange : InRange f x
    · rw [if_neg (by have := hlong.2 hrange; omega), long_of_inRange hw hmax hrange]
      rcases happly.loraSetConfig (f.store s.config (UInt32.ofInt x.toInt)) s with
        ⟨hvalid, b, hset⟩ | ⟨hvalid, hset⟩
      · rw [hset]
        exact .inl ⟨x, b, hx, hrange, hvalid, rfl⟩
      · rw [hset]
        refine .inr ⟨?_, rfl⟩
        rintro ⟨y, hy, -, hvalid'⟩
        cases hunique y hy
        exact hvalid hvalid'
    · rw [if_pos (by have := mt hlong.1 hrange; omega)]
      refine .inr ⟨?_, rfl⟩
      rintro ⟨y, hy, hrange', -⟩
      cases hunique y hy
      exact hrange hrange'
  · rw [hparse]
    refine .inr ⟨?_, rfl⟩
    rintro ⟨x, hx, -⟩
    exact hnone x hx

/-! ### Six numbers -/

/-- What may follow the last number: nothing, or a colon, with more behind it if `closed`. -/
def Follows (closed : Bool) (rest : List UInt8) : Prop :=
  rest = [] ∨ ∃ more, rest = 0x3a :: more ∧ (closed = true → more ≠ [])

section Loop
variable {x : Number} {closed : Bool} {left : Nat}

theorem colonLoop_none (hscan : scan 10 cursor = none) :
    ¬ (colonLoop w closed (left + 1) cursor values = .ok vs ∧ vs.length = values.length + (left + 1)) := by
  rintro ⟨h, hlen⟩
  rw [colonLoop] at h
  split at h
  · cases h
    omega
  · rw [strtoul_none hscan] at h
    dsimp only at h
    rw [if_pos rfl] at h
    cases h

/-- One turn of the loop. -/
theorem colonLoop_scan (hscan : scan 10 cursor = some (x, rest)) :
    colonLoop w closed (left + 1) cursor values =
      if rest = [] then .ok (values ++ [x.ulong w])
      else if rest.head? ≠ some 0x3a ∨ closed = true ∧ rest.tail = [] then .error .invalid
      else colonLoop w closed left rest.tail (values ++ [x.ulong w]) := by
  have hne : cursor ≠ [] := by
    rintro rfl
    cases hscan
  rw [colonLoop, if_neg hne, strtoul_some hscan]
  dsimp only
  rw [if_neg (scan_moved hscan)]

theorem follows_iff (hne : rest ≠ []) :
    Follows closed rest ↔ ¬ (rest.head? ≠ some 0x3a ∨ closed = true ∧ rest.tail = []) := by
  obtain ⟨b, more, rfl⟩ := List.exists_cons_of_ne_nil hne
  unfold Follows
  simp only [List.head?_cons, List.tail_cons, List.cons.injEq, reduceCtorEq, false_or, Option.some.injEq,
    not_or, not_not, not_and]
  constructor
  · rintro ⟨more', ⟨rfl, rfl⟩, h⟩
    exact ⟨rfl, h⟩
  · rintro ⟨rfl, h⟩
    exact ⟨more, ⟨rfl, rfl⟩, h⟩

theorem colonLoop_length (h : colonLoop w closed left cursor values = .ok vs) :
    vs.length ≤ values.length + left := by
  induction left generalizing cursor values with
  | zero =>
    cases h
    exact Nat.le_refl _
  | succ left ih =>
    cases hscan : scan 10 cursor with
    | none =>
      rw [colonLoop, strtoul_none hscan] at h
      split at h
      · cases h
        omega
      · dsimp only at h
        rw [if_pos rfl] at h
        cases h
    | some r =>
      obtain ⟨x, rest⟩ := r
      have hone : (values ++ [x.ulong w]).length = values.length + 1 := by
        rw [List.length_append, List.length_singleton]
      rw [colonLoop_scan hscan] at h
      split at h
      · cases h
        omega
      · split at h
        · cases h
        · have hle := ih h
          omega

theorem colonLoop_last (hscan : scan 10 cursor = some (x, rest)) :
    colonLoop w closed 1 cursor values = .ok vs ↔ Follows closed rest ∧ vs = values ++ [x.ulong w] := by
  rw [colonLoop_scan hscan]
  by_cases hrest : rest = []
  · rw [if_pos hrest, Except.ok.injEq]
    exact ⟨fun h => ⟨.inl hrest, h.symm⟩, fun h => h.2.symm⟩
  · rw [if_neg hrest]
    by_cases hfollows : Follows closed rest
    · rw [if_neg ((follows_iff hrest).1 hfollows), colonLoop, Except.ok.injEq]
      exact ⟨fun h => ⟨hfollows, h.symm⟩, fun h => h.2.symm⟩
    · rw [if_pos (not_not.1 (mt (follows_iff hrest).2 hfollows))]
      exact ⟨fun h => (by cases h), fun h => absurd h.1 hfollows⟩

/-- While more values are wanted, a colon and a number have to follow. -/
theorem colonLoop_more (hscan : scan 10 cursor = some (x, rest)) :
    (colonLoop w closed (left + 2) cursor values = .ok vs ∧ vs.length = values.length + (left + 2)) ↔
      ∃ text', rest = 0x3a :: text' ∧
        colonLoop w closed (left + 1) text' (values ++ [x.ulong w]) = .ok vs ∧
          vs.length = (values ++ [x.ulong w]).length + (left + 1) := by
  have hcount : (values ++ [x.ulong w]).length + (left + 1) = values.length + (left + 2) := by
    rw [List.length_append, List.length_singleton]
    omega
  rw [colonLoop_scan hscan, hcount]
  by_cases hrest : rest = []
  · rw [if_pos hrest]
    constructor
    · rintro ⟨h, hlen⟩
      cases h
      rw [List.length_append, List.length_singleton] at hlen
      omega
    · rintro ⟨text', hcons, -⟩
      rw [hrest] at hcons
      cases hcons
  · rw [if_neg hrest]
    obtain ⟨b, more, rfl⟩ := List.exists_cons_of_ne_nil hrest
    by_cases hfollows : Follows closed (b :: more)
    · rw [if_neg ((follows_iff hrest).1 hfollows)]
      have hcolon : b = 0x3a := by
        obtain hnil | ⟨_, hcons, -⟩ := hfollows
        · cases hnil
        · exact (List.cons.inj hcons).1
      subst hcolon
      exact ⟨fun h => ⟨more, rfl, h⟩, fun ⟨text', hcons, h⟩ => (by cases hcons; exact h)⟩
    · rw [if_pos (not_not.1 (mt (follows_iff hrest).2 hfollows))]
      refine ⟨fun h => (by cases h.1), ?_⟩
      rintro ⟨text', hcons, h⟩
      -- nothing follows the colon, and the loop would have to read a number there
      have hempty : more = [] := by
        by_contra hne
        exact hfollows (.inr ⟨more, by rw [(List.cons.inj hcons).1], fun _ => hne⟩)
      obtain ⟨-, rfl⟩ := List.cons.inj hcons
      rw [hempty, ← hcount] at h
      exact absurd h (colonLoop_none rfl)

/-- Where no number stands, neither side reads one. -/
theorem colonLoop_unread {n : Nat} {cursor : List UInt8} (hscan : scan 10 cursor = none)
    (closed : Bool) (values vs : List Nat) :
    colonLoop w closed (n + 1) cursor values = .ok vs ∧ vs.length = values.length + (n + 1) ↔
      ∃ xs rest, Leads 0x3a cursor xs rest ∧ xs.length = n + 1 ∧ Follows closed rest ∧
        vs = values ++ xs.map (·.ulong w) := by
  refine ⟨fun h => absurd h (colonLoop_none hscan), ?_⟩
  rintro ⟨xs, rest, hleads, -⟩
  exact absurd hleads (not_leads_of_scan separates_colon.1 hscan)

/-- The loop reads the wanted number of values exactly from a text that begins with so many numbers. -/
theorem colonLoop_ok (closed : Bool) (n : Nat) (cursor : List UInt8) (values vs : List Nat) :
    colonLoop w closed (n + 1) cursor values = .ok vs ∧ vs.length = values.length + (n + 1) ↔
      ∃ xs rest, Leads 0x3a cursor xs rest ∧ xs.length = n + 1 ∧ Follows closed rest ∧
        vs = values ++ xs.map (·.ulong w) := by
  induction n generalizing cursor values with
  | zero =>
    cases hscan : scan 10 cursor with
    | none => exact colonLoop_unread hscan closed values vs
    | some r =>
      obtain ⟨x, next⟩ := r
      rw [colonLoop_last hscan]
      simp only [leads_iff_of_scan separates_colon.1 hscan]
      constructor
      · rintro ⟨⟨hfollows, rfl⟩, -⟩
        exact ⟨[x], next, ⟨[], rfl, .inl ⟨rfl, rfl⟩⟩, rfl, hfollows, rfl⟩
      · rintro ⟨xs, rest, ⟨ys, rfl, ⟨rfl, rfl⟩ | ⟨text', -, hleads⟩⟩, hlen, hfollows, rfl⟩
        · exact ⟨⟨hfollows, rfl⟩, by rw [List.length_append]; rfl⟩
        · exact absurd (List.length_eq_zero_iff.1 (Nat.succ.inj hlen)) hleads.ne_nil
  | succ n ih =>
    cases hscan : scan 10 cursor with
    | none => exact colonLoop_unread hscan closed values vs
    | some r =>
      obtain ⟨x, next⟩ := r
      rw [colonLoop_more hscan]
      simp only [leads_iff_of_scan separates_colon.1 hscan, ih]
      constructor
      · rintro ⟨text', rfl, xs, rest, hleads, hlen, hfollows, rfl⟩
        refine ⟨x :: xs, rest, ⟨xs, rfl, .inr ⟨text', rfl, hleads⟩⟩, congrArg (· + 1) hlen, hfollows, ?_⟩
        rw [List.append_assoc]
        rfl
      · rintro ⟨xs, rest, ⟨ys, rfl, ⟨rfl, rfl⟩ | ⟨text', rfl, hleads⟩⟩, hlen, hfollows, rfl⟩
        · cases hlen
        · refine ⟨text', rfl, ys, rest, hleads, Nat.succ.inj hlen, hfollows, ?_⟩
          rw [List.append_assoc]
          rfl

end Loop

/-- The configuration that the tuple commands store. -/
def tupleConfig (w : Nat) (config : Config) : List Number → Config
  | [frequency, sf, bandwidth, cr, preamble, power] => { config with
      frequencyHz := UInt32.ofNat (frequency.ulong w)
      spreadingFactor := UInt8.ofNat (sf.ulong w)
      bandwidth := UInt32.ofNat (bandwidth.ulong w)
      codingRate := UInt8.ofNat (cr.ulong w)
      preambleLength := UInt16.ofNat (preamble.ulong w)
      txPowerDbm := (UInt8.ofNat (power.ulong w)).toInt8 }
  | _ => config

theorem power_range (b : UInt8) : 5 ≤ b.toInt8 ∧ b.toInt8 ≤ 22 ↔ 5 ≤ b.toNat ∧ b.toNat ≤ 22 := by
  have hlt : b.toNat < 256 := b.toNat_lt
  have hint : b.toInt8.toInt = if 2 * b.toNat < 256 then (b.toNat : Int) else b.toNat - 256 :=
    BitVec.toInt_eq_toNat_cond _
  have hlo : (5 : Int8).toInt = 5 := rfl
  have hhi : (22 : Int8).toInt = 22 := rfl
  rw [Int8.le_iff_toInt_le, Int8.le_iff_toInt_le, hlo, hhi, hint]
  split <;> omega

theorem six_numbers {xs : List Number} (hlen : xs.length = 6) : ∃ a b c d e f, xs = [a, b, c, d, e, f] := by
  obtain ⟨a, xs, rfl⟩ := List.exists_cons_of_length_eq_add_one hlen
  obtain ⟨b, xs, rfl⟩ := List.exists_cons_of_length_eq_add_one (Nat.succ.inj hlen)
  obtain ⟨c, xs, rfl⟩ := List.exists_cons_of_length_eq_add_one (Nat.succ.inj (Nat.succ.inj hlen))
  match xs, hlen with
  | [d, e, f], _ => exact ⟨a, b, c, d, e, f, rfl⟩

/-- The check of `rzi_lora_set_config` sees four of the six numbers, cut to their fields. -/
theorem tupleConfig_valid {config : Config} {xs : List Number} (hlen : xs.length = 6) :
    (tupleConfig w config xs).Valid ↔ Passes w xs := by
  obtain ⟨frequency, sf, bandwidth, cr, preamble, power, rfl⟩ := six_numbers hlen
  have hpower := power_range (UInt8.ofNat (power.ulong w))
  simp only [UInt8.toNat_ofNat'] at hpower
  unfold tupleConfig Passes Config.Valid
  simp only [UInt8.le_iff_toNat_le, UInt16.le_iff_toNat_le, UInt8.toNat_ofNat', UInt16.toNat_ofNat',
    UInt8.reduceToNat, UInt16.reduceToNat]
  rw [← and_assoc (a := 5 ≤ (UInt8.ofNat (power.ulong w)).toInt8), hpower]
  omega

/-- The argument is read as six numbers, which pass. -/
def Reads (w : Nat) (closed : Bool) (argument : List UInt8) (xs : List Number) : Prop :=
  (∃ rest, Leads 0x3a argument xs rest ∧ Follows closed rest) ∧ xs.length = 6 ∧ Passes w xs

/-- A tuple command stores the six numbers that it reads. -/
def StoresWhatItReads (w : Nat) (closed : Bool) (argument : List UInt8) (s : Service β)
    (r : Except Err Answer × Service β) : Prop :=
  (∃ xs b, Reads w closed argument xs ∧
      r = (.ok .ok, { s with config := tupleConfig w s.config xs, backend := b })) ∨
    (∀ xs, ¬ Reads w closed argument xs) ∧ ∃ e, r = (.error e, s)

/-- The two tuple commands, once the loop has been run. -/
theorem stores_of_loop (happly : Takes api) (closed : Bool) (argument : List UInt8) (s : Service β)
    {r : Except Err Answer × Service β}
    (hbad : (∀ vs, ¬ (colonLoop w closed 6 argument [] = .ok vs ∧ vs.length = 6)) → ∃ e, r = (.error e, s))
    (hgood : ∀ xs : List Number, xs.length = 6 →
      colonLoop w closed 6 argument [] = .ok (xs.map (·.ulong w)) →
      r = respondOk (loraSetConfig api false (some (tupleConfig w s.config xs)) s)) :
    StoresWhatItReads w closed argument s r := by
  by_cases hloop : ∃ vs, colonLoop w closed 6 argument [] = .ok vs ∧ vs.length = 6
  · obtain ⟨vs, hvs⟩ := hloop
    obtain ⟨xs, rest, hleads, hlen, hfollows, rfl⟩ := (colonLoop_ok closed 5 argument [] vs).1 hvs
    rw [hgood xs hlen hvs.1]
    rcases happly.loraSetConfig (tupleConfig w s.config xs) s with ⟨hvalid, b, hset⟩ | ⟨hvalid, hset⟩
    · rw [hset]
      exact .inl ⟨xs, b, ⟨⟨rest, hleads, hfollows⟩, hlen, (tupleConfig_valid hlen).1 hvalid⟩, rfl⟩
    · rw [hset]
      refine .inr ⟨?_, .invalid, rfl⟩
      rintro ys ⟨⟨rest', hleads', -⟩, hlen', hpasses⟩
      obtain ⟨rfl, -⟩ := hleads.unique separates_colon.1 hleads' (hlen.trans hlen'.symm)
      exact hvalid ((tupleConfig_valid hlen).2 hpasses)
  · refine .inr ⟨?_, hbad fun vs hvs => hloop ⟨vs, hvs⟩⟩
    rintro xs ⟨⟨rest, hleads, hfollows⟩, hlen, -⟩
    exact hloop ⟨_, (colonLoop_ok closed 5 argument [] _).2 ⟨xs, rest, hleads, hlen, hfollows, rfl⟩⟩

theorem handleP2p_stores (happly : Takes api) (argument : List UInt8) (s : Service β) :
    StoresWhatItReads w true argument s (handleP2p w api .write argument s) := by
  have hwrite : Operation.write ≠ .read := by decide
  unfold handleP2p parseColonU32
  rw [if_neg hwrite]
  refine stores_of_loop happly true argument s (fun hloop => ?_) fun xs hlen hloop => ?_
  · cases hvs : colonLoop w true 6 argument [] with
    | error e => exact ⟨e, rfl⟩
    | ok vs =>
      dsimp only
      rw [if_neg fun hlen => hloop vs ⟨hvs, hlen⟩]
      exact ⟨.invalid, rfl⟩
  · rw [hloop]
    dsimp only
    rw [if_pos ((List.length_map _).trans hlen)]
    obtain ⟨frequency, sf, bandwidth, cr, preamble, power, rfl⟩ := six_numbers hlen
    rw [tupleConfig]
    simp only [← UInt32.toUInt8_ofNat', ← UInt32.toUInt16_ofNat']
    rfl

theorem handleTconf_stores (happly : Takes api) (argument : List UInt8) (s : Service β) :
    StoresWhatItReads w false argument s (handleTconf w api .write argument s) := by
  have hwrite : Operation.write ≠ .read := by decide
  unfold handleTconf
  rw [show loraGetConfig false s = .ok s.config from rfl]
  dsimp only
  rw [if_neg hwrite]
  refine stores_of_loop happly false argument s (fun hloop => ?_) fun xs hlen hloop => ?_
  · cases hvs : colonLoop w false 6 argument [] with
    | error e => exact ⟨e, rfl⟩
    | ok vs =>
      have hle := colonLoop_length hvs
      have hne : vs.length ≠ 6 := fun hlen => hloop vs ⟨hvs, hlen⟩
      rw [List.length_nil] at hle
      dsimp only
      rw [if_pos (by omega)]
      exact ⟨.invalid, rfl⟩
  · obtain ⟨frequency, sf, bandwidth, cr, preamble, power, rfl⟩ := six_numbers hlen
    rw [hloop]
    rfl

/-! ### The single commands on the fields of a tuple -/

/-- A number in range is what `strtoul` makes of it. -/
theorem ulong_of_inRange (hw : 32 ≤ w) {f : Field} (hf : f ∈ tupleFields) {x : Number} (hx : InRange f x) :
    x.toInt = x.ulong w ∧ f.min.toNat ≤ x.ulong w ∧ x.ulong w ≤ f.max.toNat := by
  have hmax := tupleFields_max hf
  have hpow := two_pow_le hw
  have hmono : (2 : Int) ^ (w - 1) ≤ 2 ^ w := by
    have hnat : 2 ^ (w - 1) ≤ 2 ^ w := Nat.pow_le_pow_right (n := 2) (by decide) (by omega)
    have hint := Int.ofNat_le.2 hnat
    rwa [Int.natCast_pow, Int.natCast_pow] at hint
  obtain ⟨hlo, hhi⟩ := hx
  have hulong := @ulong_eq w x (by omega) (by omega)
  omega

/-- A number in range keeps the configuration valid. -/
theorem store_valid {f : Field} (hf : f ∈ tupleFields) {n : Nat} (hlo : f.min.toNat ≤ n)
    (hhi : n ≤ f.max.toNat) {config : Config} (hvalid : config.Valid) :
    (f.store config (UInt32.ofNat n)).Valid := by
  obtain ⟨hsf, hsf', htp, htp', hpl, hcr⟩ := hvalid
  simp only [tupleFields, List.mem_cons, List.not_mem_nil, or_false] at hf
  rcases hf with rfl | rfl | rfl | rfl | rfl | rfl
  · exact ⟨hsf, hsf', htp, htp', hpl, hcr⟩
  · have hle : 5 ≤ n ∧ n ≤ 12 := ⟨hlo, hhi⟩
    have hcut : 5 ≤ (UInt32.ofNat n).toUInt8 ∧ (UInt32.ofNat n).toUInt8 ≤ 12 := by
      simp only [UInt32.toUInt8_ofNat', UInt8.le_iff_toNat_le, UInt8.toNat_ofNat', UInt8.reduceToNat]
      omega
    exact ⟨hcut.1, hcut.2, htp, htp', hpl, hcr⟩
  · exact ⟨hsf, hsf', htp, htp', hpl, hcr⟩
  · have hle : n ≤ 3 := hhi
    have hcut : (UInt32.ofNat n).toUInt8 ≤ 3 := by
      simp only [UInt32.toUInt8_ofNat', UInt8.le_iff_toNat_le, UInt8.toNat_ofNat', UInt8.reduceToNat]
      omega
    exact ⟨hsf, hsf', htp, htp', hpl, hcut⟩
  · have hle : 5 ≤ n ∧ n ≤ 65535 := ⟨hlo, hhi⟩
    have hcut : 5 ≤ (UInt32.ofNat n).toUInt16 := by
      simp only [UInt32.toUInt16_ofNat', UInt16.le_iff_toNat_le, UInt16.toNat_ofNat', UInt16.reduceToNat]
      omega
    exact ⟨hsf, hsf', htp, htp', hcut, hcr⟩
  · have hle : 5 ≤ n ∧ n ≤ 22 := ⟨hlo, hhi⟩
    have hcut := (power_range (UInt32.ofNat n).toUInt8).2 (by
      simp only [UInt32.toUInt8_ofNat', UInt8.toNat_ofNat']
      omega)
    exact ⟨hsf, hsf', hcut.1, hcut.2, hpl, hcr⟩

/-- AT+PFREQ changes nothing that the check looks at. -/
theorem pfreq_valid {config : Config} {v : UInt32} : (pfreq.store config v).Valid ↔ config.Valid := Iff.rfl

/-- Fields that are numbers are a list of numbers. -/
theorem forall₂_numbers {fs : List Field} {texts : List (List UInt8)} :
    List.Forall₂ (fun f text => ∃ x, Numeral text x ∧ InRange f x) fs texts ↔
      ∃ xs, List.Forall₂ Numeral texts xs ∧ List.Forall₂ InRange fs xs := by
  constructor
  · intro h
    induction h with
    | nil => exact ⟨[], .nil, .nil⟩
    | cons hfirst _ ih =>
      obtain ⟨x, hx, hrange⟩ := hfirst
      obtain ⟨xs, hxs, hranges⟩ := ih
      exact ⟨x :: xs, .cons hx hxs, .cons hrange hranges⟩
  · rintro ⟨xs, hxs, hranges⟩
    induction hranges generalizing texts with
    | nil =>
      cases hxs
      exact .nil
    | cons hrange _ ih =>
      cases hxs with
      | cons hx hxs => exact .cons ⟨_, hx, hrange⟩ (ih hxs)

theorem exact_iff : Exact argument ↔ List.Forall₂ (fun f text => ∃ x, Numeral text x ∧ InRange f x)
    tupleFields (argument.splitOn 0x3a) := by
  unfold Exact
  simp only [numerals_iff_splitOn separates_colon, forall₂_numbers]

/-- In a valid configuration, a single command accepts the numbers in its range. -/
theorem accepts_iff (hw : 32 ≤ w) (happly : Takes api) (hvalid : s.config.Valid) {f : Field}
    (hf : f ∈ tupleFields) (text : List UInt8) :
    Accepts w api s f text ↔ ∃ x, Numeral text x ∧ InRange f x := by
  unfold Accepts
  rcases writeU32_cases hw happly (tupleFields_max hf) text s with ⟨x, b, hx, hrange, -, heq⟩ | ⟨hnone, heq⟩
  · rw [heq]
    exact ⟨fun _ => ⟨x, hx, hrange⟩, fun _ => rfl⟩
  · rw [heq]
    refine ⟨fun h => (by cases h), ?_⟩
    rintro ⟨x, hx, hrange⟩
    obtain ⟨hulong, hlo, hhi⟩ := ulong_of_inRange hw hf hrange
    have hmax := tupleFields_max hf
    refine absurd ⟨x, hx, hrange, ?_⟩ hnone
    rw [hulong, ofInt_eq (by omega)]
    exact store_valid hf hlo hhi hvalid

/-- The single commands accept the fields exactly where they are numbers in range, and the rest of the
configuration is valid. -/
theorem singles_accept_iff (hw : 32 ≤ w) (happly : Takes api) (argument : List UInt8) (s : Service β) :
    List.Forall₂ (Accepts w api s) tupleFields (argument.splitOn 0x3a) ↔
      Exact argument ∧ s.config.Valid := by
  by_cases hvalid : s.config.Valid
  · rw [exact_iff, and_iff_left hvalid, List.forall₂_iff_zip, List.forall₂_iff_zip]
    refine and_congr_right fun _ => ⟨fun h f text hmem => ?_, fun h f text hmem => ?_⟩
    · exact (accepts_iff hw happly hvalid (List.of_mem_zip hmem).1 text).1 (h hmem)
    · exact (accepts_iff hw happly hvalid (List.of_mem_zip hmem).1 text).2 (h hmem)
  · refine ⟨fun h => ?_, fun h => absurd h.2 hvalid⟩
    generalize argument.splitOn 0x3a = texts at h
    cases h with
    | cons hfirst _ =>
      unfold Accepts at hfirst
      rcases writeU32_cases hw happly (f := pfreq) (by decide) _ s with
        ⟨x, b, -, -, hstored, -⟩ | ⟨-, heq⟩
      · exact absurd (pfreq_valid.1 hstored) hvalid
      · rw [heq] at hfirst
        cases hfirst

/-- A single command stores a number in its range, and the configuration stays valid. -/
theorem writeU32_config (hw : 32 ≤ w) (happly : Takes api) (hvalid : s.config.Valid) {f : Field}
    (hf : f ∈ tupleFields) {text : List UInt8} {x : Number} (hx : Numeral text x) (hrange : InRange f x) :
    (writeU32 w api f .write text s).2.config = f.store s.config (UInt32.ofNat (x.ulong w)) ∧
      (f.store s.config (UInt32.ofNat (x.ulong w))).Valid := by
  obtain ⟨hulong, hlo, hhi⟩ := ulong_of_inRange hw hf hrange
  have hmax := tupleFields_max hf
  have hstore := store_valid hf hlo hhi hvalid
  have hcast : UInt32.ofInt x.toInt = UInt32.ofNat (x.ulong w) := by
    rw [hulong, ofInt_eq (by omega)]
  refine ⟨?_, hstore⟩
  rcases writeU32_cases hw happly (tupleFields_max hf) text s with ⟨y, b, hy, -, -, heq⟩ | ⟨hnone, -⟩
  · cases hy.unique hx
    rw [heq, hcast]
  · exact absurd ⟨x, hx, hrange, hcast ▸ hstore⟩ hnone

/-- The single commands in sequence, from a valid configuration: each finds the configuration valid. -/
theorem singles_config (hw : 32 ≤ w) (happly : Takes api) {fs : List Field}
    (hfs : ∀ f ∈ fs, f ∈ tupleFields) {texts : List (List UInt8)} {xs : List Number}
    (hxs : List.Forall₂ Numeral texts xs) (hranges : List.Forall₂ InRange fs xs)
    (hvalid : s.config.Valid) : (singles w api fs texts s).config =
      (fs.zip xs).foldl (fun c p => p.1.store c (UInt32.ofNat (p.2.ulong w))) s.config := by
  induction hranges generalizing texts s with
  | nil =>
    cases hxs
    rfl
  | cons hrange _ ih =>
    cases hxs with
    | cons hx hxs =>
      have hone := writeU32_config hw happly hvalid (hfs _ List.mem_cons_self) hx hrange
      have hrest := ih (fun f hf => hfs f (List.mem_cons_of_mem _ hf)) hxs (hone.1 ▸ hone.2)
      rw [hone.1] at hrest
      exact hrest

/-! ### Agreement -/

theorem exact_reads (hw : 32 ≤ w) (closed : Bool) {xs : List Number} (hxs : Numerals 0x3a argument xs)
    (hranges : List.Forall₂ InRange tupleFields xs) : Reads w closed argument xs := by
  have hlen : xs.length = 6 := hranges.length_eq.symm
  refine ⟨⟨[], leads_nil.2 hxs, .inl rfl⟩, hlen, ?_⟩
  have hone : ∀ f ∈ tupleFields, ∀ x, InRange f x → f.min.toNat ≤ x.ulong w ∧ x.ulong w ≤ f.max.toNat :=
    fun f hf x hx => (ulong_of_inRange hw hf hx).2
  obtain ⟨frequency, sf, bandwidth, cr, preamble, power, rfl⟩ := six_numbers hlen
  simp only [tupleFields, List.forall₂_cons, List.forall_mem_cons] at hranges hone
  obtain ⟨-, hsf, -, hcr, hpl, htp, -⟩ := hranges
  obtain ⟨-, hpsf, -, hpcr, hppl, hptp, -⟩ := hone
  have hsf' : 5 ≤ sf.ulong w ∧ sf.ulong w ≤ 12 := hpsf sf hsf
  have hcr' : 0 ≤ cr.ulong w ∧ cr.ulong w ≤ 3 := hpcr cr hcr
  have hpl' : 5 ≤ preamble.ulong w ∧ preamble.ulong w ≤ 65535 := hppl preamble hpl
  have htp' : 5 ≤ power.ulong w ∧ power.ulong w ≤ 22 := hptp power htp
  unfold Passes
  omega

/-- What the tuple commands store is what the single commands store, one after the other. -/
theorem tupleConfig_eq {config : Config} {xs : List Number} (hlen : xs.length = 6) :
    tupleConfig w config xs =
      (tupleFields.zip xs).foldl (fun c p => p.1.store c (UInt32.ofNat (p.2.ulong w))) config := by
  obtain ⟨frequency, sf, bandwidth, cr, preamble, power, rfl⟩ := six_numbers hlen
  simp only [tupleConfig, ← UInt32.toUInt8_ofNat', ← UInt32.toUInt16_ofNat']
  rfl

theorem tupleConfig_others {config : Config} {xs : List Number} (hlen : xs.length = 6) :
    ∃ frequency sf bandwidth cr preamble power, tupleConfig w config xs = { config with
      frequencyHz := frequency, spreadingFactor := sf, bandwidth := bandwidth, codingRate := cr
      preambleLength := preamble, txPowerDbm := power } := by
  obtain ⟨frequency, sf, bandwidth, cr, preamble, power, rfl⟩ := six_numbers hlen
  exact ⟨_, _, _, _, _, _, rfl⟩

/-- A tuple command agrees with the single commands exactly where what it reads as six numbers are six
numbers in their ranges. -/
theorem agrees_iff (hw : 32 ≤ w) (happly : Takes api) {closed : Bool}
    {handle : Operation → List UInt8 → Service β → Except Err Answer × Service β}
    (hstores : StoresWhatItReads w closed argument s (handle .write argument s)) :
    Agrees w api handle argument s ↔
      ((∃ xs, Reads w closed argument xs) → Exact argument ∧ s.config.Valid) := by
  constructor
  · rintro h ⟨xs, hreads⟩
    rw [← singles_accept_iff hw happly, ← h.accepts]
    rcases hstores with ⟨ys, b, -, heq⟩ | ⟨hnone, -⟩
    · rw [heq]
    · exact absurd hreads (hnone xs)
  · intro h
    rcases hstores with ⟨xs, b, hreads, heq⟩ | ⟨hnone, e, heq⟩
    · obtain ⟨hexact, hvalid⟩ := h ⟨xs, hreads⟩
      have haccepts := (singles_accept_iff hw happly argument s).2 ⟨hexact, hvalid⟩
      obtain ⟨ys, hys, hranges⟩ := hexact
      obtain ⟨⟨rest, hleads, -⟩, hlen, -⟩ := hreads
      obtain ⟨rfl, -⟩ := hleads.unique separates_colon.1 (leads_nil.2 hys)
        (hlen.trans hranges.length_eq)
      rw [numerals_iff_splitOn separates_colon] at hys
      constructor
      · rw [heq]
        exact ⟨fun _ => haccepts, fun _ => rfl⟩
      · intro _
        rw [heq, singles_config hw happly (fun f hf => hf) hys hranges hvalid]
        exact tupleConfig_eq hlen
      · intro _
        rw [heq]
        exact tupleConfig_others hlen
    · have hrejects : (handle .write argument s).1 ≠ .ok .ok := by
        rw [heq]
        exact fun h => (by cases h)
      refine ⟨⟨fun h => absurd h hrejects, fun hsingles => ?_⟩, fun h => absurd h hrejects,
        fun h => absurd h hrejects⟩
      obtain ⟨⟨ys, hys, hranges⟩, -⟩ := (singles_accept_iff hw happly argument s).1 hsingles
      exact absurd (exact_reads hw closed hys hranges) (hnone ys)

theorem Follows.open (h : Follows true rest) : Follows false rest := by
  rcases h with rfl | ⟨more, rfl, -⟩
  · exact .inl rfl
  · exact .inr ⟨more, rfl, fun h => (by cases h)⟩

theorem follows_of_colon (h : rest.head? = some 0x3a) : Follows false rest := by
  obtain ⟨more, rfl⟩ := List.head?_eq_some_iff.1 h
  exact .inr ⟨more, rfl, fun h => (by cases h)⟩

theorem Passes.length {xs : List Number} (h : Passes w xs) : xs.length = 6 := by
  unfold Passes at h
  split at h
  · rfl
  · exact h.elim

/-- AT+P2P and AT+TCONF agree with the six single commands exactly on the arguments that are not misread,
where the stored configuration is valid: it is, in every run of the service. -/
theorem tuples_agree_iff (hw : 32 ≤ w) (k : Backend)
    (start : Option (Modulation → Config → Except Err Unit × Config))
    (stop : Option (Config → Except Err Unit × Config)) (argument : List UInt8) (s : Service Config) :
    Agrees w (k.table start stop) (handleP2p w (k.table start stop)) argument s ∧
        Agrees w (k.table start stop) (handleTconf w (k.table start stop)) argument s ↔
      ¬ Misread w argument ∧ (Exact argument → s.config.Valid) := by
  have happly := k.takes start stop
  rw [agrees_iff hw happly (handleP2p_stores happly argument s),
    agrees_iff hw happly (handleTconf_stores happly argument s)]
  constructor
  · rintro ⟨-, h⟩
    refine ⟨?_, fun hexact => ?_⟩
    · rintro ⟨xs, rest, hleads, hpasses, hwrong⟩
      have hlen := hpasses.length
      have hfollows : Follows false rest := hwrong.elim (fun h => .inl h.1) follows_of_colon
      obtain ⟨⟨ys, hys, hranges⟩, -⟩ := h ⟨xs, ⟨rest, hleads, hfollows⟩, hlen, hpasses⟩
      obtain ⟨rfl, rfl⟩ := hleads.unique separates_colon.1 (leads_nil.2 hys)
        (hlen.trans hranges.length_eq)
      rcases hwrong with ⟨-, hout⟩ | hcolon
      · exact hout hranges
      · cases hcolon
    · obtain ⟨xs, hxs, hranges⟩ := hexact
      exact (h ⟨xs, exact_reads hw false hxs hranges⟩).2
  · rintro ⟨hread, hvalid⟩
    have htconf : (∃ xs, Reads w false argument xs) → Exact argument ∧ s.config.Valid := by
      rintro ⟨xs, ⟨rest, hleads, hfollows⟩, hlen, hpasses⟩
      have hnil : rest = [] := by
        rcases hfollows with hnil | ⟨more, rfl, -⟩
        · exact hnil
        · exact absurd ⟨xs, _, hleads, hpasses, .inr rfl⟩ hread
      have hranges : List.Forall₂ InRange tupleFields xs := by
        by_contra hout
        exact hread ⟨xs, rest, hleads, hpasses, .inl ⟨hnil, hout⟩⟩
      rw [hnil, leads_nil] at hleads
      exact ⟨⟨xs, hleads, hranges⟩, hvalid ⟨xs, hleads, hranges⟩⟩
    refine ⟨?_, htconf⟩
    rintro ⟨xs, ⟨rest, hleads, hfollows⟩, hlen, hpasses⟩
    exact htconf ⟨xs, ⟨rest, hleads, hfollows.open⟩, hlen, hpasses⟩

/-- The factory values as a tuple are read as they stand, so both commands agree with the single ones. -/
theorem tuples_agree_iff_default :
    Agrees 32 (Backend.usp.table none none) (handleP2p 32 (Backend.usp.table none none))
        (ascii "868000000:7:0:0:8:14") (.boot .init) ∧
      Agrees 32 (Backend.usp.table none none) (handleTconf 32 (Backend.usp.table none none))
        (ascii "868000000:7:0:0:8:14") (.boot .init) := by
  refine (tuples_agree_iff (by decide) .usp none none _ _).2 ⟨?_, fun _ => by decide⟩
  rintro ⟨xs, rest, hleads, hpasses, hwrong⟩
  have hsplit : (ascii "868000000:7:0:0:8:14").splitOn 0x3a =
      [ascii "868000000", ascii "7", ascii "0", ascii "0", ascii "8", ascii "14"] := by decide
  have hnumerals : Numerals 0x3a (ascii "868000000:7:0:0:8:14")
      [⟨false, 868000000⟩, ⟨false, 7⟩, ⟨false, 0⟩, ⟨false, 0⟩, ⟨false, 8⟩, ⟨false, 14⟩] := by
    rw [numerals_iff_splitOn separates_colon, hsplit]
    exact .cons (numeral_iff.2 rfl) (.cons (numeral_iff.2 rfl) (.cons (numeral_iff.2 rfl)
      (.cons (numeral_iff.2 rfl) (.cons (numeral_iff.2 rfl) (.cons (numeral_iff.2 rfl) .nil)))))
  obtain ⟨rfl, rfl⟩ := hleads.unique separates_colon.1 (leads_nil.2 hnumerals) hpasses.length
  rcases hwrong with ⟨-, hout⟩ | hcolon
  · refine hout (.cons ?_ (.cons ?_ (.cons ?_ (.cons ?_ (.cons ?_ (.cons ?_ .nil)))))) <;>
      exact ⟨by decide, by decide⟩
  · cases hcolon

/-- A frequency of 1 Hz: the tuple command stores it, AT+PFREQ refuses it. -/
theorem tuple_takes_any_frequency :
    ¬ Agrees 32 (Backend.usp.table none none) (handleP2p 32 (Backend.usp.table none none))
      (ascii "1:7:0:0:8:14") (.boot .init) := by
  intro h
  have hsingles := h.accepts.1 (by decide)
  have hsplit : (ascii "1:7:0:0:8:14").splitOn 0x3a =
      [ascii "1", ascii "7", ascii "0", ascii "0", ascii "8", ascii "14"] := by decide
  rw [hsplit] at hsingles
  cases hsingles with
  | cons hfreq _ =>
    unfold Accepts at hfreq
    revert hfreq
    decide

end Rzi.At.P2p
