import Rzi.AtArguments
import Rzi.AtHex
import Rzi.UspBackend

/-!
# Numbers on their way to the services (`at_lorawan_network_management.c`, `at_lorawan_multicast.c`, `handle_cw`)

Each handler narrows the `long`, `unsigned long` or `unsigned int` that it has parsed to the type of its
service function. `numbers_arrive_iff` says for which arguments the number that arrives is the one that
was written. A `long` has 32 bits; what `sscanf` makes of a number that does not fit is a parameter.
-/

namespace Rzi.At.Numbers
open Strtol
open Send (hexToBin)
open Usp (MulticastSession)

variable {σ α : Type*}

/-! ### The handlers -/

/-- `handle_u32`. -/
def handleU32 (name : List UInt8) (get : σ → Except Err UInt32 × σ)
    (set : Option (UInt32 → σ → Except Err Unit × σ)) (scale : UInt32) (operation : Operation)
    (argument : List UInt8) (s : σ) : Except Err Answer × σ :=
  if operation = .read then
    match get s with
    | (.error e, s) => (.error e, s)
    | (.ok value, s) => (.ok (.value (ascii "AT+" ++ name ++ ascii "=" ++ decimal (value / scale).toNat)), s)
  else
    match set with
    | none => (.error .notSupported, s)
    | some set =>
      match parseLong 32 argument with
      | .error _ => (.error .invalid, s)
      | .ok parsed =>
        if parsed ≤ 0 then (.error .invalid, s) else respondOk (set (UInt32.ofInt parsed * scale) s)

section U32
variable (get : σ → Except Err UInt32 × σ) (set : UInt32 → σ → Except Err Unit × σ)

def handleRx1dl := handleU32 (ascii "RX1DL") get (some set) 1000
def handleRx2dl := handleU32 (ascii "RX2DL") get (some set) 1000
def handleJn1dl := handleU32 (ascii "JN1DL") get (some set) 1000
def handleJn2dl := handleU32 (ascii "JN2DL") get (some set) 1000
def handleRx2fq := handleU32 (ascii "RX2FQ") get (some set) 1
def handleLbtScan := handleU32 (ascii "LBTSCANTIME") get (some set) 1

/-- The commands over `handle_u32`. -/
inductive Command where
  | rx1dl | rx2dl | jn1dl | jn2dl | rx2fq | lbtscantime
deriving DecidableEq, Repr

def Command.handle : Command → Operation → List UInt8 → σ → Except Err Answer × σ
  | .rx1dl => handleRx1dl get set
  | .rx2dl => handleRx2dl get set
  | .jn1dl => handleJn1dl get set
  | .jn2dl => handleJn2dl get set
  | .rx2fq => handleRx2fq get set
  | .lbtscantime => handleLbtScan get set

/-- Seconds to milliseconds, or nothing. -/
def Command.scale : Command → Nat
  | .rx1dl | .rx2dl | .jn1dl | .jn2dl => 1000
  | .rx2fq | .lbtscantime => 1

end U32

def handleLbtRssi (get : σ → Except Err Int16 × σ) (set : Int16 → σ → Except Err Unit × σ)
    (operation : Operation) (argument : List UInt8) (s : σ) : Except Err Answer × σ :=
  if operation = .read then
    match get s with
    | (.error e, s) => (.error e, s)
    | (.ok rssi, s) => (.ok (.value (ascii "AT+LBTRSSI=" ++ signedDecimal rssi.toInt)), s)
  else
    match parseLong 32 argument with
    | .error e => (.error e, s)
    | .ok parsed => respondOk (set (Int16.ofInt parsed) s)

/-- The three numbers of `handle_cw`. -/
def cwNumbers (argument : List UInt8) : Except Err (Nat × Int × Nat) :=
  let (frequency, rest) := strtoul 32 10 argument
  if rest = argument ∨ rest.head? ≠ some 0x3a then .error .invalid
  else
    let cursor := rest.tail
    let (power, rest) := strtol 32 10 cursor
    if rest = cursor ∨ rest.head? ≠ some 0x3a then .error .invalid
    else
      let cursor := rest.tail
      let (duration, rest) := strtoul 32 10 cursor
      if rest = cursor ∨ rest ≠ [] then .error .invalid else .ok (frequency, power, duration)

/-- The arguments of `rzi_lora_test_cw`. -/
structure Cw where
  frequencyHz : UInt32
  powerDbm : Int8
  durationMs : UInt32
deriving DecidableEq

/-- `handle_cw`, over `ensure_radio` and `rzi_lora_test_cw`. -/
def handleCw (ensureRadio : σ → Except Err Unit × σ) (testCw : Cw → σ → Except Err Unit × σ)
    (argument : List UInt8) (s : σ) : Except Err Answer × σ :=
  match cwNumbers argument with
  | .error e => (.error e, s)
  | .ok (frequency, power, duration) =>
    match ensureRadio s with
    | (.error e, s) => (.error e, s)
    | (.ok (), s) => respondOk
        (testCw ⟨UInt32.ofNat frequency, Int8.ofInt power, UInt32.ofNat duration⟩ s)

/-- What `%u` makes of a number that is out of range. -/
inductive Conversion where
  | saturates | wraps
deriving DecidableEq, Repr

/-- `%u` of `sscanf`. -/
def Conversion.unsigned (conversion : Conversion) (x : Number) : UInt32 :=
  match conversion with
  | .saturates => UInt32.ofNat (x.ulong 32)
  | .wraps => UInt32.ofInt x.toInt

/-- A literal colon of a format. -/
def skipColon (text : List UInt8) : Option (List UInt8) :=
  if text.head? = some 0x3a then some text.tail else none

/-- `%<width>[0-9A-Fa-f]`. -/
def scanHex (width : Nat) (text : List UInt8) : Option (List UInt8 × List UInt8) :=
  let hex := (text.take width).takeWhile (isDigit 16)
  if hex = [] then none else some (hex, text.drop hex.length)

/-- What the seven conversions of `handle_addmulc` yield, and what they leave unread. -/
structure Scanned where
  letter : UInt8
  devAddr : List UInt8
  nwkSKey : List UInt8
  appSKey : List UInt8
  frequency : Number
  dataRate : Number
  periodicity : Number
  unread : List UInt8
deriving DecidableEq

/-- The three numbers after the keys. -/
def scanNumbers (text : List UInt8) : Option (Number × Number × Number × List UInt8) := do
  let (frequency, text) ← scan 10 text
  let text ← skipColon text
  let (dataRate, text) ← scan 10 text
  let text ← skipColon text
  let (periodicity, text) ← scan 10 text
  some (frequency, dataRate, periodicity, text)

/-- The call of `sscanf`, where it converts all seven. -/
def scanSession : List UInt8 → Option Scanned
  | [] => none
  | letter :: text => do
    let text ← skipColon text
    let (devAddr, text) ← scanHex 8 text
    let text ← skipColon text
    let (nwkSKey, text) ← scanHex 32 text
    let text ← skipColon text
    let (appSKey, text) ← scanHex 32 text
    let text ← skipColon text
    let (frequency, dataRate, periodicity, unread) ← scanNumbers text
    some ⟨letter, devAddr, nwkSKey, appSKey, frequency, dataRate, periodicity, unread⟩

def parseDevAddr (hex : List UInt8) : Except Err UInt32 :=
  match hexToBin hex 4 with
  | .error e => .error e
  | .ok bytes => .ok (bytes.foldl (fun v b => v <<< 8 ||| b.toUInt32) 0)

/-- A key in an array of 16 bytes. -/
def keyBytes (bytes : List UInt8) : Vector UInt8 16 := .ofFn fun i => bytes.getD i 0

/-- The class that a letter stands for. -/
def sessionClass (letter : UInt8) : Option Usp.DeviceClass :=
  if letter = 0x42 then some .b else if letter = 0x43 then some .c else none

/-- The session that `handle_addmulc` makes of its argument. -/
def sessionOf (conversion : Conversion) (argument : List UInt8) : Except Err MulticastSession :=
  match scanSession argument with
  | none => .error .invalid
  | some r =>
    match sessionClass r.letter with
    | none => .error .invalid
    | some deviceClass =>
      match parseDevAddr r.devAddr, hexToBin r.nwkSKey 16, hexToBin r.appSKey 16 with
      | .ok devAddr, .ok nwkSKey, .ok appSKey =>
        let frequency := conversion.unsigned r.frequency
        let dataRate := conversion.unsigned r.dataRate
        if frequency = 0 ∨ 15 < dataRate then .error .invalid
        else .ok
          { deviceClass, devAddr, groupId := -1
            networkSessionKey := keyBytes nwkSKey, applicationSessionKey := keyBytes appSKey
            frequencyHz := frequency, dataRate := dataRate.toUInt8
            periodicity := (conversion.unsigned r.periodicity).toUInt16 }
      | _, _, _ => .error .invalid

/-- `handle_addmulc`, over `rzi_lorawan_add_multicast_session`. -/
def handleAddmulc (conversion : Conversion) (add : MulticastSession → σ → Except Err Unit × σ)
    (argument : List UInt8) (s : σ) : Except Err Answer × σ :=
  match sessionOf conversion argument with
  | .error e => (.error e, s)
  | .ok session => respondOk (add session s)

/-! ### What arriving means -/

/-- A service function that answers `answer` and writes down what it is called with. -/
def logged (answer : Except Err Unit) (x : α) (calls : List α) : Except Err Unit × List α :=
  (answer, calls ++ [x])

/-- Either the command is rejected and nothing is called, or the service function is called once, with
what the argument denotes. -/
def Arrives (Denoted : α → Prop) (r : Except Err Answer × List α) : Prop :=
  (∃ e, r = (.error e, [])) ∨ ∃ x, r.2 = [x] ∧ Denoted x

/-- The number of a text, times the scale. -/
def DenotesScaled (scale : Nat) (text : List UInt8) (v : UInt32) : Prop :=
  ∃ x, Numeral text x ∧ (v.toNat : Int) = x.toInt * scale

def DenotesSigned (text : List UInt8) (v : Int16) : Prop := ∃ x, Numeral text x ∧ v.toInt = x.toInt

/-- The numbers of the three fields of a text. -/
def DenotesCw (text : List UInt8) (v : Cw) : Prop :=
  ∃ x y z, Numerals 0x3a text [x, y, z] ∧ (v.frequencyHz.toNat : Int) = x.toInt ∧
    v.powerDbm.toInt = y.toInt ∧ (v.durationMs.toNat : Int) = z.toInt

/-- The numbers of the last three of the seven fields of a text. -/
def DenotesSession (text : List UInt8) (v : MulticastSession) : Prop :=
  ∃ letter devAddr nwkSKey appSKey f d p, text.splitOn 0x3a = [letter, devAddr, nwkSKey, appSKey, f, d, p] ∧
    (∃ x, Numeral f x ∧ (v.frequencyHz.toNat : Int) = x.toInt) ∧
    (∃ y, Numeral d y ∧ (v.dataRate.toNat : Int) = y.toInt) ∧
    ∃ z, Numeral p z ∧ (v.periodicity.toNat : Int) = z.toInt

variable {text : List UInt8} {x y z : Number} {answer : Except Err Unit} {Denoted : α → Prop}

theorem arrives_error (e : Err) : Arrives Denoted (.error e, []) := .inl ⟨e, rfl⟩

theorem arrives_call (v : α) : Arrives Denoted (respondOk (logged answer v [])) ↔ Denoted v := by
  have hcalls : (respondOk (logged answer v [])).2 = [v] := by
    cases answer <;> rfl
  constructor
  · rintro (⟨e, he⟩ | ⟨u, hu, hden⟩)
    · rw [he] at hcalls
      cases hcalls
    · cases hu.symm.trans hcalls
      exact hden
  · exact fun h => .inr ⟨v, hcalls, h⟩

/-! ### One number -/

/-- A `long` of 32 bits, without the powers. -/
theorem long_32 (x : Number) : x.long 32 = max (-2147483648) (min 2147483647 x.toInt) := by
  unfold Number.long Number.toInt
  cases x.negative with
  | true =>
    simp only [if_true]
    omega
  | false =>
    simp only [Bool.false_eq_true, if_false]
    omega

/-- The largest number that survives the scaling. -/
def Command.limit (c : Command) : Int := if c.scale = 1 then 2147483647 else 4294967

theorem handleU32_arrives (get : List UInt32 → Except Err UInt32 × List UInt32) (name : List UInt8)
    {scale : Nat} {limit : Int} (hlimit : scale = 1 ∧ limit = 2147483647 ∨ scale = 1000 ∧ limit = 4294967) :
    Arrives (DenotesScaled scale text)
        (handleU32 name get (some (logged answer)) (UInt32.ofNat scale) .write text []) ↔
      ∀ x, Numeral text x → x.toInt ≤ limit := by
  unfold handleU32
  rw [if_neg (by decide)]
  dsimp only
  rcases parseLong_cases 32 text with ⟨x, hx, hunique, hparse⟩ | ⟨hnone, hparse⟩
  · have hlong := long_32 x
    rw [hparse]
    dsimp only
    split
    · refine ⟨fun _ y hy => ?_, fun _ => arrives_error _⟩
      obtain rfl := hunique y hy
      omega
    · rename_i hpos
      rw [arrives_call]
      have hcall : ((UInt32.ofInt (x.long 32) * UInt32.ofNat scale).toNat : Int) =
          x.long 32 * scale % 4294967296 := by
        obtain ⟨n, hn⟩ : ∃ n : Nat, x.long 32 = n := ⟨(x.long 32).toNat, by omega⟩
        rw [hn, ofInt_eq (by omega), UInt32.toNat_mul, UInt32.toNat_ofNat', UInt32.toNat_ofNat',
          ← Nat.mul_mod, Int.natCast_emod, Int.natCast_mul]
        rfl
      constructor
      · rintro ⟨y, hy, hval⟩ y' hy'
        obtain rfl := hunique y hy
        obtain rfl := hunique y' hy'
        rw [hcall] at hval
        rcases hlimit with ⟨rfl, rfl⟩ | ⟨rfl, rfl⟩ <;> omega
      · intro h
        have hle := h x hx
        refine ⟨x, hx, ?_⟩
        rw [hcall]
        rcases hlimit with ⟨rfl, rfl⟩ | ⟨rfl, rfl⟩ <;> omega
  · rw [hparse]
    exact ⟨fun _ x hx => absurd hx (hnone x), fun _ => arrives_error _⟩

theorem handleLbtRssi_arrives (get : List Int16 → Except Err Int16 × List Int16) :
    Arrives (DenotesSigned text) (handleLbtRssi get (logged answer) .write text []) ↔
      ∀ x, Numeral text x → -32768 ≤ x.toInt ∧ x.toInt ≤ 32767 := by
  unfold handleLbtRssi
  rw [if_neg (by decide)]
  rcases parseLong_cases 32 text with ⟨x, hx, hunique, hparse⟩ | ⟨hnone, hparse⟩
  · have hlong := long_32 x
    rw [hparse]
    dsimp only
    rw [arrives_call]
    have hcut : (Int16.ofInt (x.long 32)).toInt = (x.long 32 + 32768) % 65536 - 32768 := by
      rw [Int16.toInt_ofInt, Int.bmod, show ((Int16.size : Nat) : Int) = 65536 from rfl]
      split <;> omega
    constructor
    · rintro ⟨y, hy, hval⟩ y' hy'
      obtain rfl := hunique y hy
      obtain rfl := hunique y' hy'
      omega
    · intro h
      have hle := h x hx
      refine ⟨x, hx, ?_⟩
      omega
  · rw [hparse]
    exact ⟨fun _ x hx => absurd hx (hnone x), fun _ => arrives_error _⟩

/-! ### Three numbers -/

/-- Three numbers with colons between them, by what the scanner reads one after the other. -/
theorem three_numbers {rest : List UInt8} : Leads 0x3a text [x, y, z] rest ↔
    ∃ t u, scan 10 text = some (x, 0x3a :: t) ∧ scan 10 t = some (y, 0x3a :: u) ∧
      scan 10 u = some (z, rest) := by
  rw [leads_cons_iff separates_colon.1]
  constructor
  · rintro ⟨_, hx, ⟨h, -⟩ | ⟨t, rfl, hmore⟩⟩
    · cases h
    · obtain ⟨_, hy, ⟨h, -⟩ | ⟨u, rfl, hmore⟩⟩ := (leads_cons_iff separates_colon.1).1 hmore
      · cases h
      · obtain ⟨_, hz, ⟨-, rfl⟩ | ⟨_, -, hmore⟩⟩ := (leads_cons_iff separates_colon.1).1 hmore
        · exact ⟨t, u, hx, hy, hz⟩
        · exact absurd rfl hmore.ne_nil
  · rintro ⟨t, u, hx, hy, hz⟩
    refine ⟨_, hx, .inr ⟨t, rfl, ?_⟩⟩
    refine (leads_cons_iff separates_colon.1).2 ⟨_, hy, .inr ⟨u, rfl, ?_⟩⟩
    exact (leads_cons_iff separates_colon.1).2 ⟨_, hz, .inl ⟨rfl, rfl⟩⟩

/-- A function that reads a number as `strtol` and `strtoul` do. -/
def Reads (f : List UInt8 → α × List UInt8) (value : Number → α) : Prop :=
  ∀ text, (∃ x rest, scan 10 text = some (x, rest) ∧ f text = (value x, rest)) ∨ (f text).2 = text

theorem reads_strtol : Reads (strtol 32 10) (·.long 32) := by
  intro text
  rcases hscan : scan 10 text with - | ⟨x, rest⟩
  · exact .inr (congrArg Prod.snd (strtol_none hscan))
  · exact .inl ⟨x, rest, rfl, strtol_some hscan⟩

theorem reads_strtoul : Reads (strtoul 32 10) (·.ulong 32) := by
  intro text
  rcases hscan : scan 10 text with - | ⟨x, rest⟩
  · exact .inr (congrArg Prod.snd (strtoul_none hscan))
  · exact .inl ⟨x, rest, rfl, strtoul_some hscan⟩

/-- What passes the check for a colon is a number with one behind it. -/
theorem Reads.colon {f : List UInt8 → α × List UInt8} {value : Number → α} {rest : List UInt8} {v : α}
    (h : Reads f value) (hread : f text = (v, rest)) (hpass : ¬ (rest = text ∨ rest.head? ≠ some 0x3a)) :
    ∃ x t, scan 10 text = some (x, 0x3a :: t) ∧ v = value x ∧ rest = 0x3a :: t := by
  obtain ⟨hmoved, hhead⟩ := not_or.1 hpass
  obtain ⟨t, rfl⟩ := List.head?_eq_some_iff.1 (not_not.1 hhead)
  rcases h text with ⟨x, rest, hscan, hvalue⟩ | hstays
  · cases hread.symm.trans hvalue
    exact ⟨x, t, hscan, rfl, rfl⟩
  · rw [hread] at hstays
    exact absurd hstays hmoved

/-- What passes the check for the end is the last number. -/
theorem Reads.last {f : List UInt8 → α × List UInt8} {value : Number → α} {rest : List UInt8} {v : α}
    (h : Reads f value) (hread : f text = (v, rest)) (hpass : ¬ (rest = text ∨ rest ≠ [])) :
    ∃ x, scan 10 text = some (x, []) ∧ v = value x := by
  obtain ⟨hmoved, hnil⟩ := not_or.1 hpass
  obtain rfl := not_not.1 hnil
  rcases h text with ⟨x, rest, hscan, hvalue⟩ | hstays
  · cases hread.symm.trans hvalue
    exact ⟨x, hscan, rfl⟩
  · rw [hread] at hstays
    exact absurd hstays hmoved

/-- A number with a colon behind it passes the check. -/
theorem colon_passes {t : List UInt8} (hscan : scan 10 text = some (x, 0x3a :: t)) :
    ¬ (0x3a :: t = text ∨ (0x3a :: t).head? ≠ some 0x3a) :=
  not_or.2 ⟨scan_moved hscan, not_not.2 rfl⟩

theorem cwNumbers_ok {f d : Nat} {p : Int} : cwNumbers text = .ok (f, p, d) ↔
    ∃ x y z, Numerals 0x3a text [x, y, z] ∧ f = x.ulong 32 ∧ p = y.long 32 ∧ d = z.ulong 32 := by
  simp only [← leads_nil, three_numbers]
  unfold cwNumbers
  constructor
  · intro h
    rcases hf : strtoul 32 10 text with ⟨f', rest⟩
    simp only [hf] at h
    split at h
    · cases h
    rename_i hpass
    obtain ⟨x, t, hx, rfl, rfl⟩ := reads_strtoul.colon hf hpass
    rw [List.tail_cons] at h
    rcases hp : strtol 32 10 t with ⟨p', rest⟩
    simp only [hp] at h
    split at h
    · cases h
    rename_i hpass
    obtain ⟨y, u, hy, rfl, rfl⟩ := reads_strtol.colon hp hpass
    rw [List.tail_cons] at h
    rcases hd : strtoul 32 10 u with ⟨d', rest⟩
    simp only [hd] at h
    split at h
    · cases h
    rename_i hpass
    obtain ⟨z, hz, rfl⟩ := reads_strtoul.last hd hpass
    cases h
    exact ⟨x, y, z, ⟨t, u, hx, hy, hz⟩, rfl, rfl, rfl⟩
  · rintro ⟨x, y, z, ⟨t, u, hx, hy, hz⟩, rfl, rfl, rfl⟩
    rw [strtoul_some hx]
    dsimp only
    rw [if_neg (colon_passes hx), List.tail_cons, strtol_some hy]
    dsimp only
    rw [if_neg (colon_passes hy), List.tail_cons, strtoul_some hz]
    dsimp only
    rw [if_neg (not_or.2 ⟨scan_moved hz, not_not.2 rfl⟩)]

/-- `%u`, and `strtoul` with 32 bits, keep a number exactly where it has 32 bits. -/
theorem unsigned_exact (conversion : Conversion) :
    ((conversion.unsigned x).toNat : Int) = x.toInt ↔ 0 ≤ x.toInt ∧ x.toInt < 4294967296 := by
  cases conversion with
  | saturates =>
    show ((UInt32.ofNat (x.ulong 32)).toNat : Int) = x.toInt ↔ _
    have hlt : x.ulong 32 < 4294967296 := ulong_lt 32 x
    rw [UInt32.toNat_ofNat', Nat.mod_eq_of_lt hlt]
    unfold Number.ulong Number.toInt
    cases x.negative with
    | true =>
      simp only [if_true]
      split <;> omega
    | false =>
      simp only [Bool.false_eq_true, if_false]
      split <;> omega
  | wraps =>
    show ((UInt32.ofInt x.toInt).toNat : Int) = x.toInt ↔ _
    rw [UInt32.ofInt, UInt32.toNat_ofNat']
    omega

theorem handleCw_arrives (radio : Except Err Unit) :
    Arrives (DenotesCw text) (handleCw (fun calls => (radio, calls)) (logged answer) text []) ↔
      ∀ x y z, Numerals 0x3a text [x, y, z] → radio = .ok () →
        (0 ≤ x.toInt ∧ x.toInt < 4294967296) ∧ (-128 ≤ y.toInt ∧ y.toInt ≤ 127) ∧
          0 ≤ z.toInt ∧ z.toInt < 4294967296 := by
  unfold handleCw
  cases hparse : cwNumbers text with
  | error e =>
    refine ⟨fun _ x y z hxyz => ?_, fun _ => arrives_error _⟩
    cases hparse.symm.trans (cwNumbers_ok.2 ⟨x, y, z, hxyz, rfl, rfl, rfl⟩)
  | ok r =>
    obtain ⟨f, p, d⟩ := r
    obtain ⟨x, y, z, hxyz, rfl, rfl, rfl⟩ := cwNumbers_ok.1 hparse
    cases radio with
    | error e => exact ⟨fun _ _ _ _ _ h => (by cases h), fun _ => arrives_error _⟩
    | ok _ =>
      dsimp only
      rw [arrives_call]
      have hlong := long_32 y
      have hcut : (Int8.ofInt (y.long 32)).toInt = (y.long 32 + 128) % 256 - 128 := by
        rw [Int8.toInt_ofInt, Int.bmod, show ((Int8.size : Nat) : Int) = 256 from rfl]
        split <;> omega
      have hf := @unsigned_exact x .saturates
      have hd := @unsigned_exact z .saturates
      constructor
      · rintro ⟨x', y', z', hxyz', hfreq, hpower, hduration⟩ x'' y'' z'' hxyz'' -
        cases hxyz'.unique separates_colon.1 hxyz
        cases hxyz''.unique separates_colon.1 hxyz
        refine ⟨hf.1 hfreq, ?_, hd.1 hduration⟩
        rw [hcut] at hpower
        omega
      · intro h
        obtain ⟨hfreq, hpower, hduration⟩ := h x y z hxyz rfl
        refine ⟨x, y, z, hxyz, hf.2 hfreq, ?_, hd.2 hduration⟩
        rw [hcut]
        omega

/-! ### A multicast session -/

/-- Hexadecimal digits, as many as a field wants. -/
def Hex (n : Nat) (hex : List UInt8) : Prop := hex.length = n ∧ ∀ b ∈ hex, isDigit 16 b = true

theorem skipColon_some {t : List UInt8} : skipColon text = some t ↔ text = 0x3a :: t := by
  unfold skipColon
  split
  · rename_i hhead
    obtain ⟨u, rfl⟩ := List.head?_eq_some_iff.1 hhead
    simp
  · rename_i hhead
    constructor
    · intro h
      cases h
    · rintro rfl
      exact absurd rfl hhead

theorem scanHex_full {n : Nat} (hn : n ≠ 0) {hex rest : List UInt8} :
    scanHex n text = some (hex, rest) ∧ hex.length = n ↔ text = hex ++ rest ∧ Hex n hex := by
  unfold scanHex
  constructor
  · rintro ⟨h, hlen⟩
    dsimp only at h
    split at h
    · cases h
    · cases h
      have htake : (text.take n).takeWhile (isDigit 16) = text.take n := by
        refine (List.takeWhile_prefix _).eq_of_length ?_
        have hle := (List.takeWhile_prefix (l := text.take n) (isDigit 16)).length_le
        have htake := List.length_take_le n text
        omega
      refine ⟨?_, hlen, fun b hb => List.mem_takeWhile_imp hb⟩
      rw [hlen, htake, List.take_append_drop]
  · rintro ⟨rfl, hlen, hhex⟩
    have htake : (hex ++ rest).take n = hex := by rw [← hlen, List.take_left']; rfl
    have hwhile : hex.takeWhile (isDigit 16) = hex := List.takeWhile_eq_self_iff.2 hhex
    have hne : hex ≠ [] := by
      rintro rfl
      exact hn hlen.symm
    rw [htake, hwhile]
    dsimp only
    rw [if_neg hne, List.drop_left']
    · exact ⟨rfl, hlen⟩
    · rfl

/-- An argument that `sscanf` and the checks of the three hexadecimal fields take. -/
def SessionText (argument : List UInt8) (r : Scanned) : Prop :=
  (r.letter = 0x42 ∨ r.letter = 0x43) ∧ Hex 8 r.devAddr ∧ Hex 32 r.nwkSKey ∧ Hex 32 r.appSKey ∧
    ∃ text, Leads 0x3a text [r.frequency, r.dataRate, r.periodicity] r.unread ∧
      argument = r.letter :: 0x3a :: (r.devAddr ++ 0x3a :: (r.nwkSKey ++ 0x3a :: (r.appSKey ++ 0x3a :: text)))

theorem scanNumbers_some {rest : List UInt8} :
    scanNumbers text = some (x, y, z, rest) ↔ Leads 0x3a text [x, y, z] rest := by
  rw [three_numbers]
  unfold scanNumbers
  simp only [Option.bind_eq_bind, Option.bind_eq_some_iff, skipColon_some, Option.some.injEq,
    Prod.exists, Prod.mk.injEq]
  constructor
  · rintro ⟨_, _, hx, t, rfl, _, _, hy, u, rfl, _, _, hz, rfl, rfl, rfl, rfl⟩
    exact ⟨t, u, hx, hy, hz⟩
  · rintro ⟨t, u, hx, hy, hz⟩
    exact ⟨x, _, hx, t, rfl, y, _, hy, u, rfl, z, rest, hz, rfl, rfl, rfl, rfl⟩

/-- What the argument is read as, with the lengths of its hexadecimal fields right. -/
theorem scanSession_full {argument : List UInt8} {r : Scanned} :
    (scanSession argument = some r ∧ (r.letter = 0x42 ∨ r.letter = 0x43) ∧ r.devAddr.length = 8 ∧
        r.nwkSKey.length = 32 ∧ r.appSKey.length = 32) ↔ SessionText argument r := by
  unfold SessionText
  constructor
  · rintro ⟨h, hletter, hdev, hnwk, happ⟩
    cases argument with
    | nil => cases h
    | cons letter text =>
      simp only [scanSession, Option.bind_eq_bind, Option.bind_eq_some_iff, skipColon_some,
        Option.some.injEq, Prod.exists] at h
      obtain ⟨_, rfl, dev, _, hscan₁, _, rfl, nwk, _, hscan₂, _, rfl, app, _, hscan₃, t, rfl,
        _, _, _, _, hnumbers, rfl⟩ := h
      obtain ⟨rfl, hhex₁⟩ := (scanHex_full (by decide)).1 ⟨hscan₁, hdev⟩
      obtain ⟨rfl, hhex₂⟩ := (scanHex_full (by decide)).1 ⟨hscan₂, hnwk⟩
      obtain ⟨rfl, hhex₃⟩ := (scanHex_full (by decide)).1 ⟨hscan₃, happ⟩
      exact ⟨hletter, hhex₁, hhex₂, hhex₃, t, scanNumbers_some.1 hnumbers, rfl⟩
  · rintro ⟨hletter, hdev, hnwk, happ, t, hleads, rfl⟩
    refine ⟨?_, hletter, hdev.1, hnwk.1, happ.1⟩
    simp only [scanSession, Option.bind_eq_bind, Option.bind_eq_some_iff, skipColon_some,
      Option.some.injEq, Prod.exists]
    exact ⟨_, rfl, r.devAddr, _, ((scanHex_full (by decide)).2 ⟨rfl, hdev⟩).1, _, rfl,
      r.nwkSKey, _, ((scanHex_full (by decide)).2 ⟨rfl, hnwk⟩).1, _, rfl,
      r.appSKey, _, ((scanHex_full (by decide)).2 ⟨rfl, happ⟩).1, t, rfl,
      _, _, _, _, scanNumbers_some.2 hleads, rfl⟩

/-- The seven fields of such an argument. -/
theorem sessionText_fields {argument : List UInt8} {r : Scanned} (h : SessionText argument r) :
    ∃ text, Leads 0x3a text [r.frequency, r.dataRate, r.periodicity] r.unread ∧
      argument.splitOn 0x3a = [r.letter] :: r.devAddr :: r.nwkSKey :: r.appSKey :: text.splitOn 0x3a := by
  obtain ⟨hletter, hdev, hnwk, happ, text, hleads, rfl⟩ := h
  have hnone : ∀ {n hex}, Hex n hex → (0x3a : UInt8) ∉ hex := fun hhex hmem => by
    have := hhex.2 _ hmem
    cases this
  have hfirst : (0x3a : UInt8) ∉ [r.letter] := by
    rcases hletter with h | h <;> rw [h] <;> decide
  refine ⟨text, hleads, ?_⟩
  rw [show ∀ rest, r.letter :: 0x3a :: rest = [r.letter] ++ 0x3a :: rest from fun _ => rfl,
    List.splitOn_append_cons_self_of_not_mem hfirst, List.splitOn_append_cons_self_of_not_mem (hnone hdev),
    List.splitOn_append_cons_self_of_not_mem (hnone hnwk),
    List.splitOn_append_cons_self_of_not_mem (hnone happ)]

theorem sessionClass_some {letter : UInt8} {deviceClass : Usp.DeviceClass}
    (h : sessionClass letter = some deviceClass) : letter = 0x42 ∨ letter = 0x43 := by
  unfold sessionClass at h
  split at h
  · rename_i hb
    exact .inl hb
  · split at h
    · rename_i hc
      exact .inr hc
    · cases h

/-- The session of an argument has the numbers that `%u` has made of its last three fields. -/
theorem sessionOf_ok {conversion : Conversion} {argument : List UInt8} {session : MulticastSession}
    (h : sessionOf conversion argument = .ok session) : ∃ r, SessionText argument r ∧
      conversion.unsigned r.frequency ≠ 0 ∧ conversion.unsigned r.dataRate ≤ 15 ∧
      session.frequencyHz = conversion.unsigned r.frequency ∧
      session.dataRate = (conversion.unsigned r.dataRate).toUInt8 ∧
      session.periodicity = (conversion.unsigned r.periodicity).toUInt16 := by
  unfold sessionOf at h
  cases hscan : scanSession argument with
  | none =>
    rw [hscan] at h
    cases h
  | some r =>
    rw [hscan] at h
    dsimp only at h
    split at h
    · cases h
    · rename_i hclass
      split at h
      · rename_i devAddr nwkSKey appSKey hdev hnwk happ
        split at h
        · cases h
        · rename_i hchecks
          cases h
          have hdevLen : r.devAddr.length = 8 := by
            unfold parseDevAddr at hdev
            split at hdev
            · cases hdev
            · rename_i hbytes
              exact (Hex.sendHexToBin_ok.1 hbytes).1
          refine ⟨r, ?_, (not_or.1 hchecks).1, UInt32.not_lt.1 (not_or.1 hchecks).2, rfl, rfl, rfl⟩
          exact scanSession_full.1 ⟨hscan, sessionClass_some hclass, hdevLen,
            (Hex.sendHexToBin_ok.1 hnwk).1, (Hex.sendHexToBin_ok.1 happ).1⟩
      · cases h

/-- An argument that is refused fails one of the checks. -/
theorem sessionOf_error {conversion : Conversion} {argument : List UInt8} {e : Err}
    (h : sessionOf conversion argument = .error e) {r : Scanned} (hr : SessionText argument r) :
    ¬ (conversion.unsigned r.frequency ≠ 0 ∧ conversion.unsigned r.dataRate ≤ 15) := by
  rintro ⟨hfrequency, hdataRate⟩
  obtain ⟨hscan, hletter, -⟩ := scanSession_full.2 hr
  obtain ⟨-, hdev, hnwk, happ, -⟩ := hr
  obtain ⟨devBytes, hdev⟩ := (Hex.sendHexToBin_succeeds_iff (n := 4)).2 hdev
  obtain ⟨nwkSKey, hnwk⟩ := (Hex.sendHexToBin_succeeds_iff (n := 16)).2 hnwk
  obtain ⟨appSKey, happ⟩ := (Hex.sendHexToBin_succeeds_iff (n := 16)).2 happ
  have hclass : ∃ deviceClass, sessionClass r.letter = some deviceClass := by
    rcases hletter with hb | hc
    · exact ⟨.b, by rw [hb]; rfl⟩
    · exact ⟨.c, by rw [hc]; rfl⟩
  obtain ⟨deviceClass, hclass⟩ := hclass
  unfold sessionOf parseDevAddr at h
  rw [hscan] at h
  dsimp only at h
  rw [hclass, hdev, hnwk, happ] at h
  dsimp only at h
  rw [if_neg (not_or.2 ⟨hfrequency, UInt32.not_lt.2 hdataRate⟩)] at h
  cases h

/-- What such an argument denotes, by the numbers that are scanned. -/
theorem denotesSession_iff {argument : List UInt8} {r : Scanned} (hr : SessionText argument r)
    (v : MulticastSession) : DenotesSession argument v ↔ r.unread = [] ∧
      (v.frequencyHz.toNat : Int) = r.frequency.toInt ∧ (v.dataRate.toNat : Int) = r.dataRate.toInt ∧
      (v.periodicity.toNat : Int) = r.periodicity.toInt := by
  obtain ⟨text, hleads, hfields⟩ := sessionText_fields hr
  unfold DenotesSession
  rw [hfields]
  constructor
  · rintro ⟨_, _, _, _, f, d, p, heq, ⟨x, hx, hfreq⟩, ⟨y, hy, hrate⟩, z, hz, hperiod⟩
    simp only [List.cons.injEq] at heq
    obtain ⟨-, -, -, -, hsplit⟩ := heq
    have hnumerals : Numerals 0x3a text [x, y, z] := by
      rw [numerals_iff_splitOn separates_colon, hsplit]
      exact .cons hx (.cons hy (.cons hz .nil))
    obtain ⟨hsame, hunread⟩ := hleads.unique separates_colon.1 (leads_nil.2 hnumerals) rfl
    cases hsame
    exact ⟨hunread, hfreq, hrate, hperiod⟩
  · rintro ⟨hunread, hfreq, hrate, hperiod⟩
    rw [hunread, leads_nil, numerals_iff_splitOn separates_colon] at hleads
    generalize text.splitOn 0x3a = fields at hleads
    cases hleads with
    | cons hx hleads =>
      cases hleads with
      | cons hy hleads =>
        cases hleads with
        | cons hz hleads =>
          cases hleads
          exact ⟨_, _, _, _, _, _, _, rfl, ⟨_, hx, hfreq⟩, ⟨_, hy, hrate⟩, _, hz, hperiod⟩

theorem handleAddmulc_arrives (conversion : Conversion) :
    Arrives (DenotesSession text) (handleAddmulc conversion (logged answer) text []) ↔
      ∀ r, SessionText text r → conversion.unsigned r.frequency ≠ 0 →
        conversion.unsigned r.dataRate ≤ 15 → r.unread = [] ∧
          (0 ≤ r.frequency.toInt ∧ r.frequency.toInt < 4294967296) ∧
          (0 ≤ r.dataRate.toInt ∧ r.dataRate.toInt ≤ 15) ∧
          0 ≤ r.periodicity.toInt ∧ r.periodicity.toInt ≤ 65535 := by
  unfold handleAddmulc
  cases hsession : sessionOf conversion text with
  | error e =>
    refine ⟨fun _ r hr hfrequency hdataRate => ?_, fun _ => arrives_error _⟩
    exact absurd ⟨hfrequency, hdataRate⟩ (sessionOf_error hsession hr)
  | ok session =>
    obtain ⟨r, hr, hfrequency, hdataRate, hf, hd, hp⟩ := sessionOf_ok hsession
    dsimp only
    rw [arrives_call, denotesSession_iff hr, hf, hd, hp, unsigned_exact, UInt32.toNat_toUInt8,
      UInt32.toNat_toUInt16]
    have hd := @unsigned_exact r.dataRate conversion
    have hp := @unsigned_exact r.periodicity conversion
    have hrate : (conversion.unsigned r.dataRate).toNat ≤ 15 := UInt32.le_iff_toNat_le.1 hdataRate
    constructor
    · rintro ⟨hunread, hfreq, hrate', hperiod⟩ r' hr' - -
      obtain rfl : r' = r :=
        Option.some.inj ((scanSession_full.2 hr').1.symm.trans (scanSession_full.2 hr).1)
      exact ⟨hunread, hfreq, by omega, by omega⟩
    · intro h
      obtain ⟨hunread, hfreq, hrate', hperiod⟩ := h r hr hfrequency hdataRate
      exact ⟨hunread, hfreq, by omega, by omega⟩

/-- In all of these commands, the number that arrives is the one that was written, exactly where every
number that passes the checks fits: below 4294968 s where it is scaled to milliseconds, below 2^31 where
it is not, and in the widths of the service functions elsewhere. -/
theorem numbers_arrive_iff (answer radio : Except Err Unit) (conversion : Conversion) (text : List UInt8) :
    (∀ (c : Command) (get : List UInt32 → Except Err UInt32 × List UInt32),
      Arrives (DenotesScaled c.scale text) (c.handle get (logged answer) .write text []) ↔
        ∀ x, Numeral text x → x.toInt ≤ c.limit) ∧
    (∀ get : List Int16 → Except Err Int16 × List Int16,
      Arrives (DenotesSigned text) (handleLbtRssi get (logged answer) .write text []) ↔
        ∀ x, Numeral text x → -32768 ≤ x.toInt ∧ x.toInt ≤ 32767) ∧
    (Arrives (DenotesSession text) (handleAddmulc conversion (logged answer) text []) ↔
      ∀ r, SessionText text r → conversion.unsigned r.frequency ≠ 0 →
        conversion.unsigned r.dataRate ≤ 15 → r.unread = [] ∧
          (0 ≤ r.frequency.toInt ∧ r.frequency.toInt < 4294967296) ∧
          (0 ≤ r.dataRate.toInt ∧ r.dataRate.toInt ≤ 15) ∧
          0 ≤ r.periodicity.toInt ∧ r.periodicity.toInt ≤ 65535) ∧
    (Arrives (DenotesCw text) (handleCw (fun calls => (radio, calls)) (logged answer) text []) ↔
      ∀ x y z, Numerals 0x3a text [x, y, z] → radio = .ok () →
        (0 ≤ x.toInt ∧ x.toInt < 4294967296) ∧ (-128 ≤ y.toInt ∧ y.toInt ≤ 127) ∧
          0 ≤ z.toInt ∧ z.toInt < 4294967296) := by
  refine ⟨fun c get => ?_, handleLbtRssi_arrives, handleAddmulc_arrives conversion,
    handleCw_arrives radio⟩
  cases c with
  | rx1dl => exact handleU32_arrives get (ascii "RX1DL") (.inr ⟨rfl, rfl⟩)
  | rx2dl => exact handleU32_arrives get (ascii "RX2DL") (.inr ⟨rfl, rfl⟩)
  | jn1dl => exact handleU32_arrives get (ascii "JN1DL") (.inr ⟨rfl, rfl⟩)
  | jn2dl => exact handleU32_arrives get (ascii "JN2DL") (.inr ⟨rfl, rfl⟩)
  | rx2fq => exact handleU32_arrives get (ascii "RX2FQ") (.inl ⟨rfl, rfl⟩)
  | lbtscantime => exact handleU32_arrives get (ascii "LBTSCANTIME") (.inl ⟨rfl, rfl⟩)

/-- 4294968 s arrive as 704 ms. -/
theorem long_delay_wraps :
    ¬ Arrives (DenotesScaled Command.rx1dl.scale (ascii "4294968"))
      (Command.rx1dl.handle (fun calls => (.ok 0, calls)) (logged (.ok ())) .write (ascii "4294968") []) := by
  have hcalls : (Command.rx1dl.handle (fun calls => (.ok 0, calls)) (logged (.ok ())) .write
      (ascii "4294968") []).2 = [704] := by decide
  rintro (⟨e, he⟩ | ⟨v, hv, x, -, hval⟩)
  · rw [he] at hcalls
    cases hcalls
  · cases hv.symm.trans hcalls
    have hms : (704 : Int) = x.toInt * 1000 := hval
    omega

end Rzi.At.Numbers
