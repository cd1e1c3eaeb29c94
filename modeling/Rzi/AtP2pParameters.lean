import Rzi.AtHex
import Rzi.AtP2p

/-!
# What a P2P parameter command stores is what it prints (`at_lora_p2p.c`)

Each of fourteen commands writes and reads one parameter of the radio configuration: a number, a flag or
a key. Each write reads the whole configuration, changes its field and hands it back to
`rzi_lora_set_config`, which checks all of it; AT+P2P and AT+TCONF change six fields at once.
`parameter_printed` says which arguments are accepted, and that an accepted one is printed until another
is accepted.
-/

namespace Rzi.At.P2p
open Strtol LoraService Lts

variable {β : Type*} (w : Nat) (api : Api β)

/-! ### The commands -/

def setSw (config : Config) (value : UInt32) : Config := { config with syncWord := value.toUInt16 }
def setBr (config : Config) (value : UInt32) : Config := { config with fskBitrate := value }
def setDev (config : Config) (value : UInt32) : Config := { config with fskDeviation := value }

def syncword : Field := ⟨ascii "SYNCWORD", 0, 65535, setSw, (·.syncWord.toUInt32)⟩
def pbr : Field := ⟨ascii "PBR", 600, 300000, setBr, (·.fskBitrate)⟩
def pfdev : Field := ⟨ascii "PFDEV", 600, 200000, setDev, (·.fskDeviation)⟩

def handleSyncword := writeU32 w api syncword
def handlePbr := writeU32 w api pbr
def handlePfdev := writeU32 w api pfdev

/-- The arguments of `write_bool`. -/
structure Flag where
  name : List UInt8
  store : Config → Bool → Config
  load : Config → Bool

def setEnc (config : Config) (value : Bool) : Config := { config with encrypt := value }
def setIq (config : Config) (value : Bool) : Config := { config with iqInverted := value }
def setCad (config : Config) (value : Bool) : Config := { config with cad := value }

def encry : Flag := ⟨ascii "ENCRY", setEnc, (·.encrypt)⟩
def iqinver : Flag := ⟨ascii "IQINVER", setIq, (·.iqInverted)⟩
def cad : Flag := ⟨ascii "CAD", setCad, (·.cad)⟩

/-- `rzi_at_lora_parse_bool`. -/
def parseBool (argument : List UInt8) : Except Err Bool :=
  if argument = ascii "0" then .ok false
  else if argument = ascii "1" then .ok true
  else .error .invalid

/-- How a flag is printed. -/
def flagText (value : Bool) : List UInt8 := signedDecimal (if value then 1 else 0)

def writeBool (f : Flag) (operation : Operation) (argument : List UInt8) (s : Service β) :
    Except Err Answer × Service β :=
  match loraGetConfig false s with
  | .error e => (.error e, s)
  | .ok config =>
    if operation = .read then
      (.ok (.value (ascii "AT+" ++ f.name ++ ascii "=" ++ flagText (f.load config))), s)
    else
      match parseBool argument with
      | .error e => (.error e, s)
      | .ok enabled => respondOk (loraSetConfig api false (some (f.store config enabled)) s)

def handleEncry := writeBool api encry
def handleIqinver := writeBool api iqinver
def handleCad := writeBool api cad

/-- The arguments of `write_key`, with the field that the handler points it to. -/
structure KeyField where
  name : List UInt8
  store : Config → Vector UInt8 16 → Config
  load : Config → Vector UInt8 16

def enckey : KeyField := ⟨ascii "ENCKEY", fun config value => { config with key := value }, (·.key)⟩
def crypiv : KeyField := ⟨ascii "CRYPIV", fun config value => { config with iv := value }, (·.iv)⟩

/-- The sixteen bytes in an array. -/
def keyOf (bytes : List UInt8) : Vector UInt8 16 := Vector.ofFn fun i => bytes.getD i 0

/-- `write_key`, in a handler that has read the configuration. -/
def writeKey (f : KeyField) (operation : Operation) (argument : List UInt8) (s : Service β) :
    Except Err Answer × Service β :=
  match loraGetConfig false s with
  | .error e => (.error e, s)
  | .ok config =>
    if operation = .read then
      (.ok (.value (ascii "AT+" ++ f.name ++ ascii "=" ++ Recv.binToHex (f.load config).toList)), s)
    else
      match Send.hexToBin argument 16 with
      | .error e => (.error e, s)
      | .ok bytes => respondOk (loraSetConfig api false (some (f.store config (keyOf bytes))) s)

def handleEnckey := writeKey api enckey
def handleCrypiv := writeKey api crypiv

inductive Parameter where
  | pfreq | psf | pbw | pcr | ppl | ptp | syncword | pbr | pfdev | encry | iqinver | cad | enckey | crypiv
deriving DecidableEq, Repr

/-- The handler of a parameter. -/
def Parameter.handle (p : Parameter) : Operation → List UInt8 → Service β →
    Except Err Answer × Service β :=
  match p with
  | .pfreq => handlePfreq w api
  | .psf => handlePsf w api
  | .pbw => handlePbw w api
  | .pcr => handlePcr w api
  | .ppl => handlePpl w api
  | .ptp => handlePtp w api
  | .syncword => handleSyncword w api
  | .pbr => handlePbr w api
  | .pfdev => handlePfdev w api
  | .encry => handleEncry api
  | .iqinver => handleIqinver api
  | .cad => handleCad api
  | .enckey => handleEnckey api
  | .crypiv => handleCrypiv api

/-! ### What they are for -/

inductive Kind where
  | number (f : Field)
  | flag (f : Flag)
  | key (f : KeyField)

def Parameter.kind : Parameter → Kind
  | .pfreq => .number P2p.pfreq
  | .psf => .number P2p.psf
  | .pbw => .number P2p.pbw
  | .pcr => .number P2p.pcr
  | .ppl => .number P2p.ppl
  | .ptp => .number P2p.ptp
  | .syncword => .number P2p.syncword
  | .pbr => .number P2p.pbr
  | .pfdev => .number P2p.pfdev
  | .encry => .flag P2p.encry
  | .iqinver => .flag P2p.iqinver
  | .cad => .flag P2p.cad
  | .enckey => .key P2p.enckey
  | .crypiv => .key P2p.crypiv

def Kind.name : Kind → List UInt8
  | .number f => f.name
  | .flag f => f.name
  | .key f => f.name

/-- How the value in a configuration is printed. -/
def Kind.text (config : Config) : Kind → List UInt8
  | .number f => decimal (f.load config).toNat
  | .flag f => flagText (f.load config)
  | .key f => Recv.binToHex (f.load config).toList

/-- The argument is a value of the parameter, which is printed as `text`: a number in the range of the
command, `0` or `1`, or 32 hexadecimal digits. -/
def Kind.Denotes (argument text : List UInt8) : Kind → Prop
  | .number f => ∃ x, Numeral argument x ∧ InRange f x ∧ text = decimal x.toInt.toNat
  | .flag _ => (argument = ascii "0" ∨ argument = ascii "1") ∧ text = argument
  | .key _ => argument.length = 32 ∧ (∀ c ∈ argument, isDigit 16 c = true) ∧ text = argument.map upper

/-- The commands of `at_lora_p2p.c` and AT+TCONF that write the configuration. -/
inductive Command where
  | single (p : Parameter)
  | p2p
  | tconf
deriving DecidableEq

def Command.handle : Command → Operation → List UInt8 → Service β → Except Err Answer × Service β
  | .single p => p.handle w api
  | .p2p => handleP2p w api
  | .tconf => handleTconf w api

/-- A command that writes the parameter. -/
def Command.sets (p : Parameter) : Command → Bool
  | .single q => q == p
  | .p2p | .tconf => p ∈ [.pfreq, .psf, .pbw, .pcr, .ppl, .ptp]

/-- AT lines, and calls of the service by other threads. The `rzi_lora_get_config` and the
`rzi_lora_set_config` of a command are two locked sections, taken as one step here. -/
inductive Act where
  | read (command : Command)
  | write (command : Command) (argument : List UInt8)
  | call (a : LoraService.Call)

def perform (s : Service β) : Act → Service β
  | .read command => (command.handle w api .read [] s).2
  | .write command argument => (command.handle w api .write argument s).2
  | .call a => (call api s a).2

/-- No other value of the parameter is stored: a command that writes it is not accepted, and a
configuration that another thread sets is refused or has the same value there. -/
def Leaves (p : Parameter) (s : Service β) : Act → Prop
  | .write command argument =>
    command.sets p = true → (command.handle w api .write argument s).1 ≠ .ok .ok
  | .call (.setConfig isr config) =>
    ∀ c, isr = false → config = some c → c.Valid → p.kind.text c = p.kind.text s.config
  | _ => True

variable {w} {api} {s : Service β} {argument text : List UInt8} {config : Config} {p q : Parameter}

/-! ### One command -/

theorem handle_read (p : Parameter) (argument : List UInt8) (s : Service β) :
    p.handle w api .read argument s =
      (.ok (.value (ascii "AT+" ++ p.kind.name ++ ascii "=" ++ p.kind.text s.config)), s) := by
  cases p <;> rfl

section Number
variable {f : Field} {n : Nat}

theorem kind_max (hf : p.kind = .number f) : f.max.toNat ≤ 960000000 := by
  cases p <;> cases hf <;> decide

theorem handle_number (hf : p.kind = .number f) : p.handle w api = writeU32 w api f := by
  cases p <;> cases hf <;> rfl

/-- The number that a field stores is the one it prints. -/
theorem load_store (hf : p.kind = .number f) (hhi : n ≤ f.max.toNat) (config : Config) :
    (f.load (f.store config (UInt32.ofNat n))).toNat = n := by
  have hword : (UInt32.ofNat n).toNat = n := by
    have hmax := kind_max hf
    exact UInt32.toNat_ofNat_of_lt' (by show n < 4294967296; omega)
  have hbyte : n < 256 → (UInt32.ofNat n).toUInt8.toUInt32.toNat = n := fun hn => by
    rw [UInt8.toNat_toUInt32, UInt32.toNat_toUInt8, hword]
    omega
  have hhalf : n < 65536 → (UInt32.ofNat n).toUInt16.toUInt32.toNat = n := fun hn => by
    rw [UInt16.toNat_toUInt32, UInt32.toNat_toUInt16, hword]
    omega
  cases p with
  | pfreq | pbw | pbr | pfdev =>
    cases hf
    exact hword
  | psf | pcr =>
    cases hf
    exact hbyte (lt_of_le_of_lt hhi (by decide))
  | ppl | syncword =>
    cases hf
    exact hhalf (lt_of_le_of_lt hhi (by decide))
  | ptp =>
    cases hf
    -- the power goes through a signed byte
    have hall : ∀ m ≤ 22, (UInt32.ofInt (UInt32.ofNat m).toUInt8.toInt8.toInt).toNat = m := by decide
    exact hall n hhi
  | encry | iqinver | cad | enckey | crypiv => cases hf

/-- A number in range keeps the configuration valid. -/
theorem number_valid (hf : p.kind = .number f) (hlo : f.min.toNat ≤ n) (hhi : n ≤ f.max.toNat)
    (hvalid : config.Valid) : (f.store config (UInt32.ofNat n)).Valid := by
  cases p with
  | pfreq | psf | pbw | pcr | ppl | ptp =>
    cases hf
    exact store_valid (by simp [tupleFields]) hlo hhi hvalid
  | syncword | pbr | pfdev =>
    cases hf
    exact hvalid
  | encry | iqinver | cad | enckey | crypiv => cases hf

theorem number_others (hf : p.kind = .number f) (hne : q ≠ p) (value : UInt32) (config : Config) :
    q.kind.text (f.store config value) = q.kind.text config := by
  cases p <;> cases hf <;> cases q <;> first | rfl | exact absurd rfl hne

end Number

theorem flag_stored {f : Flag} (hf : p.kind = .flag f) (value : Bool) (config : Config) :
    p.handle w api = writeBool api f ∧ f.load (f.store config value) = value ∧
      ((f.store config value).Valid ↔ config.Valid) ∧
      ∀ q ≠ p, q.kind.text (f.store config value) = q.kind.text config := by
  cases p <;> cases hf <;>
    exact ⟨rfl, rfl, Iff.rfl, fun q hne => by cases q <;> first | rfl | exact absurd rfl hne⟩

theorem key_stored {f : KeyField} (hf : p.kind = .key f) (value : Vector UInt8 16) (config : Config) :
    p.handle w api = writeKey api f ∧ f.load (f.store config value) = value ∧
      ((f.store config value).Valid ↔ config.Valid) ∧
      ∀ q ≠ p, q.kind.text (f.store config value) = q.kind.text config := by
  cases p <;> cases hf <;>
    exact ⟨rfl, rfl, Iff.rfl, fun q hne => by cases q <;> first | rfl | exact absurd rfl hne⟩

/-- The configuration `c` differs from the stored one in the parameter `p` only, and prints `text` there. -/
structure Stored (p : Parameter) (text : List UInt8) (s : Service β) (c : Config) : Prop where
  printed : p.kind.text c = text
  others : ∀ q ≠ p, q.kind.text c = q.kind.text s.config
  valid : c.Valid

/-- A write stores what the argument denotes; if it denotes nothing, the write changes nothing. -/
def Writes (p : Parameter) (argument : List UInt8) (s : Service β)
    (r : Except Err Answer × Service β) : Prop :=
  (∃ text c b, p.kind.Denotes argument text ∧ Stored p text s c ∧
      r = (.ok .ok, { s with config := c, backend := b })) ∨
    (∀ text, ¬ p.kind.Denotes argument text) ∧ ∃ e, r = (.error e, s)

theorem writes_of_stored (happly : Takes api) (hdenotes : p.kind.Denotes argument text)
    (hstored : Stored p text s config) :
    Writes p argument s (respondOk (loraSetConfig api false (some config) s)) := by
  rcases happly.loraSetConfig config s with ⟨-, b, hset⟩ | ⟨hinvalid, -⟩
  · rw [hset]
    exact .inl ⟨text, config, b, hdenotes, hstored, rfl⟩
  · exact absurd hstored.valid hinvalid

theorem writeU32_writes (hw : 32 ≤ w) (happly : Takes api) (hvalid : s.config.Valid) {f : Field}
    (hf : p.kind = .number f) (argument : List UInt8) :
    Writes p argument s (p.handle w api .write argument s) := by
  have hcast : ∀ x, InRange f x → UInt32.ofInt x.toInt = UInt32.ofNat x.toInt.toNat ∧
      f.min.toNat ≤ x.toInt.toNat ∧ x.toInt.toNat ≤ f.max.toNat := by
    intro x hrange
    have hmax := kind_max hf
    obtain ⟨hlo, hhi⟩ := hrange
    have hnat : ((x.toInt.toNat : Nat) : Int) = x.toInt := Int.toNat_of_nonneg (by omega)
    refine ⟨?_, by omega, by omega⟩
    rw [← ofInt_eq (by omega), hnat]
  rw [handle_number hf, Writes, hf]
  rcases writeU32_cases hw happly (kind_max hf) argument s with
    ⟨x, b, hx, hrange, hstored, heq⟩ | ⟨hnone, heq⟩
  · obtain ⟨hword, -, hhi⟩ := hcast x hrange
    rw [hword] at heq hstored
    have hothers := fun q hne => number_others hf (q := q) hne (UInt32.ofNat x.toInt.toNat) s.config
    refine .inl ⟨_, _, b, ⟨x, hx, hrange, rfl⟩, ⟨?_, hothers, hstored⟩, heq⟩
    rw [hf]
    exact congrArg decimal (load_store hf hhi s.config)
  · refine .inr ⟨?_, .invalid, heq⟩
    rintro text ⟨x, hx, hrange, -⟩
    obtain ⟨hword, hlo, hhi⟩ := hcast x hrange
    refine hnone ⟨x, hx, hrange, ?_⟩
    rw [hword]
    exact number_valid hf hlo hhi hvalid

theorem parseBool_cases (argument : List UInt8) :
    (∃ value, parseBool argument = .ok value ∧ (argument = ascii "0" ∨ argument = ascii "1") ∧
        flagText value = argument) ∨
      ¬ (argument = ascii "0" ∨ argument = ascii "1") ∧ parseBool argument = .error .invalid := by
  unfold parseBool
  by_cases hzero : argument = ascii "0"
  · rw [if_pos hzero]
    exact .inl ⟨false, rfl, .inl hzero, hzero ▸ by decide⟩
  · by_cases hone : argument = ascii "1"
    · rw [if_neg hzero, if_pos hone]
      exact .inl ⟨true, rfl, .inr hone, hone ▸ by decide⟩
    · rw [if_neg hzero, if_neg hone]
      exact .inr ⟨not_or.2 ⟨hzero, hone⟩, rfl⟩

theorem writeBool_writes (happly : Takes api) (hvalid : s.config.Valid) {f : Flag}
    (hf : p.kind = .flag f) (argument : List UInt8) :
    Writes p argument s (p.handle w api .write argument s) := by
  rw [(flag_stored hf false s.config).1]
  unfold writeBool
  simp only [loraGetConfig, Bool.false_eq_true, if_false, reduceCtorEq]
  rcases parseBool_cases argument with ⟨value, hparse, hargument, htext⟩ | ⟨hnone, hparse⟩
  · rw [hparse]
    obtain ⟨-, hload, hkeeps, hothers⟩ := @flag_stored β w api p f hf value s.config
    have hdenotes : p.kind.Denotes argument argument := by
      rw [hf]
      exact ⟨hargument, rfl⟩
    refine writes_of_stored happly hdenotes ⟨?_, hothers, hkeeps.2 hvalid⟩
    rw [hf]
    exact (congrArg flagText hload).trans htext
  · rw [hparse]
    refine .inr ⟨fun text h => ?_, .invalid, rfl⟩
    rw [hf] at h
    exact hnone h.1

theorem keyOf_toList {bytes : List UInt8} (hlen : bytes.length = 16) : (keyOf bytes).toList = bytes := by
  refine List.ext_getElem (by simp [hlen]) fun i _ hi => ?_
  simp [keyOf, List.getElem?_eq_getElem hi]

theorem writeKey_writes (happly : Takes api) (hvalid : s.config.Valid) {f : KeyField}
    (hf : p.kind = .key f) (argument : List UInt8) :
    Writes p argument s (p.handle w api .write argument s) := by
  rw [(key_stored hf (keyOf []) s.config).1]
  unfold writeKey
  simp only [loraGetConfig, Bool.false_eq_true, if_false, reduceCtorEq]
  rcases hread : Send.hexToBin argument 16 with e | bytes
  · refine .inr ⟨fun text h => ?_, e, rfl⟩
    rw [hf] at h
    obtain ⟨bytes, hbytes⟩ := (Hex.sendHexToBin_succeeds_iff (n := 16)).2 ⟨h.1, h.2.1⟩
    cases hread.symm.trans hbytes
  · obtain ⟨hlen, hprinted⟩ := Hex.binToHex_of_hexToBin hread
    obtain ⟨hdigits, hall⟩ := Hex.sendHexToBin_succeeds_iff.1 ⟨bytes, hread⟩
    obtain ⟨-, hload, hkeeps, hothers⟩ := @key_stored β w api p f hf (keyOf bytes) s.config
    have hdenotes : p.kind.Denotes argument (argument.map upper) := by
      rw [hf]
      exact ⟨hdigits, hall, rfl⟩
    refine writes_of_stored happly hdenotes ⟨?_, hothers, hkeeps.2 hvalid⟩
    rw [hf]
    show Recv.binToHex (f.load (f.store s.config (keyOf bytes))).toList = _
    rw [hload, keyOf_toList hlen, hprinted]

theorem handle_writes (hw : 32 ≤ w) (happly : Takes api) (hvalid : s.config.Valid) (p : Parameter)
    (argument : List UInt8) : Writes p argument s (p.handle w api .write argument s) := by
  rcases hf : p.kind with f | f | f
  · exact writeU32_writes hw happly hvalid hf argument
  · exact writeBool_writes happly hvalid hf argument
  · exact writeKey_writes happly hvalid hf argument

theorem Kind.Denotes.unique {k : Kind} {other : List UInt8} (h : k.Denotes argument text)
    (h' : k.Denotes argument other) : text = other := by
  cases k with
  | number f =>
    obtain ⟨x, hx, -, rfl⟩ := h
    obtain ⟨y, hy, -, rfl⟩ := h'
    rw [hx.unique hy]
  | flag f => rw [h.2, h'.2]
  | key f => rw [h.2.2, h'.2.2]

/-! ### Runs -/

/-- AT+P2P and AT+TCONF store six fields of a valid configuration, or nothing. -/
theorem tuple_writes (happly : Takes api) {command : Command} (hcommand : ∀ p, command ≠ .single p)
    (argument : List UInt8) (s : Service β) :
    (∃ xs b, xs.length = 6 ∧ Passes w xs ∧ command.handle w api .write argument s =
        (.ok .ok, { s with config := tupleConfig w s.config xs, backend := b })) ∨
      ∃ e, command.handle w api .write argument s = (.error e, s) := by
  rcases command with p | _ | _
  · exact absurd rfl (hcommand p)
  · rcases handleP2p_stores (w := w) happly argument s with
      ⟨xs, b, ⟨-, hlen, hpasses⟩, heq⟩ | ⟨-, e, heq⟩
    · exact .inl ⟨xs, b, hlen, hpasses, heq⟩
    · exact .inr ⟨e, heq⟩
  · rcases handleTconf_stores (w := w) happly argument s with
      ⟨xs, b, ⟨-, hlen, hpasses⟩, heq⟩ | ⟨-, e, heq⟩
    · exact .inl ⟨xs, b, hlen, hpasses, heq⟩
    · exact .inr ⟨e, heq⟩

/-- What AT+P2P and AT+TCONF do not set, they leave. -/
theorem tupleConfig_text {xs : List Number} (hlen : xs.length = 6) (hp : Command.p2p.sets p = false) :
    p.kind.text (tupleConfig w config xs) = p.kind.text config := by
  obtain ⟨frequency, sf, bandwidth, cr, preamble, power, heq⟩ := @tupleConfig_others w config xs hlen
  rw [heq]
  cases p with
  | pfreq | psf | pbw | pcr | ppl | ptp => cases hp
  | _ => rfl

/-- What a write does to the stored configuration. -/
theorem write_config (hw : 32 ≤ w) (happly : Takes api) (hvalid : s.config.Valid) (command : Command)
    (argument : List UInt8) :
    (command.handle w api .write argument s).2.config.Valid ∧
      ((command.handle w api .write argument s).1 ≠ .ok .ok ∨ command.sets p = false →
        p.kind.text (command.handle w api .write argument s).2.config = p.kind.text s.config) := by
  by_cases hsingle : ∃ q, command = .single q
  · obtain ⟨q, rfl⟩ := hsingle
    rw [Command.handle]
    rcases handle_writes hw happly hvalid q argument with ⟨text, c, b, -, hstored, heq⟩ | ⟨-, e, heq⟩
    · rw [heq]
      refine ⟨hstored.valid, fun h => hstored.others p ?_⟩
      rintro rfl
      rcases h with hrefused | hother
      · exact hrefused rfl
      · simp [Command.sets] at hother
    · rw [heq]
      exact ⟨hvalid, fun _ => rfl⟩
  · have hcommand : ∀ q, command ≠ .single q := fun q h => hsingle ⟨q, h⟩
    rcases tuple_writes (w := w) happly hcommand argument s with
      ⟨xs, b, hlen, hpasses, heq⟩ | ⟨e, heq⟩
    · rw [heq]
      refine ⟨(tupleConfig_valid hlen).2 hpasses, fun h => tupleConfig_text hlen ?_⟩
      rcases h with hrefused | hother
      · exact absurd rfl hrefused
      · rcases command with q | _ | _
        · exact absurd rfl (hcommand q)
        · exact hother
        · exact hother
    · rw [heq]
      exact ⟨hvalid, fun _ => rfl⟩

theorem read_keeps (command : Command) : (command.handle w api .read [] s).2 = s := by
  rcases command with p | _ | _
  · rw [Command.handle, handle_read]
  · rfl
  · rfl

theorem perform_valid (hw : 32 ≤ w) (happly : Takes api) (hvalid : s.config.Valid) (a : Act) :
    (perform w api s a).config.Valid := by
  cases a with
  | read command =>
    rw [perform, read_keeps]
    exact hvalid
  | write command argument => exact (write_config (p := .pfreq) hw happly hvalid command argument).1
  | call a => exact call_valid hvalid a

/-- One step that leaves the parameter. -/
theorem perform_leaves (hw : 32 ≤ w) (happly : Takes api) (hvalid : s.config.Valid) {a : Act}
    (hleaves : Leaves w api p s a) : p.kind.text (perform w api s a).config = p.kind.text s.config := by
  cases a with
  | read command => rw [perform, read_keeps]
  | write command argument =>
    refine (write_config hw happly hvalid command argument).2 ?_
    by_cases hsets : command.sets p = true
    · exact .inl (hleaves hsets)
    · exact .inr (Bool.eq_false_iff.2 hsets)
  | call a =>
    rcases a with ⟨isr, value⟩ | isr | ⟨isr, stored⟩
    · show p.kind.text (loraInit api isr value s).2.config = _
      rw [loraInit_config]
    · show p.kind.text (loraStop api isr s).2.config = _
      rw [loraStop_config]
    · show p.kind.text (loraSetConfig api isr stored s).2.config = _
      rcases @loraSetConfig_config _ api isr stored s with
        hsame | ⟨c, hisr, hc, hvalid', hstored⟩
      · rw [hsame]
      · rw [hstored]
        exact hleaves c hisr hc hvalid'

theorem run_valid (hw : 32 ≤ w) (happly : Takes api) (hvalid : s.config.Valid) (acts : List Act) :
    (acts.foldl (perform w api) s).config.Valid :=
  run_invariant' (I := fun s : Service β => s.config.Valid)
    (fun s a t h ht => (by cases ht; exact perform_valid hw happly h a)) hvalid
    (run_total (perform w api) s acts)

theorem run_leaves (hw : 32 ≤ w) (happly : Takes api) (hvalid : s.config.Valid) {acts : List Act}
    (hleaves : Meets (fun s a => some (perform w api s a)) (Leaves w api p) s acts) :
    p.kind.text (acts.foldl (perform w api) s).config = p.kind.text s.config := by
  have hinv := run_invariant
    (I := fun t : Service β => t.config.Valid ∧ p.kind.text t.config = p.kind.text s.config)
    (fun t a u h hG ht => (by
      cases ht
      exact ⟨perform_valid hw happly h.1 a, (perform_leaves hw happly h.1 hG).trans h.2⟩))
    ⟨hvalid, rfl⟩ hleaves (run_total (perform w api) s acts)
  exact hinv.2

/-- In every run of the service, a parameter command accepts exactly the arguments that denote a value of
its parameter, and prints that value until another one is stored. -/
theorem parameter_printed (hw : 32 ≤ w) (k : Backend)
    (start : Option (Modulation → Config → Except Err Unit × Config))
    (stop : Option (Config → Except Err Unit × Config)) (b : Config) (before : List Act) (p : Parameter)
    (argument : List UInt8) (s : Service Config)
    (hs : s = before.foldl (perform w (k.table start stop)) (.boot b)) :
    ((p.handle w (k.table start stop) .write argument s).1 = .ok .ok ↔
        ∃ text, p.kind.Denotes argument text) ∧
      ∀ text after, p.kind.Denotes argument text →
        Meets (fun s a => some (perform w (k.table start stop) s a)) (Leaves w (k.table start stop) p)
          (p.handle w (k.table start stop) .write argument s).2 after →
        (p.handle w (k.table start stop) .read []
          (after.foldl (perform w (k.table start stop))
            (p.handle w (k.table start stop) .write argument s).2)).1 =
          .ok (.value (ascii "AT+" ++ p.kind.name ++ ascii "=" ++ text)) := by
  have happly := k.takes start stop
  have hvalid : s.config.Valid := by
    rw [hs]
    exact run_valid hw happly (by show Config.init.Valid; decide) before
  rcases handle_writes hw happly hvalid p argument with
    ⟨text, c, b', hdenotes, hstored, heq⟩ | ⟨hnone, e, heq⟩
  · refine ⟨iff_of_true (by rw [heq]) ⟨text, hdenotes⟩, fun text' after hdenotes' hleaves => ?_⟩
    rw [heq] at hleaves ⊢
    rw [handle_read, run_leaves hw happly hstored.valid hleaves, hdenotes'.unique hdenotes]
    exact congrArg (fun text => Except.ok (Answer.value (ascii "AT+" ++ p.kind.name ++ ascii "=" ++ text)))
      hstored.printed
  · have hrefused : (p.handle w (k.table start stop) .write argument s).1 ≠ .ok .ok := by
      rw [heq]
      exact fun h => (by cases h)
    exact ⟨iff_of_false hrefused fun ⟨text, h⟩ => hnone text h, fun text _ h => absurd h (hnone text)⟩

/-- Another thread's configuration, with a spreading factor that is refused. -/
def refusedConfig : Config := { Config.init with spreadingFactor := 4 }

/-- A key in lower case, printed after another command has switched the cipher on and another thread has
been refused its configuration. -/
theorem parameter_printed_key :
    (handleEnckey (Backend.usp.table none none) .read []
      ([.write (.single .encry) (ascii "1"), .call (.setConfig false (some refusedConfig))].foldl
        (perform 32 (Backend.usp.table none none))
        (handleEnckey (Backend.usp.table none none) .write (ascii "000102030405060708090a0b0c0d0e0f")
          (.boot .init)).2)).1 =
      .ok (.value (ascii "AT+ENCKEY=000102030405060708090A0B0C0D0E0F")) := by
  refine (parameter_printed (w := 32) (by decide) .usp none none .init [] .enckey
    (ascii "000102030405060708090a0b0c0d0e0f") (.boot .init) rfl).2
      (ascii "000102030405060708090A0B0C0D0E0F") _
      ⟨by decide, List.all_eq_true.1 (by decide), by decide⟩ ⟨fun h => absurd h (by decide), fun _ _ => ?_⟩
  refine ⟨fun c _ hc hvalid => ?_, fun _ _ => trivial⟩
  cases hc
  exact absurd hvalid (by decide)

end Rzi.At.P2p
