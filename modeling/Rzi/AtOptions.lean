import Rzi.AtIdentifiers
import Rzi.AtJoin
import Rzi.AtP2pParameters
import Mathlib.Tactic.IntervalCases

/-!
# Activation, confirmation, retries and join policy as text (`at_lorawan_join_send.c`)

AT+NJM, AT+CFM and AT+RETY write a number through the credential store, or `lorawan_config.c`, into the
settings and print it from there; what AT+JOIN writes of the join policy is printed by AT+JOIN=?, field by
field. `option_printed` and `policy_printed` follow an accepted value through the layers and over reboots;
`option_accepted_iff` says which arguments are taken, and that a refused one changes nothing.
-/

namespace Rzi.At.Options
open Settings Storage Strtol
open Lorawan (Build CallFaults ConfigKey CredentialStore Mode Policy)
open Identifiers (Loadable Spares replied)

section Model
variable (cfg : Config) (build : Build)

/-- `rzi_lorawan_get_activation`. -/
def getActivation (faults : CallFaults) (d : Lorawan.Device) : Except Err Mode × Lorawan.Device :=
  d.readLocked cfg (fun c => .ok c.njm) faults

/-- `read_config`, for a setting of one byte. -/
def readConfig (key : ConfigKey) (faults : CallFaults) (d : Lorawan.Device) :
    Except Err UInt8 × Lorawan.Device :=
  let r := settingRead cfg d.settings key.key.name 1 (faults.read key.key)
  (r.1.map fun stored => stored.1.getD 0 0, ⟨r.2, d.credentials⟩)

/-- `write_config`, for a setting of one byte. -/
def writeConfig (key : ConfigKey) (value : UInt8) (faults : CallFaults) (d : Lorawan.Device) :
    Except Err Unit × Lorawan.Device :=
  let r := settingWrite cfg d.settings key.key.name [value] faults.write
  (r.1, ⟨r.2, d.credentials⟩)

/-- `rzi_lorawan_get_confirmed`. -/
def getConfirmed (faults : CallFaults) (d : Lorawan.Device) : Except Err Bool × Lorawan.Device :=
  ((readConfig cfg .cfm faults d).1.map fun stored => stored ≠ 0, (readConfig cfg .cfm faults d).2)

/-- `rzi_lorawan_set_confirmed`. -/
def setConfirmed (enabled : Bool) : CallFaults → Lorawan.Device → Except Err Unit × Lorawan.Device :=
  writeConfig cfg .cfm (if enabled then 1 else 0)

/-- `rzi_lorawan_get_retries`. -/
def getRetries : CallFaults → Lorawan.Device → Except Err UInt8 × Lorawan.Device := readConfig cfg .rety

/-- `rzi_lorawan_set_retries`. -/
def setRetries (count : UInt8) : CallFaults → Lorawan.Device → Except Err Unit × Lorawan.Device :=
  writeConfig cfg .rety count

/-! ### The commands -/

/-- The reply to a read. -/
def printed (name : List UInt8) (x : Except Err Nat × Lorawan.Device) : Except Err Answer × Lorawan.Device :=
  (x.1.map fun n => .value (name ++ ascii "=" ++ decimal n), x.2)

/-- A number of `handle_njm` and `handle_rety`, up to `last`. -/
def parseUpTo (last : Int) (argument : List UInt8) : Except Err Nat :=
  match parseLong 32 argument with
  | .error _ => .error .invalid
  | .ok parsed => if parsed < 0 ∨ last < parsed then .error .invalid else .ok parsed.toNat

def handleNjm (operation : Operation) (argument : List UInt8) (faults : CallFaults) (d : Lorawan.Device) :
    Except Err Answer × Lorawan.Device :=
  if operation = .read then
    let r := getActivation cfg faults d
    printed (ascii "AT+NJM") (r.1.map fun mode => if mode = .abp then 0 else 1, r.2)
  else
    match parseUpTo 1 argument with
    | .error e => (.error e, d)
    | .ok parsed => replied (d.set cfg build (.activation (if parsed = 0 then .abp else .otaa)) faults)

def handleCfm (operation : Operation) (argument : List UInt8) (faults : CallFaults) (d : Lorawan.Device) :
    Except Err Answer × Lorawan.Device :=
  if operation = .read then
    let r := getConfirmed cfg faults d
    printed (ascii "AT+CFM") (r.1.map fun enabled => if enabled then 1 else 0, r.2)
  else
    match P2p.parseBool argument with
    | .error e => (.error e, d)
    | .ok enabled => replied (setConfirmed cfg enabled faults d)

def handleRety (operation : Operation) (argument : List UInt8) (faults : CallFaults) (d : Lorawan.Device) :
    Except Err Answer × Lorawan.Device :=
  if operation = .read then
    let r := getRetries cfg faults d
    printed (ascii "AT+RETY") (r.1.map (·.toNat), r.2)
  else
    match parseUpTo 7 argument with
    | .error e => (.error e, d)
    | .ok parsed => replied (setRetries cfg (UInt8.ofNat parsed) faults d)

/-- `handle_join` on a read, each field in a section of its own. -/
def handleJoinRead (faults : CallFaults) (d : Lorawan.Device) : Except Err Answer × Lorawan.Device :=
  match d.readLocked cfg (fun c => .ok c.autoJoin) faults with
  | (.error e, d) => (.error e, d)
  | (.ok autoJoin, d) =>
    match d.readLocked cfg (fun c => .ok c.joinInterval) faults with
    | (.error e, d) => (.error e, d)
    | (.ok interval, d) =>
      match d.readLocked cfg (fun c => .ok c.joinAttempts) faults with
      | (.error e, d) => (.error e, d)
      | (.ok attempts, d) => (.ok (.value (Join.joinValue autoJoin interval attempts)), d)

/-- What `handle_join` stores of the policy on a write, before it starts or stops a join. -/
def handleJoinPolicy (argument : List UInt8) (faults : CallFaults) (d : Lorawan.Device) :
    Except Err Unit × Lorawan.Device :=
  match Join.parseJoinParameters 32 argument with
  | .error e => (.error e, d)
  | .ok p => d.set cfg build (.policy ⟨p.autoJoin, p.interval, p.attempts⟩) faults

/-- The commands of one number. -/
inductive Opt where
  | njm | cfm | rety
deriving DecidableEq, Repr

/-- The `commands` table. -/
def handle : Opt → Operation → List UInt8 → CallFaults → Lorawan.Device →
    Except Err Answer × Lorawan.Device
  | .njm => handleNjm cfg build
  | .cfm => handleCfm cfg
  | .rety => handleRety cfg

end Model

namespace Opt

def name : Opt → List UInt8
  | .njm => ascii "AT+NJM"
  | .cfm => ascii "AT+CFM"
  | .rety => ascii "AT+RETY"

def key : Opt → Key
  | .njm => .njm
  | .cfm => .cfm
  | .rety => .rety

/-- The largest number. -/
def last : Opt → Nat
  | .njm | .cfm => 1
  | .rety => 7

/-- The text denotes the number; AT+CFM takes no text but its digit. -/
def Denotes (opt : Opt) (argument : List UInt8) (n : Nat) : Prop :=
  n ≤ opt.last ∧ match opt with
    | .cfm => argument = decimal n
    | .njm | .rety => ∃ x, Numeral argument x ∧ x.toInt = n

end Opt

section Calls
variable {cfg : Config} {build : Build} {d : Lorawan.Device} {opt : Opt} {argument : List UInt8} {n : Nat}
  {faults : CallFaults}

/-- What a command does with its number. -/
def store (cfg : Config) (build : Build) (opt : Opt) (n : Nat) (faults : CallFaults) (d : Lorawan.Device) :
    Except Err Unit × Lorawan.Device :=
  match opt with
  | .njm => d.set cfg build (.activation (if n = 0 then .abp else .otaa)) faults
  | .cfm => setConfirmed cfg (n = 1) faults d
  | .rety => setRetries cfg (UInt8.ofNat n) faults d

theorem parseUpTo_ok {last : Nat} (hlast : last ≤ 7) :
    parseUpTo last argument = .ok n ↔ n ≤ last ∧ ∃ x, Numeral argument x ∧ x.toInt = n := by
  unfold parseUpTo
  constructor
  · intro h
    cases hparse : parseLong 32 argument with
    | error e =>
      rw [hparse] at h
      cases h
    | ok parsed =>
      rw [hparse] at h
      dsimp only at h
      split at h
      · cases h
      · rename_i hrange
        cases h
        obtain ⟨x, hx, rfl⟩ := parseLong_ok.1 hparse
        have hlong : x.long 32 = x.toInt := long_eq_of_mem (by omega) (by omega)
        exact ⟨by omega, x, hx, by omega⟩
  · rintro ⟨hn, x, hx, hvalue⟩
    have hlong : x.long 32 = x.toInt := long_eq (by omega) (by omega)
    rw [parseLong_ok.2 ⟨x, hx, rfl⟩, hlong, hvalue]
    dsimp only
    rw [if_neg (by omega), Int.toNat_natCast]

theorem Opt.Denotes.unique {m : Nat} (h : opt.Denotes argument n) (h' : opt.Denotes argument m) : n = m := by
  obtain ⟨hn, h⟩ := h
  obtain ⟨hm, h'⟩ := h'
  have hnumber : (∃ x, Numeral argument x ∧ x.toInt = (n : Int)) →
      (∃ x, Numeral argument x ∧ x.toInt = (m : Int)) → n = m := by
    rintro ⟨x, hx, hxn⟩ ⟨y, hy, hym⟩
    obtain rfl := hx.unique hy
    omega
  cases opt with
  | njm => exact hnumber h h'
  | rety => exact hnumber h h'
  | cfm =>
    have htext : decimal n = decimal m := h.symm.trans h'
    have hn : n ≤ 1 := hn
    have hm : m ≤ 1 := hm
    interval_cases n <;> interval_cases m <;> first | rfl | exact absurd htext (by decide)

theorem replied_ok {x : Except Err Unit × Lorawan.Device} : (replied x).1 = .ok .ok ↔ x.1 = .ok () := by
  obtain ⟨e | u, d'⟩ := x <;> simp [replied, Except.map]

variable (cfg build) in
/-- A command stores the number that its argument denotes, or does nothing. -/
theorem handle_write (opt : Opt) (argument : List UInt8) (faults : CallFaults) (d : Lorawan.Device) :
    (∃ n, opt.Denotes argument n ∧
      handle cfg build opt .write argument faults d = replied (store cfg build opt n faults d)) ∨
    (∀ n, ¬ opt.Denotes argument n) ∧
      handle cfg build opt .write argument faults d = (.error .invalid, d) := by
  have hnumber : ∀ {last : Nat}, last ≤ 7 → (∃ n, parseUpTo last argument = .ok n ∧
      n ≤ last ∧ ∃ x, Numeral argument x ∧ x.toInt = n) ∨
      parseUpTo last argument = .error .invalid ∧
        ∀ n, ¬ (n ≤ last ∧ ∃ x, Numeral argument x ∧ x.toInt = (n : Int)) := fun {last} hlast => by
    cases hparse : parseUpTo last argument with
    | ok n => exact .inl ⟨n, rfl, (parseUpTo_ok hlast).1 hparse⟩
    | error e =>
      refine .inr ⟨?_, fun n hn => ?_⟩
      · unfold parseUpTo at hparse
        split at hparse
        · exact hparse.symm
        · split at hparse
          · exact hparse.symm
          · cases hparse
      · rw [(parseUpTo_ok hlast).2 hn] at hparse
        cases hparse
  cases opt with
  | njm =>
    rcases @hnumber 1 (by decide) with ⟨n, hparse, hn⟩ | ⟨hparse, hno⟩
    · exact .inl ⟨n, hn, by simp [handle, handleNjm, store, show parseUpTo 1 argument = _ from hparse]⟩
    · exact .inr ⟨hno, by simp [handle, handleNjm, show parseUpTo 1 argument = _ from hparse]⟩
  | rety =>
    rcases @hnumber 7 (by decide) with ⟨n, hparse, hn⟩ | ⟨hparse, hno⟩
    · exact .inl ⟨n, hn, by simp [handle, handleRety, store, show parseUpTo 7 argument = _ from hparse]⟩
    · exact .inr ⟨hno, by simp [handle, handleRety, show parseUpTo 7 argument = _ from hparse]⟩
  | cfm =>
    by_cases hzero : argument = ascii "0"
    · exact .inl ⟨0, ⟨by decide, hzero⟩, by simp [handle, handleCfm, P2p.parseBool, hzero, store]⟩
    · by_cases hone : argument = ascii "1"
      · refine .inl ⟨1, ⟨by decide, hone⟩, ?_⟩
        simp [handle, handleCfm, P2p.parseBool, hone, store, show ascii "1" ≠ ascii "0" by decide]
      · refine .inr ⟨?_, by simp [handle, handleCfm, P2p.parseBool, hzero, hone]⟩
        rintro n ⟨hn, htext⟩
        have hn : n = 0 ∨ n = 1 := by
          simp only [Opt.last] at hn
          omega
        rcases hn with rfl | rfl
        · exact hzero htext
        · exact hone htext

/-! ### Storing -/

/-- What a write of a setting does to what the store says. -/
structure Stores (cfg : Config) (key : Key) (value : Bytes) (d : Lorawan.Device)
    (x : Except Err Unit × Lorawan.Device) : Prop where
  inSync : Lorawan.InSync cfg x.2
  same : ∀ j, j ≠ key → lookup cfg x.2.settings.store j = lookup cfg d.settings.store j
  failed : ∀ e, x.1 = .error e → ∀ j, lookup cfg x.2.settings.store j = lookup cfg d.settings.store j
  stored : x.1 = .ok () → lookup cfg x.2.settings.store key = .ok (value, true)

theorem writeConfig_stores (h : Lorawan.InSync cfg d) (key : ConfigKey) (value : UInt8)
    (faults : CallFaults) :
    Stores cfg key.key [value] d (writeConfig cfg key value faults d) := by
  have hown : key.key ∉ policyKeys := by cases key <;> decide
  have hother : ∀ j ∈ Lorawan.loadKeys, j ≠ key.key := by cases key <;> decide
  have hwrite := settingWrite_keeps h.coherent hown [value] faults.write
  refine ⟨h.of_settings hwrite.coherent fun j hj => hwrite.same j (hother j hj), hwrite.same,
    fun e he j => ?_, hwrite.stored⟩
  show lookup cfg (settingWrite cfg d.settings key.key.name [value] faults.write).2.store j = _
  rw [hwrite.failed e he]

variable (build) in
theorem activation_stores (h : Lorawan.InSync cfg d) (mode : Mode) (faults : CallFaults) :
    Stores cfg .njm [Lorawan.njmWire mode] d (d.set cfg build (.activation mode) faults) ∧
      ((d.set cfg build (.activation mode) faults).1 = .ok () →
        Loadable cfg (d.set cfg build (.activation mode) faults).2) := by
  unfold Lorawan.Device.set
  cases hp : (Lorawan.Setter.activation mode).section build with
  | error e => exact ⟨⟨h, fun _ _ => rfl, fun _ _ _ => rfl, nofun⟩, nofun⟩
  | ok p =>
    have hstep := Lorawan.section_inStep hp
    have hwrote := Lorawan.write_spec h hstep faults
    have hkey : p.key = .njm := Lorawan.section_key hp
    have hvalue : ∀ c, p.value c = [Lorawan.njmWire mode] := by
      simp only [Lorawan.Setter.section] at hp
      split at hp <;> cases hp
      exact fun _ => rfl
    refine ⟨⟨hwrote.inSync, fun j hj => Identifiers.write_same h hstep faults (by rw [hkey]; exact hj),
      hwrote.failed, fun hok => ?_⟩, fun hok k hk => ?_⟩
    · obtain ⟨f, -, hafter⟩ := hwrote.stored hok
      have hstored := hafter p.key hstep.mem
      rw [Function.update_self, hvalue, hkey] at hstored
      exact hstored
    · obtain ⟨f, -, hafter⟩ := hwrote.stored hok
      exact ⟨_, hafter k hk⟩

variable (build) in
theorem store_stores (h : Lorawan.InSync cfg d) (hn : n ≤ opt.last) (faults : CallFaults) :
    Stores cfg opt.key [UInt8.ofNat n] d (store cfg build opt n faults d) ∧
      ((store cfg build opt n faults d).1 = .ok () → opt = .njm →
        Loadable cfg (store cfg build opt n faults d).2) := by
  cases opt with
  | njm =>
    have hwire : Lorawan.njmWire (if n = 0 then .abp else .otaa) = UInt8.ofNat n := by
      have hn : n ≤ 1 := hn
      interval_cases n <;> rfl
    obtain ⟨hstores, hload⟩ := activation_stores build h (if n = 0 then .abp else .otaa) faults
    rw [hwire] at hstores
    exact ⟨hstores, fun hok _ => hload hok⟩
  | cfm =>
    have hwire : (if decide (n = 1) then 1 else 0 : UInt8) = UInt8.ofNat n := by
      have hn : n ≤ 1 := hn
      interval_cases n <;> rfl
    have hstores := writeConfig_stores h .cfm (if decide (n = 1) then 1 else 0) faults
    rw [hwire] at hstores
    refine ⟨?_, fun _ hno => (by cases hno)⟩
    show Stores cfg .cfm _ d (writeConfig cfg .cfm (if decide (n = 1) then 1 else 0) faults d)
    rw [hwire]
    exact hstores
  | rety => exact ⟨writeConfig_stores h .rety _ faults, fun _ hno => (by cases hno)⟩

/-! ### Reading -/

theorem readConfig_clean (h : Lorawan.InSync cfg d) (key : ConfigKey) (hsize : key.key.size = 1) :
    (readConfig cfg key .none d).1 =
      (lookup cfg d.settings.store key.key).map fun stored => stored.1.getD 0 0 := by
  rw [← settingRead_clean h.coherent key.key, hsize]
  rfl

/-- What the read of a command prints, in terms of what the store says. -/
def readValue (cfg : Config) (d : Lorawan.Device) : Opt → Except Err Nat
  | .njm => (d.fields cfg).map fun c => if c.njm = .abp then 0 else 1
  | .cfm => (lookup cfg d.settings.store .cfm).map fun stored => if stored.1.getD 0 0 ≠ 0 then 1 else 0
  | .rety => (lookup cfg d.settings.store .rety).map fun stored => (stored.1.getD 0 0).toNat

theorem handle_read (h : Lorawan.InSync cfg d) (opt : Opt) (argument : List UInt8) :
    (handle cfg build opt .read argument .none d).1 =
      (readValue cfg d opt).map fun n => .value (opt.name ++ ascii "=" ++ decimal n) := by
  cases opt with
  | njm =>
    have hread : (getActivation cfg .none d).1 = (d.fields cfg).bind fun c => .ok c.njm :=
      Lorawan.readLocked_fields (fun _ => rfl) d
    simp only [handle, handleNjm, if_true, printed, hread, readValue]
    cases d.fields cfg <;> rfl
  | cfm =>
    have hread := readConfig_clean h .cfm rfl
    simp only [handle, handleCfm, if_true, printed, getConfirmed, hread, readValue]
    show Except.map _ (Except.map _ (Except.map _ (Except.map _ (lookup cfg d.settings.store .cfm)))) = _
    cases lookup cfg d.settings.store .cfm with
    | error e => rfl
    | ok stored => simp [Except.map, Opt.name]
  | rety =>
    have hread := readConfig_clean h .rety rfl
    simp only [handle, handleRety, if_true, printed, getRetries, hread, readValue]
    show Except.map _ (Except.map _ (Except.map _ (lookup cfg d.settings.store .rety))) = _
    cases lookup cfg d.settings.store .rety <;> rfl

/-- A number that is stored, in a store that its command can read. -/
structure Kept (cfg : Config) (opt : Opt) (n : Nat) (d : Lorawan.Device) : Prop where
  inSync : Lorawan.InSync cfg d
  loadable : opt = .njm → Loadable cfg d
  stored : lookup cfg d.settings.store opt.key = .ok ([UInt8.ofNat n], true)

/-- Calls that spare a key leave what the store says about it, and a store that can be loaded. -/
theorem spared {key : Key} {calls : List Lorawan.Call} (h : Lorawan.InSync cfg d)
    (hcalls : Lts.Along (Lorawan.Device.next cfg build) (Spares cfg build key) d calls) :
    Lorawan.InSync cfg (d.after cfg build calls) ∧ (Loadable cfg d → Loadable cfg (d.after cfg build calls)) ∧
      lookup cfg (d.after cfg build calls).settings.store key = lookup cfg d.settings.store key := by
  induction calls generalizing d with
  | nil => exact ⟨h, id, rfl⟩
  | cons call calls ih =>
    obtain ⟨hspares, hcalls⟩ := hcalls
    obtain ⟨hsync, hload, hsame⟩ := ih (Lorawan.inSync_next h hspares.noFailedClear) hcalls
    exact ⟨hsync, fun hl => hload (Identifiers.loadable_next h hl hspares.1),
      hsame.trans (Identifiers.lookup_next h hspares)⟩

theorem Kept.after {calls : List Lorawan.Call} (h : Kept cfg opt n d)
    (hcalls : Lts.Along (Lorawan.Device.next cfg build) (Spares cfg build opt.key) d calls) :
    Kept cfg opt n (d.after cfg build calls) := by
  obtain ⟨hsync, hload, hsame⟩ := spared h.inSync hcalls
  exact ⟨hsync, fun hnjm => hload (h.loadable hnjm), hsame.trans h.stored⟩

theorem Kept.read (h : Kept cfg opt n d) (hn : n ≤ opt.last) (argument : List UInt8) :
    (handle cfg build opt .read argument .none d).1 = .ok (.value (opt.name ++ ascii "=" ++ decimal n)) := by
  have hvalue : readValue cfg d opt = .ok n := by
    cases opt with
    | njm =>
      have hnjm : Lorawan.valueOf (lookup cfg d.settings.store) .njm = ([UInt8.ofNat n], true) := by
        rw [Lorawan.valueOf, show lookup cfg d.settings.store .njm = _ from h.stored]
      have hn : n ≤ 1 := hn
      rw [readValue, (h.loadable rfl).fields h.inSync]
      simp only [Lorawan.holding, Lorawan.candidate, hnjm, Except.map]
      interval_cases n <;> rfl
    | cfm =>
      have hn : n ≤ 1 := hn
      rw [readValue, show lookup cfg d.settings.store .cfm = _ from h.stored]
      interval_cases n <;> rfl
    | rety =>
      have hn : n ≤ 7 := hn
      rw [readValue, show lookup cfg d.settings.store .rety = _ from h.stored]
      interval_cases n <;> rfl
  rw [handle_read h.inSync, hvalue]
  rfl

/-! ### Acceptance -/

/-- The state lets a command store its number. -/
def Storable (cfg : Config) (build : Build) (n : Nat) (d : Lorawan.Device) : Opt → Prop
  | .njm => Lorawan.activationSupported build (if n = 0 then .abp else .otaa) = true ∧ Loadable cfg d ∧
      d.credentials.joinActive = false
  | .cfm | .rety => True

theorem activation_clean_iff (h : Lorawan.InSync cfg d) (mode : Mode) :
    (d.set cfg build (.activation mode) .none).1 = .ok () ↔
      Lorawan.activationSupported build mode = true ∧ Loadable cfg d ∧ d.credentials.joinActive = false := by
  have hload := Lorawan.ensureLoaded_spec h .none
  rw [Identifiers.loadable_iff h]
  simp only [Lorawan.Device.set, Lorawan.Setter.section]
  cases Lorawan.activationSupported build mode with
  | false => simp
  | true =>
    simp only [Bool.not_true, Bool.false_eq_true, if_false, Lorawan.Device.write, true_and]
    rcases hx : d.ensureLoaded cfg .none with ⟨e | u, d'⟩
    · simp
    · have hjoin : d'.credentials.joinActive = d.credentials.joinActive := by
        have := hload.joinActive
        rwa [hx] at this
      have hwrite : (settingWrite cfg d'.settings Key.njm.name [Lorawan.njmWire mode] []).1 = .ok () :=
        settingWrite_clean d'.settings rfl (by cases mode <;> rfl)
      simp only [hjoin, Bool.true_and, true_and]
      cases d.credentials.joinActive with
      | true => simp
      | false =>
        rcases hy : settingWrite cfg d'.settings Key.njm.name [Lorawan.njmWire mode] [] with ⟨e | u, s⟩
        · rw [hy] at hwrite
          cases hwrite
        · simp [CallFaults.none, hy]

theorem store_clean_iff (h : Lorawan.InSync cfg d) (hn : n ≤ opt.last) :
    (store cfg build opt n .none d).1 = .ok () ↔ Storable cfg build n d opt := by
  cases opt with
  | njm => exact activation_clean_iff h _
  | cfm =>
    refine ⟨fun _ => trivial, fun _ => settingWrite_clean (k := .cfm) d.settings rfl ?_⟩
    cases decide (n = 1) <;> rfl
  | rety =>
    refine ⟨fun _ => trivial, fun _ => settingWrite_clean (k := .rety) d.settings rfl ?_⟩
    have hn : n ≤ 7 := hn
    interval_cases n <;> rfl

/-! ### The join policy -/

/-- A read answers what the fields say and leaves them as they are. -/
theorem readLocked_clean {α : Type} (h : Lorawan.InSync cfg d) (g : CredentialStore → α)
    (hg : ∀ c, g { c with joinActive := false } = g c) :
    ∃ d', Lorawan.InSync cfg d' ∧ d'.fields cfg = d.fields cfg ∧
      d.readLocked cfg (fun c => .ok (g c)) .none = ((d.fields cfg).map g, d') := by
  have hload := Lorawan.ensureLoaded_spec h .none
  have hread : (d.readLocked cfg (fun c => .ok (g c)) .none).1 = (d.fields cfg).map g := by
    rw [Lorawan.readLocked_fields fun c => by rw [hg]]
    cases d.fields cfg <;> rfl
  have hsame : (d.readLocked cfg (fun c => .ok (g c)) .none).2 = (d.ensureLoaded cfg .none).2 := by
    unfold Lorawan.Device.readLocked
    rcases d.ensureLoaded cfg .none with ⟨e | u, d'⟩ <;> rfl
  refine ⟨(d.ensureLoaded cfg .none).2, hload.held, ?_, Prod.ext hread hsame⟩
  rw [Lorawan.fields_eq hload.held, Lorawan.fields_eq h, funext hload.same]

theorem handleJoinRead_clean (h : Lorawan.InSync cfg d) : (handleJoinRead cfg .none d).1 =
    (d.fields cfg).map fun c => .value (Join.joinValue c.autoJoin c.joinInterval c.joinAttempts) := by
  obtain ⟨d₁, h₁, hfields₁, hread₁⟩ := readLocked_clean h (·.autoJoin) fun _ => rfl
  obtain ⟨d₂, h₂, hfields₂, hread₂⟩ := readLocked_clean h₁ (·.joinInterval) fun _ => rfl
  obtain ⟨d₃, -, -, hread₃⟩ := readLocked_clean h₂ (·.joinAttempts) fun _ => rfl
  rw [hfields₂, hfields₁] at hread₃
  rw [hfields₁] at hread₂
  unfold handleJoinRead
  cases hfields : d.fields cfg with
  | error e => simp [hread₁, hfields, Except.map]
  | ok c =>
    rw [hfields] at hread₁ hread₂ hread₃
    simp only [hread₁, hread₂, hread₃, Except.map]

/-- The number of a field of AT+JOIN, `stored` where it is left out. -/
def chosen (xs : List Number) (k stored : Nat) : Nat := (xs[k]?.map fun x => x.toInt.toNat).getD stored

def joinText (autoJoin interval attempts : Nat) : List UInt8 :=
  ascii "AT+JOIN=1:" ++ decimal autoJoin ++ [0x3a] ++ decimal interval ++ [0x3a] ++ decimal attempts

theorem byte_chosen {xs : List Number} (hxs : ∀ x ∈ xs, 0 ≤ x.toInt ∧ x.toInt ≤ 255) (k : Nat)
    (stored : UInt8) :
    (Policy.byte ((xs.map (·.toInt)).getD k Lorawan.joinKeep) stored).toNat = chosen xs k stored.toNat := by
  rw [List.getD_eq_getElem?_getD, List.getElem?_map]
  unfold chosen Policy.byte
  cases hx : xs[k]? with
  | none => rfl
  | some x =>
    obtain ⟨hlow, hhigh⟩ := hxs x (List.mem_of_getElem? hx)
    simp only [Option.map_some, Option.getD_some]
    rw [if_neg (by simp only [Lorawan.joinKeep]; omega)]
    exact UInt8.toNat_ofNat_of_lt' (by simp [UInt8.size]; omega)

theorem flag_chosen {xs : List Number} (hranges : Join.InRanges xs) (stored : Bool)
    (hxs : ∀ x ∈ xs, 0 ≤ x.toInt ∧ x.toInt ≤ 255) :
    (if (Policy.byte ((xs.map (·.toInt)).getD 1 Lorawan.joinKeep) (if stored then 1 else 0)) ≠ 0 then 1
      else 0) = chosen xs 1 (if stored then 1 else 0) := by
  have hbyte := byte_chosen hxs 1 (if stored then 1 else 0)
  have hle : chosen xs 1 (if stored then 1 else 0 : UInt8).toNat ≤ 1 := by
    unfold chosen
    match xs, hranges with
    | [], _ => cases stored <;> simp
    | [_], _ => cases stored <;> simp
    | _ :: x :: _, h =>
      simp only [Join.InRanges, Join.fieldRanges, List.length_cons, List.take_succ_cons,
        List.forall₂_cons] at h
      simp
      omega
  have hstored : (if stored then 1 else 0 : UInt8).toNat = if stored then 1 else 0 := by cases stored <;> rfl
  rw [hstored] at hbyte hle
  generalize Policy.byte ((xs.map (·.toInt)).getD 1 Lorawan.joinKeep) (if stored then 1 else 0) = b at hbyte ⊢
  have hzero : b = 0 ↔ b.toNat = 0 := UInt8.toNat_inj.symm
  by_cases hb : b = 0
  · rw [if_neg (not_not.2 hb), ← hbyte, hb]
    rfl
  · rw [if_pos hb]
    have := hzero.not.1 hb
    omega

variable (build) in
/-- A policy that is accepted is stored, with the bytes that it keeps. -/
theorem policy_stores (h : Lorawan.InSync cfg d) (policy : Policy)
    (hok : (d.set cfg build (.policy policy) faults).1 = .ok ()) :
    ∃ c, d.fields cfg = .ok c ∧ Lorawan.InSync cfg (d.set cfg build (.policy policy) faults).2 ∧
      Loadable cfg (d.set cfg build (.policy policy) faults).2 ∧
      lookup cfg (d.set cfg build (.policy policy) faults).2.settings.store .joinPolicy =
        .ok (policy.bytes c, true) := by
  unfold Lorawan.Device.set at hok ⊢
  cases hp : (Lorawan.Setter.policy policy).section build with
  | error e =>
    rw [hp] at hok
    cases hok
  | ok p =>
    simp only [hp] at hok ⊢
    have hstep := Lorawan.section_inStep hp
    have hkey : p.key = .joinPolicy := Lorawan.section_key hp
    have hvalue : p.value = policy.bytes := by
      simp only [Lorawan.Setter.section] at hp
      split at hp <;> cases hp
      rfl
    have hwrote := Lorawan.write_spec h hstep faults
    obtain ⟨f, hbefore, hafter⟩ := hwrote.stored hok
    refine ⟨Lorawan.holding f false, ?_, hwrote.inSync, fun k hk => ⟨_, hafter k hk⟩, ?_⟩
    · rw [Lorawan.fields_eq h, Lorawan.fieldsOf_of_store hbefore]
      rfl
    · have hstored := hafter p.key hstep.mem
      rw [Function.update_self, hvalue, hkey] at hstored
      exact hstored

/-- A device whose store says the policy prints it. -/
theorem policy_read {policy : Bytes} (h : Lorawan.InSync cfg d) (hload : Loadable cfg d)
    (hstored : lookup cfg d.settings.store .joinPolicy = .ok (policy, true)) :
    (handleJoinRead cfg .none d).1 = .ok (.value (joinText (if policy.getD 0 0 ≠ 0 then 1 else 0)
      (policy.getD 1 0).toNat (policy.getD 2 0).toNat)) := by
  have hvalue : Lorawan.valueOf (lookup cfg d.settings.store) .joinPolicy = (policy, true) := by
    rw [Lorawan.valueOf, hstored]
  rw [handleJoinRead_clean h, hload.fields h]
  simp only [Lorawan.holding, Lorawan.candidate, hvalue, Except.map, Join.joinValue, joinText]
  simp only [decide_eq_true_eq]

end Calls

/-- **What AT wrote is what AT prints.** In every state reached from any store contents without a failed
reset, the number that AT+NJM, AT+CFM or AT+RETY has accepted is printed after any further calls, failing
ones and reboots among them, that neither reset the device nor store another value for it. -/
theorem option_printed (cfg : Config) (build : Build) (σ : Store) (before after : List Lorawan.Call)
    (hbefore : Lts.Along (Lorawan.Device.next cfg build) Lorawan.NoFailedClear (.boot σ) before)
    (opt : Opt) (argument : List UInt8) (faults : CallFaults) :
    let x := handle cfg build opt .write argument faults (Lorawan.Device.after cfg build (.boot σ) before)
    x.1 = .ok .ok → Lts.Along (Lorawan.Device.next cfg build) (Spares cfg build opt.key) x.2 after →
    ∃ n, opt.Denotes argument n ∧ (handle cfg build opt .read [] .none (x.2.after cfg build after)).1 =
      .ok (.value (opt.name ++ ascii "=" ++ decimal n)) := by
  intro x hok hafter
  have hsync : Lorawan.InSync cfg (Lorawan.Device.after cfg build (.boot σ) before) :=
    Lorawan.inSync_after (Lorawan.inSync_boot cfg σ) hbefore
  rcases handle_write cfg build opt argument faults
    (Lorawan.Device.after cfg build (.boot σ) before) with ⟨n, hn, hx⟩ | ⟨-, hx⟩
  · obtain ⟨hstores, hload⟩ := store_stores build hsync hn.1 faults
    have hx : x = replied _ := hx
    rw [hx] at hok hafter ⊢
    have hstore := replied_ok.1 hok
    have hkept : Kept cfg opt n
        (store cfg build opt n faults (Lorawan.Device.after cfg build (.boot σ) before)).2 :=
      ⟨hstores.inSync, hload hstore, hstores.stored hstore⟩
    exact ⟨n, hn, (hkept.after hafter).read hn.1 []⟩
  · rw [show x = _ from hx] at hok
    cases hok

/-- The number 7 is stored; a write fails in storage, another option is stored and the device reboots. -/
theorem option_printed_rety : ∃ n, Opt.rety.Denotes (ascii "7") n ∧
    (handle defaultConfig Identifiers.usBuild .rety .read [] .none
      ((handle defaultConfig Identifiers.usBuild .rety .write (ascii "7") .none
        (Lorawan.Device.after defaultConfig Identifiers.usBuild (.boot fun _ => []) [.load .none])).2.after
          defaultConfig Identifiers.usBuild
          [.config .rety [2] [some ioFault], .config .cfm [1] [], .reboot])).1 =
      .ok (.value (Opt.rety.name ++ ascii "=" ++ decimal n)) := by
  refine option_printed defaultConfig Identifiers.usBuild (fun _ => []) [.load .none]
    [.config .rety [2] [some ioFault], .config .cfm [1] [], .reboot] ⟨trivial, trivial⟩ .rety (ascii "7")
    .none rfl ?_
  refine ⟨⟨fun _ h => (by cases h), fun h => ?_⟩, ⟨fun _ h => (by cases h), fun h => ?_⟩,
    ⟨fun _ h => (by cases h), fun h => h⟩, trivial⟩
  · cases h.2
  · cases h.1

/-- **Which arguments AT takes.** In every state reached from any store contents without a failed reset: with
working storage an argument of AT+NJM, AT+CFM or AT+RETY is accepted exactly if it denotes a number up to
the last one, and for AT+NJM the build has that activation, the credential store can be loaded and no join is
active; and whatever the storage does, a refused argument changes nothing that these commands or AT+JOIN=?
print and nothing that a join is configured with. -/
theorem option_accepted_iff (cfg : Config) (build : Build) (σ : Store) (before : List Lorawan.Call)
    (hbefore : Lts.Along (Lorawan.Device.next cfg build) Lorawan.NoFailedClear (.boot σ) before)
    (opt : Opt) (argument : List UInt8) :
    let d := Lorawan.Device.after cfg build (.boot σ) before
    ((handle cfg build opt .write argument .none d).1 = .ok .ok ↔
      ∃ n, opt.Denotes argument n ∧ Storable cfg build n d opt) ∧
    ∀ faults, let x := handle cfg build opt .write argument faults d
      x.1 ≠ .ok .ok →
        (∀ other, (handle cfg build other .read [] .none x.2).1 =
          (handle cfg build other .read [] .none d).1) ∧
        (handleJoinRead cfg .none x.2).1 = (handleJoinRead cfg .none d).1 ∧
        ∀ build', (x.2.buildConfig cfg build' .none).1 = (d.buildConfig cfg build' .none).1 := by
  intro d
  have hsync : Lorawan.InSync cfg d := Lorawan.inSync_after (Lorawan.inSync_boot cfg σ) hbefore
  refine ⟨?_, fun faults => ?_⟩
  · rcases handle_write cfg build opt argument .none d with ⟨n, hn, heq⟩ | ⟨hno, heq⟩
    · rw [heq, replied_ok, store_clean_iff hsync hn.1]
      refine ⟨fun h => ⟨n, hn, h⟩, ?_⟩
      rintro ⟨m, hm, h⟩
      rwa [hn.unique hm]
    · rw [heq]
      constructor
      · intro h
        cases h
      · rintro ⟨n, hn, -⟩
        exact absurd hn (hno n)
  · intro x hx
    have hsame : Lorawan.InSync cfg x.2 ∧
        ∀ j, lookup cfg x.2.settings.store j = lookup cfg d.settings.store j := by
      rcases handle_write cfg build opt argument faults d with ⟨n, hn, heq⟩ | ⟨-, heq⟩
      · obtain ⟨hstores, -⟩ := store_stores build hsync hn.1 faults
        rw [show x = _ from heq] at hx ⊢
        cases hstore : (store cfg build opt n faults d).1 with
        | error e => exact ⟨hstores.inSync, hstores.failed e hstore⟩
        | ok u => exact absurd (replied_ok.2 hstore) hx
      · rw [show x = _ from heq]
        exact ⟨hsync, fun _ => rfl⟩
    obtain ⟨hsync', hsame⟩ := hsame
    have hfields : x.2.fields cfg = d.fields cfg := by
      rw [Lorawan.fields_eq hsync', Lorawan.fields_eq hsync, funext hsame]
    refine ⟨fun other => ?_, ?_, fun build' => ?_⟩
    · rw [handle_read hsync', handle_read hsync]
      cases other <;> simp only [readValue, hfields, hsame]
    · rw [handleJoinRead_clean hsync', handleJoinRead_clean hsync, hfields]
    · rw [Lorawan.Device.buildConfig, Lorawan.Device.buildConfig, Lorawan.readLocked_fields fun _ => rfl,
        Lorawan.readLocked_fields fun _ => rfl, hfields]

/-- AT+CFM is taken while a join is active. -/
theorem option_accepted_cfm : (handle defaultConfig Identifiers.usBuild .cfm .write (ascii "1") .none
    (Lorawan.Device.after defaultConfig Identifiers.usBuild (.boot fun _ => []) [.setJoinActive true])).1 =
      .ok .ok :=
  (option_accepted_iff defaultConfig Identifiers.usBuild (fun _ => []) [.setJoinActive true]
    ⟨trivial, trivial⟩ .cfm (ascii "1")).1.2 ⟨1, ⟨by decide, by decide⟩, trivial⟩

/-- **The join policy.** In every state reached from any store contents without a failed reset, once
AT+JOIN has stored its policy AT+JOIN=? prints it after any further calls, failing ones and reboots among
them, that neither reset the device nor store another policy: the numbers of the argument, and for each
that is left out the one in force before. -/
theorem policy_printed (cfg : Config) (build : Build) (σ : Store) (before after : List Lorawan.Call)
    (hbefore : Lts.Along (Lorawan.Device.next cfg build) Lorawan.NoFailedClear (.boot σ) before)
    (argument : List UInt8) (faults : CallFaults) :
    let d := Lorawan.Device.after cfg build (.boot σ) before
    let x := handleJoinPolicy cfg build argument faults d
    x.1 = .ok () → Lts.Along (Lorawan.Device.next cfg build) (Spares cfg build .joinPolicy) x.2 after →
    ∃ xs c, Numerals 0x3a argument xs ∧ Join.InRanges xs ∧ d.fields cfg = .ok c ∧
      (handleJoinRead cfg .none (x.2.after cfg build after)).1 =
        .ok (.value (joinText (chosen xs 1 (if c.autoJoin then 1 else 0))
          (chosen xs 2 c.joinInterval.toNat) (chosen xs 3 c.joinAttempts.toNat))) := by
  intro d x hok hafter
  have hsync : Lorawan.InSync cfg d := Lorawan.inSync_after (Lorawan.inSync_boot cfg σ) hbefore
  cases hparse : Join.parseJoinParameters 32 argument with
  | error e =>
    simp only [x, handleJoinPolicy, hparse] at hok
    cases hok
  | ok p =>
    obtain ⟨xs, hxs, hranges, rfl⟩ := (Join.parse_iff (by decide)).1 hparse
    have hbytes := ((Join.inRanges_iff hranges.length_le hxs.ne_nil).1 hranges).1
    have hx : x = d.set cfg build (.policy ⟨(xs.map (·.toInt)).getD 1 Lorawan.joinKeep,
        (xs.map (·.toInt)).getD 2 Lorawan.joinKeep, (xs.map (·.toInt)).getD 3 Lorawan.joinKeep⟩) faults := by
      simp only [x, handleJoinPolicy, hparse]
      rfl
    rw [hx] at hok hafter ⊢
    obtain ⟨c, hfields, hsync', hload, hstored⟩ := policy_stores build hsync _ hok
    obtain ⟨hsync'', hload', hsame⟩ := spared hsync' hafter
    refine ⟨xs, c, hxs, hranges, hfields, ?_⟩
    rw [policy_read hsync'' (hload' hload) (hsame.trans hstored)]
    simp only [Policy.bytes, List.getD_cons_zero, List.getD_cons_succ]
    rw [byte_chosen hbytes 2, byte_chosen hbytes 3, flag_chosen hranges _ hbytes]

/-- The interval is kept when the number of attempts is not: AT+JOIN=0:1:9, then a reboot. -/
theorem policy_printed_interval : ∃ xs c, Numerals 0x3a (ascii "0:1:9") xs ∧ Join.InRanges xs ∧
    (Lorawan.Device.after defaultConfig Identifiers.usBuild (.boot fun _ => []) [.load .none]).fields
      defaultConfig = .ok c ∧
    (handleJoinRead defaultConfig .none ((handleJoinPolicy defaultConfig Identifiers.usBuild
      (ascii "0:1:9") .none (Lorawan.Device.after defaultConfig Identifiers.usBuild (.boot fun _ => []) [.load .none])).2.after
        defaultConfig Identifiers.usBuild [.config .cfm [1] [], .reboot])).1 =
      .ok (.value (joinText (chosen xs 1 (if c.autoJoin then 1 else 0)) (chosen xs 2 c.joinInterval.toNat)
        (chosen xs 3 c.joinAttempts.toNat))) := by
  refine policy_printed defaultConfig Identifiers.usBuild (fun _ => []) [.load .none]
    [.config .cfm [1] [], .reboot] ⟨trivial, trivial⟩ (ascii "0:1:9") .none rfl ?_
  refine ⟨⟨fun _ h => (by cases h), fun h => ?_⟩, ⟨fun _ h => (by cases h), fun h => h⟩, trivial⟩
  cases h.1

end Rzi.At.Options
