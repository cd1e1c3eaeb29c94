import Rzi.Migration
import Rzi.Credentials

/-!
# The credential store over the settings layer

`Device` is the credential store together with the settings it is loaded from, and the calls of
`lorawan_credentials.c` run through the reads and writes of `lorawan_settings.c`. The sections are
those of `Credentials`: `Device.set_call` says that a setter does what `Setter.call` does with the
answers the settings layer gave it. A call may meet a fault at any storage operation.

`InSync` is the law that ties the three copies of a field together: what is stored, what the settings
cache and what the credential store hold are the same.
-/

namespace Rzi.Lorawan
open Settings Storage

/-- The faults one call meets: those of the read of each key and those of its write. -/
structure CallFaults where
  read : Key → List (Option Fault)
  write : List (Option Fault)

/-- Working storage. -/
def CallFaults.none : CallFaults := ⟨fun _ => [], []⟩

structure Device where
  settings : Sys
  credentials : CredentialStore

/-- The keys `ensure_loaded_locked` reads, in its order. -/
def loadKeys : List Key :=
  [.deveui, .joineui, .appkey, .genappkey, .devaddr, .nwkskey, .appskey, .njm, .joinPolicy, .chmask]

section Model
variable (cfg : Config)

/-- Reads the keys up to the first that fails; the keys behind it are not asked for. -/
def readKeys (faults : Key → List (Option Fault)) :
    List Key → Sys → (Key → Except Err (Bytes × Bool)) × Sys
  | [], s => (fun _ => .error .notReady, s)
  | k :: ks, s =>
    match settingRead cfg s k.name k.size (faults k) with
    | (.error e, s) => (fun _ => .error e, s)
    | (.ok r, s) => (Function.update (readKeys faults ks s).1 k (.ok r), (readKeys faults ks s).2)

namespace Device

/-- What the settings layer answers to a call, and the settings after its reads. -/
def answers (faults : CallFaults) (d : Device) : Answers × Sys :=
  if d.credentials.loaded then
    (⟨fun _ => .error .notReady, fun k v => (settingWrite cfg d.settings k.name v faults.write).1⟩,
      d.settings)
  else
    let r := readKeys cfg faults.read loadKeys d.settings
    (⟨r.1, fun k v => (settingWrite cfg r.2 k.name v faults.write).1⟩, r.2)

def ensureLoaded (faults : CallFaults) (d : Device) : Except Err Unit × Device :=
  let a := d.answers cfg faults
  ((ensureLoadedLocked a.1 d.credentials).1, ⟨a.2, (ensureLoadedLocked a.1 d.credentials).2⟩)

/-- A section that loads the store and then reads it. -/
def readLocked {α : Type} (f : CredentialStore → Except Err α) (faults : CallFaults) (d : Device) :
    Except Err α × Device :=
  match d.ensureLoaded cfg faults with
  | (.error e, d) => (.error e, d)
  | (.ok (), d) => (f d.credentials, d)

/-- `get_bytes`; `buffer` is the length of the caller's array, `none` for a NULL pointer. -/
def getBytes {n : Nat} (src : CredentialStore → Vector UInt8 n) (valid : CredentialStore → Bool)
    (buffer : Option Nat) (faults : CallFaults) (d : Device) : Except Err (Vector UInt8 n) × Device :=
  if buffer ≠ some n then (.error .invalid, d)
  else d.readLocked cfg (fun c => if valid c then .ok (src c) else .error .noData) faults

def getDevEui : Option Nat → CallFaults → Device → Except Err (Vector UInt8 8) × Device :=
  getBytes cfg (·.devEui) (·.devEuiSet)

def getAppEui : Option Nat → CallFaults → Device → Except Err (Vector UInt8 8) × Device :=
  getBytes cfg (·.appEui) (·.appEuiSet)

def getAppKey : Option Nat → CallFaults → Device → Except Err (Vector UInt8 16) × Device :=
  getBytes cfg (·.appKey) (·.appKeySet)

def getGenAppKey : Option Nat → CallFaults → Device → Except Err (Vector UInt8 16) × Device :=
  getBytes cfg (·.genAppKey) (·.genAppKeySet)

/-- `rzi_lorawan_credentials_get_channel_mask`: whether a mask is set, and the mask. -/
def getChannelMask (faults : CallFaults) (d : Device) :
    Except Err (Bool × Vector UInt16 6) × Device :=
  d.readLocked cfg (fun c => .ok (c.channelMaskSet, c.channelMask)) faults

/-- `rzi_lorawan_credentials_build_config`, in the region of the build. -/
def buildConfig (build : Build) (faults : CallFaults) (d : Device) :
    Except Err Zephyr.JoinConfig × Device :=
  d.readLocked cfg (fun c => .ok (c.joinConfig build)) faults

end Device

/-! ### Setters -/

/-- The section of a setter behind its argument checks: the setting it writes, the field it updates,
and whether an active join refuses it. -/
structure Section where
  key : Key
  guarded : Bool
  value : CredentialStore → Bytes
  update : CredentialStore → CredentialStore

def Section.call (p : Section) (a : Answers) (c : CredentialStore) :
    Except Err Unit × CredentialStore :=
  match ensureLoadedLocked a c with
  | (.error e, c) => (.error e, c)
  | (.ok (), c) =>
    if p.guarded && c.joinActive then (.error .busy, c)
    else
      match a.write p.key (p.value c) with
      | .error e => (.error e, c)
      | .ok () => (.ok (), p.update c)

def bytesSection (key : Key) (store : Bytes → CredentialStore → CredentialStore)
    (src : Option Bytes) : Except Err Section :=
  match src with
  | none => .error .invalid
  | some value =>
    if value.length ≠ key.size then .error .invalid else .ok ⟨key, true, fun _ => value, store value⟩

/-- The argument checks of a setter and the section behind them. -/
def Setter.section (build : Build) : Setter → Except Err Section
  | .devEui src => bytesSection .deveui (fun v c => { c with devEui := fill 8 v, devEuiSet := true }) src
  | .appEui src => bytesSection .joineui (fun v c => { c with appEui := fill 8 v, appEuiSet := true }) src
  | .appKey src => bytesSection .appkey (fun v c => { c with appKey := fill 16 v, appKeySet := true }) src
  | .genAppKey src =>
    bytesSection .genappkey (fun v c => { c with genAppKey := fill 16 v, genAppKeySet := true }) src
  | .nwkSkey src =>
    bytesSection .nwkskey (fun v c => { c with nwkSkey := fill 16 v, nwkSkeySet := true }) src
  | .appSkey src =>
    bytesSection .appskey (fun v c => { c with appSkey := fill 16 v, appSkeySet := true }) src
  | .devAddr value =>
    .ok ⟨.devaddr, true, fun _ => LittleEndian.putLe 4 value.toNat,
      fun c => { c with devAddr := value, devAddrSet := true }⟩
  | .activation mode =>
    if !activationSupported build mode then .error .notSupported
    else .ok ⟨.njm, true, fun _ => [njmWire mode], fun c => { c with njm := mode }⟩
  | .channelMask mask =>
    if mask.any (!channelMaskValid ·) then .error .invalid
    else .ok ⟨.chmask, true, fun _ => maskBytes (mask.getD (.replicate 6 0)), fun c =>
      { c with channelMask := mask.getD (.replicate 6 0), channelMaskSet := mask.isSome }⟩
  | .policy p =>
    if !p.valid then .error .invalid
    else .ok ⟨.joinPolicy, false, p.bytes, fun c => { c with
      autoJoin := Policy.byte p.autoJoin (if c.autoJoin then 1 else 0) ≠ 0
      joinInterval := Policy.byte p.interval c.joinInterval
      joinAttempts := Policy.byte p.attempts c.joinAttempts }⟩

/-- The section is the setter. -/
theorem Setter.call_eq (build : Build) (setter : Setter) (a : Answers) (c : CredentialStore) :
    setter.call build a c =
      match setter.section build with
      | .error e => (.error e, c)
      | .ok p => p.call a c := by
  have hbytes : ∀ key store src, setBytes key store src a c =
      match bytesSection key store src with
      | .error e => (.error e, c)
      | .ok p => p.call a c := by
    intro key store src
    unfold setBytes bytesSection
    cases src with
    | none => rfl
    | some value =>
      dsimp only
      split_ifs <;> rfl
  cases setter with
  | devEui src => exact hbytes _ _ src
  | appEui src => exact hbytes _ _ src
  | appKey src => exact hbytes _ _ src
  | genAppKey src => exact hbytes _ _ src
  | nwkSkey src => exact hbytes _ _ src
  | appSkey src => exact hbytes _ _ src
  | devAddr value => rfl
  | activation mode =>
    simp only [Setter.call, Setter.section, setActivation]
    split_ifs <;> rfl
  | channelMask mask =>
    simp only [Setter.call, Setter.section, setChannelMask]
    split_ifs <;> rfl
  | policy p =>
    simp only [Setter.call, Setter.section, updatePolicy]
    split_ifs <;> rfl

namespace Device

def write (p : Section) (faults : CallFaults) (d : Device) : Except Err Unit × Device :=
  match d.ensureLoaded cfg faults with
  | (.error e, d) => (.error e, d)
  | (.ok (), d) =>
    if p.guarded && d.credentials.joinActive then (.error .busy, d)
    else
      match settingWrite cfg d.settings p.key.name (p.value d.credentials) faults.write with
      | (.error e, s) => (.error e, ⟨s, d.credentials⟩)
      | (.ok (), s) => (.ok (), ⟨s, p.update d.credentials⟩)

def set (build : Build) (setter : Setter) (faults : CallFaults) (d : Device) :
    Except Err Unit × Device :=
  match setter.section build with
  | .error e => (.error e, d)
  | .ok p => d.write cfg p faults

/-- `rzi_lorawan_credentials_clear_settings`. -/
def clear (faults : List (Option Fault)) (d : Device) : Except Err Unit × Device :=
  if d.credentials.joinActive then (.error .busy, d)
  else
    match settingsClear d.settings faults with
    | (.error e, s) => (.error e, ⟨s, d.credentials⟩)
    | (.ok (), s) => (.ok (), ⟨s, .empty⟩)

def boot (σ : Store) : Device := ⟨⟨σ, fun _ => Entry.empty⟩, .empty⟩

def reboot (d : Device) : Device := boot d.settings.store

def setJoinActive (active : Bool) (d : Device) : Device :=
  ⟨d.settings, Lorawan.setJoinActive active d.credentials⟩

end Device

/-! ### Histories -/

/-- The settings that `lorawan_config.c` writes. -/
inductive ConfigKey where
  | region | cfm | rety | netid
deriving DecidableEq, Repr

def ConfigKey.key : ConfigKey → Key
  | .region => .region
  | .cfm => .cfm
  | .rety => .rety
  | .netid => .netid

/-- The calls that reach the settings; `load` stands for every function that reads the credentials. -/
inductive Call where
  | set (setter : Setter) (faults : CallFaults)
  | load (faults : CallFaults)
  | setJoinActive (active : Bool)
  | read (key : String) (size : Nat) (faults : List (Option Fault))
  | config (key : ConfigKey) (value : Bytes) (faults : List (Option Fault))
  | clear (faults : List (Option Fault))
  | reboot

namespace Device
variable (build : Build)

def next (d : Device) : Call → Device
  | .set setter faults => (d.set cfg build setter faults).2
  | .load faults => (d.ensureLoaded cfg faults).2
  | .setJoinActive active => d.setJoinActive active
  | .read key size faults => ⟨(settingRead cfg d.settings key size faults).2, d.credentials⟩
  | .config key value faults =>
    ⟨(settingWrite cfg d.settings key.key.name value faults).2, d.credentials⟩
  | .clear faults => (d.clear faults).2
  | .reboot => d.reboot

def after (d : Device) (calls : List Call) : Device := calls.foldl (next cfg build) d

end Device
end Model

/-! ### Calls as the credential store sees them -/

section Calls
variable {cfg : Config} {build : Build} {faults : CallFaults} {d : Device}

/-- A setter does what the settings layer's answers make it do. -/
theorem Device.set_call (cfg : Config) (build : Build) (setter : Setter) (faults : CallFaults)
    (d : Device) : ((d.set cfg build setter faults).1, (d.set cfg build setter faults).2.credentials) =
      setter.call build (d.answers cfg faults).1 d.credentials := by
  rw [Setter.call_eq, Device.set]
  rcases setter.section build with e | p
  · rfl
  · have hwrite : ∀ key v, (d.answers cfg faults).1.write key v =
        (settingWrite cfg (d.answers cfg faults).2 key.name v faults.write).1 := by
      intro key v
      unfold Device.answers
      split_ifs <;> rfl
    simp only [Device.write, Device.ensureLoaded, Section.call]
    rcases ensureLoadedLocked (d.answers cfg faults).1 d.credentials with ⟨e | _, c⟩
    · rfl
    · dsimp only
      rw [hwrite]
      split_ifs
      · rfl
      · rcases settingWrite cfg (d.answers cfg faults).2 p.key.name (p.value c) faults.write with ⟨e | _, s⟩
        · rfl
        · rfl

/-- A reset does what the answer of the settings layer makes it do. -/
theorem Device.clear_call (faults : List (Option Fault)) (d : Device) :
    ((d.clear faults).1, (d.clear faults).2.credentials) =
      clearSettings (settingsClear d.settings faults).1 d.credentials := by
  unfold Device.clear clearSettings
  split_ifs
  · rfl
  · rcases settingsClear d.settings faults with ⟨e | _, s⟩
    · rfl
    · rfl

end Calls

/-! ### Loading -/

section Loading
variable {cfg : Config} {read : Key → Except Err (Bytes × Bool)} {ks : List Key} {s : Sys}
  {faults : Key → List (Option Fault)}

def firstError (read : Key → Except Err (Bytes × Bool)) : List Key → Option Err
  | [] => none
  | k :: ks =>
    match read k with
    | .error e => some e
    | .ok _ => firstError read ks

def valueOf (read : Key → Except Err (Bytes × Bool)) (k : Key) : Bytes × Bool :=
  match read k with
  | .error _ => ([], false)
  | .ok r => r

/-- The store that `ensure_loaded_locked` makes of the settings, once all of them are read. -/
def candidate (f : Key → Bytes × Bool) : CredentialStore where
  devEui := fill 8 (f .deveui).1
  devEuiSet := (f .deveui).2
  appEui := fill 8 (f .joineui).1
  appEuiSet := (f .joineui).2
  appKey := fill 16 (f .appkey).1
  appKeySet := (f .appkey).2
  genAppKey := fill 16 (f .genappkey).1
  genAppKeySet := (f .genappkey).2
  devAddr := UInt32.ofNat (LittleEndian.getLe ((f .devaddr).1.take 4))
  devAddrSet := (f .devaddr).2
  nwkSkey := fill 16 (f .nwkskey).1
  nwkSkeySet := (f .nwkskey).2
  appSkey := fill 16 (f .appskey).1
  appSkeySet := (f .appskey).2
  njm := if (f .njm).1.getD 0 0 = 0 then .abp else .otaa
  autoJoin := (f .joinPolicy).1.getD 0 0 ≠ 0
  joinInterval := (f .joinPolicy).1.getD 1 0
  joinAttempts := (f .joinPolicy).1.getD 2 0
  channelMask := fillMask (f .chmask).1
  channelMaskSet := (f .chmask).2 && channelMaskValid (fillMask (f .chmask).1)
  joinActive := false
  loaded := false

theorem loadCandidate_eq (a : Answers) : loadCandidate a =
    match firstError a.read loadKeys with
    | some e => .error e
    | none => .ok (candidate (valueOf a.read)) := by
  simp only [firstError, loadKeys]
  unfold loadCandidate candidate valueOf
  rcases a.read .deveui with e | r₁
  · rfl
  rcases a.read .joineui with e | r₂
  · rfl
  rcases a.read .appkey with e | r₃
  · rfl
  rcases a.read .genappkey with e | r₄
  · rfl
  rcases a.read .devaddr with e | r₅
  · rfl
  rcases a.read .nwkskey with e | r₆
  · rfl
  rcases a.read .appskey with e | r₇
  · rfl
  rcases a.read .njm with e | r₈
  · rfl
  rcases a.read .joinPolicy with e | r₉
  · rfl
  rcases a.read .chmask with e | r₁₀
  · rfl
  rfl

theorem firstError_congr {read' : Key → Except Err (Bytes × Bool)} (h : ∀ k ∈ ks, read' k = read k) :
    firstError read' ks = firstError read ks := by
  induction ks with
  | nil => rfl
  | cons k ks ih =>
    rw [firstError, firstError, h k List.mem_cons_self,
      ih fun j hj => h j (List.mem_cons_of_mem _ hj)]

theorem firstError_eq_none : firstError read ks = none ↔ ∀ k ∈ ks, ∃ r, read k = .ok r := by
  induction ks with
  | nil => exact ⟨fun _ => nofun, fun _ => rfl⟩
  | cons k ks ih =>
    rw [firstError, List.forall_mem_cons, ← ih]
    rcases read k with e | r
    · simp
    · simp

/-- The reads of a load leave what the store says. A key that was read answers what the store says
about it, and with working storage the first failure is the first key the store cannot answer. -/
structure KeysRead (cfg : Config) (s : Sys) (ks : List Key) (faults : Key → List (Option Fault))
    (x : (Key → Except Err (Bytes × Bool)) × Sys) : Prop where
  coherent : Coherent cfg x.2
  same : ∀ j, lookup cfg x.2.store j = lookup cfg s.store j
  answer : ∀ k ∈ ks, ∀ r, x.1 k = .ok r → lookup cfg s.store k = .ok r
  clean : (∀ k, faults k = []) → firstError x.1 ks = firstError (lookup cfg s.store) ks

theorem readKeys_spec (cfg : Config) (faults : Key → List (Option Fault)) (hnd : ks.Nodup)
    (hs : Coherent cfg s) : KeysRead cfg s ks faults (readKeys cfg faults ks s) := by
  induction ks generalizing s with
  | nil => exact ⟨hs, fun _ => rfl, nofun, fun _ => rfl⟩
  | cons k ks ih =>
    obtain ⟨hk, hnd⟩ := List.nodup_cons.1 hnd
    have hread := settingRead_keeps hs (findSetting_name k) k.size (faults k)
    have hclean : faults k = [] → (settingRead cfg s k.name k.size (faults k)).1 =
        lookup cfg s.store k := by
      intro hf
      rw [hf]
      exact settingRead_clean hs k
    rw [readKeys]
    generalize settingRead cfg s k.name k.size (faults k) = x at hread hclean ⊢
    rcases x with ⟨e | r, s'⟩
    · refine ⟨hread.coherent, hread.same, nofun, fun hf => ?_⟩
      rw [firstError, firstError, ← hclean (hf k)]
    · show KeysRead cfg s (k :: ks) faults
        (Function.update (readKeys cfg faults ks s').1 k (.ok r), (readKeys cfg faults ks s').2)
      have hrest : KeysRead cfg s' ks faults (readKeys cfg faults ks s') := ih hnd hread.coherent
      have hsame : ∀ j, lookup cfg s'.store j = lookup cfg s.store j := hread.same
      refine ⟨hrest.coherent, fun j => (hrest.same j).trans (hsame j), ?_, fun hf => ?_⟩
      · intro j hj r' hr'
        dsimp only at hr'
        by_cases hjk : j = k
        · subst hjk
          rw [Function.update_self] at hr'
          cases hr'
          exact hread.answer r rfl
        · rw [Function.update_of_ne hjk] at hr'
          rw [← hsame j]
          exact hrest.answer j ((List.mem_cons.1 hj).resolve_left hjk) r' hr'
      · have hother : firstError (Function.update (readKeys cfg faults ks s').1 k (.ok r)) ks =
            firstError (readKeys cfg faults ks s').1 ks := by
          refine firstError_congr fun j hj => Function.update_of_ne ?_ _ _
          rintro rfl
          exact hk hj
        have hlookup : lookup cfg s.store k = .ok r := (hclean (hf k)).symm
        dsimp only
        rw [firstError, firstError, hlookup, Function.update_self]
        show firstError (Function.update (readKeys cfg faults ks s').1 k (.ok r)) ks =
          firstError (lookup cfg s.store) ks
        rw [hother, hrest.clean hf]
        exact firstError_congr fun j _ => hsame j

end Loading

/-! ### The three copies of a field -/

section InSync
variable {cfg : Config} {build : Build} {faults : CallFaults} {d : Device}

/-- What the store says about the keys that are loaded. -/
def Says (cfg : Config) (d : Device) (f : Key → Bytes × Bool) : Prop :=
  ∀ k ∈ loadKeys, lookup cfg d.settings.store k = .ok (f k)

/-- The cache answers what the store says, and a loaded credential store holds it. -/
structure InSync (cfg : Config) (d : Device) : Prop where
  coherent : Coherent cfg d.settings
  held : d.credentials.loaded = true → ∃ f, Says cfg d f ∧ d.credentials =
    { candidate f with loaded := true, joinActive := d.credentials.joinActive }

theorem inSync_boot (cfg : Config) (σ : Store) : InSync cfg (.boot σ) := ⟨coherent_boot cfg σ, nofun⟩

theorem candidate_congr {f g : Key → Bytes × Bool} (h : ∀ k ∈ loadKeys, f k = g k) :
    candidate f = candidate g := by
  unfold candidate
  rw [h .deveui (by decide), h .joineui (by decide), h .appkey (by decide), h .genappkey (by decide),
    h .devaddr (by decide), h .nwkskey (by decide), h .appskey (by decide), h .njm (by decide),
    h .joinPolicy (by decide), h .chmask (by decide)]

/-- What a load does to the device: nothing the store says changes; it ends with the store's fields
loaded, or with an error and the credential store as it was. -/
structure Loaded (cfg : Config) (d : Device) (x : Except Err Unit × Device) : Prop where
  held : InSync cfg x.2
  same : ∀ j, lookup cfg x.2.settings.store j = lookup cfg d.settings.store j
  joinActive : x.2.credentials.joinActive = d.credentials.joinActive
  loaded : x.1 = .ok () → x.2.credentials.loaded = true

theorem ensureLoaded_spec (h : InSync cfg d) (faults : CallFaults) :
    Loaded cfg d (d.ensureLoaded cfg faults) := by
  unfold Device.ensureLoaded Device.answers
  by_cases hl : d.credentials.loaded = true
  · simp only [if_pos hl, ensureLoadedLocked_of_loaded hl]
    exact ⟨h, fun _ => rfl, rfl, fun _ => hl⟩
  · have hread : KeysRead cfg d.settings loadKeys faults.read
        (readKeys cfg faults.read loadKeys d.settings) :=
      readKeys_spec cfg faults.read (by decide) h.coherent
    simp only [if_neg hl, ensureLoadedLocked, loadCandidate_eq]
    cases hfirst : firstError (readKeys cfg faults.read loadKeys d.settings).1 loadKeys with
    | some e =>
      exact ⟨⟨hread.coherent, fun hl' => absurd hl' hl⟩, hread.same, rfl, fun hok => by cases hok⟩
    | none =>
      refine ⟨⟨hread.coherent, fun _ => ⟨_, fun k hk => ?_, rfl⟩⟩, hread.same, rfl, fun _ => rfl⟩
      obtain ⟨r, hr⟩ := firstError_eq_none.1 hfirst k hk
      rw [hread.same, hread.answer k hk r hr, valueOf, hr]

/-- The stored fields as `ensure_loaded_locked` gives them with working storage. -/
def Device.fields (cfg : Config) (d : Device) : Except Err CredentialStore :=
  match d.ensureLoaded cfg .none with
  | (.error e, _) => .error e
  | (.ok (), d) => .ok { d.credentials with joinActive := false }

/-- The fields are a function of what the store says. -/
def fieldsOf (read : Key → Except Err (Bytes × Bool)) : Except Err CredentialStore :=
  match firstError read loadKeys with
  | some e => .error e
  | none => .ok { candidate (valueOf read) with loaded := true }

theorem valueOf_of_store {f : Key → Bytes × Bool} (h : Says cfg d f) :
    ∀ k ∈ loadKeys, valueOf (lookup cfg d.settings.store) k = f k := by
  intro k hk
  rw [valueOf, h k hk]

theorem fieldsOf_of_store {f : Key → Bytes × Bool} (h : Says cfg d f) :
    fieldsOf (lookup cfg d.settings.store) = .ok { candidate f with loaded := true } := by
  have hnone : firstError (lookup cfg d.settings.store) loadKeys = none :=
    firstError_eq_none.2 fun k hk => ⟨f k, h k hk⟩
  rw [fieldsOf, hnone, candidate_congr (valueOf_of_store h)]

theorem fields_eq (h : InSync cfg d) : d.fields cfg = fieldsOf (lookup cfg d.settings.store) := by
  unfold Device.fields Device.ensureLoaded Device.answers
  by_cases hl : d.credentials.loaded = true
  · obtain ⟨f, hstore, hcredentials⟩ := h.held hl
    simp only [if_pos hl, ensureLoadedLocked_of_loaded hl]
    rw [fieldsOf_of_store hstore, hcredentials]
    rfl
  · have hread : KeysRead cfg d.settings loadKeys CallFaults.none.read
        (readKeys cfg CallFaults.none.read loadKeys d.settings) :=
      readKeys_spec cfg _ (by decide) h.coherent
    have hfirst := hread.clean fun _ => rfl
    simp only [if_neg hl, ensureLoadedLocked, loadCandidate_eq, fieldsOf, ← hfirst]
    cases hnone : firstError (readKeys cfg CallFaults.none.read loadKeys d.settings).1 loadKeys with
    | some e => rfl
    | none =>
      have hsame : ∀ k ∈ loadKeys, valueOf (readKeys cfg CallFaults.none.read loadKeys d.settings).1 k =
          valueOf (lookup cfg d.settings.store) k := by
        intro k hk
        obtain ⟨r, hr⟩ := firstError_eq_none.1 hnone k hk
        rw [valueOf, valueOf, hr, hread.answer k hk r hr]
      simp only [candidate_congr hsame]
      rfl

/-- With working storage a function that reads the store answers from the fields. -/
theorem readLocked_fields {α : Type} {g : CredentialStore → Except Err α}
    (hg : ∀ c, g { c with joinActive := false } = g c) (d : Device) :
    (d.readLocked cfg g .none).1 = (d.fields cfg).bind g := by
  unfold Device.readLocked Device.fields
  rcases d.ensureLoaded cfg .none with ⟨e | _, d'⟩
  · rfl
  · exact (hg d'.credentials).symm

/-- What the store says does not change, and the three copies stay the same. -/
def Steady (cfg : Config) (d d' : Device) : Prop :=
  InSync cfg d' ∧ ∀ j, lookup cfg d'.settings.store j = lookup cfg d.settings.store j

/-- The call writes no setting. -/
def Call.isQuery : Call → Bool
  | .load _ | .setJoinActive _ | .read _ _ _ | .reboot => true
  | _ => false

theorem InSync.setJoinActive (h : InSync cfg d) (active : Bool) : InSync cfg (d.setJoinActive active) := by
  refine ⟨h.coherent, fun hl => ?_⟩
  obtain ⟨f, hstore, hcredentials⟩ := h.held hl
  refine ⟨f, hstore, ?_⟩
  rw [Device.setJoinActive, Lorawan.setJoinActive, hcredentials]

theorem InSync.of_settings (h : InSync cfg d) {s : Sys} (hs : Coherent cfg s)
    (hsame : ∀ j ∈ loadKeys, lookup cfg s.store j = lookup cfg d.settings.store j) :
    InSync cfg ⟨s, d.credentials⟩ := by
  refine ⟨hs, fun hl => ?_⟩
  obtain ⟨f, hstore, hcredentials⟩ := h.held hl
  exact ⟨f, fun k hk => (hsame k hk).trans (hstore k hk), hcredentials⟩

theorem steady_query (h : InSync cfg d) {call : Call} (hcall : call.isQuery = true) :
    Steady cfg d (d.next cfg build call) := by
  rcases call with ⟨setter, faults⟩ | ⟨faults⟩ | ⟨active⟩ | ⟨key, size, faults⟩ | ⟨key, v, faults⟩ |
    ⟨faults⟩ | _
  · cases hcall
  · have hload := ensureLoaded_spec h faults
    exact ⟨hload.held, hload.same⟩
  · exact ⟨h.setJoinActive active, fun _ => rfl⟩
  · show Steady cfg d ⟨(settingRead cfg d.settings key size faults).2, d.credentials⟩
    rcases hk : findSetting key with _ | k
    · rw [settingRead_unknown hk]
      exact ⟨h, fun _ => rfl⟩
    · have hread := settingRead_keeps h.coherent hk size faults
      exact ⟨h.of_settings hread.coherent fun j _ => hread.same j, hread.same⟩
  · cases hcall
  · cases hcall
  · exact ⟨inSync_boot cfg d.settings.store, fun _ => rfl⟩

end InSync

end Rzi.Lorawan
