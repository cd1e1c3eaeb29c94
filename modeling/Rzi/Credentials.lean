import Rzi.Settings
import Rzi.ZephyrBackend

/-!
# Credentials and join policy (`src/lorawan/api/lorawan_credentials.c`)

The credential store, its setters and what a join reads of it. Each function below is the section a
call holds `credential_lock` for, with the argument checks before it; what the settings layer
answers inside the section is the argument `a`. Calls are made from threads, so the interrupt check
passes.
-/

namespace Rzi.Lorawan
open Settings LittleEndian Zephyr

/-- `enum rzi_lorawan_activation`. -/
inductive Mode where
  | otaa | abp
deriving DecidableEq, Repr

/-- `struct credential_store`. -/
structure CredentialStore where
  devEui : Vector UInt8 8
  devEuiSet : Bool
  appEui : Vector UInt8 8
  appEuiSet : Bool
  appKey : Vector UInt8 16
  appKeySet : Bool
  genAppKey : Vector UInt8 16
  genAppKeySet : Bool
  devAddr : UInt32
  devAddrSet : Bool
  nwkSkey : Vector UInt8 16
  nwkSkeySet : Bool
  appSkey : Vector UInt8 16
  appSkeySet : Bool
  njm : Mode
  autoJoin : Bool
  joinInterval : UInt8
  joinAttempts : UInt8
  channelMask : Vector UInt16 6
  channelMaskSet : Bool
  joinActive : Bool
  loaded : Bool
deriving DecidableEq

/-- The store in the image, and after `rzi_lorawan_credentials_clear_settings`. -/
def CredentialStore.empty : CredentialStore where
  devEui := .replicate 8 0
  devEuiSet := false
  appEui := .replicate 8 0
  appEuiSet := false
  appKey := .replicate 16 0
  appKeySet := false
  genAppKey := .replicate 16 0
  genAppKeySet := false
  devAddr := 0
  devAddrSet := false
  nwkSkey := .replicate 16 0
  nwkSkeySet := false
  appSkey := .replicate 16 0
  appSkeySet := false
  njm := .otaa
  autoJoin := false
  joinInterval := 0
  joinAttempts := 0
  channelMask := .replicate 6 0
  channelMaskSet := false
  joinActive := false
  loaded := false

/-- What the settings layer answers to a read and to a write. -/
structure Answers where
  read : Key → Except Err (Bytes × Bool)
  write : Key → Bytes → Except Err Unit

/-- The parts of the build and of the start that the credentials depend on. -/
structure Build where
  capOtaa : Bool
  capAbp : Bool
  capChannel : Bool
  region : Zephyr.Region

/-- A byte array filled from a stored value. -/
def fill (n : Nat) (value : Bytes) : Vector UInt8 n := Vector.ofFn fun i => value.getD i 0

def fillMask (value : Bytes) : Vector UInt16 6 :=
  Vector.ofFn fun i => UInt16.ofNat (getLe ((value.drop (2 * i)).take 2))

def maskBytes (mask : Vector UInt16 6) : Bytes :=
  mask.toList.flatMap fun word => putLe 2 word.toNat

def channelEnabled (mask : Vector UInt16 6) (channel : Nat) : Bool :=
  (mask.toList.getD (channel / 16) 0).toNat.testBit (channel % 16)

/-- `channel_mask_valid`: some channel is enabled, and none beyond the fixed plan. -/
def channelMaskValid (mask : Vector UInt16 6) : Bool :=
  ((List.range 96).all fun channel => !(channelEnabled mask channel && 72 ≤ channel)) &&
    (List.range 96).any fun channel => channelEnabled mask channel

/-- The reads of `ensure_loaded_locked`, up to the first that fails. -/
def loadCandidate (a : Answers) : Except Err CredentialStore := do
  let devEui ← a.read .deveui
  let appEui ← a.read .joineui
  let appKey ← a.read .appkey
  let genAppKey ← a.read .genappkey
  let devAddr ← a.read .devaddr
  let nwkSkey ← a.read .nwkskey
  let appSkey ← a.read .appskey
  let njm ← a.read .njm
  let policy ← a.read .joinPolicy
  let chmask ← a.read .chmask
  return {
    devEui := fill 8 devEui.1
    devEuiSet := devEui.2
    appEui := fill 8 appEui.1
    appEuiSet := appEui.2
    appKey := fill 16 appKey.1
    appKeySet := appKey.2
    genAppKey := fill 16 genAppKey.1
    genAppKeySet := genAppKey.2
    devAddr := UInt32.ofNat (getLe (devAddr.1.take 4))
    devAddrSet := devAddr.2
    nwkSkey := fill 16 nwkSkey.1
    nwkSkeySet := nwkSkey.2
    appSkey := fill 16 appSkey.1
    appSkeySet := appSkey.2
    njm := if njm.1.getD 0 0 = 0 then .abp else .otaa
    autoJoin := policy.1.getD 0 0 ≠ 0
    joinInterval := policy.1.getD 1 0
    joinAttempts := policy.1.getD 2 0
    channelMask := fillMask chmask.1
    channelMaskSet := chmask.2 && channelMaskValid (fillMask chmask.1)
    joinActive := false
    loaded := false }

def ensureLoadedLocked (a : Answers) (c : CredentialStore) : Except Err Unit × CredentialStore :=
  if c.loaded then (.ok (), c)
  else
    match loadCandidate a with
    | .error e => (.error e, c)
    | .ok candidate => (.ok (), { candidate with loaded := true, joinActive := c.joinActive })

/-- A section that loads the store and then reads it. -/
def readLocked {α : Type*} (f : CredentialStore → α) (a : Answers) (c : CredentialStore) :
    Except Err α × CredentialStore :=
  match ensureLoadedLocked a c with
  | (.error e, c) => (.error e, c)
  | (.ok (), c) => (.ok (f c), c)

/-- A section that loads the store, writes a setting and then the store. -/
def writeLocked (key : Key) (value : CredentialStore → Bytes)
    (f : CredentialStore → CredentialStore) (a : Answers) (c : CredentialStore) :
    Except Err Unit × CredentialStore :=
  match ensureLoadedLocked a c with
  | (.error e, c) => (.error e, c)
  | (.ok (), c) =>
    match a.write key (value c) with
    | .error e => (.error e, c)
    | .ok () => (.ok (), f c)

/-- The same, refused while a join is active. -/
def setLocked (key : Key) (value : Bytes) (f : CredentialStore → CredentialStore)
    (a : Answers) (c : CredentialStore) : Except Err Unit × CredentialStore :=
  match ensureLoadedLocked a c with
  | (.error e, c) => (.error e, c)
  | (.ok (), c) =>
    if c.joinActive then (.error .busy, c)
    else
      match a.write key value with
      | .error e => (.error e, c)
      | .ok () => (.ok (), f c)

/-! ### Setters -/

/-- `set_bytes`; `src` is `none` for a NULL pointer. -/
def setBytes (key : Key) (store : Bytes → CredentialStore → CredentialStore)
    (src : Option Bytes) (a : Answers) (c : CredentialStore) :
    Except Err Unit × CredentialStore :=
  match src with
  | none => (.error .invalid, c)
  | some value =>
    if value.length ≠ key.size then (.error .invalid, c) else setLocked key value (store value) a c

def setDevEui : Option Bytes → Answers → CredentialStore → Except Err Unit × CredentialStore :=
  setBytes .deveui fun v c => { c with devEui := fill 8 v, devEuiSet := true }

def setAppEui : Option Bytes → Answers → CredentialStore → Except Err Unit × CredentialStore :=
  setBytes .joineui fun v c => { c with appEui := fill 8 v, appEuiSet := true }

def setAppKey : Option Bytes → Answers → CredentialStore → Except Err Unit × CredentialStore :=
  setBytes .appkey fun v c => { c with appKey := fill 16 v, appKeySet := true }

def setGenAppKey :
    Option Bytes → Answers → CredentialStore → Except Err Unit × CredentialStore :=
  setBytes .genappkey fun v c => { c with genAppKey := fill 16 v, genAppKeySet := true }

def setNwkSkey :
    Option Bytes → Answers → CredentialStore → Except Err Unit × CredentialStore :=
  setBytes .nwkskey fun v c => { c with nwkSkey := fill 16 v, nwkSkeySet := true }

def setAppSkey :
    Option Bytes → Answers → CredentialStore → Except Err Unit × CredentialStore :=
  setBytes .appskey fun v c => { c with appSkey := fill 16 v, appSkeySet := true }

def setDevAddr (devAddr : UInt32) : Answers → CredentialStore → Except Err Unit × CredentialStore :=
  setLocked .devaddr (putLe 4 devAddr.toNat) fun c => { c with devAddr := devAddr, devAddrSet := true }

def activationSupported (build : Build) : Mode → Bool
  | .otaa => build.capOtaa
  | .abp => build.capAbp

def njmWire : Mode → UInt8
  | .abp => 0
  | .otaa => 1

def setActivation (build : Build) (mode : Mode) (a : Answers) (c : CredentialStore) :
    Except Err Unit × CredentialStore :=
  if !activationSupported build mode then (.error .notSupported, c)
  else setLocked .njm [njmWire mode] (fun c => { c with njm := mode }) a c

/-- `rzi_lorawan_credentials_set_channel_mask`; `none` restores the default. -/
def setChannelMask (mask : Option (Vector UInt16 6)) (a : Answers) (c : CredentialStore) :
    Except Err Unit × CredentialStore :=
  if mask.any (!channelMaskValid ·) then (.error .invalid, c)
  else
    setLocked .chmask (maskBytes (mask.getD (.replicate 6 0)))
      (fun c => { c with channelMask := mask.getD (.replicate 6 0), channelMaskSet := mask.isSome }) a c

def joinKeep : Int := -1

/-- `auto_join`, `interval` and `attempts` of `rzi_lorawan_join`. -/
structure Policy where
  autoJoin : Int
  interval : Int
  attempts : Int
deriving DecidableEq, Repr

def Policy.valid (p : Policy) : Bool :=
  (p.autoJoin == joinKeep || p.autoJoin == 0 || p.autoJoin == 1) &&
    (p.interval == joinKeep || (7 ≤ p.interval && p.interval ≤ 255)) &&
    (p.attempts == joinKeep || (0 ≤ p.attempts && p.attempts ≤ 255))

/-- A byte of the policy: the argument, or what is stored. -/
def Policy.byte (arg : Int) (stored : UInt8) : UInt8 :=
  if arg = joinKeep then stored else UInt8.ofNat arg.toNat

def Policy.bytes (p : Policy) (c : CredentialStore) : Bytes :=
  [byte p.autoJoin (if c.autoJoin then 1 else 0), byte p.interval c.joinInterval,
    byte p.attempts c.joinAttempts]

def updatePolicy (p : Policy) (a : Answers) (c : CredentialStore) :
    Except Err Unit × CredentialStore :=
  if !p.valid then (.error .invalid, c)
  else
    writeLocked .joinPolicy p.bytes
      (fun c => { c with
        autoJoin := Policy.byte p.autoJoin (if c.autoJoin then 1 else 0) ≠ 0
        joinInterval := Policy.byte p.interval c.joinInterval
        joinAttempts := Policy.byte p.attempts c.joinAttempts }) a c

/-- The calls that change the stored credentials, the activation, the mask or the policy. -/
inductive Setter where
  | devEui (src : Option Bytes)
  | appEui (src : Option Bytes)
  | appKey (src : Option Bytes)
  | genAppKey (src : Option Bytes)
  | nwkSkey (src : Option Bytes)
  | appSkey (src : Option Bytes)
  | devAddr (value : UInt32)
  | activation (mode : Mode)
  | channelMask (mask : Option (Vector UInt16 6))
  | policy (p : Policy)

def Setter.call (build : Build) : Setter → Answers → CredentialStore → Except Err Unit × CredentialStore
  | .devEui src => setDevEui src
  | .appEui src => setAppEui src
  | .appKey src => setAppKey src
  | .genAppKey src => setGenAppKey src
  | .nwkSkey src => setNwkSkey src
  | .appSkey src => setAppSkey src
  | .devAddr value => setDevAddr value
  | .activation mode => setActivation build mode
  | .channelMask mask => setChannelMask mask
  | .policy p => updatePolicy p

/-! ### What a join reads -/

def getActivation : Answers → CredentialStore → Except Err Mode × CredentialStore :=
  readLocked (·.njm)

def getJoinAttempts : Answers → CredentialStore → Except Err UInt8 × CredentialStore :=
  readLocked (·.joinAttempts)

/-- The configuration that a loaded store stands for. -/
def CredentialStore.joinConfig (build : Build) (c : CredentialStore) : JoinConfig where
  activation :=
    match c.njm with
    | .abp => .abp ⟨c.devAddr, c.nwkSkey, c.appSkey⟩
    | .otaa => .otaa ⟨c.devEui, c.appEui, c.appKey, if c.genAppKeySet then c.genAppKey else c.appKey, 0⟩
  retryIntervalS := c.joinInterval
  channelMask :=
    if c.channelMaskSet && build.region.hasFixedPlan && build.capChannel then some c.channelMask
    else none

def buildConfig (build : Build) : Answers → CredentialStore → Except Err JoinConfig × CredentialStore :=
  readLocked (·.joinConfig build)

def setJoinActive (active : Bool) (c : CredentialStore) : CredentialStore :=
  { c with joinActive := active }

/-- `rzi_lorawan_credentials_clear_settings`, with the answer of `rzi_lorawan_settings_clear`. -/
def clearSettings (rc : Except Err Unit) (c : CredentialStore) : Except Err Unit × CredentialStore :=
  if c.joinActive then (.error .busy, c)
  else
    match rc with
    | .error e => (.error e, c)
    | .ok () => (.ok (), .empty)

/-! ### What the sections do -/

variable {a : Answers} {c : CredentialStore} {build : Build}

theorem ensureLoadedLocked_of_loaded (h : c.loaded = true) : ensureLoadedLocked a c = (.ok (), c) := by
  rw [ensureLoadedLocked, if_pos h]

/-- Either the store is loaded afterwards, or it is as it was. -/
theorem ensureLoadedLocked_cases (a : Answers) (c : CredentialStore) :
    ((ensureLoadedLocked a c).1 = .ok () ∧ (ensureLoadedLocked a c).2.loaded = true) ∨
      (∃ e, loadCandidate a = .error e ∧ ensureLoadedLocked a c = (.error e, c)) := by
  cases hl : c.loaded with
  | true =>
    rw [ensureLoadedLocked_of_loaded hl]
    exact .inl ⟨rfl, hl⟩
  | false =>
    unfold ensureLoadedLocked
    rw [if_neg (by simp [hl])]
    split
    · rename_i e he
      exact .inr ⟨e, he, rfl⟩
    · exact .inl ⟨rfl, rfl⟩

theorem ensureLoadedLocked_joinActive (a : Answers) (c : CredentialStore) :
    (ensureLoadedLocked a c).2.joinActive = c.joinActive := by
  unfold ensureLoadedLocked
  split
  · rfl
  · split <;> rfl

theorem readLocked_eq {α : Type*} (f : CredentialStore → α) (a : Answers) (c : CredentialStore) :
    readLocked f a c = ((ensureLoadedLocked a c).1.map fun _ => f (ensureLoadedLocked a c).2,
      (ensureLoadedLocked a c).2) := by
  unfold readLocked
  split <;> rename_i h <;> rw [h] <;> rfl

theorem readLocked_joinActive {α : Type*} (f : CredentialStore → α) (a : Answers)
    (c : CredentialStore) : (readLocked f a c).2.joinActive = c.joinActive := by
  rw [readLocked_eq]
  exact ensureLoadedLocked_joinActive a c

/-- An update of the stored values: the flags stay. -/
structure KeepsFlags (f : CredentialStore → CredentialStore) : Prop where
  joinActive : ∀ c, (f c).joinActive = c.joinActive
  loaded : ∀ c, (f c).loaded = c.loaded

/-- What a setter can do: nothing, load the store, or load it and update a value. -/
inductive Written (a : Answers) (c : CredentialStore) : CredentialStore → Prop
  | refused : Written a c c
  | loaded : Written a c (ensureLoadedLocked a c).2
  | updated (f : CredentialStore → CredentialStore) (hf : KeepsFlags f) :
      Written a c (f (ensureLoadedLocked a c).2)

theorem writeLocked_written (key : Key) (value : CredentialStore → Bytes)
    {f : CredentialStore → CredentialStore} (hf : KeepsFlags f) (a : Answers) (c : CredentialStore) :
    Written a c (writeLocked key value f a c).2 := by
  have hload : Written a c (ensureLoadedLocked a c).2 := .loaded
  have hupdate : Written a c (f (ensureLoadedLocked a c).2) := .updated f hf
  unfold writeLocked
  split <;> rename_i h <;> rw [h] at hload hupdate
  · exact hload
  · split
    · exact hload
    · exact hupdate

theorem setLocked_written (key : Key) (value : Bytes)
    {f : CredentialStore → CredentialStore} (hf : KeepsFlags f) (a : Answers) (c : CredentialStore) :
    Written a c (setLocked key value f a c).2 := by
  have hload : Written a c (ensureLoadedLocked a c).2 := .loaded
  have hupdate : Written a c (f (ensureLoadedLocked a c).2) := .updated f hf
  unfold setLocked
  split <;> rename_i h <;> rw [h] at hload hupdate
  · exact hload
  · split
    · exact hload
    · split
      · exact hload
      · exact hupdate

theorem updatePolicy_written (p : Policy) (a : Answers) (c : CredentialStore) :
    Written a c (updatePolicy p a c).2 := by
  unfold updatePolicy
  split
  · exact .refused
  · exact writeLocked_written _ _ ⟨by intro c; rfl, by intro c; rfl⟩ a c

theorem setBytes_written {key : Key} {store : Bytes → CredentialStore → CredentialStore}
    (hstore : ∀ v, KeepsFlags (store v)) (src : Option Bytes) (a : Answers)
    (c : CredentialStore) : Written a c (setBytes key store src a c).2 := by
  unfold setBytes
  split
  · exact .refused
  · split
    · exact .refused
    · exact setLocked_written _ _ (hstore _) a c

theorem Setter.call_written (setter : Setter) (a : Answers) (c : CredentialStore) :
    Written a c (setter.call build a c).2 := by
  cases setter with
  | devEui src | appEui src | appKey src | genAppKey src | nwkSkey src | appSkey src =>
    exact setBytes_written (by intro v; exact ⟨by intro c; rfl, by intro c; rfl⟩) src a c
  | devAddr value =>
    simp only [Setter.call, setDevAddr]
    exact setLocked_written _ _ ⟨by intro c; rfl, by intro c; rfl⟩ a c
  | activation mode =>
    simp only [Setter.call, setActivation]
    split
    · exact .refused
    · exact setLocked_written _ _ ⟨by intro c; rfl, by intro c; rfl⟩ a c
  | channelMask mask =>
    simp only [Setter.call, setChannelMask]
    split
    · exact .refused
    · exact setLocked_written _ _ ⟨by intro c; rfl, by intro c; rfl⟩ a c
  | policy p => exact updatePolicy_written p a c

theorem Written.joinActive {c' : CredentialStore} (h : Written a c c') :
    c'.joinActive = c.joinActive := by
  cases h with
  | refused => rfl
  | loaded => exact ensureLoadedLocked_joinActive a c
  | updated f hf => exact (hf.joinActive _).trans (ensureLoadedLocked_joinActive a c)

theorem Written.loaded_of_loaded {c' : CredentialStore} (h : Written a c c') (hc : c.loaded = true) :
    c'.loaded = true := by
  have hload : (ensureLoadedLocked a c).2.loaded = true := by
    rw [ensureLoadedLocked_of_loaded hc]
    exact hc
  cases h with
  | refused => exact hc
  | loaded => exact hload
  | updated f hf => exact (hf.loaded _).trans hload

theorem updatePolicy_joinActive (p : Policy) (a : Answers) (c : CredentialStore) :
    (updatePolicy p a c).2.joinActive = c.joinActive := (updatePolicy_written p a c).joinActive

/-- No setter touches the join flag. -/
theorem Setter.call_joinActive (setter : Setter) (a : Answers) (c : CredentialStore) :
    (setter.call build a c).2.joinActive = c.joinActive := (setter.call_written a c).joinActive

end Rzi.Lorawan
