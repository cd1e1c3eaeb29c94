import Rzi.LorawanService
import Rzi.UspBackend
import Rzi.CredentialSettings
import Rzi.Lib.Run

/-!
# The channel mask (`lorawan_channel.c`, `apply_channel_mask`, `configure_channel_mask`)

The core owns one mask. `rzi_lorawan_get_channel_mask` reports it, and a join hands it to the backend,
which gives it to its stack in its own encoding. `reported_at_join` says, over every history of the
service with either backend, that the channels the stack is given at an accepted join are the channels
that are reported. `SMTC_MODEM_CHANNEL_MASK_MAX_LENGTH` is 12.
-/

namespace Rzi.Lorawan.Channel
open Lts
open Zephyr (JoinConfig Region fixedPlanMask joinMask)

/-! ### Masks and the channels they enable -/

/-- What a stack is given: the words of `rzi_lorawan_zephyr_mib_set_channels`, or the bytes of
`smtc_modem_set_channel_mask`, or its NULL. -/
inductive MaskArg where
  | words (mask : List UInt16)
  | bytes (mask : List UInt8)
  | null
deriving DecidableEq, Repr

/-- RZI_LORAWAN_FIXED_PLAN_CHANNELS, and the other numbers of the plan. -/
def fixedPlanChannels : Nat := 72

def fixedPlanWords : Nat := 5

def wordEnabled (mask : List UInt16) (channel : Nat) : Bool :=
  (mask.getD (channel / 16) 0).toNat.testBit (channel % 16)

def byteEnabled (mask : List UInt8) (channel : Nat) : Bool :=
  (mask.getD (channel / 8) 0).toNat.testBit (channel % 8)

/-- Whether the stack may use a channel. -/
def MaskArg.enabled : MaskArg → Nat → Bool
  | .words mask, channel => wordEnabled mask channel
  | .bytes mask, channel => byteEnabled mask channel
  | .null, channel => channel < fixedPlanChannels

/-! ### The public calls -/

def putChannel (mask : Vector UInt16 6) (channel : Nat) : Vector UInt16 6 :=
  mask.setIfInBounds (channel / 16)
    (mask.toList.getD (channel / 16) 0 ||| 1 <<< UInt16.ofNat (channel % 16))

def allChannels : Vector UInt16 6 := (List.range fixedPlanChannels).foldl putChannel (.replicate 6 0)

/-- `channel_plan`, on the region in use. -/
def channelPlan (build : Build) : Except Err Unit :=
  if !build.capChannel then .error .notSupported
  else if build.region = .us915 ∨ build.region = .au915 then .ok ()
  else .error .notSupported

/-- `read_mask`. -/
def readMask : Answers → CredentialStore → Except Err (Vector UInt16 6) × CredentialStore :=
  readLocked fun c => if c.channelMaskSet then c.channelMask else allChannels

/-- `rzi_lorawan_get_channel_mask` with the array of `words` words. -/
def getChannelMask (build : Build) (a : Answers) (words : Nat) (c : CredentialStore) :
    Except Err (List UInt16) × CredentialStore :=
  if words = 0 then (.error .invalid, c)
  else
    match channelPlan build with
    | .error e => (.error e, c)
    | .ok () =>
      if words < fixedPlanWords then (.error .invalid, c)
      else
        match readMask a c with
        | (.error e, c) => (.error e, c)
        | (.ok current, c) => (.ok ((List.range words).map fun word => current.toList.getD word 0), c)

def storeMask (mask : Vector UInt16 6) : Answers → CredentialStore → Except Err Unit × CredentialStore :=
  Lorawan.setChannelMask (if mask = allChannels then none else some mask)

/-- The mask of an array of words, with the words it does not have 0. -/
def ofWords (words : List UInt16) : Vector UInt16 6 := Vector.ofFn fun word => words.getD word 0

/-- `rzi_lorawan_set_channel_mask`. -/
def setChannelMask (build : Build) (words : List UInt16) (a : Answers) (c : CredentialStore) :
    Except Err Unit × CredentialStore :=
  if words = [] ∨ 6 < words.length then (.error .invalid, c)
  else
    match channelPlan build with
    | .error e => (.error e, c)
    | .ok () =>
      if words.length < fixedPlanWords then (.error .invalid, c) else storeMask (ofWords words) a c

/-! ### What a backend hands to its stack -/

/-- A call of the modem with its request noted. -/
def ask (modem : Usp.Modem) (r : Usp.Request) : Except Err Unit × List Usp.Request :=
  (modem.request r, [r])

/-- One call after another, until one fails. -/
def andThen (x y : Except Err Unit × List Usp.Request) : Except Err Unit × List Usp.Request :=
  match x.1 with
  | .error e => (.error e, x.2)
  | .ok () => (y.1, x.2 ++ y.2)

/-- `configure_credentials` with its requests. -/
def uspCredentials (modem : Usp.Modem) (settings : Usp.JoinSettings) :
    Except Err Unit × List Usp.Request :=
  andThen (ask modem (.setDeveui settings.otaa.devEui)) <|
  andThen (ask modem (.setJoineui settings.otaa.joinEui)) <|
  andThen (ask modem (.setAppkey settings.otaa.applicationKey)) <|
  ask modem (.setNwkkey settings.otaa.networkKey)

/-- `configure_channel_mask` with its request. -/
def uspChannelMask (modem : Usp.Modem) (region : Region) (settings : Usp.JoinSettings) :
    Except Err Unit × List Usp.Request :=
  if region ≠ .us915 ∧ region ≠ .au915 then (.ok (), [])
  else
    match settings.channelMask with
    | none => ask modem (.setChannelMask [])
    | some mask =>
      let r := Usp.Request.setChannelMask (Usp.maskBytes mask)
      (if modem.answer r = .fail then .error .notSupported else modem.request r, [r])

/-- The locked part of `usp_join` with its requests. -/
def uspJoinRequests (modem : Usp.Modem) (region : Region) (settings : Usp.JoinSettings) :
    Except Err Unit × List Usp.Request :=
  andThen (uspCredentials modem settings) <|
  andThen (uspChannelMask modem region settings) <|
  ask modem .joinNetwork

/-- The mask a request gives to the modem; a length of 0 comes with NULL. -/
def maskOfRequest : Usp.Request → Option MaskArg
  | .setChannelMask mask => some (if mask = [] then .null else .bytes mask)
  | _ => none

/-- A backend as the service sees it. `join` gives, with its result, the masks it hands to its stack. -/
structure Backend where
  State : Type
  /-- what the stack answers during a call -/
  Input : Type
  region : State → Region
  start : Input → Region → State → Except Err Unit × State
  join : Input → JoinConfig → State → Except Err Unit × State × List MaskArg

def uspBackend : Backend where
  State := Usp.State
  Input := Usp.Modem × Bool
  region := Usp.State.region
  start input region s := ((Usp.uspStart region input.2 s).rc, (Usp.uspStart region input.2 s).state)
  join input config s :=
    let outcome := Usp.uspJoin input.1 config s
    match config.activation with
    | .abp _ => (outcome.rc, outcome.state, [])
    | .otaa params =>
      if s.ready then
        (outcome.rc, outcome.state,
          (uspJoinRequests input.1 s.region ⟨params, config.channelMask⟩).2.filterMap maskOfRequest)
      else (outcome.rc, outcome.state, [])

/-- What the Zephyr stack answers: to a start, and to a mask. -/
structure ZephyrInput where
  deviceReady : Bool
  regionRc : Option Errno
  startRc : Option Errno
  rejects : Bool
  mib : List UInt16 → Option Errno

def zephyrBackend : Backend where
  State := Zephyr.State
  Input := ZephyrInput
  region := Zephyr.State.currentRegion
  start input region s := Zephyr.zephyrStart region input.deviceReady input.regionRc input.startRc s
  join input config s :=
    let result := Zephyr.zephyrJoin input.rejects input.mib config s
    (result.1, result.2,
      if !s.started || s.joinPending || s.txPending then []
      else (joinMask config s.currentRegion).toList.map .words)

/-! ### The service with a backend -/

/-- A call of `backend.join`: the region, the masks the stack was given, and what
`rzi_lorawan_get_channel_mask` reports afterwards. -/
structure JoinRecord where
  accepted : Bool
  region : Region
  masks : List MaskArg
  reported : Except Err (List UInt16)

structure Sys (b : Backend) where
  service : Service
  configuredRegion : Region
  backend : b.State
  joins : List JoinRecord

inductive Act (b : Backend) where
  | init (region : Region) (setRegion : Except Err Unit) (input : b.Input)
  /-- a region set or loaded while the service is stopped -/
  | region (region : Region)
  | join (start : Int) (policy : Policy) (env : Env) (input : b.Input)
  /-- another call or event of the service -/
  | service (act : Lorawan.Act)
  /-- whatever else happens in the backend, whose region only a start writes -/
  | backend (s : b.State)

/-- The configuration that a call of `rzi_lorawan_join` hands to the backend. -/
def handedOver (build : Build) (start : Int) (policy : Policy) (a : Answers) (s : Service) :
    Option JoinConfig :=
  if start ≠ 1 ∨ s.joinSequenceActive = true ∨ s.started = false then none
  else
    match updatePolicy policy a s.credentials with
    | (.error _, _) => none
    | (.ok (), c) =>
      match prepareJoin build a c with
      | (.error _, _) => none
      | (.ok (config, _), _) => some config

section System
variable {b : Backend}

/-- The build with the region in use. -/
def Sys.build (build : Build) (s : Sys b) : Build := { build with region := s.configuredRegion }

def initCall (region : Region) (setRegion : Except Err Unit) (input : b.Input) (s : Sys b) : Sys b :=
  if s.service.started = true ∨ setRegion ≠ .ok () then
    { s with service := (lorawanInit setRegion (.ok ()) s.service).2 }
  else
    let r := b.start input region s.backend
    { s with
      service := (lorawanInit (.ok ()) r.1 s.service).2
      configuredRegion := region
      backend := r.2 }

def joinCall (build : Build) (start : Int) (policy : Policy) (env : Env) (input : b.Input)
    (s : Sys b) : Sys b :=
  match handedOver (s.build build) start policy env.settings s.service with
  | none => { s with service := (lorawanJoin (s.build build) start policy env s.service).2 }
  | some config =>
    let r := b.join input config s.backend
    let service := (lorawanJoin (s.build build) start policy { env with join := r.1 } s.service).2
    { s with
      service := service
      backend := r.2.1
      joins := s.joins ++ [⟨r.1.isOk, s.configuredRegion, r.2.2,
        (getChannelMask (s.build build) env.settings 6 service.credentials).1⟩] }

/-- One call, one at a time, or one event. -/
def step (build : Build) (s : Sys b) : Act b → Option (Sys b)
  | .init region setRegion input => some (initCall region setRegion input s)
  | .region region => if s.service.started then none else some { s with configuredRegion := region }
  | .join start policy env input => some (joinCall build start policy env input s)
  | .service (.init _ _) | .service (.join _ _ _) => none
  | .service act => (Lorawan.step build s.service act).map fun service => { s with service := service }
  | .backend t =>
    if b.region t = b.region s.backend then some { s with backend := t } else none

/-- The image, with the static variables of the backend. -/
def Sys.boot (backend : b.State) : Sys b := ⟨.init, .eu868, backend, []⟩

end System

/-- The backends of the repository. -/
inductive Kind where
  | usp | zephyr
deriving DecidableEq, Repr

def Kind.backend : Kind → Backend
  | .usp => uspBackend
  | .zephyr => zephyrBackend

/-- In a region with a fixed plan an accepted join has given the stack the channels that are reported,
once; no channel beyond the plan is ever given, and no mask at all in another region. -/
structure Truthful (r : JoinRecord) : Prop where
  accepted : r.accepted = true → r.region.hasFixedPlan = true →
    ∃ arg words, r.masks = [arg] ∧ r.reported = .ok words ∧
      ∀ channel, arg.enabled channel = wordEnabled words channel
  below : ∀ arg ∈ r.masks, ∀ channel, arg.enabled channel = true → channel < fixedPlanChannels
  other : r.region.hasFixedPlan = false → r.masks = []

/-! ### The encodings -/

theorem toUInt8_testBit (word : UInt16) {i : Nat} (hi : i < 8) :
    word.toUInt8.toNat.testBit i = word.toNat.testBit i := by
  have hlow : word.toUInt8.toNat = word.toNat % 2 ^ 8 := rfl
  rw [hlow, Nat.testBit_mod_two_pow]
  simp [hi]

theorem shiftRight_toUInt8_testBit (word : UInt16) {i : Nat} (hi : i < 8) :
    (word >>> 8).toUInt8.toNat.testBit i = word.toNat.testBit (8 + i) := by
  rw [toUInt8_testBit _ hi, UInt16.toNat_shiftRight]
  show (word.toNat >>> (8 % 16)).testBit i = _
  rw [Nat.testBit_shiftRight]

/-- Each word low byte first: bit by bit the same channels. -/
theorem byteEnabled_flatMap (words : List UInt16) (channel : Nat) :
    byteEnabled (words.flatMap fun (word : UInt16) => [word.toUInt8, (word >>> 8).toUInt8]) channel =
      wordEnabled words channel := by
  induction words generalizing channel with
  | nil => simp [byteEnabled, wordEnabled]
  | cons word words ih =>
    unfold byteEnabled wordEnabled
    rw [List.flatMap_cons]
    rcases Nat.lt_or_ge channel 8 with hlow | hlow
    · have h8 : channel / 8 = 0 := by omega
      have h16 : channel / 16 = 0 := by omega
      rw [h8, h16, show channel % 8 = channel by omega, show channel % 16 = channel by omega]
      exact toUInt8_testBit word hlow
    rcases Nat.lt_or_ge channel 16 with hhigh | hhigh
    · have h8 : channel / 8 = 1 := by omega
      have h16 : channel / 16 = 0 := by omega
      rw [h8, h16, show channel % 16 = 8 + channel % 8 by omega]
      exact shiftRight_toUInt8_testBit word (Nat.mod_lt _ (by decide))
    · have hrest := ih (channel - 16)
      unfold byteEnabled wordEnabled at hrest
      have h8 : channel / 8 = (channel - 16) / 8 + 2 := by omega
      have h16 : channel / 16 = (channel - 16) / 16 + 1 := by omega
      rw [h8, h16, show channel % 8 = (channel - 16) % 8 by omega,
        show channel % 16 = (channel - 16) % 16 by omega]
      exact hrest

theorem maskBytes_enabled (mask : Vector UInt16 6) (channel : Nat) :
    byteEnabled (Usp.maskBytes mask) channel = channelEnabled mask channel :=
  byteEnabled_flatMap mask.toList channel

theorem wordEnabled_of_length_le {mask : List UInt16} {channel : Nat} (h : mask.length ≤ channel / 16) :
    wordEnabled mask channel = false := by
  have hword : mask.getD (channel / 16) 0 = 0 := by simp [List.getD_eq_getElem?_getD, h]
  rw [wordEnabled, hword]
  exact Nat.zero_testBit _

/-- Setting the bit of a channel. -/
theorem wordEnabled_modify {mask : List UInt16} {channel : Nat} (h : channel / 16 < mask.length)
    (i : Nat) :
    wordEnabled (mask.modify (channel / 16) (· ||| 1 <<< UInt16.ofNat (channel % 16))) i =
      (wordEnabled mask i || decide (i = channel)) := by
  have hbit : (1 <<< UInt16.ofNat (channel % 16) : UInt16).toNat = 2 ^ (channel % 16) := by
    have hlt : channel % 16 < 16 := Nat.mod_lt _ (by decide)
    have hall : ∀ k, k < 16 → (1 <<< UInt16.ofNat k : UInt16).toNat = 2 ^ k := by decide
    exact hall _ hlt
  unfold wordEnabled
  rw [List.getD_eq_getElem?_getD, List.getD_eq_getElem?_getD, List.getElem?_modify]
  by_cases hword : channel / 16 = i / 16
  · simp only [if_pos hword]
    rw [← hword, List.getElem?_eq_getElem h]
    show (mask[channel / 16] ||| 1 <<< UInt16.ofNat (channel % 16)).toNat.testBit (i % 16) =
      (mask[channel / 16].toNat.testBit (i % 16) || decide (i = channel))
    rw [UInt16.toNat_or, Nat.testBit_or, hbit, Nat.testBit_two_pow]
    have hsame : channel % 16 = i % 16 ↔ i = channel := by omega
    simp only [hsame]
  · have hne : ¬ i = channel := by
      rintro rfl
      exact hword rfl
    simp [if_neg hword, hne]

theorem wordEnabled_foldl (channels : List Nat) (mask : List UInt16)
    (h : ∀ channel ∈ channels, channel / 16 < mask.length) (i : Nat) :
    wordEnabled (channels.foldl (fun mask channel =>
        mask.modify (channel / 16) (· ||| 1 <<< UInt16.ofNat (channel % 16))) mask) i =
      (wordEnabled mask i || decide (i ∈ channels)) := by
  induction channels generalizing mask with
  | nil => simp
  | cons channel channels ih =>
    have hlen := h channel (List.mem_cons_self ..)
    rw [List.foldl_cons, ih _ fun k hk => by simpa using h k (List.mem_cons_of_mem _ hk),
      wordEnabled_modify hlen, Bool.or_assoc]
    simp [List.mem_cons]

theorem fixedPlanMask_enabled (channel : Nat) :
    wordEnabled fixedPlanMask channel = decide (channel < fixedPlanChannels) := by
  have hnone : wordEnabled (List.replicate 6 0) channel = false := by
    have hword : (List.replicate 6 (0 : UInt16)).getD (channel / 16) 0 = 0 := by
      rw [List.getD_eq_getElem?_getD, List.getElem?_replicate]
      split <;> rfl
    rw [wordEnabled, hword]
    exact Nat.zero_testBit _
  unfold fixedPlanMask
  rw [wordEnabled_foldl _ _ (fun k hk => ?_), hnone, Bool.false_or]
  · simp only [List.mem_range]
    rfl
  · rw [List.mem_range] at hk
    rw [List.length_replicate]
    omega

theorem putChannel_toList (mask : Vector UInt16 6) (channel : Nat) :
    (putChannel mask channel).toList =
      mask.toList.modify (channel / 16) (· ||| 1 <<< UInt16.ofNat (channel % 16)) := by
  unfold putChannel
  rw [Vector.toList_setIfInBounds, List.modify_eq_set]
  congr 1

theorem foldl_putChannel_toList (channels : List Nat) (mask : Vector UInt16 6) :
    (channels.foldl putChannel mask).toList =
      channels.foldl (fun mask channel =>
        mask.modify (channel / 16) (· ||| 1 <<< UInt16.ofNat (channel % 16))) mask.toList := by
  induction channels generalizing mask with
  | nil => rfl
  | cons channel channels ih =>
    rw [List.foldl_cons, List.foldl_cons, ih, putChannel_toList]

/-- The core and the Zephyr backend have the same idea of all channels. -/
theorem allChannels_toList : allChannels.toList = fixedPlanMask := foldl_putChannel_toList _ _

/-- A mask that is kept enables no channel beyond the plan. -/
theorem lt_of_channelMaskValid {mask : Vector UInt16 6} {channel : Nat}
    (h : channelMaskValid mask = true) (he : channelEnabled mask channel = true) :
    channel < fixedPlanChannels := by
  rcases Nat.lt_or_ge channel 96 with hlt | hge
  · unfold channelMaskValid at h
    rw [Bool.and_eq_true, List.all_eq_true] at h
    have hmem := h.1 channel (List.mem_range.2 hlt)
    rw [he, Bool.true_and, Bool.not_eq_true', decide_eq_false_iff_not] at hmem
    exact Nat.lt_of_not_le hmem
  · have hoff : channelEnabled mask channel = false :=
      wordEnabled_of_length_le (by rw [Vector.length_toList]; omega)
    rw [he] at hoff
    cases hoff

/-! ### What the store holds -/

/-- A mask that is set passed `channel_mask_valid`. -/
def MaskKept (c : CredentialStore) : Prop :=
  c.channelMaskSet = true → channelMaskValid c.channelMask = true

variable {build : Build} {a : Answers} {c c' : CredentialStore} {s t : Service} {config : JoinConfig}

theorem MaskKept.congr (h : MaskKept c) (hmask : c'.channelMask = c.channelMask)
    (hset : c'.channelMaskSet = c.channelMaskSet) : MaskKept c' := by
  intro hc
  rw [hmask]
  exact h (hset ▸ hc)

theorem loadCandidate_maskKept (h : loadCandidate a = .ok c) : MaskKept c := by
  rw [loadCandidate_eq] at h
  split at h
  · cases h
  · cases h
    intro hset
    exact ((Bool.and_eq_true _ _).mp hset).2

theorem ensureLoaded_maskKept (a : Answers) (h : MaskKept c) : MaskKept (ensureLoadedLocked a c).2 := by
  unfold ensureLoadedLocked
  split
  · exact h
  · split
    · exact h
    · rename_i candidate hload
      exact (loadCandidate_maskKept hload).congr rfl rfl

theorem bytesSection_maskKept {key : Settings.Key}
    {store : List UInt8 → CredentialStore → CredentialStore} {src : Option (List UInt8)} {p : Section}
    (hstore : ∀ v c, MaskKept c → MaskKept (store v c)) (hp : bytesSection key store src = .ok p)
    (h : MaskKept c) : MaskKept (p.update c) := by
  unfold bytesSection at hp
  split at hp
  · cases hp
  · split at hp
    · cases hp
    · cases hp
      exact hstore _ c h

/-- What a setter writes into the store. -/
theorem section_maskKept {setter : Setter} {p : Section} (hp : setter.section build = .ok p)
    (h : MaskKept c) : MaskKept (p.update c) := by
  cases setter with
  | devEui src =>
    simp only [Setter.section] at hp
    refine bytesSection_maskKept ?_ hp h
    exact fun _ _ hc => hc.congr rfl rfl
  | appEui src =>
    simp only [Setter.section] at hp
    refine bytesSection_maskKept ?_ hp h
    exact fun _ _ hc => hc.congr rfl rfl
  | appKey src =>
    simp only [Setter.section] at hp
    refine bytesSection_maskKept ?_ hp h
    exact fun _ _ hc => hc.congr rfl rfl
  | genAppKey src =>
    simp only [Setter.section] at hp
    refine bytesSection_maskKept ?_ hp h
    exact fun _ _ hc => hc.congr rfl rfl
  | nwkSkey src =>
    simp only [Setter.section] at hp
    refine bytesSection_maskKept ?_ hp h
    exact fun _ _ hc => hc.congr rfl rfl
  | appSkey src =>
    simp only [Setter.section] at hp
    refine bytesSection_maskKept ?_ hp h
    exact fun _ _ hc => hc.congr rfl rfl
  | devAddr value =>
    cases hp
    exact h.congr rfl rfl
  | activation mode =>
    simp only [Setter.section] at hp
    split at hp
    · cases hp
    · cases hp
      exact h.congr rfl rfl
  | channelMask mask =>
    simp only [Setter.section] at hp
    split at hp
    · cases hp
    · rename_i hvalid
      cases hp
      intro hset
      cases mask with
      | none => cases hset
      | some m => simpa using hvalid
  | policy policy =>
    simp only [Setter.section] at hp
    split at hp
    · cases hp
    · cases hp
      exact h.congr rfl rfl

theorem setter_maskKept (build : Build) (setter : Setter) (a : Answers) (h : MaskKept c) :
    MaskKept (setter.call build a c).2 := by
  rw [Setter.call_eq]
  split
  · exact h
  rename_i p hp
  have hload := ensureLoaded_maskKept a h
  unfold Section.call
  split <;> rename_i heq <;> rw [heq] at hload
  · exact hload
  · split
    · exact hload
    · split
      · exact hload
      · exact section_maskKept hp hload

theorem updatePolicy_maskKept (p : Policy) (a : Answers) (h : MaskKept c) :
    MaskKept (updatePolicy p a c).2 := 
  setter_maskKept ⟨true, true, true, .eu868⟩ (.policy p) a h

theorem readLocked_maskKept {α : Type} {f : CredentialStore → α} {r : Except Err α}
    (hr : readLocked f a c = (r, c')) (h : MaskKept c) : MaskKept c' := by
  have hload := ensureLoaded_maskKept a h
  rw [readLocked_eq] at hr
  obtain ⟨-, rfl⟩ := Prod.mk.inj hr
  exact hload

theorem prepareJoin_maskKept {r : Except Err (JoinConfig × UInt8)}
    (hr : prepareJoin build a c = (r, c')) (h : MaskKept c) : MaskKept c' := by
  unfold prepareJoin at hr
  split at hr
  · rename_i hmode
    cases hr
    exact readLocked_maskKept hmode h
  rename_i hmode
  have h := readLocked_maskKept hmode h
  split at hr
  · cases hr
    exact h
  split at hr
  · rename_i hattempts
    cases hr
    exact readLocked_maskKept hattempts h
  rename_i hattempts
  have h := readLocked_maskKept hattempts h
  split at hr
  · rename_i hconfig
    cases hr
    exact readLocked_maskKept hconfig h
  · rename_i hconfig
    cases hr
    exact readLocked_maskKept hconfig h

theorem readLocked_loaded {α : Type} {f : CredentialStore → α} {x : α}
    (h : readLocked f a c = (.ok x, c')) : c'.loaded = true := by
  rw [readLocked_eq] at h
  obtain ⟨hrc, rfl⟩ := Prod.mk.inj h
  rcases ensureLoadedLocked_cases a c with ⟨-, hl⟩ | ⟨e, -, he⟩
  · exact hl
  · rw [he] at hrc
    cases hrc

/-- A join reads its configuration from a loaded store. -/
theorem prepareJoin_loaded {attempts : UInt8} (h : prepareJoin build a c = (.ok (config, attempts), c')) :
    c'.loaded = true := by
  unfold prepareJoin at h
  split at h
  · cases h
  split at h
  · cases h
  split at h
  · cases h
  split at h
  · cases h
  · rename_i hconfig
    cases h
    exact readLocked_loaded hconfig

/-! ### What the calls of the service do -/

/-- The parts of the service that decide about the mask, up to the join flag. -/
structure SameStore (s t : Service) : Prop where
  started : t.started = s.started
  mask : t.credentials.channelMask = s.credentials.channelMask
  set : t.credentials.channelMaskSet = s.credentials.channelMaskSet
  loaded : t.credentials.loaded = s.credentials.loaded

theorem SameStore.maskKept (h : SameStore s t) (hs : MaskKept s.credentials) : MaskKept t.credentials :=
  hs.congr h.mask h.set

theorem swallowJoinEvent_same (event : BackendEvent) (s : Service) :
    SameStore s (swallowJoinEvent event s).2 := by
  unfold swallowJoinEvent
  split
  · exact ⟨rfl, rfl, rfl, rfl⟩
  · split
    · exact ⟨rfl, rfl, rfl, rfl⟩
    · split <;> exact ⟨rfl, rfl, rfl, rfl⟩
  · exact ⟨rfl, rfl, rfl, rfl⟩

theorem dispatcher_same (h : dispatcher s = some t) : SameStore s t := by
  unfold dispatcher at h
  split at h
  · cases h
  · rename_i q events hevents
    cases h
    have hswallow := swallowJoinEvent_same q.event { s with events := events }
    unfold dispatch
    split <;> exact ⟨hswallow.started, hswallow.mask, hswallow.set, hswallow.loaded⟩

theorem stopJoin_same (env : Env) (s : Service) : SameStore s (stopJoin env s).2 := by
  unfold stopJoin
  split
  · exact ⟨rfl, rfl, rfl, rfl⟩
  · split
    · exact ⟨rfl, rfl, rfl, rfl⟩
    · exact ⟨rfl, rfl, rfl, rfl⟩
    · split
      · split <;> exact ⟨rfl, rfl, rfl, rfl⟩
      · exact ⟨rfl, rfl, rfl, rfl⟩

theorem startSequence_same (config : JoinConfig) (attempts : UInt8) (env : Env) (s : Service) :
    SameStore s (startSequence config attempts env s).2 := by
  unfold startSequence
  split
  · exact ⟨rfl, rfl, rfl, rfl⟩
  · dsimp only
    split <;> exact ⟨rfl, rfl, rfl, rfl⟩

variable {start : Int} {policy : Policy} {env : Env}

theorem lorawanJoin_started (build : Build) (start : Int) (policy : Policy) (env : Env) (s : Service) :
    (lorawanJoin build start policy env s).2.started = s.started := by
  have h := lorawanJoin_outcome build start policy env s
  generalize (lorawanJoin build start policy env s).1 = r at h
  generalize (lorawanJoin build start policy env s).2 = t at h ⊢
  cases h with
  | kept => rfl
  | stopped => rfl
  | started => rfl
  | refused => rfl

theorem lorawanJoin_maskKept (build : Build) (start : Int) (policy : Policy) (env : Env)
    (h : MaskKept s.credentials) :
    MaskKept (lorawanJoin build start policy env s).2.credentials := by
  have hpolicy := updatePolicy_maskKept policy env.settings h
  unfold lorawanJoin
  split
  · exact h
  split
  · exact h
  split <;> rename_i hc <;> rw [hc] at hpolicy
  · exact hpolicy
  split
  · exact (stopJoin_same _ _).maskKept hpolicy
  split
  · exact hpolicy
  split
  · exact hpolicy
  unfold beginJoin
  split
  · rename_i hprepare
    exact prepareJoin_maskKept hprepare hpolicy
  · rename_i hprepare
    exact (startSequence_same _ _ _ _).maskKept (prepareJoin_maskKept hprepare hpolicy)

/-- Where a join gets as far as the backend, it hands over what a loaded store stands for, and leaves
that store. -/
theorem handedOver_some (h : handedOver build start policy a s = some config)
    (hk : MaskKept s.credentials) :
    s.started = true ∧ ∃ c, MaskKept c ∧ c.loaded = true ∧ config = c.joinConfig build ∧
      ∀ env, env.settings = a →
        SameStore { s with credentials := c } (lorawanJoin build start policy env s).2 := by
  have hpolicy := updatePolicy_maskKept policy a hk
  unfold handedOver at h
  split at h
  · cases h
  rename_i hgo
  obtain ⟨rfl, hactive, hstarted⟩ : start = 1 ∧ s.joinSequenceActive = false ∧ s.started = true := by
    simpa [not_or] using hgo
  split at h
  · cases h
  rename_i c₁ hc₁
  rw [hc₁] at hpolicy
  split at h
  · cases h
  rename_i config' attempts c₂ hprepare
  cases h
  refine ⟨hstarted, c₂, prepareJoin_maskKept hprepare hpolicy, prepareJoin_loaded hprepare,
    (prepareJoin_ok hprepare).1, fun env henv => ?_⟩
  subst henv
  have hjoin : lorawanJoin build 1 policy env s =
      startSequence config attempts env { s with credentials := c₂ } := by
    rw [lorawanJoin, if_neg (by simp), if_neg (by simp [hactive])]
    simp only [hc₁]
    rw [if_neg (by simp), if_neg (by simp), if_neg (by simp [hstarted]), beginJoin]
    simp only [hprepare]
  rw [hjoin]
  exact startSequence_same _ _ _ _

theorem stopJoin_joins (env : Env) (s : Service) : (stopJoin env s).2.joins = s.joins := by
  unfold stopJoin
  split
  · rfl
  · split
    · rfl
    · rfl
    · split
      · split <;> rfl
      · rfl

/-- `handedOver` is the configuration with which `backend.join` is called. -/
theorem lorawanJoin_joins (build : Build) (start : Int) (policy : Policy) (env : Env) (s : Service) :
    (lorawanJoin build start policy env s).2.joins =
      s.joins ++ (handedOver build start policy env.settings s).toList := by
  unfold lorawanJoin handedOver
  split
  · rename_i hstart
    rw [if_pos (.inl hstart.2.2)]
    exact (List.append_nil _).symm
  split
  · rename_i hbusy
    rw [if_pos (.inr (.inl hbusy.2))]
    exact (List.append_nil _).symm
  rename_i hbusy
  rcases hpolicy : updatePolicy policy env.settings s.credentials with ⟨e | _, c⟩
  · dsimp only
    split <;> exact (List.append_nil _).symm
  dsimp only
  split
  · rename_i hzero
    rw [if_pos (.inl (by omega)), stopJoin_joins]
    exact (List.append_nil _).symm
  split
  · rename_i hone
    rw [if_pos (.inl hone)]
    exact (List.append_nil _).symm
  rename_i hone
  have hactive : s.joinSequenceActive = false := by
    rw [not_and, Bool.not_eq_true] at hbusy
    exact hbusy (not_not.1 hone)
  cases hstarted : s.started with
  | false =>
    simp
  | true =>
    rw [if_neg (by simp), if_neg (by simpa using ⟨not_not.1 hone, hactive⟩)]
    unfold beginJoin
    rcases hprepare : prepareJoin build env.settings c with ⟨e | ⟨config, attempts⟩, c'⟩
    · exact (List.append_nil _).symm
    · dsimp only
      unfold startSequence
      rw [if_neg (by simp [hactive])]
      split <;> rfl

/-- `rzi_lorawan_get_channel_mask` on a loaded store. -/
theorem getChannelMask_loaded (build : Build) (hl : c.loaded = true) (hcap : build.capChannel = true)
    (hregion : build.region.hasFixedPlan = true) (a : Answers) :
    (getChannelMask build a 6 c).1 =
      .ok (if c.channelMaskSet then c.channelMask else allChannels).toList := by
  have hplan : channelPlan build = .ok () := by
    unfold channelPlan
    rw [if_neg (by simp [hcap])]
    refine if_pos ?_
    simpa [Zephyr.Region.hasFixedPlan] using hregion
  have hread : readMask a c = (.ok (if c.channelMaskSet then c.channelMask else allChannels), c) := by
    rw [readMask, readLocked_eq, ensureLoadedLocked_of_loaded hl]
    rfl
  unfold getChannelMask
  rw [if_neg (by decide), hplan]
  simp only
  rw [if_neg (by decide), hread]
  simp only
  congr 1
  refine List.ext_getElem (by simp) fun i h₁ h₂ => ?_
  simp at h₁ ⊢
  simp [h₁]

theorem setLocked_ok {key : Settings.Key} {value : List UInt8} {f : CredentialStore → CredentialStore}
    (h : setLocked key value f a c = (.ok (), c')) : ∃ c₁, c₁.loaded = true ∧ c' = f c₁ := by
  unfold setLocked at h
  split at h
  · cases h
  rename_i c₁ hload
  have hloaded : c₁.loaded = true := by
    rcases ensureLoadedLocked_cases a c with ⟨-, hl⟩ | ⟨e, -, he⟩
    · rw [hload] at hl
      exact hl
    · rw [hload] at he
      cases he
  split at h
  · cases h
  split at h
  · cases h
  · cases h
    exact ⟨c₁, hloaded, rfl⟩

theorem setChannelMask_ok {mask : Option (Vector UInt16 6)}
    (h : Lorawan.setChannelMask mask a c = (.ok (), c')) : c'.loaded = true ∧
      c'.channelMask = mask.getD (.replicate 6 0) ∧ c'.channelMaskSet = mask.isSome := by
  unfold Lorawan.setChannelMask at h
  split at h
  · cases h
  obtain ⟨c₁, hloaded, rfl⟩ := setLocked_ok h
  exact ⟨hloaded, rfl, rfl⟩

theorem ofWords_getD {words : List UInt16} (h : words.length ≤ 6) (word : Nat) :
    (ofWords words).toList.getD word 0 = words.getD word 0 := by
  rw [List.getD_eq_getElem?_getD]
  rcases Nat.lt_or_ge word 6 with hlt | hge
  · simp [ofWords, hlt]
  · simp [ofWords, hge, h.trans hge]

theorem ofWords_enabled {words : List UInt16} (h : words.length ≤ 6) (channel : Nat) :
    wordEnabled (ofWords words).toList channel = wordEnabled words channel := by
  rw [wordEnabled, ofWords_getD h, wordEnabled]

/-- What `rzi_lorawan_set_channel_mask` accepts is what is reported from then on, also where the mask of
all channels is kept as no restriction. -/
theorem reported_of_set {words : List UInt16} (h : setChannelMask build words a c = (.ok (), c'))
    (a' : Answers) : ∃ reported, (getChannelMask build a' 6 c').1 = .ok reported ∧
      ∀ channel, wordEnabled reported channel = wordEnabled words channel := by
  unfold setChannelMask at h
  split at h
  · cases h
  rename_i hwords
  have hlen : words.length ≤ 6 := by
    rw [not_or] at hwords
    omega
  split at h
  · cases h
  rename_i hplan
  have hbuild : build.capChannel = true ∧ build.region.hasFixedPlan = true := by
    unfold channelPlan at hplan
    split at hplan
    · cases hplan
    rename_i hcap
    split at hplan
    · rename_i hregion
      exact ⟨by simpa using hcap, by simpa [Zephyr.Region.hasFixedPlan] using hregion⟩
    · cases hplan
  split at h
  · cases h
  obtain ⟨hloaded, hmask, hset⟩ := setChannelMask_ok h
  refine ⟨_, getChannelMask_loaded _ hloaded hbuild.1 hbuild.2 a', fun channel => ?_⟩
  rw [← ofWords_enabled hlen, hmask, hset]
  by_cases hall : ofWords words = allChannels
  · rw [if_pos hall]
    exact congrArg (fun mask : Vector UInt16 6 => wordEnabled mask.toList channel) hall.symm
  · rw [if_neg hall]
    rfl

/-! ### What the backends do -/

/-- The channels a join configuration asks for. -/
def configured (config : JoinConfig) (channel : Nat) : Bool :=
  match config.channelMask with
  | some mask => channelEnabled mask channel
  | none => channel < fixedPlanChannels

/-- What is asked of a backend: it keeps the region it was started with, and in a region with a fixed
plan gives its stack the configured channels, once for an accepted join. -/
structure Masked (b : Backend) : Prop where
  start_region : ∀ input region s, (b.start input region s).1 = .ok () →
    b.region (b.start input region s).2 = region
  join_region : ∀ input config s, b.region (b.join input config s).2.1 = b.region s
  once : ∀ input config s, (b.join input config s).1 = .ok () → (b.region s).hasFixedPlan = true →
    ∃ arg, (b.join input config s).2.2 = [arg]
  channels : ∀ input config s, (b.region s).hasFixedPlan = true →
    ∀ arg ∈ (b.join input config s).2.2, ∀ channel, arg.enabled channel = configured config channel
  other : ∀ input config s, (b.region s).hasFixedPlan = false → config.channelMask = none →
    (b.join input config s).2.2 = []

theorem andThen_snd (x y : Except Err Unit × List Usp.Request) :
    (andThen x y).2 = x.2 ++ if x.1 = .ok () then y.2 else [] := by
  obtain ⟨rc, requests⟩ := x
  cases rc <;> simp [andThen]

theorem andThen_ok {x y : Except Err Unit × List Usp.Request} :
    (andThen x y).1 = .ok () ↔ x.1 = .ok () ∧ y.1 = .ok () := by
  obtain ⟨rc, requests⟩ := x
  cases rc <;> simp [andThen]

/-- The masks of a list of requests. -/
def masksOf (requests : List Usp.Request) : List MaskArg := requests.filterMap maskOfRequest

theorem andThen_masks (x y : Except Err Unit × List Usp.Request) :
    masksOf (andThen x y).2 = masksOf x.2 ++ if x.1 = .ok () then masksOf y.2 else [] := by
  rw [andThen_snd, masksOf, List.filterMap_append]
  split <;> rfl

theorem ask_masks {modem : Usp.Modem} {r : Usp.Request} (h : maskOfRequest r = none) :
    masksOf (ask modem r).2 = [] := by
  simp [masksOf, ask, h]

theorem uspCredentials_masks (modem : Usp.Modem) (settings : Usp.JoinSettings) :
    masksOf (uspCredentials modem settings).2 = [] := by
  have hnext : ∀ x y : Except Err Unit × List Usp.Request, masksOf x.2 = [] → masksOf y.2 = [] →
      masksOf (andThen x y).2 = [] := by
    intro x y hx hy
    rw [andThen_masks, hx, hy]
    split <;> rfl
  refine hnext _ _ (ask_masks rfl) (hnext _ _ (ask_masks rfl) (hnext _ _ (ask_masks rfl) ?_))
  exact ask_masks rfl

/-- The one request that carries a mask is that of `configure_channel_mask`. -/
theorem uspJoinRequests_masks (modem : Usp.Modem) (region : Region) (settings : Usp.JoinSettings) :
    masksOf (uspJoinRequests modem region settings).2 =
      if (uspCredentials modem settings).1 = .ok () then
        masksOf (uspChannelMask modem region settings).2
      else [] := by
  rw [uspJoinRequests, andThen_masks, uspCredentials_masks, andThen_masks, ask_masks rfl,
    List.nil_append]
  split
  · split <;> exact List.append_nil _
  · rfl

theorem uspChannelMask_masks (modem : Usp.Modem) (region : Region) (settings : Usp.JoinSettings) :
    masksOf (uspChannelMask modem region settings).2 =
      if region.hasFixedPlan then
        [match settings.channelMask with
          | none => .null
          | some mask => .bytes (Usp.maskBytes mask)]
      else [] := by
  have hplan : region.hasFixedPlan = false ↔ region ≠ .us915 ∧ region ≠ .au915 := by
    simp [Zephyr.Region.hasFixedPlan]
  unfold uspChannelMask
  by_cases hr : region ≠ .us915 ∧ region ≠ .au915
  · rw [if_pos hr, hplan.2 hr]
    rfl
  · have hfixed : region.hasFixedPlan = true := by
      rw [← Bool.not_eq_false, hplan]
      exact hr
    rw [if_neg hr, hfixed]
    cases hm : settings.channelMask with
    | none => rfl
    | some mask =>
      have hlen : (Usp.maskBytes mask).length = 12 := by simp [Usp.maskBytes]
      have hne : Usp.maskBytes mask ≠ [] := fun h => by simp [h] at hlen
      simp [masksOf, maskOfRequest, hne]

/-- The locked part of `usp_join` is what its requests come to. -/
theorem uspJoin_rc {s : Usp.State} {params : Zephyr.JoinOtaa} {interval : UInt8}
    {mask : Option (Vector UInt16 6)} (modem : Usp.Modem) (hready : s.ready = true) :
    (Usp.uspJoin modem ⟨.otaa params, interval, mask⟩ s).rc =
      (uspJoinRequests modem s.region ⟨params, mask⟩).1 := by
  have hfst : ∀ x y : Except Err Unit × List Usp.Request, (andThen x y).1 = (do x.1; y.1) := by
    rintro ⟨rc, requests⟩ y
    cases rc <;> rfl
  have hmask : (uspChannelMask modem s.region ⟨params, mask⟩).1 =
      Usp.configureChannelMask modem s.region ⟨params, mask⟩ := by
    unfold uspChannelMask Usp.configureChannelMask
    split
    · rfl
    · cases mask <;> rfl
  have hcredentials : (uspCredentials modem ⟨params, mask⟩).1 =
      Usp.configureCredentials modem ⟨params, mask⟩ := by
    simp only [uspCredentials, hfst, Usp.configureCredentials, ask]
  rw [uspJoinRequests, hfst, hfst, hmask, hcredentials]
  simp only [Usp.uspJoin, Usp.enter, if_pos hready, Usp.finish]
  rfl

/-- Outside a locked join of an OTAA configuration the modem is given no mask. -/
theorem uspBackend_join (input : uspBackend.Input) (config : JoinConfig) (s : Usp.State) :
    (uspBackend.join input config s).2.2 = [] ∧ (uspBackend.join input config s).1 ≠ .ok () ∨
      ∃ params, s.ready = true ∧ config.activation = .otaa params ∧
        (uspBackend.join input config s).1 =
          (uspJoinRequests input.1 s.region ⟨params, config.channelMask⟩).1 ∧
        (uspBackend.join input config s).2.2 =
          masksOf (uspJoinRequests input.1 s.region ⟨params, config.channelMask⟩).2 := by
  obtain ⟨activation, interval, mask⟩ := config
  cases activation with
  | abp params => exact .inl ⟨rfl, by simp [uspBackend, Usp.uspJoin, Usp.finish]⟩
  | otaa params =>
    cases hready : s.ready with
    | false =>
      refine .inl ⟨by simp [uspBackend, hready], ?_⟩
      simp [uspBackend, hready, Usp.uspJoin, Usp.enter, Usp.finish]
    | true =>
      refine .inr ⟨params, rfl, rfl, ?_, ?_⟩
      · simp only [uspBackend, hready, if_true]
        exact uspJoin_rc input.1 hready
      · simp only [uspBackend, hready, if_true]
        rfl

theorem uspBackend_masked : Masked uspBackend where
  start_region _ _ _ _ := rfl
  join_region input config s := by
    obtain ⟨activation, interval, mask⟩ := config
    cases activation with
    | abp params => rfl
    | otaa params =>
      simp only [uspBackend, Usp.uspJoin, Usp.enter]
      split <;> rfl
  once input config s hok hplan := by
    rcases uspBackend_join input config s with ⟨-, hne⟩ | ⟨params, hready, -, hrc, hmasks⟩
    · exact absurd hok hne
    · have hplan' : s.region.hasFixedPlan = true := hplan
      rw [hrc, uspJoinRequests, andThen_ok] at hok
      rw [uspJoinRequests_masks, if_pos hok.1, uspChannelMask_masks, if_pos hplan'] at hmasks
      exact ⟨_, hmasks⟩
  channels input config s hplan arg harg channel := by
    rcases uspBackend_join input config s with ⟨hnone, -⟩ | ⟨params, hready, -, hrc, hmasks⟩
    · rw [hnone] at harg
      cases harg
    · have hplan' : s.region.hasFixedPlan = true := hplan
      rw [hmasks, uspJoinRequests_masks, uspChannelMask_masks, if_pos hplan'] at harg
      split at harg
      · obtain rfl := List.mem_singleton.1 harg
        unfold configured
        cases config.channelMask with
        | none => rfl
        | some mask => exact maskBytes_enabled mask channel
      · cases harg
  other input config s hplan hmask := by
    rcases uspBackend_join input config s with ⟨hnone, -⟩ | ⟨params, hready, -, hrc, hmasks⟩
    · exact hnone
    · have hplan' : s.region.hasFixedPlan = false := hplan
      rw [hmasks, uspJoinRequests_masks, uspChannelMask_masks, hplan']
      split <;> rfl

/-- The mask of a Zephyr join is given unless the join is refused at once. -/
theorem zephyrBackend_join (input : zephyrBackend.Input) (config : JoinConfig) (s : Zephyr.State) :
    (zephyrBackend.join input config s).2.2 = [] ∧ (zephyrBackend.join input config s).1 ≠ .ok () ∨
      (zephyrBackend.join input config s).2.2 = (joinMask config s.currentRegion).toList.map .words := by
  simp only [zephyrBackend, Zephyr.zephyrJoin]
  cases hstarted : s.started <;> cases hpending : s.joinPending || s.txPending <;>
    simp_all

theorem joinMask_enabled {region : Region} {words : List UInt16}
    (h : joinMask config region = some words) (channel : Nat) :
    wordEnabled words channel = configured config channel := by
  unfold joinMask at h
  unfold configured
  cases hmask : config.channelMask with
  | some mask =>
    rw [hmask] at h
    cases h
    rfl
  | none =>
    rw [hmask] at h
    dsimp only at h
    split at h
    · cases h
      exact fixedPlanMask_enabled channel
    · cases h

theorem zephyrBackend_masked : Masked zephyrBackend where
  start_region input region s hok := by
    simp only [zephyrBackend, Zephyr.zephyrStart] at hok ⊢
    split
    · rename_i h
      rw [if_pos h] at hok
      cases hok
    · split <;> rfl
  join_region input config s := by
    simp only [zephyrBackend, Zephyr.zephyrJoin]
    split
    · rfl
    · split
      · rfl
      · split <;> rfl
  once input config s hok hplan := by
    have hplan' : s.currentRegion.hasFixedPlan = true := hplan
    rcases zephyrBackend_join input config s with ⟨-, hne⟩ | hmasks
    · exact absurd hok hne
    · rw [hmasks]
      unfold joinMask
      split
      · exact ⟨_, rfl⟩
      · rw [if_pos hplan']
        exact ⟨_, rfl⟩
  channels input config s hplan arg harg channel := by
    rcases zephyrBackend_join input config s with ⟨hnone, -⟩ | hmasks
    · rw [hnone] at harg
      cases harg
    · rw [hmasks, List.mem_map] at harg
      obtain ⟨words, hwords, rfl⟩ := harg
      exact joinMask_enabled (Option.mem_toList.1 hwords) channel
  other input config s hplan hmask := by
    have hplan' : s.currentRegion.hasFixedPlan = false := hplan
    rcases zephyrBackend_join input config s with ⟨hnone, -⟩ | hmasks
    · exact hnone
    · rw [hmasks, joinMask, hmask]
      simp [hplan']

/-! ### Over every history -/

section Runs
variable {b : Backend} {x y : Sys b}

structure Inv (x : Sys b) : Prop where
  region : x.service.started = true → b.region x.backend = x.configuredRegion
  kept : MaskKept x.service.credentials
  truthful : ∀ r ∈ x.joins, Truthful r

theorem inv_boot (backend : b.State) : Inv (Sys.boot backend) :=
  ⟨fun h => (by cases h), fun h => (by cases h), fun r h => (by cases h)⟩

theorem joinConfig_channelMask (build : Build) (c : CredentialStore) :
    (c.joinConfig build).channelMask =
      if c.channelMaskSet && build.region.hasFixedPlan && build.capChannel then some c.channelMask
      else none := rfl

theorem configured_lt (h : MaskKept c) {channel : Nat}
    (he : configured (c.joinConfig build) channel = true) : channel < fixedPlanChannels := by
  unfold configured at he
  rw [joinConfig_channelMask] at he
  split at he
  · rename_i mask hmask
    split at hmask
    · rename_i hset
      cases hmask
      rw [Bool.and_eq_true, Bool.and_eq_true] at hset
      exact lt_of_channelMaskValid (h hset.1.1) he
    · cases hmask
  · exact of_decide_eq_true he

/-- In a fixed plan the configuration asks for the channels that the store reports. -/
theorem configured_joinConfig (build : Build) (hcap : build.capChannel = true)
    (hplan : build.region.hasFixedPlan = true) (channel : Nat) :
    configured (c.joinConfig build) channel =
      wordEnabled (if c.channelMaskSet then c.channelMask else allChannels).toList channel := by
  unfold configured
  rw [joinConfig_channelMask]
  cases hset : c.channelMaskSet with
  | true =>
    rw [hcap, hplan]
    rfl
  | false =>
    show decide (channel < fixedPlanChannels) = _
    rw [← fixedPlanMask_enabled, ← allChannels_toList]
    rfl

theorem Inv.initCall (h : Inv x) (hb : Masked b) (region : Region) (setRegion : Except Err Unit)
    (input : b.Input) : Inv (initCall region setRegion input x) := by
  unfold Channel.initCall lorawanInit
  split
  · rename_i hno
    cases hs : x.service.started with
    | true =>
      rw [if_pos rfl]
      exact ⟨h.region, h.kept, h.truthful⟩
    | false =>
      rw [if_neg (by simp)]
      cases setRegion with
      | error e => exact ⟨h.region, h.kept, h.truthful⟩
      | ok u => exact absurd hno (by simp [hs])
  · rename_i hno
    have hs : x.service.started = false := by
      rw [not_or, Bool.not_eq_true] at hno
      exact hno.1
    have hstart := hb.start_region input region x.backend
    simp only [hs, Bool.false_eq_true, if_false]
    generalize b.start input region x.backend = r at hstart ⊢
    obtain ⟨rc, backend⟩ := r
    cases rc with
    | error e => exact ⟨fun h => (by cases h), h.kept, h.truthful⟩
    | ok u => exact ⟨fun _ => hstart rfl, h.kept, h.truthful⟩

theorem Inv.joinCall (h : Inv x) (hb : Masked b) (hcap : build.capChannel = true) (start : Int)
    (policy : Policy) (env : Env) (input : b.Input) :
    Inv (joinCall build start policy env input x) := by
  unfold Channel.joinCall
  split
  · refine ⟨?_, lorawanJoin_maskKept _ _ _ _ h.kept, h.truthful⟩
    rw [lorawanJoin_started]
    exact h.region
  rename_i config hconfig
  obtain ⟨hstarted, c, hc, hloaded, rfl, hsame⟩ := handedOver_some hconfig h.kept
  have hregion := h.region hstarted
  have hsame := hsame { env with join := (b.join input (c.joinConfig (x.build build)) x.backend).1 } rfl
  refine ⟨?_, hsame.maskKept hc, ?_⟩
  · rw [lorawanJoin_started]
    exact fun _ => (hb.join_region _ _ _).trans hregion
  intro r hr
  rcases List.mem_append.1 hr with hr | hr
  · exact h.truthful r hr
  obtain rfl := List.mem_singleton.1 hr
  have hplan_eq : (b.region x.backend).hasFixedPlan = x.configuredRegion.hasFixedPlan := by rw [hregion]
  refine ⟨fun hok hplan => ?_, fun arg harg channel he => ?_, fun hplan => ?_⟩
  · have hrc : (b.join input (c.joinConfig (x.build build)) x.backend).1 = .ok () := by
      generalize (b.join input (c.joinConfig (x.build build)) x.backend).1 = rc at hok
      cases rc with
      | error e => cases hok
      | ok u => rfl
    obtain ⟨arg, harg⟩ := hb.once input _ _ hrc (hplan_eq.trans hplan)
    refine ⟨arg, _, harg, getChannelMask_loaded (x.build build) (hsame.loaded.trans hloaded)
      hcap hplan _, fun channel => ?_⟩
    rw [hb.channels input _ _ (hplan_eq.trans hplan) arg (by rw [harg]; exact List.mem_singleton_self _),
      configured_joinConfig (x.build build) hcap hplan, hsame.set, hsame.mask]
  · cases hplan : x.configuredRegion.hasFixedPlan with
    | true =>
      rw [hb.channels input _ _ (hplan_eq.trans hplan) arg harg] at he
      exact configured_lt hc he
    | false =>
      have hnone := hb.other input (c.joinConfig (x.build build)) _ (hplan_eq.trans hplan)
        (by simp [joinConfig_channelMask, Sys.build, hplan])
      rw [hnone] at harg
      cases harg
  · exact hb.other input _ _ (hplan_eq.trans hplan) (by
      have hplan' : x.configuredRegion.hasFixedPlan = false := hplan
      simp [joinConfig_channelMask, Sys.build, hplan'])

theorem Inv.service (h : Inv x) {act : Lorawan.Act} (ht : step build x (.service act) = some y) :
    Inv y := by
  cases act with
  | init _ _ => cases ht
  | join _ _ _ => cases ht
  | leave env =>
    cases ht
    unfold lorawanLeave
    split
    · exact ⟨h.region, h.kept, h.truthful⟩
    · split <;> exact ⟨h.region, h.kept, h.truthful⟩
  | set setter a =>
    cases ht
    exact ⟨h.region, setter_maskKept build setter a h.kept, h.truthful⟩
  | clearSettings rc =>
    cases ht
    refine ⟨h.region, ?_, h.truthful⟩
    show MaskKept (clearSettings rc x.service.credentials).2
    unfold clearSettings
    split
    · exact h.kept
    · split
      · exact h.kept
      · exact fun h => (by cases h)
  | publish event sequence =>
    simp only [Channel.step, Lorawan.step, Option.map_eq_some_iff] at ht
    obtain ⟨service, hs, rfl⟩ := ht
    split at hs
    · cases hs
    · cases hs
      exact ⟨h.region, h.kept, h.truthful⟩
  | dispatch =>
    simp only [Channel.step, Lorawan.step, Option.map_eq_some_iff] at ht
    obtain ⟨service, hs, rfl⟩ := ht
    have hsame := dispatcher_same hs
    refine ⟨fun hstarted => h.region (hsame.started.symm.trans hstarted), hsame.maskKept h.kept, h.truthful⟩

theorem Inv.step (h : Inv x) (hb : Masked b) (hcap : build.capChannel = true) {a : Act b}
    (ht : step build x a = some y) : Inv y := by
  cases a with
  | init region setRegion input =>
    cases ht
    exact h.initCall hb region setRegion input
  | region region =>
    simp only [Channel.step] at ht
    split at ht
    · cases ht
    · rename_i hs
      cases ht
      exact ⟨fun hstarted => absurd hstarted hs, h.kept, h.truthful⟩
  | join start policy env input =>
    cases ht
    exact h.joinCall hb hcap start policy env input
  | service act => exact h.service ht
  | backend t =>
    simp only [Channel.step] at ht
    split at ht
    · rename_i hregion
      cases ht
      exact ⟨fun hstarted => hregion.trans (h.region hstarted), h.kept, h.truthful⟩
    · cases ht

end Runs

theorem kind_masked (kind : Kind) : Masked kind.backend := by
  cases kind with
  | usp => exact uspBackend_masked
  | zephyr => exact zephyrBackend_masked

/-- In every history of the service with either backend, each join gives the stack the channels that
`rzi_lorawan_get_channel_mask` reports. -/
theorem reported_at_join (kind : Kind) (hcap : build.capChannel = true) (backend : kind.backend.State)
    (as : List (Act kind.backend)) :
    Always (step build) (fun x => ∀ r ∈ x.joins, Truthful r) (Sys.boot backend) as := by
  refine always_of_invariant' (fun x h => Inv.truthful h) ?_ (inv_boot backend)
  exact fun x a y h ht => h.step (kind_masked kind) hcap ht

/-- A start in US915, a mask of the first sub-band, and a join. -/
def subBandJoin : List (Act Kind.zephyr.backend) :=
  [.init .us915 (.ok ()) (⟨true, none, none, false, fun _ => none⟩ : ZephyrInput),
    .service (.set (.channelMask (some #v[0xff, 0, 0, 0, 1, 0])) defaultAnswers),
    .join 1 ⟨-1, -1, -1⟩ joiningEnv (⟨true, none, none, false, fun _ => none⟩ : ZephyrInput)]

theorem reported_at_join_sub_band :
    ∃ x, run (step fullBuild) (Sys.boot (b := Kind.zephyr.backend) Zephyr.init) subBandJoin = some x ∧
      x.joins.length = 1 ∧ ∀ r ∈ x.joins, Truthful r := by
  refine ⟨_, rfl, rfl, ?_⟩
  exact @reported_at_join fullBuild .zephyr rfl Zephyr.init subBandJoin subBandJoin _
    List.prefix_rfl rfl

end Rzi.Lorawan.Channel
