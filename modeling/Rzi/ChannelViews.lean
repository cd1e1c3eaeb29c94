import Rzi.ChannelMask

/-!
# Sub-bands and fixed channels (`lorawan_channel.c`)

Two views of the one mask. A sub-band is eight narrow channels with the wide channel of the same
number, a fixed channel is a mask of one channel, named by its frequency; 0 stands for no restriction
in both. `mask_views` says what the getters report after any mask that is accepted, and that the
setters bring back what the getters report.
-/

namespace Rzi.Lorawan.Channel
open Zephyr (Region)

/-! ### The calls -/

/-- `struct channel_plan`. -/
structure Plan where
  narrowBaseHz : UInt32
  wideBaseHz : UInt32
deriving DecidableEq, Repr

/-- `channel_plan` with the plan that it fills in. -/
def fillPlan (build : Build) : Except Err Plan :=
  if !build.capChannel then .error .notSupported
  else if build.region = .us915 then .ok ⟨902300000, 903000000⟩
  else if build.region = .au915 then .ok ⟨915200000, 915900000⟩
  else .error .notSupported

/-- RZI_LORAWAN_FIXED_PLAN_WIDE, the first of the wide channels. -/
def fixedPlanWide : Nat := 64

/-- SUB_BANDS. -/
def subBands : Nat := 8

/-- `sub_band_channels`, for 1 to 8. -/
def subBandChannels (subBand : Nat) : Vector UInt16 6 :=
  putChannel ((List.range' ((subBand - 1) * 8) 8).foldl putChannel (.replicate 6 0))
    (fixedPlanWide + subBand - 1)

def channelFrequency (plan : Plan) (channel : Nat) : UInt32 :=
  if channel < fixedPlanWide then plan.narrowBaseHz + UInt32.ofNat channel * 200000
  else plan.wideBaseHz + UInt32.ofNat (channel - fixedPlanWide) * 1600000

def frequencyChannel (plan : Plan) (frequencyHz : UInt32) : Except Err Nat :=
  match (List.range fixedPlanChannels).find? (channelFrequency plan · == frequencyHz) with
  | some channel => .ok channel
  | none => .error .invalid

/-- `rzi_lorawan_get_sub_band`; `out` is whether the caller gave a place for the answer. -/
def getSubBand (build : Build) (out : Bool) (a : Answers) (c : CredentialStore) :
    Except Err UInt8 × CredentialStore :=
  if !out then (.error .invalid, c)
  else
    match fillPlan build with
    | .error e => (.error e, c)
    | .ok _ =>
      match readMask a c with
      | (.error e, c) => (.error e, c)
      | (.ok current, c) =>
        if current = allChannels then (.ok 0, c)
        else
          match (List.range' 1 subBands).find? (current == subBandChannels ·) with
          | some band => (.ok (UInt8.ofNat band), c)
          | none => (.error .noData, c)

/-- `rzi_lorawan_set_sub_band`. -/
def setSubBand (build : Build) (subBand : UInt8) (a : Answers) (c : CredentialStore) :
    Except Err Unit × CredentialStore :=
  match fillPlan build with
  | .error e => (.error e, c)
  | .ok _ =>
    if subBands < subBand.toNat then (.error .invalid, c)
    else if subBand = 0 then Lorawan.setChannelMask none a c
    else storeMask (subBandChannels subBand.toNat) a c

/-- The loop of `rzi_lorawan_get_fixed_channel`: the last enabled channel, and how many there are. -/
def countChannels (mask : Vector UInt16 6) (channels : List Nat) : Nat × Nat :=
  channels.foldl (fun r channel => if channelEnabled mask channel then (channel, r.2 + 1) else r) (0, 0)

/-- `rzi_lorawan_get_fixed_channel`. -/
def getFixedChannel (build : Build) (out : Bool) (a : Answers) (c : CredentialStore) :
    Except Err UInt32 × CredentialStore :=
  if !out then (.error .invalid, c)
  else
    match fillPlan build with
    | .error e => (.error e, c)
    | .ok plan =>
      match readMask a c with
      | (.error e, c) => (.error e, c)
      | (.ok current, c) =>
        let r := countChannels current (List.range fixedPlanChannels)
        (.ok (if r.2 = 1 then channelFrequency plan r.1 else 0), c)

/-- `rzi_lorawan_set_fixed_channel`. -/
def setFixedChannel (build : Build) (frequencyHz : UInt32) (a : Answers) (c : CredentialStore) :
    Except Err Unit × CredentialStore :=
  match fillPlan build with
  | .error e => (.error e, c)
  | .ok plan =>
    if frequencyHz = 0 then Lorawan.setChannelMask none a c
    else
      match frequencyChannel plan frequencyHz with
      | .error e => (.error e, c)
      | .ok channel => Lorawan.setChannelMask (some (putChannel (.replicate 6 0) channel)) a c

/-! ### What the views mean -/

/-- The centre of a channel of the plan, in hertz. -/
def centreHz (region : Region) (channel : Nat) : Nat :=
  if channel < 64 then (if region = .us915 then 902300000 else 915200000) + 200000 * channel
  else (if region = .us915 then 903000000 else 915900000) + 1600000 * (channel - 64)

/-- LoRaWAN frequency sub-band `n`. -/
def InSubBand (n channel : Nat) : Prop := 8 * (n - 1) ≤ channel ∧ channel < 8 * n ∨ channel = 63 + n

section Masks
variable (words : List UInt16)

def IsAll : Prop := ∀ channel, wordEnabled words channel = true ↔ channel < 72

def IsSubBand (n : Nat) : Prop := ∀ channel, wordEnabled words channel = true ↔ InSubBand n channel

def IsSingle (channel : Nat) : Prop := ∀ i, wordEnabled words i = true ↔ i = channel

/-- A mask of the plan with at least one channel, as an array of five or six words. -/
structure PlanMask : Prop where
  length : 5 ≤ words.length ∧ words.length ≤ 6
  some : ∃ channel, wordEnabled words channel = true
  below : ∀ channel, wordEnabled words channel = true → channel < 72

/-- What the three getters report where the mask is `words`. -/
structure Reports (build : Build) (c : CredentialStore) : Prop where
  mask : ∀ a n, 5 ≤ n →
    getChannelMask build a n c = (.ok ((List.range n).map fun word => words.getD word 0), c)
  subBand : ∀ a n, getSubBand build true a c = (.ok n, c) ↔
    n = 0 ∧ IsAll words ∨ 1 ≤ n.toNat ∧ n.toNat ≤ 8 ∧ IsSubBand words n.toNat
  noSubBand : ∀ a, getSubBand build true a c = (.error .noData, c) ↔
    ¬ IsAll words ∧ ∀ n, 1 ≤ n → n ≤ 8 → ¬ IsSubBand words n
  fixed : ∀ a f, f ≠ 0 → (getFixedChannel build true a c = (.ok f, c) ↔
    ∃ channel, channel < 72 ∧ IsSingle words channel ∧ f.toNat = centreHz build.region channel)
  noFixed : ∀ a, getFixedChannel build true a c = (.ok 0, c) ↔ ∀ channel, ¬ IsSingle words channel

end Masks

/-- Storage that answers every read and takes every write. -/
structure Working (a : Answers) : Prop where
  read : ∀ k, ∃ r, a.read k = .ok r
  write : ∀ k v, a.write k v = .ok ()

/-! ### Masks channel by channel -/

/-- A mask is the set of its channels. -/
theorem mask_ext {mask mask' : Vector UInt16 6}
    (h : ∀ channel, channelEnabled mask channel = channelEnabled mask' channel) : mask = mask' := by
  refine Vector.ext fun i hi => UInt16.toNat_inj.1 (Nat.eq_of_testBit_eq fun j => ?_)
  rcases Nat.lt_or_ge j 16 with hj | hj
  · have hbit := h (16 * i + j)
    unfold channelEnabled at hbit
    rw [show (16 * i + j) / 16 = i by omega, show (16 * i + j) % 16 = j by omega] at hbit
    simpa [List.getD_eq_getElem?_getD, hi] using hbit
  · have hhigh : ∀ word : UInt16, word.toNat.testBit j = false := fun word =>
      Nat.testBit_lt_two_pow (word.toNat_lt.trans_le (Nat.pow_le_pow_right (by decide) hj))
    rw [hhigh, hhigh]

theorem foldl_putChannel_enabled (channels : List Nat) (mask : Vector UInt16 6)
    (h : ∀ channel ∈ channels, channel < 96) (i : Nat) :
    channelEnabled (channels.foldl putChannel mask) i =
      (channelEnabled mask i || decide (i ∈ channels)) := by
  show wordEnabled (channels.foldl putChannel mask).toList i = _
  rw [foldl_putChannel_toList]
  refine wordEnabled_foldl channels mask.toList (fun k hk => ?_) i
  have hlt := h k hk
  rw [Vector.length_toList]
  omega

theorem putChannel_enabled {channel : Nat} (mask : Vector UInt16 6) (h : channel < 96) (i : Nat) :
    channelEnabled (putChannel mask channel) i = (channelEnabled mask i || decide (i = channel)) := by
  have hone := foldl_putChannel_enabled [channel] mask (by simpa using h) i
  simpa using hone

theorem empty_enabled (channel : Nat) : channelEnabled (.replicate 6 0) channel = false := by
  have hword : (List.replicate 6 (0 : UInt16)).getD (channel / 16) 0 = 0 := by
    rw [List.getD_eq_getElem?_getD, List.getElem?_replicate]
    split <;> rfl
  show ((List.replicate 6 (0 : UInt16)).getD (channel / 16) 0).toNat.testBit _ = false
  rw [hword]
  exact Nat.zero_testBit _

theorem allChannels_enabled (channel : Nat) :
    channelEnabled allChannels channel = decide (channel < 72) := by
  show wordEnabled allChannels.toList channel = _
  rw [allChannels_toList, fixedPlanMask_enabled]
  rfl

theorem single_enabled {channel : Nat} (h : channel < 96) (i : Nat) :
    channelEnabled (putChannel (.replicate 6 0) channel) i = decide (i = channel) := by
  rw [putChannel_enabled _ h, empty_enabled, Bool.false_or]

instance (n channel : Nat) : Decidable (InSubBand n channel) := by
  unfold InSubBand
  infer_instance

theorem subBandChannels_enabled {n : Nat} (h₁ : 1 ≤ n) (h₈ : n ≤ 8) (i : Nat) :
    channelEnabled (subBandChannels n) i = decide (InSubBand n i) := by
  have hwide : fixedPlanWide + n - 1 = 63 + n := by
    rw [fixedPlanWide]
    omega
  rw [subBandChannels, hwide, putChannel_enabled _ (by omega), foldl_putChannel_enabled, empty_enabled,
    Bool.false_or, ← Bool.decide_or]
  · refine decide_eq_decide.2 ?_
    rw [List.mem_range'_1, InSubBand]
    omega
  · intro channel hmem
    rw [List.mem_range'_1] at hmem
    omega

theorem channelEnabled_lt {mask : Vector UInt16 6} {channel : Nat}
    (h : channelEnabled mask channel = true) : channel < 96 := by
  by_contra hge
  have hoff : channelEnabled mask channel = false :=
    wordEnabled_of_length_le (by rw [Vector.length_toList]; omega)
  rw [h] at hoff
  cases hoff

theorem channelMaskValid_iff {mask : Vector UInt16 6} : channelMaskValid mask = true ↔
    (∃ channel, channelEnabled mask channel = true) ∧
      ∀ channel, channelEnabled mask channel = true → channel < 72 := by
  unfold channelMaskValid
  rw [Bool.and_eq_true, List.all_eq_true, List.any_eq_true]
  constructor
  · rintro ⟨hall, channel, -, hany⟩
    refine ⟨⟨channel, hany⟩, fun i hi => ?_⟩
    have hlow := hall i (List.mem_range.2 (channelEnabled_lt hi))
    rw [hi, Bool.true_and, Bool.not_eq_true', decide_eq_false_iff_not] at hlow
    omega
  · rintro ⟨⟨channel, hany⟩, hbelow⟩
    refine ⟨fun i _ => ?_, channel, List.mem_range.2 (channelEnabled_lt hany), hany⟩
    cases hi : channelEnabled mask i with
    | false => rfl
    | true =>
      have hlt := hbelow i hi
      rw [Bool.true_and, Bool.not_eq_true', decide_eq_false_iff_not]
      omega

/-! ### The frequencies -/

variable {build : Build} {a : Answers} {c c' : CredentialStore} {words : List UInt16} {plan : Plan}

theorem fillPlan_channelPlan (build : Build) :
    (fillPlan build).map (fun _ => ()) = channelPlan build := by
  unfold fillPlan channelPlan
  split
  · rfl
  · by_cases hus : build.region = .us915
    · rw [if_pos hus, if_pos (.inl hus)]
      rfl
    · rw [if_neg hus]
      by_cases hau : build.region = .au915
      · rw [if_pos hau, if_pos (.inr hau)]
        rfl
      · rw [if_neg hau, if_neg (by simp [hus, hau])]
        rfl

/-- A backend with channel masks in one of the two regions. -/
structure HasPlan (build : Build) : Prop where
  cap : build.capChannel = true
  region : build.region = .us915 ∨ build.region = .au915

/-- The frequencies a plan gives to its channels. -/
def Tuned (plan : Plan) (region : Region) : Prop :=
  ∀ channel, channel < 72 → (channelFrequency plan channel).toNat = centreHz region channel

theorem HasPlan.fill (h : HasPlan build) :
    ∃ plan, fillPlan build = .ok plan ∧ Tuned plan build.region := by
  have hfill : fillPlan build = .ok ⟨if build.region = .us915 then 902300000 else 915200000,
      if build.region = .us915 then 903000000 else 915900000⟩ := by
    rw [fillPlan, if_neg (by simp [h.cap])]
    rcases h.region with hr | hr <;> simp [hr]
  have hofNat : ∀ k, k < 72 → (UInt32.ofNat k).toNat = k := fun k hk =>
    UInt32.toNat_ofNat_of_lt' (hk.trans (by decide))
  refine ⟨_, hfill, fun channel hlt => ?_⟩
  unfold channelFrequency centreHz fixedPlanWide
  rcases Nat.lt_or_ge channel 64 with hnarrow | hwide
  · rw [if_pos hnarrow, if_pos hnarrow, UInt32.toNat_add, UInt32.toNat_mul, hofNat _ hlt]
    split <;> simp <;> omega
  · rw [if_neg (Nat.not_lt.2 hwide), if_neg (Nat.not_lt.2 hwide), UInt32.toNat_add, UInt32.toNat_mul,
      hofNat _ (by omega)]
    split <;> simp <;> omega

/-- No two channels share a centre. -/
theorem centreHz_inj {region : Region} {i j : Nat} (hi : i < 72) (hj : j < 72)
    (h : centreHz region i = centreHz region j) : i = j := by
  unfold centreHz at h
  split at h <;> split at h <;> split at h <;> omega

theorem centreHz_pos (region : Region) (channel : Nat) : 0 < centreHz region channel := by
  unfold centreHz
  split <;> split <;> omega

theorem Tuned.frequencyChannel {region : Region} (h : Tuned plan region) {channel : Nat}
    (hlt : channel < 72) {f : UInt32} (hf : f.toNat = centreHz region channel) :
    frequencyChannel plan f = .ok channel := by
  unfold Channel.frequencyChannel
  cases hfind : (List.range fixedPlanChannels).find? (channelFrequency plan · == f) with
  | none =>
    have hno := List.find?_eq_none.1 hfind channel (List.mem_range.2 hlt)
    exact absurd (beq_iff_eq.2 (UInt32.toNat_inj.1 ((h channel hlt).trans hf.symm))) hno
  | some other =>
    have hother : other < 72 := List.mem_range.1 (List.mem_of_find?_eq_some hfind)
    have heq : channelFrequency plan other = f := by simpa using List.find?_some hfind
    have hsame : centreHz region other = centreHz region channel := by
      rw [← h other hother, heq, hf]
    rw [centreHz_inj hother hlt hsame]

theorem Tuned.frequencyChannel_none {region : Region} (h : Tuned plan region) {f : UInt32}
    (hf : ∀ channel, channel < 72 → f.toNat ≠ centreHz region channel) :
    Channel.frequencyChannel plan f = .error .invalid := by
  have hfind : (List.range fixedPlanChannels).find? (channelFrequency plan · == f) = none := by
    refine List.find?_eq_none.2 fun channel hmem heq => ?_
    have hlt : channel < 72 := List.mem_range.1 hmem
    exact hf channel hlt (by rw [← h channel hlt, beq_iff_eq.1 heq])
  rw [Channel.frequencyChannel, hfind]

/-! ### The counting loop -/

/-- Over the channels below `n` the loop counts none where none is enabled, and one, the last it saw,
where that one alone is enabled. -/
theorem countChannels_range (mask : Vector UInt16 6) (n : Nat) :
    ((countChannels mask (List.range n)).2 = 0 ↔ ∀ i, i < n → channelEnabled mask i = false) ∧
      ∀ channel, ((countChannels mask (List.range n)).2 = 1 ∧
          (countChannels mask (List.range n)).1 = channel ↔
        channel < n ∧ ∀ i, i < n → (channelEnabled mask i = true ↔ i = channel)) := by
  induction n with
  | zero => simp [countChannels]
  | succ n ih =>
    have hstep : countChannels mask (List.range (n + 1)) =
        if channelEnabled mask n then (n, (countChannels mask (List.range n)).2 + 1)
        else countChannels mask (List.range n) := by
      rw [countChannels, List.range_succ, List.foldl_append]
      rfl
    rw [hstep]
    generalize countChannels mask (List.range n) = r at ih
    cases hn : channelEnabled mask n with
    | false =>
      rw [if_neg (by simp)]
      constructor
      · rw [ih.1]
        refine ⟨fun h i hi => ?_, fun h i hi => h i (by omega)⟩
        rcases Nat.lt_succ_iff_lt_or_eq.1 hi with hi | rfl
        · exact h i hi
        · exact hn
      · intro channel
        rw [ih.2]
        constructor
        · rintro ⟨hlt, h⟩
          refine ⟨by omega, fun i hi => ?_⟩
          rcases Nat.lt_succ_iff_lt_or_eq.1 hi with hi | rfl
          · exact h i hi
          · simp only [hn, Bool.false_eq_true, false_iff]
            omega
        · rintro ⟨hlt, h⟩
          have hne : channel ≠ n := by
            rintro rfl
            rw [(h channel hlt).2 rfl] at hn
            cases hn
          exact ⟨by omega, fun i hi => h i (by omega)⟩
    | true =>
      rw [if_pos rfl]
      constructor
      · simp only [Nat.succ_ne_zero, false_iff]
        intro h
        rw [h n (by omega)] at hn
        cases hn
      · intro channel
        simp only [Nat.add_eq_right]
        rw [ih.1]
        constructor
        · rintro ⟨h, rfl⟩
          refine ⟨by omega, fun i hi => ?_⟩
          rcases Nat.lt_succ_iff_lt_or_eq.1 hi with hi | rfl
          · simp only [h i hi, Bool.false_eq_true, false_iff]
            omega
          · simp [hn]
        · rintro ⟨-, h⟩
          have heq : n = channel := (h n (by omega)).1 hn
          refine ⟨fun i hi => ?_, heq⟩
          rw [← Bool.not_eq_true, h i (by omega)]
          omega

/-! ### What the getters report -/

/-- The mask that `read_mask` reads of a loaded store. -/
def maskInUse (c : CredentialStore) : Vector UInt16 6 :=
  if c.channelMaskSet then c.channelMask else allChannels

theorem readMask_loaded (hl : c.loaded = true) (a : Answers) : readMask a c = (.ok (maskInUse c), c) := by
  rw [readMask, readLocked_eq, ensureLoadedLocked_of_loaded hl]
  rfl

theorem mask_eq_iff {mask : Vector UInt16 6} (hlen : words.length ≤ 6) : ofWords words = mask ↔
    ∀ channel, wordEnabled words channel = true ↔ channelEnabled mask channel = true := by
  constructor
  · rintro rfl channel
    rw [← ofWords_enabled hlen]
    rfl
  · intro h
    refine mask_ext fun channel => Bool.eq_iff_iff.2 ?_
    rw [← h channel, ← ofWords_enabled hlen]
    rfl

theorem isAll_iff (hlen : words.length ≤ 6) : ofWords words = allChannels ↔ IsAll words := by
  simp [mask_eq_iff hlen, allChannels_enabled, IsAll]

theorem isSubBand_iff (hlen : words.length ≤ 6) {n : Nat} (h₁ : 1 ≤ n) (h₈ : n ≤ 8) :
    ofWords words = subBandChannels n ↔ IsSubBand words n := by
  simp [mask_eq_iff hlen, subBandChannels_enabled h₁ h₈, IsSubBand]

theorem IsSubBand.not_all {n : Nat} (h : IsSubBand words n) (h₁ : 1 ≤ n) (h₈ : n ≤ 8) :
    ¬ IsAll words := by
  -- the wide channels of two bands are in the plan, one of them only in the band
  intro hall
  have hall₁ := (h 64).1 ((hall 64).2 (by omega))
  have hall₂ := (h 65).1 ((hall 65).2 (by omega))
  unfold InSubBand at hall₁ hall₂
  omega

theorem IsSubBand.unique {n m : Nat} (hn : IsSubBand words n) (hm : IsSubBand words m) (h₁ : 1 ≤ n)
    (h₈ : m ≤ 8) : n = m := by
  have hwide := (hm (63 + n)).1 ((hn (63 + n)).2 (.inr rfl))
  unfold InSubBand at hwide
  omega

/-- What `rzi_lorawan_get_sub_band` does with a loaded store. -/
theorem getSubBand_loaded (hb : HasPlan build) (hl : c.loaded = true) (a : Answers) :
    getSubBand build true a c =
      (if maskInUse c = allChannels then .ok 0
        else match (List.range' 1 subBands).find? (maskInUse c == subBandChannels ·) with
          | some band => .ok (UInt8.ofNat band)
          | none => .error .noData, c) := by
  obtain ⟨plan, hfill, -⟩ := hb.fill
  rw [getSubBand, if_neg (by simp), hfill]
  dsimp only
  rw [readMask_loaded hl]
  dsimp only
  split
  · rfl
  · cases (List.range' 1 subBands).find? (maskInUse c == subBandChannels ·) <;> rfl

/-- The loop over the bands stops at the band that the mask is, if it is one. -/
theorem find_subBand (hlen : words.length ≤ 6) {n : Nat} :
    (List.range' 1 subBands).find? (ofWords words == subBandChannels ·) = some n ↔
      1 ≤ n ∧ n ≤ 8 ∧ IsSubBand words n := by
  have hrange : ∀ m, m ∈ List.range' 1 subBands ↔ 1 ≤ m ∧ m ≤ 8 := by
    intro m
    rw [List.mem_range'_1, subBands]
    omega
  have hsound : ∀ m, (List.range' 1 subBands).find? (ofWords words == subBandChannels ·) = some m →
      1 ≤ m ∧ m ≤ 8 ∧ IsSubBand words m := by
    intro m hfind
    obtain ⟨h₁, h₈⟩ := (hrange m).1 (List.mem_of_find?_eq_some hfind)
    have heq : ofWords words = subBandChannels m := by simpa using List.find?_some hfind
    exact ⟨h₁, h₈, (isSubBand_iff hlen h₁ h₈).1 heq⟩
  refine ⟨hsound n, ?_⟩
  rintro ⟨h₁, h₈, hn⟩
  cases hfind : (List.range' 1 subBands).find? (ofWords words == subBandChannels ·) with
  | none =>
    have hno := List.find?_eq_none.1 hfind n ((hrange n).2 ⟨h₁, h₈⟩)
    exact absurd (beq_iff_eq.2 ((isSubBand_iff hlen h₁ h₈).2 hn)) hno
  | some m =>
    obtain ⟨h₁', -, hm⟩ := hsound m hfind
    rw [hm.unique hn h₁' h₈]

/-- What `rzi_lorawan_get_fixed_channel` does with a loaded store. -/
theorem getFixedChannel_loaded (hfill : fillPlan build = .ok plan) (hl : c.loaded = true) (a : Answers) :
    getFixedChannel build true a c =
      (.ok (if (countChannels (maskInUse c) (List.range fixedPlanChannels)).2 = 1 then
        channelFrequency plan (countChannels (maskInUse c) (List.range fixedPlanChannels)).1 else 0), c) := by
  rw [getFixedChannel, if_neg (by simp), hfill]
  dsimp only
  rw [readMask_loaded hl]

/-- The count is 1 where the mask is a single channel, which is then the last one found. -/
theorem countChannels_single (hw : PlanMask words) (channel : Nat) : IsSingle words channel ↔
    (countChannels (ofWords words) (List.range fixedPlanChannels)).2 = 1 ∧
      (countChannels (ofWords words) (List.range fixedPlanChannels)).1 = channel := by
  have henabled : ∀ i, channelEnabled (ofWords words) i = wordEnabled words i :=
    ofWords_enabled hw.length.2
  rw [fixedPlanChannels, (countChannels_range (ofWords words) 72).2]
  simp only [henabled]
  constructor
  · intro h
    exact ⟨hw.below channel ((h channel).2 rfl), fun i _ => h i⟩
  · rintro ⟨hlt, h⟩ i
    constructor
    · exact fun hi => (h i (hw.below i hi)).1 hi
    · rintro rfl
      exact (h i hlt).2 rfl

theorem HasPlan.channelPlan (hb : HasPlan build) : channelPlan build = .ok () := by
  obtain ⟨plan, hfill, -⟩ := hb.fill
  rw [← fillPlan_channelPlan, hfill]
  rfl

theorem getChannelMask_words (hb : HasPlan build) (hl : c.loaded = true) (hlen : words.length ≤ 6)
    (hmask : maskInUse c = ofWords words) (a : Answers) {n : Nat} (hn : 5 ≤ n) :
    getChannelMask build a n c = (.ok ((List.range n).map fun word => words.getD word 0), c) := by
  rw [getChannelMask, if_neg (by omega), hb.channelPlan]
  dsimp only
  rw [if_neg (show ¬ n < fixedPlanWords from Nat.not_lt.2 hn), readMask_loaded hl, hmask]
  dsimp only
  simp only [ofWords_getD hlen]

/-- What is reported as the sub-band of a mask. -/
theorem subBand_iff (hb : HasPlan build) (hl : c.loaded = true) (hlen : words.length ≤ 6)
    (hmask : maskInUse c = ofWords words) (a : Answers) (n : UInt8) :
    getSubBand build true a c = (.ok n, c) ↔
      n = 0 ∧ IsAll words ∨ 1 ≤ n.toNat ∧ n.toNat ≤ 8 ∧ IsSubBand words n.toNat := by
  rw [getSubBand_loaded hb hl, hmask]
  by_cases hall : ofWords words = allChannels
  · have hall' := (isAll_iff hlen).1 hall
    rw [if_pos hall]
    constructor
    · intro h
      cases h
      exact .inl ⟨rfl, hall'⟩
    · rintro (⟨rfl, -⟩ | ⟨h₁, h₈, hband⟩)
      · rfl
      · exact absurd hall' (hband.not_all h₁ h₈)
  · have hall' := mt (isAll_iff hlen).2 hall
    rw [if_neg hall]
    constructor
    · intro h
      cases hfind : (List.range' 1 subBands).find? (ofWords words == subBandChannels ·) with
      | none =>
        rw [hfind] at h
        cases h
      | some m =>
        rw [hfind] at h
        cases h
        obtain ⟨h₁, h₈, hband⟩ := (find_subBand hlen).1 hfind
        have hm : (UInt8.ofNat m).toNat = m := UInt8.toNat_ofNat_of_lt' (by rw [UInt8.size]; omega)
        rw [hm]
        exact .inr ⟨h₁, h₈, hband⟩
    · rintro (⟨-, h⟩ | hband)
      · exact absurd h hall'
      · rw [(find_subBand hlen).2 hband]
        dsimp only
        rw [UInt8.ofNat_toNat]

theorem noSubBand_iff (hb : HasPlan build) (hl : c.loaded = true) (hlen : words.length ≤ 6)
    (hmask : maskInUse c = ofWords words) (a : Answers) :
    getSubBand build true a c = (.error .noData, c) ↔
      ¬ IsAll words ∧ ∀ n, 1 ≤ n → n ≤ 8 → ¬ IsSubBand words n := by
  rw [getSubBand_loaded hb hl, hmask, ← isAll_iff hlen]
  by_cases hall : ofWords words = allChannels
  · rw [if_pos hall]
    exact ⟨fun h => (by cases h), fun h => absurd hall h.1⟩
  · rw [if_neg hall]
    cases hfind : (List.range' 1 subBands).find? (ofWords words == subBandChannels ·) with
    | none =>
      refine ⟨fun _ => ⟨hall, fun n h₁ h₈ hband => ?_⟩, fun _ => rfl⟩
      rw [(find_subBand hlen).2 ⟨h₁, h₈, hband⟩] at hfind
      cases hfind
    | some m =>
      obtain ⟨h₁, h₈, hband⟩ := (find_subBand hlen).1 hfind
      exact ⟨fun h => (by cases h), fun h => absurd hband (h.2 m h₁ h₈)⟩

/-- What is reported as the fixed channel of a mask. -/
theorem fixedChannel_cases (hb : HasPlan build) (hl : c.loaded = true) (hw : PlanMask words)
    (hmask : maskInUse c = ofWords words) (a : Answers) :
    (∃ channel f, channel < 72 ∧ IsSingle words channel ∧ f.toNat = centreHz build.region channel ∧
        getFixedChannel build true a c = (.ok f, c)) ∨
      (∀ channel, ¬ IsSingle words channel) ∧ getFixedChannel build true a c = (.ok 0, c) := by
  obtain ⟨plan, hfill, htuned⟩ := hb.fill
  have hsingle := countChannels_single hw
  rw [getFixedChannel_loaded hfill hl, hmask]
  generalize countChannels (ofWords words) (List.range fixedPlanChannels) = r at hsingle
  by_cases hone : r.2 = 1
  · have hr := (hsingle r.1).2 ⟨hone, rfl⟩
    have hlt : r.1 < 72 := hw.below r.1 ((hr r.1).2 rfl)
    rw [if_pos hone]
    exact .inl ⟨r.1, _, hlt, hr, htuned r.1 hlt, rfl⟩
  · rw [if_neg hone]
    exact .inr ⟨fun channel h => hone ((hsingle channel).1 h).1, rfl⟩

theorem IsSingle.unique {i j : Nat} (hi : IsSingle words i) (hj : IsSingle words j) : i = j :=
  (hj i).1 ((hi i).2 rfl)

theorem toNat_ne_zero {f : UInt32} {region : Region} {channel : Nat}
    (h : f.toNat = centreHz region channel) : f ≠ 0 := by
  rintro rfl
  have hpos := centreHz_pos region channel
  rw [← h] at hpos
  exact absurd hpos (by decide)

/-- A loaded store that holds a mask of the plan reports it, in all three views. -/
theorem reports (hb : HasPlan build) (hl : c.loaded = true) (hw : PlanMask words)
    (hmask : maskInUse c = ofWords words) : Reports words build c where
  mask a n hn := getChannelMask_words hb hl hw.length.2 hmask a hn
  subBand := subBand_iff hb hl hw.length.2 hmask
  noSubBand := noSubBand_iff hb hl hw.length.2 hmask
  fixed a f hf := by
    constructor
    · intro h
      rcases fixedChannel_cases hb hl hw hmask a with ⟨channel, f', hlt, hsingle, hf', h'⟩ | ⟨-, h'⟩
      · rw [h] at h'
        cases h'
        exact ⟨channel, hlt, hsingle, hf'⟩
      · rw [h] at h'
        cases h'
        exact absurd rfl hf
    · rintro ⟨channel, -, hsingle, hcentre⟩
      rcases fixedChannel_cases hb hl hw hmask a with ⟨channel', f', -, hsingle', hf', h'⟩ | ⟨hno, -⟩
      · have hsame : f = f' := by
          rw [← UInt32.toNat_inj, hcentre, hf', hsingle.unique hsingle']
        rw [hsame]
        exact h'
      · exact absurd hsingle (hno channel)
  noFixed a := by
    constructor
    · intro h
      rcases fixedChannel_cases hb hl hw hmask a with ⟨channel, f', -, -, hf', h'⟩ | ⟨hno, -⟩
      · rw [h] at h'
        cases h'
        exact absurd rfl (toNat_ne_zero hf')
      · exact hno
    · intro hno
      rcases fixedChannel_cases hb hl hw hmask a with ⟨channel, f', -, hsingle, -, -⟩ | ⟨-, h'⟩
      · exact absurd hsingle (hno channel)
      · exact h'

/-! ### What the setters store -/

theorem Working.load (hw : Working a) (c : CredentialStore) : (ensureLoadedLocked a c).1 = .ok () := by
  have hreads : ∀ ks, firstError a.read ks = none := by
    intro ks
    induction ks with
    | nil => rfl
    | cons k ks ih =>
      obtain ⟨r, hr⟩ := hw.read k
      rw [firstError, hr]
      exact ih
  rcases ensureLoadedLocked_cases a c with ⟨h, -⟩ | ⟨e, he, -⟩
  · exact h
  · rw [loadCandidate_eq, hreads] at he
    cases he

/-- Where nothing stands in the way a valid mask is stored, and no mask lifts the restriction. -/
theorem setMask_working (hw : Working a) (hj : c.joinActive = false) {mask : Option (Vector UInt16 6)}
    (hvalid : ∀ m, mask = some m → channelMaskValid m = true) :
    ∃ c', Lorawan.setChannelMask mask a c = (.ok (), c') ∧ c'.loaded = true ∧
      c'.joinActive = false ∧ maskInUse c' = mask.getD allChannels := by
  have hok : ∃ c', Lorawan.setChannelMask mask a c = (.ok (), c') := by
    have hany : ¬ mask.any (!channelMaskValid ·) = true := by
      cases mask with
      | none => simp
      | some m => simp [hvalid m rfl]
    have hload := hw.load c
    have hactive := ensureLoadedLocked_joinActive a c
    rw [Lorawan.setChannelMask, if_neg hany, setLocked]
    generalize ensureLoadedLocked a c = r at hload hactive
    obtain ⟨rc, c₁⟩ := r
    cases hload
    dsimp only at hactive ⊢
    rw [if_neg (by simp [hactive, hj]), hw.write]
    exact ⟨_, rfl⟩
  obtain ⟨c', hc'⟩ := hok
  obtain ⟨hl, hmask, hset⟩ := setChannelMask_ok hc'
  have hactive := @Setter.call_joinActive ⟨true, true, true, .us915⟩ (.channelMask mask) a c
  rw [Setter.call, hc'] at hactive
  refine ⟨c', hc', hl, hactive.trans hj, ?_⟩
  rw [maskInUse, hmask, hset]
  cases mask with
  | none => rw [Option.isSome_none, if_neg Bool.false_ne_true, Option.getD_none]
  | some m => rw [Option.isSome_some, if_pos rfl, Option.getD_some, Option.getD_some]

theorem liftMask_working (hw : Working a) (hj : c.joinActive = false) :
    ∃ c', Lorawan.setChannelMask none a c = (.ok (), c') ∧ c'.loaded = true ∧
      c'.joinActive = false ∧ maskInUse c' = allChannels := by
  obtain ⟨c', hc', hl, hj', hmask⟩ :=
    setMask_working hw hj (show ∀ m, none = some m → channelMaskValid m = true from fun _ h => nomatch h)
  rw [Option.getD_none] at hmask
  exact ⟨c', hc', hl, hj', hmask⟩

theorem someMask_working (hw : Working a) (hj : c.joinActive = false) {mask : Vector UInt16 6}
    (hvalid : channelMaskValid mask = true) :
    ∃ c', Lorawan.setChannelMask (some mask) a c = (.ok (), c') ∧ c'.loaded = true ∧
      c'.joinActive = false ∧ maskInUse c' = mask := by
  have hsome : ∀ m, some mask = some m → channelMaskValid m = true := by
    intro m hm
    rwa [← Option.some.inj hm]
  obtain ⟨c', hc', hl, hj', hmask⟩ := setMask_working hw hj hsome
  rw [Option.getD_some] at hmask
  exact ⟨c', hc', hl, hj', hmask⟩

theorem storeMask_working (hw : Working a) (hj : c.joinActive = false) {mask : Vector UInt16 6}
    (hvalid : channelMaskValid mask = true) :
    ∃ c', storeMask mask a c = (.ok (), c') ∧ c'.loaded = true ∧ c'.joinActive = false ∧
      maskInUse c' = mask := by
  unfold storeMask
  by_cases hall : mask = allChannels
  · rw [if_pos hall]
    obtain ⟨c', hc', hl, hj', hmask⟩ := liftMask_working hw hj
    exact ⟨c', hc', hl, hj', hmask.trans hall.symm⟩
  · rw [if_neg hall]
    exact someMask_working hw hj hvalid

theorem PlanMask.valid (h : PlanMask words) : channelMaskValid (ofWords words) = true := by
  rw [channelMaskValid_iff]
  have henabled : ∀ i, channelEnabled (ofWords words) i = wordEnabled words i :=
    ofWords_enabled h.length.2
  simp only [henabled]
  exact ⟨h.some, h.below⟩

theorem allChannels_valid : channelMaskValid allChannels = true := by
  rw [channelMaskValid_iff]
  simp only [allChannels_enabled, decide_eq_true_eq]
  exact ⟨⟨0, by decide⟩, fun i hi => hi⟩

theorem subBandChannels_valid {n : Nat} (h₁ : 1 ≤ n) (h₈ : n ≤ 8) :
    channelMaskValid (subBandChannels n) = true := by
  rw [channelMaskValid_iff]
  simp only [subBandChannels_enabled h₁ h₈, decide_eq_true_eq]
  refine ⟨⟨63 + n, .inr rfl⟩, fun i hi => ?_⟩
  unfold InSubBand at hi
  omega

theorem single_valid {channel : Nat} (h : channel < 72) :
    channelMaskValid (putChannel (.replicate 6 0) channel) = true := by
  rw [channelMaskValid_iff]
  simp only [single_enabled (show channel < 96 by omega), decide_eq_true_eq]
  exact ⟨⟨channel, rfl⟩, fun i hi => hi ▸ h⟩

theorem setSubBand_working (hb : HasPlan build) (hw : Working a) (hj : c.joinActive = false) {n : UInt8}
    (hn : n.toNat ≤ 8) : ∃ c', setSubBand build n a c = (.ok (), c') ∧ c'.loaded = true ∧
      maskInUse c' = if n = 0 then allChannels else subBandChannels n.toNat := by
  obtain ⟨plan, hfill, -⟩ := hb.fill
  rw [setSubBand, hfill]
  dsimp only
  rw [if_neg (by rw [subBands]; omega)]
  by_cases hzero : n = 0
  · rw [if_pos hzero, if_pos hzero]
    obtain ⟨c', hc', hl, -, hmask⟩ := liftMask_working hw hj
    exact ⟨c', hc', hl, hmask⟩
  · have hpos : 1 ≤ n.toNat := by
      have hne : n.toNat ≠ 0 := fun h => hzero (UInt8.toNat_inj.1 h)
      omega
    rw [if_neg hzero, if_neg hzero]
    obtain ⟨c', hc', hl, -, hmask⟩ := storeMask_working hw hj (subBandChannels_valid hpos hn)
    exact ⟨c', hc', hl, hmask⟩

theorem setFixedChannel_zero (hb : HasPlan build) (hw : Working a) (hj : c.joinActive = false) :
    ∃ c', setFixedChannel build 0 a c = (.ok (), c') ∧ c'.loaded = true ∧ maskInUse c' = allChannels := by
  obtain ⟨plan, hfill, -⟩ := hb.fill
  rw [setFixedChannel, hfill]
  dsimp only
  rw [if_pos rfl]
  obtain ⟨c', hc', hl, -, hmask⟩ := liftMask_working hw hj
  exact ⟨c', hc', hl, hmask⟩

theorem setFixedChannel_working (hb : HasPlan build) (hw : Working a) (hj : c.joinActive = false)
    {f : UInt32} {channel : Nat} (hlt : channel < 72) (hf : f.toNat = centreHz build.region channel) :
    ∃ c', setFixedChannel build f a c = (.ok (), c') ∧ c'.loaded = true ∧
      maskInUse c' = putChannel (.replicate 6 0) channel := by
  obtain ⟨plan, hfill, htuned⟩ := hb.fill
  rw [setFixedChannel, hfill]
  dsimp only
  rw [if_neg (toNat_ne_zero hf), htuned.frequencyChannel hlt hf]
  obtain ⟨c', hc', hl, -, hmask⟩ := someMask_working hw hj (single_valid hlt)
  exact ⟨c', hc', hl, hmask⟩

/-! ### The views together -/

/-- Writing back what a view reports leaves all three as they are. -/
structure Restores (words : List UInt16) (build : Build) (c : CredentialStore) : Prop where
  subBand : ∀ a n, Working a → getSubBand build true a c = (.ok n, c) →
    ∃ c', setSubBand build n a c = (.ok (), c') ∧ Reports words build c'
  fixed : ∀ a f, Working a → f ≠ 0 → getFixedChannel build true a c = (.ok f, c) →
    ∃ c', setFixedChannel build f a c = (.ok (), c') ∧ Reports words build c'

theorem restores (hb : HasPlan build) (hl : c.loaded = true) (hj : c.joinActive = false)
    (hp : PlanMask words) (hmask : maskInUse c = ofWords words) : Restores words build c where
  subBand a n hw hget := by
    have hn := ((reports hb hl hp hmask).subBand a n).1 hget
    have h₈ : n.toNat ≤ 8 := by
      rcases hn with ⟨rfl, -⟩ | ⟨-, h₈, -⟩
      · decide
      · exact h₈
    obtain ⟨c', hc', hl', hmask'⟩ := setSubBand_working hb hw hj h₈
    refine ⟨c', hc', reports hb hl' hp (hmask'.trans ?_)⟩
    rcases hn with ⟨rfl, hall⟩ | ⟨h₁, -, hband⟩
    · rw [if_pos rfl, (isAll_iff hp.length.2).2 hall]
    · have hne : n ≠ 0 := by
        rintro rfl
        exact absurd h₁ (by decide)
      rw [if_neg hne, (isSubBand_iff hp.length.2 h₁ h₈).2 hband]
  fixed a f hw hf hget := by
    obtain ⟨channel, hlt, hsingle, hcentre⟩ := ((reports hb hl hp hmask).fixed a f hf).1 hget
    obtain ⟨c', hc', hl', hmask'⟩ := setFixedChannel_working hb hw hj hlt hcentre
    refine ⟨c', hc', reports hb hl' hp (hmask'.trans (Eq.symm ?_))⟩
    refine (mask_eq_iff hp.length.2).2 fun i => ?_
    rw [single_enabled (by omega), decide_eq_true_eq]
    exact hsingle i

theorem setChannelMask_eq (hb : HasPlan build) (a : Answers) (c : CredentialStore)
    (h₅ : 5 ≤ words.length) (h₆ : words.length ≤ 6) :
    setChannelMask build words a c = storeMask (ofWords words) a c := by
  have hwords : ¬ (words = [] ∨ 6 < words.length) := by
    rintro (rfl | h)
    · exact absurd h₅ (by decide)
    · omega
  rw [setChannelMask, if_neg hwords, hb.channelPlan]
  exact if_neg (Nat.not_lt.2 h₅)

theorem setChannelMask_working (hb : HasPlan build) (hw : Working a) (hj : c.joinActive = false)
    (hp : PlanMask words) : ∃ c', setChannelMask build words a c = (.ok (), c') ∧ c'.loaded = true ∧
      c'.joinActive = false ∧ maskInUse c' = ofWords words := by
  rw [setChannelMask_eq hb a c hp.length.1 hp.length.2]
  exact storeMask_working hw hj hp.valid

/-- The masks that are no masks of the plan are refused before anything is read or written. -/
theorem setChannelMask_rejected (hb : HasPlan build) (a : Answers) (c : CredentialStore)
    (h₅ : 5 ≤ words.length) (h₆ : words.length ≤ 6) (hp : ¬ PlanMask words) :
    setChannelMask build words a c = (.error .invalid, c) := by
  have hinvalid : channelMaskValid (ofWords words) = false := by
    rw [← Bool.not_eq_true, channelMaskValid_iff]
    have henabled : ∀ i, channelEnabled (ofWords words) i = wordEnabled words i := ofWords_enabled h₆
    simp only [henabled]
    exact fun h => hp ⟨⟨h₅, h₆⟩, h.1, h.2⟩
  have hfull : ofWords words ≠ allChannels := by
    intro hall
    rw [hall, allChannels_valid] at hinvalid
    cases hinvalid
  rw [setChannelMask_eq hb a c h₅ h₆, storeMask, if_neg hfull, Lorawan.setChannelMask,
    if_pos (by simp [hinvalid])]

theorem setSubBand_rejected (hb : HasPlan build) (a : Answers) (c : CredentialStore) {n : UInt8}
    (h : 8 < n.toNat) : setSubBand build n a c = (.error .invalid, c) := by
  obtain ⟨plan, hfill, -⟩ := hb.fill
  rw [setSubBand, hfill]
  exact if_pos h

theorem setFixedChannel_rejected (hb : HasPlan build) (a : Answers) (c : CredentialStore) {f : UInt32}
    (hf : f ≠ 0) (h : ∀ channel, channel < 72 → f.toNat ≠ centreHz build.region channel) :
    setFixedChannel build f a c = (.error .invalid, c) := by
  obtain ⟨plan, hfill, htuned⟩ := hb.fill
  rw [setFixedChannel, hfill]
  dsimp only
  rw [if_neg hf, htuned.frequencyChannel_none h]

theorem ofWords_toList (mask : Vector UInt16 6) : ofWords mask.toList = mask := by
  refine Vector.ext fun i _ => ?_
  simp [ofWords]

theorem planMask_toList {mask : Vector UInt16 6} (h : channelMaskValid mask = true) :
    PlanMask mask.toList := by
  obtain ⟨hsome, hbelow⟩ := channelMaskValid_iff.1 h
  exact ⟨by rw [Vector.length_toList]; exact ⟨by decide, by decide⟩, hsome, hbelow⟩

/-- What is set in a view is what the view reports. -/
theorem getSubBand_set (hb : HasPlan build) (hw : Working a) (hj : c.joinActive = false) {n : UInt8}
    (hn : n.toNat ≤ 8) : ∃ c', setSubBand build n a c = (.ok (), c') ∧
      ∀ a', getSubBand build true a' c' = (.ok n, c') := by
  obtain ⟨c', hc', hl, hmask⟩ := setSubBand_working hb hw hj hn
  refine ⟨c', hc', fun a' => ?_⟩
  rw [← ofWords_toList (ite _ _ _)] at hmask
  refine (subBand_iff hb hl (by simp) hmask a' n).2 ?_
  by_cases hzero : n = 0
  · rw [if_pos hzero]
    exact .inl ⟨hzero, fun i => by rw [← decide_eq_true_eq (p := i < 72), ← allChannels_enabled i]; rfl⟩
  · have hpos : 1 ≤ n.toNat := by
      have hne : n.toNat ≠ 0 := fun h => hzero (UInt8.toNat_inj.1 h)
      omega
    rw [if_neg hzero]
    refine .inr ⟨hpos, hn, fun i => ?_⟩
    have henabled := subBandChannels_enabled hpos hn i
    rw [show wordEnabled (subBandChannels n.toNat).toList i = _ from henabled, decide_eq_true_eq]

theorem getFixedChannel_set (hb : HasPlan build) (hw : Working a) (hj : c.joinActive = false)
    {f : UInt32}
    (hf : f = 0 ∨ ∃ channel, channel < 72 ∧ f.toNat = centreHz build.region channel) :
    ∃ c', setFixedChannel build f a c = (.ok (), c') ∧
      ∀ a', getFixedChannel build true a' c' = (.ok f, c') := by
  rcases hf with rfl | ⟨channel, hlt, hcentre⟩
  · obtain ⟨c', hc', hl, hmask⟩ := setFixedChannel_zero hb hw hj
    refine ⟨c', hc', fun a' => ?_⟩
    have hreports := reports hb hl (planMask_toList allChannels_valid)
      (hmask.trans (ofWords_toList _).symm)
    refine (hreports.noFixed a').2 fun channel h => ?_
    have h₀ := (h 0).1 (allChannels_enabled 0)
    have h₁ := (h 1).1 (allChannels_enabled 1)
    omega
  · obtain ⟨c', hc', hl, hmask⟩ := setFixedChannel_working hb hw hj hlt hcentre
    refine ⟨c', hc', fun a' => ?_⟩
    have hreports := reports hb hl (planMask_toList (single_valid hlt))
      (hmask.trans (ofWords_toList _).symm)
    refine (hreports.fixed a' f (toNat_ne_zero hcentre)).2 ⟨channel, hlt, fun i => ?_, hcentre⟩
    have henabled := single_enabled (show channel < 96 by omega) i
    rw [show wordEnabled (putChannel (.replicate 6 0) channel).toList i = _ from henabled,
      decide_eq_true_eq]

/-- For every mask of the plan: it is stored, the three views report it, and each view gives back what
it is given. What is no mask of the plan, no sub-band and no frequency of the plan is refused and
changes nothing; 0 lifts the restriction in both views. -/
theorem mask_views (hb : HasPlan build) :
    (∀ a c, Working a → c.joinActive = false → ∀ words, PlanMask words →
      ∃ c', setChannelMask build words a c = (.ok (), c') ∧ Reports words build c' ∧
        Restores words build c') ∧
    (∀ a c, Working a → c.joinActive = false →
      (∀ n : UInt8, n.toNat ≤ 8 → ∃ c', setSubBand build n a c = (.ok (), c') ∧
        ∀ a', getSubBand build true a' c' = (.ok n, c')) ∧
      ∀ f : UInt32, f = 0 ∨ (∃ channel, channel < 72 ∧ f.toNat = centreHz build.region channel) →
        ∃ c', setFixedChannel build f a c = (.ok (), c') ∧
          ∀ a', getFixedChannel build true a' c' = (.ok f, c')) ∧
    ∀ a c, (∀ words : List UInt16, 5 ≤ words.length → words.length ≤ 6 →
        ((∀ channel, wordEnabled words channel = false) ∨
          ∃ channel, 72 ≤ channel ∧ wordEnabled words channel = true) →
        setChannelMask build words a c = (.error .invalid, c)) ∧
      (∀ n : UInt8, 8 < n.toNat → setSubBand build n a c = (.error .invalid, c)) ∧
      ∀ f : UInt32, f ≠ 0 → (∀ channel, channel < 72 → f.toNat ≠ centreHz build.region channel) →
        setFixedChannel build f a c = (.error .invalid, c) := by
  refine ⟨fun a c hw hj words hp => ?_, fun a c hw hj => ?_, fun a c => ?_⟩
  · obtain ⟨c', hc', hl, hj', hmask⟩ := setChannelMask_working hb hw hj hp
    exact ⟨c', hc', reports hb hl hp hmask, restores hb hl hj' hp hmask⟩
  · exact ⟨fun n hn => getSubBand_set hb hw hj hn, fun f hf => getFixedChannel_set hb hw hj hf⟩
  · refine ⟨fun words h₅ h₆ hbad => ?_, fun n => setSubBand_rejected hb a c,
      fun f => setFixedChannel_rejected hb a c⟩
    refine setChannelMask_rejected hb a c h₅ h₆ fun hp => ?_
    rcases hbad with hnone | ⟨channel, hge, hon⟩
    · obtain ⟨channel, hon⟩ := hp.some
      rw [hnone channel] at hon
      cases hon
    · exact absurd (hp.below channel hon) (by omega)

/-- A build for US915. -/
def usBuild : Build := ⟨true, true, true, .us915⟩

theorem mask_views_sub_band : ∃ c', setChannelMask usBuild [0xff00, 0, 0, 0, 0x0002] defaultAnswers .empty =
      (.ok (), c') ∧ Reports [0xff00, 0, 0, 0, 0x0002] usBuild c' ∧
        Restores [0xff00, 0, 0, 0, 0x0002] usBuild c' := by
  refine (mask_views (show HasPlan usBuild from ⟨rfl, .inl rfl⟩)).1 defaultAnswers .empty
    ⟨fun k => ⟨_, rfl⟩, fun _ _ => rfl⟩ rfl _ ⟨⟨by decide, by decide⟩, ⟨8, by decide⟩, fun channel hon => ?_⟩
  by_contra hge
  rcases Nat.lt_or_ge channel 80 with hlt | hge'
  · obtain ⟨k, rfl⟩ := Nat.exists_eq_add_of_le (Nat.le_of_not_lt hge)
    have hall : ∀ k, k < 8 → wordEnabled [0xff00, 0, 0, 0, 0x0002] (72 + k) = false := by decide
    rw [hall k (by omega)] at hon
    cases hon
  · rw [wordEnabled_of_length_le (by rw [List.length_cons]; simp; omega)] at hon
    cases hon

/-- A store with the channels of the second sub-band. -/
def secondSubBand : CredentialStore :=
  { CredentialStore.empty with
    channelMask := #v[0xff00, 0, 0, 0, 0x0002, 0]
    channelMaskSet := true
    loaded := true }

/-- 0 is no centre, and yet `rzi_lorawan_set_fixed_channel` takes it and lifts the restriction. -/
theorem zero_lifts_the_mask : ¬ ∀ f : UInt32,
    (∀ channel, channel < 72 → f.toNat ≠ centreHz .us915 channel) →
      ∃ e, setFixedChannel usBuild f defaultAnswers secondSubBand = (.error e, secondSubBand) := by
  intro h
  obtain ⟨e, he⟩ := h 0 fun channel _ heq => toNat_ne_zero heq rfl
  have hplan : HasPlan usBuild := ⟨rfl, .inl rfl⟩
  have hworking : Working defaultAnswers := ⟨fun k => ⟨_, rfl⟩, fun _ _ => rfl⟩
  obtain ⟨c', hc', -⟩ := setFixedChannel_zero hplan hworking (c := secondSubBand) rfl
  rw [he] at hc'
  cases hc'

end Rzi.Lorawan.Channel
