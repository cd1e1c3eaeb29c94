import Rzi.AtService
import Rzi.ChannelViews
import Rzi.Lib.Strtol

/-!
# Channel masks from the AT interface (`commands/lorawan/at_lorawan_supplementary.c`)

AT+MASK and AT+CHE write the mask of `Rzi.ChannelMask` group by group, eight blocks of narrow channels
and the wide channels, and print the groups that are full. `channel_texts` says that what is printed
is what was written, and that it can be written back. The arguments are parsed with a `long` of 32 bits.
-/

namespace Rzi.At.Channels
open Strtol
open Lorawan (Answers Build CredentialStore channelEnabled)
open Lorawan.Channel

/-! ### Groups -/

/-- NARROW_BLOCKS, which is also WIDE_GROUP. -/
def narrowBlocks : Nat := 8

/-- GROUPS. -/
def groupCount : Nat := 9

/-- MASK_ALL. -/
def maskAll : Nat := 0x1ff

def groupFirst (group : Nat) : Nat := if group = narrowBlocks then 64 else group * 8

def putGroup (mask : Vector UInt16 6) (group : Nat) : Vector UInt16 6 :=
  (List.range' (groupFirst group) 8).foldl putChannel mask

def enabledInGroup (mask : List UInt16) (group : Nat) : Nat :=
  (List.range' (groupFirst group) 8).foldl
    (fun enabled channel => enabled + if wordEnabled mask channel then 1 else 0) 0

/-- `BIT`. -/
def bit (group : Nat) : UInt16 := 1 <<< UInt16.ofNat group

/-- One turn of the loop of `read_groups`, on `full` and `partial`. -/
def groupStep (mask : List UInt16) (r : UInt16 × UInt16) (group : Nat) : UInt16 × UInt16 :=
  (if enabledInGroup mask group = 8 then r.1 ||| bit group else r.1,
    if enabledInGroup mask group ≠ 0 then r.2 ||| bit group else r.2)

/-- The full groups of a mask, or those it has a channel of if none is full. -/
def groupsOf (mask : List UInt16) : UInt16 :=
  let r := (List.range groupCount).foldl (groupStep mask) (0, 0)
  if r.1 ≠ 0 then r.1 else r.2

def readGroups (build : Build) (a : Answers) (c : CredentialStore) :
    Except Err UInt16 × CredentialStore :=
  match getChannelMask build a 6 c with
  | (.error e, c) => (.error e, c)
  | (.ok mask, c) => (.ok (groupsOf mask), c)

def writeMask (build : Build) (mask : Vector UInt16 6) (a : Answers) (c : CredentialStore) :
    Except Err Answer × CredentialStore :=
  match setChannelMask build mask.toList a c with
  | (.error e, c) => (.error e, c)
  | (.ok (), c) => (.ok .ok, c)

/-! ### AT+MASK -/

/-- A digit of `%X`. -/
def hexDigit (n : Nat) : UInt8 := UInt8.ofNat (if n < 10 then 0x30 + n else 0x37 + n)

/-- `%04X`. -/
def hex4 (value : UInt16) : List UInt8 :=
  [hexDigit (value.toNat / 4096), hexDigit (value.toNat / 256 % 16), hexDigit (value.toNat / 16 % 16),
    hexDigit (value.toNat % 16)]

/-- The value that AT+MASK takes from its argument. -/
def maskValue (argument : List UInt8) : Except Err Nat :=
  if argument.length ≠ 4 then .error .invalid
  else
    let (value, rest) := strtoul 32 16 argument
    if rest = argument ∨ rest ≠ [] ∨ value &&& (2 ^ 32 - 1 - maskAll) ≠ 0 then .error .invalid
    else .ok value

/-- The mask of a value that is not 0. -/
def valueMask (value : Nat) : Vector UInt16 6 :=
  let mask := (List.range narrowBlocks).foldl (fun mask block =>
    if value.testBit block then putChannel (putGroup mask block) (fixedPlanWide + block) else mask)
    (.replicate 6 0)
  if value.testBit narrowBlocks then putGroup mask narrowBlocks else mask

def handleMask (build : Build) (operation : Operation) (argument : List UInt8) (a : Answers)
    (c : CredentialStore) : Except Err Answer × CredentialStore :=
  if operation = .read then
    match readGroups build a c with
    | (.error e, c) => (.error e, c)
    | (.ok groups, c) => (.ok (.value (ascii "AT+MASK=" ++ hex4 groups)), c)
  else
    match maskValue argument with
    | .error e => (.error e, c)
    | .ok value => writeMask build (valueMask (if value = 0 then maskAll else value)) a c

/-! ### AT+CHE -/

/-- The size of `list`. -/
def listSize : Nat := groupCount * 2 + 1

/-- One `snprintf` at `used` into `list`: as much of the text as fits before the NUL. -/
def printGroup (groups : UInt16) (r : List UInt8 × Nat) (group : Nat) : List UInt8 × Nat :=
  if groups.toNat.testBit group then
    let text := (if r.2 = 0 then [] else [0x3a]) ++ decimal (group + 1)
    (r.1 ++ text.take (listSize - r.2 - 1), r.2 + text.length)
  else r

/-- What is in `list` after the groups below `n`, and `used`. -/
def printGroups (groups : UInt16) (n : Nat) : List UInt8 × Nat :=
  (List.range n).foldl (printGroup groups) ([], 0)

/-- The loop of `handle_che`, with the number of turns that `count` leaves. -/
def cheLoop : Nat → List UInt8 → Vector UInt16 6 → Except Err (Vector UInt16 6)
  | 0, _, _ => .error .invalid
  | left + 1, cursor, mask =>
    let (value, rest) := strtoul 32 10 cursor
    if rest = cursor ∨ value < 1 ∨ groupCount < value ∨ rest.head? ≠ some 0x3a ∧ rest ≠ [] then
      .error .invalid
    else if rest = [] then .ok (putGroup mask (value - 1))
    else cheLoop left rest.tail (putGroup mask (value - 1))

def handleChe (build : Build) (operation : Operation) (argument : List UInt8) (a : Answers)
    (c : CredentialStore) : Except Err Answer × CredentialStore :=
  if operation = .read then
    match readGroups build a c with
    | (.error e, c) => (.error e, c)
    | (.ok groups, c) =>
      if groups.toNat = maskAll then (.ok (.value (ascii "AT+CHE=0")), c)
      else (.ok (.value (ascii "AT+CHE=" ++ (printGroups groups groupCount).1)), c)
  else if argument = ascii "0" then
    writeMask build ((List.range narrowBlocks).foldl putGroup (putGroup (.replicate 6 0) narrowBlocks)) a c
  else
    match cheLoop groupCount argument (.replicate 6 0) with
    | .error e => (.error e, c)
    | .ok mask => writeMask build mask a c

/-! ### Which groups are full -/

/-- Every channel of the group is enabled. -/
def Full (mask : List UInt16) (group : Nat) : Prop :=
  ∀ i, 8 * group ≤ i → i < 8 * group + 8 → wordEnabled mask i = true

variable {mask mask' : Vector UInt16 6} {words : List UInt16} {group : Nat}

theorem groupFirst_eq (group : Nat) : groupFirst group = 8 * group := by
  unfold groupFirst narrowBlocks
  split <;> omega

theorem putGroup_enabled (mask : Vector UInt16 6) (h : group < groupCount) (i : Nat) :
    channelEnabled (putGroup mask group) i =
      (channelEnabled mask i || decide (8 * group ≤ i ∧ i < 8 * group + 8)) := by
  rw [groupCount] at h
  rw [putGroup, groupFirst_eq, foldl_putChannel_enabled]
  · simp only [List.mem_range'_1]
  · intro channel hmem
    rw [List.mem_range'_1] at hmem
    omega

theorem enabledInGroup_eq (mask : List UInt16) (group : Nat) :
    enabledInGroup mask group = (List.range' (8 * group) 8).countP (wordEnabled mask) := by
  have hcount : ∀ (channels : List Nat) (n : Nat), channels.foldl
      (fun enabled channel => enabled + if wordEnabled mask channel then 1 else 0) n =
        n + channels.countP (wordEnabled mask) := by
    intro channels
    induction channels with
    | nil => exact fun _ => rfl
    | cons channel channels ih =>
      intro n
      rw [List.foldl_cons, ih, List.countP_cons, Nat.add_assoc,
        Nat.add_comm (List.countP _ _) (ite _ _ _)]
  rw [enabledInGroup, groupFirst_eq, hcount, Nat.zero_add]

theorem enabledInGroup_full : enabledInGroup words group = 8 ↔ Full words group := by
  have hcount := List.countP_eq_length (p := wordEnabled words) (l := List.range' (8 * group) 8)
  rw [List.length_range'] at hcount
  rw [enabledInGroup_eq, hcount]
  constructor
  · exact fun h i hlo hhi => h i (List.mem_range'_1.2 ⟨hlo, hhi⟩)
  · intro h i hmem
    obtain ⟨hlo, hhi⟩ := List.mem_range'_1.1 hmem
    exact h i hlo hhi

theorem bit_testBit {group : Nat} (h : group < 16) (i : Nat) :
    (bit group).toNat.testBit i = decide (i = group) := by
  have hall : ∀ k, k < 16 → (bit k).toNat = 2 ^ k := by decide
  rw [hall group h, Nat.testBit_two_pow]
  exact decide_eq_decide.2 eq_comm

/-- The loop has collected the full groups, and those that are not empty. -/
theorem foldl_groupStep (mask : List UInt16) (gs : List Nat) (h : ∀ g ∈ gs, g < 16)
    (r : UInt16 × UInt16) (i : Nat) :
    (gs.foldl (groupStep mask) r).1.toNat.testBit i =
        (r.1.toNat.testBit i || decide (i ∈ gs ∧ enabledInGroup mask i = 8)) := by
  induction gs generalizing r with
  | nil => simp
  | cons g gs ih =>
    rw [List.foldl_cons, ih fun k hk => h k (List.mem_cons_of_mem g hk)]
    have hg := h g List.mem_cons_self
    by_cases hfull : enabledInGroup mask g = 8
    · have hstep : (groupStep mask r g).1 = r.1 ||| bit g := if_pos hfull
      rw [hstep, UInt16.toNat_or, Nat.testBit_or, bit_testBit hg]
      by_cases hi : i = g
      · simp [hi, hfull]
      · simp [hi]
    · have hstep : (groupStep mask r g).1 = r.1 := if_neg hfull
      rw [hstep]
      by_cases hi : i = g
      · simp [hi, hfull]
      · simp [hi]

/-- Where a group is full, the full groups are reported. -/
theorem groupsOf_testBit (hsome : ∃ g, g < groupCount ∧ Full words g) (i : Nat) :
    (groupsOf words).toNat.testBit i = true ↔ i < groupCount ∧ Full words i := by
  have hloop : ∀ i, ((List.range groupCount).foldl (groupStep words) (0, 0)).1.toNat.testBit i = true ↔
      i < groupCount ∧ Full words i := by
    intro i
    rw [foldl_groupStep words _ (fun g hg => (List.mem_range.1 hg).trans (by decide)), Bool.or_eq_true,
      decide_eq_true_eq, List.mem_range, enabledInGroup_full]
    simp
  obtain ⟨g, hg⟩ := hsome
  have hne : ((List.range groupCount).foldl (groupStep words) (0, 0)).1 ≠ 0 := by
    intro hzero
    have hbit := (hloop g).2 hg
    rw [hzero] at hbit
    simp at hbit
  have hgroups : groupsOf words = ((List.range groupCount).foldl (groupStep words) (0, 0)).1 := if_pos hne
  rw [hgroups]
  exact hloop i

/-! ### What is stored and what is read back -/

variable {build : Build} {a : Answers} {c c' : CredentialStore} {value : Nat} {answer : Answer}

/-- A stored mask is what `read_mask` reads from then on, and storing it again changes nothing. -/
structure Holds (build : Build) (mask : Vector UInt16 6) (c : CredentialStore) : Prop where
  plan : HasPlan build
  loaded : c.loaded = true
  inUse : maskInUse c = mask
  channelMask : c.channelMask = (if mask = allChannels then none else some mask).getD (.replicate 6 0)
  channelMaskSet : c.channelMaskSet = (if mask = allChannels then none else some mask).isSome

theorem channelPlan_ok (h : channelPlan build = .ok ()) : HasPlan build := by
  unfold channelPlan at h
  split at h
  · cases h
  rename_i hcap
  split at h
  · rename_i hregion
    exact ⟨by simpa using hcap, hregion⟩
  · cases h

theorem writeMask_ok (h : writeMask build mask a c = (.ok answer, c')) :
    answer = .ok ∧ Holds build mask c' := by
  unfold writeMask at h
  split at h
  · cases h
  rename_i c₁ hset
  cases h
  refine ⟨rfl, ?_⟩
  unfold setChannelMask at hset
  split at hset
  · cases hset
  split at hset
  · cases hset
  rename_i hplan
  split at hset
  · cases hset
  rw [ofWords_toList, storeMask] at hset
  obtain ⟨hloaded, hmask, hisSet⟩ := setChannelMask_ok hset
  refine ⟨channelPlan_ok hplan, hloaded, ?_, hmask, hisSet⟩
  rw [maskInUse, hmask, hisSet]
  by_cases hall : mask = allChannels
  · rw [if_pos hall, Option.isSome_none, if_neg Bool.false_ne_true, hall]
  · rw [if_neg hall, Option.isSome_some, if_pos rfl, Option.getD_some]

theorem setChannelMask_same {set : Option (Vector UInt16 6)} (hl : c.loaded = true)
    (hmask : c.channelMask = set.getD (.replicate 6 0)) (hset : c.channelMaskSet = set.isSome)
    (a : Answers) : (Lorawan.setChannelMask set a c).2 = c := by
  unfold Lorawan.setChannelMask Lorawan.setLocked
  split
  · rfl
  · rw [Lorawan.ensureLoadedLocked_of_loaded hl]
    dsimp only
    split
    · rfl
    · split
      · rfl
      · rw [← hmask, ← hset]

/-- Writing the mask that is stored. -/
theorem Holds.again (h : Holds build mask c) (a : Answers) :
    (writeMask build mask a c).2 = c := by
  have hstore : (storeMask mask a c).2 = c :=
    setChannelMask_same h.loaded h.channelMask h.channelMaskSet a
  have hset : (setChannelMask build mask.toList a c).2 = c := by
    unfold setChannelMask
    split
    · rfl
    · split
      · rfl
      · split
        · rfl
        · rw [ofWords_toList]
          exact hstore
  unfold writeMask
  split <;> rename_i heq <;> rw [heq] at hset <;> exact hset

theorem writeMask_working (hb : HasPlan build) (hw : Working a) (hj : c.joinActive = false)
    (hvalid : Lorawan.channelMaskValid mask = true) : (writeMask build mask a c).1 = .ok .ok := by
  obtain ⟨c', hc', -⟩ := setChannelMask_working hb hw hj (planMask_toList hvalid)
  rw [writeMask, hc']

theorem Holds.readGroups (h : Holds build mask c) (a : Answers) :
    readGroups build a c = (.ok (groupsOf mask.toList), c) := by
  have hget := getChannelMask_loaded build h.loaded h.plan.cap
    (by simpa [Zephyr.Region.hasFixedPlan] using h.plan.region) a
  have hkeep := getChannelMask_words h.plan h.loaded (show mask.toList.length ≤ 6 by simp)
    (h.inUse.trans (ofWords_toList mask).symm) a (show 5 ≤ 6 by decide)
  rw [hkeep] at hget
  have hinUse : (if c.channelMaskSet then c.channelMask else allChannels) = mask := h.inUse
  rw [hinUse] at hget
  rw [Channels.readGroups, hkeep]
  dsimp only at hget ⊢
  rw [Except.ok.inj hget]

/-! ### The masks of AT+MASK -/

/-- What block `block` of a value enables: its channels, and its wide channel. -/
def InBlock (block i : Nat) : Prop := 8 * block ≤ i ∧ i < 8 * block + 8 ∨ i = 64 + block

theorem foldl_blocks (value : Nat) (blocks : List Nat) (h : ∀ b ∈ blocks, b < 8)
    (mask : Vector UInt16 6) (i : Nat) :
    channelEnabled (blocks.foldl (fun mask block =>
        if value.testBit block then putChannel (putGroup mask block) (fixedPlanWide + block) else mask)
        mask) i = true ↔
      channelEnabled mask i = true ∨ ∃ b ∈ blocks, value.testBit b = true ∧ InBlock b i := by
  induction blocks generalizing mask with
  | nil => simp
  | cons b blocks ih =>
    have hb := h b List.mem_cons_self
    rw [List.foldl_cons, ih fun k hk => h k (List.mem_cons_of_mem b hk)]
    simp only [List.exists_mem_cons_iff]
    rw [← or_assoc]
    refine or_congr_left ?_
    by_cases hbit : value.testBit b = true
    · rw [if_pos hbit, fixedPlanWide, putChannel_enabled _ (by omega),
        putGroup_enabled _ (by rw [groupCount]; omega), Bool.or_eq_true, Bool.or_eq_true,
        decide_eq_true_eq, decide_eq_true_eq, or_assoc]
      simp only [hbit, true_and, InBlock]
    · rw [if_neg hbit]
      simp [hbit]

theorem valueMask_enabled (value i : Nat) : channelEnabled (valueMask value) i = true ↔
    (∃ b, b < 8 ∧ value.testBit b = true ∧ InBlock b i) ∨
      value.testBit 8 = true ∧ 64 ≤ i ∧ i < 72 := by
  have hblocks := foldl_blocks value (List.range narrowBlocks) (fun b hb => List.mem_range.1 hb)
    (.replicate 6 0) i
  simp only [empty_enabled, Bool.false_eq_true, false_or, List.mem_range] at hblocks
  unfold valueMask
  dsimp only
  by_cases hbit : value.testBit narrowBlocks = true
  · rw [if_pos hbit, putGroup_enabled _ (by decide), Bool.or_eq_true, hblocks, decide_eq_true_eq]
    exact or_congr_right ⟨fun h => ⟨hbit, h⟩, fun h => h.2⟩
  · rw [if_neg hbit, hblocks]
    exact ⟨.inl, fun h => h.elim id fun h => absurd h.1 hbit⟩

/-- The full groups of a value: its bits, and the wide group where every block is set. -/
theorem valueMask_full (value : Nat) (h : group < groupCount) : Full (valueMask value).toList group ↔
    value.testBit group = true ∨ group = 8 ∧ ∀ b, b < 8 → value.testBit b = true := by
  have henabled : ∀ i, wordEnabled (valueMask value).toList i = true ↔
      (∃ b, b < 8 ∧ value.testBit b = true ∧ InBlock b i) ∨
        value.testBit 8 = true ∧ 64 ≤ i ∧ i < 72 := valueMask_enabled value
  rw [groupCount] at h
  simp only [Full, henabled, InBlock]
  constructor
  · intro hfull
    by_cases hwide : group = 8
    · subst hwide
      by_cases hbit : value.testBit 8 = true
      · exact .inl hbit
      · -- each wide channel comes from its block
        refine .inr ⟨rfl, fun b hb => ?_⟩
        rcases hfull (64 + b) (by omega) (by omega) with ⟨b', hb', hbit', hin⟩ | ⟨hbit', -⟩
        · have hsame : b' = b := by omega
          rwa [hsame] at hbit'
        · exact absurd hbit' hbit
    · rcases hfull (8 * group) (by omega) (by omega) with ⟨b, hb, hbit, hin⟩ | ⟨-, hlo, hhi⟩
      · have hsame : b = group := by omega
        exact .inl (hsame ▸ hbit)
      · omega
  · rintro (hbit | ⟨rfl, hall⟩) i hlo hhi
    · by_cases hwide : group = 8
      · subst hwide
        exact .inr ⟨hbit, by omega, by omega⟩
      · exact .inl ⟨group, by omega, hbit, .inl ⟨hlo, hhi⟩⟩
    · exact .inl ⟨i - 64, by omega, hall _ (by omega), .inr (by omega)⟩

theorem lt_of_testBit {value n k : Nat} (hlt : value < 2 ^ n) (hk : value.testBit k = true) : k < n :=
  (Nat.pow_lt_pow_iff_right (by decide)).1 ((Nat.ge_two_pow_of_testBit hk).trans_lt hlt)

theorem valueMask_valid {value : Nat} (hpos : 0 < value) (hlt : value < 512) :
    Lorawan.channelMaskValid (valueMask value) = true := by
  rw [channelMaskValid_iff]
  simp only [valueMask_enabled]
  obtain ⟨k, hk⟩ := Nat.exists_testBit_of_ne_zero (Nat.ne_of_gt hpos)
  have hk₉ : k < 9 := lt_of_testBit hlt hk
  constructor
  · by_cases hwide : k = 8
    · exact ⟨64, .inr ⟨hwide ▸ hk, by decide, by decide⟩⟩
    · exact ⟨8 * k, .inl ⟨k, by omega, hk, .inl ⟨by omega, by omega⟩⟩⟩
  · rintro i (⟨b, hb, -, hin⟩ | ⟨-, -, hlt⟩)
    · unfold InBlock at hin
      omega
    · exact hlt

/-- What AT+MASK=? prints after a value: the value, but for the two that enable everything. -/
def shown (value : Nat) : UInt16 := if value = 0 ∨ value = 0xff then 0x1ff else UInt16.ofNat value

theorem blocks_iff {value : Nat} (hlt : value < 512) :
    (∀ b, b < 8 → value.testBit b = true) ↔ value = 0xff ∨ value = 0x1ff := by
  constructor
  · intro hall
    have hlow : value % 2 ^ 8 = 2 ^ 8 - 1 := by
      refine Nat.eq_of_testBit_eq fun i => ?_
      rw [Nat.testBit_mod_two_pow, Nat.testBit_two_pow_sub_one]
      by_cases hi : i < 8
      · simp [hi, hall i hi]
      · simp [hi]
    omega
  · rintro (rfl | rfl)
    · decide
    · decide

/-- What is read back of the mask of a value. -/
theorem groupsOf_valueMask {value : Nat} (hlt : value < 512) :
    groupsOf (valueMask (if value = 0 then maskAll else value)).toList = shown value := by
  have hpos : 0 < (if value = 0 then maskAll else value) := by
    split
    · decide
    · omega
  have hlt' : (if value = 0 then maskAll else value) < 512 := by
    split
    · decide
    · exact hlt
  have hshown : shown value = if (if value = 0 then maskAll else value) = 0xff then 0x1ff
      else UInt16.ofNat (if value = 0 then maskAll else value) := by
    unfold shown
    by_cases hzero : value = 0
    · rw [if_pos (.inl hzero), if_pos hzero]
      rfl
    · rw [if_neg hzero]
      exact if_congr (by simp [hzero]) rfl rfl
  rw [hshown]
  generalize (if value = 0 then maskAll else value) = v at hpos hlt'
  have hfull : ∀ g, g < groupCount → (Full (valueMask v).toList g ↔
      v.testBit g = true ∨ g = 8 ∧ (v = 0xff ∨ v = 0x1ff)) := by
    intro g hg
    rw [valueMask_full v hg, blocks_iff hlt']
  have hlow : ∀ k, v.testBit k = true → k < groupCount := fun k hk => lt_of_testBit hlt' hk
  have hsome : ∃ g, g < groupCount ∧ Full (valueMask v).toList g := by
    obtain ⟨k, hk⟩ := Nat.exists_testBit_of_ne_zero (Nat.ne_of_gt hpos)
    exact ⟨k, hlow k hk, (hfull k (hlow k hk)).2 (.inl hk)⟩
  refine UInt16.toNat_inj.1 (Nat.eq_of_testBit_eq fun i => Bool.eq_iff_iff.2 ?_)
  rw [groupsOf_testBit hsome]
  by_cases hff : v = 0xff
  · rw [if_pos hff]
    have hall : (0x1ff : UInt16).toNat.testBit i = true ↔ i < groupCount := by
      have hpow : (0x1ff : UInt16).toNat = 2 ^ 9 - 1 := rfl
      rw [hpow, Nat.testBit_two_pow_sub_one, decide_eq_true_eq]
      rfl
    rw [hall]
    refine ⟨And.left, fun hi => ⟨hi, (hfull i hi).2 ?_⟩⟩
    by_cases hwide : i = 8
    · exact .inr ⟨hwide, .inl hff⟩
    · rw [groupCount] at hi
      exact .inl ((blocks_iff hlt').2 (.inl hff) i (by omega))
  · rw [if_neg hff, UInt16.toNat_ofNat_of_lt' (hlt'.trans (by decide))]
    constructor
    · rintro ⟨hi, h⟩
      rcases (hfull i hi).1 h with hbit | ⟨rfl, hall⟩
      · exact hbit
      · rw [hall.resolve_left hff]
        decide
    · exact fun hbit => ⟨hlow i hbit, (hfull i (hlow i hbit)).2 (.inl hbit)⟩

theorem and_high {value : Nat} (hlt : value < 2 ^ 32) :
    value &&& (2 ^ 32 - 1 - maskAll) = 0 ↔ value < 512 := by
  have hhigh : ∀ k, k < 32 → (2 ^ 32 - 1 - maskAll).testBit k = decide (9 ≤ k) := by decide
  constructor
  · intro hzero
    by_contra hge
    obtain ⟨i, hi, hbit⟩ := Nat.exists_ge_and_testBit_of_ge_two_pow (show 2 ^ 9 ≤ value by omega)
    have hi₃₂ : i < 32 := lt_of_testBit hlt hbit
    have hand := congrArg (Nat.testBit · i) hzero
    simp only [Nat.testBit_and, hbit, hhigh i hi₃₂, hi, decide_true, Bool.and_self, Nat.zero_testBit] at hand
    cases hand
  · intro hlow
    refine Nat.eq_of_testBit_eq fun i => ?_
    rw [Nat.testBit_and, Nat.zero_testBit]
    rcases hbit : value.testBit i with _ | _
    · exact Bool.false_and _
    · have hi : i < 9 := lt_of_testBit hlow hbit
      rw [hhigh i (by omega), Bool.true_and, decide_eq_false (by omega)]

theorem strtoul_lt (base : Nat) (text : List UInt8) : (strtoul 32 base text).1 < 2 ^ 32 := by
  unfold strtoul
  split
  · exact Nat.two_pow_pos 32
  · exact ulong_lt 32 _

theorem maskValue_lt {argument : List UInt8} (h : maskValue argument = .ok value) : value < 512 := by
  have hlt := strtoul_lt 16 argument
  unfold maskValue at h
  rcases hscan : strtoul 32 16 argument with ⟨v, rest⟩
  rw [hscan] at h hlt
  dsimp only at h hlt
  split at h
  · cases h
  · split at h
    · cases h
    · rename_i hgood
      cases h
      rw [not_or, not_or, not_not, not_not] at hgood
      exact (and_high hlt).1 hgood.2.2

/-- A digit that `%X` prints is none of the bytes that `strtoul` looks for before the digits. -/
theorem hexDigit_spec : ∀ n, n < 16 → digit (hexDigit n) = n ∧ isSpace (hexDigit n) = false ∧
    hexDigit n ≠ 0x2d ∧ hexDigit n ≠ 0x2b ∧ hexDigit n ≠ 0x78 ∧ hexDigit n ≠ 0x58 := by
  decide

theorem scan_hex4 (v : UInt16) : scan 16 (hex4 v) = some (⟨false, v.toNat⟩, []) := by
  have hv : v.toNat < 65536 := v.toNat_lt
  have hdigits : ∀ a b c d : Nat, a < 16 → b < 16 → c < 16 → d < 16 →
      scan 16 [hexDigit a, hexDigit b, hexDigit c, hexDigit d] =
        some (⟨false, 16 * (16 * (16 * a + b) + c) + d⟩, []) := by
    intro a b c d ha hb hc hd
    obtain ⟨hva, hspace, hminus, hplus, -, -⟩ := hexDigit_spec a ha
    obtain ⟨hvb, -, -, -, hx, hX⟩ := hexDigit_spec b hb
    obtain ⟨hvc, -⟩ := hexDigit_spec c hc
    obtain ⟨hvd, -⟩ := hexDigit_spec d hd
    unfold scan
    rw [List.dropWhile_cons_of_neg (by simp [hspace]), takeSign, if_neg hminus, if_neg hplus]
    simp only [if_true]
    rw [skipPrefix, if_neg (by simp [hx, hX]), scanDigits]
    simp [isDigit, value, hva, hvb, hvc, hvd, ha, hb, hc, hd]
  unfold hex4
  rw [hdigits _ _ _ _ (by omega) (by omega) (by omega) (by omega)]
  congr 3
  omega

/-- What `%04X` prints of a value with no other group is taken back as that value. -/
theorem maskValue_hex4 {v : UInt16} (h : v.toNat < 512) : maskValue (hex4 v) = .ok v.toNat := by
  have hscan : strtoul 32 16 (hex4 v) = (v.toNat, []) := by
    have hulong : Number.ulong 32 ⟨false, v.toNat⟩ = v.toNat := by
      unfold Number.ulong
      rw [if_neg (by simp; omega)]
      rfl
    rw [strtoul, scan_hex4]
    simp only [hulong]
  have hzero := (and_high (h.trans (by decide))).2 h
  unfold maskValue
  rw [if_neg (by simp [hex4]), hscan]
  dsimp only
  refine if_neg ?_
  rw [not_or, not_or, not_not, not_not]
  exact ⟨by simp [hex4], rfl, hzero⟩

theorem shown_lt {value : Nat} (h : value < 512) : (shown value).toNat < 512 := by
  unfold shown
  split
  · decide
  · rwa [UInt16.toNat_ofNat_of_lt' (h.trans (by decide))]

/-- The mask of what is shown is the mask of the value. -/
theorem valueMask_shown {value : Nat} (h : value < 512) :
    valueMask (if (shown value).toNat = 0 then maskAll else (shown value).toNat) =
      valueMask (if value = 0 then maskAll else value) := by
  unfold shown
  by_cases hall : value = 0 ∨ value = 0xff
  · rw [if_pos hall]
    rcases hall with rfl | rfl
    · rfl
    · -- the two values that enable every channel, 255 and 511
      refine mask_ext fun i => Bool.eq_iff_iff.2 ?_
      show channelEnabled (valueMask 0x1ff) i = true ↔ channelEnabled (valueMask 0xff) i = true
      have hbits : ∀ b, b < 8 → Nat.testBit 0x1ff b = true ∧ Nat.testBit 0xff b = true := by decide
      rw [valueMask_enabled, valueMask_enabled]
      constructor
      · rintro (⟨b, hb, -, hin⟩ | ⟨-, hlo, hhi⟩)
        · exact .inl ⟨b, hb, (hbits b hb).2, hin⟩
        · exact .inl ⟨i - 64, by omega, (hbits _ (by omega)).2, .inr (by omega)⟩
      · rintro (⟨b, hb, -, hin⟩ | ⟨hbit, -⟩)
        · exact .inl ⟨b, hb, (hbits b hb).1, hin⟩
        · exact absurd hbit (by decide)
  · rw [if_neg hall, UInt16.toNat_ofNat_of_lt' (h.trans (by decide))]

example : maskValue (ascii "0x1f") = .ok 0x1f ∧ hex4 0x1f = ascii "001F" := by decide

/-- AT+MASK= and AT+MASK=?, one after the other and back. -/
theorem mask_text {argument : List UInt8}
    (h : handleMask build .write argument a c = (.ok answer, c')) :
    ∃ v, maskValue argument = .ok v ∧
      (∀ a', handleMask build .read [] a' c' = (.ok (.value (ascii "AT+MASK=" ++ hex4 (shown v))), c')) ∧
      ∀ a', (handleMask build .write (hex4 (shown v)) a' c').2 = c' ∧
        (Working a' → c'.joinActive = false →
          (handleMask build .write (hex4 (shown v)) a' c').1 = .ok .ok) := by
  unfold handleMask at h
  rw [if_neg (by decide)] at h
  split at h
  · cases h
  rename_i v hv
  obtain ⟨-, hholds⟩ := writeMask_ok h
  have hlt := maskValue_lt hv
  have hback : ∀ a', handleMask build .write (hex4 (shown v)) a' c' =
      writeMask build (valueMask (if v = 0 then maskAll else v)) a' c' := by
    intro a'
    rw [handleMask, if_neg (by decide), maskValue_hex4 (shown_lt hlt)]
    dsimp only
    rw [valueMask_shown hlt]
  have hvalid : Lorawan.channelMaskValid (valueMask (if v = 0 then maskAll else v)) = true := by
    split
    · exact valueMask_valid (by decide) (by decide)
    · exact valueMask_valid (by omega) hlt
  refine ⟨v, hv, fun a' => ?_, fun a' => ?_⟩
  · rw [handleMask, if_pos rfl, hholds.readGroups]
    dsimp only
    rw [groupsOf_valueMask hlt]
  · rw [hback]
    exact ⟨hholds.again a', fun hw hj => writeMask_working hholds.plan hw hj hvalid⟩

/-! ### The list of AT+CHE -/

/-- The groups below `n`, counted from 1, that are in a set. -/
def numbersIn (groups : UInt16) (n : Nat) : List Nat :=
  ((List.range n).filter fun group => groups.toNat.testBit group).map (· + 1)

/-- The text of a list of numbers. -/
def listText (numbers : List Nat) : List UInt8 := [0x3a].intercalate (numbers.map decimal)

theorem decimal_one {n : Nat} (h : n < 10) : (decimal n).length = 1 := by
  have hle := (decimal_length (n := n) (show 0 < 1 by decide)).2 h
  have hne : decimal n ≠ [] := by simp [decimal]
  have hpos := List.length_pos_iff.2 hne
  omega

theorem listText_concat (numbers : List Nat) (n : Nat) : listText (numbers ++ [n]) =
    listText numbers ++ ((if numbers = [] then [] else [0x3a]) ++ decimal n) := by
  induction numbers with
  | nil => simp [listText, List.intercalate]
  | cons m numbers ih =>
    cases numbers with
    | nil => simp [listText, List.intercalate]
    | cons m' numbers =>
      have hcons : ∀ (l : List Nat), l ≠ [] → listText (m :: l) = decimal m ++ 0x3a :: listText l := by
        intro l hl
        obtain ⟨k, ks, rfl⟩ := List.exists_cons_of_ne_nil hl
        simp [listText, List.intercalate]
      rw [List.cons_append, hcons _ (by simp), ih, hcons _ (by simp)]
      simp

/-- Below `n` groups the list holds at most `2 n - 1` characters, and all of what was printed: the
colon comes before every number but the first. -/
theorem printGroups_eq (groups : UInt16) {n : Nat} (hn : n ≤ groupCount) :
    printGroups groups n = (listText (numbersIn groups n), (listText (numbersIn groups n)).length) ∧
      (listText (numbersIn groups n)).length ≤ 2 * n - 1 ∧
      ((listText (numbersIn groups n)).length = 0 ↔ numbersIn groups n = []) := by
  induction n with
  | zero => exact ⟨rfl, Nat.le_refl _, ⟨fun _ => rfl, fun _ => rfl⟩⟩
  | succ n ih =>
    obtain ⟨heq, hle, hzero⟩ := ih (by omega)
    have hloop : printGroups groups (n + 1) = printGroup groups (printGroups groups n) n := by
      rw [printGroups, List.range_succ, List.foldl_append]
      rfl
    have hnumbers : numbersIn groups (n + 1) =
        numbersIn groups n ++ if groups.toNat.testBit n then [n + 1] else [] := by
      rw [numbersIn, List.range_succ, List.filter_append, List.map_append]
      by_cases hbit : groups.toNat.testBit n = true <;> simp [numbersIn, hbit]
    rw [hloop, heq, hnumbers]
    by_cases hbit : groups.toNat.testBit n = true
    · have hone : (decimal (n + 1)).length = 1 := decimal_one (by rw [groupCount] at hn; omega)
      rw [if_pos hbit, listText_concat, printGroup, if_pos hbit]
      dsimp only
      generalize listText (numbersIn groups n) = text at hle hzero
      rw [groupCount] at hn
      by_cases hempty : text.length = 0
      · rw [if_pos hempty, if_pos (hzero.1 hempty)]
        have hfits : (decimal (n + 1)).take (listSize - text.length - 1) = decimal (n + 1) :=
          List.take_of_length_le (by rw [listSize, groupCount]; omega)
        rw [List.nil_append, hfits, List.length_append]
        exact ⟨rfl, by omega, by simp [hone]⟩
      · rw [if_neg hempty, if_neg (mt hzero.2 hempty)]
        have htwo : ([0x3a] ++ decimal (n + 1)).length = 2 := by
          rw [List.length_append, hone]
          rfl
        have hfits : ([0x3a] ++ decimal (n + 1)).take (listSize - text.length - 1) =
            [0x3a] ++ decimal (n + 1) :=
          List.take_of_length_le (by rw [htwo, listSize, groupCount]; omega)
        have hlength : (text ++ ([0x3a] ++ decimal (n + 1))).length = text.length + 2 := by
          rw [List.length_append, htwo]
        rw [hfits, hlength, htwo]
        exact ⟨rfl, by omega, by simp⟩
    · rw [if_neg hbit, List.append_nil, printGroup, if_neg hbit]
      exact ⟨rfl, by omega, hzero⟩

/-! ### The argument of AT+CHE -/

theorem colon_not_digit : isDigit 10 0x3a = false := by decide

/-- A turn of the loop takes a number of a group, with the end or a colon behind it. -/
theorem cheLoop_turn {left : Nat} {cursor rest : List UInt8} {x : Number}
    (hscan : scan 10 cursor = some (x, rest)) : cheLoop (left + 1) cursor mask = .ok mask' ↔
      (1 ≤ x.ulong 32 ∧ x.ulong 32 ≤ groupCount) ∧
        (rest = [] ∧ mask' = putGroup mask (x.ulong 32 - 1) ∨
          ∃ text, rest = 0x3a :: text ∧ cheLoop left text (putGroup mask (x.ulong 32 - 1)) = .ok mask') := by
  have hne : rest ≠ cursor := by
    rintro rfl
    exact absurd (scan_length hscan) (Nat.lt_irrefl _)
  rw [cheLoop, strtoul_some hscan]
  dsimp only
  by_cases hbad : rest = cursor ∨ x.ulong 32 < 1 ∨ groupCount < x.ulong 32 ∨
      rest.head? ≠ some 0x3a ∧ rest ≠ []
  · rw [if_pos hbad]
    refine ⟨fun h => (by cases h), ?_⟩
    rintro ⟨⟨hlo, hhi⟩, hrest⟩
    rcases hbad with hend | hlow | hhigh | ⟨hcolon, hnil⟩
    · exact absurd hend hne
    · omega
    · omega
    · rcases hrest with ⟨hrest, -⟩ | ⟨text, rfl, -⟩
      · exact absurd hrest hnil
      · exact absurd rfl hcolon
  · rw [if_neg hbad]
    rw [not_or, not_or, not_or] at hbad
    obtain ⟨-, hlow, hhigh, hrest⟩ := hbad
    rw [and_iff_right ⟨by omega, by omega⟩]
    rcases rest with _ | ⟨d, text⟩
    · rw [if_pos rfl, Except.ok.injEq, eq_comm]
      simp
    · obtain rfl : d = 0x3a := by simpa using hrest
      rw [if_neg (List.cons_ne_nil _ _), List.tail_cons]
      simp

/-- What the loop accepts: as many numbers as there are turns, each of a group. -/
theorem cheLoop_iff {left : Nat} {cursor : List UInt8} :
    cheLoop left cursor mask = .ok mask' ↔ ∃ xs, Numerals 0x3a cursor xs ∧ xs.length ≤ left ∧
      (∀ x ∈ xs, 1 ≤ x.ulong 32 ∧ x.ulong 32 ≤ groupCount) ∧
        mask' = (xs.map fun x => x.ulong 32 - 1).foldl putGroup mask := by
  induction left generalizing cursor mask with
  | zero =>
    rw [cheLoop]
    refine ⟨fun h => (by cases h), ?_⟩
    rintro ⟨xs, hxs, hlength, -⟩
    exact absurd (List.length_eq_zero_iff.1 (Nat.le_zero.1 hlength)) hxs.ne_nil
  | succ left ih =>
    rcases hscan : scan 10 cursor with _ | ⟨x, rest⟩
    · rw [cheLoop, strtoul_none hscan]
      dsimp only
      rw [if_pos (.inl rfl)]
      refine ⟨fun h => (by cases h), ?_⟩
      rintro ⟨xs, hxs, -⟩
      exact absurd hxs (not_numerals_of_scan colon_not_digit hscan)
    simp only [cheLoop_turn hscan, numerals_iff_of_scan colon_not_digit hscan]
    constructor
    · rintro ⟨hx, ⟨hnil, rfl⟩ | ⟨text, htext, hmore⟩⟩
      · refine ⟨[x], ⟨[], rfl, .inl ⟨hnil, rfl⟩⟩, Nat.le_add_left 1 left, fun y hy => ?_, ?_⟩
        · obtain rfl := List.mem_singleton.1 hy
          exact hx
        · rw [List.map_cons, List.map_nil, List.foldl_cons, List.foldl_nil]
      · obtain ⟨ys, hys, hlength, hall, rfl⟩ := ih.1 hmore
        exact ⟨x :: ys, ⟨ys, rfl, .inr ⟨text, htext, hys⟩⟩, Nat.succ_le_succ hlength,
          List.forall_mem_cons.2 ⟨hx, hall⟩, by rw [List.map_cons, List.foldl_cons]⟩
    · rintro ⟨xs, ⟨ys, rfl, hys⟩, hlength, hall, rfl⟩
      refine ⟨hall x List.mem_cons_self, ?_⟩
      rcases hys with ⟨hnil, rfl⟩ | ⟨text, htext, hys⟩
      · exact .inl ⟨hnil, by rw [List.map_cons, List.map_nil, List.foldl_cons, List.foldl_nil]⟩
      · refine .inr ⟨text, htext, ih.2 ⟨ys, hys, Nat.le_of_succ_le_succ hlength,
          fun y hy => hall y (List.mem_cons_of_mem x hy), ?_⟩⟩
        rw [List.map_cons, List.foldl_cons]

/-- The argument of AT+CHE and the groups it names, counted from 1. -/
inductive CheArgument : List UInt8 → List Nat → Prop
  | all : CheArgument (ascii "0") (List.range' 1 groupCount)
  | list {argument : List UInt8} {xs : List Number} : Numerals 0x3a argument xs →
    xs.length ≤ groupCount → (∀ x ∈ xs, 1 ≤ x.ulong 32 ∧ x.ulong 32 ≤ groupCount) →
    CheArgument argument (xs.map (·.ulong 32))

/-- What AT+CHE=? prints of a set of groups. -/
def cheText (numbers : List Nat) : List UInt8 :=
  if ∀ n ∈ List.range' 1 groupCount, n ∈ numbers then ascii "0"
  else listText ((List.range' 1 groupCount).filter (· ∈ numbers))

/-- A mask of the channels of some groups, counted from 1. -/
structure Covers (mask : Vector UInt16 6) (numbers : List Nat) : Prop where
  ne : numbers ≠ []
  mem : ∀ n ∈ numbers, 1 ≤ n ∧ n ≤ groupCount
  enabled : ∀ i, channelEnabled mask i = true ↔ ∃ n ∈ numbers, 8 * (n - 1) ≤ i ∧ i < 8 * n

variable {numbers numbers' : List Nat}

theorem foldl_putGroup_enabled (gs : List Nat) (h : ∀ g ∈ gs, g < groupCount) (mask : Vector UInt16 6)
    (i : Nat) : channelEnabled (gs.foldl putGroup mask) i = true ↔
      channelEnabled mask i = true ∨ ∃ g ∈ gs, 8 * g ≤ i ∧ i < 8 * g + 8 := by
  induction gs generalizing mask with
  | nil => simp
  | cons g gs ih =>
    rw [List.foldl_cons, ih fun k hk => h k (List.mem_cons_of_mem g hk),
      putGroup_enabled mask (h g List.mem_cons_self), Bool.or_eq_true, decide_eq_true_eq,
      List.exists_mem_cons_iff, or_assoc]

theorem covers_foldl (ne : numbers ≠ []) (hmem : ∀ n ∈ numbers, 1 ≤ n ∧ n ≤ groupCount) :
    Covers ((numbers.map (· - 1)).foldl putGroup (.replicate 6 0)) numbers where
  ne := ne
  mem := hmem
  enabled i := by
    have hgs : ∀ g ∈ numbers.map (· - 1), g < groupCount := by
      intro g hg
      obtain ⟨n, hn, rfl⟩ := List.mem_map.1 hg
      have hbounds := hmem n hn
      omega
    rw [foldl_putGroup_enabled _ hgs, empty_enabled]
    constructor
    · rintro (h | ⟨g, hg, hlo, hhi⟩)
      · cases h
      · obtain ⟨n, hn, rfl⟩ := List.mem_map.1 hg
        have hbounds := hmem n hn
        exact ⟨n, hn, hlo, by omega⟩
    · rintro ⟨n, hn, hlo, hhi⟩
      exact .inr ⟨n - 1, List.mem_map.2 ⟨n, hn, rfl⟩, hlo, by omega⟩

/-- The mask is determined by the set. -/
theorem Covers.unique (h : Covers mask numbers) (h' : Covers mask' numbers')
    (hsame : ∀ n, n ∈ numbers ↔ n ∈ numbers') : mask = mask' := by
  refine mask_ext fun i => Bool.eq_iff_iff.2 ?_
  rw [h.enabled, h'.enabled]
  simp only [hsame]

theorem Covers.full (h : Covers mask numbers) (group : Nat) :
    Full mask.toList group ↔ group + 1 ∈ numbers := by
  constructor
  · intro hfull
    obtain ⟨n, hn, hlo, hhi⟩ := (h.enabled (8 * group)).1 (hfull _ (Nat.le_refl _) (by omega))
    have hsame : group + 1 = n := by omega
    rwa [hsame]
  · intro hmem i hlo hhi
    exact (h.enabled i).2 ⟨group + 1, hmem, by omega, by omega⟩

theorem Covers.groups (h : Covers mask numbers) (group : Nat) :
    (groupsOf mask.toList).toNat.testBit group = true ↔ group + 1 ∈ numbers := by
  obtain ⟨n, hn⟩ := List.exists_mem_of_ne_nil numbers h.ne
  obtain ⟨h₁, h₉⟩ := h.mem n hn
  have hsome : ∃ g, g < groupCount ∧ Full mask.toList g :=
    ⟨n - 1, by omega, (h.full (n - 1)).2 (by rwa [Nat.sub_add_cancel h₁])⟩
  rw [groupsOf_testBit hsome, h.full]
  exact ⟨And.right, fun hmem => ⟨(h.mem _ hmem).2, hmem⟩⟩

theorem Covers.valid (h : Covers mask numbers) : Lorawan.channelMaskValid mask = true := by
  rw [channelMaskValid_iff]
  simp only [h.enabled]
  obtain ⟨n, hn⟩ := List.exists_mem_of_ne_nil numbers h.ne
  obtain ⟨h₁, h₉⟩ := h.mem n hn
  refine ⟨⟨8 * (n - 1), n, hn, Nat.le_refl _, by omega⟩, ?_⟩
  rintro i ⟨m, hm, -, hhi⟩
  have hbounds := h.mem m hm
  rw [groupCount] at hbounds
  omega

/-- What is printed for a set. -/
theorem Covers.numbersIn (h : Covers mask numbers) : numbersIn (groupsOf mask.toList) groupCount =
    (List.range' 1 groupCount).filter (· ∈ numbers) := by
  have hrange : List.range' 1 groupCount = (List.range groupCount).map (· + 1) := by decide
  rw [Channels.numbersIn, hrange, List.filter_map]
  congr 1
  refine List.filter_congr fun group _ => ?_
  rw [Bool.eq_iff_iff, h.groups]
  simp

theorem Covers.all_iff (h : Covers mask numbers) : (groupsOf mask.toList).toNat = maskAll ↔
    ∀ n ∈ List.range' 1 groupCount, n ∈ numbers := by
  have hall : ∀ i, maskAll.testBit i = decide (i < groupCount) := by
    intro i
    have hpow : maskAll = 2 ^ 9 - 1 := rfl
    rw [hpow, Nat.testBit_two_pow_sub_one]
    rfl
  constructor
  · intro heq n hn
    obtain ⟨h₁, h₉⟩ := List.mem_range'_1.1 hn
    have hbit := h.groups (n - 1)
    rw [heq, hall, decide_eq_true_eq, Nat.sub_add_cancel h₁] at hbit
    exact hbit.1 (by omega)
  · intro hmem
    refine Nat.eq_of_testBit_eq fun i => Bool.eq_iff_iff.2 ?_
    rw [h.groups, hall, decide_eq_true_eq]
    exact ⟨fun hi => (h.mem _ hi).2, fun hi => hmem _ (List.mem_range'_1.2 ⟨by omega, by omega⟩)⟩

theorem CheArgument.mem {argument : List UInt8} (h : CheArgument argument numbers) :
    numbers ≠ [] ∧ ∀ n ∈ numbers, 1 ≤ n ∧ n ≤ groupCount := by
  cases h with
  | all =>
    refine ⟨by decide, fun n hn => ?_⟩
    obtain ⟨h₁, h₉⟩ := List.mem_range'_1.1 hn
    exact ⟨h₁, by omega⟩
  | list hxs _ hall =>
    refine ⟨mt List.map_eq_nil_iff.1 hxs.ne_nil, fun n hn => ?_⟩
    obtain ⟨x, hx, rfl⟩ := List.mem_map.1 hn
    exact hall x hx

/-- A write of AT+CHE that is accepted writes the mask of the groups it names. -/
theorem handleChe_of_argument {argument : List UInt8} (h : CheArgument argument numbers) :
    ∃ mask, Covers mask numbers ∧
      ∀ build a c, handleChe build .write argument a c = writeMask build mask a c := by
  have hmem := h.mem
  cases h with
  | all =>
    refine ⟨_, covers_foldl hmem.1 hmem.2, fun build a c => ?_⟩
    have horder : ((List.range' 1 groupCount).map (· - 1)).foldl putGroup (.replicate 6 0) =
        (List.range narrowBlocks).foldl putGroup (putGroup (.replicate 6 0) narrowBlocks) := by
      refine mask_ext fun i => Bool.eq_iff_iff.2 ?_
      rw [foldl_putGroup_enabled _ (by decide), foldl_putGroup_enabled _ (by decide),
        putGroup_enabled _ (by decide), empty_enabled, Bool.or_eq_true, decide_eq_true_eq]
      simp only [Bool.false_eq_true, false_or, List.mem_range]
      constructor
      · rintro ⟨g, hg, hlo, hhi⟩
        have hlt : g < 9 := (show ∀ g ∈ (List.range' 1 groupCount).map (· - 1), g < 9 by decide) g hg
        by_cases hwide : g = narrowBlocks
        · exact .inl (hwide ▸ ⟨hlo, hhi⟩)
        · rw [narrowBlocks] at hwide
          exact .inr ⟨g, by rw [narrowBlocks]; omega, hlo, hhi⟩
      · have hin : ∀ g, g < 9 → g ∈ (List.range' 1 groupCount).map (· - 1) := by decide
        rintro (⟨hlo, hhi⟩ | ⟨g, hg, hlo, hhi⟩)
        · exact ⟨narrowBlocks, hin _ (by decide), hlo, hhi⟩
        · exact ⟨g, hin g (hg.trans (by decide)), hlo, hhi⟩
    rw [handleChe, if_neg (by decide), if_pos rfl, horder]
  | list hxs hlength hall =>
    rename_i xs
    refine ⟨_, covers_foldl hmem.1 hmem.2, fun build a c => ?_⟩
    have hzero : argument ≠ ascii "0" := by
      -- the one number of the text 0 is 0, which names no group
      rintro rfl
      have hone : Numerals 0x3a (ascii "0") [⟨false, 0⟩] := .one (decimal_numeral 0)
      rw [hxs.unique colon_not_digit hone] at hall
      exact absurd (hall _ List.mem_cons_self).1 (by decide)
    have hloop : cheLoop groupCount argument (.replicate 6 0) = .ok _ :=
      cheLoop_iff.2 ⟨xs, hxs, hlength, hall, rfl⟩
    rw [handleChe, if_neg (by decide), if_neg hzero, hloop, List.map_map]
    rfl

theorem handleChe_rejects {argument : List UInt8} (h : ∀ numbers, ¬ CheArgument argument numbers)
    (build : Build) (a : Answers) (c : CredentialStore) :
    ∃ e, handleChe build .write argument a c = (.error e, c) := by
  have hzero : argument ≠ ascii "0" := by
    rintro rfl
    exact h _ .all
  rw [handleChe, if_neg (by decide), if_neg hzero]
  cases hloop : cheLoop groupCount argument (.replicate 6 0) with
  | error e => exact ⟨e, rfl⟩
  | ok mask =>
    obtain ⟨xs, hxs, hlength, hall, -⟩ := cheLoop_iff.1 hloop
    exact absurd (.list hxs hlength hall) (h _)

theorem numerals_listText {numbers : List Nat} (h : numbers ≠ []) :
    Numerals 0x3a (listText numbers) (numbers.map fun n => ⟨false, n⟩) := by
  induction numbers with
  | nil => exact absurd rfl h
  | cons n numbers ih =>
    cases numbers with
    | nil =>
      have htext : listText [n] = decimal n := by simp [listText, List.intercalate]
      rw [htext]
      exact .one (decimal_numeral n)
    | cons m numbers =>
      have htext : listText (n :: m :: numbers) = decimal n ++ 0x3a :: listText (m :: numbers) := by
        simp [listText, List.intercalate]
      rw [htext]
      exact .cons (decimal_numeral n) (ih (List.cons_ne_nil m numbers))

/-- What is printed of a set of groups names the same groups. -/
theorem cheText_argument (hne : numbers ≠ []) (hmem : ∀ n ∈ numbers, 1 ≤ n ∧ n ≤ groupCount) :
    ∃ numbers', CheArgument (cheText numbers) numbers' ∧ ∀ n, n ∈ numbers ↔ n ∈ numbers' := by
  have hrange : ∀ n ∈ numbers, n ∈ List.range' 1 groupCount := by
    intro n hn
    obtain ⟨h₁, h₉⟩ := hmem n hn
    exact List.mem_range'_1.2 ⟨h₁, by omega⟩
  unfold cheText
  by_cases hall : ∀ n ∈ List.range' 1 groupCount, n ∈ numbers
  · rw [if_pos hall]
    exact ⟨_, .all, fun n => ⟨hrange n, hall n⟩⟩
  · rw [if_neg hall]
    have hfilter : ∀ n, n ∈ (List.range' 1 groupCount).filter (· ∈ numbers) ↔ n ∈ numbers := by
      intro n
      rw [List.mem_filter, decide_eq_true_eq]
      exact ⟨And.right, fun hn => ⟨hrange n hn, hn⟩⟩
    have hne' : (List.range' 1 groupCount).filter (· ∈ numbers) ≠ [] := by
      obtain ⟨n, hn⟩ := List.exists_mem_of_ne_nil numbers hne
      exact List.ne_nil_of_mem ((hfilter n).2 hn)
    have hlength : ((List.range' 1 groupCount).filter (· ∈ numbers)).length ≤ groupCount := by
      have hle := List.length_filter_le (fun n => decide (n ∈ numbers)) (List.range' 1 groupCount)
      rwa [List.length_range'] at hle
    generalize (List.range' 1 groupCount).filter (· ∈ numbers) = listed at hfilter hne' hlength
    have hulong : ∀ n ∈ listed, Number.ulong 32 ⟨false, n⟩ = n := by
      intro n hn
      obtain ⟨-, h₉⟩ := hmem n ((hfilter n).1 hn)
      rw [groupCount] at h₉
      unfold Number.ulong
      rw [if_neg (by dsimp only; omega)]
      rfl
    refine ⟨_, .list (numerals_listText hne') (by simpa using hlength) ?_, fun n => ?_⟩
    · intro x hx
      obtain ⟨n, hn, rfl⟩ := List.mem_map.1 hx
      rw [hulong n hn]
      exact hmem n ((hfilter n).1 hn)
    · rw [List.map_map, ← hfilter n, List.mem_map]
      constructor
      · exact fun hn => ⟨n, hn, hulong n hn⟩
      · rintro ⟨m, hm, heq⟩
        rw [Function.comp_apply, hulong m hm] at heq
        exact heq ▸ hm

/-- AT+CHE= and AT+CHE=?, one after the other and back. -/
theorem che_text {argument : List UInt8}
    (h : handleChe build .write argument a c = (.ok answer, c')) :
    ∃ numbers, CheArgument argument numbers ∧
      (∀ a', handleChe build .read [] a' c' = (.ok (.value (ascii "AT+CHE=" ++ cheText numbers)), c')) ∧
      ∀ a', (handleChe build .write (cheText numbers) a' c').2 = c' ∧
        (Working a' → c'.joinActive = false →
          (handleChe build .write (cheText numbers) a' c').1 = .ok .ok) := by
  by_cases harg : ∃ numbers, CheArgument argument numbers
  · obtain ⟨numbers, hnumbers⟩ := harg
    obtain ⟨mask, hcovers, hwrite⟩ := handleChe_of_argument hnumbers
    rw [hwrite] at h
    obtain ⟨-, hholds⟩ := writeMask_ok h
    refine ⟨numbers, hnumbers, fun a' => ?_, fun a' => ?_⟩
    · rw [handleChe, if_pos rfl, hholds.readGroups]
      dsimp only
      rw [(printGroups_eq _ (Nat.le_refl _)).1, hcovers.numbersIn, cheText]
      by_cases hall : ∀ n ∈ List.range' 1 groupCount, n ∈ numbers
      · rw [if_pos (hcovers.all_iff.2 hall), if_pos hall]
        rfl
      · rw [if_neg (mt hcovers.all_iff.1 hall), if_neg hall]
    · obtain ⟨numbers', hback, hsame⟩ := cheText_argument hcovers.ne hcovers.mem
      obtain ⟨mask', hcovers', hwrite'⟩ := handleChe_of_argument hback
      rw [hwrite', ← hcovers.unique hcovers' hsame]
      exact ⟨hholds.again a', fun hw hj => writeMask_working hholds.plan hw hj hcovers.valid⟩
  · obtain ⟨e, he⟩ := handleChe_rejects (fun numbers hnumbers => harg ⟨numbers, hnumbers⟩) build a c
    rw [he] at h
    cases h

/-- What AT+CHE accepts where a mask can be stored. -/
theorem che_accepted_iff (hb : HasPlan build) (hw : Working a) (hj : c.joinActive = false)
    (argument : List UInt8) : (handleChe build .write argument a c).1 = .ok .ok ↔
      ∃ numbers, CheArgument argument numbers := by
  constructor
  · intro h
    by_contra harg
    obtain ⟨e, he⟩ := handleChe_rejects (fun numbers hnumbers => harg ⟨numbers, hnumbers⟩) build a c
    rw [he] at h
    cases h
  · rintro ⟨numbers, hnumbers⟩
    obtain ⟨mask, hcovers, hwrite⟩ := handleChe_of_argument hnumbers
    rw [hwrite]
    exact writeMask_working hb hw hj hcovers.valid

theorem printGroups_fits (groups : UInt16) {n : Nat} (hn : n ≤ groupCount) :
    (printGroups groups n).2 < listSize ∧ (printGroups groups n).1.length = (printGroups groups n).2 := by
  obtain ⟨heq, hle, -⟩ := printGroups_eq groups hn
  rw [groupCount] at hn
  rw [heq, listSize, groupCount]
  exact ⟨by dsimp only; omega, rfl⟩

/-- What AT+MASK and AT+CHE print is what was written, and can be written back: an accepted AT+MASK
prints its value, an accepted AT+CHE the numbers it named. AT+CHE accepts 0 and the lists of group
numbers, and its list stays within its buffer for any groups. -/
theorem channel_texts :
    (∀ build argument a c answer c', handleMask build .write argument a c = (.ok answer, c') →
      ∃ v, maskValue argument = .ok v ∧
        (∀ a', handleMask build .read [] a' c' =
          (.ok (.value (ascii "AT+MASK=" ++ hex4 (shown v))), c')) ∧
        ∀ a', (handleMask build .write (hex4 (shown v)) a' c').2 = c' ∧
          (Working a' → c'.joinActive = false →
            (handleMask build .write (hex4 (shown v)) a' c').1 = .ok .ok)) ∧
    (∀ build argument a c, HasPlan build → Working a → c.joinActive = false →
      ((handleChe build .write argument a c).1 = .ok .ok ↔ ∃ numbers, CheArgument argument numbers)) ∧
    (∀ build argument a c answer c', handleChe build .write argument a c = (.ok answer, c') →
      ∃ numbers, CheArgument argument numbers ∧
        (∀ a', handleChe build .read [] a' c' =
          (.ok (.value (ascii "AT+CHE=" ++ cheText numbers)), c')) ∧
        ∀ a', (handleChe build .write (cheText numbers) a' c').2 = c' ∧
          (Working a' → c'.joinActive = false →
            (handleChe build .write (cheText numbers) a' c').1 = .ok .ok)) ∧
    ∀ groups n, n ≤ groupCount → (printGroups groups n).2 < listSize ∧
      (printGroups groups n).1.length = (printGroups groups n).2 :=
  ⟨fun _ _ _ _ _ _ h => mask_text h, fun _ argument _ _ hb hw hj => che_accepted_iff hb hw hj argument,
    fun _ _ _ _ _ _ h => che_text h, fun groups _ hn => printGroups_fits groups hn⟩

end Rzi.At.Channels
