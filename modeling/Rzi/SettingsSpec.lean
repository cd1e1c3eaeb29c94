import Mathlib.Data.List.Nodup
import Rzi.Settings

/-!
# What a load, a save and a reset of the settings do

One lemma per operation of `Settings.lean`, stated over the names a key lives under: `newName k`
holds the current value, `legacyNames k` are the names a load falls back to when `newName k` is not
stored. `Stored cfg σ k v` says that the new name of `k` holds a valid `v`.
-/

namespace Rzi.Settings
open Storage LittleEndian

def newName (k : Key) : String := nsLorawan ++ "/" ++ k.name

def oldName (k : Key) : String := nsRzi ++ "/" ++ k.name

theorem buildName_new (k : Key) : buildName nsLorawan k.name = .ok (newName k) := by
  cases k <;> decide

theorem buildName_old (k : Key) : buildName nsRzi k.name = .ok (oldName k) := by
  cases k <;> decide

theorem findSetting_name (k : Key) : findSetting k.name = some k := by
  cases k <;> decide

theorem name_injective : Function.Injective Key.name := fun j k h => by
  have := findSetting_name j
  rw [h, findSetting_name k] at this
  exact (Option.some.inj this).symm

theorem newName_injective : Function.Injective newName := fun j k h =>
  name_injective (by simpa [newName] using h)

theorem oldName_injective : Function.Injective oldName := fun j k h =>
  name_injective (by simpa [oldName] using h)

theorem newName_ne_oldName (j k : Key) : newName j ≠ oldName k := fun h => by
  have := congrArg (fun s : String => s.toList.head?) h
  simp [newName, oldName, nsLorawan, nsRzi] at this

/-- The names `load_value` falls back to. -/
def legacyNames (k : Key) : List String :=
  match k with
  | .joinPolicy => policyKeys.flatMap fun j => [newName j, oldName j]
  | .region => [oldName .region, oldName .band]
  | k => [oldName k]

theorem oldName_mem_legacyNames {k : Key} (hk : k ≠ .joinPolicy) : oldName k ∈ legacyNames k := by
  cases k <;> simp_all [legacyNames]

theorem kind_eq_joinPolicy {k : Key} : k.kind = .joinPolicy ↔ k = .joinPolicy := by
  cases k <;> decide

theorem kind_eq_region {k : Key} : k.kind = .region ↔ k = .region := by
  cases k <;> decide

theorem newName_not_mem_legacyNames (k : Key) : newName k ∉ legacyNames k := by
  cases k <;> decide

/-- Only the join policy falls back to names of the new namespace, those of the individual keys. -/
theorem legacyNames_subset {j k : Key} (h : newName j ∈ legacyNames k) :
    legacyNames j ⊆ legacyNames k := by
  cases k <;> simp only [legacyNames, policyKeys, List.mem_cons, List.not_mem_nil, or_false,
    newName_ne_oldName, List.flatMap_cons, List.flatMap_nil, List.append_nil, List.cons_append,
    List.nil_append, false_or, newName_injective.eq_iff] at h
  rcases h with rfl | rfl | rfl <;> decide

theorem size_pos (k : Key) : 0 < k.size := by
  cases k <;> decide

theorem length_defaultValue (k : Key) : (defaultValue k).length = k.size := by
  cases k <;> rfl

/-- Every default passes its own check. -/
theorem validValue_defaultValue (k : Key) : validValue k (defaultValue k) = true := by
  cases k <;> decide

/-! ### Stored values -/

def encodeValue (k : Key) (value : Bytes) : Bytes :=
  if k.kind = .joinPolicy then encodeRecord joinPolicyVersion value else value

/-- The new name of `k` holds the valid value `v`. -/
structure Stored (cfg : Config) (σ : Store) (k : Key) (v : Bytes) : Prop where
  length_eq : v.length = k.size
  valid : validValue k v = true
  plain : k ≠ .joinPolicy → σ (newName k) = v
  record : k = .joinPolicy → (σ (newName k)).length ≤ recordHeaderSize + cfg.recordMax ∧
    decodeRecord k.size (σ (newName k)) = .ok (joinPolicyVersion, v)

variable {cfg : Config} {σ σ' : Store} {k : Key} {v : Bytes} {d : Dev}

theorem decodeRecord_nil (capacity : Nat) : decodeRecord capacity [] = .error .badMessage := rfl

namespace Stored

theorem ne_nil (h : Stored cfg σ k v) : σ (newName k) ≠ [] := by
  intro h0
  by_cases hk : k = .joinPolicy
  · have := (h.record hk).2
    rw [h0, decodeRecord_nil] at this
    cases this
  · have hv := h.plain hk
    rw [h0] at hv
    have := h.length_eq
    rw [← hv] at this
    exact absurd this (Nat.ne_of_lt (size_pos k))

theorem congr (h : Stored cfg σ k v) (hn : σ' (newName k) = σ (newName k)) : Stored cfg σ' k v :=
  ⟨h.length_eq, h.valid, fun hk => hn.trans (h.plain hk), fun hk => by rw [hn]; exact h.record hk⟩

theorem unique {w : Bytes} (h : Stored cfg σ k v) (hw : Stored cfg σ k w) : v = w := by
  by_cases hk : k = .joinPolicy
  · have := (hw.record hk).2
    rw [(h.record hk).2] at this
    simpa using this
  · rw [← h.plain hk, hw.plain hk]

theorem of_save (hl : v.length = k.size) (hv : validValue k v = true) :
    Stored cfg (Function.update σ (newName k) (encodeValue k v)) k v := by
  refine ⟨hl, hv, fun hk => ?_, fun hk => ?_⟩
  · simp [encodeValue, kind_eq_joinPolicy, hk]
  · subst hk
    have hne : v ≠ [] := by rintro rfl; simp [Key.size, Key.row] at hl
    have hl3 : v.length = 3 := hl
    have hc := cfg.le_recordMax
    simp only [encodeValue, Function.update_self, kind_eq_joinPolicy.2, ↓reduceIte]
    refine ⟨?_, decodeRecord_encodeRecord (by decide) hne (by omega) (by omega)⟩
    simp only [encodeRecord, List.length_append, length_recordHead, length_putLe, recordHeaderSize]
    omega

end Stored

variable (cfg) in
theorem saveValue_outcome (k : Key) (v : Bytes) (d : Dev) :
    ((saveValue cfg k v d).1 = .ok () ∧
        (saveValue cfg k v d).2.store = Function.update d.store (newName k) (encodeValue k v)) ∨
      (∃ e, (saveValue cfg k v d).1 = .error e) ∧ (saveValue cfg k v d).2.store = d.store := by
  unfold saveValue encodeValue
  split
  · unfold writeRecord
    split_ifs
    · exact .inr ⟨⟨_, rfl⟩, rfl⟩
    · exact .inr ⟨⟨_, rfl⟩, rfl⟩
    · exact (write_outcome (buildName_new k) _ d).imp (fun h => ⟨h.1, h.2.2⟩) id
  · exact (write_outcome (buildName_new k) _ d).imp (fun h => ⟨h.1, h.2.2⟩) id

/-! ### Loads -/

/-- What reading one key under its two plain names can answer. -/
inductive LegacyOutcome (σ : Store) (k : Key) : Except Err (Bytes × Bool) → Prop
  | failed (e : Err) : LegacyOutcome σ k (.error e)
  | absent (hn : σ (newName k) = []) (ho : σ (oldName k) = []) :
      LegacyOutcome σ k (.ok (defaultValue k, false))
  | found (v : Bytes) (hl : v.length = k.size) (hv : validValue k v = true)
      (hs : σ (newName k) ≠ [] ∨ σ (oldName k) ≠ []) : LegacyOutcome σ k (.ok (v, true))

theorem legacyResult_found {k : Key} {v : Bytes} (hl : v.length = k.size)
    (hs : σ (newName k) ≠ [] ∨ σ (oldName k) ≠ []) :
    LegacyOutcome σ k (legacyResult k (.ok v)) := by
  simp only [legacyResult]
  split_ifs with hv
  · exact .found v hl hv hs
  · exact .failed _

theorem legacyResult_failed (k : Key) {e : Err} (he : e ≠ .notFound) :
    legacyResult k (.error e) = .error e := by
  cases e <;> simp_all [legacyResult]

theorem readLegacy_spec (k : Key) (d : Dev) :
    (readLegacy k d).2.store = d.store ∧ LegacyOutcome d.store k (readLegacy k d).1 := by
  obtain ⟨rc, d₁, hread, hs, hr⟩ := read_spec (buildName_new k) k.size d
  simp only [readLegacy, bind_apply, hread]
  cases hr with
  | failed e he =>
    rw [if_neg (by simpa using he)]
    simp only [bind_apply, pure_apply, legacyResult_failed k he]
    exact ⟨hs, .failed e⟩
  | found hne hl =>
    rw [if_neg (by simp)]
    exact ⟨hs, legacyResult_found hl (.inl hne)⟩
  | absent hn =>
    obtain ⟨rc₂, d₂, hread₂, hs₂, hr₂⟩ := read_spec (buildName_old k) k.size d₁
    rw [if_pos rfl, bind_apply, hread₂]
    rw [hs] at hs₂ hr₂
    cases hr₂ with
    | failed e he =>
      simp only [pure_apply, legacyResult_failed k he]
      exact ⟨hs₂, .failed e⟩
    | absent ho => exact ⟨hs₂, .absent hn ho⟩
    | found hne hl => exact ⟨hs₂, legacyResult_found hl (.inr hne)⟩

/-- What the loop over the individual policy keys can answer: one valid piece per key. -/
inductive PiecesOutcome (σ : Store) (ks : List Key) : Except Err (Bytes × Bool) → Prop
  | failed (e : Err) : PiecesOutcome σ ks (.error e)
  | absent (h : ∀ k ∈ ks, σ (newName k) = [] ∧ σ (oldName k) = []) :
      PiecesOutcome σ ks (.ok ((ks.map defaultValue).flatten, false))
  | found (ps : List Bytes)
      (hp : List.Forall₂ (fun k p => p.length = k.size ∧ validValue k p = true) ks ps)
      (h : ∃ k ∈ ks, σ (newName k) ≠ [] ∨ σ (oldName k) ≠ []) :
      PiecesOutcome σ ks (.ok (ps.flatten, true))

theorem forall₂_defaultValue (ks : List Key) :
    List.Forall₂ (fun k p => p.length = k.size ∧ validValue k p = true) ks (ks.map defaultValue) := by
  induction ks with
  | nil => exact .nil
  | cons k ks ih => exact .cons ⟨length_defaultValue k, validValue_defaultValue k⟩ ih

theorem readPolicyKeys_spec (ks : List Key) (d : Dev) :
    (readPolicyKeys ks d).2.store = d.store ∧
      PiecesOutcome d.store ks (readPolicyKeys ks d).1 := by
  induction ks generalizing d with
  | nil => exact ⟨rfl, .absent (by simp)⟩
  | cons k ks ih =>
    obtain ⟨hs, hr⟩ := readLegacy_spec k d
    simp only [readPolicyKeys, bind_apply]
    generalize (readLegacy k d).1 = rc at hr ⊢
    generalize (readLegacy k d).2 = d₁ at hs ⊢
    obtain ⟨hs₂, hr₂⟩ := ih d₁
    rw [hs] at hs₂ hr₂
    cases hr with
    | failed e => exact ⟨hs, .failed e⟩
    | absent hn ho =>
      simp only [bind_apply]
      generalize (readPolicyKeys ks d₁).1 = rc₂ at hr₂ ⊢
      generalize (readPolicyKeys ks d₁).2 = d₂ at hs₂ ⊢
      cases hr₂ with
      | failed e => exact ⟨hs₂, .failed e⟩
      | absent h => exact ⟨hs₂, .absent (by simpa using ⟨⟨hn, ho⟩, h⟩)⟩
      | found ps hp h =>
        obtain ⟨j, hj, hne⟩ := h
        exact ⟨hs₂, .found (_ :: ps) (.cons ⟨length_defaultValue k, validValue_defaultValue k⟩ hp)
          ⟨j, by simp [hj], hne⟩⟩
    | found v hl hv hne =>
      simp only [bind_apply]
      generalize (readPolicyKeys ks d₁).1 = rc₂ at hr₂ ⊢
      generalize (readPolicyKeys ks d₁).2 = d₂ at hs₂ ⊢
      cases hr₂ with
      | failed e => exact ⟨hs₂, .failed e⟩
      | absent h =>
        exact ⟨hs₂, .found (v :: ks.map defaultValue) (.cons ⟨hl, hv⟩ (forall₂_defaultValue ks))
          ⟨k, by simp, hne⟩⟩
      | found ps hp h => exact ⟨hs₂, .found (v :: ps) (.cons ⟨hl, hv⟩ hp) ⟨k, by simp, hne⟩⟩

theorem policy_of_pieces {ps : List Bytes}
    (hp : List.Forall₂ (fun k p => p.length = k.size ∧ validValue k p = true) policyKeys ps) :
    ps.flatten.length = Key.size .joinPolicy ∧ validValue .joinPolicy ps.flatten = true := by
  rcases hp with _ | ⟨⟨hla, hva⟩, _ | ⟨⟨hlb, hvb⟩, _ | ⟨⟨hlc, -⟩, _ | _⟩⟩⟩
  rename_i a b c
  obtain ⟨x, rfl⟩ := List.length_eq_one_iff.1 hla
  obtain ⟨y, rfl⟩ := List.length_eq_one_iff.1 hlb
  obtain ⟨z, rfl⟩ := List.length_eq_one_iff.1 hlc
  refine ⟨rfl, ?_⟩
  simp only [validValue, Key.kind, Key.row] at hva hvb ⊢
  simpa using ⟨of_decide_eq_true hva, of_decide_eq_true hvb⟩

theorem policy_default : (policyKeys.map defaultValue).flatten = defaultValue .joinPolicy := by
  decide

/-- What a load can answer and leave in the store. -/
inductive LoadOutcome (cfg : Config) (σ : Store) (k : Key) :
    Except Err (Bytes × Bool) → Store → Prop
  | failed (e : Err) : LoadOutcome cfg σ k (.error e) σ
  | absent (hn : σ (newName k) = []) (hl : ∀ n ∈ legacyNames k, σ n = []) :
      LoadOutcome cfg σ k (.ok (defaultValue k, false)) σ
  | kept (v : Bytes) (h : Stored cfg σ k v) : LoadOutcome cfg σ k (.ok (v, true)) σ
  | migrated (v : Bytes) (hn : σ (newName k) = []) (hl : ∃ n ∈ legacyNames k, σ n ≠ [])
      (hlen : v.length = k.size) (hv : validValue k v = true) :
      LoadOutcome cfg σ k (.ok (v, true)) (Function.update σ (newName k) (encodeValue k v))

/-- The save at the end of a load of a value found under a legacy name. -/
theorem finishLoad_found {d₁ : Dev} (hd : d₁.store = d.store) (hn : d.store (newName k) = [])
    (hl : ∃ n ∈ legacyNames k, d.store n ≠ []) (hlen : v.length = k.size)
    (hv : validValue k v = true) :
    LoadOutcome cfg d.store k (finishLoad cfg k (v, true) d₁).1
      (finishLoad cfg k (v, true) d₁).2.store := by
  have h := saveValue_outcome cfg k v d₁
  simp only [finishLoad, ↓reduceIte, bind_apply]
  rw [hd] at h
  rcases h with ⟨h, hs⟩ | ⟨⟨e, h⟩, hs⟩ <;> rw [h] <;> dsimp only [pure_apply] <;> rw [hs]
  · exact .migrated v hn hl hlen hv
  · exact .failed e

theorem finishLoad_absent (r : Bytes) (d : Dev) :
    finishLoad cfg k (r, false) d = (.ok (r, false), d) := rfl

theorem readRecord_length (cfg : Config) {capacity : Nat} {r : UInt16 × Bytes}
    (h : (readRecord cfg nsLorawan k.name capacity d).1 = .ok r) :
    (d.store (newName k)).length ≤ recordHeaderSize + cfg.recordMax := by
  unfold readRecord at h
  split at h
  · cases h
  simp only [buildName_new] at h
  rcases onBackend_cases (β := UInt16 × Bytes) _ d with ⟨⟨e, he⟩, -⟩ | ⟨he, -⟩ <;> rw [he] at h
  · cases h
  · by_contra hlt
    simp [show recordHeaderSize + cfg.recordMax < (d.store (newName k)).length by omega] at h

theorem loadPolicy_spec (cfg : Config) (d : Dev) :
    LoadOutcome cfg d.store .joinPolicy (loadPolicy cfg .joinPolicy d).1
      (loadPolicy cfg .joinPolicy d).2.store := by
  have hs := readRecord_store cfg (buildName_new .joinPolicy) (Key.size .joinPolicy) d
  have hr := readRecord_outcome cfg (buildName_new .joinPolicy) (Key.size .joinPolicy) d
  have hlen := fun r => @readRecord_length .joinPolicy d cfg (Key.size .joinPolicy) r
  simp only [loadPolicy, bind_apply]
  generalize (readRecord cfg nsLorawan _ _ d).1 = rc at hr hlen ⊢
  generalize (readRecord cfg nsLorawan _ _ d).2 = d₁ at hs ⊢
  cases hr with
  | failed e he =>
    have : LoadOutcome cfg d.store .joinPolicy (.error e) d₁.store := by rw [hs]; exact .failed e
    cases e <;> first | exact this | exact absurd rfl he
  | found r hne hd =>
    obtain ⟨version, value⟩ := r
    show LoadOutcome cfg d.store _ (checkPolicy _ version value) d₁.store
    rw [hs]
    unfold checkPolicy
    split_ifs with hv hc
    · exact .failed _
    · exact .failed _
    · simp only [ne_eq, Bool.or_eq_true, decide_eq_true_eq, Bool.not_eq_true', not_or, not_not,
        Bool.not_eq_false] at hc hv
      refine .kept value ⟨hc.1, hc.2, fun h => absurd rfl h, fun _ => ⟨hlen _ rfl, ?_⟩⟩
      rw [hd, hv]
  | absent hn =>
    obtain ⟨hs₂, hr₂⟩ := readPolicyKeys_spec policyKeys d₁
    simp only [bind_apply]
    generalize (readPolicyKeys policyKeys d₁).1 = rc₂ at hr₂ ⊢
    generalize (readPolicyKeys policyKeys d₁).2 = d₂ at hs₂ ⊢
    rw [hs] at hs₂ hr₂
    cases hr₂ with
    | failed e => rw [← hs₂]; exact .failed e
    | absent h =>
      simp only [finishLoad_absent, hs₂, policy_default]
      exact .absent hn (by simpa [legacyNames, policyKeys, and_assoc] using h)
    | found ps hp h =>
      obtain ⟨hl, hv⟩ := policy_of_pieces hp
      refine finishLoad_found hs₂ hn ?_ hl hv
      obtain ⟨j, hj, hne | hne⟩ := h
      · exact ⟨_, List.mem_flatMap.2 ⟨j, hj, by simp⟩, hne⟩
      · exact ⟨_, List.mem_flatMap.2 ⟨j, hj, by simp⟩, hne⟩

/-- What the translation of a legacy band can answer. -/
inductive BandOutcome (σ : Store) (value : Bytes) : Except Err (Bytes × Bool) → Prop
  | failed (e : Err) : BandOutcome σ value (.error e)
  | absent (h : σ (oldName .band) = []) : BandOutcome σ value (.ok (value, false))
  | found (r : Region) (h : σ (oldName .band) ≠ []) :
      BandOutcome σ value (.ok (value.set 0 r.byte, true))

theorem migrateRegion_spec (value : Bytes) (d : Dev) :
    (migrateRegion value d).2.store = d.store ∧
      BandOutcome d.store value (migrateRegion value d).1 := by
  obtain ⟨rc, d₁, hread, hs, hr⟩ := read_spec (buildName_old .band) 1 d
  simp only [migrateRegion, bind_apply, hread]
  cases hr with
  | failed e he =>
    have : BandOutcome d.store value (.error e) := .failed e
    cases e <;> first | exact ⟨hs, this⟩ | exact absurd rfl he
  | absent h => exact ⟨hs, .absent h⟩
  | found hne hl =>
    simp only
    rcases hb : bandRegion ((d.store (oldName .band)).getD 0 0) with _ | r
    · exact ⟨hs, .failed _⟩
    · unfold bandRegion at hb
      split at hb
      · cases hb
      · obtain ⟨r', -, rfl⟩ := Option.map_eq_some_iff.1 hb
        exact ⟨hs, .found r' hne⟩

theorem region_valid (r : Region) (value : Bytes) (h : value.length = Key.size .region) :
    validValue .region (value.set 0 r.byte) = true := by
  obtain ⟨x, rfl⟩ := List.length_eq_one_iff.1 h
  show validValue .region [r.byte] = true
  cases r <;> decide

theorem loadPlain_spec (cfg : Config) (hk : k ≠ .joinPolicy) (d : Dev) :
    LoadOutcome cfg d.store k (loadPlain cfg k d).1 (loadPlain cfg k d).2.store := by
  obtain ⟨rc, d₁, hread, hs, hr⟩ := read_spec (buildName_new k) k.size d
  simp only [loadPlain, bind_apply, hread]
  cases hr with
  | failed e he =>
    have : LoadOutcome cfg d.store k (.error e) d₁.store := by rw [hs]; exact .failed e
    cases e <;> first | exact this | exact absurd rfl he
  | found hne hl =>
    show LoadOutcome cfg d.store k (if _ then _ else _) d₁.store
    rw [hs]
    split_ifs with hv
    · exact .kept _ ⟨hl, hv, fun _ => rfl, fun h => absurd h hk⟩
    · exact .failed _
  | absent hn =>
    obtain ⟨hs₂, hr₂⟩ := readLegacy_spec k d₁
    simp only [bind_apply]
    generalize (readLegacy k d₁).1 = rc₂ at hr₂ ⊢
    generalize (readLegacy k d₁).2 = d₂ at hs₂ ⊢
    rw [hs] at hs₂ hr₂
    cases hr₂ with
    | failed e => rw [← hs₂]; exact .failed e
    | found v hl hv hne =>
      have hold := hne.resolve_left (fun h => h hn)
      exact finishLoad_found hs₂ hn ⟨_, oldName_mem_legacyNames hk, hold⟩ hl hv
    | absent _ ho =>
      by_cases hreg : k = .region
      · subst hreg
        obtain ⟨hs₃, hr₃⟩ := migrateRegion_spec (defaultValue .region) d₂
        simp only [kind_eq_region.2, Bool.not_false, decide_true, Bool.and_self, ↓reduceIte,
          bind_apply]
        generalize (migrateRegion _ d₂).1 = rc₃ at hr₃ ⊢
        generalize (migrateRegion _ d₂).2 = d₃ at hs₃ ⊢
        rw [hs₂] at hs₃ hr₃
        cases hr₃ with
        | failed e => rw [← hs₃]; exact .failed e
        | absent hb =>
          simp only [finishLoad_absent, hs₃]
          exact .absent hn (by simpa [legacyNames] using ⟨ho, hb⟩)
        | found r hb =>
          exact finishLoad_found hs₃ hn ⟨_, by simp [legacyNames], hb⟩ rfl
            (region_valid r _ (length_defaultValue _))
      · simp only [kind_eq_region, hreg, Bool.not_false, decide_false, Bool.and_false,
          Bool.false_eq_true, ↓reduceIte, finishLoad_absent, hs₂]
        refine .absent hn fun n hmem => ?_
        have : n = oldName k := by cases k <;> simp_all [legacyNames]
        rw [this, ho]

theorem loadValue_spec (cfg : Config) (k : Key) (d : Dev) :
    LoadOutcome cfg d.store k (loadValue cfg k d).1 (loadValue cfg k d).2.store := by
  unfold loadValue
  by_cases hk : k = .joinPolicy
  · subst hk
    exact loadPolicy_spec cfg d
  · rw [if_neg (kind_eq_joinPolicy.not.2 hk)]
    exact loadPlain_spec cfg hk d

/-! ### The reset -/

def entryName (e : String × Key) : String := e.1 ++ "/" ++ e.2.name

theorem mem_manifest {e : String × Key} (he : e ∈ manifest) :
    e.1 = nsLorawan ∨ e.1 = nsRzi := by
  simp only [manifest, List.mem_append, List.mem_map] at he
  rcases he with ⟨k, -, rfl⟩ | ⟨k, -, rfl⟩
  exacts [.inl rfl, .inr rfl]

theorem buildName_entry {e : String × Key} (he : e ∈ manifest) :
    buildName e.1 e.2.name = .ok (entryName e) := by
  rcases mem_manifest he with h | h <;> rw [entryName, h]
  exacts [buildName_new e.2, buildName_old e.2]

theorem entryName_injOn {e e' : String × Key} (he : e ∈ manifest) (he' : e' ∈ manifest)
    (h : entryName e = entryName e') : e = e' := by
  obtain ⟨ns, j⟩ := e
  obtain ⟨ns', k⟩ := e'
  rcases mem_manifest he with h₁ | h₁ <;> rcases mem_manifest he' with h₂ | h₂ <;>
    dsimp only at h₁ h₂ <;> subst h₁ <;> subst h₂
  · exact congrArg _ (newName_injective h)
  · exact absurd h (newName_ne_oldName j k)
  · exact absurd h.symm (newName_ne_oldName k j)
  · exact congrArg _ (oldName_injective h)

theorem mem_settings (k : Key) : k ∈ settings := by
  cases k <;> decide

theorem new_mem_manifest (k : Key) : (nsLorawan, k) ∈ manifest :=
  List.mem_append_left _ (List.mem_map_of_mem (mem_settings k))

theorem old_mem_manifest (k : Key) : (nsRzi, k) ∈ manifest :=
  List.mem_append_right _ (List.mem_map_of_mem (mem_settings k))

theorem manifest_nodup : manifest.Nodup := by
  have hs : settings.Nodup := by decide
  refine List.Nodup.append (hs.map fun _ _ h => (Prod.mk.inj h).2)
    (hs.map fun _ _ h => (Prod.mk.inj h).2) ?_
  intro e he he'
  obtain ⟨j, -, rfl⟩ := List.mem_map.1 he
  obtain ⟨k, -, h⟩ := List.mem_map.1 he'
  exact absurd (Prod.mk.inj h).1 (by decide)

def faultAt (faults : List (Option Fault)) (e : String × Key) : Option Fault :=
  faults.getD (manifest.idxOf e) none

/-- The rows of `l` are deleted except those whose delete meets a fault; nothing else changes. -/
theorem deleteAll_store (l : List (String × Key)) (hl : ∀ e ∈ l, e ∈ manifest) (hnd : l.Nodup)
    (rc : Except Err Unit) (d : Dev) :
    (∀ n, (∀ e ∈ l, entryName e ≠ n) → (deleteAll l rc d).2.store n = d.store n) ∧
      ∀ e ∈ l, (deleteAll l rc d).2.store (entryName e) =
        if (d.faults.getD (l.idxOf e) none).isSome then d.store (entryName e) else [] := by
  induction l generalizing rc d with
  | nil => exact ⟨fun _ _ => rfl, by simp⟩
  | cons e l ih =>
    obtain ⟨ns, k⟩ := e
    have hn := buildName_entry (hl (ns, k) (by simp))
    have hf := delete_faults hn d
    obtain ⟨hnot, hnd⟩ := List.nodup_cons.1 hnd
    obtain ⟨ih₁, ih₂⟩ := ih (fun e he => hl e (by simp [he])) hnd
      (keepError rc (Storage.delete ns k.name d).1) (Storage.delete ns k.name d).2
    -- the rest of the walk does not meet this row's name again
    have hother : ∀ e ∈ l, entryName e ≠ entryName (ns, k) := fun e he h =>
      hnot (entryName_injOn (hl e (by simp [he])) (hl _ (by simp)) h ▸ he)
    have hstore : ∀ n, n ≠ entryName (ns, k) →
        (Storage.delete ns k.name d).2.store n = d.store n := fun n hne => by
      rcases delete_outcome hn d with ⟨-, h, -⟩ | ⟨-, h, -⟩ <;> rw [h]
      exact Function.update_of_ne hne _ _
    rw [deleteAll]
    refine ⟨fun n hne => ?_, fun e he => ?_⟩
    · rw [ih₁ n fun e he => hne e (by simp [he]), hstore n (hne _ (by simp)).symm]
    · rcases List.mem_cons.1 he with rfl | he
      · rw [ih₁ _ hother, List.idxOf_cons_self]
        rw [← List.headD_eq_getD]
        rcases delete_outcome hn d with ⟨-, h, hs⟩ | ⟨-, h, hs⟩
        · rw [h, if_pos hs]
        · rw [h, if_neg (by rw [hs]; simp)]
          exact Function.update_self _ _ _
      · have hne : e ≠ (ns, k) := fun h => hnot (h ▸ he)
        rw [ih₂ e he, hf, List.idxOf_cons_ne _ hne.symm, hstore _ (hother e he)]
        cases d.faults <;> rfl

theorem settingsClear_store (s : Sys) (faults : List (Option Fault)) (e : String × Key)
    (he : e ∈ manifest) :
    (settingsClear s faults).2.store (entryName e) =
      if (faultAt faults e).isSome then s.store (entryName e) else [] := by
  have h := (deleteAll_store manifest (fun _ h => h) manifest_nodup (.ok ()) ⟨s.store, faults⟩).2 e he
  unfold settingsClear
  generalize deleteAll manifest (.ok ()) ⟨s.store, faults⟩ = p at h ⊢
  rcases p with ⟨_ | _, d⟩ <;> exact h

theorem settingsClear_cache (s : Sys) (faults : List (Option Fault)) (k : Key) :
    (settingsClear s faults).2.cache k = s.cache k ∨
      (settingsClear s faults).2.cache k = Entry.empty := by
  unfold settingsClear
  split
  exacts [.inl rfl, .inr rfl]

/-! ### The calls -/

theorem eq_name_of_findSetting {key : String} (h : findSetting key = some k) : key = k.name := by
  have := List.find?_some h
  exact (beq_iff_eq.1 this).symm

/-- What a read of `k` answers and leaves behind. -/
inductive ReadStep (cfg : Config) (s : Sys) (k : Key) : Except Err (Bytes × Bool) → Sys → Prop
  | failed (e : Err) : ReadStep cfg s k (.error e) s
  | cached (h : (s.cache k).loaded = true) :
      ReadStep cfg s k (.ok ((s.cache k).value, (s.cache k).present)) s
  | loaded (h : (s.cache k).loaded = false) (v : Bytes) (present : Bool) (σ' : Store)
      (ho : LoadOutcome cfg s.store k (.ok (v, present)) σ') :
      ReadStep cfg s k (.ok (v, present)) ⟨σ', Function.update s.cache k ⟨true, present, v⟩⟩

theorem settingRead_unknown {s : Sys} {key : String} (h : findSetting key = none) (size : Nat)
    (faults : List (Option Fault)) :
    settingRead cfg s key size faults = (.error .invalid, s) := by
  simp [settingRead, h]

variable (cfg) in
theorem settingRead_spec (s : Sys) {key : String} (hk : findSetting key = some k) (size : Nat)
    (faults : List (Option Fault)) :
    ReadStep cfg s k (settingRead cfg s key size faults).1 (settingRead cfg s key size faults).2 := by
  simp only [settingRead, hk]
  split_ifs with hsize hload
  · exact .failed _
  · exact .cached hload
  · have ho := loadValue_spec cfg k ⟨s.store, faults⟩
    rcases hr : loadValue cfg k ⟨s.store, faults⟩ with ⟨e | ⟨v, present⟩, d⟩ <;> rw [hr] at ho
    · obtain ⟨σ, faults⟩ := d
      cases ho
      exact .failed e
    · exact .loaded (by simpa using hload) v present d.store ho

/-- The cache already holds this value as the stored one, so that a write of it is skipped. -/
def CacheHit (s : Sys) (k : Key) (v : Bytes) : Prop := s.cache k = ⟨true, true, v⟩

instance (s : Sys) (k : Key) (v : Bytes) : Decidable (CacheHit s k v) :=
  inferInstanceAs (Decidable (_ = _))

/-- What a write of `v` to `k` answers and leaves behind. -/
inductive WriteStep (s : Sys) (k : Key) (v : Bytes) : Except Err Unit → Sys → Prop
  | failed (e : Err) : WriteStep s k v (.error e) s
  | saved (hl : v.length = k.size) (hv : validValue k v = true) :
      WriteStep s k v (.ok ()) ⟨Function.update s.store (newName k) (encodeValue k v),
        Function.update s.cache k ⟨true, true, v⟩⟩
  | skipped (h : CacheHit s k v) : WriteStep s k v (.ok ()) s

theorem settingWrite_unknown {s : Sys} {key : String} (h : findSetting key = none) (v : Bytes)
    (faults : List (Option Fault)) :
    settingWrite cfg s key v faults = (.error .invalid, s) := by
  simp [settingWrite, h]

variable (cfg) in
theorem settingWrite_spec (s : Sys) {key : String} (hk : findSetting key = some k) (v : Bytes)
    (faults : List (Option Fault)) :
    WriteStep s k v (settingWrite cfg s key v faults).1 (settingWrite cfg s key v faults).2 := by
  simp only [settingWrite, hk]
  split_ifs with hbad hmiss
  · exact .failed _
  · simp only [ne_eq, Bool.or_eq_true, decide_eq_true_eq, Bool.not_eq_true', not_or, not_not,
      Bool.not_eq_false] at hbad
    have ho := saveValue_outcome cfg k v ⟨s.store, faults⟩
    rcases hr : saveValue cfg k v ⟨s.store, faults⟩ with ⟨e | u, ⟨σ, fs⟩⟩ <;> rw [hr] at ho
    · obtain ⟨h, -⟩ | ⟨-, rfl⟩ := ho
      · cases h
      · exact .failed e
    · obtain ⟨-, rfl⟩ | ⟨⟨_, h⟩, -⟩ := ho
      · exact .saved hbad.1 hbad.2
      · cases h
  · simp only [Bool.or_eq_true, Bool.not_eq_true', bne_iff_ne, not_or, Bool.not_eq_false, ne_eq,
      not_not] at hmiss
    have hit : CacheHit s k v := by
      obtain ⟨⟨h1, h2⟩, h3⟩ := hmiss
      unfold CacheHit
      cases hc : s.cache k
      simp_all
    have : (⟨s.store, Function.update s.cache k ⟨true, true, v⟩⟩ : Sys) = s := by
      rw [← hit, Function.update_eq_self]
    rw [this]
    exact .skipped hit

end Rzi.Settings
