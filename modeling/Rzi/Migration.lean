import Rzi.SettingsRead
import Rzi.Durability

/-!
# Migration is stable

`lookup cfg σ k` is what the store says about a key: its value and whether it is stored, wherever the
value is kept. A load answers it or fails (`loadValue_lookup`), and what a load writes while it
migrates a value changes what the store says about no key (`lookup_migrated`). So reads and reboots
keep the answer of every key, whichever of them are migrated so far.
-/

namespace Rzi.Settings
open Storage

/-! ### What the store says -/

def readAt (σ : Store) (name : String) (size : Nat) : Except Err Bytes :=
  if σ name = [] then .error .notFound
  else if (σ name).length = size then .ok (σ name)
  else .error .tooLarge

def recordAt (cfg : Config) (σ : Store) (name : String) (capacity : Nat) :
    Except Err (UInt16 × Bytes) :=
  if recordHeaderSize + cfg.recordMax < (σ name).length then .error .tooLarge
  else if σ name = [] then .error .notFound
  else decodeRecord capacity (σ name)

/-- A key under its two plain names. -/
def legacyAt (σ : Store) (k : Key) : Except Err (Bytes × Bool) :=
  legacyResult k
    (if σ (newName k) = [] then readAt σ (oldName k) k.size else readAt σ (newName k) k.size)

def policyKeysAt (σ : Store) : List Key → Except Err (Bytes × Bool)
  | [] => .ok ([], false)
  | k :: ks =>
    match legacyAt σ k with
    | .error e => .error e
    | .ok (v, present) =>
      match policyKeysAt σ ks with
      | .error e => .error e
      | .ok (vs, found) => .ok (v ++ vs, present || found)

def bandAt (σ : Store) (value : Bytes) : Except Err (Bytes × Bool) :=
  match readAt σ (oldName .band) 1 with
  | .error .notFound => .ok (value, false)
  | .error e => .error e
  | .ok band =>
    match bandRegion (band.getD 0 0) with
    | none => .error .badMessage
    | some r => .ok (value.set 0 r, true)

/-- The value of a key and whether it is stored, wherever it is kept. -/
def lookup (cfg : Config) (σ : Store) (k : Key) : Except Err (Bytes × Bool) :=
  if k.kind = .joinPolicy then
    match recordAt cfg σ (newName k) k.size with
    | .ok (version, value) => checkPolicy k version value
    | .error .notFound => policyKeysAt σ policyKeys
    | .error e => .error e
  else
    match readAt σ (newName k) k.size with
    | .ok value => if validValue k value then .ok (value, true) else .error .badMessage
    | .error .notFound =>
      match legacyAt σ k with
      | .error e => .error e
      | .ok (value, found) =>
        if !found && k.kind = .region then bandAt σ value else .ok (value, found)
    | .error e => .error e

/-! ### A load answers it -/

section Loads
variable {cfg : Config} {β γ : Type} {d : Dev} {k : Key}

/-- A part of a load that only reads: it answers `r` or meets a fault. -/
structure Yields (x : Except Err β × Dev) (d : Dev) (r : Except Err β) : Prop where
  store : x.2.store = d.store
  result : x.1 = r ∨ ∃ e : Fault, x.1 = .error e.1
  clean : d.faults = [] → x.1 = r ∧ x.2.faults = []

/-- A load: it answers `r` or fails. -/
structure Loads (x : Except Err β × Dev) (d : Dev) (r : Except Err β) : Prop where
  result : x.1 = r ∨ ∃ e, x.1 = .error e
  clean : d.faults = [] → x.1 = r

theorem Yields.loads {x : Except Err β × Dev} {r : Except Err β} (h : Yields x d r) : Loads x d r :=
  ⟨h.result.imp_right fun ⟨e, he⟩ => ⟨e.1, he⟩, fun hd => (h.clean hd).1⟩

theorem yields_pure (r : Except Err β) (d : Dev) : Yields (r, d) d r :=
  ⟨rfl, .inl rfl, fun hd => ⟨rfl, hd⟩⟩

theorem yields_onBackend {f : Store → Except Err β × Store} (hf : ∀ σ, (f σ).2 = σ) (d : Dev) :
    Yields (onBackend f d) d (f d.store).1 := by
  obtain ⟨σ, faults⟩ := d
  unfold onBackend
  rcases faults with _ | ⟨_ | e, faults⟩
  · exact ⟨hf σ, .inl rfl, fun _ => ⟨rfl, rfl⟩⟩
  · exact ⟨hf σ, .inl rfl, nofun⟩
  · exact ⟨rfl, .inr ⟨e, rfl⟩, nofun⟩

/-- A fault of the first part is the fault of the whole. -/
theorem Yields.bind {x : StateM Dev (Except Err β)} {f : Except Err β → StateM Dev (Except Err γ)}
    {r : Except Err β} {r' : Except Err γ} (hx : Yields (x d) d r)
    (hfault : ∀ (e : Fault) d', f (.error e.1) d' = (.error e.1, d'))
    (hf : ∀ d', d'.store = d.store → Yields (f r d') d' r') : Yields ((x >>= f) d) d r' := by
  have hrun : (x >>= f) d = f (x d).1 (x d).2 := rfl
  rw [hrun]
  have hstore : (x d).2.store = d.store := hx.store
  rcases hx.result with hr | ⟨e, he⟩
  · rw [hr]
    have hnext := hf (x d).2 hstore
    exact ⟨hnext.store.trans hstore, hnext.result, fun hd => hnext.clean (hx.clean hd).2⟩
  · rw [he, hfault]
    refine ⟨hstore, .inr ⟨e, rfl⟩, fun hd => ?_⟩
    have hr := (hx.clean hd).1
    have hnext := hf (x d).2 hstore
    rw [← hr, he, hfault] at hnext
    exact ⟨(hnext.clean (hx.clean hd).2).1, (hx.clean hd).2⟩

theorem Yields.bind_loads {x : StateM Dev (Except Err β)}
    {f : Except Err β → StateM Dev (Except Err γ)} {r : Except Err β} {r' : Except Err γ}
    (hx : Yields (x d) d r) (hfault : ∀ (e : Fault) d', f (.error e.1) d' = (.error e.1, d'))
    (hf : ∀ d', d'.store = d.store → Loads (f r d') d' r') : Loads ((x >>= f) d) d r' := by
  have hrun : (x >>= f) d = f (x d).1 (x d).2 := rfl
  rw [hrun]
  have hnext := hf (x d).2 hx.store
  rcases hx.result with hr | ⟨e, he⟩
  · rw [hr]
    exact ⟨hnext.result, fun hd => hnext.clean (hx.clean hd).2⟩
  · rw [he, hfault]
    refine ⟨.inr ⟨e.1, rfl⟩, fun hd => ?_⟩
    rw [← (hx.clean hd).1, he, hfault] at hnext
    exact hnext.clean (hx.clean hd).2

theorem read_yields {ns key name : String} (hn : buildName ns key = .ok name) {size : Nat}
    (hs : size ≠ 0) (d : Dev) : Yields (read ns key size d) d (readAt d.store name size) := by
  unfold Storage.read
  rw [if_neg hs]
  simp only [hn]
  exact yields_onBackend (f := fun s => (readAt s name size, s)) (fun _ => rfl) d

theorem readRecord_yields {ns key name : String} (hn : buildName ns key = .ok name) {capacity : Nat}
    (hc : capacity ≠ 0) (d : Dev) :
    Yields (readRecord cfg ns key capacity d) d (recordAt cfg d.store name capacity) := by
  unfold readRecord
  rw [if_neg hc]
  simp only [hn]
  exact yields_onBackend (f := fun s => (recordAt cfg s name capacity, s)) (fun _ => rfl) d

theorem readAt_eq_notFound {σ : Store} {name : String} {size : Nat} :
    readAt σ name size = .error .notFound ↔ σ name = [] := by
  unfold readAt
  split_ifs with hnil hlen <;> simp [hnil]

theorem readLegacy_yields (k : Key) (d : Dev) : Yields (readLegacy k d) d (legacyAt d.store k) := by
  unfold readLegacy legacyAt
  refine (read_yields (buildName_new k) (size_pos k).ne' d).bind (fun e d' => ?_) fun d' hd' => ?_
  · have he : (Except.error e.1 : Except Err Bytes) ≠ .error .notFound := fun h =>
      e.2 (Except.error.inj h)
    rw [if_neg he]
    exact congrArg (·, d') (legacyResult_failed k e.2)
  · by_cases hnil : d.store (newName k) = []
    · rw [if_pos (readAt_eq_notFound.2 hnil), if_pos hnil, ← hd']
      refine (read_yields (buildName_old k) (size_pos k).ne' d').bind (fun e d'' => ?_) fun d'' _ => ?_
      · exact congrArg (·, d'') (legacyResult_failed k e.2)
      · exact yields_pure _ d''
    · rw [if_neg fun h => hnil (readAt_eq_notFound.1 h), if_neg hnil]
      exact yields_pure _ d'

theorem readPolicyKeys_yields (ks : List Key) (d : Dev) :
    Yields (readPolicyKeys ks d) d (policyKeysAt d.store ks) := by
  induction ks generalizing d with
  | nil => exact yields_pure _ d
  | cons k ks ih =>
    unfold readPolicyKeys policyKeysAt
    refine (readLegacy_yields k d).bind (fun _ _ => rfl) fun d' hd' => ?_
    rcases legacyAt d.store k with e | ⟨v, present⟩
    · exact yields_pure _ d'
    · have hrest := ih d'
      rw [hd'] at hrest
      refine hrest.bind (fun _ _ => rfl) fun d'' _ => ?_
      rcases policyKeysAt d.store ks with e | ⟨vs, found⟩
      · exact yields_pure _ d''
      · exact yields_pure _ d''

theorem migrateRegion_yields (value : Bytes) (d : Dev) :
    Yields (migrateRegion value d) d (bandAt d.store value) := by
  unfold migrateRegion bandAt
  refine (read_yields (buildName_old .band) one_ne_zero d).bind (fun e d' => ?_) fun d' _ => ?_
  · obtain ⟨e, he⟩ := e
    cases e <;> first | rfl | exact absurd rfl he
  · rcases readAt d.store (oldName .band) 1 with e | band
    · cases e <;> exact yields_pure _ d'
    · dsimp only
      rcases bandRegion (band.getD 0 0) with _ | r
      · exact yields_pure _ d'
      · exact yields_pure _ d'

theorem saveValue_clean {v : Bytes} (hv : v.length = k.size) (hd : d.faults = []) :
    (saveValue cfg k v d).1 = .ok () := by
  obtain ⟨σ, faults⟩ := d
  obtain rfl : faults = [] := hd
  have hne : v ≠ [] := by
    rintro rfl
    exact (size_pos k).ne hv
  have hwrite : ∀ w : Bytes, w ≠ [] → (write nsLorawan k.name w ⟨σ, []⟩).1 = .ok () := by
    intro w hw
    unfold write
    rw [if_neg hw]
    simp only [buildName_new]
    rfl
  unfold saveValue
  split_ifs with hk
  · have hsize : v.length = 3 := by rw [hv, kind_eq_joinPolicy.1 hk]; rfl
    have hmax := cfg.le_recordMax
    have hversion : ¬ (joinPolicyVersion = 0 ∨ v = []) := by simp [hne, joinPolicyVersion]
    unfold writeRecord
    rw [if_neg hversion, if_neg (by omega)]
    refine hwrite _ fun hnil => ?_
    have hlen := congrArg List.length hnil
    simp [encodeRecord, length_recordHead] at hlen
  · exact hwrite v hne

/-- Saving what was found does not change the answer. -/
theorem finishLoad_loads {r : Bytes × Bool} (hr : r.1.length = k.size) (d : Dev) :
    Loads (finishLoad cfg k r d) d (.ok r) := by
  obtain ⟨v, found⟩ := r
  cases found with
  | false => exact (yields_pure _ d).loads
  | true =>
    have hsave : d.faults = [] → (saveValue cfg k v d).1 = .ok () := saveValue_clean hr
    simp only [finishLoad, if_true, bind_apply]
    rcases hs : (saveValue cfg k v d).1 with e | u
    · refine ⟨.inr ⟨e, rfl⟩, fun hd => ?_⟩
      cases hs.symm.trans (hsave hd)
    · exact ⟨.inl rfl, fun _ => rfl⟩

theorem readAt_length {σ : Store} {name : String} {size : Nat} {v : Bytes}
    (h : readAt σ name size = .ok v) : v = σ name ∧ v.length = size ∧ v ≠ [] := by
  unfold readAt at h
  split_ifs at h with hnil hlen
  cases h
  exact ⟨rfl, hlen, hnil⟩

theorem legacyAt_length {σ : Store} {r : Bytes × Bool} (h : legacyAt σ k = .ok r) :
    r.1.length = k.size := by
  unfold legacyAt at h
  have hread : ∀ x : Except Err Bytes, (∀ v, x = .ok v → v.length = k.size) →
      legacyResult k x = .ok r → r.1.length = k.size := by
    rintro (e | v) hx hres
    · cases e <;> cases hres
      exact length_defaultValue k
    · simp only [legacyResult] at hres
      split_ifs at hres
      cases hres
      exact hx v rfl
  refine hread _ (fun v hv => ?_) h
  split_ifs at hv
  · exact (readAt_length hv).2.1
  · exact (readAt_length hv).2.1

theorem policyKeysAt_length {σ : Store} {ks : List Key} {r : Bytes × Bool}
    (h : policyKeysAt σ ks = .ok r) : r.1.length = (ks.map Key.size).sum := by
  induction ks generalizing r with
  | nil =>
    cases h
    rfl
  | cons k ks ih =>
    simp only [policyKeysAt] at h
    rcases hk : legacyAt σ k with e | ⟨v, present⟩ <;> rw [hk] at h
    · cases h
    · rcases hks : policyKeysAt σ ks with e | ⟨vs, found⟩ <;> rw [hks] at h
      · cases h
      · cases h
        have hv : v.length = k.size := legacyAt_length hk
        have hvs : vs.length = (ks.map Key.size).sum := ih hks
        simp [hv, hvs]

theorem bandAt_length {σ : Store} {value : Bytes} {r : Bytes × Bool} (h : bandAt σ value = .ok r) :
    r.1.length = value.length := by
  unfold bandAt at h
  split at h
  · cases h
    rfl
  · cases h
  · split at h
    · cases h
    · cases h
      simp

/-- Every load answers what the store says or fails, and it fails only at a fault. -/
theorem loadValue_lookup (cfg : Config) (k : Key) (d : Dev) :
    Loads (loadValue cfg k d) d (lookup cfg d.store k) := by
  unfold loadValue lookup
  split_ifs with hk
  · obtain rfl := kind_eq_joinPolicy.1 hk
    unfold loadPolicy
    refine (readRecord_yields (buildName_new _) (size_pos _).ne' d).bind_loads (fun e d' => ?_)
      fun d' hd' => ?_
    · obtain ⟨e, he⟩ := e
      cases e <;> first | rfl | exact absurd rfl he
    · rcases recordAt cfg d.store (newName .joinPolicy) (Key.size .joinPolicy) with e | ⟨version, value⟩
      · by_cases he : e = .notFound
        · subst he
          have hkeys := readPolicyKeys_yields policyKeys d'
          rw [hd'] at hkeys
          refine hkeys.bind_loads (fun _ _ => rfl) fun d'' _ => ?_
          rcases hpolicy : policyKeysAt d.store policyKeys with e | r
          · exact (yields_pure _ d'').loads
          · exact finishLoad_loads (policyKeysAt_length hpolicy) d''
        · cases e <;> first | exact (yields_pure _ d').loads | exact absurd rfl he
      · exact (yields_pure _ d').loads
  · unfold loadPlain
    refine (read_yields (buildName_new k) (size_pos k).ne' d).bind_loads (fun e d' => ?_)
      fun d' hd' => ?_
    · obtain ⟨e, he⟩ := e
      cases e <;> first | rfl | exact absurd rfl he
    · rcases readAt d.store (newName k) k.size with e | value
      · by_cases he : e = .notFound
        · subst he
          have hlegacy := readLegacy_yields k d'
          rw [hd'] at hlegacy
          refine hlegacy.bind_loads (fun _ _ => rfl) fun d'' hd'' => ?_
          rcases hat : legacyAt d.store k with e | ⟨value, found⟩
          · exact (yields_pure _ d'').loads
          · dsimp only
            split_ifs with hregion
            · have hband := migrateRegion_yields value d''
              rw [hd'', hd'] at hband
              refine hband.bind_loads (fun _ _ => rfl) fun d₃ _ => ?_
              rcases hb : bandAt d.store value with e | r
              · exact (yields_pure _ d₃).loads
              · exact finishLoad_loads ((bandAt_length hb).trans (legacyAt_length hat)) d₃
            · exact finishLoad_loads (legacyAt_length hat) d''
        · cases e <;> first | exact (yields_pure _ d').loads | exact absurd rfl he
      · exact (yields_pure _ d').loads

end Loads

/-! ### What a load writes -/

section Lookup
variable {cfg : Config} {σ σ' : Store} {j k : Key} {v : Bytes}

theorem readAt_congr {n : String} (h : σ' n = σ n) (size : Nat) : readAt σ' n size = readAt σ n size := by
  rw [readAt, readAt, h]

theorem legacyAt_congr (hn : σ' (newName k) = σ (newName k)) (ho : σ' (oldName k) = σ (oldName k)) :
    legacyAt σ' k = legacyAt σ k := by
  rw [legacyAt, legacyAt, hn, readAt_congr hn, readAt_congr ho]

theorem policyKeysAt_congr {ks : List Key} (h : ∀ k ∈ ks, legacyAt σ' k = legacyAt σ k) :
    policyKeysAt σ' ks = policyKeysAt σ ks := by
  induction ks with
  | nil => rfl
  | cons k ks ih =>
    have hk : legacyAt σ' k = legacyAt σ k := h k List.mem_cons_self
    have hks : policyKeysAt σ' ks = policyKeysAt σ ks := ih fun j hj => h j (List.mem_cons_of_mem _ hj)
    rw [policyKeysAt, policyKeysAt, hk, hks]

/-- What the store says about a key rests on its own name and on the names it falls back to. -/
theorem lookup_congr (hn : σ' (newName k) = σ (newName k))
    (hl : k.kind = .joinPolicy → policyKeysAt σ' policyKeys = policyKeysAt σ policyKeys)
    (ho : k.kind ≠ .joinPolicy → ∀ n ∈ legacyNames k, σ' n = σ n) :
    lookup cfg σ' k = lookup cfg σ k := by
  unfold lookup
  split_ifs with hk
  · rw [recordAt, recordAt, hn, hl hk]
  · have hold : σ' (oldName k) = σ (oldName k) :=
      ho hk _ (oldName_mem_legacyNames (kind_eq_joinPolicy.not.1 hk))
    rw [readAt_congr hn, legacyAt_congr hn hold]
    by_cases hregion : k.kind = .region
    · obtain rfl := kind_eq_region.1 hregion
      have hband : σ' (oldName .band) = σ (oldName .band) := ho hk _ (by simp [legacyNames])
      simp only [bandAt, readAt_congr hband]
    · simp only [hregion, decide_false, Bool.and_false, Bool.false_eq_true, if_false]

/-- A stored value is what the store says. -/
theorem Stored.lookup_eq (h : Stored cfg σ k v) : lookup cfg σ k = .ok (v, true) := by
  unfold lookup
  split_ifs with hk
  · obtain ⟨hlen, hdecode⟩ := h.record (kind_eq_joinPolicy.1 hk)
    have hrecord : recordAt cfg σ (newName k) k.size = .ok (joinPolicyVersion, v) := by
      rw [recordAt, if_neg (Nat.not_lt.2 hlen), if_neg h.ne_nil, hdecode]
    rw [hrecord]
    simp [checkPolicy, h.length_eq, h.valid]
  · have hplain : σ (newName k) = v := h.plain (kind_eq_joinPolicy.not.1 hk)
    have hread : readAt σ (newName k) k.size = .ok v := by
      rw [readAt, if_neg h.ne_nil, hplain, if_pos h.length_eq]
    rw [hread]
    exact if_pos h.valid

theorem lookup_eq_legacyAt (hk : k ∈ policyKeys) (hn : σ (newName k) = []) :
    lookup cfg σ k = legacyAt σ k := by
  have hpolicy : k.kind ≠ .joinPolicy := by
    simp only [policyKeys, List.mem_cons, List.not_mem_nil, or_false] at hk
    rcases hk with rfl | rfl | rfl <;> decide
  have hregion : k.kind ≠ .region := by
    simp only [policyKeys, List.mem_cons, List.not_mem_nil, or_false] at hk
    rcases hk with rfl | rfl | rfl <;> decide
  unfold lookup
  rw [if_neg hpolicy, readAt_eq_notFound.2 hn]
  rcases legacyAt σ k with e | ⟨value, found⟩
  · rfl
  · simp [hregion]

/-- The legacy value that a key of the policy is migrated from stays its legacy value. -/
theorem legacyAt_migrated (hk : k ∈ policyKeys) (hs : Stored cfg σ k v) :
    legacyAt σ k = .ok (v, true) := by
  have hplain : σ (newName k) = v := by
    refine hs.plain ?_
    rintro rfl
    exact absurd hk (by decide)
  have hread : readAt σ (newName k) k.size = .ok v := by
    rw [readAt, if_neg hs.ne_nil, hplain, if_pos hs.length_eq]
  rw [legacyAt, if_neg hs.ne_nil, hread, legacyResult, if_pos hs.valid]

/-- A name of the new namespace among the legacy names is that of a key of the policy. -/
theorem mem_policyKeys_of_mem_legacyNames (h : newName k ∈ legacyNames j) :
    j = .joinPolicy ∧ k ∈ policyKeys := by
  cases j <;> simp only [legacyNames, policyKeys, List.mem_cons, List.not_mem_nil, or_false,
    newName_ne_oldName, List.flatMap_cons, List.flatMap_nil, List.append_nil, List.cons_append,
    List.nil_append, false_or, newName_injective.eq_iff] at h
  exact ⟨rfl, by simpa [policyKeys] using h⟩

/-- Saving a value where the store already says it changes what the store says about no key. -/
theorem lookup_migrated (hn : σ (newName k) = []) (hlen : v.length = k.size)
    (hv : validValue k v = true) (h : lookup cfg σ k = .ok (v, true)) (j : Key) :
    lookup cfg (Function.update σ (newName k) (encodeValue k v)) j = lookup cfg σ j := by
  have hstored : Stored cfg (Function.update σ (newName k) (encodeValue k v)) k v := .of_save hlen hv
  generalize hσ' : Function.update σ (newName k) (encodeValue k v) = σ' at hstored ⊢
  have hother : ∀ n, n ≠ newName k → σ' n = σ n := by
    intro n hne
    rw [← hσ', Function.update_of_ne hne]
  by_cases hj : j = k
  · subst hj
    rw [h, hstored.lookup_eq]
  · refine lookup_congr (hother _ (newName_injective.ne hj)) (fun hpolicy => ?_) fun hpolicy n hmem => ?_
    · -- the policy reads this key as one of its pieces: the piece was there before
      refine policyKeysAt_congr fun i hi => ?_
      by_cases hik : i = k
      · subst hik
        rw [legacyAt_migrated hi hstored, ← lookup_eq_legacyAt hi hn, h]
      · exact legacyAt_congr (hother _ (newName_injective.ne hik))
          (hother _ (newName_ne_oldName k i).symm)
    · refine hother n ?_
      rintro rfl
      exact hpolicy (kind_eq_joinPolicy.2 (mem_policyKeys_of_mem_legacyNames hmem).1)

end Lookup

/-! ### Reads -/

section Reads
variable {cfg : Config} {s s' : Sys} {k : Key} {key : String} {size : Nat}
  {faults : List (Option Fault)} {r : Bytes × Bool}

/-- The cache answers what the store says. -/
def Coherent (cfg : Config) (s : Sys) : Prop :=
  ∀ k, (s.cache k).loaded = true → lookup cfg s.store k = .ok ((s.cache k).value, (s.cache k).present)

theorem coherent_boot (cfg : Config) (σ : Store) : Coherent cfg ⟨σ, fun _ => Entry.empty⟩ := nofun

theorem Coherent.update (h : Coherent cfg s) {σ : Store}
    (hσ : ∀ j, j ≠ k → lookup cfg σ j = lookup cfg s.store j) (hr : lookup cfg σ k = .ok r) :
    Coherent cfg ⟨σ, Function.update s.cache k ⟨true, r.2, r.1⟩⟩ := by
  intro j hj
  by_cases hjk : j = k
  · subst hjk
    simpa using hr
  · simp only [Function.update_of_ne hjk] at hj ⊢
    rw [hσ j hjk]
    exact h j hj

/-- A load that succeeds leaves what the store says. -/
theorem loadValue_keeps {d : Dev} {σ : Store} (hr : (loadValue cfg k ⟨σ, faults⟩) = (.ok r, d)) :
    lookup cfg σ k = .ok r ∧ ∀ j, lookup cfg d.store j = lookup cfg σ j := by
  have hlookup : lookup cfg σ k = .ok r := by
    rcases (loadValue_lookup cfg k ⟨σ, faults⟩).result with h | ⟨e, h⟩
    · rw [← h, hr]
    · rw [hr] at h
      cases h
  refine ⟨hlookup, fun j => ?_⟩
  have ho := loadValue_spec cfg k ⟨σ, faults⟩
  rw [hr] at ho
  obtain ⟨v, present⟩ := r
  obtain ⟨σ', faults'⟩ := d
  rcases ho with _ | _ | _ | ⟨_, hn, _, hlen, hv⟩
  · rfl
  · rfl
  · exact lookup_migrated hn hlen hv hlookup j

/-- A read answers what the store says, or fails; either way the store goes on saying it. -/
structure ReadKeeps (cfg : Config) (s : Sys) (k : Key) (x : Except Err (Bytes × Bool) × Sys) : Prop where
  answer : ∀ r, x.1 = .ok r → lookup cfg s.store k = .ok r
  same : ∀ j, lookup cfg x.2.store j = lookup cfg s.store j
  coherent : Coherent cfg x.2

theorem settingRead_keeps (hs : Coherent cfg s) (hk : findSetting key = some k) (size : Nat)
    (faults : List (Option Fault)) : ReadKeeps cfg s k (settingRead cfg s key size faults) := by
  simp only [settingRead, hk]
  split_ifs with hsize hload
  · exact ⟨fun r hr => (by cases hr), fun _ => rfl, hs⟩
  · refine ⟨fun r hr => ?_, fun _ => rfl, hs⟩
    cases hr
    exact hs k hload
  · rcases hr : loadValue cfg k ⟨s.store, faults⟩ with ⟨e | r, d⟩
    · have ho := loadValue_spec cfg k ⟨s.store, faults⟩
      rw [hr] at ho
      obtain ⟨σ', faults'⟩ := d
      cases ho
      exact ⟨fun r hr => (by cases hr), fun _ => rfl, hs⟩
    · obtain ⟨hlookup, hsame⟩ := loadValue_keeps hr
      refine ⟨fun r' hr' => ?_, hsame, hs.update (fun j _ => hsame j) ?_⟩
      · cases hr'
        exact hlookup
      · rw [hsame, hlookup]

/-- With working storage a read answers what the store says. -/
theorem settingRead_clean (hs : Coherent cfg s) (k : Key) :
    (settingRead cfg s k.name k.size []).1 = lookup cfg s.store k := by
  simp only [settingRead, findSetting_name, ne_eq, not_true_eq_false, if_false]
  split_ifs with hload
  · exact (hs k hload).symm
  · have hclean := (loadValue_lookup cfg k ⟨s.store, []⟩).clean rfl
    rcases hr : loadValue cfg k ⟨s.store, []⟩ with ⟨e | r, d⟩ <;> rw [hr] at hclean
    · exact hclean
    · exact hclean

/-- A write that succeeds changes what the store says about its own key, as long as no other key falls
back to it; one that fails changes nothing. -/
structure WriteKeeps (cfg : Config) (s : Sys) (k : Key) (v : Bytes) (x : Except Err Unit × Sys) :
    Prop where
  coherent : Coherent cfg x.2
  failed : ∀ e, x.1 = .error e → x.2 = s
  stored : x.1 = .ok () → lookup cfg x.2.store k = .ok (v, true)
  same : ∀ j, j ≠ k → lookup cfg x.2.store j = lookup cfg s.store j

theorem settingWrite_keeps (hs : Coherent cfg s) (hk : k ∉ policyKeys) (v : Bytes)
    (faults : List (Option Fault)) :
    WriteKeeps cfg s k v (settingWrite cfg s k.name v faults) := by
  have hstep := settingWrite_spec cfg s (findSetting_name k) v faults
  generalize settingWrite cfg s k.name v faults = x at hstep ⊢
  obtain ⟨r, s'⟩ := x
  dsimp only at hstep
  rcases hstep with e | ⟨hlen, hv⟩ | hit
  · exact ⟨hs, fun _ _ => rfl, nofun, fun _ _ => rfl⟩
  · have hstored : Stored cfg (Function.update s.store (newName k) (encodeValue k v)) k v :=
      .of_save hlen hv
    have hsame : ∀ j, j ≠ k → lookup cfg (Function.update s.store (newName k) (encodeValue k v)) j =
        lookup cfg s.store j := by
      intro j hj
      refine lookup_congr (update_newName_of_ne hj _ _) (fun _ => ?_) fun _ n hn => ?_
      · refine policyKeysAt_congr fun i hi => ?_
        have hik : i ≠ k := by
          rintro rfl
          exact hk hi
        exact legacyAt_congr (update_newName_of_ne hik _ _)
          (Function.update_of_ne (newName_ne_oldName k i).symm _ _)
      · refine Function.update_of_ne ?_ _ _
        rintro rfl
        exact hk (mem_policyKeys_of_mem_legacyNames hn).2
    exact ⟨hs.update hsame hstored.lookup_eq, nofun, fun _ => hstored.lookup_eq, hsame⟩
  · refine ⟨hs, nofun, fun _ => ?_, fun _ _ => rfl⟩
    have hloaded : (s.cache k).loaded = true := by
      rw [show s.cache k = _ from hit]
    rw [hs k hloaded, show s.cache k = _ from hit]

/-- With working storage a valid value is written. -/
theorem settingWrite_clean (s : Sys) {k : Key} {v : Bytes} (hlen : v.length = k.size)
    (hv : validValue k v = true) : (settingWrite cfg s k.name v []).1 = .ok () := by
  simp only [settingWrite, findSetting_name, hlen, hv]
  rw [if_neg (by simp)]
  split_ifs
  · have hsave : (saveValue cfg k v ⟨s.store, []⟩).1 = .ok () := saveValue_clean hlen rfl
    rcases hr : saveValue cfg k v ⟨s.store, []⟩ with ⟨e | u, dev⟩
    · rw [hr] at hsave
      cases hsave
    · rfl
  · rfl

/-- The call neither writes a setting nor resets them. -/
def Op.isQuery : Op → Bool
  | .read _ _ _ | .reboot => true
  | _ => false

/-- What a history of reads and reboots keeps of the first store. -/
def Keeps (cfg : Config) (σ : Store) (s : Sys) : Prop :=
  Coherent cfg s ∧ ∀ j, lookup cfg s.store j = lookup cfg σ j

theorem Keeps.next {σ : Store} {op : Op} (h : Keeps cfg σ s) (hop : op.isQuery = true) :
    Keeps cfg σ (next cfg s op) := by
  rcases op with ⟨key, size, faults⟩ | ⟨key, v, faults⟩ | ⟨faults⟩ | _
  · show Keeps cfg σ (settingRead cfg s key size faults).2
    rcases hk : findSetting key with _ | k
    · rw [settingRead_unknown hk]
      exact h
    · have hkeeps := settingRead_keeps h.1 hk size faults
      exact ⟨hkeeps.coherent, fun j => (hkeeps.same j).trans (h.2 j)⟩
  · cases hop
  · cases hop
  · exact ⟨coherent_boot cfg s.store, h.2⟩

theorem Keeps.after {σ : Store} {ops : List Op} (h : Keeps cfg σ s)
    (hops : ∀ op ∈ ops, op.isQuery = true) : Keeps cfg σ (after cfg s ops) := by
  induction ops generalizing s with
  | nil => exact h
  | cons op ops ih =>
    exact ih (h.next (hops op List.mem_cons_self)) fun o ho => hops o (List.mem_cons_of_mem _ ho)

/-- **Migration is stable.** From any store contents, successful reads of a key answer the same value
and the same flag after any reads of any keys and any reboots, whatever reads and saves fail. -/
theorem migration_stable (cfg : Config) (σ : Store) (ops ops' : List Op)
    (hops : ∀ op ∈ ops, op.isQuery = true) (hops' : ∀ op ∈ ops', op.isQuery = true) (key : String)
    (size size' : Nat) (faults faults' : List (Option Fault)) (r r' : Bytes × Bool)
    (hr : (settingRead cfg (after cfg ⟨σ, fun _ => Entry.empty⟩ ops) key size faults).1 = .ok r)
    (hr' : (settingRead cfg (after cfg ⟨σ, fun _ => Entry.empty⟩ ops') key size' faults').1 = .ok r') :
    r = r' := by
  rcases hk : findSetting key with _ | k
  · rw [settingRead_unknown hk] at hr
    cases hr
  have hlookup : ∀ ops size faults r, (∀ op ∈ ops, op.isQuery = true) →
      (settingRead cfg (after cfg ⟨σ, fun _ => Entry.empty⟩ ops) key size faults).1 = .ok r →
        lookup cfg σ k = .ok r := by
    intro ops size faults r hops hr
    have hkeeps : Keeps cfg σ (after cfg ⟨σ, fun _ => Entry.empty⟩ ops) :=
      Keeps.after ⟨coherent_boot cfg σ, fun _ => rfl⟩ hops
    rw [← hkeeps.2 k]
    exact (settingRead_keeps hkeeps.1 hk size faults).answer r hr
  exact Except.ok.inj ((hlookup ops size faults r hops hr).symm.trans
    (hlookup ops' size' faults' r' hops' hr'))

/-- A legacy `autojoin` only. -/
def legacyAutojoin : Store := Function.update (fun _ => []) (oldName .autojoin) [1]

/-- The policy is read before and after `autojoin` is migrated by a read of its own. -/
theorem migration_stable_policy : ∃ r,
    (settingRead defaultConfig (after defaultConfig ⟨legacyAutojoin, fun _ => Entry.empty⟩
      [.read "autojoin" 1 [none, none, none, some ioFault]]) "join_policy" 3 []).1 = .ok r ∧
    (settingRead defaultConfig (after defaultConfig ⟨legacyAutojoin, fun _ => Entry.empty⟩
      [.read "autojoin" 1 [], .reboot]) "join_policy" 3 []).1 = .ok r ∧ r = ([1, 8, 0], true) := by
  have hr : (settingRead defaultConfig (after defaultConfig ⟨legacyAutojoin, fun _ => Entry.empty⟩
      [.read "autojoin" 1 [none, none, none, some ioFault]]) "join_policy" 3 []).1 =
        .ok ([1, 8, 0], true) := by
    decide
  have hr' : (settingRead defaultConfig (after defaultConfig ⟨legacyAutojoin, fun _ => Entry.empty⟩
      [.read "autojoin" 1 [], .reboot]) "join_policy" 3 []).1 = .ok ([1, 8, 0], true) := by
    decide
  have hsame : (([1, 8, 0], true) : Bytes × Bool) = ([1, 8, 0], true) :=
    migration_stable defaultConfig legacyAutojoin _ _ (by simp [Op.isQuery]) (by simp [Op.isQuery])
      "join_policy" 3 3 [] [] _ _ hr hr'
  exact ⟨_, hr, hsame ▸ hr', rfl⟩

end Reads

end Rzi.Settings
