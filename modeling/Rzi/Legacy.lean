import Rzi.Durability
import Rzi.Lib.Run

/-!
# A superseded legacy value does not come back

After a successful write of a key, its reads answer the latest written value or, after a reset, the
default. `Note` follows the calls and records which of the two a read may answer. The reset deletes
the new name before the legacy names, so a reset that fails in between uncovers a legacy value;
`Orderly` is the condition on a call that keeps this from happening. Under it a key is either
`Fixed` or `Gone`: its new name and all the names it falls back to are empty.
-/

namespace Rzi.Settings
open Storage Lts

variable {cfg : Config} {s : Sys} {k : Key} {v : Bytes}

/-- The latest value written to a key, and whether a reset was called since. -/
structure Note where
  value : Bytes
  cleared : Bool

def Note.step (cfg : Config) (k : Key) (s : Sys) (n : Note) : Op → Note
  | .write key v faults =>
    if key = k.name ∧ (settingWrite cfg s key v faults).1 = .ok () then ⟨v, false⟩ else n
  | .clear _ => ⟨n.value, true⟩
  | _ => n

def Note.after (cfg : Config) (k : Key) : Sys → Note → List Op → Note
  | _, n, [] => n
  | s, n, op :: ops => Note.after cfg k (next cfg s op) (n.step cfg k s op) ops

/-- The latest written value, or the default once a reset was called. -/
def Note.Allows (k : Key) (n : Note) (w : Bytes) (found : Bool) : Prop :=
  (w = n.value ∧ found = true) ∨ (n.cleared = true ∧ w = defaultValue k ∧ found = false)

/-- A call that cannot uncover a legacy value of `k`: a reset that deletes the record of `k` deletes
every stored name `k` falls back to, a skipped write of `k` finds the record, and a write to a name
`k` falls back to finds it too. -/
def Orderly (k : Key) (s : Sys) : Op → Prop
  | .clear faults => (faultAt faults (nsLorawan, k)).isSome ∨
      ∀ e ∈ manifest, entryName e ∈ legacyNames k → s.store (entryName e) ≠ [] →
        faultAt faults e = none
  | .write key v _ => ∀ j, findSetting key = some j →
      (j = k → CacheHit s k v → s.store (newName k) ≠ []) ∧
        (newName j ∈ legacyNames k → s.store (newName k) ≠ [])
  | _ => True

theorem exists_entry_of_mem_legacyNames {n : String} (h : n ∈ legacyNames k) :
    ∃ e ∈ manifest, entryName e = n := by
  have hnew : ∀ j, ∃ e ∈ manifest, entryName e = newName j := fun j => ⟨_, new_mem_manifest j, rfl⟩
  have hold : ∀ j, ∃ e ∈ manifest, entryName e = oldName j := fun j => ⟨_, old_mem_manifest j, rfl⟩
  have hmem : (∃ j, n = newName j) ∨ ∃ j, n = oldName j := by
    cases k
    case joinPolicy =>
      obtain ⟨j, -, hj⟩ := List.mem_flatMap.1 h
      simp only [List.mem_cons, List.not_mem_nil, or_false] at hj
      exact hj.imp (fun h => ⟨j, h⟩) fun h => ⟨j, h⟩
    case region =>
      simp only [legacyNames, List.mem_cons, List.not_mem_nil, or_false] at h
      exact .inr (h.elim (fun h => ⟨_, h⟩) fun h => ⟨_, h⟩)
    all_goals exact .inr ⟨_, List.mem_singleton.1 h⟩
  rcases hmem with ⟨j, rfl⟩ | ⟨j, rfl⟩
  exacts [hnew j, hold j]

/-! ### The key is gone -/

/-- Nothing is stored for `k`, and the cache holds at most the noted value or the default. -/
structure Gone (k : Key) (n : Note) (s : Sys) : Prop where
  cleared : n.cleared = true
  record : s.store (newName k) = []
  legacy : ∀ m ∈ legacyNames k, s.store m = []
  cached : (s.cache k).loaded = true →
    CacheHit s k n.value ∨ s.cache k = ⟨true, false, defaultValue k⟩

/-- What a run of orderly calls keeps after a successful write of `k`. -/
def Settled (cfg : Config) (k : Key) (n : Note) (s : Sys) : Prop :=
  Fixed cfg k n.value s ∨ Gone k n s

namespace Gone
variable {n : Note}

theorem read (h : Gone k n s) {r : Except Err (Bytes × Bool)} {s' : Sys}
    (hr : ReadStep cfg s k r s') :
    Gone k n s' ∧ ∀ w found, r = .ok (w, found) → n.Allows k w found := by
  cases hr with
  | failed e => exact ⟨h, by simp⟩
  | cached hload =>
    refine ⟨h, fun w found hr => ?_⟩
    simp only [Except.ok.injEq, Prod.mk.injEq] at hr
    rcases h.cached hload with hit | hc
    · rw [CacheHit] at hit
      rw [hit] at hr
      exact .inl ⟨hr.1.symm, hr.2.symm⟩
    · rw [hc] at hr
      exact .inr ⟨h.cleared, hr.1.symm, hr.2.symm⟩
  | loaded _ w present σ' ho =>
    cases ho with
    | kept _ hs => exact absurd h.record hs.ne_nil
    | migrated _ _ hl _ _ =>
      obtain ⟨m, hm, hne⟩ := hl
      exact absurd (h.legacy m hm) hne
    | absent _ _ =>
      refine ⟨⟨h.cleared, h.record, h.legacy, fun _ => .inr (by simp)⟩, fun w' found hr => ?_⟩
      simp only [Except.ok.injEq, Prod.mk.injEq] at hr
      exact .inr ⟨h.cleared, hr.1.symm, hr.2.symm⟩

theorem congr (h : Gone k n s) {s' : Sys} (hs : s'.store (newName k) = s.store (newName k))
    (hl : ∀ m ∈ legacyNames k, s'.store m = s.store m) (hc : s'.cache k = s.cache k) :
    Gone k n s' :=
  ⟨h.cleared, hs.trans h.record, fun m hm => (hl m hm).trans (h.legacy m hm),
    fun hload => by rw [CacheHit, hc]; exact h.cached (by rwa [← hc])⟩

/-- Loading another key migrates nothing into the names of `k`, since those are empty. -/
theorem read_other (h : Gone k n s) {j : Key} (hj : j ≠ k) {r : Except Err (Bytes × Bool)}
    {s' : Sys} (hr : ReadStep cfg s j r s') : Gone k n s' := by
  obtain ⟨hstore, hcache⟩ := hr.other hj
  refine h.congr hstore (fun m hm => ?_) hcache
  cases hr with
  | failed e => rfl
  | cached _ => rfl
  | loaded _ w present σ' ho =>
    cases ho with
    | absent _ _ => rfl
    | kept _ _ => rfl
    | migrated _ _ hl _ _ =>
      refine Function.update_of_ne ?_ _ _
      rintro rfl
      obtain ⟨m', hm', hne⟩ := hl
      exact hne (h.legacy m' (legacyNames_subset hm hm'))

end Gone

/-! ### One call -/

theorem Settled.reset {n : Note} (h : Settled cfg k n s) {faults : List (Option Fault)}
    (ho : Orderly k s (.clear faults)) :
    Settled cfg k ⟨n.value, true⟩ (settingsClear s faults).2 := by
  have hstore : ∀ e ∈ manifest, (settingsClear s faults).2.store (entryName e) =
      if (faultAt faults e).isSome then s.store (entryName e) else [] :=
    settingsClear_store s faults
  have hnew : (settingsClear s faults).2.store (newName k) =
      if (faultAt faults (nsLorawan, k)).isSome then s.store (newName k) else [] :=
    hstore _ (new_mem_manifest k)
  have hcache := settingsClear_cache s faults k
  have hload : ∀ {P : Prop}, ((settingsClear s faults).2.cache k = s.cache k →
      (s.cache k).loaded = true → P) → ((settingsClear s faults).2.cache k).loaded = true → P := by
    intro P hP hl
    rcases hcache with hc | hc
    · exact hP hc (by rwa [← hc])
    · rw [hc] at hl; cases hl
  rcases h with h | h
  · by_cases hf : (faultAt faults (nsLorawan, k)).isSome
    -- the record survives
    · rw [if_pos hf] at hnew
      exact .inl ⟨h.stored.congr hnew, hload fun hc hl => hc.trans (h.cached hl)⟩
    · rw [if_neg hf] at hnew
      refine .inr ⟨rfl, hnew, fun m hm => ?_, hload fun hc hl => .inl (hc.trans (h.cached hl))⟩
      obtain ⟨e, he, rfl⟩ := exists_entry_of_mem_legacyNames hm
      rw [hstore e he]
      by_cases hne : s.store (entryName e) = []
      · rw [hne, ite_self]
      · rw [ho.resolve_left hf e he hm hne]; rfl
  · refine .inr ⟨rfl, ?_, fun m hm => ?_, hload fun hc hl => ?_⟩
    · rw [hnew, h.record, ite_self]
    · obtain ⟨e, he, rfl⟩ := exists_entry_of_mem_legacyNames hm
      rw [hstore e he, h.legacy _ hm, ite_self]
    · exact (h.cached hl).imp (fun hit => hc.trans hit) fun hd => hc.trans hd

theorem Settled.write {n : Note} (h : Settled cfg k n s) {key : String} {w : Bytes}
    {faults : List (Option Fault)} (ho : Orderly k s (.write key w faults)) :
    Settled cfg k (n.step cfg k s (.write key w faults)) (settingWrite cfg s key w faults).2 := by
  simp only [Note.step]
  rcases hk' : findSetting key with _ | j
  · simp only [settingWrite_unknown hk', reduceCtorEq, and_false, ↓reduceIte]
    exact h
  obtain ⟨hself, hlegacy⟩ := ho j hk'
  obtain rfl := eq_name_of_findSetting hk'
  have hw := settingWrite_spec cfg s hk' w faults
  by_cases hj : j = k
  · subst hj
    generalize (settingWrite cfg s j.name w faults).1 = r at hw ⊢
    generalize (settingWrite cfg s j.name w faults).2 = s' at hw ⊢
    cases hw with
    | failed e => simpa using h
    | saved hl hv => simpa using .inl ⟨.of_save hl hv, fun _ => by simp [CacheHit]⟩
    | skipped hit =>
      simp only [and_self, ↓reduceIte]
      rcases h with h | h
      · have := h.cached (by rw [show s.cache j = _ from hit])
        rw [CacheHit] at this hit
        rw [hit] at this
        cases this
        exact .inl h
      · exact absurd h.record (hself rfl hit)
  · rw [if_neg fun h => hj (name_injective h.1)]
    rcases h with h | h
    · have hop : Op.Spares k.name (.write j.name w faults) := fun hn => hj (name_injective hn)
      exact .inl (h.next (findSetting_name k) hop)
    · refine .inr ?_
      generalize (settingWrite cfg s j.name w faults).1 = r at hw
      generalize (settingWrite cfg s j.name w faults).2 = s' at hw ⊢
      cases hw with
      | failed e => exact h
      | skipped _ => exact h
      | saved _ _ =>
        refine h.congr (update_newName_of_ne (Ne.symm hj) _ _) (fun m hm => ?_)
          (Function.update_of_ne (Ne.symm hj) _ _)
        refine Function.update_of_ne ?_ _ _
        rintro rfl
        exact hlegacy hm h.record

theorem Settled.next {n : Note} (h : Settled cfg k n s) {op : Op} (ho : Orderly k s op) :
    Settled cfg k (n.step cfg k s op) (next cfg s op) := by
  cases op with
  | clear faults => exact h.reset ho
  | write key w faults => exact h.write ho
  | reboot =>
    rcases h with h | h
    · exact .inl ⟨h.stored, fun hl => by cases hl⟩
    · exact .inr ⟨h.cleared, h.record, h.legacy, fun hl => by cases hl⟩
  | read key size faults =>
    rcases h with h | h
    · have hop : Op.Spares k.name (.read key size faults) := trivial
      exact .inl (h.next (findSetting_name k) hop)
    refine .inr ?_
    show Gone k n (settingRead cfg s key size faults).2
    rcases hk' : findSetting key with _ | j
    · rw [settingRead_unknown hk']
      exact h
    have hr := settingRead_spec cfg s hk' size faults
    by_cases hj : j = k
    · subst hj
      exact (h.read hr).1
    · exact h.read_other hj hr

theorem Settled.after {n : Note} (h : Settled cfg k n s) {ops : List Op}
    (hops : Along (Settings.next cfg) (Orderly k) s ops) :
    Settled cfg k (Note.after cfg k s n ops) (Settings.after cfg s ops) := by
  induction ops generalizing s n with
  | nil => exact h
  | cons op ops ih => exact ih (h.next hops.1) hops.2

theorem Settled.read {n : Note} (h : Settled cfg k n s) {r : Except Err (Bytes × Bool)} {s' : Sys}
    (hr : ReadStep cfg s k r s') {w : Bytes} {found : Bool} (hok : r = .ok (w, found)) :
    n.Allows k w found := by
  rcases h with h | h
  · exact .inl ((h.read hr).2 w found hok)
  · exact (h.read hr).2 w found hok

/-! ### Whole histories -/

/-- If the write returned 0, a successful read after the calls `post` answers the latest written
value or, after a reset, the default. -/
def SupersedesLegacy (cfg : Config) (s : Sys) (k : Key) (v : Bytes) (faults : List (Option Fault))
    (post : List Op) : Prop :=
  (settingWrite cfg s k.name v faults).1 = .ok () →
    ∀ size faults' w found,
      (settingRead cfg (after cfg (settingWrite cfg s k.name v faults).2 post) k.name size faults').1 =
          .ok (w, found) →
        (Note.after cfg k (settingWrite cfg s k.name v faults).2 ⟨v, false⟩ post).Allows k w found

/-- In a history whose calls are orderly from the write on, no legacy value comes back. -/
theorem legacy_superseded (cfg : Config) (σ : Store) (pre : List Op) (k : Key) (v : Bytes)
    (faults : List (Option Fault)) (post : List Op)
    (hrun : Along (next cfg) (Orderly k) (after cfg ⟨σ, fun _ => Entry.empty⟩ pre)
      (.write k.name v faults :: post)) :
    SupersedesLegacy cfg (after cfg ⟨σ, fun _ => Entry.empty⟩ pre) k v faults post := by
  intro hok size faults' w found hread
  have hs := cacheOk_after (cacheOk_boot cfg σ) pre
  generalize after cfg ⟨σ, fun _ => Entry.empty⟩ pre = s at hs hrun hok hread ⊢
  have hk := findSetting_name k
  have hfix : Fixed cfg k v (settingWrite cfg s k.name v faults).2 :=
    .of_write hs (settingWrite_spec cfg s hk v faults) hok ((hrun.1 k hk).1 rfl)
  have hset := Settled.after (n := ⟨v, false⟩) (.inl hfix) hrun.2
  exact hset.read (settingRead_spec cfg _ hk size faults') hread

def legacyCfm : Store := Function.update (fun _ => []) (oldName .cfm) [1]

/-- `cfm` is written, a reset deletes the new record but fails to delete `rzi/cfm`, the device
reboots: the read answers the legacy value. -/
theorem legacy_comes_back :
    ¬ ∀ (cfg : Config) (σ : Store) (pre : List Op) (k : Key) (v : Bytes)
      (faults : List (Option Fault)) (post : List Op),
        SupersedesLegacy cfg (after cfg ⟨σ, fun _ => Entry.empty⟩ pre) k v faults post := by
  intro h
  have hback := h defaultConfig legacyCfm [] .cfm [0] []
    [.clear (List.replicate 28 none ++ [some ioFault]), .reboot] (by decide) 1 [] [1] true
    (by decide)
  rcases hback with ⟨hw, -⟩ | ⟨-, -, hf⟩
  · exact absurd hw (by decide)
  · cases hf

theorem legacy_superseded_cfm :
    Along (next defaultConfig) (Orderly .cfm) (after defaultConfig ⟨legacyCfm, fun _ => Entry.empty⟩ [])
        [.write "cfm" [0] [], .clear [], .reboot] ∧
      SupersedesLegacy defaultConfig (after defaultConfig ⟨legacyCfm, fun _ => Entry.empty⟩ []) .cfm
        [0] [] [.clear [], .reboot] := by
  have h : Along (next defaultConfig) (Orderly .cfm)
      (after defaultConfig ⟨legacyCfm, fun _ => Entry.empty⟩ [])
      [.write Key.cfm.name [0] [], .clear [], .reboot] := by
    refine ⟨fun j hj => ?_, .inr fun e _ _ _ => rfl, trivial, trivial⟩
    obtain rfl : j = .cfm := Option.some.inj (hj.symm.trans (findSetting_name .cfm))
    exact ⟨fun _ hit => (by cases hit), fun hmem => absurd hmem (newName_not_mem_legacyNames _)⟩
  exact ⟨h, legacy_superseded defaultConfig legacyCfm [] .cfm [0] [] _ h⟩

end Rzi.Settings
