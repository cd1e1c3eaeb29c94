import Rzi.SettingsSpec

/-!
# A written setting is durable

`DurableWrite cfg s key v faults`: if the write of `v` to `key` in state `s` returned 0, then every
later successful read of `key` answers `v`, across any calls and reboots without another write to
`key` and without a reset. A write is skipped when the cache holds the value already; a reset that
fails keeps the cache but may have deleted the record, so the skipped write can leave nothing stored.
`CacheOk` is what survives every call: a cached value is stored unless its record is gone.
-/

namespace Rzi.Settings
open Storage

variable {cfg : Config} {s : Sys} {k : Key} {v : Bytes}

/-- A value cached as stored is what the store holds, unless a reset deleted its record. -/
def CacheOk (cfg : Config) (s : Sys) : Prop :=
  ∀ k v, CacheHit s k v → s.store (newName k) ≠ [] → Stored cfg s.store k v

theorem cacheOk_boot (cfg : Config) (σ : Store) : CacheOk cfg ⟨σ, fun _ => Entry.empty⟩ :=
  fun _ _ h => by cases h

theorem CacheOk.update (h : CacheOk cfg s) {σ' : Store} {e : Entry}
    (hk : ∀ v, e = ⟨true, true, v⟩ → Stored cfg σ' k v)
    (hother : ∀ j, j ≠ k → σ' (newName j) = s.store (newName j)) :
    CacheOk cfg ⟨σ', Function.update s.cache k e⟩ := by
  intro j w hit hne
  by_cases hj : j = k
  · subst hj
    exact hk w (by simpa [CacheHit] using hit)
  · have hit' : CacheHit s j w := by simpa [CacheHit, Function.update_of_ne hj] using hit
    exact (h j w hit' (by rw [← hother j hj]; exact hne)).congr (hother j hj)

theorem update_newName_of_ne {j : Key} (h : j ≠ k) (σ : Store) (w : Bytes) :
    Function.update σ (newName k) w (newName j) = σ (newName j) :=
  Function.update_of_ne (newName_injective.ne h) _ _

/-- A read of one key leaves the record and the cache entry of another. -/
theorem ReadStep.other {j : Key} {r : Except Err (Bytes × Bool)} {s' : Sys} (hr : ReadStep cfg s j r s')
    (hj : j ≠ k) : s'.store (newName k) = s.store (newName k) ∧ s'.cache k = s.cache k := by
  cases hr with
  | failed e => exact ⟨rfl, rfl⟩
  | cached _ => exact ⟨rfl, rfl⟩
  | loaded _ w present σ' ho =>
    refine ⟨?_, Function.update_of_ne (Ne.symm hj) _ _⟩
    cases ho with
    | absent _ _ => rfl
    | kept _ _ => rfl
    | migrated _ _ _ _ _ => exact update_newName_of_ne (Ne.symm hj) _ _

theorem CacheOk.read (h : CacheOk cfg s) {r : Except Err (Bytes × Bool)} {s' : Sys}
    (hr : ReadStep cfg s k r s') : CacheOk cfg s' := by
  cases hr with
  | failed e => exact h
  | cached _ => exact h
  | loaded _ v present σ' ho =>
    cases ho with
    | absent _ _ => exact h.update (fun w hw => by simp at hw) fun _ _ => rfl
    | kept _ hs =>
      refine h.update (fun w hw => ?_) fun _ _ => rfl
      cases hw
      exact hs
    | migrated _ _ _ hlen hv =>
      refine h.update (fun w hw => ?_) fun j hj => update_newName_of_ne hj _ _
      cases hw
      exact .of_save hlen hv

theorem CacheOk.write (h : CacheOk cfg s) {r : Except Err Unit} {s' : Sys}
    (hw : WriteStep s k v r s') : CacheOk cfg s' := by
  cases hw with
  | failed e => exact h
  | skipped _ => exact h
  | saved hl hv =>
    refine h.update (fun w hw => ?_) fun j hj => update_newName_of_ne hj _ _
    cases hw
    exact .of_save hl hv

/-- A reset empties a record or leaves it, and keeps or empties the whole cache. -/
theorem CacheOk.clear (h : CacheOk cfg s) (faults : List (Option Fault)) :
    CacheOk cfg (settingsClear s faults).2 := by
  intro j w hit hne
  have hstore := settingsClear_store s faults (nsLorawan, j) (new_mem_manifest j)
  change _ = if _ then s.store (newName j) else [] at hstore
  change (settingsClear s faults).2.store (newName j) = _ at hstore
  rcases settingsClear_cache s faults j with hc | hc
  · split_ifs at hstore
    · have hit' : CacheHit s j w := hc.symm.trans hit
      exact (h j w hit' (hstore ▸ hne)).congr hstore
    · exact absurd hstore hne
  · rw [CacheHit, hc] at hit
    cases hit

theorem cacheOk_next (h : CacheOk cfg s) (op : Op) : CacheOk cfg (next cfg s op) := by
  cases op with
  | read key size faults =>
    rcases hk : findSetting key with _ | k
    · simpa [next, settingRead_unknown hk] using h
    · exact h.read (settingRead_spec cfg s hk size faults)
  | write key v faults =>
    rcases hk : findSetting key with _ | k
    · simpa [next, settingWrite_unknown hk] using h
    · exact h.write (settingWrite_spec cfg s hk v faults)
  | clear faults => exact h.clear faults
  | reboot => exact cacheOk_boot cfg s.store

theorem cacheOk_after (h : CacheOk cfg s) (ops : List Op) : CacheOk cfg (after cfg s ops) := by
  induction ops generalizing s with
  | nil => exact h
  | cons op ops ih => exact ih (cacheOk_next h op)

/-! ### Between a write and the reads that follow -/

/-- `k` is stored as `v`, and cached as nothing else. -/
structure Fixed (cfg : Config) (k : Key) (v : Bytes) (s : Sys) : Prop where
  stored : Stored cfg s.store k v
  cached : (s.cache k).loaded = true → CacheHit s k v

theorem Fixed.of_write {r : Except Err Unit} {s' : Sys} (hs : CacheOk cfg s)
    (hw : WriteStep s k v r s') (hr : r = .ok ())
    (hcond : CacheHit s k v → s.store (newName k) ≠ []) : Fixed cfg k v s' := by
  cases hw with
  | failed e => cases hr
  | skipped hit => exact ⟨hs k v hit (hcond hit), fun _ => hit⟩
  | saved hl hv => exact ⟨.of_save hl hv, fun _ => by simp [CacheHit]⟩

/-- A read of `k` from a state in which `k` is fixed answers its value and keeps it fixed. -/
theorem Fixed.read (h : Fixed cfg k v s) {r : Except Err (Bytes × Bool)} {s' : Sys}
    (hr : ReadStep cfg s k r s') :
    Fixed cfg k v s' ∧ ∀ w found, r = .ok (w, found) → w = v ∧ found = true := by
  cases hr with
  | failed e => exact ⟨h, by simp⟩
  | cached hload =>
    refine ⟨h, fun w found hr => ?_⟩
    have hit := h.cached hload
    rw [CacheHit] at hit
    simp only [hit, Except.ok.injEq, Prod.mk.injEq] at hr
    exact ⟨hr.1.symm, hr.2.symm⟩
  | loaded _ w present σ' ho =>
    cases ho with
    | absent hn _ => exact absurd hn h.stored.ne_nil
    | migrated _ hn _ _ _ => exact absurd hn h.stored.ne_nil
    | kept _ hs =>
      obtain rfl := h.stored.unique hs
      exact ⟨⟨hs, fun _ => by simp [CacheHit]⟩, fun w' found hr => by
        simp only [Except.ok.injEq, Prod.mk.injEq] at hr
        exact ⟨hr.1.symm, hr.2.symm⟩⟩

theorem Fixed.congr (h : Fixed cfg k v s) {s' : Sys}
    (hs : s'.store (newName k) = s.store (newName k)) (hc : s'.cache k = s.cache k) :
    Fixed cfg k v s' :=
  ⟨h.stored.congr hs, fun hl => by rw [CacheHit, hc]; exact h.cached (by rwa [← hc])⟩

/-- The call is neither a write to `key` nor a reset. -/
def Op.Spares (key : String) : Op → Prop
  | .write key' _ _ => key' ≠ key
  | .clear _ => False
  | _ => True

theorem Fixed.next (h : Fixed cfg k v s) {key : String} (hk : findSetting key = some k) {op : Op}
    (hop : op.Spares key) : Fixed cfg k v (next cfg s op) := by
  cases op with
  | read key' size faults =>
    rcases hk' : findSetting key' with _ | j
    · simpa [Settings.next, settingRead_unknown hk'] using h
    have hr := settingRead_spec cfg s hk' size faults
    by_cases hj : j = k
    · subst hj
      exact (h.read hr).1
    · obtain ⟨hstore, hcache⟩ := hr.other hj
      exact h.congr hstore hcache
  | write key' w faults =>
    rcases hk' : findSetting key' with _ | j
    · simpa [Settings.next, settingWrite_unknown hk'] using h
    have hj : j ≠ k := by
      rintro rfl
      exact hop (by rw [eq_name_of_findSetting hk', eq_name_of_findSetting hk])
    have hw := settingWrite_spec cfg s hk' w faults
    change Fixed cfg k v (settingWrite cfg s key' w faults).2
    generalize (settingWrite cfg s key' w faults).1 = r at hw
    generalize (settingWrite cfg s key' w faults).2 = s' at hw ⊢
    cases hw with
    | failed e => exact h
    | skipped _ => exact h
    | saved _ _ =>
      exact h.congr (update_newName_of_ne (Ne.symm hj) _ _) (Function.update_of_ne (Ne.symm hj) _ _)
  | clear faults => exact absurd hop id
  | reboot => exact ⟨h.stored, fun hl => by cases hl⟩

theorem Fixed.after (h : Fixed cfg k v s) {key : String} (hk : findSetting key = some k)
    {ops : List Op} (hops : ∀ op ∈ ops, op.Spares key) : Fixed cfg k v (after cfg s ops) := by
  induction ops generalizing s with
  | nil => exact h
  | cons op ops ih =>
    exact ih (h.next hk (hops op (by simp))) fun o ho => hops o (by simp [ho])

/-! ### Durability -/

/-- If the write returned 0, every later successful read of the key answers the written value, as
long as there is no other write to the key and no reset. -/
def DurableWrite (cfg : Config) (s : Sys) (key : String) (v : Bytes)
    (faults : List (Option Fault)) : Prop :=
  (settingWrite cfg s key v faults).1 = .ok () →
    ∀ post size faults' w found, (∀ op ∈ post, op.Spares key) →
      (settingRead cfg (after cfg (settingWrite cfg s key v faults).2 post) key size faults').1 =
        .ok (w, found) → w = v ∧ found = true

/-- A write that the cache already answers finds the record of its key in the store. -/
def FindsRecord (s : Sys) (key : String) (v : Bytes) : Prop :=
  ∀ k, findSetting key = some k → CacheHit s k v → s.store (newName k) ≠ []

/-- After any history, a write that finds its record, or is not skipped, is durable. -/
theorem settingWrite_durable (cfg : Config) (σ : Store) (pre : List Op) (key : String) (v : Bytes)
    (faults : List (Option Fault))
    (hcond : FindsRecord (after cfg ⟨σ, fun _ => Entry.empty⟩ pre) key v) :
    DurableWrite cfg (after cfg ⟨σ, fun _ => Entry.empty⟩ pre) key v faults := by
  intro hok post size faults' w found hpost hread
  have hs := cacheOk_after (cacheOk_boot cfg σ) pre
  generalize after cfg ⟨σ, fun _ => Entry.empty⟩ pre = s at hs hcond hok hread
  rcases hk : findSetting key with _ | k
  · rw [settingWrite_unknown hk] at hok
    cases hok
  have hfix : Fixed cfg k v (settingWrite cfg s key v faults).2 :=
    .of_write hs (settingWrite_spec cfg s hk v faults) hok (hcond k hk)
  exact ((hfix.after hk hpost).read (settingRead_spec cfg _ hk size faults')).2 w found hread

def defaultConfig : Config := ⟨256, by decide, by decide⟩

def ioFault : Fault := ⟨.io, by decide⟩

/-- A DevEUI is written, a reset deletes it and fails at the next key, the same DevEUI is written
again and the device reboots: the second write returned 0 and is lost. -/
theorem settingWrite_not_durable :
    ¬ ∀ (cfg : Config) (σ : Store) (pre : List Op) (key : String) (v : Bytes)
      (faults : List (Option Fault)),
        DurableWrite cfg (after cfg ⟨σ, fun _ => Entry.empty⟩ pre) key v faults := by
  intro h
  have hlost := h defaultConfig (fun _ => [])
    [.write "deveui" [1, 2, 3, 4, 5, 6, 7, 8] [], .clear [none, some ioFault]]
    "deveui" [1, 2, 3, 4, 5, 6, 7, 8] [] (by decide) [.reboot] 8 []
    (defaultValue .deveui) false (by simp [Op.Spares]) (by decide)
  simp at hlost

/-- A DevEUI has been written to an empty store. -/
def deveuiWritten : Sys :=
  after defaultConfig ⟨fun _ => [], fun _ => Entry.empty⟩ [.write "deveui" [1, 2, 3, 4, 5, 6, 7, 8] []]

/-- The DevEUI is written once more: the write is skipped and finds the record of the first, so it is durable
too. -/
theorem settingWrite_durable_deveui :
    CacheHit deveuiWritten .deveui [1, 2, 3, 4, 5, 6, 7, 8] ∧
      DurableWrite defaultConfig deveuiWritten "deveui" [1, 2, 3, 4, 5, 6, 7, 8] [] := by
  have hfinds : FindsRecord deveuiWritten "deveui" [1, 2, 3, 4, 5, 6, 7, 8] := by
    intro k hk _
    obtain rfl : k = .deveui := (Option.some.inj hk).symm
    decide
  exact ⟨by decide, settingWrite_durable defaultConfig _ _ "deveui" _ [] hfinds⟩

end Rzi.Settings
