import Rzi.SettingsSpec

/-!
# No invalid setting gets out

A value can come from the default, from the record of its key, from a legacy name in either
namespace, from three legacy keys or from a band number, and each path checks it in a place of its
own. `ValidFor k v` is what all of them end in; `settingRead_valid` says that a read of any key, after
any history over any store, answers such a value or changes neither the cache nor its outputs.
-/

namespace Rzi.Settings
open Storage

variable {cfg : Config} {s : Sys} {k : Key} {v : Bytes}

/-- A value of the size of its key that passes `valid_value`. -/
def ValidFor (k : Key) (v : Bytes) : Prop := v.length = k.size ∧ validValue k v = true

/-- What the caller of `rzi_lorawan_setting_read` passes for the answer. -/
structure Out where
  value : Bytes
  found : Bool
deriving DecidableEq, Repr

/-- `rzi_lorawan_setting_read` with its output arguments, which are written at the very end. -/
def settingReadOut (cfg : Config) (s : Sys) (key : String) (size : Nat)
    (faults : List (Option Fault)) (out : Out) : Except Err Unit × Out × Sys :=
  match settingRead cfg s key size faults with
  | (.error e, s) => (.error e, out, s)
  | (.ok (value, found), s) => (.ok (), ⟨value, found⟩, s)

theorem validFor_default (k : Key) : ValidFor k (defaultValue k) :=
  ⟨length_defaultValue k, validValue_defaultValue k⟩

/-- Every way a load can succeed ends in a valid value. -/
theorem LoadOutcome.validFor {σ σ' : Store} {present : Bool}
    (h : LoadOutcome cfg σ k (.ok (v, present)) σ') : ValidFor k v := by
  rcases h with _ | _ | ⟨_, hs⟩ | ⟨_, _, _, hlen, hv⟩
  · exact validFor_default k
  · exact ⟨hs.length_eq, hs.valid⟩
  · exact ⟨hlen, hv⟩

/-! ### The cache -/

/-- Every value in the cache is valid. -/
def CacheValid (s : Sys) : Prop := ∀ k, (s.cache k).loaded = true → ValidFor k (s.cache k).value

theorem cacheValid_boot (σ : Store) : CacheValid ⟨σ, fun _ => Entry.empty⟩ := nofun

theorem CacheValid.update (h : CacheValid s) (hv : ValidFor k v) (present : Bool) (σ : Store) :
    CacheValid ⟨σ, Function.update s.cache k ⟨true, present, v⟩⟩ := by
  intro j hj
  by_cases hjk : j = k
  · subst hjk
    simpa using hv
  · simp only [Function.update_of_ne hjk] at hj ⊢
    exact h j hj

theorem CacheValid.read (h : CacheValid s) {r : Except Err (Bytes × Bool)} {s' : Sys}
    (hr : ReadStep cfg s k r s') : CacheValid s' := by
  rcases hr with _ | _ | ⟨_, v, present, σ', ho⟩
  · exact h
  · exact h
  · exact h.update ho.validFor present σ'

theorem CacheValid.write (h : CacheValid s) {r : Except Err Unit} {s' : Sys}
    (hw : WriteStep s k v r s') : CacheValid s' := by
  rcases hw with _ | ⟨hlen, hv⟩ | _
  · exact h
  · exact h.update ⟨hlen, hv⟩ true _
  · exact h

theorem CacheValid.clear (h : CacheValid s) (faults : List (Option Fault)) :
    CacheValid (settingsClear s faults).2 := by
  intro j hj
  rcases settingsClear_cache s faults j with hc | hc
  · rw [hc] at hj ⊢
    exact h j hj
  · rw [hc] at hj
    cases hj

theorem cacheValid_next (h : CacheValid s) (op : Op) : CacheValid (next cfg s op) := by
  rcases op with ⟨key, size, faults⟩ | ⟨key, v, faults⟩ | ⟨faults⟩ | _
  · rcases hk : findSetting key with _ | k
    · simpa [next, settingRead_unknown hk] using h
    · exact h.read (settingRead_spec cfg s hk size faults)
  · rcases hk : findSetting key with _ | k
    · simpa [next, settingWrite_unknown hk] using h
    · exact h.write (settingWrite_spec cfg s hk v faults)
  · exact h.clear faults
  · exact cacheValid_boot s.store

theorem cacheValid_after (h : CacheValid s) (ops : List Op) : CacheValid (after cfg s ops) := by
  induction ops generalizing s with
  | nil => exact h
  | cons op ops ih => exact ih (cacheValid_next h op)

/-! ### Reads -/

/-- A failed read leaves the cache as it is. -/
theorem settingRead_error {key : String} {size : Nat} {faults : List (Option Fault)} {e : Err}
    (h : (settingRead cfg s key size faults).1 = .error e) :
    (settingRead cfg s key size faults).2.cache = s.cache := by
  rcases hk : findSetting key with _ | k
  · rw [settingRead_unknown hk]
  · have hr := settingRead_spec cfg s hk size faults
    rw [h] at hr
    generalize (settingRead cfg s key size faults).2 = s' at hr ⊢
    cases hr
    rfl

/-- A read of the key's own size can only fail before the key is loaded. -/
theorem settingRead_error_not_loaded {faults : List (Option Fault)} {e : Err}
    (h : (settingRead cfg s k.name k.size faults).1 = .error e) : (s.cache k).loaded = false := by
  by_contra hloaded
  rw [settingRead, findSetting_name] at h
  simp only [ne_eq, not_true_eq_false, if_false, Bool.not_eq_false] at h hloaded
  rw [if_pos hloaded] at h
  cases h

/-- What a read may do: answer a valid value, or fail and leave its outputs and the cache. A call with
another size than the key's is refused before the entry is looked at. -/
structure ReadSafe (s : Sys) (key : String) (size : Nat) (out : Out)
    (r : Except Err Unit × Out × Sys) : Prop where
  valid : r.1 = .ok () → ∃ k, findSetting key = some k ∧ ValidFor k r.2.1.value
  outputs : ∀ e, r.1 = .error e → r.2.1 = out
  cache : ∀ e, r.1 = .error e → r.2.2.cache = s.cache
  notLoaded : ∀ e, r.1 = .error e →
    ∀ k, findSetting key = some k → size = k.size → (r.2.2.cache k).loaded = false

/-- **No invalid setting gets out.** This holds after any history over any store contents and with any
storage failures, for every key. -/
theorem settingRead_valid (cfg : Config) (σ : Store) (ops : List Op) (key : String) (size : Nat)
    (faults : List (Option Fault)) (out : Out) :
    ReadSafe (after cfg ⟨σ, fun _ => Entry.empty⟩ ops) key size out
      (settingReadOut cfg (after cfg ⟨σ, fun _ => Entry.empty⟩ ops) key size faults out) := by
  have hvalid : CacheValid (after cfg ⟨σ, fun _ => Entry.empty⟩ ops) :=
    cacheValid_after (cacheValid_boot σ) ops
  generalize after cfg ⟨σ, fun _ => Entry.empty⟩ ops = s at hvalid ⊢
  unfold settingReadOut
  rcases hr : settingRead cfg s key size faults with ⟨e | ⟨value, found⟩, s'⟩
  · have herror : (settingRead cfg s key size faults).1 = .error e := by rw [hr]
    have hcache : s'.cache = s.cache := by
      rw [← settingRead_error herror, hr]
    refine ⟨nofun, fun _ _ => rfl, fun _ _ => hcache, ?_⟩
    rintro - - k hk rfl
    obtain rfl := eq_name_of_findSetting hk
    show (s'.cache k).loaded = false
    rw [hcache]
    exact settingRead_error_not_loaded herror
  · refine ⟨fun _ => ?_, nofun, nofun, nofun⟩
    rcases hk : findSetting key with _ | k
    · rw [settingRead_unknown hk] at hr
      cases hr
    · refine ⟨k, rfl, ?_⟩
      have hstep : ReadStep cfg s k (.ok (value, found)) s' := by
        simpa only [hr] using settingRead_spec cfg s hk size faults
      rcases hstep with _ | hloaded | ⟨_, _, _, _, ho⟩
      · exact hvalid k hloaded
      · exact ho.validFor

end Rzi.Settings
