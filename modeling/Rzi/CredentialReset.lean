import Rzi.CredentialSettings

/-!
# A successful factory reset is complete

The reset walks every key of the schema in both namespaces, and every name a load can read is one of
these. So a reset that returned 0 has emptied them all (`settingsClear_ok`), the store then says of
every key that it is not stored (`lookup_absent`), and reads and reboots leave it at that.
-/

namespace Rzi.Settings
open Storage

variable {cfg : Config} {σ : Store} {k : Key}

theorem legacyAt_absent (hn : σ (newName k) = []) (ho : σ (oldName k) = []) :
    legacyAt σ k = .ok (defaultValue k, false) := by
  rw [legacyAt, if_pos hn, readAt_eq_notFound.2 ho]
  rfl

theorem policyKeysAt_absent {ks : List Key}
    (h : ∀ k ∈ ks, σ (newName k) = [] ∧ σ (oldName k) = []) :
    policyKeysAt σ ks = .ok ((ks.map defaultValue).flatten, false) := by
  induction ks with
  | nil => rfl
  | cons k ks ih =>
    obtain ⟨hn, ho⟩ := h k List.mem_cons_self
    rw [policyKeysAt, legacyAt_absent hn ho, ih fun j hj => h j (List.mem_cons_of_mem _ hj)]
    rfl

/-- Of a key whose names are all empty the store says the default. -/
theorem lookup_absent (cfg : Config) (h : ∀ j, σ (newName j) = [] ∧ σ (oldName j) = []) (k : Key) :
    lookup cfg σ k = .ok (defaultValue k, false) := by
  unfold lookup
  split_ifs with hk
  · obtain rfl := kind_eq_joinPolicy.1 hk
    have hrecord : recordAt cfg σ (newName .joinPolicy) (Key.size .joinPolicy) = .error .notFound := by
      rw [recordAt, (h .joinPolicy).1]
      rfl
    rw [hrecord]
    show policyKeysAt σ policyKeys = _
    rw [policyKeysAt_absent fun j _ => h j, policy_default]
  · simp only [readAt_eq_notFound.2 (h k).1, legacyAt_absent (h k).1 (h k).2]
    split_ifs
    · rw [bandAt, readAt_eq_notFound.2 (h .band).2]
    · rfl

/-! ### The reset -/

/-- A delete that met a fault makes the whole walk fail. -/
theorem deleteAll_ok {l : List (String × Key)} (hl : ∀ e ∈ l, e ∈ manifest) {rc : Except Err Unit}
    {d : Dev} (h : (deleteAll l rc d).1 = .ok ()) :
    rc = .ok () ∧ ∀ i < l.length, d.faults.getD i none = none := by
  induction l generalizing rc d with
  | nil => exact ⟨h, nofun⟩
  | cons e l ih =>
    obtain ⟨ns, k⟩ := e
    have hn := buildName_entry (hl (ns, k) List.mem_cons_self)
    rw [deleteAll] at h
    obtain ⟨hkeep, hrest⟩ := ih (fun e he => hl e (List.mem_cons_of_mem _ he)) h
    rw [delete_faults hn] at hrest
    rcases delete_outcome hn d with ⟨⟨e, he⟩, -⟩ | ⟨-, -, hhead⟩
    · -- the error is kept, or an earlier one is
      exfalso
      rw [he] at hkeep
      simp only [keepError] at hkeep
      split_ifs at hkeep with hrc
      exact hrc ⟨e.2, hkeep⟩
    · refine ⟨?_, fun i hi => ?_⟩
      · unfold keepError at hkeep
        split at hkeep
        · split_ifs at hkeep
          exact hkeep
        · exact hkeep
      · cases i with
        | zero => rwa [← List.headD_eq_getD]
        | succ i =>
          have := hrest i (by simpa using hi)
          cases hf : d.faults with
          | nil => rfl
          | cons f fs => simpa [hf] using this

/-- A reset that returned 0 has emptied every name of the schema and the cache. -/
theorem settingsClear_ok {s : Sys} {faults : List (Option Fault)}
    (h : (settingsClear s faults).1 = .ok ()) :
    (∀ j, (settingsClear s faults).2.store (newName j) = [] ∧
        (settingsClear s faults).2.store (oldName j) = []) ∧
      (settingsClear s faults).2.cache = fun _ => Entry.empty := by
  have hwalk : (deleteAll manifest (.ok ()) ⟨s.store, faults⟩).1 = .ok () := by
    unfold settingsClear at h
    split at h <;> simp_all
  have hfault : ∀ e ∈ manifest, (faultAt faults e).isSome = false := by
    intro e he
    have hnone := (deleteAll_ok (fun _ h => h) hwalk).2 _ (List.idxOf_lt_length_iff.2 he)
    rw [faultAt, hnone]
    rfl
  have hempty : ∀ e ∈ manifest, (settingsClear s faults).2.store (entryName e) = [] := by
    intro e he
    rw [settingsClear_store s faults e he, hfault e he]
    rfl
  refine ⟨fun j => ⟨hempty _ (new_mem_manifest j), hempty _ (old_mem_manifest j)⟩, ?_⟩
  unfold settingsClear at h ⊢
  split at h
  · cases h
  · rfl

end Rzi.Settings

namespace Rzi.Lorawan
open Settings Storage

variable {cfg : Config} {build : Build} {d : Device}

/-- The store says of every key that it is not stored. -/
def Blank (cfg : Config) (d : Device) : Prop :=
  InSync cfg d ∧ ∀ k, lookup cfg d.settings.store k = .ok (defaultValue k, false)

theorem blank_clear {faults : List (Option Fault)} (h : (d.clear faults).1 = .ok ()) :
    Blank cfg (d.clear faults).2 := by
  unfold Device.clear at h ⊢
  split_ifs at h ⊢ with hbusy
  rcases hs : settingsClear d.settings faults with ⟨e | _, s⟩
  · rw [hs] at h
    cases h
  · have hok : (settingsClear d.settings faults).1 = .ok () := by rw [hs]
    have hclear := settingsClear_ok hok
    rw [hs] at hclear
    obtain ⟨hempty, hcache⟩ := hclear
    refine ⟨⟨fun k hk => ?_, nofun⟩, lookup_absent cfg hempty⟩
    rw [show s.cache = _ from hcache] at hk
    cases hk

theorem Blank.after (h : Blank cfg d) {calls : List Call}
    (hcalls : ∀ call ∈ calls, call.isQuery = true) : Blank cfg (d.after cfg build calls) := by
  induction calls generalizing d with
  | nil => exact h
  | cons call calls ih =>
    have hstep : Steady cfg d (d.next cfg build call) :=
      steady_query h.1 (hcalls call List.mem_cons_self)
    exact ih ⟨hstep.1, fun k => (hstep.2 k).trans (h.2 k)⟩ fun c hc =>
      hcalls c (List.mem_cons_of_mem _ hc)

/-- What a device answers, with working storage, when nothing is stored. -/
structure Factory (cfg : Config) (d : Device) : Prop where
  settings : ∀ k, (settingRead cfg d.settings k.name k.size []).1 = .ok (defaultValue k, false)
  devEui : (d.getDevEui cfg (some 8) .none).1 = .error .noData
  appEui : (d.getAppEui cfg (some 8) .none).1 = .error .noData
  appKey : (d.getAppKey cfg (some 16) .none).1 = .error .noData
  genAppKey : (d.getGenAppKey cfg (some 16) .none).1 = .error .noData
  channelMask : (d.getChannelMask cfg .none).1 = .ok (false, .replicate 6 0)
  unrestricted : ∀ build, ∃ config, (d.buildConfig cfg build .none).1 = .ok config ∧
    config.channelMask = none

theorem Blank.factory (h : Blank cfg d) : Factory cfg d := by
  have hfields : d.fields cfg = .ok { candidate fun k => (defaultValue k, false) with loaded := true } := by
    rw [fields_eq h.1]
    exact fieldsOf_of_store fun k _ => h.2 k
  have hread : ∀ {α : Type} (g : CredentialStore → Except Err α),
      (∀ c, g { c with joinActive := false } = g c) → (d.readLocked cfg g .none).1 =
        g { candidate fun k => (defaultValue k, false) with loaded := true } := by
    intro α g hg
    rw [readLocked_fields hg, hfields]
    rfl
  have hget : ∀ {n : Nat} (src : CredentialStore → Vector UInt8 n) (valid : CredentialStore → Bool),
      (∀ c, src { c with joinActive := false } = src c ∧ valid { c with joinActive := false } = valid c) →
        valid { candidate fun k => (defaultValue k, false) with loaded := true } = false →
          (d.getBytes cfg src valid (some n) .none).1 = .error .noData := by
    intro n src valid hc hvalid
    rw [Device.getBytes, if_neg (by simp), hread _ fun c => by rw [(hc c).1, (hc c).2], hvalid]
    rfl
  refine ⟨fun k => ?_, ?_, ?_, ?_, ?_, ?_, fun build => ?_⟩
  · rw [settingRead_clean h.1.coherent, h.2]
  · exact hget (·.devEui) (·.devEuiSet) (fun _ => ⟨rfl, rfl⟩) rfl
  · exact hget (·.appEui) (·.appEuiSet) (fun _ => ⟨rfl, rfl⟩) rfl
  · exact hget (·.appKey) (·.appKeySet) (fun _ => ⟨rfl, rfl⟩) rfl
  · exact hget (·.genAppKey) (·.genAppKeySet) (fun _ => ⟨rfl, rfl⟩) rfl
  · refine (hread _ fun _ => rfl).trans ?_
    decide
  · exact ⟨_, hread _ fun _ => rfl, rfl⟩

/-- **A successful factory reset is complete.** Whatever was stored and cached, after a reset that
returned 0 every setting reads as its default and not found, the credentials are missing and the
channel mask is unrestricted, until a setting is written: any reads and reboots may come between. -/
theorem clear_complete (cfg : Config) (build : Build) (d : Device) (faults : List (Option Fault))
    (h : (d.clear faults).1 = .ok ()) (calls : List Call)
    (hcalls : ∀ call ∈ calls, call.isQuery = true) :
    Factory cfg ((d.clear faults).2.after cfg build calls) :=
  ((blank_clear h).after hcalls).factory

/-- A device with a legacy DevEUI, a corrupt region and cached credentials. -/
def usedDevice : Device where
  settings :=
    ⟨Function.update (Function.update (fun _ => []) (oldName .deveui) [1, 2, 3, 4, 5, 6, 7, 8])
      (newName .region) [200], fun _ => ⟨true, true, [1]⟩⟩
  credentials := { CredentialStore.empty with devEuiSet := true, loaded := true }

theorem clear_complete_used : (usedDevice.clear []).1 = .ok () ∧
    Factory defaultConfig ((usedDevice.clear []).2.after defaultConfig ⟨true, true, true, .eu868⟩
      [.read "region" 1 [], .reboot, .load .none]) := by
  have h : (usedDevice.clear []).1 = .ok () := by decide
  exact ⟨h, clear_complete defaultConfig _ usedDevice [] h _ (by simp [Call.isQuery])⟩

end Rzi.Lorawan
