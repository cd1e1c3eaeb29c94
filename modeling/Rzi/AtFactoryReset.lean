import Rzi.AtStart
import Rzi.CredentialSettings

/-!
# The factory reset of the AT service (`rzi_at_registry_factory_reset`)

The settings of the AT service are loaded by `rzi_at_builtin_register` and `load_mode`, and erased by
the hooks of two extensions: `nwm` by that of the network mode, `alias`, `sn`, `pword` and `lpm` by that
of the LoRaWAN package. CONFIG_RZI_AT_NVM depends on that package, so a build that loads has both hooks
(`factory_reset_complete`); without the package the strings would stay (`kept_without_lorawan`).

The state behind the service is the device of the LoRaWAN settings, which share the store.
-/

namespace Rzi.At.FactoryReset
open Storage Start

/-- The faults that the storage meets in the two hooks, in the order of its operations. -/
structure Faults where
  networkMode : List (Option Fault)
  /-- in `rzi_lorawan_clear_settings` -/
  clear : List (Option Fault)
  keys : List (Option Fault)

def returnCode : Except Err Unit → Int
  | .ok () => 0
  | .error e => e.rc

/-- `delete_stored_key`. -/
def deleteStoredKey (ns key : String) (d : Dev) : Except Err Unit × Dev :=
  let r := delete ns key d
  (if r.1 = .ok () ∨ r.1 = .error .notFound then .ok () else r.1, r.2)

/-- The loop of the LoRaWAN hook after a result. -/
def deleteStoredKeys : List String → Except Err Unit → Dev → Except Err Unit × Dev
  | [], result, d => (result, d)
  | key :: keys, result, d =>
    let r := deleteStoredKey "rzi" key d
    deleteStoredKeys keys (if result = .ok () then r.1 else result) r.2

/-- `keys`. -/
def ownedKeys : List String := ["alias", "sn", "pword", "lpm"]

def withStore (d : Lorawan.Device) (store : Store) : Lorawan.Device :=
  { d with settings := { d.settings with store := store } }

variable (build : Build) (faults : Faults)

/-- `extension_factory_reset` of the network mode. -/
def networkModeReset (s : At.State Lorawan.Device) : Int × At.State Lorawan.Device :=
  let r := deleteStoredKey "rzi" "nwm" ⟨s.rest.settings.store, faults.networkMode⟩
  (returnCode r.1, { s with rest := withStore s.rest r.2.store })

/-- `extension_factory_reset` of the LoRaWAN package. -/
def lorawanReset (s : At.State Lorawan.Device) : Int × At.State Lorawan.Device :=
  let c := s.rest.clear faults.clear
  if build.nvm then
    let r := deleteStoredKeys ownedKeys c.1 ⟨c.2.settings.store, faults.keys⟩
    (returnCode r.1, { s with rest := withStore c.2 r.2.store })
  else (returnCode c.1, { s with rest := c.2 })

/-- The hook of an extension; the LoRa package has none. -/
def hook : Start.Extension → At.Extension Lorawan.Device
  | .networkMode => ⟨some (networkModeReset faults)⟩
  | .lorawan => ⟨some (lorawanReset build faults)⟩
  | .lora => ⟨none⟩

section Commands
variable {ω : Type*} (port : Port ω) (commands : List (Command ω)) (extensions : List (At.Extension ω))

/-- `handle_factory`. -/
def handleFactory (_request : Request) (s : At.State ω) : Int × At.State ω :=
  let r := registryFactoryReset extensions s
  if r.1 ≠ 0 then r
  else (0, { (respondStatus port .ok r.2).2 with rebooted := true })

/-- The two ways to a factory reset. -/
inductive Reset where
  | atr | factory
deriving DecidableEq, Repr

def Reset.run : Reset → At.State ω → At.State ω
  | .atr, s => (execute port commands extensions (ascii "ATR") s).1
  | .factory, s => (handleFactory port extensions ⟨.run, none⟩ s).2

/-- A reset that worked reboots, and leaves what the hooks have left. -/
theorem Reset.run_ok (reset : Reset) {s : At.State ω} (h : (registryFactoryReset extensions s).1 = 0) :
    (reset.run port commands extensions s).rebooted = true ∧
      (reset.run port commands extensions s).rest = (registryFactoryReset extensions s).2.rest := by
  cases reset with
  | atr =>
    have hrun : execute port commands extensions (ascii "ATR") s =
        let r := registryFactoryReset extensions s
        let s₂ := (respondStatus port (if r.1 = 0 then .ok else .error) r.2).2
        if r.1 = 0 then ({ s₂ with rebooted := true }, [.factoryReset, .reboot])
        else (s₂, [.factoryReset]) := by
      unfold execute
      rw [if_neg (by decide), if_neg (by decide), if_neg (by decide), if_neg (by decide),
        if_neg (by decide), if_neg (by decide), if_pos (by decide)]
    show (execute port commands extensions (ascii "ATR") s).1.rebooted = true ∧
      (execute port commands extensions (ascii "ATR") s).1.rest = _
    rw [hrun]
    dsimp only
    rw [if_pos h]
    exact ⟨rfl, rfl⟩
  | factory =>
    show (handleFactory port extensions ⟨.run, none⟩ s).2.rebooted = true ∧
      (handleFactory port extensions ⟨.run, none⟩ s).2.rest = _
    unfold handleFactory
    dsimp only
    rw [if_neg (not_not.2 h)]
    exact ⟨rfl, rfl⟩

/-! ### The walk over the extensions -/

variable {extensions} {result : Int} {s : At.State ω} {Q : At.State ω → Prop}

/-- The first error is kept. -/
theorem runFactoryResets_result (h : (runFactoryResets extensions result s).1 = 0) : result = 0 := by
  induction extensions generalizing result s with
  | nil => exact h
  | cons e extensions ih =>
    unfold runFactoryResets at h
    split at h
    · exact ih h
    · have hkept := ih h
      split at hkept
      · rename_i hfailed
        exact hfailed.2
      · exact hkept

theorem runFactoryResets_keeps
    (hkeep : ∀ e ∈ extensions, ∀ f, e.factoryReset = some f → ∀ s, Q s → Q (f s).2) (hs : Q s) :
    Q (runFactoryResets extensions result s).2 := by
  induction extensions generalizing result s with
  | nil => exact hs
  | cons e extensions ih =>
    have hrest : ∀ e ∈ extensions, ∀ f, e.factoryReset = some f → ∀ s, Q s → Q (f s).2 :=
      fun e he => hkeep e (List.mem_cons_of_mem _ he)
    unfold runFactoryResets
    split
    · exact ih hrest hs
    · rename_i f hf
      exact ih hrest (hkeep e (List.mem_cons_self ..) f hf s hs)

/-- What one hook ensures when it returns 0, and every hook keeps, holds after a walk that returned 0. -/
theorem runFactoryResets_ensures
    (hkeep : ∀ e ∈ extensions, ∀ f, e.factoryReset = some f → ∀ s, Q s → Q (f s).2)
    {e : At.Extension ω} (he : e ∈ extensions) {f : At.State ω → Int × At.State ω}
    (hf : e.factoryReset = some f) (hensures : ∀ s, (f s).1 = 0 → Q (f s).2)
    (h : (runFactoryResets extensions result s).1 = 0) :
    Q (runFactoryResets extensions result s).2 := by
  induction extensions generalizing result s with
  | nil => cases he
  | cons e' extensions ih =>
    have hrest : ∀ e ∈ extensions, ∀ f, e.factoryReset = some f → ∀ s, Q s → Q (f s).2 :=
      fun e he => hkeep e (List.mem_cons_of_mem _ he)
    rcases List.mem_cons.1 he with rfl | he
    · unfold runFactoryResets at h ⊢
      rw [hf] at h ⊢
      dsimp only at h ⊢
      refine runFactoryResets_keeps hrest (hensures s ?_)
      by_contra hfailed
      have hkept := runFactoryResets_result h
      split at hkept
      · exact hfailed hkept
      · rename_i hnot
        exact hnot ⟨hfailed, hkept⟩
    · unfold runFactoryResets at h ⊢
      split at h
      · exact ih hrest he h
      · exact ih hrest he h

end Commands

/-! ### What the hooks erase -/

section Store
variable {ns key name : String} {keys : List String} {result : Except Err Unit} {d : Dev}

/-- A delete stores nothing. -/
theorem delete_empty (ns key : String) (h : d.store name = []) : (delete ns key d).2.store name = [] := by
  cases hn : buildName ns key with
  | error e =>
    unfold delete
    rw [hn]
    exact h
  | ok n =>
    rcases delete_outcome hn d with ⟨-, hs, -⟩ | ⟨-, hs, -⟩
    · rw [hs]
      exact h
    · rw [hs]
      by_cases hname : name = n
      · rw [hname, Function.update_self]
      · rw [Function.update_of_ne hname]
        exact h

theorem deleteStoredKey_empty (ns key : String) (h : d.store name = []) :
    (deleteStoredKey ns key d).2.store name = [] :=
  delete_empty ns key h

theorem deleteStoredKey_ok (hn : buildName ns key = .ok name) (h : (deleteStoredKey ns key d).1 = .ok ()) :
    (deleteStoredKey ns key d).2.store name = [] := by
  show (delete ns key d).2.store name = []
  rcases delete_outcome hn d with ⟨⟨e, he⟩, -⟩ | ⟨-, hs, -⟩
  · -- an error of the backend is none of those that are ignored
    unfold deleteStoredKey at h
    simp only [he, reduceCtorEq, Except.error.injEq, e.2, or_self, if_false] at h
  · rw [hs, Function.update_self]

theorem deleteStoredKeys_empty (keys : List String) (result : Except Err Unit) (h : d.store name = []) :
    (deleteStoredKeys keys result d).2.store name = [] := by
  induction keys generalizing result d with
  | nil => exact h
  | cons key keys ih => exact ih _ (deleteStoredKey_empty "rzi" key h)

theorem deleteStoredKeys_result (h : (deleteStoredKeys keys result d).1 = .ok ()) : result = .ok () := by
  induction keys generalizing result d with
  | nil => exact h
  | cons key keys ih =>
    have hkept := ih h
    split at hkept
    · assumption
    · exact hkept

theorem deleteStoredKeys_ok (h : (deleteStoredKeys keys result d).1 = .ok ()) (hkey : key ∈ keys)
    (hn : buildName "rzi" key = .ok name) : (deleteStoredKeys keys result d).2.store name = [] := by
  induction keys generalizing result d with
  | nil => cases hkey
  | cons k keys ih =>
    unfold deleteStoredKeys at h ⊢
    rcases List.mem_cons.1 hkey with rfl | hkey
    · have hkept := deleteStoredKeys_result h
      refine deleteStoredKeys_empty keys _ (deleteStoredKey_ok hn ?_)
      split at hkept
      · exact hkept
      · rename_i hfailed
        exact absurd hkept hfailed
    · exact ih h hkey

theorem deleteAll_empty (entries : List (String × Settings.Key)) (result : Except Err Unit)
    (h : d.store name = []) : (Settings.deleteAll entries result d).2.store name = [] := by
  induction entries generalizing result d with
  | nil => exact h
  | cons entry entries ih => exact ih _ (delete_empty entry.1 entry.2.name h)

theorem clear_empty {device : Lorawan.Device} (faults : List (Option Fault))
    (h : device.settings.store name = []) : (device.clear faults).2.settings.store name = [] := by
  have hwalk := deleteAll_empty (d := ⟨device.settings.store, faults⟩) Settings.manifest (.ok ()) h
  unfold Lorawan.Device.clear
  split
  · exact h
  · have hclear : (Settings.settingsClear device.settings faults).2.store name = [] := by
      unfold Settings.settingsClear
      split <;> rename_i hd <;> rw [hd] at hwalk <;> exact hwalk
    split <;> rename_i hs <;> rw [hs] at hclear <;> exact hclear

end Store

/-- Nothing is stored under the name. -/
def Erased (name : String) (s : At.State Lorawan.Device) : Prop := s.rest.settings.store name = []

theorem returnCode_eq_zero {rc : Except Err Unit} : returnCode rc = 0 ↔ rc = .ok () := by
  rcases rc with e | u
  · exact ⟨fun h => absurd h e.rc_ne_zero, fun h => (by cases h)⟩
  · exact ⟨fun _ => rfl, fun _ => rfl⟩

variable {build faults} {s : At.State Lorawan.Device} {name key : String}

theorem hook_keeps (e : Start.Extension) {f : At.State Lorawan.Device → Int × At.State Lorawan.Device}
    (hf : (hook build faults e).factoryReset = some f) (h : Erased name s) : Erased name (f s).2 := by
  cases e with
  | networkMode =>
    cases hf
    exact deleteStoredKey_empty "rzi" "nwm" h
  | lorawan =>
    cases hf
    have hclear := clear_empty faults.clear h
    unfold lorawanReset
    dsimp only
    split
    · exact deleteStoredKeys_empty ownedKeys _ hclear
    · exact hclear
  | lora => cases hf

theorem networkModeReset_erases (h : (networkModeReset faults s).1 = 0) :
    Erased "rzi/nwm" (networkModeReset faults s).2 :=
  deleteStoredKey_ok (by decide) (returnCode_eq_zero.1 h)

theorem lorawanReset_erases (hnvm : build.nvm = true) (hkey : key ∈ ownedKeys)
    (hn : buildName "rzi" key = .ok name) (h : (lorawanReset build faults s).1 = 0) :
    Erased name (lorawanReset build faults s).2 := by
  unfold lorawanReset at h ⊢
  dsimp only at h ⊢
  rw [if_pos hnvm] at h ⊢
  exact deleteStoredKeys_ok (returnCode_eq_zero.1 h) hkey hn

/-- The keys that a start loads. -/
def loadedKeys : List String := ["alias", "sn", "pword", "nwm"]

/-- A reset that returned 0, over extensions among which are the two hooks, has erased what is loaded. -/
theorem erased_of_reset (hnvm : build.nvm = true) {extensions : List Start.Extension}
    (hmode : .networkMode ∈ extensions) (hlorawan : .lorawan ∈ extensions)
    (h : (registryFactoryReset (extensions.map (hook build faults)) s).1 = 0) (hkey : key ∈ loadedKeys)
    (hn : buildName "rzi" key = .ok name) :
    Erased name (registryFactoryReset (extensions.map (hook build faults)) s).2 := by
  have hkeep : ∀ e ∈ extensions.map (hook build faults), ∀ f, e.factoryReset = some f →
      ∀ s, Erased name s → Erased name (f s).2 := by
    intro e he f hf s hs
    obtain ⟨e, -, rfl⟩ := List.mem_map.1 he
    exact hook_keeps e hf hs
  have howned : key ∈ ownedKeys ∨ key = "nwm" := by
    simp only [loadedKeys, ownedKeys, List.mem_cons, List.not_mem_nil, or_false] at hkey ⊢
    tauto
  rcases howned with howned | rfl
  · exact runFactoryResets_ensures hkeep (List.mem_map_of_mem hlorawan) rfl
      (fun s => lorawanReset_erases hnvm howned hn) h
  · have hname : name = "rzi/nwm" := by
      have hnwm : buildName "rzi" "nwm" = .ok "rzi/nwm" := by decide
      exact Except.ok.inj (hn.symm.trans hnwm)
    subst hname
    exact runFactoryResets_ensures hkeep (List.mem_map_of_mem hmode) rfl
      (fun s => networkModeReset_erases) h

/-! ### The next boot -/

section Boot
variable {env : Env} {store : Store} {f g : Start.State → Except Err Unit × Start.State}

/-- The reads of an attempt to start are answered from the store, with any faults. -/
def ReadsFrom (store : Store) (env : Env) : Prop :=
  ∀ key size, ∃ faults, env.storageRead key size = (read "rzi" key size ⟨store, faults⟩).1

/-- A read of what is not stored fails. -/
theorem ReadsFrom.error (h : ReadsFrom store env) (hn : buildName "rzi" key = .ok name)
    (hempty : store name = []) (size : Nat) : ∃ e, env.storageRead key size = .error e := by
  obtain ⟨faults, hread⟩ := h key size
  have hout := read_outcome hn size ⟨store, faults⟩
  rw [hread]
  generalize (read "rzi" key size ⟨store, faults⟩).1 = r at hout
  cases hout with
  | failed e => exact ⟨e, rfl⟩
  | absent => exact ⟨_, rfl⟩
  | found h => exact absurd hempty h

/-- None of the keys that are loaded is stored. -/
def Blank (store : Store) : Prop :=
  ∀ key ∈ loadedKeys, ∀ name, buildName "rzi" key = .ok name → store name = []

theorem Blank.error (hblank : Blank store) (h : ReadsFrom store env) (hkey : key ∈ loadedKeys)
    (hn : (buildName "rzi" key).isOk = true) (size : Nat) : ∃ e, env.storageRead key size = .error e := by
  cases hname : buildName "rzi" key with
  | error e =>
    rw [hname] at hn
    cases hn
  | ok name => exact h.error hname (hblank key hkey name hname) size

/-- A step that leaves the settings alone. -/
def SameSettings (f : Start.State → Except Err Unit × Start.State) : Prop :=
  ∀ s, (f s).2.settings = s.settings

theorem SameSettings.andThen (hf : SameSettings f) (hg : SameSettings g) :
    SameSettings (Start.andThen f g) := by
  intro s
  have hs := hf s
  unfold Start.andThen
  split <;> rename_i t ht <;> rw [ht] at hs
  · exact hs
  · exact (hg t).trans hs

theorem sameSettings_registerNames (build : Build) (names : List (List UInt8)) :
    SameSettings (registerNames build names) :=
  fun _ => rfl

theorem sameSettings_addExtension (build : Build) (e : Start.Extension) :
    SameSettings (addExtension build e) := by
  intro s
  unfold addExtension
  split <;> rfl

theorem sameSettings_addListener (l : Listener) : SameSettings (addListener l) := by
  intro s
  unfold addListener
  split <;> rfl

theorem sameSettings_registerGroups (build : Build) (groups : List (List (List UInt8))) :
    SameSettings (registerGroups build groups) := by
  induction groups with
  | nil => exact fun _ => rfl
  | cons names groups ih => exact (sameSettings_registerNames build names).andThen ih

theorem loadString_blank (hblank : Blank store) (h : ReadsFrom store env) (hkey : key ∈ loadedKeys)
    (hn : (buildName "rzi" key).isOk = true) (maxLen : Nat) : Start.loadString build env key maxLen = none := by
  obtain ⟨e, he⟩ := hblank.error h hkey hn 17
  unfold Start.loadString
  rw [he]
  split <;> rfl

theorem loadStrings_blank (hblank : Blank store) (h : ReadsFrom store env) :
    SameSettings (loadStrings build env) := by
  intro s
  unfold loadStrings
  rw [loadString_blank hblank h (by decide) (by decide), loadString_blank hblank h (by decide) (by decide),
    loadString_blank hblank h (by decide) (by decide)]
  rfl

theorem loadMode_blank (hblank : Blank store) (h : ReadsFrom store env) :
    SameSettings (loadMode build env) := by
  intro s
  obtain ⟨e, he⟩ := hblank.error h (show "nwm" ∈ loadedKeys by decide) (by decide) 1
  unfold loadMode
  split
  · rfl
  split
  · rfl
  · rw [he]
    dsimp only
    split <;> rfl

theorem builtinRegister_blank (build : Build) (hblank : Blank store) (h : ReadsFrom store env) :
    SameSettings (Start.builtinRegister build env) := by
  have hskip : SameSettings fun s => (.ok (), s) := fun _ => rfl
  refine (sameSettings_registerNames build systemNames).andThen ((loadStrings_blank hblank h).andThen ?_)
  refine SameSettings.andThen ?_ (SameSettings.andThen ?_ ?_)
  · split
    · refine (loadMode_blank hblank h).andThen
        ((sameSettings_registerNames build networkModeNames).andThen ?_)
      split
      · exact sameSettings_addExtension build .networkMode
      · exact hskip
    · exact hskip
  · split
    · exact (sameSettings_registerGroups build lorawanGroups).andThen (sameSettings_addExtension build .lorawan)
    · exact hskip
  · split
    · exact (sameSettings_addListener .lora).andThen ((sameSettings_registerGroups build loraGroups).andThen
        (sameSettings_addExtension build .lora))
    · exact hskip

theorem start_blank (build : Build) (hblank : Blank store) (h : ReadsFrom store env) :
    SameSettings (Start.start build env) := by
  intro s
  have hbuiltin := builtinRegister_blank build hblank h { s with started := true }
  unfold Start.start
  split
  · rfl
  split
  · rfl
  split
  · rfl
  split <;> rename_i t ht <;> rw [ht] at hbuiltin
  · exact hbuiltin
  · dsimp only
    split <;> exact hbuiltin

/-- Whatever is registered and however often a start is attempted, the settings are those of the image. -/
theorem settings_after (build : Build) (hblank : Blank store) (acts : List Start.Act)
    (h : ∀ env, .start env ∈ acts → ReadsFrom store env) :
    (after build acts).state.settings = build.defaults := by
  have hboot : (Sys.boot build).state.settings = build.defaults := rfl
  refine List.foldlRecOn (motive := fun x => x.state.settings = build.defaults) acts (next build) hboot
    fun x hx a ha => ?_
  cases a with
  | register batch => exact hx
  | start env => exact (start_blank build hblank (h env ha) x.state).trans hx

/-- In a started service the extensions of the build are present. -/
theorem extensions_of_started (acts : List Start.Act) (h : (after build acts).state.started = true) :
    ∀ e ∈ build.extensions, e ∈ (after build acts).state.extensions := by
  revert h
  have hboot : (Sys.boot build).state.started = true →
      ∀ e ∈ build.extensions, e ∈ (Sys.boot build).state.extensions := fun h => (by cases h)
  refine List.foldlRecOn (motive := fun x => x.state.started = true →
    ∀ e ∈ build.extensions, e ∈ x.state.extensions) acts (next build) hboot fun x hx a _ => ?_
  cases a with
  | register batch => exact hx
  | start env =>
    intro hstarted
    change (Start.start build env x.state).2.started = true at hstarted
    show ∀ e ∈ build.extensions, e ∈ (Start.start build env x.state).2.extensions
    by_cases hok : (Start.start build env x.state).1 = .ok ()
    · obtain ⟨-, -, -, t, ht, hend⟩ := start_ok hok
      have hext : t.extensions = x.state.extensions ++ build.extensions :=
        (appends_builtinRegister build env).extensions { x.state with started := true } t ht
      intro e he
      rw [hend]
      show e ∈ t.extensions
      rw [hext]
      exact List.mem_append_right _ he
    · rcases start_error hok with hsame | hcleared
      · rw [hsame] at hstarted ⊢
        exact hx hstarted
      · rw [hcleared] at hstarted
        cases hstarted

end Boot

/-- After a factory reset of a started service that returned 0 the device reboots, and whatever the
application registers and however its attempts to start go, no setting differs from the image. -/
theorem factory_reset_complete (build : Build) (hnvm : build.nvm = true) (acts : List Start.Act)
    (hstarted : (after build acts).state.started = true) (port : Port Lorawan.Device)
    (commands : List (Command Lorawan.Device)) (reset : Reset) (faults : Faults)
    (s : At.State Lorawan.Device)
    (hreset : (registryFactoryReset ((after build acts).state.extensions.map (hook build faults)) s).1 = 0)
    (boots : List Start.Act)
    (hboots : ∀ env, .start env ∈ boots → ReadsFrom
      (reset.run port commands ((after build acts).state.extensions.map (hook build faults))
        s).rest.settings.store env) :
    (reset.run port commands ((after build acts).state.extensions.map (hook build faults)) s).rebooted =
        true ∧
      (after build boots).state.settings = build.defaults := by
  obtain ⟨hrebooted, hrest⟩ := Reset.run_ok port commands _ reset hreset
  have hpackage : build.commandLorawan = true := build.nvm_lorawan hnvm
  have hmode : .networkMode ∈ (after build acts).state.extensions :=
    extensions_of_started acts hstarted _ (by simp [Build.extensions, hnvm])
  have hlorawan : .lorawan ∈ (after build acts).state.extensions :=
    extensions_of_started acts hstarted _ (by simp [Build.extensions, hpackage])
  refine ⟨hrebooted, settings_after build (fun key hkey name hn => ?_) boots hboots⟩
  rw [hrest]
  exact erased_of_reset hnvm hmode hlorawan hreset hkey hn

/-- What the LoRaWAN hook erases besides its own settings is erased by no other. -/
theorem kept_without_lorawan {extensions : List Start.Extension} (h : .lorawan ∉ extensions)
    (hname : name ≠ "rzi/nwm") :
    (registryFactoryReset (extensions.map (hook build faults)) s).2.rest.settings.store name =
      s.rest.settings.store name := by
  refine runFactoryResets_keeps (Q := fun t : At.State Lorawan.Device => t.rest.settings.store name = s.rest.settings.store name)
    (fun e he f hf t ht => ?_) rfl
  obtain ⟨e, hmem, rfl⟩ := List.mem_map.1 he
  cases e with
  | networkMode =>
    cases hf
    have hn : buildName "rzi" "nwm" = .ok "rzi/nwm" := by decide
    rcases delete_outcome hn ⟨t.rest.settings.store, faults.networkMode⟩ with ⟨-, hs, -⟩ | ⟨-, hs, -⟩
    · exact (congrFun hs name).trans ht
    · exact (congrFun hs name).trans ((Function.update_of_ne hname _ _).trans ht)
  | lorawan => exact absurd hmem h
  | lora => cases hf

/-- A device with an alias and a network mode of its own. -/
def namedDevice : Lorawan.Device where
  settings := ⟨Function.update (Function.update (fun _ => []) "rzi/alias" (0x41 :: List.replicate 16 0))
    "rzi/nwm" [0], fun _ => .empty⟩
  credentials := .empty

def named : At.State Lorawan.Device := ⟨.reset, false, false, [], namedDevice, [], false⟩

def plainPort : Port Lorawan.Device := ⟨64, 512, 160, false, fun _ => 0, none⟩

/-- A service that has been started by an application that registers nothing. -/
def startedService : List (At.Extension Lorawan.Device) :=
  (after lorawanBuild [.start goodEnv]).state.extensions.map (hook lorawanBuild ⟨[], [], []⟩)

/-- A start after the reset that reads what is stored. -/
def nextStart : Start.Act :=
  let store := (Reset.atr.run plainPort [] startedService named).rest.settings.store
  .start { goodEnv with storageRead := fun key size => (read "rzi" key size ⟨store, []⟩).1 }

theorem factory_reset_complete_named :
    (Reset.atr.run plainPort [] startedService named).rebooted = true ∧
      (after lorawanBuild [nextStart]).state.settings = lorawanBuild.defaults := by
  refine factory_reset_complete lorawanBuild rfl [.start goodEnv] (by decide) plainPort [] .atr
    ⟨[], [], []⟩ named (by decide) [nextStart] fun env henv key size => ?_
  obtain rfl := Start.Act.start.inj (List.mem_singleton.1 henv)
  exact ⟨[], rfl⟩

end Rzi.At.FactoryReset
