import Rzi.Lora

/-!
# The raw LoRa service over any backend (`lora.c`, `lora_backend.h`)

`Rzi.Lora` has the service on USP, with the radio behind it. Here the backend is any table of functions,
and the configuration has all its fields. `rzi_lora_init` and `rzi_lora_set_config` publish what they are
given before the backend's last answer; `errors_change_nothing_iff` says for which calls, and in which
runs, an error nevertheless changes nothing.
-/

namespace Rzi.LoraService

/-- `struct rzi_lora_config`. -/
structure Config extends Lora.Config where
  frequencyHz : UInt32
  bandwidth : UInt32
  syncWord : UInt16
  iqInverted : Bool
  cad : Bool
  fixedLength : Bool
  fskBitrate : UInt32
  fskDeviation : UInt32
  symbolTimeout : UInt8
deriving DecidableEq

def Config.init : Config :=
  { Lora.Config.init with
    frequencyHz := 868000000, bandwidth := 0, syncWord := 0x3444, iqInverted := false, cad := false
    fixedLength := false, fskBitrate := 49152, fskDeviation := 5000, symbolTimeout := 0 }

/-- What `rzi_lora_set_config` checks. -/
def Config.Valid (c : Config) : Prop :=
  5 ≤ c.spreadingFactor ∧ c.spreadingFactor ≤ 12 ∧ 5 ≤ c.txPowerDbm ∧ c.txPowerDbm ≤ 22 ∧
    5 ≤ c.preambleLength ∧ c.codingRate ≤ 3

instance (c : Config) : Decidable c.Valid := inferInstanceAs (Decidable (_ ∧ _))

/-- `enum rzi_lora_modulation`. -/
inductive Modulation where
  | lora | fsk
deriving DecidableEq, Repr

/-- `struct rzi_lora_backend_api`, as far as starting, stopping and configuring go; `none` is NULL. -/
structure Api (β : Type*) where
  start : Option (Modulation → β → Except Err Unit × β)
  stop : Option (β → Except Err Unit × β)
  applyConfig : Option (Config → β → Except Err Unit × β)

/-- The static variables of `lora.c`, and the backend. -/
structure Service (β : Type*) where
  started : Bool
  rxActive : Bool
  modulation : Modulation
  config : Config
  backend : β

variable {β : Type*} (api : Api β)

def Service.boot (b : β) : Service β := ⟨false, false, .lora, .init, b⟩

/-- The backend is asked to apply the stored configuration. -/
def applyConfig (s : Service β) : Except Err Unit × Service β :=
  match api.applyConfig with
  | none => (.ok (), s)
  | some apply => ((apply s.config s.backend).1, { s with backend := (apply s.config s.backend).2 })

/-- `rzi_lora_init`; `none` is a value that the enumeration does not have. -/
def loraInit (isr : Bool) (value : Option Modulation) (s : Service β) : Except Err Unit × Service β :=
  if isr then (.error .isr, s)
  else
    match value, api.start with
    | none, _ => (.error .invalid, s)
    | some _, none => (.error .notSupported, s)
    | some value, some start =>
      match start value s.backend with
      | (.error e, b) => (.error e, { s with backend := b })
      | (.ok (), b) => applyConfig api { s with modulation := value, started := true, backend := b }

/-- `rzi_lora_stop`. -/
def loraStop (isr : Bool) (s : Service β) : Except Err Unit × Service β :=
  if isr then (.error .isr, s)
  else
    match api.stop with
    | none => (.ok (), { s with started := false, rxActive := false })
    | some stop =>
      match stop s.backend with
      | (.error e, b) => (.error e, { s with backend := b })
      | (.ok (), b) => (.ok (), { s with started := false, rxActive := false, backend := b })

/-- `rzi_lora_is_started`. -/
def loraIsStarted (s : Service β) : Bool := s.started

/-- `rzi_lora_get_config`, with a destination. -/
def loraGetConfig (isr : Bool) (s : Service β) : Except Err Config :=
  if isr then .error .isr else .ok s.config

/-- `rzi_lora_set_config`; `none` is NULL. -/
def loraSetConfig (isr : Bool) (config : Option Config) (s : Service β) : Except Err Unit × Service β :=
  if isr then (.error .isr, s)
  else
    match config with
    | none => (.error .invalid, s)
    | some c =>
      if ¬ c.Valid then (.error .invalid, s)
      else if s.started then applyConfig api { s with config := c }
      else (.ok (), { s with config := c })

/-! ### What a caller sees -/

/-- What `rzi_lora_is_started` and `rzi_lora_get_config` return, and the modulation. -/
structure View where
  started : Bool
  modulation : Modulation
  config : Config
deriving DecidableEq

def Service.view (s : Service β) : View := ⟨s.started, s.modulation, s.config⟩

/-- The calls that change it. -/
inductive Call where
  | init (isr : Bool) (value : Option Modulation)
  | stop (isr : Bool)
  | setConfig (isr : Bool) (config : Option Config)

def call (s : Service β) : Call → Except Err Unit × Service β
  | .init isr value => loraInit api isr value s
  | .stop isr => loraStop api isr s
  | .setConfig isr config => loraSetConfig api isr config s

/-- What a call is for: the view after a success. -/
def View.after (v : View) : Call → View
  | .init _ value => { v with started := true, modulation := value.getD v.modulation }
  | .stop _ => { v with started := false }
  | .setConfig _ config => { v with config := config.getD v.config }

/-- A call that returns an error changes nothing that a caller sees. -/
def ErrorKeeps (s : Service β) (a : Call) : Prop :=
  ∀ e, (call api s a).1 = .error e → (call api s a).2.view = s.view

/-- The backend refuses a configuration. -/
def Refuses (config : Config) (b : β) : Prop :=
  ∃ apply e, api.applyConfig = some apply ∧ (apply config b).1 = .error e

/-- The backend does not refuse the configuration of a call that has published something new by then. -/
def Safe (s : Service β) : Call → Prop
  | .init isr value => ∀ m start b, isr = false → value = some m → api.start = some start →
      start m s.backend = (.ok (), b) → ¬ (s.started = true ∧ s.modulation = m) →
      ¬ Refuses api s.config b
  | .stop _ => True
  | .setConfig isr config => ∀ c, isr = false → config = some c → c.Valid → s.started = true →
      c ≠ s.config → ¬ Refuses api c s.backend

/-- The service beside what the calls that succeeded have asked for. -/
def track (r : Service β × View) (a : Call) : Service β × View :=
  ((call api r.1 a).2, match (call api r.1 a).1 with | .ok () => r.2.after a | .error _ => r.2)

variable {api} {s : Service β} {a : Call}

@[simp]
theorem applyConfig_view : (applyConfig api s).2.view = s.view := by
  unfold applyConfig
  split <;> rfl

theorem applyConfig_error : (∃ e, (applyConfig api s).1 = .error e) ↔ Refuses api s.config s.backend := by
  unfold applyConfig Refuses
  split
  · rename_i hnone
    constructor
    · rintro ⟨e, he⟩
      cases he
    · rintro ⟨apply, e, happly, -⟩
      rw [hnone] at happly
      cases happly
  · rename_i apply hsome
    constructor
    · rintro ⟨e, he⟩
      exact ⟨apply, e, hsome, he⟩
    · rintro ⟨apply', e, happly, he⟩
      cases hsome.symm.trans happly
      exact ⟨e, he⟩

/-- An error of the last step keeps the view, unless the steps before it have changed it. -/
theorem applyConfig_keeps {v : View} :
    (∀ e, (applyConfig api s).1 = .error e → (applyConfig api s).2.view = v) ↔
      (s.view ≠ v → ¬ Refuses api s.config s.backend) := by
  rw [applyConfig_view, ← applyConfig_error]
  constructor
  · rintro h hne ⟨e, he⟩
    exact hne (h e he)
  · intro h e he
    by_contra hne
    exact h hne ⟨e, he⟩

/-! ### What the calls can do -/

/-- `rzi_lora_init` fails before it has published anything, or the backend has started and is given the
configuration. -/
theorem loraInit_cases (isr : Bool) (value : Option Modulation) (s : Service β) :
    (∃ e b, loraInit api isr value s = (.error e, { s with backend := b }) ∧
        ∀ m start b, isr = false → value = some m → api.start = some start →
          start m s.backend ≠ (.ok (), b)) ∨
      ∃ m start b, isr = false ∧ value = some m ∧ api.start = some start ∧
        start m s.backend = (.ok (), b) ∧ loraInit api isr value s =
          applyConfig api { s with modulation := m, started := true, backend := b } := by
  unfold loraInit
  rcases isr with _ | _
  · rcases value with _ | m
    · exact .inl ⟨.invalid, s.backend, rfl, fun _ _ _ _ h => (by cases h)⟩
    rcases hstart : api.start with _ | start
    · exact .inl ⟨.notSupported, s.backend, rfl, fun _ _ _ _ _ h => (by cases h)⟩
    simp only [Bool.false_eq_true, if_false]
    rcases hb : start m s.backend with ⟨e | _, b⟩
    · refine .inl ⟨e, b, rfl, fun m' start' b' _ hm hs hok => ?_⟩
      cases hm
      cases hs
      cases hb.symm.trans hok
    · exact .inr ⟨m, start, b, trivial, rfl, rfl, hb, rfl⟩
  · exact .inl ⟨.isr, s.backend, rfl, fun _ _ _ h => (by cases h)⟩

theorem loraStop_cases (isr : Bool) (s : Service β) :
    (∃ e b, loraStop api isr s = (.error e, { s with backend := b })) ∨
      ∃ b, loraStop api isr s = (.ok (), { s with started := false, rxActive := false, backend := b }) := by
  unfold loraStop
  rcases isr with _ | _
  · rcases api.stop with _ | stop
    · exact .inr ⟨s.backend, rfl⟩
    simp only [Bool.false_eq_true, if_false]
    rcases stop s.backend with ⟨e | _, b⟩
    · exact .inl ⟨e, b, rfl⟩
    · exact .inr ⟨b, rfl⟩
  · exact .inl ⟨.isr, s.backend, rfl⟩

/-- `rzi_lora_set_config` refuses the configuration, or stores it and gives it to a started backend. -/
theorem loraSetConfig_cases (isr : Bool) (config : Option Config) (s : Service β) :
    (∃ e, loraSetConfig api isr config s = (.error e, s) ∧
        ∀ c, isr = false → config = some c → ¬ c.Valid) ∨
      ∃ c, isr = false ∧ config = some c ∧ c.Valid ∧ loraSetConfig api isr config s =
        if s.started then applyConfig api { s with config := c } else (.ok (), { s with config := c }) := by
  unfold loraSetConfig
  rcases isr with _ | _
  · rcases config with _ | c
    · exact .inl ⟨.invalid, rfl, fun _ _ h => (by cases h)⟩
    simp only [Bool.false_eq_true, if_false]
    by_cases hvalid : c.Valid
    · exact .inr ⟨c, trivial, rfl, hvalid, if_neg (not_not.2 hvalid)⟩
    · refine .inl ⟨.invalid, if_pos hvalid, fun c' _ hc => ?_⟩
      cases hc
      exact hvalid
  · exact .inl ⟨.isr, rfl, fun _ h => (by cases h)⟩

theorem loraInit_keeps_iff (isr : Bool) (value : Option Modulation) (s : Service β) :
    ErrorKeeps api s (.init isr value) ↔ Safe api s (.init isr value) := by
  unfold ErrorKeeps Safe call
  dsimp only
  rcases @loraInit_cases β api isr value s with
    ⟨e, b, hcall, hnot⟩ | ⟨m, start, b, hisr, hvalue, hstart, hb, hcall⟩
  · rw [hcall]
    exact iff_of_true (fun _ _ => rfl) fun m start b hisr hvalue hstart hok =>
      absurd hok (hnot m start b hisr hvalue hstart)
  · rw [hcall, applyConfig_keeps]
    -- what has been published by then is new exactly when it differs from the state before
    have hview : ({ s with modulation := m, started := true, backend := b } : Service β).view ≠ s.view ↔
        ¬ (s.started = true ∧ s.modulation = m) := by
      rw [not_iff_not]
      constructor
      · intro h
        exact ⟨(congrArg View.started h).symm, (congrArg View.modulation h).symm⟩
      · rintro ⟨hstarted, hmod⟩
        rw [Service.view, Service.view, hstarted, hmod]
    rw [hview]
    constructor
    · intro h m' start' b' _ hm hs hok
      cases hvalue.symm.trans hm
      cases hstart.symm.trans hs
      cases hb.symm.trans hok
      exact h
    · intro h
      exact h m start b hisr hvalue hstart hb

theorem loraSetConfig_keeps_iff (isr : Bool) (config : Option Config) (s : Service β) :
    ErrorKeeps api s (.setConfig isr config) ↔ Safe api s (.setConfig isr config) := by
  unfold ErrorKeeps Safe call
  dsimp only
  rcases @loraSetConfig_cases β api isr config s with ⟨e, hcall, hnot⟩ | ⟨c, hisr, hconfig, hvalid, hcall⟩
  · rw [hcall]
    exact iff_of_true (fun _ _ => rfl) fun c hisr hc hvalid _ _ => absurd hvalid (hnot c hisr hc)
  · rw [hcall]
    by_cases hstarted : s.started = true
    · rw [if_pos hstarted, applyConfig_keeps]
      have hview : ({ s with config := c } : Service β).view ≠ s.view ↔ c ≠ s.config := by
        rw [not_iff_not]
        constructor
        · exact fun h => congrArg View.config h
        · rintro rfl
          rfl
      rw [hview]
      constructor
      · intro h c' _ hc _ _ hne
        cases hconfig.symm.trans hc
        exact h hne
      · intro h
        exact h c hisr hconfig hvalid hstarted
    · rw [if_neg hstarted]
      exact iff_of_true (fun e he => (by cases he)) fun _ _ _ _ h => absurd h hstarted

theorem loraStop_keeps (isr : Bool) (s : Service β) : ErrorKeeps api s (.stop isr) := by
  intro e he
  unfold call at *
  dsimp only at *
  rcases @loraStop_cases β api isr s with ⟨_, b, hcall⟩ | ⟨b, hcall⟩
  · rw [hcall]
    rfl
  · rw [hcall] at he
    cases he

theorem errorKeeps_iff (s : Service β) (a : Call) : ErrorKeeps api s a ↔ Safe api s a := by
  cases a with
  | init isr value => exact loraInit_keeps_iff isr value s
  | stop isr => exact ⟨fun _ => trivial, fun _ => loraStop_keeps isr s⟩
  | setConfig isr config => exact loraSetConfig_keeps_iff isr config s

/-- A call that succeeds has done what it is for. -/
theorem call_ok (h : (call api s a).1 = .ok ()) : (call api s a).2.view = s.view.after a := by
  unfold call at *
  rcases a with ⟨isr, value⟩ | isr | ⟨isr, config⟩ <;> dsimp only at h ⊢
  · rcases @loraInit_cases β api isr value s with ⟨e, b, hcall, -⟩ | ⟨m, start, b, -, rfl, -, -, hcall⟩
    · rw [hcall] at h
      cases h
    · rw [hcall]
      exact applyConfig_view
  · rcases @loraStop_cases β api isr s with ⟨e, b, hcall⟩ | ⟨b, hcall⟩
    · rw [hcall] at h
      cases h
    · rw [hcall]
      rfl
  · rcases @loraSetConfig_cases β api isr config s with ⟨e, hcall, -⟩ | ⟨c, -, rfl, -, hcall⟩
    · rw [hcall] at h
      cases h
    · rw [hcall]
      split
      · exact applyConfig_view
      · rfl

/-! ### Every state, every run -/

theorem track_keeps {r : Service β × View} (h : r.1.view = r.2) (hsafe : Safe api r.1 a) :
    (track api r a).1.view = (track api r a).2 := by
  unfold track
  cases hrc : (call api r.1 a).1 with
  | ok _ =>
    dsimp only
    rw [call_ok hrc, h]
  | error e =>
    dsimp only
    rw [(errorKeeps_iff r.1 a).2 hsafe e hrc, h]

theorem track_breaks {r : Service β × View} (h : r.1.view = r.2) (hbad : ¬ Safe api r.1 a) :
    (track api r a).1.view ≠ (track api r a).2 := by
  rw [← errorKeeps_iff] at hbad
  unfold ErrorKeeps at hbad
  push Not at hbad
  obtain ⟨e, hrc, hview⟩ := hbad
  unfold track
  rw [hrc, ← h]
  exact hview

/-- An error changes nothing that a caller sees, exactly where the backend does not refuse a
configuration after something new has been published; and the view of a run is what its successful calls
have asked for, exactly when this holds of each of its calls. -/
theorem errors_change_nothing_iff (api : Api β) :
    (∀ (s : Service β) (a : Call), ErrorKeeps api s a ↔ Safe api s a) ∧
      ∀ (b : β) (calls : List Call),
        Lts.Always (fun r a => some (track api r a)) (fun r => r.1.view = r.2)
            (.boot b, (Service.boot b).view) calls ↔
          Lts.Meets (fun r a => some (track api r a)) (fun r a => Safe api r.1 a)
            (.boot b, (Service.boot b).view) calls := by
  refine ⟨errorKeeps_iff, fun b calls => ?_⟩
  refine Lts.always_iff_meets (I := fun r => r.1.view = r.2) (fun _ h => h) (fun r a t h hsafe ht => ?_)
    (fun r a t h hbad ht => ?_) rfl (Lts.run_total (track api) _ calls)
  · cases ht
    exact track_keeps h hsafe
  · cases ht
    exact track_breaks h hbad

/-- A backend that starts, and takes no configuration. -/
def refusing : Api Unit :=
  ⟨some fun _ b => (.ok (), b), none, some fun _ b => (.error .notSupported, b)⟩

/-- A failed start is reported as started, and a refused configuration is read back. -/
theorem refused_is_published :
    ((loraInit refusing false (some .fsk) (.boot ())).1 = .error .notSupported ∧
        loraIsStarted (loraInit refusing false (some .fsk) (.boot ())).2 = true) ∧
      ∃ c, (loraSetConfig refusing false (some c)
          ({ Service.boot () with started := true })).1 = .error .notSupported ∧
        loraGetConfig false (loraSetConfig refusing false (some c)
          ({ Service.boot () with started := true })).2 ≠
            loraGetConfig false ({ Service.boot () with started := true }) := by
  refine ⟨⟨rfl, rfl⟩, { Config.init with frequencyHz := 0 }, by decide, by decide⟩

theorem loraInit_config (isr : Bool) (value : Option Modulation) (s : Service β) :
    (loraInit api isr value s).2.config = s.config := by
  rcases @loraInit_cases β api isr value s with ⟨e, b, hcall, -⟩ | ⟨m, start, b, -, -, -, -, hcall⟩
  · rw [hcall]
  · rw [hcall]
    exact congrArg View.config applyConfig_view

theorem loraStop_config (isr : Bool) (s : Service β) : (loraStop api isr s).2.config = s.config := by
  rcases @loraStop_cases β api isr s with ⟨e, b, hcall⟩ | ⟨b, hcall⟩ <;> rw [hcall]

/-- What `rzi_lora_set_config` stores has passed its check. -/
theorem loraSetConfig_config (isr : Bool) (config : Option Config) (s : Service β) :
    (loraSetConfig api isr config s).2.config = s.config ∨
      ∃ c, isr = false ∧ config = some c ∧ c.Valid ∧ (loraSetConfig api isr config s).2.config = c := by
  rcases @loraSetConfig_cases β api isr config s with ⟨e, hcall, -⟩ | ⟨c, hisr, hconfig, hvalid, hcall⟩
  · rw [hcall]
    exact .inl rfl
  · refine .inr ⟨c, hisr, hconfig, hvalid, ?_⟩
    rw [hcall]
    split
    · exact congrArg View.config applyConfig_view
    · rfl

theorem call_valid (h : s.config.Valid) (a : Call) : (call api s a).2.config.Valid := by
  cases a with
  | init isr value =>
    show (loraInit api isr value s).2.config.Valid
    rw [loraInit_config]
    exact h
  | stop isr =>
    show (loraStop api isr s).2.config.Valid
    rw [loraStop_config]
    exact h
  | setConfig isr config =>
    show (loraSetConfig api isr config s).2.config.Valid
    rcases @loraSetConfig_config β api isr config s with hsame | ⟨c, -, -, hvalid, hstored⟩
    · rw [hsame]
      exact h
    · rw [hstored]
      exact hvalid

/-- In every run, the stored configuration is one that `rzi_lora_set_config` accepts. -/
theorem valid_run (b : β) (calls : List Call) :
    (calls.foldl (fun s a => (call api s a).2) (Service.boot b)).config.Valid := by
  have hrun := Lts.run_total (fun s a => (call api s a).2) (Service.boot b) calls
  refine Lts.run_invariant' (I := fun s : Service β => s.config.Valid) (fun s a t h ht => ?_) ?_ hrun
  · cases ht
    exact call_valid h a
  · show Config.init.Valid
    decide

/-! ### The backends of the repository -/

/-- The backend takes every configuration. -/
def Takes (api : Api β) : Prop := ∀ c b, ¬ Refuses api c b

/-- An error of a service whose backend takes every configuration changes nothing. -/
theorem Takes.safe (h : Takes api) (s : Service β) (a : Call) : Safe api s a := by
  cases a with
  | init isr value => exact fun _ _ b _ _ _ _ _ => h s.config b
  | stop isr => trivial
  | setConfig isr config => exact fun c _ _ _ _ _ => h c s.backend

/-- A configuration is then stored exactly where it passes the check. -/
theorem Takes.loraSetConfig (h : Takes api) (c : Config) (s : Service β) :
    c.Valid ∧ (∃ b, loraSetConfig api false (some c) s = (.ok (), { s with config := c, backend := b })) ∨
      ¬ c.Valid ∧ loraSetConfig api false (some c) s = (.error .invalid, s) := by
  unfold LoraService.loraSetConfig
  simp only [Bool.false_eq_true, if_false]
  by_cases hvalid : c.Valid
  · refine .inl ⟨hvalid, ?_⟩
    rw [if_neg (not_not.2 hvalid)]
    split
    · unfold applyConfig
      split
      · exact ⟨s.backend, rfl⟩
      · rename_i apply happly
        rcases hb : apply c s.backend with ⟨_ | _, b⟩
        · exact absurd ⟨apply, _, happly, congrArg Prod.fst hb⟩ (h c s.backend)
        · exact ⟨b, rfl⟩
    · exact ⟨s.backend, rfl⟩
  · exact .inr ⟨hvalid, if_pos hvalid⟩

inductive Backend where
  | usp | zephyr | test
deriving DecidableEq, Repr

/-- `usp_apply`, `zephyr_apply` and `test_apply`, on the USP backend's copy of the configuration. -/
def Backend.applyConfig : Backend → Config → Config → Except Err Unit × Config
  | .usp, config, _ => (.ok (), config)
  | .zephyr, _, b => (.ok (), b)
  | .test, _, b => (.ok (), b)

/-- The table of a backend, with its functions for starting and stopping. -/
def Backend.table (k : Backend) (start : Option (Modulation → Config → Except Err Unit × Config))
    (stop : Option (Config → Except Err Unit × Config)) : Api Config :=
  ⟨start, stop, some k.applyConfig⟩

theorem Backend.takes (k : Backend) (start : Option (Modulation → Config → Except Err Unit × Config))
    (stop : Option (Config → Except Err Unit × Config)) : Takes (k.table start stop) := by
  rintro c b ⟨apply, e, happly, he⟩
  cases happly
  cases k <;> cases he

/-! ### On USP -/

/-- The table of the USP backend. -/
def uspApi (radio : Lora.Radio) : Api Lora.Backend :=
  ⟨some fun _ b => Lora.uspStart radio b, some (Lora.uspStop radio), some fun _ b => (.ok (), b)⟩

/-- The service of `Rzi.Lora`. -/
def Service.onUsp (s : Service Lora.Backend) : Lora.Service :=
  ⟨s.started, s.rxActive, s.config.toConfig, s.backend⟩

variable {radio : Lora.Radio} {u : Service Lora.Backend}

theorem uspApi_takes : Takes (uspApi radio) := by
  rintro c b ⟨apply, e, happly, he⟩
  cases happly
  cases he

theorem loraInit_usp (value : Option Modulation) :
    (loraInit (uspApi radio) radio.isr value u).map id Service.onUsp =
      Lora.loraInit radio value.isSome u.onUsp := by
  unfold loraInit Lora.loraInit Lora.withBackend uspApi applyConfig Service.onUsp
  cases radio.isr with
  | true => rfl
  | false =>
    cases value with
    | none => rfl
    | some m =>
      rcases hb : Lora.uspStart radio u.backend with ⟨_ | _, b⟩ <;> simp [hb]

theorem loraStop_usp :
    (loraStop (uspApi radio) radio.isr u).map id Service.onUsp = Lora.loraStop radio u.onUsp := by
  unfold loraStop Lora.loraStop Lora.withBackend uspApi Service.onUsp
  cases radio.isr with
  | true => rfl
  | false => rcases hb : Lora.uspStop radio u.backend with ⟨_ | _, b⟩ <;> simp [hb]

theorem valid_iff (c : Config) : c.Valid ↔ ¬ (c.spreadingFactor < 5 ∨ 12 < c.spreadingFactor ∨
    c.txPowerDbm < 5 ∨ 22 < c.txPowerDbm ∨ c.preambleLength < 5 ∨ 3 < c.codingRate) := by
  unfold Config.Valid
  simp only [not_or, UInt8.not_lt, Int8.not_lt, UInt16.not_lt]

theorem loraSetConfig_usp (config : Option Config) :
    (loraSetConfig (uspApi radio) radio.isr config u).map id Service.onUsp =
      Lora.loraSetConfig radio (config.map (·.toConfig)) u.onUsp := by
  unfold loraSetConfig Lora.loraSetConfig uspApi applyConfig Service.onUsp
  cases radio.isr with
  | true => rfl
  | false =>
    cases config with
    | none => rfl
    | some c =>
      simp only [valid_iff, not_not, Bool.false_eq_true, if_false, Option.map_some]
      split
      · rfl
      · split <;> rfl

end Rzi.LoraService
