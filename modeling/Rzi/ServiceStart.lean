import Rzi.CredentialReset
import Rzi.LorawanService
import Rzi.Lib.Run

/-!
# Starting the service (`src/lorawan/lorawan.c`, `api/lorawan_config.c`)

`rzi_lorawan_init`, `rzi_lorawan_set_region`, `rzi_lorawan_set_join_backoff_bypass` and
`rzi_lorawan_get_region` share `config_lock`, and each holds it for one section, a step here. Between the
section of `rzi_lorawan_init` and its end the lock is free: STARTING is published, `backend.start` answers,
and after a failure `started` is cleared. `start_service` of the AT package reads the region in a section
of its own before it calls `rzi_lorawan_init`. Any number of threads interleave, with the other users of
the settings and with reboots.

`started_for_good` says what a start that succeeded fixes, and `region_follows_accepted` that the region
accepted last is the one that is stored, reported and started.
-/

namespace Rzi.Lorawan.Start
open Settings Storage Lts

/-- `RZI_LORAWAN_REGION_RU_864`, the last region. -/
def lastRegion : UInt32 := 10

/-- Where a thread is. -/
inductive Pc where
  | idle
  /-- in `start_service`, between `rzi_lorawan_get_region` and `rzi_lorawan_init` -/
  | got (region : UInt8)
  /-- in `rzi_lorawan_init`, before STARTING is published -/
  | starting (region : UInt8) (bypass : Bool)
  /-- before `backend.start` -/
  | start (region : UInt8) (bypass : Bool)
  /-- after a failure, before `started` is cleared -/
  | failed (e : Err)
  /-- before STOPPED is published -/
  | stopping (e : Err)
deriving DecidableEq

/-- The thread has set `started` and can still clear it. -/
def Pc.owns : Pc → Bool
  | .starting _ _ | .start _ _ | .failed _ => true
  | _ => false

structure State where
  settings : Sys
  started : Bool
  configuredRegion : UInt8
  configuredJoinBackoffBypass : Bool
  /-- the states published, newest first -/
  published : List LinkState
  /-- what `backend.start` last succeeded with since the boot -/
  backend : Option (UInt8 × Bool)
  /-- the region that `rzi_lorawan_set_region` or a direct `rzi_lorawan_init` stored last, until a reset -/
  accepted : Option UInt8
  threads : Nat → Pc

def State.boot (σ : Store) (accepted : Option UInt8) : State where
  settings := ⟨σ, fun _ => Entry.empty⟩
  started := false
  configuredRegion := Region.byte .eu868
  configuredJoinBackoffBypass := false
  published := []
  backend := none
  accepted := accepted
  threads := fun _ => .idle

section Model
variable (cfg : Config)

/-- `rzi_lorawan_config_get_region`. -/
def configGetRegion (faults : List (Option Fault)) (s : State) : Except Err UInt8 × State :=
  let r := settingRead cfg s.settings "region" 1 faults
  (r.1.map fun stored => stored.1.getD 0 0, { s with settings := r.2 })

/-- `rzi_lorawan_config_set_region`. -/
def configSetRegion (region : UInt8) (faults : List (Option Fault)) (s : State) :
    Except Err Unit × State :=
  let r := settingWrite cfg s.settings "region" [region] faults
  (r.1, { s with settings := r.2 })

/-- `rzi_lorawan_set_region`. -/
def setRegion (region : UInt32) (faults : List (Option Fault)) (s : State) : Except Err Unit × State :=
  if lastRegion < region then (.error .invalid, s)
  else if s.started then (.error .invalidState, s)
  else
    match configSetRegion cfg region.toUInt8 faults s with
    | (.error e, s) => (.error e, s)
    | (.ok (), s) =>
      (.ok (), { s with configuredRegion := region.toUInt8, accepted := some region.toUInt8 })

/-- `rzi_lorawan_get_region`. -/
def getRegion (faults : List (Option Fault)) (s : State) : Except Err UInt8 × State :=
  if s.started then (.ok s.configuredRegion, s)
  else
    match configGetRegion cfg faults s with
    | (.error e, s) => (.error e, s)
    | (.ok region, s) => (.ok region, { s with configuredRegion := region })

/-- `rzi_lorawan_set_join_backoff_bypass`. -/
def setJoinBackoffBypass (enabled : Bool) (s : State) : Except Err Unit × State :=
  if s.started then (.error .invalidState, s)
  else (.ok (), { s with configuredJoinBackoffBypass := enabled })

/-- The section of `rzi_lorawan_init`; it answers the bypass that `backend.start` is to be given. -/
def initSection (region : UInt8) (faults : List (Option Fault)) (s : State) : Except Err Bool × State :=
  if s.started then (.error .already, s)
  else
    match configSetRegion cfg region faults { s with started := true } with
    | (.error e, s) => (.error e, { s with started := false })
    | (.ok (), s) =>
      (.ok s.configuredJoinBackoffBypass, { s with configuredRegion := region })

/-- `rzi_lorawan_init` up to the end of its section. -/
def initCall (region : UInt32) (faults : List (Option Fault)) (s : State) : Except Err Bool × State :=
  if lastRegion < region then (.error .invalid, s) else initSection cfg region.toUInt8 faults s

def State.goto (t : Nat) (pc : Pc) (s : State) : State :=
  { s with threads := Function.update s.threads t pc }

/-- A thread enters the rest of `rzi_lorawan_init`, or returns its error. -/
def enterInit (t : Nat) (region : UInt8) (x : Except Err Bool × State) : State :=
  match x with
  | (.error _, s) => s.goto t .idle
  | (.ok bypass, s) => s.goto t (.starting region bypass)

/-- Records the region of a direct call that passes its section. -/
def accepting (region : UInt8) (x : Except Err Bool × State) : Except Err Bool × State :=
  match x with
  | (.error e, s) => (.error e, s)
  | (.ok bypass, s) => (.ok bypass, { s with accepted := some region })

/-- The next step of a thread; `answer` is that of `backend.start`. -/
def advance (t : Nat) (answer : Except Err Unit) (faults : List (Option Fault)) (s : State) :
    Option State :=
  match s.threads t with
  | .idle => none
  | .got region => some (enterInit t region (initCall cfg region.toUInt32 faults s))
  | .starting region bypass =>
    some ({ s with published := .starting :: s.published }.goto t (.start region bypass))
  | .start region bypass =>
    match answer with
    | .error e => some (s.goto t (.failed e))
    | .ok () => some ({ s with backend := some (region, bypass) }.goto t .idle)
  | .failed e => some ({ s with started := false }.goto t (.stopping e))
  | .stopping _ => some ({ s with published := .stopped :: s.published }.goto t .idle)

inductive Act where
  | setRegion (region : UInt32) (faults : List (Option Fault))
  | getRegion (faults : List (Option Fault))
  | setBypass (enabled : Bool)
  /-- a thread calls `rzi_lorawan_init` -/
  | init (t : Nat) (region : UInt32) (faults : List (Option Fault))
  /-- a thread calls `start_service` -/
  | startService (t : Nat) (faults : List (Option Fault))
  | advance (t : Nat) (answer : Except Err Unit) (faults : List (Option Fault))
  /-- another user of the settings; the region is written by the calls above alone -/
  | settings (op : Op)
  | reboot

/-- The settings that the rest of the service writes. -/
def otherKeys : List Key := loadKeys ++ [.cfm, .rety, .netid]

/-- The operations of the other users of the settings. -/
def othersOp : Op → Bool
  | .read _ _ _ => true
  | .write key _ _ => key ∈ otherKeys.map Key.name
  | .clear _ => true
  | .reboot => false

def clears : Op → Bool
  | .clear _ => true
  | _ => false

def step (s : State) : Act → Option State
  | .setRegion region faults => some (setRegion cfg region faults s).2
  | .getRegion faults => some (getRegion cfg faults s).2
  | .setBypass enabled => some (setJoinBackoffBypass enabled s).2
  | .init t region faults =>
    if s.threads t ≠ .idle then none
    else some (enterInit t region.toUInt8 (accepting region.toUInt8 (initCall cfg region faults s)))
  | .startService t faults =>
    if s.threads t ≠ .idle then none
    else
      match getRegion cfg faults s with
      | (.error _, s) => some s
      | (.ok region, s) => some (s.goto t (.got region))
  | .advance t answer faults => advance cfg t answer faults s
  | .settings op =>
    if othersOp op then
      some { s with
        settings := next cfg s.settings op
        accepted := if clears op then none else s.accepted }
    else none
  | .reboot => some (.boot s.settings.store s.accepted)

end Model

section Steps
variable {cfg : Config} {s t u : State} {a : Act} {acts : List Act} {faults : List (Option Fault)}
  {region : UInt32} {old new : Sys}

/-! ### What the sections do -/

/-- The region is stored. -/
structure Stores (cfg : Config) (region : UInt8) (old new : Sys) : Prop where
  coherent : Coherent cfg old → Coherent cfg new
  stored : Coherent cfg old → lookup cfg new.store .region = .ok ([region], true)

/-- What the settings say of the region is the same. -/
structure Same (cfg : Config) (old new : Sys) : Prop where
  coherent : Coherent cfg old → Coherent cfg new
  same : Coherent cfg old → lookup cfg new.store .region = lookup cfg old.store .region

theorem Same.refl (sys : Sys) : Same cfg sys sys := ⟨id, fun _ => rfl⟩

variable (cfg) in
theorem settingRead_same (sys : Sys) (key : String) (size : Nat) (faults : List (Option Fault)) :
    Same cfg sys (settingRead cfg sys key size faults).2 := by
  cases hkey : findSetting key with
  | none =>
    rw [settingRead_unknown hkey]
    exact .refl sys
  | some k =>
    exact ⟨fun h => (settingRead_keeps h hkey size faults).coherent,
      fun h => (settingRead_keeps h hkey size faults).same .region⟩

theorem configSetRegion_cases (region : UInt8) (faults : List (Option Fault)) (s : State) :
    (∃ e, configSetRegion cfg region faults s = (.error e, s)) ∨
      ∃ sys, configSetRegion cfg region faults s = (.ok (), { s with settings := sys }) ∧
        Stores cfg region s.settings sys := by
  have hspec := settingWrite_spec cfg s.settings (findSetting_name .region) [region] faults
  have hkeeps (h : Coherent cfg s.settings) :=
    settingWrite_keeps (k := .region) h (by decide) [region] faults
  rw [show Key.region.name = "region" from rfl] at hspec hkeeps
  unfold configSetRegion
  generalize settingWrite cfg s.settings "region" [region] faults = x at hspec hkeeps ⊢
  obtain ⟨e | _, sys⟩ := x
  · obtain ⟨-⟩ := hspec
    exact .inl ⟨e, rfl⟩
  · exact .inr ⟨sys, rfl, fun h => (hkeeps h).coherent, fun h => (hkeeps h).stored rfl⟩

/-- The section of `rzi_lorawan_init` fails without a trace, or it sets `started` and the region. -/
theorem initCall_cases (region : UInt32) (faults : List (Option Fault)) (s : State) :
    (∃ e, initCall cfg region faults s = (.error e, s)) ∨
      s.started = false ∧ ∃ sys, initCall cfg region faults s = (.ok s.configuredJoinBackoffBypass,
        { s with settings := sys, started := true, configuredRegion := region.toUInt8 }) ∧
        Stores cfg region.toUInt8 s.settings sys := by
  unfold initCall initSection
  split_ifs with hrange hstarted
  · exact .inl ⟨_, rfl⟩
  · exact .inl ⟨_, rfl⟩
  rw [Bool.not_eq_true] at hstarted
  rcases configSetRegion_cases region.toUInt8 faults { s with started := true } with
    ⟨e, he⟩ | ⟨sys, hsys, hstores⟩
  · refine .inl ⟨e, ?_⟩
    rw [he]
    simp [← hstarted]
  · exact .inr ⟨hstarted, sys, by rw [hsys], hstores⟩

variable (cfg) in
theorem setRegion_cases (region : UInt32) (faults : List (Option Fault)) (s : State) :
    (∃ e, setRegion cfg region faults s = (.error e, s)) ∨
      s.started = false ∧ ∃ sys, setRegion cfg region faults s = (.ok (), { s with
        settings := sys, configuredRegion := region.toUInt8, accepted := some region.toUInt8 }) ∧
        Stores cfg region.toUInt8 s.settings sys := by
  unfold setRegion
  split_ifs with hrange hstarted
  · exact .inl ⟨_, rfl⟩
  · exact .inl ⟨_, rfl⟩
  rw [Bool.not_eq_true] at hstarted
  rcases configSetRegion_cases region.toUInt8 faults s with ⟨e, he⟩ | ⟨sys, hsys, hstores⟩
  · exact .inl ⟨e, by rw [he]⟩
  · exact .inr ⟨hstarted, sys, by rw [hsys], hstores⟩

/-- A started service reports the region that it has; any other loads what is stored. -/
theorem getRegion_cases (faults : List (Option Fault)) (s : State) :
    s.started = true ∧ getRegion cfg faults s = (.ok s.configuredRegion, s) ∨
      s.started = false ∧ ∃ sys, Same cfg s.settings sys ∧
        ((∃ e, getRegion cfg faults s = (.error e, { s with settings := sys })) ∨
          ∃ r : Bytes × Bool, (Coherent cfg s.settings → lookup cfg s.settings.store .region = .ok r) ∧
            getRegion cfg faults s =
              (.ok (r.1.getD 0 0), { s with settings := sys, configuredRegion := r.1.getD 0 0 })) := by
  unfold getRegion
  split_ifs with hstarted
  · exact .inl ⟨hstarted, rfl⟩
  rw [Bool.not_eq_true] at hstarted
  have hsame := settingRead_same cfg s.settings "region" 1 faults
  have hread (h : Coherent cfg s.settings) := settingRead_keeps h (findSetting_name .region) 1 faults
  rw [show Key.region.name = "region" from rfl] at hread
  refine .inr ⟨hstarted, _, hsame, ?_⟩
  unfold configGetRegion
  generalize settingRead cfg s.settings "region" 1 faults = x at hread ⊢
  obtain ⟨e | r, sys⟩ := x
  · exact .inl ⟨e, rfl⟩
  · exact .inr ⟨r, fun h => (hread h).answer r rfl, rfl⟩

/-- The reset is complete. -/
def Complete (s : State) : Act → Prop
  | .settings (.clear faults) => (settingsClear s.settings faults).1 = .ok ()
  | _ => True

theorem own_of_otherKeys : ∀ k ∈ otherKeys, k ∉ policyKeys ∧ k ≠ .region := by decide

/-- The other users of the settings keep the region, unless they reset the device. -/
theorem othersOp_cases {op : Op} (h : othersOp op = true) (sys : Sys) :
    Same cfg sys (next cfg sys op) ∧ clears op = false ∨ ∃ faults, op = .clear faults := by
  cases op with
  | read key size faults => exact .inl ⟨settingRead_same cfg sys key size faults, rfl⟩
  | write key value faults =>
    obtain ⟨k, hk, rfl⟩ := List.mem_map.1 (of_decide_eq_true h)
    obtain ⟨hpolicy, hregion⟩ := own_of_otherKeys k hk
    have hwrite (h : Coherent cfg sys) := settingWrite_keeps h hpolicy value faults
    exact .inl ⟨⟨fun h => (hwrite h).coherent, fun h => (hwrite h).same .region hregion.symm⟩, rfl⟩
  | clear faults => exact .inr ⟨faults, rfl⟩
  | reboot => cases h

/-! ### What a step can do -/

/-- A call that enters the rest of `rzi_lorawan_init` has stored the region. It is a direct call, or that of
a `start_service` which has read it. -/
def Enters (cfg : Config) (s : State) (t : Nat) (region : UInt8) (accepted : Option UInt8) (a : Act) : Prop :=
  s.threads t = .idle ∧ accepted = some region ∨
    s.threads t = .got region ∧ accepted = s.accepted ∧
      ∃ answer faults, a = .advance t answer faults ∧
        ∃ bypass, (initCall cfg region.toUInt32 faults s).1 = .ok bypass

/-- The steps, with what they change. -/
inductive Moves (cfg : Config) (s : State) (a : Act) : State → Prop
  | same (sys : Sys) (hsys : Same cfg s.settings sys) : Moves cfg s a { s with settings := sys }
  | loaded (sys : Sys) (hsys : Same cfg s.settings sys) (hs : s.started = false) (r : Bytes × Bool)
      (hr : Coherent cfg s.settings → lookup cfg s.settings.store .region = .ok r) :
      Moves cfg s a { s with settings := sys, configuredRegion := r.1.getD 0 0 }
  | bypass (enabled : Bool) (hs : s.started = false) :
      Moves cfg s a { s with configuredJoinBackoffBypass := enabled }
  | accepted (sys : Sys) (region : UInt8) (hsys : Stores cfg region s.settings sys) (hs : s.started = false) :
      Moves cfg s a { s with settings := sys, configuredRegion := region, accepted := some region }
  | got (t : Nat) (ht : s.threads t = .idle) (hs : s.started = true) :
      Moves cfg s a (s.goto t (.got s.configuredRegion))
  | gotLoaded (t : Nat) (ht : s.threads t = .idle) (sys : Sys) (hsys : Same cfg s.settings sys)
      (hs : s.started = false) (r : Bytes × Bool)
      (hr : Coherent cfg s.settings → lookup cfg s.settings.store .region = .ok r) :
      Moves cfg s a
        ({ s with settings := sys, configuredRegion := r.1.getD 0 0 }.goto t (.got (r.1.getD 0 0)))
  | entered (t : Nat) (sys : Sys) (region : UInt8) (accepted : Option UInt8)
      (hsys : Stores cfg region s.settings sys) (hs : s.started = false)
      (henters : Enters cfg s t region accepted a) :
      Moves cfg s a ({ s with
        settings := sys, started := true, configuredRegion := region, accepted := accepted }.goto t
          (.starting region s.configuredJoinBackoffBypass))
  | refused (t : Nat) (ht : (s.threads t).owns = false) : Moves cfg s a (s.goto t .idle)
  | starting (t : Nat) (region : UInt8) (bypass : Bool) (ht : s.threads t = .starting region bypass) :
      Moves cfg s a ({ s with published := .starting :: s.published }.goto t (.start region bypass))
  | backendFailed (t : Nat) (region : UInt8) (bypass : Bool) (ht : s.threads t = .start region bypass)
      (e : Err) : Moves cfg s a (s.goto t (.failed e))
  | backendStarted (t : Nat) (region : UInt8) (bypass : Bool) (ht : s.threads t = .start region bypass) :
      Moves cfg s a ({ s with backend := some (region, bypass) }.goto t .idle)
  | failed (t : Nat) (e : Err) (ht : s.threads t = .failed e) :
      Moves cfg s a ({ s with started := false }.goto t (.stopping e))
  | stopped (t : Nat) (e : Err) (ht : s.threads t = .stopping e) :
      Moves cfg s a ({ s with published := .stopped :: s.published }.goto t .idle)
  | cleared (faults : List (Option Fault)) (ha : a = .settings (.clear faults)) :
      Moves cfg s a { s with settings := (settingsClear s.settings faults).2, accepted := none }
  | reboot (ha : a = .reboot) : Moves cfg s a (.boot s.settings.store s.accepted)

theorem moves_of_advance {t : Nat} {answer : Except Err Unit}
    (hstep : advance cfg t answer faults s = some u) (ha : a = .advance t answer faults) :
    Moves cfg s a u := by
  unfold advance at hstep
  rcases hpc : s.threads t with - | region | ⟨region, bypass⟩ | ⟨region, bypass⟩ | e | e <;>
    simp only [hpc] at hstep
  · cases hstep
  · rcases initCall_cases region.toUInt32 faults s with ⟨e, he⟩ | ⟨hs, sys, hsys, hstores⟩
    · rw [he] at hstep
      cases hstep
      exact .refused t (by rw [hpc]; rfl)
    · have hok : (initCall cfg region.toUInt32 faults s).1 = .ok s.configuredJoinBackoffBypass := by
        rw [hsys]
      rw [hsys] at hstep
      cases hstep
      rw [UInt8.toUInt8_toUInt32] at hstores ⊢
      exact .entered t sys region s.accepted hstores hs (.inr ⟨hpc, rfl, answer, faults, ha, _, hok⟩)
  · cases hstep
    exact .starting t region bypass hpc
  · rcases answer with e | _
    · cases hstep
      exact .backendFailed t region bypass hpc e
    · cases hstep
      exact .backendStarted t region bypass hpc
  · cases hstep
    exact .failed t e hpc
  · cases hstep
    exact .stopped t e hpc

theorem moves_of_step (hstep : step cfg s a = some u) : Moves cfg s a u := by
  cases a with
  | setRegion region faults =>
    cases hstep
    rcases setRegion_cases cfg region faults s with ⟨e, he⟩ | ⟨hs, sys, hsys, hstores⟩
    · rw [he]
      exact .same s.settings (.refl _)
    · rw [hsys]
      exact .accepted sys region.toUInt8 hstores hs
  | getRegion faults =>
    cases hstep
    rcases getRegion_cases faults s with ⟨-, h⟩ | ⟨hs, sys, hsame, ⟨e, he⟩ | ⟨r, hr, h⟩⟩
    · rw [h]
      exact .same s.settings (.refl _)
    · rw [he]
      exact .same sys hsame
    · rw [h]
      exact .loaded sys hsame hs r hr
  | setBypass enabled =>
    cases hstep
    unfold setJoinBackoffBypass
    split_ifs with hs
    · exact .same s.settings (.refl _)
    · exact .bypass enabled (Bool.not_eq_true _ ▸ hs)
  | init t region faults =>
    simp only [step] at hstep
    split_ifs at hstep with ht
    rw [not_not] at ht
    rcases initCall_cases region faults s with ⟨e, he⟩ | ⟨hs, sys, hsys, hstores⟩
    · rw [he] at hstep
      cases hstep
      exact .refused t (by rw [ht]; rfl)
    · rw [hsys] at hstep
      cases hstep
      exact .entered t sys region.toUInt8 _ hstores hs (.inl ⟨ht, rfl⟩)
  | startService t faults =>
    simp only [step] at hstep
    split_ifs at hstep with ht
    rw [not_not] at ht
    rcases getRegion_cases faults s with ⟨hs, h⟩ | ⟨hs, sys, hsame, ⟨e, he⟩ | ⟨r, hr, h⟩⟩
    · rw [h] at hstep
      cases hstep
      exact .got t ht hs
    · rw [he] at hstep
      cases hstep
      exact .same sys hsame
    · rw [h] at hstep
      cases hstep
      exact .gotLoaded t ht sys hsame hs r hr
  | advance t answer faults => exact moves_of_advance hstep rfl
  | settings op =>
    simp only [step] at hstep
    split at hstep
    · rename_i hop
      cases hstep
      rcases othersOp_cases hop s.settings with ⟨hsame, hclears⟩ | ⟨faults, rfl⟩
      · rw [hclears]
        exact .same _ hsame
      · exact .cleared faults rfl
    · cases hstep
  | reboot =>
    cases hstep
    exact .reboot rfl

/-! ### One start at a time -/

/-- Nothing is started, one thread is inside `rzi_lorawan_init`, or the service runs with the region and the
bypass that the backend was given. -/
inductive Phase (s : State) : Prop
  | off (hs : s.started = false) (hb : s.backend = none) (hrest : ∀ u, (s.threads u).owns = false)
  | inside (t : Nat) (hs : s.started = true) (hb : s.backend = none) (ht : (s.threads t).owns = true)
      (hrest : ∀ u, u ≠ t → (s.threads u).owns = false)
      (hgiven : ∀ r b, s.threads t = .starting r b ∨ s.threads t = .start r b →
        s.configuredRegion = r ∧ s.configuredJoinBackoffBypass = b)
  | on (region : UInt8) (bypass : Bool) (hs : s.started = true) (hb : s.backend = some (region, bypass))
      (hrest : ∀ u, (s.threads u).owns = false) (hregion : s.configuredRegion = region)
      (hbypass : s.configuredJoinBackoffBypass = bypass)

@[simp] theorem goto_threads_self (t : Nat) (pc : Pc) (s : State) : (s.goto t pc).threads t = pc :=
  Function.update_self _ _ _

theorem goto_threads_of_ne {t u : Nat} (h : u ≠ t) (pc : Pc) (s : State) :
    (s.goto t pc).threads u = s.threads u := Function.update_of_ne h _ _

theorem goto_rest {t : Nat} {pc : Pc} (hpc : pc.owns = false)
    (hrest : ∀ u, u ≠ t → (s.threads u).owns = false) (u : Nat) : ((s.goto t pc).threads u).owns = false := by
  by_cases hu : u = t
  · rw [hu, goto_threads_self, hpc]
  · rw [goto_threads_of_ne hu, hrest u hu]

theorem phase_boot (σ : Store) (accepted : Option UInt8) : Phase (.boot σ accepted) :=
  .off rfl rfl fun _ => rfl

/-- A thread outside `rzi_lorawan_init` changes nothing by moving about outside. -/
theorem Phase.goto {t : Nat} {pc : Pc} (h : Phase s) (ht : (s.threads t).owns = false)
    (hpc : pc.owns = false) : Phase (s.goto t pc) := by
  rcases h with ⟨hs, hb, hrest⟩ | ⟨v, hs, hb, hv, hrest, hgiven⟩ | ⟨r, b, hs, hb, hrest, hr, hby⟩
  · exact .off hs hb (goto_rest hpc fun u _ => hrest u)
  · have hne : v ≠ t := by
      rintro rfl
      rw [hv] at ht
      cases ht
    have hsame := goto_threads_of_ne hne pc s
    refine .inside v hs hb (by rw [hsame, hv]) (fun u hu => ?_) fun r b => ?_
    · by_cases hut : u = t
      · rw [hut, goto_threads_self, hpc]
      · rw [goto_threads_of_ne hut, hrest u hu]
    · rw [hsame]
      exact hgiven r b
  · exact .on r b hs hb (goto_rest hpc fun u _ => hrest u) hr hby

/-- Inside `rzi_lorawan_init` a thread is alone. -/
theorem Phase.inside_of_owns {t : Nat} (h : Phase s) (ht : (s.threads t).owns = true) :
    s.started = true ∧ s.backend = none ∧ (∀ u, u ≠ t → (s.threads u).owns = false) ∧
      ∀ r b, s.threads t = .starting r b ∨ s.threads t = .start r b →
        s.configuredRegion = r ∧ s.configuredJoinBackoffBypass = b := by
  rcases h with ⟨-, -, hrest⟩ | ⟨v, hs, hb, hv, hrest, hgiven⟩ | ⟨-, -, -, -, hrest, -, -⟩
  · rw [hrest t] at ht
    cases ht
  · obtain rfl : t = v := by
      by_contra hne
      rw [hrest t hne] at ht
      cases ht
    exact ⟨hs, hb, hrest, hgiven⟩
  · rw [hrest t] at ht
    cases ht

theorem Phase.off_of_not_started (h : Phase s) (hs : s.started = false) :
    s.backend = none ∧ ∀ u, (s.threads u).owns = false := by
  rcases h with ⟨-, hb, hrest⟩ | ⟨-, hs', -⟩ | ⟨-, -, hs', -⟩
  · exact ⟨hb, hrest⟩
  · rw [hs] at hs'
    cases hs'
  · rw [hs] at hs'
    cases hs'

theorem Phase.moves (h : Phase s) (hmoves : Moves cfg s a u) : Phase u := by
  cases hmoves with
  | same sys _ | cleared _ _ =>
    rcases h with ⟨hs, hb, hrest⟩ | ⟨v, hs, hb, hv, hrest, hgiven⟩ | ⟨r, b, hs, hb, hrest, hr, hby⟩
    · exact .off hs hb hrest
    · exact .inside v hs hb hv hrest hgiven
    · exact .on r b hs hb hrest hr hby
  | loaded sys _ hs r _ | bypass enabled hs | accepted sys region _ hs =>
    obtain ⟨hb, hrest⟩ := h.off_of_not_started hs
    exact .off hs hb hrest
  | got t ht hs => exact h.goto (by rw [ht]; rfl) rfl
  | gotLoaded t ht sys _ hs r _ =>
    obtain ⟨hb, hrest⟩ := h.off_of_not_started hs
    exact .off hs hb (goto_rest rfl fun u _ => hrest u)
  | entered t sys region accepted _ hs _ =>
    obtain ⟨hb, hrest⟩ := h.off_of_not_started hs
    refine .inside t rfl hb (by rw [goto_threads_self]; rfl) (fun u hu => ?_) fun r b hpc => ?_
    · rw [goto_threads_of_ne hu]
      exact hrest u
    · rw [goto_threads_self] at hpc
      rcases hpc with hpc | hpc
      · cases hpc
        exact ⟨rfl, rfl⟩
      · cases hpc
  | refused t ht => exact h.goto ht rfl
  | starting t region bypass ht =>
    obtain ⟨hs, hb, hrest, hgiven⟩ := h.inside_of_owns (t := t) (by rw [ht]; rfl)
    refine .inside t hs hb (by rw [goto_threads_self]; rfl) (fun u hu => ?_) fun r b hpc => ?_
    · rw [goto_threads_of_ne hu]
      exact hrest u hu
    · rw [goto_threads_self] at hpc
      rcases hpc with hpc | hpc
      · cases hpc
      · cases hpc
        exact hgiven _ _ (.inl ht)
  | backendFailed t region bypass ht e =>
    obtain ⟨hs, hb, hrest, -⟩ := h.inside_of_owns (t := t) (by rw [ht]; rfl)
    refine .inside t hs hb (by rw [goto_threads_self]; rfl) (fun u hu => ?_) fun r b hpc => ?_
    · rw [goto_threads_of_ne hu]
      exact hrest u hu
    · rw [goto_threads_self] at hpc
      rcases hpc with hpc | hpc <;> cases hpc
  | backendStarted t region bypass ht =>
    obtain ⟨hs, hb, hrest, hgiven⟩ := h.inside_of_owns (t := t) (by rw [ht]; rfl)
    obtain ⟨hregion, hbypass⟩ := hgiven _ _ (.inr ht)
    exact .on region bypass hs rfl (goto_rest rfl hrest) hregion hbypass
  | failed t e ht =>
    obtain ⟨hs, hb, hrest, -⟩ := h.inside_of_owns (t := t) (by rw [ht]; rfl)
    exact .off rfl hb (goto_rest rfl hrest)
  | stopped t e ht =>
    have h' : Phase { s with published := .stopped :: s.published } := by
      rcases h with ⟨hs, hb, hrest⟩ | ⟨v, hs, hb, hv, hrest, hgiven⟩ | ⟨r, b, hs, hb, hrest, hr, hby⟩
      · exact .off hs hb hrest
      · exact .inside v hs hb hv hrest hgiven
      · exact .on r b hs hb hrest hr hby
    exact h'.goto (by rw [show _ = Pc.stopping e from ht]; rfl) rfl
  | reboot _ => exact phase_boot _ _

theorem phase_run {σ : Store} {accepted : Option UInt8}
    (hrun : run (step cfg) (.boot σ accepted) acts = some s) : Phase s :=
  run_invariant' (fun _ _ _ h hstep => h.moves (moves_of_step hstep)) (phase_boot σ accepted) hrun

/-! ### A start that has succeeded -/

/-- The service runs in the region and with the bypass. -/
structure Runs (cfg : Config) (region : UInt8) (bypass : Bool) (s : State) : Prop where
  backend : s.backend = some (region, bypass)
  reports : ∀ faults, getRegion cfg faults s = (.ok region, s)
  region : ∀ value faults, value ≤ lastRegion → setRegion cfg value faults s = (.error .invalidState, s)
  bypass : ∀ enabled, setJoinBackoffBypass enabled s = (.error .invalidState, s)
  init : ∀ value faults, value ≤ lastRegion → initCall cfg value faults s = (.error .already, s)
  alone : ∀ t, (s.threads t).owns = false

theorem Phase.runs {region : UInt8} {bypass : Bool} (h : Phase s) (hb : s.backend = some (region, bypass)) :
    Runs cfg region bypass s := by
  rcases h with ⟨-, hb', -⟩ | ⟨-, -, hb', -⟩ | ⟨r, b, hs, hb', hrest, hr, hby⟩
  · rw [hb] at hb'
    cases hb'
  · rw [hb] at hb'
    cases hb'
  obtain ⟨rfl, rfl⟩ : region = r ∧ bypass = b := by
    rw [hb] at hb'
    cases hb'
    exact ⟨rfl, rfl⟩
  refine ⟨hb, fun faults => ?_, fun value faults hv => ?_, fun enabled => ?_, fun value faults hv => ?_,
    hrest⟩
  · simp [getRegion, hs, hr]
  · simp [setRegion, hs, UInt32.not_lt.2 hv]
  · simp [setJoinBackoffBypass, hs]
  · simp [initCall, initSection, hs, UInt32.not_lt.2 hv]

/-- No step but a reboot takes what the backend was started with away. -/
theorem backend_kept (h : Phase s) (hb : s.backend ≠ none) (hmoves : Moves cfg s a u) (ha : a ≠ .reboot) :
    u.backend = s.backend := by
  cases hmoves with
  | backendStarted t region bypass ht =>
    obtain ⟨-, hnone, -⟩ := h.inside_of_owns (t := t) (by rw [ht]; rfl)
    exact absurd hnone hb
  | reboot hreboot => exact absurd hreboot ha
  | _ => rfl

/-- **A start that has succeeded is for good.** In every interleaving of threads, failing starts, other
users of the settings and reboots: once `backend.start` has succeeded, then until the next reboot every
thread is told its region, no call changes the region or the bypass, every other `rzi_lorawan_init` is
refused, and `backend.start` is not called again. -/
theorem started_for_good {σ : Store} {accepted : Option UInt8} {later : List Act} {bypass : Bool}
    {r : UInt8} (hrun : run (step cfg) (.boot σ accepted) acts = some s)
    (hstarted : s.backend = some (r, bypass)) (hlater : ∀ a ∈ later, a ≠ .reboot)
    (hrun' : run (step cfg) s later = some u) : Runs cfg r bypass u := by
  have hkeep : ∀ x a y, Phase x ∧ x.backend = some (r, bypass) → a ≠ .reboot → step cfg x a = some y →
      Phase y ∧ y.backend = some (r, bypass) := by
    rintro x a y ⟨hx, hb⟩ ha hstep
    have hmoves := moves_of_step hstep
    exact ⟨hx.moves hmoves, (backend_kept hx (by rw [hb]; simp) hmoves ha).trans hb⟩
  obtain ⟨hphase, hb⟩ := run_invariant hkeep ⟨phase_run hrun, hstarted⟩
    (Meets.of_forall fun a ha _ => hlater a ha) hrun'
  exact hphase.runs hb

/-- A start that fails and one that succeeds. -/
def twoStarts : List Act :=
  [.setBypass true, .init 0 0 [], .advance 0 (.ok ()) [], .advance 0 (.error .io) [],
    .advance 0 (.ok ()) [], .init 1 1 [], .advance 1 (.ok ()) [], .advance 1 (.ok ()) []]

theorem started_for_good_us915 :
    ∃ s, run (step defaultConfig) (.boot (fun _ => []) none) twoStarts = some s ∧
      ∀ u, run (step defaultConfig) s [.setRegion 4 [], .setBypass false, .init 0 0 []] = some u →
        Runs defaultConfig 1 true u := by
  obtain ⟨s, hs⟩ : ∃ s, run (step defaultConfig) (.boot (fun _ => []) none) twoStarts = some s := ⟨_, rfl⟩
  have hb : (run (step defaultConfig) (.boot (fun _ => []) none) twoStarts).bind (·.backend) =
      some (1, true) := rfl
  rw [hs] at hb
  exact ⟨s, hs, fun u hu => started_for_good hs hb (by simp) hu⟩

/-! ### The region that was accepted -/

/-- The accepted region is stored, it is what a thread is told, and what the backend was started with. -/
structure Follows (cfg : Config) (s : State) (region : UInt8) : Prop where
  stored : lookup cfg s.settings.store .region = .ok ([region], true)
  reported : ∀ faults value, (getRegion cfg faults s).1 = .ok value → value = region
  started : ∀ value bypass, s.backend = some (value, bypass) → value = region

def FollowsAccepted (cfg : Config) (s : State) : Prop :=
  ∀ region, s.accepted = some region → Follows cfg s region

/-- A `start_service` whose `rzi_lorawan_init` stores the region had read the one accepted last. -/
def Fresh (cfg : Config) (s : State) (a : Act) : Prop :=
  ∀ t answer faults region bypass accepted, a = .advance t answer faults → s.threads t = .got region →
    (initCall cfg region.toUInt32 faults s).1 = .ok bypass → s.accepted = some accepted → region = accepted

/-- What carries `FollowsAccepted` from step to step. -/
def Held (cfg : Config) (s : State) : Prop :=
  ∀ region, s.accepted = some region → lookup cfg s.settings.store .region = .ok ([region], true) ∧
    (s.started = true → s.configuredRegion = region)

theorem Held.follows (h : Held cfg s) (hphase : Phase s) (hcoherent : Coherent cfg s.settings) :
    FollowsAccepted cfg s := by
  intro region haccepted
  obtain ⟨hstored, hregion⟩ := h region haccepted
  refine ⟨hstored, fun faults value hvalue => ?_, fun value bypass hb => ?_⟩
  · rcases getRegion_cases faults s with ⟨hs, hget⟩ | ⟨hs, sys, -, ⟨e, hget⟩ | ⟨r, hr, hget⟩⟩
    · rw [hget] at hvalue
      cases hvalue
      exact hregion hs
    · rw [hget] at hvalue
      cases hvalue
    · rw [hget] at hvalue
      cases hvalue
      obtain rfl : r = ([region], true) := Except.ok.inj ((hr hcoherent).symm.trans hstored)
      rfl
  · rcases hphase with ⟨-, hb', -⟩ | ⟨-, -, hb', -⟩ | ⟨r, b, hs, hb', -, hr, -⟩
    · rw [hb] at hb'
      cases hb'
    · rw [hb] at hb'
      cases hb'
    · rw [hb] at hb'
      cases hb'
      exact hr.symm.trans (hregion hs)

theorem FollowsAccepted.held (h : FollowsAccepted cfg s) : Held cfg s := by
  intro region haccepted
  obtain ⟨hstored, hreported, -⟩ := h region haccepted
  refine ⟨hstored, fun hs => hreported [] s.configuredRegion ?_⟩
  simp [getRegion, hs]

theorem coherent_clear {sys : Sys} (h : (settingsClear sys faults).1 = .ok ()) :
    Coherent cfg (settingsClear sys faults).2 := by
  have hcache := (settingsClear_ok h).2
  intro k hk
  rw [hcache] at hk
  cases hk

theorem coherent_moves (h : Coherent cfg s.settings) (hmoves : Moves cfg s a u) (ha : Complete s a) :
    Coherent cfg u.settings := by
  cases hmoves with
  | same sys hsys | loaded sys hsys _ _ _ | gotLoaded _ _ sys hsys _ _ _ => exact hsys.coherent h
  | accepted sys _ hsys _ | entered _ sys _ _ hsys _ _ => exact hsys.coherent h
  | cleared faults ha' =>
    subst ha'
    exact coherent_clear ha
  | reboot _ => exact coherent_boot cfg _
  | _ => exact h

theorem Held.moves (h : Held cfg s) (hcoherent : Coherent cfg s.settings) (hmoves : Moves cfg s a u)
    (ha : Fresh cfg s a) : Held cfg u := by
  intro r hr
  cases hmoves with
  | same sys hsys =>
    obtain ⟨hstored, hregion⟩ := h r hr
    exact ⟨(hsys.same hcoherent).trans hstored, hregion⟩
  | loaded sys hsys hs _ _ | gotLoaded _ _ sys hsys hs _ _ =>
    refine ⟨(hsys.same hcoherent).trans (h r hr).1, fun hs' => ?_⟩
    cases hs.symm.trans hs'
  | accepted sys region hsys hs =>
    cases hr
    refine ⟨hsys.stored hcoherent, fun hs' => ?_⟩
    cases hs.symm.trans hs'
  | entered t sys region accepted hsys hs henters =>
    obtain rfl : region = r := by
      rcases henters with ⟨-, haccepted⟩ | ⟨hgot, haccepted, answer, faults, hact, bypass, hok⟩
      · exact Option.some.inj (haccepted.symm.trans hr)
      · exact ha t answer faults region bypass r hact hgot hok (haccepted.symm.trans hr)
    exact ⟨hsys.stored hcoherent, fun _ => rfl⟩
  | failed t e ht => exact ⟨(h r hr).1, fun hs => (by cases hs)⟩
  | cleared _ _ => cases hr
  | reboot _ => exact ⟨(h r hr).1, fun hs => (by cases hs)⟩
  | _ => exact h r hr

/-- A `start_service` that had read another region stores that one. -/
theorem not_held_of_stale (hcoherent : Coherent cfg s.settings) (hstep : step cfg s a = some u)
    (ha : ¬ Fresh cfg s a) : ¬ Held cfg u := by
  simp only [Fresh, not_forall] at ha
  obtain ⟨t, answer, faults, region, bypass, accepted, rfl, hgot, hok, haccepted, hne⟩ := ha
  simp only [step, advance, hgot] at hstep
  rcases initCall_cases region.toUInt32 faults s with ⟨e, he⟩ | ⟨-, sys, hsys, hstores⟩
  · rw [he] at hok
    cases hok
  · rw [hsys] at hstep
    cases hstep
    intro hheld
    rw [UInt8.toUInt8_toUInt32] at hstores
    have hstored := (hheld accepted haccepted).1.symm.trans (hstores.stored hcoherent)
    injection hstored with hpair
    injection hpair with hlist
    injection hlist with heq
    exact hne heq.symm

/-- What every step of a run with complete resets keeps. -/
theorem sound_step (h : Phase s ∧ Coherent cfg s.settings) (ha : Complete s a)
    (hstep : step cfg s a = some u) : Phase u ∧ Coherent cfg u.settings :=
  ⟨h.1.moves (moves_of_step hstep), coherent_moves h.2 (moves_of_step hstep) ha⟩

/-- **The accepted region.** In every interleaving from any store contents, with reboots, failing starts,
storage faults, other users of the settings and complete resets: in every state the region that was
accepted last is the one that is stored, that every thread is told and that the backend was started with,
exactly if each `start_service` that stores a region had read the one accepted last. -/
theorem region_follows_accepted_iff {σ : Store}
    (hrun : run (step cfg) (.boot σ none) acts = some s)
    (hcomplete : Meets (step cfg) Complete (.boot σ none) acts) :
    Always (step cfg) (FollowsAccepted cfg) (.boot σ none) acts ↔
      Meets (step cfg) (Fresh cfg) (.boot σ none) acts := by
  have hboot : Phase (.boot σ none) ∧ Coherent cfg (State.boot σ none).settings :=
    ⟨phase_boot σ none, coherent_boot cfg σ⟩
  have hall : Always (step cfg) (fun s => Coherent cfg s.settings ∧ Held cfg s) (.boot σ none) acts ∧
      Meets (step cfg) Complete (.boot σ none) acts ↔
        Meets (step cfg) (fun s a => Complete s a ∧ Fresh cfg s a) (.boot σ none) acts := always_meets_iff
    (fun _ _ _ h hstep => h.moves (moves_of_step hstep)) (fun x a y hphase hx hstep => ?_) hboot.1
    ⟨hboot.2, fun r hr => (by cases hr)⟩ hrun
  · have hcoherent : Always (step cfg) (fun s => Phase s ∧ Coherent cfg s.settings) (.boot σ none) acts :=
      always_of_invariant (I := fun s => Phase s ∧ Coherent cfg s.settings) (fun _ h => h)
        (fun _ _ _ h ha hstep => sound_step h ha hstep) hboot hcomplete
    constructor
    · intro h
      refine (meets_and.1 (hall.1 ⟨fun pre x hpre hx => ?_, hcomplete⟩)).2
      exact ⟨(hcoherent pre x hpre hx).2, (h pre x hpre hx).held⟩
    · intro h pre x hpre hx
      have hheld := ((hall.2 (meets_and.2 ⟨hcomplete, h⟩)).1 pre x hpre hx).2
      exact hheld.follows (hcoherent pre x hpre hx).1 (hcoherent pre x hpre hx).2
  · constructor
    · rintro ⟨ha, hfresh⟩
      exact ⟨ha, coherent_moves hx.1 (moves_of_step hstep) ha, hx.2.moves hx.1 (moves_of_step hstep) hfresh⟩
    · rintro ⟨ha, hy⟩
      exact ⟨ha, by_contra fun hstale => not_held_of_stale hx.1 hstep hstale hy.2⟩

/-- A region is accepted between the two calls of `start_service`. -/
def staleStart : List Act :=
  [.setRegion 4 [], .startService 0 [], .setRegion 1 [], .advance 0 (.ok ()) []]

theorem stale_start_overwrites :
    ∃ s, run (step defaultConfig) (.boot (fun _ => []) none) staleStart = some s ∧
      ¬ Always (step defaultConfig) (FollowsAccepted defaultConfig) (.boot (fun _ => []) none)
        staleStart := by
  obtain ⟨s, hs⟩ : ∃ s, run (step defaultConfig) (.boot (fun _ => []) none) staleStart = some s := ⟨_, rfl⟩
  have hcomplete : Meets (step defaultConfig) Complete (.boot (fun _ => []) none) staleStart := by
    refine .of_forall fun a ha _ => ?_
    simp only [staleStart, List.mem_cons, List.not_mem_nil, or_false] at ha
    rcases ha with rfl | rfl | rfl | rfl <;> trivial
  refine ⟨s, hs, fun h => ?_⟩
  have hfresh := (region_follows_accepted_iff hs hcomplete).1 h
  have hlast := @Meets.last _ _ _ _ _ _ (.advance 0 (.ok ()) []) (staleStart.take 3) hfresh rfl
  exact absurd (hlast 0 (.ok ()) [] 4 false 1 rfl rfl rfl rfl) (by decide)

end Steps

end Rzi.Lorawan.Start
