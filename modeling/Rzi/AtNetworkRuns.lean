import Rzi.AtNetworkMode

/-!
# The working mode over whole runs

RAM and store agree after a start of the AT service, and stay so as long as every fall-back erases the
stored mode and no factory reset fails after it has erased it. `nwm_transactional_iff` has the condition
on one command in any reachable state, and the condition on a run.
-/

namespace Rzi.At.NetworkMode
open Storage LoraService Strtol
open Start (Build)
open FactoryReset (SameSettings)
open Lts

variable {β : Type} (image : Image β)

/-! ### A start of the AT service -/

section Start
variable {image} {attempt : Attempt} {store : Store} {f g : Start.State → Except Err Unit × Start.State}
  {s t : Start.State}

variable (image) in
/-- The mode is still the one of the image, or it is the stored one. -/
def Ready (store : Store) (s : Start.State) : Prop :=
  s.settings.networkMode = image.defaults.networkMode ∨ bootMode image store = .ok s.settings.networkMode

/-- A step that leaves the mode alone. -/
def SameMode (f : Start.State → Except Err Unit × Start.State) : Prop :=
  ∀ s, (f s).2.settings.networkMode = s.settings.networkMode

variable (image) in
/-- A step that loads the mode, if it succeeds. -/
structure Prepares (store : Store) (f : Start.State → Except Err Unit × Start.State) : Prop where
  ready : ∀ s, Ready image store s → Ready image store (f s).2
  loads : ∀ s t, Ready image store s → f s = (.ok (), t) → bootMode image store = .ok t.settings.networkMode

theorem sameMode_of_settings (h : SameSettings f) : SameMode f :=
  fun s => congrArg Start.Settings.networkMode (h s)

theorem Ready.congr (h : Ready image store s) (hmode : t.settings.networkMode = s.settings.networkMode) :
    Ready image store t := by
  unfold Ready
  rw [hmode]
  exact h

theorem Ready.le (h : Ready image store s) : s.settings.networkMode ≤ 2 := by
  rcases h with h | h
  · rw [h]
    exact defaults_le
  · exact bootMode_le h

theorem Prepares.before (hf : SameMode f) (hg : Prepares image store g) :
    Prepares image store (Start.andThen f g) where
  ready s h := by
    have hs := hf s
    unfold Start.andThen
    split <;> rename_i r hr <;> rw [hr] at hs
    · exact h.congr hs
    · exact hg.ready r (h.congr hs)
  loads s t h ht := by
    obtain ⟨r, hr, ht⟩ := Start.andThen_ok ht
    have hs := hf s
    rw [hr] at hs
    exact hg.loads r t (h.congr hs) ht

theorem Prepares.after (hf : Prepares image store f) (hg : SameMode g) :
    Prepares image store (Start.andThen f g) where
  ready s h := by
    have hs := hf.ready s h
    unfold Start.andThen
    split <;> rename_i r hr <;> rw [hr] at hs
    · exact hs
    · exact hs.congr (hg r)
  loads s t h ht := by
    obtain ⟨r, hr, ht⟩ := Start.andThen_ok ht
    have hsame := hg r
    rw [ht] at hsame
    rw [hsame]
    exact hf.loads s r h hr

theorem prepares_loadMode (image : Image β) (attempt : Attempt) (store : Store) :
    Prepares image store (Start.loadMode image.toBuild (attempt.env store)) where
  ready s h := by
    rcases loadMode_spec image attempt store s with ⟨e, hload⟩ | ⟨t, hload, hboot | ⟨rfl, -⟩⟩
    · rw [hload]
      exact h
    · rw [hload]
      exact .inr hboot
    · rw [hload]
      exact h
  loads s t h ht := by
    rcases loadMode_spec image attempt store s with ⟨e, hload⟩ | ⟨t', hload, hboot⟩
    · cases hload.symm.trans ht
    · cases hload.symm.trans ht
      rcases hboot with hboot | ⟨rfl, hboot⟩
      · exact hboot
      · rcases h with hdefault | hstored
        · rw [hdefault]
          exact hboot
        · exact hstored

/-- Without a package nothing is stored, and nothing is loaded. -/
theorem prepares_skip (hnone : ¬ (image.commandLorawan || image.commandLora) = true) (store : Store) :
    Prepares image store fun s => (.ok (), s) where
  ready _ h := h
  loads s t h ht := by
    cases ht
    have hnvm : image.nvm = false := by
      rw [Bool.eq_false_iff]
      intro hnvm
      exact hnone (by rw [image.nvm_lorawan hnvm, Bool.true_or])
    rcases h with hdefault | hstored
    · rw [hdefault]
      exact bootMode_volatile hnvm store
    · exact hstored

theorem prepares_builtinRegister (image : Image β) (attempt : Attempt) (store : Store) :
    Prepares image store (Start.builtinRegister image.toBuild (attempt.env store)) := by
  have hskip : SameSettings fun s => (.ok (), s) := fun _ => rfl
  have hpackages : SameSettings <| Start.andThen
      (if image.commandLorawan then Start.lorawanRegister image.toBuild else fun s => (.ok (), s))
      (if image.commandLora then Start.loraRegister image.toBuild else fun s => (.ok (), s)) := by
    refine SameSettings.andThen ?_ ?_
    · split
      · exact (FactoryReset.sameSettings_registerGroups image.toBuild Start.lorawanGroups).andThen
          (FactoryReset.sameSettings_addExtension image.toBuild .lorawan)
      · exact hskip
    · split
      · exact (FactoryReset.sameSettings_addListener .lora).andThen
          ((FactoryReset.sameSettings_registerGroups image.toBuild Start.loraGroups).andThen
            (FactoryReset.sameSettings_addExtension image.toBuild .lora))
      · exact hskip
  refine Prepares.before (fun _ => rfl) (Prepares.before (fun _ => rfl) (Prepares.after ?_ ?_))
  · split
    · refine (prepares_loadMode image attempt store).after (sameMode_of_settings ?_)
      refine (FactoryReset.sameSettings_registerNames image.toBuild Start.networkModeNames).andThen ?_
      split
      · exact FactoryReset.sameSettings_addExtension image.toBuild .networkMode
      · exact hskip
    · rename_i hnone
      exact prepares_skip hnone store
  · exact sameMode_of_settings hpackages

/-- A start loads the stored mode; one that fails leaves a mode that another attempt can start from. -/
theorem prepares_start (image : Image β) (attempt : Attempt) (store : Store) :
    Prepares image store (Start.start image.toBuild (attempt.env store)) where
  ready s h := by
    have hbuiltin := (prepares_builtinRegister image attempt store).ready { s with started := true } h
    unfold Start.start
    split
    · exact h
    split
    · exact h
    split
    · exact h
    split <;> rename_i t ht <;> rw [ht] at hbuiltin
    · exact hbuiltin
    · dsimp only
      split <;> exact hbuiltin
  loads s t h ht := by
    obtain ⟨-, -, -, r, hr, hend⟩ := Start.start_ok (congrArg Prod.fst ht)
    have hloads := (prepares_builtinRegister image attempt store).loads { s with started := true } r h hr
    rw [ht] at hend
    change t = _ at hend
    rw [hend]
    exact hloads

theorem start_of_started (build : Build) (hstarted : s.started = true) (env : Start.Env) :
    (Start.start build env s).2 = s := by
  unfold Start.start
  split
  · rfl
  split
  · rfl
  · rfl

/-- A started service has the listeners and the extensions of the build. Before that, there are none, or an
attempt has failed that leaves no later one a chance. -/
structure Registers (build : Build) (s : Start.State) : Prop where
  started : s.started = true → s.listeners = build.listeners ∧ s.extensions = build.extensions
  unstarted : s.started = false → Start.Dirty s ∨ s.listeners = [] ∧ s.extensions = []

/-- An attempt that leaves no system command in the table registers nothing. -/
theorem start_clean {build : Build} {env : Start.Env} (hstarted : s.started = false)
    (hclean : ¬ Start.Dirty (Start.start build env s).2) :
    (Start.start build env s).2.listeners = s.listeners ∧
      (Start.start build env s).2.extensions = s.extensions := by
  by_cases hrefused : env.isr = true ∨ env.io = false
  · obtain ⟨e, hstart⟩ := Start.start_refused build hrefused s
    rw [hstart]
    exact ⟨rfl, rfl⟩
  rw [not_or, Bool.not_eq_true, Bool.not_eq_false] at hrefused
  rcases hreg : (Table.register build.maxCommands (.array (Start.systemNames.map build.command)) s.table).1 with
    e | _
  · have hbuiltin : Start.builtinRegister build env { s with started := true } =
        (.error e, (Start.registerNames build Start.systemNames { s with started := true }).2) := by
      unfold Start.builtinRegister Start.andThen Start.registerNames
      dsimp only
      rw [hreg]
    unfold Start.start
    rw [hbuiltin, hrefused.1, hrefused.2, hstarted]
    exact ⟨rfl, rfl⟩
  · exact absurd (Start.dirty_of_start hrefused.1 hrefused.2 hstarted hreg) hclean

theorem Registers.start {build : Build} (h : Registers build s) (env : Start.Env) :
    Registers build (Start.start build env s).2 := by
  by_cases hok : (Start.start build env s).1 = .ok ()
  · obtain ⟨hisr, hio, hstarted, r, hr, hend⟩ := Start.start_ok hok
    have happends := Start.appends_builtinRegister build env
    have hlisteners := happends.listeners _ _ hr
    have hextensions := happends.extensions _ _ hr
    rcases h.unstarted hstarted with hdirty | ⟨hnone, hnone'⟩
    · exact absurd hok hdirty.start
    · dsimp only at hlisteners hextensions
      rw [hnone, List.nil_append] at hlisteners
      rw [hnone', List.nil_append] at hextensions
      refine ⟨fun _ => ?_, fun _ => .inl ?_⟩
      · rw [hend]
        exact ⟨hlisteners, hextensions⟩
      · exact Start.dirty_of_start hisr hio hstarted (Start.registerNames_of_start_ok hok)
  · rcases Start.start_error hok with hsame | hnot
    · rw [hsame]
      exact h
    · refine ⟨fun hstarted => (by cases hnot.symm.trans hstarted), fun _ => ?_⟩
      rcases hstarted : s.started with _ | _
      · rcases h.unstarted hstarted with hdirty | hnone
        · exact .inl (hdirty.mono (Start.start_grows build env s))
        · by_cases hdirty : Start.Dirty (Start.start build env s).2
          · exact .inl hdirty
          · obtain ⟨hlisteners, hextensions⟩ := start_clean hstarted hdirty
            exact .inr ⟨hlisteners.trans hnone.1, hextensions.trans hnone.2⟩
      · rw [start_of_started build hstarted, hstarted] at hnot
        cases hnot

end Start

/-! ### Every run -/

section Runs
variable {image} {x t : System β} {a : Act β} {access : Access} {faults : List (Option Fault)}
  {others : Except Err Unit}

variable (image) in
/-- What holds in every run. -/
structure Sound (x : System β) : Prop where
  inRange : x.mode ≤ 2
  ready : x.atService.started = false → Ready image x.store x.atService

theorem System.running_iff : x.running = true ↔ x.up = true ∧ x.atService.started = true := by
  unfold System.running
  exact Bool.and_eq_true _ _ ▸ Iff.rfl

theorem sound_of_started (hmode : x.mode ≤ 2) (hstarted : x.atService.started = true) : Sound image x :=
  ⟨hmode, fun h => (by cases hstarted.symm.trans h)⟩

theorem restoreDefault_spec (image : Image β) (access : Access) (x : System β) :
    ∃ store, (restoreDefault image access x).2 =
        { x.setMode image.defaults.networkMode with store := store } ∧
      (image.nvm = true → access.Works → store "rzi/nwm" = []) ∧
      (image.nvm = true → ¬ access.Works → store = x.store) := by
  unfold restoreDefault
  cases hnvm : image.nvm with
  | false => exact ⟨x.store, rfl, fun h => (by cases h), fun h => (by cases h)⟩
  | true =>
    simp only [Bool.not_true, Bool.false_eq_true, if_false]
    cases hinit : access.init with
    | error e => exact ⟨x.store, rfl, fun _ h => (by cases hinit.symm.trans h.1), fun _ _ => rfl⟩
    | ok _ =>
      refine ⟨_, rfl, fun _ h => ?_, fun _ h => ?_⟩
      · rcases deleteNwm_spec x.store access.faults with ⟨-, -, hempty⟩ | ⟨hfault, -⟩
        · exact hempty
        · exact absurd h.2 hfault
      · rcases deleteNwm_spec x.store access.faults with ⟨hnone, -⟩ | ⟨-, -, hsame⟩
        · exact absurd ⟨hinit, hnone⟩ h
        · exact hsame

theorem extensionProcess_cases (image : Image β) (access : Access) (x : System β) :
    (¬ FallsBack image x ∧ ∃ pending s, extensionProcess image access x =
        { x with p2pStartPending := pending, service := s }) ∨
      (FallsBack image x ∧ ∃ s, extensionProcess image access x =
        (restoreDefault image access { x with p2pStartPending := false, service := s }).2) := by
  unfold FallsBack
  by_cases hpending : x.p2pStartPending = true
  · by_cases hlorawan : x.mode = lorawan
    · refine .inl ⟨fun h => h.2.1 hlorawan, false, x.service, ?_⟩
      exact (if_pos hpending).trans (if_pos hlorawan)
    · have hstart : extensionProcess image access x =
          if (ensureStarted image x.mode x.service).1 = .ok () then
            { x with p2pStartPending := false, service := (ensureStarted image x.mode x.service).2 }
          else (restoreDefault image access
            { x with p2pStartPending := false, service := (ensureStarted image x.mode x.service).2 }).2 :=
        (if_pos hpending).trans (if_neg hlorawan)
      by_cases hok : (ensureStarted image x.mode x.service).1 = .ok ()
      · exact .inl ⟨fun h => h.2.2 hok, false, _, hstart.trans (if_pos hok)⟩
      · exact .inr ⟨⟨hpending, hlorawan, hok⟩, _, hstart.trans (if_neg hok)⟩
  · exact .inl ⟨fun h => hpending h.1, x.p2pStartPending, x.service, if_neg hpending⟩

theorem factoryReset_spec (faults : List (Option Fault)) (others : Except Err Unit) (x : System β) :
    ∃ store, (factoryReset faults others x).2 = { x with store := store } ∧
      (store = x.store ∧ ¬ (Start.Extension.networkMode ∈ x.atService.extensions ∧ faults.headD none = none) ∨
        Start.Extension.networkMode ∈ x.atService.extensions ∧ faults.headD none = none ∧
          (factoryReset faults others x).1 = others ∧ store "rzi/nwm" = []) := by
  unfold factoryReset
  by_cases hext : Start.Extension.networkMode ∈ x.atService.extensions
  · rw [if_pos hext]
    refine ⟨_, rfl, ?_⟩
    rcases deleteNwm_spec x.store faults with ⟨hnone, hok, hempty⟩ | ⟨hfault, -, hsame⟩
    · exact .inr ⟨hext, hnone, if_pos hok, hempty⟩
    · exact .inl ⟨hsame, fun h => hfault h.2⟩
  · rw [if_neg hext]
    exact ⟨x.store, rfl, .inl ⟨rfl, fun h => hext h.1⟩⟩

/-- Of the AT service, AT+NWM changes the mode only. -/
theorem handleNwm_settings (image : Image β) (hmode : x.mode ≤ 2) (operation : Operation)
    (argument : List UInt8) (r : Replies) :
    ∃ settings, (handleNwm image operation argument r x).2.atService =
      { x.atService with settings := settings } ∧ settings.networkMode ≤ 2 := by
  unfold handleNwm
  split
  · exact ⟨_, rfl, hmode⟩
  split
  · exact ⟨_, rfl, hmode⟩
  rename_i mode hrequest
  split
  · exact ⟨_, rfl, hmode⟩
  rcases changeMode_spec image r mode x with ⟨-, e, s, hchange⟩ | ⟨-, s, hchange⟩
  · rw [hchange]
    exact ⟨_, rfl, hmode⟩
  · rw [hchange]
    exact ⟨_, rfl, (requestedMode_ok hrequest).2⟩

theorem Sound.next (h : Sound image x) (ht : step image x a = some t) : Sound image t := by
  cases a with
  | reset b =>
    cases ht
    exact ⟨defaults_le, fun _ => .inl rfl⟩
  | register batch =>
    obtain ⟨-, ⟨⟩⟩ := Option.ite_none_right_eq_some.1 ht
    exact ⟨h.inRange, h.ready⟩
  | start attempt =>
    obtain ⟨-, ⟨⟩⟩ := Option.ite_none_right_eq_some.1 ht
    cases hstarted : x.atService.started with
    | false =>
      have hready := (prepares_start image attempt x.store).ready x.atService (h.ready hstarted)
      exact ⟨hready.le, fun _ => hready⟩
    | true =>
      have hsame := start_of_started image.toBuild hstarted (attempt.env x.store)
      refine sound_of_started ?_ ?_
      · show (Start.start image.toBuild (attempt.env x.store) x.atService).2.settings.networkMode ≤ 2
        rw [hsame]
        exact h.inRange
      · show (Start.start image.toBuild (attempt.env x.store) x.atService).2.started = true
        rw [hsame]
        exact hstarted
  | nwm operation argument r =>
    obtain ⟨hon, ⟨⟩⟩ := Option.ite_none_right_eq_some.1 ht
    simp only [Bool.and_eq_true] at hon
    obtain ⟨settings, hservice, hle⟩ := handleNwm_settings image h.inRange operation argument r
    refine sound_of_started ?_ ?_
    · unfold System.mode
      rw [hservice]
      exact hle
    · rw [hservice]
      exact (System.running_iff.1 hon.1.1).2
  | radioCommand =>
    obtain ⟨hon, ⟨⟩⟩ := Option.ite_none_right_eq_some.1 ht
    exact ⟨h.inRange, h.ready⟩
  | process access =>
    obtain ⟨hon, ⟨⟩⟩ := Option.ite_none_right_eq_some.1 ht
    rw [Bool.and_eq_true] at hon
    have hstarted := (System.running_iff.1 hon.1).2
    rcases extensionProcess_cases image access x with ⟨-, pending, s, hend⟩ | ⟨-, s, hend⟩
    · rw [hend]
      exact sound_of_started h.inRange hstarted
    · obtain ⟨store, hrestore, -⟩ := restoreDefault_spec image access
        { x with p2pStartPending := false, service := s }
      rw [hend, hrestore]
      exact sound_of_started defaults_le hstarted
  | factoryReset faults others =>
    obtain ⟨hon, ⟨⟩⟩ := Option.ite_none_right_eq_some.1 ht
    obtain ⟨store, hreset, -⟩ := factoryReset_spec faults others x
    rw [hreset]
    exact sound_of_started h.inRange (System.running_iff.1 hon).2
  | call c =>
    obtain ⟨-, ⟨⟩⟩ := Option.ite_none_right_eq_some.1 ht
    exact ⟨h.inRange, h.ready⟩
  | radio b =>
    obtain ⟨-, ⟨⟩⟩ := Option.ite_none_right_eq_some.1 ht
    exact ⟨h.inRange, h.ready⟩
  | write name value =>
    obtain ⟨hon, ⟨⟩⟩ := Option.ite_none_right_eq_some.1 ht
    rw [Bool.and_eq_true, decide_eq_true_eq] at hon
    have hboot := bootMode_other image hon.2 x.store value
    refine ⟨h.inRange, fun hnot => ?_⟩
    unfold Ready
    rw [hboot]
    exact h.ready hnot

theorem registers_next (hmode : x.mode ≤ 2) (h : Registers image.toBuild x.atService)
    (ht : step image x a = some t) : Registers image.toBuild t.atService := by
  cases a with
  | reset b =>
    cases ht
    exact ⟨fun h => (by cases h), fun _ => .inr ⟨rfl, rfl⟩⟩
  | register batch =>
    obtain ⟨-, ⟨⟩⟩ := Option.ite_none_right_eq_some.1 ht
    refine ⟨h.started, fun hnot => (h.unstarted hnot).imp_left fun hdirty => ?_⟩
    have hnext : Start.Dirty (Start.next image.toBuild ⟨x.atService, []⟩ (.register batch)).state :=
      Start.Dirty.next hdirty (.register batch)
    exact hnext
  | start attempt =>
    obtain ⟨-, ⟨⟩⟩ := Option.ite_none_right_eq_some.1 ht
    exact h.start (attempt.env x.store)
  | nwm operation argument r =>
    obtain ⟨-, ⟨⟩⟩ := Option.ite_none_right_eq_some.1 ht
    obtain ⟨settings, hservice, -⟩ := handleNwm_settings image hmode operation argument r
    rw [hservice]
    exact ⟨h.started, h.unstarted⟩
  | process access =>
    obtain ⟨-, ⟨⟩⟩ := Option.ite_none_right_eq_some.1 ht
    rcases extensionProcess_cases image access x with ⟨-, pending, s, hend⟩ | ⟨-, s, hend⟩
    · rw [hend]
      exact h
    · obtain ⟨store, hrestore, -⟩ := restoreDefault_spec image access
        { x with p2pStartPending := false, service := s }
      rw [hend, hrestore]
      exact ⟨h.started, h.unstarted⟩
  | factoryReset faults others =>
    obtain ⟨-, ⟨⟩⟩ := Option.ite_none_right_eq_some.1 ht
    obtain ⟨store, hreset, -⟩ := factoryReset_spec faults others x
    rw [hreset]
    exact h
  | radioCommand | call | radio | write =>
    obtain ⟨-, ⟨⟩⟩ := Option.ite_none_right_eq_some.1 ht
    exact h

/-- Where the store agrees, a write of AT+NWM is transactional exactly if its answer to a new mode is right,
and the store agrees again. -/
theorem keeps_nwm (hup : x.up = true) (hmode : x.mode ≤ 2) (hagrees : Agrees image x)
    (argument : List UInt8) (r : Replies) :
    Transactional image x (.nwm .write argument r) ∧
        ((handleNwm image .write argument r x).2.running = true →
          Agrees image (handleNwm image .write argument r x).2) ↔
      Keeps image x (.nwm .write argument r) := by
  have hsafe : Safe image x (.nwm .write argument r) ↔ Keeps image x (.nwm .write argument r) := by
    constructor
    · intro h mode hrequest
      exact (h mode hrequest).2
    · intro h mode hrequest
      exact ⟨fun _ _ => hagrees, h mode hrequest⟩
  rw [transactional_write hup hmode, hsafe, and_iff_left_iff_imp]
  intro hkeeps hrun
  have heffect := handleNwm_effect image argument r x
  generalize handleNwm image .write argument r x = o at heffect hrun
  cases heffect with
  | refused e hrequest => exact hagrees
  | same hrequest => exact hagrees
  | undone mode e y hrequest hne hnot hchange => exact hagrees
  | changed mode s hrequest hne htakes =>
    have hright : AnswersRight image r mode := hkeeps mode hrequest hne htakes
    obtain ⟨hnext, -⟩ := System.running_iff.1 hrun
    have hstays : image.restarts = false := by
      change (x.up && !image.restarts) = true at hnext
      rw [hup, Bool.true_and, Bool.not_eq_true'] at hnext
      exact hnext
    refine (bootMode_changed (requestedMode_ok hrequest).2 x.store).2 ?_
    unfold AnswersRight at hright
    cases hrespond : r.respond with
    | error e =>
      rw [hrespond] at hright
      cases hstays.symm.trans hright
    | ok _ =>
      rw [hrespond] at hright
      exact hright

theorem keeps_process (hrunning : x.running = true) (hagrees : Agrees image x) (access : Access) :
    ((extensionProcess image access x).running = true → Agrees image (extensionProcess image access x)) ↔
      Keeps image x (.process access) := by
  unfold Keeps
  rcases extensionProcess_cases image access x with ⟨hnot, pending, s, hend⟩ | ⟨hback, s, hend⟩
  · rw [hend]
    exact ⟨fun _ h => absurd h hnot, fun _ _ => hagrees⟩
  · obtain ⟨store, hrestore, hempty, hsame⟩ := restoreDefault_spec image access
      { x with p2pStartPending := false, service := s }
    rw [hend, hrestore]
    constructor
    · intro h _ hnvm
      by_contra hfails
      have hboot : bootMode image store = .ok image.defaults.networkMode := h hrunning
      rw [hsame hnvm hfails] at hboot
      -- the mode that did not start is a P2P mode, and the default is not
      have hstored : bootMode image x.store = .ok x.mode := hagrees
      have hmode : x.mode = image.defaults.networkMode := Except.ok.inj (hstored.symm.trans hboot)
      refine hback.2.1 (hmode.trans ?_)
      exact if_pos (image.nvm_lorawan hnvm)
    · intro h _
      show bootMode image store = .ok image.defaults.networkMode
      cases hnvm : image.nvm with
      | false => exact bootMode_volatile hnvm store
      | true => exact bootMode_empty (hempty hnvm (h hback hnvm))

theorem keeps_factoryReset (hrunning : x.running = true) (hagrees : Agrees image x)
    (faults : List (Option Fault)) (others : Except Err Unit) :
    (({ (factoryReset faults others x).2 with
          up := decide ((factoryReset faults others x).1 ≠ .ok ()) } : System β).running = true →
        Agrees image { (factoryReset faults others x).2 with
          up := decide ((factoryReset faults others x).1 ≠ .ok ()) }) ↔
      Keeps image x (.factoryReset faults others) := by
  have hstarted := (System.running_iff.1 hrunning).2
  unfold Keeps
  obtain ⟨store, hreset, ⟨rfl, hnot⟩ | ⟨hext, hnone, hrc, hempty⟩⟩ := factoryReset_spec faults others x
  · rw [hreset]
    exact ⟨fun _ hext hnone => absurd ⟨hext, hnone⟩ hnot, fun _ _ => hagrees⟩
  · rw [hreset, hrc]
    have hboot : bootMode image store = .ok image.defaults.networkMode := bootMode_empty hempty
    constructor
    · intro h _ _
      by_cases hok : others = .ok ()
      · exact .inl hok
      · have hagrees' : bootMode image store = .ok x.mode :=
          h (System.running_iff.2 ⟨decide_eq_true hok, hstarted⟩)
        exact .inr (Except.ok.inj (hagrees'.symm.trans hboot))
    · intro h hrun
      rcases h hext hnone with hok | hmode
      · obtain ⟨hup, -⟩ := System.running_iff.1 hrun
        exact absurd hok (of_decide_eq_true hup)
      · show bootMode image store = .ok x.mode
        rw [hmode]
        exact hboot

theorem keeps_iff (hsound : Sound image x) (hagrees : x.running = true → Agrees image x)
    (ht : step image x a = some t) :
    Keeps image x a ↔ Transactional image x a ∧ (t.running = true → Agrees image t) := by
  cases a with
  | reset b =>
    cases ht
    exact ⟨fun _ => ⟨trivial, fun h => (by cases h)⟩, fun _ => trivial⟩
  | register batch =>
    obtain ⟨-, ⟨⟩⟩ := Option.ite_none_right_eq_some.1 ht
    exact ⟨fun _ => ⟨trivial, hagrees⟩, fun _ => trivial⟩
  | start attempt =>
    obtain ⟨hup, ⟨⟩⟩ := Option.ite_none_right_eq_some.1 ht
    refine ⟨fun _ => ⟨trivial, fun hrun => ?_⟩, fun _ => trivial⟩
    show bootMode image x.store =
      .ok (Start.start image.toBuild (attempt.env x.store) x.atService).2.settings.networkMode
    have hstarted : (Start.start image.toBuild (attempt.env x.store) x.atService).2.started = true :=
      (System.running_iff.1 hrun).2
    cases hbefore : x.atService.started with
    | true =>
      rw [start_of_started image.toBuild hbefore]
      exact hagrees (System.running_iff.2 ⟨hup, hbefore⟩)
    | false =>
      by_cases hok : (Start.start image.toBuild (attempt.env x.store) x.atService).1 = .ok ()
      · exact (prepares_start image attempt x.store).loads x.atService _ (hsound.ready hbefore)
          (Prod.ext hok rfl)
      · rcases Start.start_error hok with hsame | hnot
        · rw [hsame, hbefore] at hstarted
          cases hstarted
        · cases hnot.symm.trans hstarted
  | nwm operation argument r =>
    obtain ⟨hon, ⟨⟩⟩ := Option.ite_none_right_eq_some.1 ht
    simp only [Bool.and_eq_true, Bool.or_eq_true, beq_iff_eq] at hon
    obtain ⟨⟨hrunning, -⟩, rfl | rfl⟩ := hon
    · refine ⟨fun _ => ⟨transactional_read argument r x, fun _ => hagrees hrunning⟩, fun _ => trivial⟩
    · exact (keeps_nwm (System.running_iff.1 hrunning).1 hsound.inRange (hagrees hrunning) argument r).symm
  | radioCommand =>
    obtain ⟨-, ⟨⟩⟩ := Option.ite_none_right_eq_some.1 ht
    exact ⟨fun _ => ⟨trivial, hagrees⟩, fun _ => trivial⟩
  | process access =>
    obtain ⟨hon, ⟨⟩⟩ := Option.ite_none_right_eq_some.1 ht
    rw [Bool.and_eq_true] at hon
    rw [← keeps_process hon.1 (hagrees hon.1) access]
    exact (and_iff_right trivial).symm
  | factoryReset faults others =>
    obtain ⟨hon, ⟨⟩⟩ := Option.ite_none_right_eq_some.1 ht
    rw [← keeps_factoryReset hon (hagrees hon) faults others]
    exact (and_iff_right trivial).symm
  | call c =>
    obtain ⟨-, ⟨⟩⟩ := Option.ite_none_right_eq_some.1 ht
    exact ⟨fun _ => ⟨trivial, hagrees⟩, fun _ => trivial⟩
  | radio b =>
    obtain ⟨-, ⟨⟩⟩ := Option.ite_none_right_eq_some.1 ht
    exact ⟨fun _ => ⟨trivial, hagrees⟩, fun _ => trivial⟩
  | write name value =>
    obtain ⟨hon, ⟨⟩⟩ := Option.ite_none_right_eq_some.1 ht
    rw [Bool.and_eq_true, decide_eq_true_eq] at hon
    have hboot := bootMode_other image hon.2 x.store value
    exact ⟨fun _ => ⟨trivial, fun hrun => hboot.trans (hagrees hrun)⟩, fun _ => trivial⟩

theorem sound_powerOn (image : Image β) (store : Store) (b : β) : Sound image (powerOn image store b) :=
  ⟨defaults_le, fun _ => .inl rfl⟩

/-- While the AT thread runs, the LoRa package listens to the mode exactly if the build has it, so that a
change that fails is rolled back with one call, and the hook of the network mode is there exactly if the
build stores it. -/
theorem listeners_run (store : Store) (b : β) {acts : List (Act β)}
    (hrun : run (step image) (powerOn image store b) acts = some x) (hrunning : x.running = true) :
    x.atService.listeners = (if image.commandLora then [.lora] else []) ∧
      (Start.Extension.networkMode ∈ x.atService.extensions ↔ image.nvm = true) := by
  have hboot : Registers image.toBuild (powerOn image store b).atService :=
    ⟨fun h => (by cases h), fun _ => .inr ⟨rfl, rfl⟩⟩
  have hkept := run_invariant' (I := fun x => Sound image x ∧ Registers image.toBuild x.atService)
    (fun x a t h ht => ⟨h.1.next ht, registers_next h.1.inRange h.2 ht⟩)
    ⟨sound_powerOn image store b, hboot⟩ hrun
  obtain ⟨hlisteners, hextensions⟩ := hkept.2.started (System.running_iff.1 hrunning).2
  refine ⟨hlisteners, ?_⟩
  rw [hextensions]
  unfold Start.Build.extensions
  cases image.nvm <;> cases image.commandLorawan <;> cases image.commandLora <;> decide

/-- In a reachable state, AT+NWM is transactional exactly if it is `Safe`. And in a run, all its uses are
transactional and the reported mode is always the one that the next boot loads, exactly if each step
`Keeps` it so: an answer to a new mode is right, a fall-back erases the stored mode, and no factory reset
fails after it has erased the mode. -/
theorem nwm_transactional_iff (image : Image β) :
    (∀ store b acts x, run (step image) (powerOn image store b) acts = some x →
      ∀ a, (step image x a).isSome = true → (Transactional image x a ↔ Safe image x a)) ∧
    ∀ store b acts x, run (step image) (powerOn image store b) acts = some x →
      (Always (step image) (fun x => x.running = true → Agrees image x) (powerOn image store b) acts ∧
          Meets (step image) (Transactional image) (powerOn image store b) acts ↔
        Meets (step image) (Keeps image) (powerOn image store b) acts) := by
  have hnext : ∀ x a t, Sound image x → step image x a = some t → Sound image t :=
    fun x a t h ht => h.next ht
  constructor
  · intro store b acts x hrun a henabled
    have hsound : Sound image x := run_invariant' hnext (sound_powerOn image store b) hrun
    cases a with
    | nwm operation argument r =>
      obtain ⟨t, ht⟩ := Option.isSome_iff_exists.1 henabled
      obtain ⟨hon, -⟩ := Option.ite_none_right_eq_some.1 ht
      simp only [Bool.and_eq_true, Bool.or_eq_true, beq_iff_eq] at hon
      obtain ⟨⟨hrunning, -⟩, rfl | rfl⟩ := hon
      · exact ⟨fun _ => trivial, fun _ => transactional_read argument r x⟩
      · exact transactional_write (System.running_iff.1 hrunning).1 hsound.inRange
    | _ => exact Iff.rfl
  · intro store b acts x hrun
    refine always_meets_iff (I := Sound image) hnext (fun x a t hsound hagrees ht => ?_)
      (sound_powerOn image store b) (fun h => (by cases h)) hrun
    exact keeps_iff hsound hagrees ht

end Runs

/-! ### A mode that comes back -/

/-- A build with both packages; the radio is the answer of its start function. -/
def bothImage : Image Bool where
  commandLorawan := true
  commandLora := true
  nvm := true
  maxCommands := 160
  maxExtensions := 4
  details _ := (none, 0)
  nvm_lorawan _ := rfl
  ztest := false
  longBits := 32
  api := ⟨some fun _ works => (if works then .ok () else .error .io, works), none, none⟩

def goodReplies : Replies := ⟨⟨.ok (), []⟩, .ok ()⟩

/-- The P2P mode is set. After the restart the radio does not start, and the stored mode cannot be
deleted. -/
def comeback : List (Act Bool) :=
  [.start .good, .nwm .write (ascii "0") goodReplies, .reset false, .start .good,
    .process ⟨.ok (), [some Settings.ioFault]⟩]

/-- AT+NWM=1 is answered with OK, and the next boot loads the P2P mode. -/
theorem nwm_forgets : ¬ ∀ (store : Store) (b : Bool) (acts : List (Act Bool)) (x : System Bool),
    run (step bothImage) (powerOn bothImage store b) acts = some x →
      ∀ a, (step bothImage x a).isSome = true → Transactional bothImage x a := by
  intro h
  have hend : (run (step bothImage) (powerOn bothImage (fun _ => []) true) comeback).any (fun x =>
      (step bothImage x (.nwm .write (ascii "1") goodReplies)).isSome &&
        decide (told (handleNwm bothImage .write (ascii "1") goodReplies x) = some (.ok .ok)) &&
        decide (bootMode bothImage (handleNwm bothImage .write (ascii "1") goodReplies x).2.store =
          .ok p2pLora) &&
        decide ((handleNwm bothImage .write (ascii "1") goodReplies x).2.mode = lorawan)) = true := by
    decide
  obtain ⟨x, hrun, hcheck⟩ := (Option.any_eq_true _ _).1 hend
  simp only [Bool.and_eq_true, decide_eq_true_eq] at hcheck
  obtain ⟨⟨⟨henabled, htold⟩, hboot⟩, hmode⟩ := hcheck
  have hbroken := h (fun _ => []) true comeback x hrun (.nwm .write (ascii "1") goodReplies) henabled
  obtain ⟨mode, -, hreported, hloaded⟩ := hbroken.ok htold
  have hp2p : p2pLora = mode := Except.ok.inj (hboot.symm.trans hloaded)
  have hlorawan : lorawan = mode := hmode.symm.trans hreported
  exact absurd (hp2p.trans hlorawan.symm) (by decide)

end Rzi.At.NetworkMode
