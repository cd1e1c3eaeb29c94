import Rzi.Fuota

/-!
# The FLASH lock and the end of a session

`set_state_locked` takes the FLASH power lock on the way into TRANSFERRING or APPLYING and gives it
back on the way out, so the lock follows the state (`LockFollowsState`). The state follows the session
less well: SESSION_ENDED leaves TRANSFERRING only while no image is ready. A second session over a
ready image that ends without a TRANSFER_DONE therefore leaves the service in TRANSFERRING, with the
lock held (`session_end_iff`).
-/

namespace Rzi.Fuota
open Lts

variable {b : Build} {s t : Sys} {a : Act}

/-! ### What a step does to the variables under the mutex -/

/-- The locked section of a step. -/
inductive SvcEffect (b : Build) (s : Sys) : Act → Service → Prop
  | none (a : Act) : SvcEffect b s a s.svc
  | started : SvcEffect b s .start { s.svc with started := true }
  | handled (e : Event) (ans : Answers) (hstarted : s.svc.started = true) :
      SvcEffect b s (.event e ans) (handleEvent b ans e s.svc).1
  | expected (size : UInt32) (hsize : size ≠ 0) : SvcEffect b s (.setExpectedSize size) { s.svc with
      expectedSize := size
      imageSize := if s.svc.imageReady ∧ s.svc.imageSize = 0 then size else s.svc.imageSize }
  | entered (tid : Tid) (power : Bool) (hready : s.svc.imageReady = true)
      (hsize : s.svc.imageSize ≠ 0) : SvcEffect b s (.enter tid power) (setState b power .applying s.svc).1
  | failed (tid : Tid) (power : Bool) (rc : Err) (hrc : s.appliers tid = .copyFailed rc) :
      SvcEffect b s (.writeBack tid power)
        (setState b power .complete { s.svc with lastError := some rc }).1

theorem return_svc (tid : Tid) : (s.return tid).svc = s.svc := by cases tid <;> rfl

theorem SvcEffect.of_eq (h : t.svc = s.svc) : SvcEffect b s a t.svc := by
  rw [h]
  exact .none a

theorem step_svcEffect (h : step b s a = some t) : SvcEffect b s a t.svc := by
  cases step_transition h with
  | started => exact .started
  | handled e ans htodo hstarted => exact .handled e ans hstarted
  | sized size hsize => exact .expected size hsize
  | entered tid power hpc =>
    unfold enterApply
    split_ifs with hready hsize
    · exact .of_eq (return_svc tid)
    · exact .of_eq (return_svc tid)
    · exact .entered tid power (Bool.of_not_eq_false hready) hsize
  | wroteBack tid power rc hpc =>
    have heffect := SvcEffect.failed (b := b) tid power rc hpc
    unfold writeBack
    dsimp only
    split_ifs
    · exact heffect
    · exact heffect
  | unsupported tid | restored tid | rebooted tid => exact .of_eq (return_svc tid)
  | _ => exact .none _

/-! ### The lock -/

/-- The states in which the service wants the FLASH lock. -/
def FState.wantsLock (st : FState) : Bool := st == .transferring || st == .applying

/-- The service holds the FLASH lock exactly while it transfers or applies. -/
def LockFollowsState (s : Sys) : Prop :=
  s.svc.powerFlashHeld = true ↔ s.svc.state = .transferring ∨ s.svc.state = .applying

theorem wantsLock_iff (st : FState) : st.wantsLock = true ↔ st = .transferring ∨ st = .applying := by
  simp [FState.wantsLock]

/-- The lock after a change of state, if it was right before. -/
theorem setState_held (hlock : b.powerLock = true) {svc : Service} (next : FState)
    (h : svc.powerFlashHeld = svc.state.wantsLock) :
    (setState b true next svc).1.powerFlashHeld = next.wantsLock := by
  unfold setState
  split
  · rename_i hsame
    rw [h, hsame]
  · simp only [hlock]
    change (if _ then _ else if (next.wantsLock && !svc.powerFlashHeld && true) = true then true else
      if (!next.wantsLock && svc.powerFlashHeld) = true then false else svc.powerFlashHeld) = _
    cases next.wantsLock <;> cases svc.powerFlashHeld <;> rfl

/-- Whatever the calls answer, the lock is not kept in a state that does not want it. -/
theorem setState_held_le {power : Bool} {svc : Service} (next : FState)
    (h : svc.powerFlashHeld = true → b.powerLock = true ∧ svc.state.wantsLock = true) :
    (setState b power next svc).1.powerFlashHeld = true →
      b.powerLock = true ∧ (setState b power next svc).1.state.wantsLock = true := by
  rw [setState_state]
  unfold setState
  split
  · rename_i hsame
    rw [← hsame]
    exact h
  · dsimp only
    change (if _ then _ else if (next.wantsLock && !svc.powerFlashHeld && power) = true then true else
      if (!next.wantsLock && svc.powerFlashHeld) = true then false else svc.powerFlashHeld) = true → _
    revert h
    cases b.powerLock <;> cases next.wantsLock <;> cases svc.powerFlashHeld <;> cases power <;> simp

/-- The state and the lock change in `set_state_locked` only. -/
inductive LockEffect (b : Build) (power : Bool) (svc : Service) : Service → Prop
  | kept (svc' : Service) (hstate : svc'.state = svc.state)
      (hheld : svc'.powerFlashHeld = svc.powerFlashHeld) : LockEffect b power svc svc'
  | set (next : FState) (svc' : Service) (hstate : svc'.state = svc.state)
      (hheld : svc'.powerFlashHeld = svc.powerFlashHeld) :
      LockEffect b power svc (setState b power next svc').1

theorem handleEvent_lockEffect (ans : Answers) (e : Event) (svc : Service) :
    LockEffect b ans.powerLockGet svc (handleEvent b ans e svc).1 := by
  cases e with
  | joined => exact .set .ready _ rfl rfl
  | joinFailed => exact .set .idle _ rfl rfl
  | stateChanged ready =>
    simp only [handleEvent]
    split_ifs
    · exact .set .idle _ rfl rfl
    · exact .kept _ rfl rfl
  | sessionStarted => exact .set .transferring _ rfl rfl
  | sessionEnded =>
    simp only [handleEvent]
    split_ifs
    · exact .set .ready _ rfl rfl
    · exact .kept _ rfl rfl
  | transferDone successful size =>
    cases successful with
    | false => exact .set .failed _ rfl rfl
    | true =>
      refine .set .complete _ ?_ ?_
      · cases detectImageSize b ans size svc <;> rfl
      · cases detectImageSize b ans size svc <;> rfl
  | _ => exact .kept _ rfl rfl

/-- The answer to the one lock call that a step can make. -/
def Act.power : Act → Bool
  | .event _ ans => ans.powerLockGet
  | .enter _ power | .writeBack _ power => power
  | _ => true

theorem SvcEffect.lockEffect {svc : Service} (h : SvcEffect b s a svc) :
    LockEffect b a.power s.svc svc := by
  cases h with
  | none => exact .kept _ rfl rfl
  | started => exact .kept _ rfl rfl
  | handled e ans _ => exact handleEvent_lockEffect ans e s.svc
  | expected size _ => exact .kept _ rfl rfl
  | entered tid power _ _ => exact .set .applying _ rfl rfl
  | failed tid power rc _ => exact .set .complete _ rfl rfl

/-- With automatic locks and every lock call granted, the lock follows the state. -/
theorem lockFollowsState_step (hlock : b.powerLock = true)
    (h : s.svc.powerFlashHeld = s.svc.state.wantsLock) (hpower : a.power = true)
    (ht : step b s a = some t) : t.svc.powerFlashHeld = t.svc.state.wantsLock := by
  have heffect := (step_svcEffect ht).lockEffect
  rw [hpower] at heffect
  generalize t.svc = svc at heffect ⊢
  cases heffect with
  | kept _ hstate hheld => rw [hstate, hheld, h]
  | set next svc' hstate hheld =>
    rw [setState_state]
    exact setState_held hlock next (by rw [hstate, hheld, h])

/-- Whatever the lock calls answer, a held lock is wanted. -/
theorem held_wanted_step
    (h : s.svc.powerFlashHeld = true → b.powerLock = true ∧ s.svc.state.wantsLock = true)
    (ht : step b s a = some t) :
    t.svc.powerFlashHeld = true → b.powerLock = true ∧ t.svc.state.wantsLock = true := by
  have heffect := (step_svcEffect ht).lockEffect
  generalize t.svc = svc at heffect ⊢
  cases heffect with
  | kept _ hstate hheld => rwa [hstate, hheld]
  | set next svc' hstate hheld =>
    refine setState_held_le next ?_
    rwa [hstate, hheld]

/-! ### The session -/

/-- Looking back, a SESSION_ENDED comes before any SESSION_STARTED. -/
def sessionOver : List Event → Bool
  | [] => false
  | .sessionEnded :: _ => true
  | .sessionStarted :: _ => false
  | _ :: history => sessionOver history

/-- No SESSION_ENDED is handled while an image is ready and the state is TRANSFERRING. -/
def NoEndOverImage (s : Sys) : Act → Prop
  | .event .sessionEnded _ =>
    ¬ (s.svc.started = true ∧ s.svc.state = .transferring ∧ s.svc.imageReady = true)
  | _ => True

/-- The step is the locked section in which `rzi_fuota_apply` makes its checks. -/
def Act.applies : Act → Bool
  | .enter _ _ => true
  | _ => false

/-- A session that is over leaves no transfer. -/
def EndsTransfer (s : Sys) : Prop := sessionOver s.history = true → s.svc.state ≠ .transferring

/-- The same, with the lock. -/
def EndsTransferUnlocked (s : Sys) : Prop :=
  sessionOver s.history = true → s.svc.state ≠ .transferring ∧ s.svc.powerFlashHeld = false

theorem step_event_cases {e : Event} {ans : Answers} (ht : step b s (.event e ans) = some t) :
    t = s ∨ s.svc.started = true ∧ t.history = e :: s.history ∧
      (t.svc.state, t.svc.imageReady) = eventState e (s.svc.state, s.svc.imageReady) := by
  cases step_transition ht with
  | ignored => exact .inl rfl
  | handled _ _ _ hstarted => exact .inr ⟨hstarted, rfl, handleEvent_state ans e s.svc⟩

theorem endsTransfer_handled {e : Event} {ans : Answers} (h : EndsTransfer s)
    (hG : NoEndOverImage s (.event e ans)) (hstarted : s.svc.started = true)
    (hhist : t.history = e :: s.history)
    (hstate : (t.svc.state, t.svc.imageReady) = eventState e (s.svc.state, s.svc.imageReady)) :
    EndsTransfer t := by
  have hst := congrArg Prod.fst hstate
  intro hover
  rw [hhist] at hover
  rw [show t.svc.state = (eventState e (s.svc.state, s.svc.imageReady)).1 from hst]
  cases e with
  | sessionStarted => cases hover
  | sessionEnded =>
    simp only [eventState]
    split_ifs with hready
    · exact fun h => (by cases h)
    · intro htransfer
      have hnot : s.svc.imageReady ≠ true := fun h => hG ⟨hstarted, htransfer, h⟩
      exact hready ⟨htransfer, Bool.eq_false_of_not_eq_true hnot⟩
  | joined | joinFailed => exact fun h => (by cases h)
  | transferDone successful size => cases successful <;> exact fun h => (by cases h)
  | stateChanged ready =>
    simp only [eventState]
    split_ifs
    · exact fun h => (by cases h)
    · exact h hover
  | clockSynced | rebootRequested | other => exact h hover

theorem endsTransfer_step (h : EndsTransfer s) (hG : NoEndOverImage s a) (ht : step b s a = some t) :
    EndsTransfer t := by
  have heffect := step_effect ht
  cases heffect with
  | quiet _ _ hs _ =>
    rw [EndsTransfer, hs.state, hs.history]
    exact h
  | moved _ _ _ _ hs _ _ =>
    rw [EndsTransfer, hs.state, hs.history]
    exact h
  | handled e ans _ _ _ _ =>
    rcases step_event_cases ht with rfl | ⟨hstarted, hhist, hstate⟩
    · exact h
    · exact endsTransfer_handled h hG hstarted hhist hstate
  | entered _ _ _ _ _ _ hstate _ _ _ _ =>
    intro _ htransfer
    rw [hstate] at htransfer
    cases htransfer
  | restored _ _ _ _ _ hstate _ _ _ _ =>
    intro _ htransfer
    rw [hstate] at htransfer
    cases htransfer

/-- A session that ends over a ready image stays in TRANSFERRING. -/
theorem endsTransfer_broken (hG : ¬ NoEndOverImage s a) (ht : step b s a = some t) :
    ¬ EndsTransfer t := by
  cases a with
  | event e ans =>
    cases e with
    | sessionEnded =>
      obtain ⟨hstarted, htransfer, hready⟩ := Classical.not_not.1 hG
      cases step_transition ht with
      | ignored _ _ _ hnot =>
        rw [hstarted] at hnot
        cases hnot
      | handled =>
        have hstate := congrArg Prod.fst (handleEvent_state (b := b) ans .sessionEnded s.svc)
        simp only [eventState, htransfer, hready, Bool.true_eq_false, and_false, if_false] at hstate
        exact fun h => h rfl hstate
    | _ => exact absurd trivial hG
  | _ => exact absurd trivial hG

theorem eventState_ne_applying {e : Event} {st : FState} {ready : Bool} (h : st ≠ .applying) :
    (eventState e (st, ready)).1 ≠ .applying := by
  rcases eventState_cases e (st, ready) with hx | hx | hx | hx | hx | hx <;> rw [hx]
  · exact h
  all_goals exact fun happlying => by cases happlying

/-- Only `rzi_fuota_apply` leads to APPLYING. -/
theorem not_applying_step (ha : a.applies = false) (h : s.svc.state ≠ .applying)
    (ht : step b s a = some t) : t.svc.state ≠ .applying := by
  have heffect := step_effect ht
  cases heffect with
  | quiet _ _ hs _ => rwa [hs.state]
  | moved _ _ _ _ hs _ _ => rwa [hs.state]
  | handled e ans _ hstate _ _ =>
    have hst : t.svc.state = (eventState e (s.svc.state, s.svc.imageReady)).1 := congrArg Prod.fst hstate
    rw [hst]
    exact eventState_ne_applying h
  | entered => cases ha
  | restored _ _ _ _ _ hstate _ _ _ _ =>
    rw [hstate]
    exact fun h => (by cases h)

/-- **Session end.** Along every run, a session that is over leaves the state TRANSFERRING exactly if no
SESSION_ENDED is handled while an image is ready in TRANSFERRING. With automatic locks and every lock
call granted, the service holds the FLASH lock exactly while it is TRANSFERRING or APPLYING; and if
nobody applies, an ended session holds no lock under that same condition. -/
theorem session_end_iff (b : Build) (as : List Act) (hr : run (step b) Sys.init as = some t) :
    (Always (step b) EndsTransfer Sys.init as ↔ Meets (step b) NoEndOverImage Sys.init as) ∧
    (b.powerLock = true → Meets (step b) (fun _ a => a.power = true) Sys.init as →
      Always (step b) LockFollowsState Sys.init as ∧
      ((∀ a ∈ as, a.applies = false) →
        (Always (step b) EndsTransferUnlocked Sys.init as ↔
          Meets (step b) NoEndOverImage Sys.init as))) := by
  have hiff : Always (step b) EndsTransfer Sys.init as ↔ Meets (step b) NoEndOverImage Sys.init as :=
    always_iff_meets (fun _ h => h) (fun _ _ _ h hG ht => endsTransfer_step h hG ht)
      (fun _ _ _ _ hG ht => endsTransfer_broken hG ht) (fun h => by cases h) hr
  refine ⟨hiff, fun hlock hpower => ?_⟩
  have hfollows : Always (step b) LockFollowsState Sys.init as :=
    always_of_invariant (I := fun s => s.svc.powerFlashHeld = s.svc.state.wantsLock)
      (fun s h => by rw [LockFollowsState, h, wantsLock_iff])
      (fun _ _ _ h hpower ht => lockFollowsState_step hlock h hpower ht) rfl hpower
  refine ⟨hfollows, fun hnone => ?_⟩
  have hidle : Always (step b) (fun s => s.svc.state ≠ .applying) Sys.init as :=
    always_of_invariant (G := fun _ a => a.applies = false) (fun _ h => h)
      (fun _ _ _ h ha ht => not_applying_step ha h ht)
      (fun h => (by cases h)) (.of_forall fun a ha _ => hnone a ha)
  rw [← hiff]
  refine always_congr fun pre u hpre hu => ?_
  -- neither TRANSFERRING nor APPLYING, so the lock is not held
  have hheld := hfollows pre u hpre hu
  have hnot := hidle pre u hpre hu
  refine ⟨fun h hover => (h hover).1, fun h hover => ⟨h hover, ?_⟩⟩
  refine Bool.eq_false_of_not_eq_true fun htrue => ?_
  rcases hheld.1 htrue with htransfer | happlying
  · exact h hover htransfer
  · exact hnot happlying

/-- A session that ends with nothing transferred. -/
def emptySession : List Act :=
  [.start, .event .sessionStarted goodAnswers, .dispatch, .dispatch, .event .sessionEnded goodAnswers]

theorem session_end_empty : Always (step fullBuild) EndsTransferUnlocked Sys.init emptySession := by
  obtain ⟨-, hlocked⟩ := session_end_iff fullBuild emptySession rfl
  refine ((hlocked rfl (by decide)).2 (by decide)).2 ?_
  exact .cons rfl trivial <| .cons rfl trivial <| .cons rfl trivial <| .cons rfl trivial <|
    .cons rfl (fun h => Bool.false_ne_true h.2.2) trivial

/-- A second session over a ready image ends: the state stays TRANSFERRING and the lock is held. -/
theorem session_over_image_unended : ¬ ∀ (b : Build) (as : List Act), b.powerLock = true →
    Meets (step b) (fun _ a => a.power = true) Sys.init as → (∀ a ∈ as, a.applies = false) →
    Always (step b) EndsTransferUnlocked Sys.init as := by
  intro h
  have hover := h fullBuild (firstTransfer ++
    [.event .sessionStarted goodAnswers, .dispatch, .dispatch, .event .sessionEnded goodAnswers])
    rfl (by decide) (by decide) _ _ (List.prefix_refl _) rfl rfl
  exact hover.1 rfl

end Rzi.Fuota
