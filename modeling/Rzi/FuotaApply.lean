import Mathlib.Data.List.Induction
import Rzi.FuotaInstall
import Rzi.FuotaSession

/-!
# What a failed apply leaves behind

`rzi_fuota_apply` changes the state to APPLYING and takes the FLASH lock with it. Of its returns after
that only the one after a failed copy changes the state back. Without an image manager, and after the
copy when the reboot operation is missing or fails, the call returns an error in APPLYING
(`apply_error_recovers`).
-/

namespace Rzi.Fuota
open Lts

/-- A step, with the answer of the backend's `reboot` if the step calls it. -/
structure Move where
  act : Act
  reboot : Except Err Unit

def Build.hasReboot (b : Build) : Bool := b.ops.any (·.reboot)

def moveStep (b : Build) (s : Sys) (m : Move) : Option Sys := step b s m.act

/-- The thread whose `rzi_fuota_apply` returns an error in the step. -/
def returnsError (b : Build) (s : Sys) (m : Move) : Option Tid :=
  match m.act with
  | .enter tid _ => if s.svc.imageReady = false ∨ s.svc.imageSize = 0 then some tid else none
  | .beginCopy tid _ => if b.imgManager = false then some tid else none
  | .writeBack tid power =>
    match s.appliers tid with
    | .copyFailed rc =>
      if (setState b power .complete { s.svc with lastError := some rc }).2 = [] then some tid else none
    | _ => none
  | .restored tid => some tid
  | .reboot tid =>
    if b.hasReboot = false then some tid
    else
      match m.reboot with
      | .error _ => some tid
      | .ok () => none
  | _ => none

/-- No other thread is in `rzi_fuota_apply`. -/
def Alone (s : Sys) (tid : Tid) : Prop := ∀ tid', tid' ≠ tid → s.appliers tid' = .idle

/-- A return with an error and without another apply leaves no APPLYING and no lock taken for it. -/
def Recovers (b : Build) (s : Sys) (m : Move) : Prop :=
  ∀ tid t, returnsError b s m = some tid → Alone s tid → moveStep b s m = some t →
    t.svc.state ≠ .applying ∧ (t.svc.powerFlashHeld = true → t.svc.state = .transferring)

/-- The thread that returns in the step past the change to APPLYING, and not through the change back. -/
def Act.leaves (b : Build) : Act → Option Tid
  | .beginCopy tid _ => if b.imgManager = false then some tid else none
  | .reboot tid => some tid
  | _ => none

/-- The events that take the state out of APPLYING. -/
def Event.leavesApplying : Event → Bool
  | .joined | .joinFailed | .sessionStarted | .transferDone _ _ => true
  | .stateChanged ready => ready
  | .sessionEnded | .clockSynced | .rebootRequested | .other => false

/-- The step handles such an event, or it is the change back after a failed copy. -/
def withdraws (s : Sys) (m : Move) : Bool :=
  match m.act with
  | .event e _ => s.svc.started && e.leavesApplying
  | .writeBack _ _ => true
  | _ => false

/-- The step is no call of `rzi_fuota_apply` that passes the checks. -/
def NotEntered (s : Sys) (m : Move) : Prop :=
  ∀ tid power, m.act = .enter tid power → s.svc.imageReady = false ∨ s.svc.imageSize = 0

/-- After the last call that passed the checks there was a step that took the state out of APPLYING. -/
def Withdrawn (b : Build) (pre : List Move) : Prop :=
  ∃ before m since s t, pre = before ++ m :: since ∧ run (moveStep b) Sys.init before = some s ∧
    withdraws s m = true ∧ moveStep b s m = some t ∧ Meets (moveStep b) NotEntered t since

/-- Where a call returns an error that way, with no other apply running, such a step came between. -/
def ErrorLeavesClear (b : Build) (ms : List Move) : Prop :=
  ∀ pre m tid s, pre ++ [m] <+: ms → run (moveStep b) Sys.init pre = some s →
    m.act.leaves b = some tid → returnsError b s m = some tid → Alone s tid → Withdrawn b pre

/-- No call returns that way in the state APPLYING while another announces the failure of its copy. -/
def AnnouncedLeavesClear (b : Build) (s : Sys) (m : Move) : Prop :=
  ∀ tid tid', m.act.leaves b = some tid → s.appliers tid' = .restoring → s.svc.state ≠ .applying

/-- Between the change to APPLYING and the change back. -/
def Applier.holds : Applier → Bool
  | .announcing | .entered | .copying _ _ | .copyFailed _ | .copied => true
  | _ => false

variable {b : Build} {s t : Sys} {a : Act} {m : Move} {ms : List Move} {tid : Tid}

/-! ### What a step does to the appliers -/

inductive ApplierEffect (b : Build) (s : Sys) (a : Act) (t : Sys) : Prop
  | kept (happ : t.appliers = s.appliers) (hstate : t.svc.state = .applying → s.svc.state = .applying)
  | moved (tid : Tid) (pc : Applier) (happ : t.appliers = Function.update s.appliers tid pc)
      (hpc : pc.holds = true)
  | passed (tid : Tid) (pc : Applier) (happ : t.appliers = Function.update s.appliers tid pc)
      (hbefore : (s.appliers tid).holds = false) (hpc : pc ≠ .restoring) (hsvc : t.svc = s.svc)
  | completed (hstate : t.svc.state = .complete)
  | left (tid : Tid) (hleaves : a.leaves b = some tid)
      (happ : t.appliers = Function.update s.appliers tid .idle) (hsvc : t.svc = s.svc)

theorem ApplierEffect.same (happ : t.appliers = s.appliers) (hsvc : t.svc.state = s.svc.state) :
    ApplierEffect b s a t := .kept happ fun h => hsvc ▸ h

theorem step_applierEffect (h : step b s a = some t) : ApplierEffect b s a t := by
  cases step_transition h with
  | notStarted | started | ignored | submitted | observed | sizeRefused | sized | read =>
    exact .same rfl rfl
  | handled e ans htodo hstarted =>
    refine .kept rfl fun happlying => ?_
    by_contra hne
    have hstate := congrArg Prod.fst (handleEvent_state (b := b) ans e s.svc)
    exact eventState_ne_applying hne (hstate.symm.trans happlying)
  | called n hpc => exact .passed (.app n) .called rfl (by rw [hpc]; rfl) (by simp) rfl
  | taken work hpc hwork => exact .passed .work .called rfl (by rw [hpc]; rfl) (by simp) rfl
  | entered tid power hpc =>
    have hbefore : (s.appliers tid).holds = false := by rw [hpc]; rfl
    unfold enterApply
    split_ifs with hready hsize
    · exact .passed tid .idle (return_appliers tid) hbefore (by simp) (return_svc tid)
    · exact .passed tid .idle (return_appliers tid) hbefore (by simp) (return_svc tid)
    · dsimp only
      split_ifs
      · exact .moved tid .entered rfl rfl
      · exact .moved tid .announcing rfl rfl
  | announced tid hpc => exact .moved tid .entered rfl rfl
  | unsupported tid initRc hpc himg =>
    exact .left tid (if_pos himg) (return_appliers tid) (return_svc tid)
  | beginFailed tid | begun tid | chunkFailed tid | chunkCopied tid | upgradeFailed tid | upgraded tid =>
    exact .moved tid _ rfl rfl
  | wroteBack tid power rc hpc => exact .completed (writeBack_state h).1
  | restored tid hpc =>
    exact .passed tid .idle (return_appliers tid) (by rw [hpc]; rfl) (by simp) (return_svc tid)
  | rebooted tid hpc => exact .left tid rfl (return_appliers tid) (return_svc tid)

/-! ### Leaving APPLYING -/

theorem leavesApplying_state {e : Event} (he : e.leavesApplying = true) (x : FState × Bool) :
    (eventState e x).1 ≠ .applying := by
  cases e with
  | stateChanged ready =>
    simp only [Event.leavesApplying] at he
    simp only [eventState, he, true_and]
    split_ifs with hidle
    · simp
    · rw [not_not.1 hidle]
      simp
  | transferDone successful size => cases successful <;> simp [eventState]
  | joined | joinFailed | sessionStarted => simp [eventState]
  | sessionEnded | clockSynced | rebootRequested | other => cases he

theorem withdraws_state (hm : withdraws s m = true) (ht : moveStep b s m = some t) :
    t.svc.state ≠ .applying := by
  obtain ⟨a, rc⟩ := m
  cases a with
  | event e ans =>
    obtain ⟨hstarted, he⟩ := Bool.and_eq_true_iff.1 hm
    cases step_transition ht with
    | ignored _ _ _ hnot =>
      rw [hstarted] at hnot
      cases hnot
    | handled =>
      have hstate := congrArg Prod.fst (handleEvent_state (b := b) ans e s.svc)
      exact fun happlying => leavesApplying_state he _ (hstate.symm.trans happlying)
  | writeBack tid power =>
    rw [(writeBack_state ht).1]
    exact fun h => (by cases h)
  | _ => cases hm

theorem notEntered_state (hm : NotEntered s m) (h : s.svc.state ≠ .applying)
    (ht : moveStep b s m = some t) : t.svc.state ≠ .applying := by
  obtain ⟨a, rc⟩ := m
  cases a with
  | enter tid power =>
    cases step_transition ht with
    | entered =>
      unfold enterApply
      split_ifs with hready hsize
      · rwa [return_svc]
      · rwa [return_svc]
      · exact absurd (hm tid power rfl) (not_or.2 ⟨hready, hsize⟩)
  | _ => exact not_applying_step rfl h ht

/-- Only such a step takes the state out of APPLYING. -/
theorem withdraws_of_left (h : s.svc.state = .applying) (ht : moveStep b s m = some t)
    (hleft : t.svc.state ≠ .applying) : withdraws s m = true := by
  have heffect := step_svcEffect ht
  obtain ⟨a, rc⟩ := m
  generalize t.svc = svc at heffect hleft
  cases heffect with
  | none | started | expected => exact absurd h hleft
  | entered tid power => exact absurd (setState_state power .applying s.svc) hleft
  | failed tid power => rfl
  | handled e ans hstarted =>
    have hstate := congrArg Prod.fst (handleEvent_state (b := b) ans e s.svc)
    rw [h] at hstate
    refine Bool.and_eq_true_iff.2 ⟨hstarted, ?_⟩
    cases e with
    | stateChanged ready =>
      cases ready with
      | false => exact absurd hstate hleft
      | true => rfl
    | sessionEnded | clockSynced | rebootRequested | other => exact absurd hstate hleft
    | _ => rfl

theorem notEntered_of_state (ht : moveStep b s m = some t) (hstate : t.svc.state ≠ .applying) :
    NotEntered s m := by
  obtain ⟨a, rc⟩ := m
  rintro tid power rfl
  cases step_transition ht with
  | entered =>
    unfold enterApply at hstate
    split_ifs at hstate with hready hsize
    · exact .inl hready
    · exact .inr hsize
    · exact absurd (setState_state power .applying s.svc) hstate

/-- A thread past the checks was there before, unless the state is APPLYING now. -/
theorem holds_step (ht : step b s a = some t) (hholds : (t.appliers tid).holds = true) :
    (s.appliers tid).holds = true ∨ t.svc.state = .applying := by
  have hmoved : ∀ other pc, t.appliers = Function.update s.appliers other pc →
      ((s.appliers other).holds = true ∨ pc.holds = false) → (s.appliers tid).holds = true := by
    intro other pc happ hpc
    rw [happ] at hholds
    by_cases htid : tid = other
    · subst htid
      rw [Function.update_self] at hholds
      exact hpc.resolve_right (by rw [hholds]; simp)
    · rwa [Function.update_of_ne htid] at hholds
  cases step_transition ht with
  | entered other power hpc =>
    unfold enterApply at hmoved ⊢
    split_ifs at hmoved ⊢ with hready hsize
    · exact .inl (hmoved other .idle (return_appliers other) (.inr rfl))
    · exact .inl (hmoved other .idle (return_appliers other) (.inr rfl))
    · exact .inr (setState_state power .applying s.svc)
  | wroteBack other power rc hpc =>
    unfold writeBack at hmoved
    dsimp only at hmoved
    split_ifs at hmoved
    · exact .inl (hmoved other .idle (return_appliers other) (.inr rfl))
    · exact .inl (hmoved other .restoring rfl (.inr rfl))
  | called n | taken => exact .inl (hmoved _ .called rfl (.inr rfl))
  | unsupported other | restored other | rebooted other =>
    exact .inl (hmoved other .idle (return_appliers other) (.inr rfl))
  | announced other hpc | beginFailed other _ _ hpc | begun other hpc | chunkFailed other _ _ _ _ _ hpc
    | chunkCopied other _ _ hpc | upgradeFailed other _ _ hpc | upgraded other _ hpc =>
    exact .inl (hmoved other _ rfl (.inl (by rw [hpc]; rfl)))
  | _ => exact .inl hholds

theorem leaves_holds (hleaves : a.leaves b = some tid) (ht : step b s a = some t) :
    (s.appliers tid).holds = true := by
  have hbegin : ∀ other initRc, (Act.beginCopy other initRc).leaves b = some tid → other = tid := by
    intro other initRc h
    simp only [Act.leaves] at h
    split_ifs at h
    exact Option.some.inj h
  cases step_transition ht with
  | rebooted other hpc =>
    cases hleaves
    rw [hpc]
    rfl
  | unsupported other initRc hpc | beginFailed other initRc _ hpc | begun other hpc =>
    rw [← hbegin _ _ hleaves, hpc]
    rfl
  | _ => cases hleaves

theorem Withdrawn.state (h : Withdrawn b ms) (hr : run (moveStep b) Sys.init ms = some s) :
    s.svc.state ≠ .applying := by
  obtain ⟨before, m, since, r, t, rfl, hrun, hm, hstep, hsince⟩ := h
  obtain ⟨r', hrun', hrest⟩ := run_append_eq_some.1 hr
  cases hrun.symm.trans hrun'
  obtain ⟨t', hstep', hrest⟩ := run_cons_eq_some.1 hrest
  cases hstep.symm.trans hstep'
  exact run_invariant (I := fun s => s.svc.state ≠ .applying)
    (fun _ _ _ h hG ht => notEntered_state hG h ht) (withdraws_state hm hstep) hsince hrest

/-- Where a thread is past the checks and the state is not APPLYING, it has been taken out of it. -/
theorem withdrawn_of_state (hr : run (moveStep b) Sys.init ms = some s)
    (hholds : (s.appliers tid).holds = true) (hstate : s.svc.state ≠ .applying) : Withdrawn b ms := by
  induction ms using List.reverseRecOn generalizing s with
  | nil =>
    cases hr
    cases hholds
  | append_singleton ms m ih =>
    obtain ⟨r, hrun, hstep⟩ := run_concat_eq_some.1 hr
    by_cases happlying : r.svc.state = .applying
    · exact ⟨ms, m, [], r, s, rfl, hrun, withdraws_of_left happlying hstep hstate, hstep, trivial⟩
    · obtain ⟨before, m', since, u, v, rfl, hbefore, hm', hstep', hsince⟩ :=
        ih hrun ((holds_step hstep hholds).resolve_right hstate) happlying
      obtain ⟨u', hbefore', hrest⟩ := run_append_eq_some.1 hrun
      cases hbefore.symm.trans hbefore'
      obtain ⟨v', hstep'', hrest⟩ := run_cons_eq_some.1 hrest
      cases hstep'.symm.trans hstep''
      exact ⟨before, m', since ++ [m], u, v, by simp, hbefore, hm', hstep',
        hsince.concat hrest (notEntered_of_state hstep hstate)⟩

/-! ### Runs -/

/-- In APPLYING there is an image with a size; a held lock is wanted; and while a thread announces the
failure of its copy, APPLYING is due to another one. -/
structure ApplyInv (b : Build) (s : Sys) : Prop where
  ready : s.svc.state = .applying → s.svc.imageReady = true ∧ s.svc.imageSize ≠ 0
  lock : s.svc.powerFlashHeld = true → b.powerLock = true ∧ s.svc.state.wantsLock = true
  holder : ∀ tid, s.appliers tid = .restoring → s.svc.state = .applying →
    ∃ tid', (s.appliers tid').holds = true

theorem applyInv_init : ApplyInv b Sys.init where
  ready h := by cases h
  lock h := by cases h
  holder _ h := by cases h

theorem setState_image (power : Bool) (next : FState) (svc : Service) :
    (setState b power next svc).1.imageReady = svc.imageReady ∧
      (setState b power next svc).1.imageSize = svc.imageSize := by
  unfold setState
  split
  · exact ⟨rfl, rfl⟩
  · exact ⟨rfl, rfl⟩

/-- An event that ends in APPLYING was ignored. -/
theorem handleEvent_applying {ans : Answers} {e : Event} {svc : Service}
    (h : (handleEvent b ans e svc).1.state = .applying) : (handleEvent b ans e svc).1 = svc := by
  have hset {power : Bool} {next : FState} {svc' : Service}
      (hnext : next ≠ .applying) : (setState b power next svc').1.state ≠ .applying := by
    rw [setState_state]
    exact hnext
  cases e with
  | joined => exact absurd h (hset (by simp))
  | joinFailed => exact absurd h (hset (by simp))
  | sessionStarted => exact absurd h (hset (by simp))
  | stateChanged ready =>
    simp only [handleEvent] at h ⊢
    split_ifs at h ⊢
    · exact absurd h (hset (by simp))
    · rfl
  | sessionEnded =>
    simp only [handleEvent] at h ⊢
    split_ifs at h ⊢
    · exact absurd h (hset (by simp))
    · rfl
  | transferDone successful size =>
    cases successful with
    | false => exact absurd h (hset (by simp))
    | true => exact absurd h (hset (by simp))
  | clockSynced | rebootRequested | other => rfl

theorem ready_step (h : s.svc.state = .applying → s.svc.imageReady = true ∧ s.svc.imageSize ≠ 0)
    (ht : step b s a = some t) :
    t.svc.state = .applying → t.svc.imageReady = true ∧ t.svc.imageSize ≠ 0 := by
  have heffect := step_svcEffect ht
  generalize t.svc = svc at heffect ⊢
  cases heffect with
  | none => exact h
  | started => exact h
  | handled e ans _ =>
    intro happlying
    have hsame := handleEvent_applying happlying
    rw [hsame] at happlying ⊢
    exact h happlying
  | expected size hsize =>
    intro happlying
    obtain ⟨hready, hzero⟩ := h happlying
    exact ⟨hready, by rwa [if_neg fun hand => hzero hand.2]⟩
  | entered tid power hready hsize =>
    obtain ⟨hready', hsize'⟩ := setState_image (b := b) power .applying s.svc
    intro _
    exact ⟨hready'.trans hready, hsize' ▸ hsize⟩
  | failed tid power rc _ =>
    rw [setState_state]
    exact fun h => (by cases h)

theorem holder_step (h : ApplyInv b s) (hG : AnnouncedLeavesClear b s m)
    (ht : moveStep b s m = some t) :
    ∀ tid, t.appliers tid = .restoring → t.svc.state = .applying →
      ∃ tid', (t.appliers tid').holds = true := by
  intro tid hrestoring happlying
  cases step_applierEffect ht with
  | kept happ hstate =>
    rw [happ] at hrestoring ⊢
    exact h.holder tid hrestoring (hstate happlying)
  | moved other pc happ hpc =>
    refine ⟨other, ?_⟩
    rwa [happ, Function.update_self]
  | completed hstate =>
    rw [hstate] at happlying
    cases happlying
  | passed other pc happ hbefore hpc hsvc =>
    rw [hsvc] at happlying
    rw [happ] at hrestoring
    have hne : tid ≠ other := by
      rintro rfl
      rw [Function.update_self] at hrestoring
      exact hpc hrestoring
    rw [Function.update_of_ne hne] at hrestoring
    obtain ⟨tid', hholds⟩ := h.holder tid hrestoring happlying
    refine ⟨tid', ?_⟩
    have hne' : tid' ≠ other := by
      rintro rfl
      rw [hbefore] at hholds
      cases hholds
    rwa [happ, Function.update_of_ne hne']
  | left other hleaves happ hsvc =>
    rw [hsvc] at happlying
    rw [happ] at hrestoring
    have hne : tid ≠ other := by
      rintro rfl
      rw [Function.update_self] at hrestoring
      cases hrestoring
    rw [Function.update_of_ne hne] at hrestoring
    exact absurd happlying (hG other tid hleaves hrestoring)

theorem applyInv_step (h : ApplyInv b s) (hG : AnnouncedLeavesClear b s m)
    (ht : moveStep b s m = some t) : ApplyInv b t where
  ready := ready_step h.ready ht
  lock := held_wanted_step h.lock ht
  holder := holder_step h hG ht

/-- A return that leaves the state as it is recovers if that is not APPLYING. -/
theorem recovered_of_ne (hlock : t.svc.powerFlashHeld = true → b.powerLock = true ∧
    t.svc.state.wantsLock = true) (hne : t.svc.state ≠ .applying) :
    t.svc.state ≠ .applying ∧ (t.svc.powerFlashHeld = true → t.svc.state = .transferring) := by
  refine ⟨hne, fun hheld => ?_⟩
  rcases (wantsLock_iff _).1 (hlock hheld).2 with htransfer | happlying
  · exact htransfer
  · exact absurd happlying hne

/-- A thread that leaves past the change to APPLYING leaves the variables as they are. -/
theorem leaves_svc (hleaves : a.leaves b = some tid) (ht : step b s a = some t) : t.svc = s.svc := by
  cases step_transition ht with
  | unsupported other | rebooted other => exact return_svc other
  | beginFailed other initRc rc hpc himg =>
    simp only [Act.leaves, himg, Bool.true_eq_false, if_false] at hleaves
    cases hleaves
  | begun other hpc himg hread =>
    simp only [Act.leaves, himg, Bool.true_eq_false, if_false] at hleaves
    cases hleaves
  | _ => cases hleaves

/-- The checks of `rzi_fuota_apply` do not fail in APPLYING. -/
theorem enter_returns_ne (h : ApplyInv b s) {power : Bool} (ht : step b s (.enter tid power) = some t)
    (hret : s.svc.imageReady = false ∨ s.svc.imageSize = 0) : t.svc.state ≠ .applying := by
  have hsvc : t.svc = s.svc := by
    cases step_transition ht with
    | entered =>
      unfold enterApply
      split_ifs with hready hsize
      · exact return_svc tid
      · exact return_svc tid
      · rcases hret with hnot | hzero
        · exact absurd hnot hready
        · exact absurd hzero hsize
  rw [hsvc]
  intro happlying
  obtain ⟨hready, hsize⟩ := h.ready happlying
  rcases hret with hnot | hzero
  · rw [hready] at hnot
    cases hnot
  · exact hsize hzero

/-- A thread that has announced its failure finds APPLYING only if another one is in there. -/
theorem restored_returns_ne (h : ApplyInv b s) (halone : Alone s tid)
    (ht : step b s (.restored tid) = some t) : t.svc.state ≠ .applying := by
  cases step_transition ht with
  | restored _ hrestoring =>
    rw [show (Sys.return s tid).svc = s.svc from return_svc tid]
    intro happlying
    obtain ⟨tid', hholds⟩ := h.holder tid hrestoring happlying
    by_cases htid : tid' = tid
    · rw [htid, hrestoring] at hholds
      cases hholds
    · rw [halone tid' htid] at hholds
      cases hholds

/-- No call returns an error past the change to APPLYING, alone, while the state is APPLYING. -/
def LeavesClear (b : Build) (s : Sys) (m : Move) : Prop :=
  ∀ tid, m.act.leaves b = some tid → returnsError b s m = some tid → Alone s tid →
    s.svc.state ≠ .applying

theorem ApplyInv.recovers (h : ApplyInv b s) (herror : LeavesClear b s m)
    (hannounced : AnnouncedLeavesClear b s m) : Recovers b s m := by
  intro tid t hret halone ht
  refine recovered_of_ne (held_wanted_step h.lock ht) ?_
  obtain ⟨a, rc⟩ := m
  cases a with
  | enter other power =>
    simp only [returnsError] at hret
    split_ifs at hret with hcheck
    cases hret
    exact enter_returns_ne h ht hcheck
  | beginCopy other initRc =>
    have hleaves : (Act.beginCopy other initRc).leaves b = some tid := hret
    rw [leaves_svc hleaves ht]
    exact herror tid hleaves hret halone
  | writeBack other power =>
    rw [(writeBack_state ht).1]
    exact fun h => (by cases h)
  | restored other =>
    cases hret
    exact restored_returns_ne h halone ht
  | reboot other =>
    have hleaves : (Act.reboot other).leaves b = some tid := by
      simp only [returnsError] at hret
      split at hret
      · exact hret
      · split at hret
        · exact hret
        · cases hret
    rw [leaves_svc hleaves ht]
    exact herror tid hleaves hret halone
  | _ => cases hret

/-- A return that leaves APPLYING does not recover. -/
theorem Recovers.clear (h : Recovers b s m) (ht : moveStep b s m = some t) : LeavesClear b s m := by
  intro tid hleaves hret halone happlying
  refine (h tid t hret halone ht).1 ?_
  rw [leaves_svc hleaves ht]
  exact happlying

/-- The state is not APPLYING where a step has taken it out since the last call passed the checks, and
nowhere else that a call can return from. -/
theorem errorLeavesClear_iff (hr : run (moveStep b) Sys.init ms = some t) :
    ErrorLeavesClear b ms ↔ Meets (moveStep b) (LeavesClear b) Sys.init ms := by
  rw [meets_iff_each]
  constructor
  · intro h pre m s hpre hs tid hleaves hret halone
    exact (h pre m tid s hpre hs hleaves hret halone).state hs
  · intro h pre m tid s hpre hs hleaves hret halone
    obtain ⟨post, rfl⟩ := hpre
    obtain ⟨u, hu, -⟩ := run_append_eq_some.1 hr
    obtain ⟨s', hs', hstep⟩ := run_concat_eq_some.1 hu
    cases hs.symm.trans hs'
    exact withdrawn_of_state hs (leaves_holds hleaves hstep)
      (h pre m s (List.prefix_append _ _) hs tid hleaves hret halone)

/-- **Failed applies.** Along every run, a call that returns an error with no other apply running leaves
neither APPLYING nor a lock taken for it, if before every call that returns an error and alone, for lack
of an image manager or after its copy, an event has taken the state out of APPLYING since the last call
passed the checks (or a failed copy of another call has), and no call returns in that way in APPLYING
while another announces the failure of its copy. The first of these is also necessary. -/
theorem apply_error_recovers (b : Build) (ms : List Move) (hr : run (moveStep b) Sys.init ms = some t) :
    (ErrorLeavesClear b ms →
      Meets (moveStep b) (AnnouncedLeavesClear b) Sys.init ms →
      Meets (moveStep b) (Recovers b) Sys.init ms) ∧
    (Meets (moveStep b) (Recovers b) Sys.init ms → ErrorLeavesClear b ms) := by
  rw [errorLeavesClear_iff hr]
  refine ⟨fun herror hannounced => ?_, fun h => h.mono_run (fun _ _ _ ht h => h.clear ht) hr⟩
  exact .of_invariant (fun _ _ h hG => h.recovers hG.1 hG.2)
    (fun _ _ _ h hG ht => applyInv_step h hG.2 ht) applyInv_init (meets_and.2 ⟨herror, hannounced⟩)

def acts (as : List Act) : List Move := as.map fun a => ⟨a, .ok ()⟩

/-- An image of 512 bytes, and a thread that starts to copy it. -/
def beginMoves : List Move :=
  acts (firstTransfer ++ [.call 0, .enter (.app 0) true, .announced (.app 0), .beginCopy (.app 0) none])

/-- A copy that fails is announced, and its call returns. -/
def failedMoves : List Move :=
  beginMoves ++ acts [.copyChunk (.app 0) (.error .io) none, .writeBack (.app 0) true,
    .restored (.app 0)]

/-- A second call copies the image, and a failed join takes the state out of APPLYING before it reboots. -/
def leftMoves : List Move :=
  failedMoves ++ acts [.call 0, .enter (.app 0) true, .announced (.app 0), .beginCopy (.app 0) none,
    .copyChunk (.app 0) (.ok ()) none, .copyChunk (.app 0) (.ok ()) none,
    .requestUpgrade (.app 0) none, .event .joinFailed goodAnswers, .dispatch]

theorem apply_error_recovers_left : Meets (moveStep fullBuild) (Recovers fullBuild) Sys.init
    (leftMoves ++ [⟨.reboot (.app 0), .error .io⟩]) := by
  have hnone : ∀ m ∈ leftMoves, m.act.leaves fullBuild = none := by decide
  -- only the last step returns in the way that the conditions are about
  have hlast : ∀ pre m tid, pre ++ [m] <+: leftMoves ++ [⟨.reboot (.app 0), .error .io⟩] →
      m.act.leaves fullBuild = some tid → pre = leftMoves := by
    intro pre m tid hpre hleaves
    rcases List.prefix_concat_iff.1 hpre with heq | hin
    · exact (List.append_inj' heq rfl).1
    · rw [hnone m (hin.subset (by simp))] at hleaves
      cases hleaves
  refine (apply_error_recovers fullBuild _ rfl).1 (fun pre m tid s hpre _ hleaves _ _ => ?_)
    (meets_iff_each.2 fun pre m s hpre hs tid tid' hleaves hrestoring => ?_)
  · rw [hlast pre m tid hpre hleaves]
    refine ⟨leftMoves.take 21, ⟨.event .joinFailed goodAnswers, .ok ()⟩, acts [.dispatch], _, _, rfl, rfl,
      rfl, rfl, .of_forall fun m hm s tid power henter => ?_⟩
    rw [List.mem_singleton.1 hm] at henter
    cases henter
  · rw [hlast pre m tid hpre hleaves] at hs
    cases hs
    cases tid' with
    | work => cases hrestoring
    | app n => cases n <;> cases hrestoring

/-- The reboot after the copy fails: the call returns its error in APPLYING. -/
theorem apply_error_stuck : ¬ ∀ (b : Build) (ms : List Move) (t : Sys),
    run (moveStep b) Sys.init ms = some t → Meets (moveStep b) (Recovers b) Sys.init ms := by
  intro h
  have hlast := (h fullBuild (beginMoves ++ acts [.copyChunk (.app 0) (.ok ()) none,
    .copyChunk (.app 0) (.ok ()) none, .requestUpgrade (.app 0) none] ++
      [⟨.reboot (.app 0), .error .io⟩]) _ rfl).last rfl
  refine (hlast (.app 0) _ rfl ?_ rfl).1 rfl
  intro tid' hne
  cases tid' with
  | work => rfl
  | app n =>
    cases n with
    | zero => exact absurd rfl hne
    | succ n => rfl

end Rzi.Fuota
