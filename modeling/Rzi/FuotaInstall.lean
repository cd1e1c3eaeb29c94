import Rzi.Fuota

/-!
# Installing an image

`rzi_fuota_apply` copies the image without the mutex and tests neither the state nor whether another
thread is copying. Two callers can copy at once, and an event handled meanwhile moves the state away
from APPLYING (`InstallsAlone` is what keeps both from happening). A copy that fails writes COMPLETE
back whatever the events in between did to the image, which is the only way to a state COMPLETE
without an image (`status_consistent_iff`).
-/

namespace Rzi.Fuota
open Lts

def Applier.isCopying : Applier → Bool
  | .copying _ _ => true
  | _ => false

/-- From the checks of `rzi_fuota_apply` to the return of its copy, or to the write-back after a
failed one. -/
def Applier.installing (pc : Applier) : Bool := pc.active || pc.failing

/-- At most one copy is in progress, and the state is APPLYING while one is. -/
structure SingleInstaller (s : Sys) : Prop where
  unique : ∀ t₁ t₂, (s.appliers t₁).isCopying = true → (s.appliers t₂).isCopying = true → t₁ = t₂
  applying : ∀ tid, (s.appliers tid).isCopying = true → s.svc.state = .applying

/-- The events that set a state other than APPLYING whatever the state is. -/
def Event.setsState : Event → Bool
  | .joined | .joinFailed | .stateChanged true | .sessionStarted | .transferDone _ _ => true
  | _ => false

/-- No apply passes its checks while another installs, and no event that sets the state is handled
before a copy has returned. -/
def InstallsAlone (s : Sys) : Act → Prop
  | .enter _ _ => s.svc.imageReady = true → s.svc.imageSize ≠ 0 →
      ∀ tid, (s.appliers tid).installing = false
  | .event e _ => e.setsState = true → ∀ tid, (s.appliers tid).active = false
  | _ => True

structure InstallInv (s : Sys) : Prop where
  unique : ∀ t₁ t₂, (s.appliers t₁).installing = true → (s.appliers t₂).installing = true → t₁ = t₂
  applying : ∀ tid, (s.appliers tid).active = true → s.svc.state = .applying

variable {b : Build} {s t : Sys} {a : Act}

theorem Applier.active_of_isCopying {pc : Applier} (h : pc.isCopying = true) : pc.active = true := by
  cases pc <;> first | rfl | cases h

theorem Applier.installing_of_active {pc : Applier} (h : pc.active = true) :
    pc.installing = true := by
  simp [Applier.installing, h]

theorem installInv_init : InstallInv Sys.init where
  unique _ _ h := by cases h
  applying _ h := by cases h

theorem InstallInv.single (h : InstallInv s) : SingleInstaller s where
  unique t₁ t₂ h₁ h₂ := h.unique t₁ t₂
    (Applier.installing_of_active (Applier.active_of_isCopying h₁))
    (Applier.installing_of_active (Applier.active_of_isCopying h₂))
  applying tid hc := h.applying tid (Applier.active_of_isCopying hc)

theorem eventState_applying {e : Event} {ready : Bool} (h : e.setsState = false) :
    (eventState e (.applying, ready)).1 = .applying := by
  cases e with
  | stateChanged r => cases r <;> first | rfl | cases h
  | joined | joinFailed | sessionStarted | transferDone _ _ => cases h
  | _ => rfl

namespace InstallInv

theorem handled (h : InstallInv s) {e : Event} {ans : Answers} (hG : InstallsAlone s (.event e ans))
    (hstate : (t.svc.state, t.svc.imageReady) = eventState e (s.svc.state, s.svc.imageReady))
    (happ : t.appliers = s.appliers) : InstallInv t := by
  constructor
  · rw [happ]
    exact h.unique
  · intro tid hact
    rw [happ] at hact
    have he : e.setsState = false := by
      cases he : e.setsState
      · rfl
      · rw [hG he tid] at hact
        cases hact
    have hst : t.svc.state = (eventState e (s.svc.state, s.svc.imageReady)).1 :=
      congrArg Prod.fst hstate
    rw [hst, h.applying tid hact]
    exact eventState_applying he

theorem unique_update (h : InstallInv s) {tid : Tid} {pc : Applier}
    (hpc : pc.installing = true → (s.appliers tid).installing = true) (t₁ t₂ : Tid)
    (h₁ : (Function.update s.appliers tid pc t₁).installing = true)
    (h₂ : (Function.update s.appliers tid pc t₂).installing = true) : t₁ = t₂ := by
  have hback : ∀ u, (Function.update s.appliers tid pc u).installing = true →
      (s.appliers u).installing = true := by
    intro u hu
    by_cases htid : u = tid
    · subst htid
      rw [Function.update_self] at hu
      exact hpc hu
    · rwa [Function.update_of_ne htid] at hu
  exact h.unique t₁ t₂ (hback t₁ h₁) (hback t₂ h₂)

theorem moved (h : InstallInv s) {tid : Tid} {pc : Applier} (hs : Same s t)
    (happ : t.appliers = Function.update s.appliers tid pc)
    (hpc : pc.active = true ∨ pc.failing = true → (s.appliers tid).active = true) :
    InstallInv t := by
  constructor
  · rw [happ]
    refine h.unique_update fun hi => Applier.installing_of_active (hpc ?_)
    simpa [Applier.installing] using hi
  · intro tid' hact
    rw [happ] at hact
    rw [hs.state]
    by_cases htid : tid' = tid
    · subst htid
      rw [Function.update_self] at hact
      exact h.applying _ (hpc (.inl hact))
    · rw [Function.update_of_ne htid] at hact
      exact h.applying tid' hact

theorem entered {tid : Tid} {pc : Applier} (hnone : ∀ u, (s.appliers u).installing = false)
    (hstate : t.svc.state = .applying) (happ : t.appliers = Function.update s.appliers tid pc) :
    InstallInv t := by
  have honly : ∀ u, (t.appliers u).installing = true → u = tid := by
    intro u hu
    by_contra htid
    rw [happ, Function.update_of_ne htid, hnone u] at hu
    cases hu
  exact ⟨fun t₁ t₂ h₁ h₂ => (honly t₁ h₁).trans (honly t₂ h₂).symm, fun _ _ => hstate⟩

theorem restored (h : InstallInv s) {tid : Tid} {pc : Applier}
    (hfail : (s.appliers tid).failing = true)
    (happ : t.appliers = Function.update s.appliers tid pc)
    (hpc : pc.active = false ∧ pc.failing = false) : InstallInv t := by
  have hidle : pc.installing = false := by simp [Applier.installing, hpc]
  have hinst : (s.appliers tid).installing = true := by simp [Applier.installing, hfail]
  constructor
  · rw [happ]
    refine h.unique_update fun hi => ?_
    rw [hidle] at hi
    cases hi
  · intro u hact
    rw [happ] at hact
    by_cases htid : u = tid
    · subst htid
      rw [Function.update_self, hpc.1] at hact
      cases hact
    · rw [Function.update_of_ne htid] at hact
      exact absurd (h.unique u tid (Applier.installing_of_active hact) hinst) htid

theorem step (h : InstallInv s) (hG : InstallsAlone s a) (he : Effect s a t) : InstallInv t := by
  cases he with
  | quiet _ _ hs happ =>
    constructor
    · rw [happ]; exact h.unique
    · rw [happ, hs.state]; exact h.applying
  | handled e ans _ hstate _ happ => exact h.handled hG hstate happ
  | moved _ _ tid pc hs happ hpc => exact h.moved hs happ hpc
  | entered tid power _ pc hready hsize hstate _ _ happ _ =>
    exact .entered (hG hready hsize) hstate happ
  | restored tid power _ pc hfail _ _ _ happ hpc => exact h.restored hfail happ hpc

end InstallInv

/-- In every run in which an installation is left alone, at most one copy is in progress and the
state is APPLYING until it returns. -/
theorem single_installer (b : Build) (as : List Act)
    (hG : Meets (step b) InstallsAlone .init as) : Always (step b) SingleInstaller .init as :=
  always_of_invariant (fun _ h => h.single) (fun _ _ _ h hG ht => h.step hG (step_effect ht))
    installInv_init hG

/-- Two application threads install the first image at the same time. -/
theorem two_installers : ¬ ∀ (b : Build) (as : List Act),
    Always (step b) SingleInstaller .init as := by
  intro h
  have hsingle := h fullBuild (firstTransfer ++
    [.call 0, .enter (.app 0) true, .announced (.app 0), .beginCopy (.app 0) none, .call 1,
      .enter (.app 1) true, .beginCopy (.app 1) none]) _ _ (List.prefix_refl _) rfl
  have heq := hsingle.unique (.app 0) (.app 1) rfl rfl
  cases heq

def firstInstall : List Act :=
  [.call 0, .enter (.app 0) true, .announced (.app 0), .beginCopy (.app 0) none,
    .copyChunk (.app 0) (.ok ()) none, .copyChunk (.app 0) (.ok ()) none,
    .requestUpgrade (.app 0) none, .reboot (.app 0)]

theorem single_installer_first :
    (run (step fullBuild) .init (firstTransfer ++ firstInstall)).isSome = true ∧
      Always (step fullBuild) SingleInstaller .init (firstTransfer ++ firstInstall) := by
  refine ⟨rfl, single_installer fullBuild _ ?_⟩
  -- both events come before the installation, and one thread installs
  exact .cons rfl trivial <| .cons rfl (fun _ _ => rfl) <| .cons rfl trivial <| .cons rfl trivial <|
    .cons rfl (fun _ _ => rfl) <| .cons rfl trivial <| .cons rfl trivial <| .cons rfl trivial <|
    .cons rfl (fun _ _ => by rintro (_ | _ | n) <;> rfl) <| .cons rfl trivial <|
    .cons rfl trivial <| .cons rfl trivial <| .cons rfl trivial <| .cons rfl trivial <|
    .cons rfl trivial trivial

/-! ### The status snapshot -/

/-- A snapshot with state COMPLETE has an image. -/
def StatusConsistent (s : Sys) : Prop :=
  (getStatus s).1 = .complete → (getStatus s).2.1 = true

/-- A failed copy writes the state back only while its image is still ready. -/
def RestoresWithImage (s : Sys) : Act → Prop
  | .writeBack _ _ => s.svc.imageReady = true
  | _ => True

theorem complete_of_eventState {e : Event} {st : FState} {ready ready' : Bool}
    (he : eventState e (st, ready) = (.complete, ready')) (h : st = .complete → ready = true) :
    ready' = true := by
  rcases eventState_cases e (st, ready) with hx | hx | hx | hx | hx | hx <;> rw [hx] at he <;> cases he
  · exact h rfl
  · rfl

theorem writeBack_state {tid : Tid} {power : Bool} (h : step b s (.writeBack tid power) = some t) :
    t.svc.state = .complete ∧ t.svc.imageReady = s.svc.imageReady := by
  cases step_transition h with
  | wroteBack =>
    unfold writeBack
    dsimp only
    split_ifs <;> simp

theorem StatusConsistent.step (h : StatusConsistent s) (hG : RestoresWithImage s a)
    (he : Effect s a t) : StatusConsistent t := by
  cases he with
  | quiet _ _ hs _ =>
    simp only [StatusConsistent, getStatus, hs.state, hs.ready]
    exact h
  | handled e ans _ hstate _ _ =>
    intro hc
    change t.svc.state = .complete at hc
    rw [hc] at hstate
    exact complete_of_eventState hstate.symm h
  | moved _ _ _ _ hs _ _ =>
    simp only [StatusConsistent, getStatus, hs.state, hs.ready]
    exact h
  | entered _ _ _ _ _ _ _ hready _ _ _ => exact fun _ => hready
  | restored tid power _ _ _ _ hready _ _ _ =>
    intro _
    exact hready.trans hG

/-- In every run, every snapshot with state COMPLETE has an image exactly when every write-back
after a failed copy finds its image still ready. -/
theorem status_consistent_iff (b : Build) (as : List Act) (t : Sys)
    (hr : run (step b) .init as = some t) :
    Always (step b) StatusConsistent .init as ↔ Meets (step b) RestoresWithImage .init as := by
  refine always_iff_meets (I := StatusConsistent) (fun _ h => h)
    (fun _ _ _ h hG ht => h.step hG (step_effect ht)) ?_ (fun h => by cases h) hr
  intro s a t _ hG ht hcons
  cases a with
  | writeBack tid power =>
    obtain ⟨hstate, hready⟩ := writeBack_state ht
    exact hG (hready.symm.trans (hcons hstate))
  | _ => exact hG trivial

/-- The device joins again during an installation, and the installation fails: COMPLETE is reported
without an image. -/
theorem complete_without_image : ¬ ∀ (b : Build) (as : List Act),
    Always (step b) StatusConsistent .init as := by
  intro h
  have hcons := h fullBuild (firstTransfer ++
    [.call 0, .enter (.app 0) true, .announced (.app 0), .beginCopy (.app 0) none,
      .event .joined goodAnswers, .copyChunk (.app 0) (.error .io) none,
      .writeBack (.app 0) true]) _ _ (List.prefix_refl _) rfl
  cases hcons rfl

theorem status_consistent_failed_install :
    Always (step fullBuild) StatusConsistent .init (firstTransfer ++
      [.call 0, .enter (.app 0) true, .announced (.app 0), .beginCopy (.app 0) none,
        .copyChunk (.app 0) (.error .io) none, .writeBack (.app 0) true]) := by
  refine (status_consistent_iff fullBuild _ _ rfl).2 ?_
  exact .cons rfl trivial <| .cons rfl trivial <| .cons rfl trivial <| .cons rfl trivial <|
    .cons rfl trivial <| .cons rfl trivial <| .cons rfl trivial <| .cons rfl trivial <|
    .cons rfl trivial <| .cons rfl trivial <| .cons rfl trivial <| .cons rfl trivial <|
    .cons rfl rfl trivial

end Rzi.Fuota
