import Rzi.Fuota

/-!
# The image that is ready is the last one transferred

`image_ready` is set by a successful TRANSFER_DONE and cleared by JOINED, JOIN_FAILED, READY and a
failed TRANSFER_DONE, but not by SESSION_STARTED. A second session therefore overwrites an image that
the service still offers, unless no session starts while an image is ready or an installation has
still to read it.
-/

namespace Rzi.Fuota
open Lts

def Event.completes : Event → Bool
  | .transferDone true _ => true
  | _ => false

def Event.supersedes : Event → Bool
  | .sessionStarted | .joined | .joinFailed | .stateChanged true => true
  | _ => false

/-- Looking back, a successful TRANSFER_DONE comes before any event of the kind `ends`. -/
def completedSince (ends : Event → Bool) : List Event → Bool
  | [] => false
  | e :: history => e.completes || (!ends e && completedSince ends history)

/-- The last successful TRANSFER_DONE is later than the last SESSION_STARTED, JOINED, JOIN_FAILED and
READY. -/
def imageCurrent (history : List Event) : Bool := completedSince Event.supersedes history

def noNewerSession (history : List Event) : Bool := completedSince (· == .sessionStarted) history

/-- The step reads the image: an API read past its checks, or an iteration of the copy. -/
def ReadsImage (b : Build) (s : Sys) : Act → Prop
  | .readImage _ size => size ≠ 0 ∧ s.svc.imageReady = true ∧ b.hasReadImage = true
  | .copyChunk tid _ _ => ∃ offset remaining, s.appliers tid = .copying offset remaining
  | _ => False

/-- No session starts while an image is ready or an installation has still to read it. -/
def NoSessionOverImage (s : Sys) : Act → Prop
  | .event .sessionStarted _ => s.svc.imageReady = false ∧ ∀ tid, (s.appliers tid).active = false
  | _ => True

/-- A ready image is the last one transferred, and only such an image is read. -/
def ImageStaysCurrent (b : Build) (as : List Act) : Prop :=
  Always (step b) (fun s => s.svc.imageReady = true → imageCurrent s.history = true) .init as ∧
    Meets (step b) (fun s a => ReadsImage b s a → noNewerSession s.history = true) .init as

structure ReadyInv (s : Sys) : Prop where
  idle : s.svc.state = .idle → s.svc.imageReady = false
  current : s.svc.imageReady = true → imageCurrent s.history = true
  reading : ∀ tid, (s.appliers tid).active = true → noNewerSession s.history = true

variable {b : Build} {s t : Sys} {a : Act}

theorem noNewerSession_of_imageCurrent {history : List Event} (h : imageCurrent history = true) :
    noNewerSession history = true := by
  induction history with
  | nil => exact h
  | cons e history ih =>
    simp only [imageCurrent, noNewerSession, completedSince, Bool.or_eq_true, Bool.and_eq_true,
      Bool.not_eq_true'] at h ih ⊢
    refine h.imp_right fun ⟨hs, hrest⟩ => ⟨?_, ih hrest⟩
    cases e <;> first | rfl | cases hs

theorem readyInv_init : ReadyInv Sys.init where
  idle _ := rfl
  current h := by cases h
  reading _ h := by cases h

/-- An event that leaves an image ready keeps it current, unless it is a new session. -/
theorem imageCurrent_cons {e : Event} {history : List Event} {st st' : FState} {ready : Bool}
    (he : eventState e (st, ready) = (st', true)) (hidle : st = .idle → ready = false)
    (hses : e ≠ .sessionStarted) (h : ready = true → imageCurrent history = true) :
    imageCurrent (e :: history) = true := by
  have hkept : ready = true → e.supersedes = false → imageCurrent (e :: history) = true := by
    intro hr hs
    simp only [imageCurrent, completedSince, hs, Bool.not_false, Bool.true_and, Bool.or_eq_true]
    exact .inr (h hr)
  cases e with
  | joined | joinFailed => cases he
  | sessionStarted => exact absurd rfl hses
  | stateChanged r =>
    simp only [eventState] at he
    split_ifs at he with hr
    · cases he
    · cases he
      cases r
      · exact hkept rfl rfl
      · exact absurd (hidle (by simpa using hr)) (by simp)
  | sessionEnded =>
    simp only [eventState] at he
    split_ifs at he with hr
    · cases he
      cases hr.2
    · cases he
      exact hkept rfl rfl
  | transferDone successful size =>
    cases successful
    · cases he
    · rfl
  | clockSynced | rebootRequested | other =>
    cases he
    exact hkept rfl rfl

theorem idle_of_eventState {e : Event} {st : FState} {ready ready' : Bool}
    (he : eventState e (st, ready) = (.idle, ready')) (h : st = .idle → ready = false) :
    ready' = false := by
  rcases eventState_cases e (st, ready) with hx | hx | hx | hx | hx | hx <;> rw [hx] at he <;> cases he
  · exact h rfl
  · rfl

theorem noNewerSession_cons {e : Event} {history : List Event} (he : e ≠ .sessionStarted)
    (h : noNewerSession history = true) : noNewerSession (e :: history) = true := by
  simp only [noNewerSession, completedSince, Bool.or_eq_true, Bool.and_eq_true, Bool.not_eq_true',
    beq_eq_false_iff_ne] at h ⊢
  exact .inr ⟨he, h⟩

namespace ReadyInv

theorem handled (h : ReadyInv s) {e : Event} {ans : Answers} (hG : NoSessionOverImage s (.event e ans))
    (hstate : (t.svc.state, t.svc.imageReady) = eventState e (s.svc.state, s.svc.imageReady))
    (hhist : t.history = e :: s.history) (happ : t.appliers = s.appliers) : ReadyInv t := by
  by_cases hses : e = .sessionStarted
  · subst hses
    obtain ⟨hready, hactive⟩ := hG
    obtain ⟨hst, hr⟩ := Prod.mk.inj hstate
    rw [hready] at hr
    constructor
    · intro _
      exact hr
    · intro hr'
      rw [hr] at hr'
      cases hr'
    · intro tid hact
      rw [happ, hactive tid] at hact
      cases hact
  constructor
  · intro hidle
    rw [hidle] at hstate
    exact idle_of_eventState hstate.symm h.idle
  · intro hready
    rw [hready] at hstate
    rw [hhist]
    exact imageCurrent_cons hstate.symm h.idle hses h.current
  · intro tid hact
    rw [happ] at hact
    rw [hhist]
    exact noNewerSession_cons hses (h.reading tid hact)

theorem moved (h : ReadyInv s) {tid : Tid} {pc : Applier} (hs : Same s t)
    (happ : t.appliers = Function.update s.appliers tid pc)
    (hpc : pc.active = true ∨ pc.failing = true → (s.appliers tid).active = true) : ReadyInv t := by
  constructor
  · rw [hs.state, hs.ready]; exact h.idle
  · rw [hs.ready, hs.history]; exact h.current
  · intro tid' hact
    rw [happ] at hact
    rw [hs.history]
    by_cases htid : tid' = tid
    · subst htid
      rw [Function.update_self] at hact
      exact h.reading _ (hpc (.inl hact))
    · rw [Function.update_of_ne htid] at hact
      exact h.reading tid' hact

theorem step (h : ReadyInv s) (hG : NoSessionOverImage s a) (he : Effect s a t) : ReadyInv t := by
  cases he with
  | quiet _ _ hs happ =>
    constructor
    · rw [hs.state, hs.ready]; exact h.idle
    · rw [hs.ready, hs.history]; exact h.current
    · rw [happ, hs.history]; exact h.reading
  | handled e ans _ hstate hhist happ => exact h.handled hG hstate hhist happ
  | moved _ _ tid pc hs happ hpc => exact h.moved hs happ hpc
  | entered tid power _ pc hready hsize hstate hready' hhist happ hpc =>
    constructor
    · intro hidle
      rw [hidle] at hstate
      cases hstate
    · rw [hhist]
      exact fun _ => h.current hready
    · intro tid' _
      rw [hhist]
      exact noNewerSession_of_imageCurrent (h.current hready)
  | restored tid power _ pc hfail hstate hready hhist happ hpc =>
    constructor
    · intro hidle
      rw [hidle] at hstate
      cases hstate
    · rw [hready, hhist]
      exact h.current
    · intro tid' hact
      rw [happ] at hact
      rw [hhist]
      by_cases htid : tid' = tid
      · subst htid
        rw [Function.update_self, hpc.1] at hact
        cases hact
      · rw [Function.update_of_ne htid] at hact
        exact h.reading tid' hact

theorem reads (h : ReadyInv s) (hr : ReadsImage b s a) : noNewerSession s.history = true := by
  cases a with
  | readImage offset size => exact noNewerSession_of_imageCurrent (h.current hr.2.1)
  | copyChunk tid read write =>
    obtain ⟨offset, remaining, hpc⟩ := hr
    exact h.reading tid (by rw [hpc]; rfl)
  | _ => exact hr.elim

end ReadyInv

/-- In every run in which no session starts over an image, a ready image is the last one transferred
and nothing else is read. -/
theorem image_stays_current (b : Build) (as : List Act)
    (hG : Meets (step b) NoSessionOverImage .init as) : ImageStaysCurrent b as :=
  ⟨always_of_invariant (fun _ h => h.current) (fun _ _ _ h hG ht => h.step hG (step_effect ht))
    readyInv_init hG,
   .of_invariant (fun _ _ h _ hr => h.reads hr) (fun _ _ _ h hG ht => h.step hG (step_effect ht))
    readyInv_init hG⟩

/-- A second session starts: the first image stays ready while it is being overwritten. -/
theorem image_superseded : ¬ ∀ (b : Build) (as : List Act), ImageStaysCurrent b as := by
  intro h
  obtain ⟨halways, -⟩ := h fullBuild (firstTransfer ++ [.event .sessionStarted goodAnswers])
  have hcurrent := halways _ _ (List.prefix_refl _) rfl rfl
  cases hcurrent

theorem image_stays_current_first :
    (run (step fullBuild) .init (firstTransfer ++ [.readImage 0 16])).isSome = true ∧
      ImageStaysCurrent fullBuild (firstTransfer ++ [.readImage 0 16]) := by
  refine ⟨rfl, image_stays_current fullBuild _ ?_⟩
  -- the session starts before there is an image, and no thread installs one
  exact .cons rfl trivial <| .cons rfl ⟨rfl, fun _ => rfl⟩ <| .cons rfl trivial <|
    .cons rfl trivial <| .cons rfl trivial <| .cons rfl trivial <| .cons rfl trivial <|
    .cons rfl trivial trivial

end Rzi.Fuota
