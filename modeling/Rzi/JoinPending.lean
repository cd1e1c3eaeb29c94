import Rzi.ZephyrBackend

/-!
# Who clears `join_pending`

While `join_pending` is set, joins and sends are refused, so some later step has to clear it: the
join work item waits to run, or its handler runs and has its second locked section ahead
(`Covered`). A leave that lands between that section and the handler's return cancels the retry the
handler has just scheduled and is told that the item is busy, so it leaves the flag for a handler
that no longer looks at it; on a kernel that refuses submissions during a cancellation, a join
accepted there is lost in the same way. Between them these steps are the only ones that orphan the
flag.
-/

namespace Rzi.Zephyr
open WorkQueue Lts

/-- A set `join_pending` has someone to clear it. -/
def Covered (s : State) : Prop :=
  s.joinPending = true → s.joinWork.Waiting ∨ s.worker.joinOpen = true

/-- The thread is in `join_work_handler`, past its last locked section. -/
def Worker.joinClosing : Worker → Bool
  | .joinPublish _ | .joinReturn => true
  | _ => false

/-- While the handler is past its last locked section, no leave finds a pending join and no join is
accepted that the kernel would refuse to schedule. -/
def Undisturbed (rejects : Bool) (s : State) (a : Act) : Prop :=
  s.worker.joinClosing = true →
    (a = .leave → s.joinPending = false) ∧
    (AcceptedJoin s a → ¬ (rejects = true ∧ s.joinWork.canceling = true))

/-- The join's variables, work item and handler between two steps. -/
structure PendingInv (rejects : Bool) (s : State) : Prop where
  unstarted : s.started = false → s.joinPending = false ∧ s.joinWork = .idle ∧ s.worker.inJoin = false
  once : s.joinWork.Once
  running : s.joinWork.running = s.worker.inJoin
  canceling : s.joinWork.canceling = true → s.joinWork.running = true
  refused : rejects = true → s.joinWork.canceling = true → ¬ s.joinWork.Waiting
  waiting : s.joinWork.Waiting → s.joinPending = true
  opened : s.worker.joinOpen = true → s.joinPending = true ∧ ¬ s.joinWork.Waiting
  stopped : s.worker.joinOpen = true → s.joinWork.canceling = true → s.joinStop = true
  covered : Covered s

variable {rejects : Bool} {s t : State} {a : Act}

theorem pendingInv_init (rejects : Bool) : PendingInv rejects init where
  unstarted _ := ⟨rfl, rfl, rfl⟩
  once := Item.once_idle
  running := rfl
  canceling h := by cases h
  refused _ h := by cases h
  waiting h := absurd h Item.not_waiting_idle
  opened h := by cases h
  stopped h := by cases h
  covered h := by cases h

theorem Worker.joinOpen_or_joinClosing {w : Worker} (h : w.inJoin = true) :
    w.joinOpen = true ∨ w.joinClosing = true := by
  cases w <;> first | exact .inl rfl | exact .inr rfl | cases h

theorem Worker.inJoin_of_joinClosing {w : Worker} (h : w.joinClosing = true) : w.inJoin = true := by
  cases w <;> first | rfl | cases h

theorem Worker.joinOpen_of_joinClosing {w : Worker} (h : w.joinClosing = true) :
    w.joinOpen = false := by
  cases w <;> first | rfl | cases h

namespace PendingInv

theorem not_canceling (h : PendingInv rejects s) (hw : s.worker.inJoin = false) :
    s.joinWork.canceling = false := by
  cases hc : s.joinWork.canceling
  · rfl
  · have hrun := h.canceling hc
    rw [h.running, hw] at hrun
    cases hrun

/-- The invariant reads the join's variables and how far the handler is. -/
theorem congr (h : PendingInv rejects s) (hs : t.started = s.started)
    (hp : t.joinPending = s.joinPending) (hst : t.joinStop = s.joinStop)
    (hw : t.joinWork = s.joinWork) (hin : t.worker.inJoin = s.worker.inJoin)
    (hopen : t.worker.joinOpen = s.worker.joinOpen) : PendingInv rejects t := by
  constructor
  · rw [hs, hp, hw, hin]; exact h.unstarted
  · rw [hw]; exact h.once
  · rw [hw, hin]; exact h.running
  · rw [hw]; exact h.canceling
  · rw [hw]; exact h.refused
  · rw [hw, hp]; exact h.waiting
  · rw [hopen, hp, hw]; exact h.opened
  · rw [hopen, hw, hst]; exact h.stopped
  · rw [Covered, hp, hw, hopen]; exact h.covered

theorem frame (h : PendingInv rejects s) (hf : Frame s t) : PendingInv rejects t := by
  refine h.congr hf.started hf.pending hf.stop hf.work ?_ ?_
  · exact hf.worker_eq fun _ hw => hw
  · exact hf.worker_eq fun _ hw => Worker.joinOpen_eq_false hw

theorem started (h : PendingInv rejects s) (hp : s.joinPending = true) : s.started = true := by
  cases hs : s.started
  · rw [(h.unstarted hs).1] at hp
    cases hp
  · rfl

theorem initialised (hp : s.joinPending = false) (hin : s.worker.inJoin = false) {region : Region} :
    PendingInv rejects { s with
      currentRegion := region, joinWork := .idle, sendWork := .idle, started := true
      joined := false, readyDue := true } where
  unstarted h := by cases h
  once := Item.once_idle
  running := hin.symm
  canceling h := by cases h
  refused _ h := by cases h
  waiting h := absurd h Item.not_waiting_idle
  opened h := by rw [Worker.joinOpen_eq_false hin] at h; cases h
  stopped h := by rw [Worker.joinOpen_eq_false hin] at h; cases h
  covered h := by rw [show s.joinPending = true from h] at hp; cases hp

theorem accepted (h : PendingInv rejects s) {config : JoinConfig} (hs : s.started = true)
    (hp : s.joinPending = false)
    (hG : s.worker.joinClosing = true → ¬ (rejects = true ∧ s.joinWork.canceling = true)) :
    PendingInv rejects { s with
      joinSettings := config, joinPending := true, joinStop := false
      joinWork := s.joinWork.schedule rejects true } := by
  have hopen : s.worker.joinOpen = false := by
    cases ho : s.worker.joinOpen
    · rfl
    · rw [(h.opened ho).1] at hp
      cases hp
  -- the kernel takes the item: a cancellation is under way only while the handler closes
  have htakes : ¬ (rejects = true ∧ s.joinWork.canceling = true) := by
    rintro ⟨hr, hc⟩
    have hin := h.canceling hc
    rw [h.running] at hin
    rcases Worker.joinOpen_or_joinClosing hin with ho | hcl
    · rw [hopen] at ho
      cases ho
    · exact hG hcl ⟨hr, hc⟩
  constructor
  · intro hs'
    rw [show s.started = false from hs'] at hs
    cases hs
  · exact h.once.schedule
  · simpa using h.running
  · simpa using h.canceling
  · intro hr hc
    exact absurd ⟨hr, by simpa using hc⟩ htakes
  · exact fun _ => rfl
  · exact fun ho => by rw [hopen] at ho; cases ho
  · exact fun ho => by rw [hopen] at ho; cases ho
  · exact fun _ => .inl (Item.waiting_schedule htakes)

theorem left (h : PendingInv rejects s) (hp : s.joinPending = true)
    (hG : s.worker.joinClosing = false) : PendingInv rejects { s with
      joinStop := true, joinWork := s.joinWork.cancel, joinPending := s.joinWork.cancelBusy } := by
  have hbusy : s.joinWork.cancelBusy = true → s.joinWork.running = true := by
    intro hb
    rcases Bool.or_eq_true _ _ ▸ hb with hr | hc
    · exact hr
    · exact h.canceling hc
  constructor
  · intro hs
    rw [h.started hp] at hs
    cases hs
  · exact Item.once_cancel
  · exact h.running
  · exact hbusy
  · exact fun _ _ => Item.not_waiting_cancel
  · exact fun hw => absurd hw Item.not_waiting_cancel
  · intro ho
    have hrun : s.joinWork.running = true := by rw [h.running, Worker.inJoin_of_joinOpen ho]
    exact ⟨by simp [Item.cancelBusy, hrun], Item.not_waiting_cancel⟩
  · exact fun _ _ => rfl
  · intro hb
    have hin := hbusy hb
    rw [h.running] at hin
    rcases Worker.joinOpen_or_joinClosing hin with ho | hcl
    · exact .inr ho
    · rw [hG] at hcl
      cases hcl

theorem expired (h : PendingInv rejects s) {w : Item} (hw : s.joinWork.expire = some w) :
    PendingInv rejects { s with joinWork := w } := by
  obtain ⟨hwait, hwait', honce, hrun, hc⟩ := Item.expire_spec hw
  have hp := h.waiting hwait
  constructor
  · intro hs
    rw [h.started hp] at hs
    cases hs
  · exact honce
  · exact hrun.trans h.running
  · exact fun hc' => hrun.trans (h.canceling (hc ▸ hc'))
  · exact fun hr hc' => absurd hwait (h.refused hr (hc ▸ hc'))
  · exact fun _ => hp
  · exact fun ho => absurd hwait (h.opened ho).2
  · exact fun ho => absurd hwait (h.opened ho).2
  · exact fun _ => .inl hwait'

theorem taken (h : PendingInv rejects s) {w : Item} (hi : s.worker = .idle)
    (hw : s.joinWork.start = some w) :
    PendingInv rejects { s with joinWork := w, worker := .joinEntry } := by
  obtain ⟨hwait, hwait', honce, hrun, hc⟩ := Item.start_spec h.once hw
  have hp := h.waiting hwait
  have hcan : w.canceling = false := by
    rw [hc]
    exact h.not_canceling (by rw [hi]; rfl)
  constructor
  · intro hs
    rw [h.started hp] at hs
    cases hs
  · exact honce
  · exact hrun
  · exact fun _ => hrun
  · exact fun _ _ => hwait'
  · exact fun hw' => absurd hw' hwait'
  · exact fun _ => ⟨hp, hwait'⟩
  · intro _ hc'
    rw [show w.canceling = true from hc'] at hcan
    cases hcan
  · exact fun _ => .inr rfl

theorem cleared (h : PendingInv rejects s) (ho : s.worker.joinOpen = true) {w : Worker} {j : Bool}
    (hw : w.joinClosing = true) :
    PendingInv rejects { s with joined := j, joinPending := false, worker := w } := by
  obtain ⟨hp, hwait⟩ := h.opened ho
  constructor
  · intro hs
    rw [h.started hp] at hs
    cases hs
  · exact h.once
  · rw [h.running, Worker.inJoin_of_joinOpen ho, Worker.inJoin_of_joinClosing hw]
  · exact h.canceling
  · exact h.refused
  · exact fun hw' => absurd hw' hwait
  · exact fun ho' => by rw [Worker.joinOpen_of_joinClosing hw] at ho'; cases ho'
  · exact fun ho' => by rw [Worker.joinOpen_of_joinClosing hw] at ho'; cases ho'
  · exact fun hp' => by cases hp'

theorem rescheduled (h : PendingInv rejects s) (ho : s.worker.joinOpen = true)
    (hst : s.joinStop = false) {w : Worker} {j noWait : Bool} (hw : w.joinClosing = true) :
    PendingInv rejects { s with
      joined := j, joinWork := s.joinWork.schedule rejects noWait, worker := w } := by
  obtain ⟨hp, -⟩ := h.opened ho
  have hcan : s.joinWork.canceling = false := by
    cases hc : s.joinWork.canceling
    · rfl
    · rw [h.stopped ho hc] at hst
      cases hst
  have htakes : ¬ (rejects = true ∧ s.joinWork.canceling = true) := by simp [hcan]
  constructor
  · intro hs
    rw [h.started hp] at hs
    cases hs
  · exact h.once.schedule
  · rw [Item.schedule_running, h.running, Worker.inJoin_of_joinOpen ho,
      Worker.inJoin_of_joinClosing hw]
  · simpa using h.canceling
  · exact fun hr hc => absurd ⟨hr, by simpa using hc⟩ htakes
  · exact fun _ => hp
  · exact fun ho' => by rw [Worker.joinOpen_of_joinClosing hw] at ho'; cases ho'
  · exact fun ho' => by rw [Worker.joinOpen_of_joinClosing hw] at ho'; cases ho'
  · exact fun _ => .inl (Item.waiting_schedule htakes)

theorem ended (h : PendingInv rejects s) {rc : Option Errno} (hw : s.worker = .joinEnded rc) :
    PendingInv rejects (joinHandlerEnded rejects rc s) := by
  have ho : s.worker.joinOpen = true := by rw [hw]; rfl
  rcases rc with _ | e
  · rw [joinHandlerEnded_success]
    exact h.cleared ho rfl
  cases hst : s.joinStop
  · rw [joinHandlerEnded_retry hst]
    exact h.rescheduled ho hst rfl
  · rw [joinHandlerEnded_stopped hst]
    exact h.cleared ho rfl

theorem finished (h : PendingInv rejects s) (hw : s.worker = .joinReturn) :
    PendingInv rejects { s with joinWork := s.joinWork.finish, worker := .idle } := by
  constructor
  · intro hs
    have := (h.unstarted hs).2.2
    rw [hw] at this
    cases this
  · exact h.once
  · rfl
  · exact fun hc => by cases hc
  · exact fun _ hc => by cases hc
  · exact h.waiting
  · exact fun ho => by cases ho
  · exact fun ho => by cases ho
  · intro hp
    refine .inl ((h.covered hp).resolve_right ?_)
    rw [hw]
    exact Bool.false_ne_true

theorem step (h : PendingInv rejects s) (hG : Undisturbed rejects s a) (hj : JoinStep rejects s a t) :
    PendingInv rejects t := by
  cases hj with
  | other _ _ hf _ _ => exact h.frame hf
  | started a region hs _ _ =>
    obtain ⟨hp, -, hin⟩ := h.unstarted hs
    exact initialised hp hin
  | accepted config mib hs hp hj => exact h.accepted hs hp fun hcl => (hG hcl).2 hj
  | left hp =>
    refine h.left hp ?_
    cases hcl : s.worker.joinClosing
    · rfl
    · rw [(hG hcl).1 rfl] at hp
      cases hp
  | expired w hw => exact h.expired hw
  | taken w hi hw => exact h.taken hi hw
  | dropped hw _ => exact h.cleared (by rw [hw]; rfl) rfl
  | called config nonce hw _ => exact h.congr rfl rfl rfl rfl (by rw [hw]; rfl) (by rw [hw]; rfl)
  | returned config rc hw => exact h.congr rfl rfl rfl rfl (by rw [hw]; rfl) (by rw [hw]; rfl)
  | ended rc hw => exact h.ended hw
  | published rc hw => exact h.congr rfl rfl rfl rfl (by rw [hw]; rfl) (by rw [hw]; rfl)
  | finished hw => exact h.finished hw

/-- A leave or a join while the handler closes orphans the flag at once. -/
theorem not_covered (h : PendingInv rejects s) (hG : ¬ Undisturbed rejects s a)
    (hj : JoinStep rejects s a t) : ¬ Covered t := by
  simp only [Undisturbed, Classical.not_imp] at hG
  obtain ⟨hcl, hG⟩ := hG
  have hopen := Worker.joinOpen_of_joinClosing hcl
  have hrun : s.joinWork.running = true := by rw [h.running, Worker.inJoin_of_joinClosing hcl]
  intro hcov
  cases hj with
  | left hp =>
    rcases hcov (by simp [Item.cancelBusy, hrun]) with hw | ho
    · exact Item.not_waiting_cancel hw
    · exact absurd ho (by simp [hopen])
  | accepted config mib hs hp hj =>
    have hrefused : rejects = true ∧ s.joinWork.canceling = true := by
      simpa [hj] using hG
    obtain ⟨hr, hc⟩ := hrefused
    rcases hcov rfl with hw | ho
    · rw [Item.schedule_refused hr hc] at hw
      exact h.refused hr hc hw
    · exact absurd ho (by simp [hopen])
  | other _ _ _ hj hl => exact hG ⟨hl, fun ha => absurd ha hj⟩
  | started _ _ _ hj hl => exact hG ⟨fun ha => absurd ha hl, fun ha => absurd ha hj⟩
  | _ => exact hG ⟨(fun ha => by cases ha), False.elim⟩

end PendingInv

/-- In every run, `join_pending` is never orphaned exactly when no leave and no join disturbs a
closing handler. -/
theorem covered_iff_undisturbed (rejects : Bool) (as : List Act) (t : State)
    (hr : run (step rejects) init as = some t) :
    Always (step rejects) Covered init as ↔ Meets (step rejects) (Undisturbed rejects) init as :=
  always_iff_meets (fun _ h => h.covered) (fun _ _ _ h hG ht => h.step hG (step_joinStep ht))
    (fun _ _ _ h hG ht => h.not_covered hG (step_joinStep ht)) (pendingInv_init rejects) hr

/-- The backend is started and a first join attempt fails; its retry is scheduled and its event is
still to be published. -/
def firstAttemptFails : List Act :=
  [.start .eu868 true none none, .publishReady, .join otaaConfig fun _ => none, .takeJoin, .enter,
    .joinReturns (some .timedout), .relock]

/-- The attempt limit is reached: the service leaves before the worker has published the failure.
After the handler returns, `join_pending` is set and nothing will clear it. -/
theorem orphaned_after_leave : ¬ ∀ (rejects : Bool) (as : List Act) (t : State),
    run (step rejects) init as = some t → Covered t := by
  intro h
  have hcov := h true (firstAttemptFails ++ [.leave, .publish, .handlerReturn]) _ rfl
  rcases hcov rfl with hw | ho
  · exact absurd hw (by decide)
  · cases ho

def stoppedAttempt : List Act :=
  [.start .eu868 true none none, .join otaaConfig fun _ => none, .takeJoin, .enter, .leave,
    .joinReturns (some .timedout), .relock, .handlerReturn]

/-- A leave during the blocking call is no disturbance: the handler sees it and clears the flag. -/
theorem covered_stoppedAttempt :
    (run (step true) init stoppedAttempt).isSome = true ∧
      Always (step true) Covered init stoppedAttempt := by
  refine ⟨rfl, (covered_iff_undisturbed true stoppedAttempt _ rfl).2 ?_⟩
  have hopen : ∀ {s : State} {a : Act}, s.worker.joinClosing = false → Undisturbed true s a :=
    fun h hcl => by rw [h] at hcl; cases hcl
  -- the handler closes in the last state only, and there it returns
  refine .cons rfl (hopen rfl) <| .cons rfl (hopen rfl) <| .cons rfl (hopen rfl) <|
    .cons rfl (hopen rfl) <| .cons rfl (hopen rfl) <| .cons rfl (hopen rfl) <|
    .cons rfl (hopen rfl) <| .cons rfl ?_ trivial
  exact fun _ => ⟨(fun ha => by cases ha), False.elim⟩

end Rzi.Zephyr
