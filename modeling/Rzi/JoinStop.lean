import Rzi.ZephyrBackend

/-!
# What a stopped join still reports

`zephyr_leave` stops a pending join. The retry it cancels never runs, and a handler that is blocked
in `lorawan_join` finds the stop flag when the call returns: a failure is then dropped, but a success
is still published as JOINED and recorded as joined. So the result is dropped exactly when the
attempt in progress, if there is one, fails.
-/

namespace Rzi.Zephyr
open WorkQueue Lts

/-- The result of the attempt in progress, if one is and `rc` is what its MAC call answers. -/
def Worker.attempt (rc : Option Errno) : Worker → Option (Option Errno)
  | .joining _ => some rc
  | .joinEnded rc' => some rc'
  | _ => none

/-- A step before the next accepted join, with `rc` the answer of the MAC call in progress. -/
def BeforeNextJoin (rc : Option Errno) (s : State) (a : Act) : Prop :=
  ¬ AcceptedJoin s a ∧ ∀ r, a = .joinReturns r → r = rc

/-- Between the leave in `s` and `t`: no join result is published but the one the handler was about
to publish at the leave, and a device that was not joined is not joined. -/
structure Dropped (s t : State) : Prop where
  results : ∃ new, joinResults t.published = joinResults s.published ++ new ∧
    new <+: s.worker.joinResult
  joined : zephyrIsJoined s = .ok false → zephyrIsJoined t = .ok false

/-- After a leave that found a join pending, every continuation up to the next accepted join, with
`rc` the answer of the MAC call in progress, drops the result. -/
def DropsResult (rejects : Bool) (rc : Option Errno) (s : State) : Prop :=
  ∀ as t, run (step rejects) (zephyrLeave s).2 as = some t →
    Meets (step rejects) (BeforeNextJoin rc) (zephyrLeave s).2 as → Dropped s t

variable {rejects : Bool} {rc : Option Errno} {s t u : State} {a : Act}

/-- What holds from the leave in `s` on, while the attempt in progress does not succeed. -/
structure Dropping (rc : Option Errno) (s t : State) : Prop where
  started : t.started = true
  stop : t.joinStop = true
  idle : ¬ t.joinWork.Waiting
  attempt : t.worker.attempt rc ≠ some none
  results : ∃ new, joinResults t.published = joinResults s.published ++ new ∧
    new ++ t.worker.joinResult <+: s.worker.joinResult
  joined : s.joined = false → t.joined = false

theorem Worker.attempt_eq_none {w : Worker} (h : w.inJoin = false) : w.attempt rc = none := by
  cases w <;> first | rfl | cases h

theorem Worker.joinResult_eq_nil {w : Worker} (h : w.inJoin = false) : w.joinResult = [] := by
  cases w <;> first | rfl | cases h

namespace Dropping

theorem frame (h : Dropping rc s t) (hf : Frame t u) : Dropping rc s u := by
  have hattempt : u.worker.attempt rc = t.worker.attempt rc :=
    hf.worker_eq fun _ hw => Worker.attempt_eq_none hw
  have hresult : u.worker.joinResult = t.worker.joinResult :=
    hf.worker_eq fun _ hw => Worker.joinResult_eq_nil hw
  constructor
  · rw [hf.started]; exact h.started
  · rw [hf.stop]; exact h.stop
  · rw [hf.work]; exact h.idle
  · rw [hattempt]; exact h.attempt
  · rw [hf.results, hresult]; exact h.results
  · rw [hf.joined]; exact h.joined

theorem moved (h : Dropping rc s t) {w : Worker} {i : Item} {p j : Bool} (hi : ¬ i.Waiting)
    (hw : w.attempt rc ≠ some none) (hr : w.joinResult = []) (hj : t.joined = false → j = false) :
    Dropping rc s { t with joined := j, joinPending := p, joinWork := i, worker := w } := by
  obtain ⟨new, hnew, hpre⟩ := h.results
  refine ⟨h.started, h.stop, hi, hw, ⟨new, hnew, ?_⟩, fun hs => hj (h.joined hs)⟩
  rw [show ({ t with joined := j, joinPending := p, joinWork := i, worker := w } : State).worker = w
    from rfl, hr, List.append_nil]
  exact (List.prefix_append _ _).trans hpre

theorem published (h : Dropping rc s t) {r : Option Errno} (hw : t.worker = .joinPublish r) :
    Dropping rc s { t.publish (joinEvent r) with worker := .joinReturn } := by
  obtain ⟨new, hnew, hpre⟩ := h.results
  refine ⟨h.started, h.stop, h.idle, nofun, ⟨new ++ [joinEvent r], ?_, ?_⟩, h.joined⟩
  · have hpub : joinResults (t.published ++ [joinEvent r]) =
        joinResults t.published ++ [joinEvent r] := by
      simp [joinResults, List.filter_append, isJoinResult_joinEvent]
    rw [← List.append_assoc, ← hnew]
    exact hpub
  · rw [hw] at hpre
    simpa [Worker.joinResult] using hpre

theorem ended (h : Dropping rc s t) {r : Option Errno} (hw : t.worker = .joinEnded r) :
    Dropping rc s (joinHandlerEnded rejects r t) := by
  rcases r with _ | e
  · exact absurd (by rw [hw]; rfl) h.attempt
  · rw [joinHandlerEnded_stopped h.stop]
    exact h.moved h.idle nofun rfl fun _ => rfl

theorem step (h : Dropping rc s t) (hG : BeforeNextJoin rc t a) (hj : JoinStep rejects t a u) :
    Dropping rc s u := by
  cases hj with
  | other _ _ hf _ _ => exact h.frame hf
  | started _ _ hs _ _ => rw [h.started] at hs; cases hs
  | accepted _ _ _ _ hj => exact absurd hj hG.1
  | left _ =>
    exact ⟨h.started, rfl, Item.not_waiting_cancel, h.attempt, h.results, h.joined⟩
  | expired w hw => exact absurd (Item.expire_spec hw).1 h.idle
  | taken w _ hw => exact absurd (Item.waiting_of_start hw) h.idle
  | dropped _ _ => exact h.moved h.idle nofun rfl id
  | called _ _ _ hst => rw [h.stop] at hst; cases hst
  | returned config r hw =>
    refine h.moved h.idle ?_ rfl id
    rw [hG.2 r rfl]
    have hattempt := h.attempt
    rwa [hw] at hattempt
  | ended r hw => exact h.ended hw
  | published r hw => exact h.published hw
  | finished _ => exact h.moved h.idle nofun rfl id

theorem dropped (h : Dropping rc s t) : Dropped s t := by
  obtain ⟨new, hnew, hpre⟩ := h.results
  refine ⟨⟨new, hnew, (List.prefix_append _ _).trans hpre⟩, fun hs => ?_⟩
  have hjoined : s.joined = false := by
    unfold zephyrIsJoined at hs
    split_ifs at hs
    simpa using hs
  simp [zephyrIsJoined, h.started, h.joined hjoined]

end Dropping

theorem JoinStep.started_of_pending (hj : JoinStep rejects s a t)
    (h : s.joinPending = true → s.started = true) : t.joinPending = true → t.started = true := by
  cases hj with
  | other _ _ hf _ _ => rw [hf.pending, hf.started]; exact h
  | started _ _ _ _ _ => exact fun _ => rfl
  | accepted _ _ hs _ _ => exact fun _ => hs
  | left hp => exact fun _ => h hp
  | dropped _ _ => exact fun hp => by cases hp
  | ended r _ =>
    intro hp
    rw [joinHandlerEnded_started]
    exact h (joinHandlerEnded_pending hp)
  | _ => exact h

theorem started_of_joinPending (hs : Reachable rejects s) (hp : s.joinPending = true) :
    s.started = true := by
  obtain ⟨as, hr⟩ := hs
  exact run_invariant' (I := fun s => s.joinPending = true → s.started = true)
    (fun _ _ _ h ht => (step_joinStep ht).started_of_pending h) (fun h => by cases h) hr hp

theorem Dropping.of_leave (hs : s.started = true) (hp : s.joinPending = true)
    (hattempt : s.worker.attempt rc ≠ some none) : Dropping rc s (zephyrLeave s).2 := by
  rw [zephyrLeave, if_pos hp]
  exact ⟨hs, rfl, Item.not_waiting_cancel, hattempt, ⟨[], (List.append_nil _).symm, List.prefix_refl _⟩, id⟩

theorem not_dropped_of_joined (hw : s.worker.joinResult = [])
    (hpub : t.published = s.published ++ [.joined]) : ¬ Dropped s t := by
  rintro ⟨⟨new, hnew, hpre⟩, -⟩
  rw [hw, List.prefix_nil] at hpre
  subst hpre
  have hlen := congrArg List.length hnew
  simp [hpub, joinResults, List.filter_append, Event.isJoinResult] at hlen

theorem run_success (hw : s.worker = .joinEnded none) :
    ∃ t, run (step rejects) s [.relock, .publish] = some t ∧ t.published = s.published ++ [.joined] ∧
      Meets (step rejects) (BeforeNextJoin rc) s [.relock, .publish] := by
  have hrelock : step rejects s .relock = some (joinHandlerEnded rejects none s) := by
    simp [step, hw]
  have hpublish : step rejects (joinHandlerEnded rejects none s) .publish =
      some { (joinHandlerEnded rejects none s).publish .joined with worker := .joinReturn } := by
    rw [joinHandlerEnded_success]
    rfl
  refine ⟨_, run_cons_eq_some.2 ⟨_, hrelock, run_cons_eq_some.2 ⟨_, hpublish, rfl⟩⟩, ?_, ?_⟩
  · rw [joinHandlerEnded_success]
    rfl
  · have hG₁ : ∀ r, Act.relock = .joinReturns r → r = rc := fun r h => by cases h
    have hG₂ : ∀ r, Act.publish = .joinReturns r → r = rc := fun r h => by cases h
    exact .cons hrelock ⟨id, hG₁⟩ (.cons hpublish ⟨id, hG₂⟩ trivial)

theorem not_dropsResult_of_success (hp : s.joinPending = true)
    (hattempt : s.worker.attempt rc = some none) : ¬ DropsResult rejects rc s := by
  intro h
  have hworker : (zephyrLeave s).2.worker = s.worker := by simp [zephyrLeave, hp]
  have hpublished : (zephyrLeave s).2.published = s.published := by simp [zephyrLeave, hp]
  generalize hu : (zephyrLeave s).2 = u at hworker hpublished
  cases hw : s.worker with
  | joinEnded r =>
    rw [hw] at hattempt
    cases hattempt
    obtain ⟨t, hr, hpub, hG⟩ := @run_success rejects rc u (hworker.trans hw)
    refine not_dropped_of_joined (by rw [hw]; rfl) (hpub.trans (by rw [hpublished]))
      (h [.relock, .publish] t ?_ ?_)
    · exact hu ▸ hr
    · exact hu ▸ hG
  | joining config =>
    rw [hw] at hattempt
    cases hattempt
    -- the blocked call returns first
    have hreturn : step rejects u (.joinReturns none) = some { u with worker := .joinEnded none } := by
      simp [step, hworker.trans hw]
    obtain ⟨t, hr, hpub, hG⟩ :=
      @run_success rejects none { u with worker := .joinEnded none } rfl
    refine not_dropped_of_joined (by rw [hw]; rfl) (hpub.trans (by rw [← hpublished]))
      (h [.joinReturns none, .relock, .publish] t ?_ ?_)
    · exact hu ▸ run_cons_eq_some.2 ⟨_, hreturn, hr⟩
    · exact hu ▸ Meets.cons hreturn ⟨id, fun r hr => by cases hr; rfl⟩ hG
  | _ => rw [hw] at hattempt; cases hattempt

/-- After a leave that found a join pending, its result is dropped exactly when the attempt in
progress, if there is one, does not succeed. -/
theorem dropsResult_iff (rejects : Bool) (rc : Option Errno) (s : State)
    (hs : Reachable rejects s) (hp : s.joinPending = true) :
    DropsResult rejects rc s ↔ s.worker.attempt rc ≠ some none := by
  constructor
  · exact fun h hattempt => not_dropsResult_of_success hp hattempt h
  · intro hattempt as t hr hG
    refine (run_invariant (I := Dropping rc s) ?_ ?_ hG hr).dropped
    · exact fun _ _ _ h hG ht => h.step hG (step_joinStep ht)
    · exact .of_leave (started_of_joinPending hs hp) hp hattempt

def blockedAttempt : List Act :=
  [.start .eu868 true none none, .join otaaConfig fun _ => none, .takeJoin, .enter]

/-- The join is stopped while the MAC waits for the Join-Accept, and the Join-Accept arrives: the
device reports JOINED all the same. -/
theorem result_not_dropped : ¬ ∀ (rejects : Bool) (rc : Option Errno) (s : State),
    Reachable rejects s → s.joinPending = true → DropsResult rejects rc s := by
  intro h
  obtain ⟨s, hr, hp, hattempt⟩ : ∃ s, run (step true) init blockedAttempt = some s ∧
      s.joinPending = true ∧ s.worker.attempt none = some none := ⟨_, rfl, rfl, rfl⟩
  exact not_dropsResult_of_success hp hattempt (h true none s ⟨_, hr⟩ hp)

/-- Stopped while the MAC waits, an attempt that times out is dropped. -/
theorem timeout_dropped : ∃ s, run (step true) init blockedAttempt = some s ∧
    s.joinPending = true ∧ DropsResult true (some .timedout) s := by
  refine ⟨_, rfl, rfl, (dropsResult_iff true (some .timedout) _ ⟨blockedAttempt, rfl⟩ rfl).2 ?_⟩
  exact fun h => by cases h

end Rzi.Zephyr
