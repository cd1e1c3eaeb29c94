import Rzi.ZephyrUplink

/-!
# Accepted uplinks are completed

While an uplink is pending no join is, so the work-queue thread has nothing else to begin: every step
it takes brings the accepted uplinks closer to their completion. `uplinks_reported` joins this with the
agreement of the histories.
-/

namespace Rzi.Zephyr.Uplink
open WorkQueue Lts

variable {rejects : Bool} {s t : State} {a : Act} {x y : Traced}

/-! ### A join does not get in the way -/

/-- The join item runs for a pending join only, and none is pending while an uplink is. -/
structure JoinAside (s : State) : Prop where
  unstarted : s.started = false → s.joinPending = false ∧ s.worker.inJoin = false
  once : s.joinWork.Once
  running : s.worker.inJoin = true → s.joinWork.running = true
  waiting : s.joinWork.Waiting → s.joinPending = true
  opened : s.worker.joinOpen = true → s.joinPending = true ∧ ¬ s.joinWork.Waiting
  apart : s.joinPending = true → s.txPending = false

theorem joinAside_init : JoinAside Zephyr.init where
  unstarted _ := ⟨rfl, rfl⟩
  once := Item.once_idle
  running h := by cases h
  waiting h := absurd h Item.not_waiting_idle
  opened h := by cases h
  apart h := by cases h

/-- A join becomes pending only while no uplink is. -/
theorem joinPending_step (h : JoinStep rejects s a t) (hp : t.joinPending = true) :
    s.joinPending = true ∨ s.txPending = false := by
  cases h with
  | other _ _ hf _ _ => exact .inl (hf.pending.symm.trans hp)
  | accepted config mib _ _ hj => exact .inr hj.2.2.1
  | left hleft => exact .inl hleft
  | dropped _ _ => cases hp
  | ended rc _ => exact .inl (joinHandlerEnded_pending hp)
  | _ => exact .inl hp

/-- An uplink becomes pending only while no join is. -/
theorem txPending_step (h : SendStep rejects s a t) (hp : t.txPending = true) :
    s.txPending = true ∨ t.joinPending = false := by
  cases h with
  | other _ _ hf _ => exact .inl (hf.pending.symm.trans hp)
  | accepted _ _ _ _ hj _ _ => exact .inr hj
  | ended _ _ _ => cases hp
  | _ => exact .inl hp

namespace JoinAside

theorem apart_step (h : JoinAside s) (ht : Zephyr.step rejects s a = some t)
    (hp : t.joinPending = true) : t.txPending = false := by
  cases htx : t.txPending
  · rfl
  rcases txPending_step (step_sendStep ht) htx with hs | hj
  · rcases joinPending_step (step_joinStep ht) hp with hj | hs'
    · rw [h.apart hj] at hs
      cases hs
    · rw [hs'] at hs
      cases hs
  · rw [hp] at hj
    cases hj

/-- The invariant reads the join's variables and how far its handler is. -/
theorem congr (h : JoinAside s) (hs : t.started = s.started) (hp : t.joinPending = s.joinPending)
    (hw : t.joinWork = s.joinWork) (hin : t.worker.inJoin = s.worker.inJoin)
    (hopen : t.worker.joinOpen = s.worker.joinOpen)
    (hapart : t.joinPending = true → t.txPending = false) : JoinAside t := by
  constructor
  · rw [hs, hp, hin]
    exact h.unstarted
  · rw [hw]
    exact h.once
  · rw [hin, hw]
    exact h.running
  · rw [hw, hp]
    exact h.waiting
  · rw [hopen, hp, hw]
    exact h.opened
  · exact hapart

theorem frame (h : JoinAside s) (hf : Zephyr.Frame s t)
    (hapart : t.joinPending = true → t.txPending = false) : JoinAside t := by
  refine h.congr hf.started hf.pending hf.work ?_ ?_ hapart
  · exact hf.worker_eq fun _ hw => hw
  · exact hf.worker_eq fun _ hw => Worker.joinOpen_eq_false hw

/-- The handler goes on to where it no longer needs the flag. -/
theorem closing {w : Worker} {joined pending : Bool} {i : Item} (h : JoinAside s)
    (hin : s.worker.inJoin = true) (hw : w.joinOpen = false) (hi : i.running = true) (ho : i.Once)
    (hwait : i.Waiting → pending = true) (hapart : pending = true → s.txPending = false) :
    JoinAside { s with joined := joined, joinPending := pending, joinWork := i, worker := w } where
  unstarted hs := by rw [(h.unstarted hs).2] at hin; cases hin
  once := ho
  running _ := hi
  waiting := hwait
  opened hopen := by rw [hw] at hopen; cases hopen
  apart := hapart

theorem cleared {w : Worker} {joined : Bool} (h : JoinAside s) (hopen : s.worker.joinOpen = true)
    (hw : w.joinOpen = false) :
    JoinAside { s with joined := joined, joinPending := false, worker := w } := by
  have hin := Worker.inJoin_of_joinOpen hopen
  exact h.closing hin hw (h.running hin) h.once (fun hwait => absurd hwait (h.opened hopen).2)
    (fun hp => by cases hp)

theorem ended {rc : Option Errno} (h : JoinAside s) (hw : s.worker = .joinEnded rc) :
    JoinAside (joinHandlerEnded rejects rc s) := by
  have hopen : s.worker.joinOpen = true := by rw [hw]; rfl
  rcases rc with _ | e
  · rw [joinHandlerEnded_success]
    exact h.cleared hopen rfl
  cases hst : s.joinStop
  · rw [joinHandlerEnded_retry hst]
    have hin := Worker.inJoin_of_joinOpen hopen
    refine h.closing hin rfl ?_ h.once.schedule (fun _ => (h.opened hopen).1) h.apart
    rw [Item.schedule_running]
    exact h.running hin
  · rw [joinHandlerEnded_stopped hst]
    exact h.cleared hopen rfl

theorem step (h : JoinAside s) (ht : Zephyr.step rejects s a = some t) : JoinAside t := by
  have hapart := h.apart_step ht
  cases step_joinStep ht with
  | other _ _ hf _ _ => exact h.frame hf hapart
  | started _ region hs _ _ =>
    have hin := (h.unstarted hs).2
    refine ⟨(fun hs' => by cases hs'), Item.once_idle, ?_,
      fun hw => absurd hw Item.not_waiting_idle, ?_, hapart⟩
    · intro hin'
      rw [hin] at hin'
      cases hin'
    · intro ho
      rw [Worker.joinOpen_eq_false hin] at ho
      cases ho
  | accepted config mib hs hp hj =>
    refine ⟨?_, h.once.schedule, ?_, fun _ => rfl, ?_, hapart⟩
    · intro hs'
      rw [show s.started = false from hs'] at hs
      cases hs
    · rw [Item.schedule_running]
      exact h.running
    · intro ho
      rw [(h.opened ho).1] at hp
      cases hp
  | left hp =>
    refine ⟨?_, Item.once_cancel, h.running, fun hw => absurd hw Item.not_waiting_cancel, ?_, hapart⟩
    · intro hs
      rw [(h.unstarted hs).1] at hp
      cases hp
    · intro ho
      have hrun := h.running (Worker.inJoin_of_joinOpen ho)
      exact ⟨by simp [Item.cancelBusy, hrun], Item.not_waiting_cancel⟩
  | expired w hw =>
    obtain ⟨hwait, -, honce, hrun, -⟩ := Item.expire_spec hw
    refine ⟨h.unstarted, honce, ?_, fun _ => h.waiting hwait, ?_, hapart⟩
    · intro hin
      rw [hrun]
      exact h.running hin
    · exact fun ho => absurd hwait (h.opened ho).2
  | taken w hi hw =>
    obtain ⟨hwait, hwait', honce, hrun, -⟩ := Item.start_spec h.once hw
    have hp := h.waiting hwait
    refine ⟨?_, honce, fun _ => hrun, fun hw => absurd hw hwait', fun _ => ⟨hp, hwait'⟩, hapart⟩
    intro hs
    rw [(h.unstarted hs).1] at hp
    cases hp
  | dropped hw _ => exact h.cleared (by rw [hw]; rfl) rfl
  | called config nonce hw _ => exact h.congr rfl rfl rfl (by rw [hw]; rfl) (by rw [hw]; rfl) hapart
  | returned config rc hw => exact h.congr rfl rfl rfl (by rw [hw]; rfl) (by rw [hw]; rfl) hapart
  | ended rc hw => exact h.ended hw
  | published rc hw => exact h.congr rfl rfl rfl (by rw [hw]; rfl) (by rw [hw]; rfl) hapart
  | finished hw =>
    refine ⟨fun hs => ⟨(h.unstarted hs).1, rfl⟩, h.once, ?_, h.waiting, ?_, hapart⟩
    · exact fun hin => by cases hin
    · exact fun ho => by cases ho

end JoinAside

/-! ### The worker completes what was accepted -/

/-- The steps until the thread is out of its handler. -/
def rest : Worker → Nat
  | .idle => 0
  | .joinEntry | .sendEntry => 5
  | .joining _ | .sending _ => 4
  | .joinEnded _ | .sendEnded _ _ => 3
  | .joinPublish _ | .sendPublish _ _ => 2
  | .joinReturn | .sendReturn => 1

/-- The uplinks that a handler has taken. -/
def takenCount (x : Traced) : Nat :=
  x.calls.length + if x.backend.worker = .sendEntry then 1 else 0

/-- The steps the worker needs at most to complete the first `k` uplinks. -/
def remaining (k : Nat) (x : Traced) : Nat := 6 * (k - takenCount x) + rest x.backend.worker

/-- What a step makes of the thread. -/
inductive WorkerStep (s : State) : Act → State → Prop
  | away (a : Act) (t : State) (ha : isWorker a = false) (hm : (marks s a).calls = [])
      (hw : t.worker = s.worker) : WorkerStep s a t
  | join (t : State) (hi : s.worker = .idle) (hq : s.joinWork.Waiting) : WorkerStep s .takeJoin t
  | send (t : State) (hi : s.worker = .idle) (hw : t.worker = .sendEntry) : WorkerStep s .takeSend t
  | call (t : State) (tx : Tx) (hs : s.worker = .sendEntry) (hw : t.worker = .sending tx) :
      WorkerStep s .enter t
  | on (a : Act) (t : State) (hm : (marks s a).calls = []) (hs : s.worker ≠ .sendEntry)
      (ht : t.worker ≠ .sendEntry) (hr : rest t.worker < rest s.worker) : WorkerStep s a t

theorem joinHandlerEnded_rest (rc : Option Errno) :
    (joinHandlerEnded rejects rc s).worker ≠ .sendEntry ∧
      rest (joinHandlerEnded rejects rc s).worker < 3 := by
  rcases joinHandlerEnded_worker rc with hw | hw
  · rw [hw]
    exact ⟨by simp, by simp [rest]⟩
  · rw [hw]
    exact ⟨by simp, by simp [rest]⟩

theorem marks_calls (ha : isWorker a = false) : (marks s a).calls = [] := by
  cases a with
  | send port data type =>
    simp only [marks]
    split <;> rfl
  | enter => cases ha
  | _ => rfl

theorem step_workerStep (h : Zephyr.step rejects s a = some t) : WorkerStep s a t := by
  cases step_transition h with
  | startFailed | started | readyPublished | joinRejected | joinAccepted | leaveRejected | left
  | sendRejected | sendAccepted | submitted | devNonceSet | expired =>
    exact .away _ _ rfl (marks_calls rfl) rfl
  | joinTaken w hi hw => exact .join _ hi (Item.waiting_of_start hw)
  | sendTaken w hi hw => exact .send _ hi rfl
  | sendCalled hw => exact .call _ s.tx hw rfl
  | joinDropped hw | joinCalled config nonce hw =>
    exact .on _ _ (by simp [marks, hw, Marks.none]) (by simp [hw]) (by simp) (by simp [hw, rest])
  | joinEnded rc hw =>
    obtain ⟨hne, hlt⟩ := @joinHandlerEnded_rest rejects s rc
    exact .on _ _ rfl (by simp [hw]) hne (by simpa [hw, rest] using hlt)
  | joinReturned _ _ hw | sendReturned _ _ hw | sendEnded _ _ hw | joinPublished _ hw
  | sendPublished _ _ hw | joinFinished hw | sendFinished hw =>
    exact .on _ _ rfl (by simp [hw]) (by simp) (by simp [hw, rest])

/-- The first `k` uplinks are completed. -/
def CompletedTo (k : Nat) (x : Traced) : Prop := k ≤ (txDones x.backend.published).length

/-- What the progress argument reads in each state. -/
structure ProgressInv (k : Nat) (x : Traced) : Prop where
  send : SendInv x
  aside : JoinAside x.backend
  accepted : k ≤ x.accepted.length

/-- Between two handlers every call of the MAC has its completion. -/
theorem SendInv.idle_completed (h : SendInv x) (hi : x.backend.worker = .idle) :
    (txDones x.backend.published).length = x.calls.length := by
  obtain ⟨done, hcalls, hlength, hevents⟩ := h.returned
  simp only [hi, inCall, due, List.append_nil] at hcalls hevents
  rw [← hevents, hcalls, outcomes, List.length_zipWith, hlength, Nat.min_self]

/-- What is not completed when no handler runs is the uplink in the buffer. -/
theorem SendInv.idle_pending {k : Nat} (h : SendInv x) (hk : ¬ CompletedTo k x)
    (haccepted : k ≤ x.accepted.length) (hi : x.backend.worker = .idle) :
    x.backend.txPending = true := by
  cases hp : x.backend.txPending
  · refine absurd ?_ hk
    have hcalls := h.accepted
    simp only [unsent, hp, Bool.false_and, Bool.false_eq_true, if_false, List.append_nil] at hcalls
    unfold CompletedTo
    rw [h.idle_completed hi, ← hcalls]
    exact haccepted
  · rfl

/-- While an uplink waits for an idle worker, no join does. -/
theorem ProgressInv.no_join {k : Nat} (h : ProgressInv k x) (hk : ¬ CompletedTo k x)
    (hi : x.backend.worker = .idle) : ¬ x.backend.joinWork.Waiting := by
  have hpending := h.send.idle_pending hk h.accepted hi
  intro hwait
  rw [h.aside.apart (h.aside.waiting hwait)] at hpending
  cases hpending

theorem ProgressInv.step {k : Nat} (h : ProgressInv k x) (ht : step rejects x a = some y) :
    ProgressInv k y := by
  obtain ⟨-, -, haccepted, -, -⟩ := step_eq ht
  refine ⟨h.send.step ht, ?_, ?_⟩
  · unfold Uplink.step at ht
    split at ht
    · obtain ⟨b, hb, rfl⟩ := Option.map_eq_some_iff.1 ht
      exact h.aside.step hb
    · cases ht
  · rw [haccepted, List.length_append]
    exact Nat.le_trans h.accepted (Nat.le_add_right _ _)

/-- A completion stays. -/
theorem CompletedTo.step {k : Nat} (h : CompletedTo k x) (ht : step rejects x a = some y) :
    CompletedTo k y := by
  obtain ⟨-, hstep, -⟩ := step_eq ht
  unfold CompletedTo at h ⊢
  refine Nat.le_trans h (List.Sublist.length_le ?_)
  generalize y.backend = b at hstep ⊢
  cases hstep with
  | other _ _ hf _ => rw [hf.events]
  | published type rc _ => exact (List.sublist_append_left _ _).filter _
  | _ => exact List.Sublist.refl _

theorem remaining_step {k : Nat} (h : ProgressInv k x) (hk : ¬ CompletedTo k x)
    (ht : step rejects x a = some y) : remaining k y + (isWorker a).toNat ≤ remaining k x := by
  obtain ⟨-, -, -, hcalls, -⟩ := step_eq ht
  have hworker : WorkerStep x.backend a y.backend := by
    unfold Uplink.step at ht
    split at ht
    · obtain ⟨b, hb, rfl⟩ := Option.map_eq_some_iff.1 ht
      exact step_workerStep hb
    · cases ht
  unfold remaining takenCount
  rw [hcalls, List.length_append]
  generalize y.backend = b at hworker ⊢
  cases hworker with
  | away _ _ ha hm hw =>
    rw [ha, hm, hw]
    exact Nat.le_refl _
  | join _ hi hq => exact absurd hq (h.no_join hk hi)
  | send _ hi hw =>
    -- the uplink that waits is one of the first `k`
    unfold CompletedTo at hk
    rw [h.send.idle_completed hi] at hk
    simp only [hw, hi, marks, Marks.none, List.length_nil, isWorker, rest, Bool.toNat_true, if_true,
      reduceCtorEq, if_false]
    omega
  | call _ tx hs hw =>
    rw [hw, hs]
    simp [marks, hs, rest, isWorker]
  | on _ _ hm hs ht hr =>
    have hle := Bool.toNat_le (isWorker a)
    rw [hm, if_neg ht, if_neg hs]
    simp only [List.length_nil]
    omega

theorem completed_of_steps {k : Nat} {bs : List Act} (h : ProgressInv k x)
    (hr : run (step rejects) x bs = some y) (hn : remaining k x < bs.countP isWorker) :
    CompletedTo k y := by
  have hI : ∀ x a y, ProgressInv k x → step rejects x a = some y → ProgressInv k y :=
    fun _ _ _ h ht => h.step ht
  have hgoal : ∀ x a y, ProgressInv k x → CompletedTo k x → step rejects x a = some y →
      CompletedTo k y := fun _ _ _ _ hk ht => hk.step ht
  have hμ : ∀ x a y, ProgressInv k x → ¬ CompletedTo k x → step rejects x a = some y →
      remaining k y + (isWorker a).toNat ≤ remaining k x := fun _ _ _ h hk ht => remaining_step h hk ht
  exact run_reaches hI hgoal hμ h hr hn

theorem remaining_le (h : SendInv x) : remaining x.accepted.length x ≤ 11 := by
  have hunsent : (unsent x.backend).length ≤ 1 := by
    unfold unsent
    split <;> simp
  have hrest : rest x.backend.worker ≤ 5 := by
    cases x.backend.worker <;> simp [rest]
  unfold remaining takenCount
  rw [h.accepted, List.length_append]
  omega

/-- As long as an accepted uplink is not completed, its submission or a step of the worker can be
taken. -/
theorem SendInv.enabled (h : SendInv x) (hk : ¬ CompletedTo x.accepted.length x) (rejects : Bool) :
    ∃ a, (a = .submit ∨ isWorker a = true) ∧ ∃ y, Uplink.step rejects x a = some y := by
  have hgo (a : Act) (ha : a = .submit ∨ isWorker a = true) (hfits : fits a = true)
      (hb : (Zephyr.step rejects x.backend a).isSome = true) :
      ∃ a, (a = .submit ∨ isWorker a = true) ∧ ∃ y, Uplink.step rejects x a = some y := by
    obtain ⟨b, hb⟩ := Option.isSome_iff_exists.1 hb
    refine ⟨a, ha, ?_⟩
    rw [Uplink.step, if_pos hfits, hb]
    exact ⟨_, rfl⟩
  cases hw : x.backend.worker with
  | idle =>
    have hlocated := h.located
    rw [h.idle_pending hk (Nat.le_refl _) hw, hw] at hlocated
    cases hq : x.backend.sendWork.queued with
    | true => exact hgo .takeSend (.inr rfl) rfl (by simp [Zephyr.step, hw, Item.start, hq])
    | false =>
      have hn : x.backend.submitters ≠ 0 := by
        simp only [hq, sendOpen, Bool.toNat_false, Bool.not_false, Bool.and_true,
          Bool.toNat_true] at hlocated
        omega
      exact hgo .submit (.inl rfl) rfl (by simp [Zephyr.step, hn])
  | joinEntry => exact hgo .enter (.inr rfl) rfl (by simp [Zephyr.step, hw])
  | joining config => exact hgo (.joinReturns none) (.inr rfl) rfl (by simp [Zephyr.step, hw])
  | joinEnded rc => exact hgo .relock (.inr rfl) rfl (by simp [Zephyr.step, hw])
  | joinPublish rc => exact hgo .publish (.inr rfl) rfl (by simp [Zephyr.step, hw])
  | joinReturn => exact hgo .handlerReturn (.inr rfl) rfl (by simp [Zephyr.step, hw])
  | sendEntry => exact hgo .enter (.inr rfl) rfl (by simp [Zephyr.step, hw])
  | sending tx => exact hgo (.sendReturns none) (.inr rfl) rfl (by simp [Zephyr.step, hw])
  | sendEnded type rc => exact hgo .relock (.inr rfl) rfl (by simp [Zephyr.step, hw])
  | sendPublish type rc => exact hgo .publish (.inr rfl) rfl (by simp [Zephyr.step, hw])
  | sendReturn => exact hgo .handlerReturn (.inr rfl) rfl (by simp [Zephyr.step, hw])

theorem progressInv_run {as : List Act} (hr : run (step rejects) Traced.init as = some x) :
    ProgressInv 0 x := by
  have hinit : ProgressInv 0 Traced.init := ⟨sendInv_init, joinAside_init, Nat.zero_le _⟩
  exact run_invariant' (fun _ _ _ h ht => h.step ht) hinit hr

theorem accepted_run {bs : List Act} (hr : run (step rejects) x bs = some y) :
    x.accepted <+: y.accepted := by
  have hstep : ∀ y a z, x.accepted <+: y.accepted → step rejects y a = some z →
      x.accepted <+: z.accepted := by
    intro y a z h hz
    obtain ⟨-, -, haccepted, -⟩ := step_eq hz
    rw [haccepted]
    exact h.trans (List.prefix_append _ _)
  exact run_invariant' (I := fun z => x.accepted <+: z.accepted) hstep (List.prefix_refl _) hr

theorem Reported.allReported {txs : List Tx} (h : Reported y) (htxs : txs <+: y.accepted)
    (hk : CompletedTo txs.length y) : AllReported txs y := by
  have hdones : (txDones y.backend.published).length ≤ y.results.length := by
    refine Nat.le_trans h.events.length_le ?_
    rw [outcomes, List.length_zipWith]
    exact Nat.min_le_right _ _
  have hresults : txs.length ≤ y.results.length := Nat.le_trans hk hdones
  have hprefix : outcomes txs y.results <+: outcomes y.accepted y.results := by
    obtain ⟨more, hmore⟩ := htxs
    rw [← hmore]
    exact outcomes_append_left txs more y.results
  have hlength : (outcomes txs y.results).length ≤ (txDones y.backend.published).length := by
    rw [outcomes, List.length_zipWith]
    exact Nat.le_trans (Nat.min_le_left _ _) hk
  exact ⟨List.prefix_of_prefix_length_le htxs h.calls (Nat.le_trans hresults h.results), hresults,
    List.prefix_of_prefix_length_le hprefix h.events hlength⟩

/-- **Uplink completion.** In every run the MAC is called with the accepted uplinks in their order,
and the completions are those of its answers. Any continuation in which the worker takes twelve steps
completes every uplink accepted before, and until then the worker, or the caller on its way to the
submission, can take one. -/
theorem uplinks_reported (rejects : Bool) (as : List Act) (x : Traced)
    (hr : run (step rejects) Traced.init as = some x) :
    Reported x ∧
      (∀ bs y, run (step rejects) x bs = some y → 12 ≤ bs.countP isWorker →
        AllReported x.accepted y) ∧
      ((txDones x.backend.published).length < x.accepted.length →
        ∃ a, (a = .submit ∨ isWorker a = true) ∧ ∃ y, step rejects x a = some y) := by
  have h := progressInv_run hr
  refine ⟨h.send.reported, fun bs y hbs hn => ?_, fun hk => ?_⟩
  · have hk : ProgressInv x.accepted.length x := ⟨h.send, h.aside, Nat.le_refl _⟩
    have hle := remaining_le h.send
    have hy : ProgressInv 0 y := run_invariant' (fun _ _ _ h ht => h.step ht) h hbs
    exact hy.send.reported.allReported (accepted_run hbs) (completed_of_steps hk hbs (by omega))
  · exact h.send.enabled (Nat.not_le.2 hk) rejects

/-- The device joins, sends, and sends again while the handler of the first uplink still has its
completion to publish. -/
def overlappingSends : List Act :=
  [.start .eu868 true none none, .join otaaConfig fun _ => none, .takeJoin, .enter, .joinReturns none,
    .relock, .publish, .handlerReturn, .send 2 [0x48] .confirmed, .submit, .takeSend, .enter,
    .sendReturns (some .timedout), .relock, .send 3 [0x49, 0x4a] .unconfirmed, .submit, .publish,
    .handlerReturn, .takeSend, .enter, .sendReturns none, .relock, .publish]

def afterSends : Traced := (run (step true) Traced.init overlappingSends).getD Traced.init

theorem overlapping_sends_reported :
    Reported afterSends ∧
      afterSends.calls = [⟨2, [0x48], .confirmed⟩, ⟨3, [0x49, 0x4a], .unconfirmed⟩] ∧
      txDones afterSends.backend.published =
        [.txDone .notSent (some .timeout), .txDone .sent none] :=
  ⟨(uplinks_reported true overlappingSends afterSends rfl).1, by decide, by decide⟩

end Rzi.Zephyr.Uplink
