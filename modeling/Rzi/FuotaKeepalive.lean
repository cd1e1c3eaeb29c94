import Rzi.FuotaSession

/-!
# The keepalive of the FUOTA service

While the service waits for a transfer it sends an uplink now and then, so that the server can reach a
device of class A. The delayable work item `keepalive_work` sends one and schedules itself again;
SESSION_STARTED, JOIN_FAILED and a READY of the stack cancel it. `keepalive_work_handler` runs on the
work queue and takes no mutex. A cancellation of a running handler lasts until the handler returns, and
until then the kernel refuses every schedule, that of the dispatcher too.

`keeps_alive_iff` says in which runs the keepalive survives, `uplink_of_transfer` how many uplinks a
session still sees. The service itself is that of `Rzi.Fuota`. The interval is taken to be positive;
with zero there is no keepalive.
-/

namespace Rzi.Fuota.Keepalive
open WorkQueue Lts

/-- Where `keepalive_work_handler` is. -/
inductive Handler where
  | idle
  /-- before its check of the state -/
  | entered
  /-- before `rzi_lorawan_send` -/
  | sending
  /-- before `schedule_keepalive` -/
  | sent
  | returning
deriving DecidableEq, Repr

/-- The service with its keepalive. -/
structure Keep where
  sys : Sys
  work : Item
  handler : Handler
  /-- the dispatcher has still to call `schedule_keepalive` for the last event -/
  owed : Bool
  /-- the keepalives handed to `rzi_lorawan_send` -/
  uplinks : Nat

def Keep.init : Keep := ⟨.init, .idle, .idle, false, 0⟩

inductive KAct where
  /-- a step of the service -/
  | service (a : Act)
  /-- the dispatcher schedules the keepalive after the callbacks of JOINED or of a failed transfer -/
  | schedule
  | expire
  /-- the work queue's thread takes the item -/
  | take
  | check
  | send
  | reschedule
  | finish

/-- `schedule_keepalive`. -/
def scheduleKeepalive (w : Item) : Item := w.schedule true false

/-- `cancel_keepalive`. -/
def cancelKeepalive (w : Item) : Item := w.cancel

/-- The calls of `schedule_keepalive` and `cancel_keepalive` in the first locked section of an event. -/
def eventWork (e : Event) (svc : Service) (w : Item) : Item :=
  match e with
  | .joinFailed | .sessionStarted => cancelKeepalive w
  | .stateChanged ready => if ready ∧ svc.state ≠ .idle then cancelKeepalive w else w
  | .sessionEnded =>
    if svc.state = .transferring ∧ svc.imageReady = false then scheduleKeepalive w else w
  | _ => w

/-- The event calls `schedule_keepalive` after its callbacks. -/
def eventOwes : Event → Bool
  | .joined | .transferDone false _ => true
  | _ => false

/-- The states in which the handler does nothing. -/
def pausedIn (svc : Service) : Bool :=
  !svc.started || svc.state == .transferring || svc.state == .applying

def step (b : Build) (s : Keep) : KAct → Option Keep
  | .service (.event e ans) =>
    if s.owed then none
    else
      (Fuota.step b s.sys (.event e ans)).map fun t =>
        if s.sys.svc.started then
          { s with sys := t, work := eventWork e s.sys.svc s.work, owed := eventOwes e }
        else { s with sys := t }
  -- one thread runs the handlers of both work items
  | .service .takeWork =>
    if s.work.running then none else (Fuota.step b s.sys .takeWork).map ({ s with sys := · })
  | .service a => (Fuota.step b s.sys a).map ({ s with sys := · })
  | .schedule =>
    if s.owed ∧ s.sys.todo = [] then some { s with work := scheduleKeepalive s.work, owed := false }
    else none
  | .expire => s.work.expire.map ({ s with work := · })
  | .take =>
    if s.sys.appliers .work = .idle ∧ s.handler = .idle then
      s.work.start.map ({ s with work := ·, handler := .entered })
    else none
  | .check =>
    if s.handler = .entered then
      some { s with handler := if pausedIn s.sys.svc then .returning else .sending }
    else none
  | .send =>
    if s.handler = .sending then some { s with handler := .sent, uplinks := s.uplinks + 1 } else none
  | .reschedule =>
    if s.handler = .sent then
      some { s with handler := .returning, work := scheduleKeepalive s.work }
    else none
  | .finish =>
    if s.handler = .returning then some { s with handler := .idle, work := s.work.finish } else none

/-- The steps of the timer and of the handler. -/
def KAct.isKeepalive : KAct → Bool
  | .service _ | .schedule => false
  | _ => true

/-- The states in which the device waits for a transfer. -/
def Waits (s : Keep) : Prop := s.sys.svc.state = .ready ∨ s.sys.svc.state = .failed

/-- The timer and the handler by themselves send as many uplinks as one likes. -/
def Continues (b : Build) (s : Keep) : Prop :=
  ∀ n, ∃ as t, (∀ a ∈ as, a.isKeepalive = true) ∧ run (step b) s as = some t ∧
    t.uplinks = s.uplinks + n

/-- Where the device waits for a transfer and the dispatcher and the work queue are free, the keepalive
goes on. -/
def KeepsAlive (b : Build) (s : Keep) : Prop :=
  Waits s → s.owed = false → s.sys.appliers .work = .idle → Continues b s

/-- The dispatcher does not schedule a keepalive, for a device that waits then, while a handler that was
cancelled still runs. -/
def NoScheduleUnderCancel (s : Keep) : KAct → Prop
  | .schedule => Waits s → s.work.canceling = false
  | .service (.event .sessionEnded _) =>
    s.sys.svc.started = true → s.sys.svc.state = .transferring → s.sys.svc.imageReady = false →
      s.work.canceling = false
  | _ => True

variable {b : Build} {s t u : Keep}

/-! ### What the service does meanwhile -/

theorem setState_started (power : Bool) (next : FState) (svc : Service) :
    (setState b power next svc).1.started = svc.started := by
  by_cases h : svc.state = next <;> simp [setState, h]

theorem handleEvent_started (ans : Answers) (e : Event) (svc : Service) :
    (handleEvent b ans e svc).1.started = svc.started := by
  cases e with
  | joined => simp [handleEvent, handleJoined, setState_started]
  | joinFailed => simp [handleEvent, setState_started]
  | stateChanged ready =>
    simp only [handleEvent]
    split_ifs <;> simp [setState_started]
  | sessionStarted => simp [handleEvent, setState_started]
  | sessionEnded =>
    simp only [handleEvent]
    split_ifs <;> simp [setState_started]
  | transferDone successful size =>
    cases successful
    · simp [handleEvent, handleTransferDone, setState_started]
    · simp only [handleEvent, handleTransferDone, ↓reduceIte, setState_started]
      split <;> rfl
  | _ => rfl

/-- A step of the service other than an event leads to none of READY, FAILED and TRANSFERRING. -/
structure Quiet (s t : Sys) : Prop where
  started : s.svc.started = true → t.svc.started = true
  state : t.svc.state = .ready ∨ t.svc.state = .failed ∨ t.svc.state = .transferring →
    s.svc.state = t.svc.state ∧ s.svc.imageReady = t.svc.imageReady

theorem Quiet.of_eq {x y : Sys} (hst : x.svc.started = true → y.svc.started = true)
    (hs : y.svc.state = x.svc.state) (hr : y.svc.imageReady = x.svc.imageReady) : Quiet x y :=
  ⟨hst, fun _ => ⟨hs.symm, hr.symm⟩⟩

theorem quiet_of_step {x y : Sys} {a : Act} (ha : ∀ e ans, a ≠ .event e ans)
    (h : Fuota.step b x a = some y) : Quiet x y := by
  have heffect := step_svcEffect h
  generalize hsvc : y.svc = svc at heffect
  cases heffect with
  | none => exact .of_eq (fun h => by rw [hsvc]; exact h) (by rw [hsvc]) (by rw [hsvc])
  | started => exact .of_eq (fun _ => by rw [hsvc]) (by rw [hsvc]) (by rw [hsvc])
  | handled e ans _ => exact absurd rfl (ha e ans)
  | expected size _ => exact .of_eq (fun h => by rw [hsvc]; exact h) (by rw [hsvc]) (by rw [hsvc])
  | entered tid power _ _ =>
    refine ⟨fun h => by rw [hsvc, setState_started]; exact h, fun hst => ?_⟩
    rw [hsvc, setState_state] at hst
    rcases hst with hst | hst | hst <;> cases hst
  | failed tid power rc _ =>
    refine ⟨fun h => by rw [hsvc, setState_started]; exact h, fun hst => ?_⟩
    rw [hsvc, setState_state] at hst
    rcases hst with hst | hst | hst <;> cases hst

theorem at_work {x : Sys} {tid : Tid} {pc : Applier} (hwork : x.appliers .work = .idle)
    (htid : x.appliers tid ≠ .idle) : (x.at tid pc).appliers .work = .idle := by
  have hne : Tid.work ≠ tid := fun h => htid (by rw [← h]; exact hwork)
  show Function.update x.appliers tid pc .work = .idle
  rw [Function.update_of_ne hne]
  exact hwork

theorem return_work {x : Sys} {tid : Tid} (hwork : x.appliers .work = .idle) :
    (x.return tid).appliers .work = .idle := by
  rw [return_appliers]
  by_cases h : Tid.work = tid
  · rw [h, Function.update_self]
  · rw [Function.update_of_ne h]
    exact hwork

/-- Only `takeWork` lets the thread of the work queue into `rzi_fuota_apply`. -/
theorem work_idle_step {x y : Sys} {a : Act} (ha : a ≠ .takeWork) (hwork : x.appliers .work = .idle)
    (h : Fuota.step b x a = some y) : y.appliers .work = .idle := by
  cases step_transition h with
  | taken => exact absurd rfl ha
  | called n _ =>
    show Function.update x.appliers (.app n) .called .work = .idle
    rw [Function.update_of_ne (by simp)]
    exact hwork
  | entered tid power hpc =>
    unfold enterApply
    split_ifs
    · exact return_work hwork
    · exact return_work hwork
    · exact at_work hwork (by rw [hpc]; simp)
  | wroteBack tid power rc hpc =>
    simp only [writeBack]
    split_ifs
    · exact return_work hwork
    · exact at_work hwork (by rw [hpc]; simp)
  | announced tid hpc => exact at_work hwork (by rw [hpc]; simp)
  | beginFailed tid _ _ hpc => exact at_work hwork (by rw [hpc]; simp)
  | begun tid hpc => exact at_work hwork (by rw [hpc]; simp)
  | chunkFailed tid _ _ _ _ _ hpc => exact at_work hwork (by rw [hpc]; simp)
  | chunkCopied tid _ _ hpc => exact at_work hwork (by rw [hpc]; simp)
  | upgradeFailed tid _ _ hpc => exact at_work hwork (by rw [hpc]; simp)
  | upgraded tid _ hpc => exact at_work hwork (by rw [hpc]; simp)
  | unsupported tid | restored tid | rebooted tid => exact return_work hwork
  | _ => exact hwork

/-! ### The invariant -/

structure Inv (s : Keep) : Prop where
  running : s.work.running = true ↔ s.handler ≠ .idle
  canceling : s.work.canceling = true → s.work.running = true ∧ ¬ s.work.Waiting
  once : s.work.Once
  thread : s.work.running = true → s.sys.appliers .work = .idle
  fresh : s.sys.svc.started = false → s.work = .idle ∧ s.owed = false
  unready : Waits s → s.sys.svc.imageReady = false
  /-- a session has cancelled the keepalive, and nobody schedules it until the session ends -/
  transfer : s.sys.svc.state = .transferring →
    ¬ s.work.Waiting ∧ (s.work.running = true → s.work.canceling = true) ∧ s.owed = false

theorem Inv.init : Inv .init where
  running := by simp [Keep.init, Item.idle]
  canceling := fun h => by cases h
  once := Item.once_idle
  thread := fun h => by cases h
  fresh := fun _ => ⟨rfl, rfl⟩
  unready := by rintro (h | h) <;> cases h
  transfer := fun h => by cases h

/-- The states after an event. -/
theorem event_svc {x y : Sys} {e : Event} {ans : Answers} (hstarted : x.svc.started = true)
    (h : Fuota.step b x (.event e ans) = some y) :
    y.svc.started = true ∧ y.appliers = x.appliers ∧
      (y.svc.state, y.svc.imageReady) = eventState e (x.svc.state, x.svc.imageReady) := by
  cases step_transition h with
  | ignored _ _ _ hnot => rw [hstarted] at hnot; cases hnot
  | handled =>
    refine ⟨?_, rfl, handleEvent_state ans e x.svc⟩
    rw [handleEvent_started]
    exact hstarted

theorem eventWork_cases (e : Event) (svc : Service) (w : Item) :
    eventWork e svc w = w ∨ eventWork e svc w = cancelKeepalive w ∨
      eventWork e svc w = scheduleKeepalive w := by
  cases e with
  | joinFailed | sessionStarted => exact .inr (.inl rfl)
  | stateChanged ready =>
    simp only [eventWork]
    split_ifs
    · exact .inr (.inl rfl)
    · exact .inl rfl
  | sessionEnded =>
    simp only [eventWork]
    split_ifs
    · exact .inr (.inr rfl)
    · exact .inl rfl
  | _ => exact .inl rfl

/-- An item of which `Inv` says what it says of `work`. -/
structure Sound (running : Bool) (w : Item) : Prop where
  running : w.running = running
  canceling : w.canceling = true → w.running = true ∧ ¬ w.Waiting
  once : w.Once

theorem Sound.schedule {r : Bool} {w : Item} (h : Sound r w) : Sound r (scheduleKeepalive w) where
  running := by rw [scheduleKeepalive, Item.schedule_running, h.running]
  canceling hc := by
    rw [scheduleKeepalive, Item.schedule_canceling] at hc
    rw [scheduleKeepalive, Item.schedule_refused rfl hc]
    exact h.canceling hc
  once := h.once.schedule

theorem Sound.cancel {r : Bool} {w : Item} (h : Sound r w) : Sound r (cancelKeepalive w) where
  running := h.running
  canceling hc := by
    refine ⟨?_, Item.not_waiting_cancel⟩
    rcases Bool.or_eq_true_iff.1 hc with hr | hc
    · exact hr
    · exact (h.canceling hc).1
  once := Item.once_cancel

theorem Sound.event {r : Bool} {w : Item} (h : Sound r w) (e : Event) (svc : Service) :
    Sound r (eventWork e svc w) := by
  rcases eventWork_cases e svc w with he | he | he <;> rw [he]
  exacts [h, h.cancel, h.schedule]

theorem Inv.sound (h : Inv s) : Sound s.work.running s.work := ⟨rfl, h.canceling, h.once⟩

/-- In a session the keepalive is off: an event that leads to TRANSFERRING has cancelled it or found it
so. -/
theorem Inv.event_transfer {e : Event} (h : Inv s)
    (hstate : (eventState e (s.sys.svc.state, s.sys.svc.imageReady)).1 = .transferring) :
    ¬ (eventWork e s.sys.svc s.work).Waiting ∧
      ((eventWork e s.sys.svc s.work).running = true →
        (eventWork e s.sys.svc s.work).canceling = true) ∧ eventOwes e = false := by
  have hkept (hs : s.sys.svc.state = .transferring) :
      ¬ s.work.Waiting ∧ (s.work.running = true → s.work.canceling = true) :=
    ⟨(h.transfer hs).1, (h.transfer hs).2.1⟩
  cases e with
  | sessionStarted =>
    exact ⟨Item.not_waiting_cancel, fun hr => Bool.or_eq_true_iff.2 (.inl hr), rfl⟩
  | joined | joinFailed => cases hstate
  | transferDone successful size => cases successful <;> cases hstate
  | stateChanged ready =>
    simp only [eventState] at hstate
    simp only [eventWork]
    split_ifs at hstate ⊢ with hc
    exact ⟨(hkept hstate).1, (hkept hstate).2, rfl⟩
  | sessionEnded =>
    simp only [eventState] at hstate
    simp only [eventWork]
    split_ifs at hstate ⊢ with hc
    exact ⟨(hkept hstate).1, (hkept hstate).2, rfl⟩
  | _ => exact ⟨(hkept hstate).1, (hkept hstate).2, rfl⟩

theorem Inv.event {e : Event} {ans : Answers} {y : Sys} (h : Inv s)
    (hstarted : s.sys.svc.started = true) (ht : Fuota.step b s.sys (.event e ans) = some y) :
    Inv { s with sys := y, work := eventWork e s.sys.svc s.work, owed := eventOwes e } := by
  obtain ⟨hy, happ, hstate⟩ := event_svc hstarted ht
  have hsound := h.sound.event e s.sys.svc
  refine ⟨?_, hsound.canceling, hsound.once, ?_, ?_, ?_, ?_⟩
  · rw [hsound.running]
    exact h.running
  · rw [hsound.running, happ]
    exact h.thread
  · intro hf
    rw [hy] at hf
    cases hf
  · intro hw
    have hready : y.svc.imageReady = (eventState e (s.sys.svc.state, s.sys.svc.imageReady)).2 := by
      rw [← hstate]
    have hst : y.svc.state = (eventState e (s.sys.svc.state, s.sys.svc.imageReady)).1 := by
      rw [← hstate]
    change y.svc.state = .ready ∨ y.svc.state = .failed at hw
    show y.svc.imageReady = false
    rw [hst] at hw
    rw [hready]
    rcases eventState_cases e (s.sys.svc.state, s.sys.svc.imageReady) with he | he | he | he | he | he
      <;> rw [he] at hw ⊢
    · exact h.unready hw
    · rcases hw with hw | hw <;> cases hw
    · rcases hw with hw | hw <;> cases hw
  · intro hst
    change y.svc.state = .transferring at hst
    refine h.event_transfer ?_
    rw [← hstate]
    exact hst

/-- The service moves without an event. -/
theorem Inv.service {y : Sys} (h : Inv s) (hquiet : Quiet s.sys y)
    (hthread : s.work.running = true → y.appliers .work = .idle) : Inv { s with sys := y } where
  running := h.running
  canceling := h.canceling
  once := h.once
  thread := hthread
  fresh hf := by
    refine h.fresh (Bool.eq_false_iff.2 fun hs => ?_)
    exact Bool.false_ne_true (hf.symm.trans (hquiet.started hs))
  unready hw := by
    have hstate := hquiet.state (hw.elim .inl fun hw => .inr (.inl hw))
    have hws : Waits s := by
      show s.sys.svc.state = .ready ∨ s.sys.svc.state = .failed
      rw [hstate.1]
      exact hw
    exact hstate.2.symm.trans (h.unready hws)
  transfer hst := by
    have hstate := hquiet.state (.inr (.inr hst))
    exact h.transfer (hstate.1.trans hst)

/-- What a step can do. -/
inductive Transition (b : Build) (s : Keep) : KAct → Keep → Prop
  | event (e : Event) (ans : Answers) (y : Sys) (howed : s.owed = false)
      (hstarted : s.sys.svc.started = true) (hy : Fuota.step b s.sys (.event e ans) = some y) :
      Transition b s (.service (.event e ans))
        { s with sys := y, work := eventWork e s.sys.svc s.work, owed := eventOwes e }
  | ignored (e : Event) (ans : Answers) (hstarted : s.sys.svc.started = false) :
      Transition b s (.service (.event e ans)) s
  | service (a : Act) (y : Sys) (ha : ∀ e ans, a ≠ .event e ans) (hquiet : Quiet s.sys y)
      (hthread : s.work.running = true → s.sys.appliers .work = .idle → y.appliers .work = .idle) :
      Transition b s (.service a) { s with sys := y }
  | scheduled (howed : s.owed = true) :
      Transition b s .schedule { s with work := scheduleKeepalive s.work, owed := false }
  | expired (w : Item) (hw : s.work.expire = some w) : Transition b s .expire { s with work := w }
  | taken (w : Item) (hthread : s.sys.appliers .work = .idle) (hidle : s.handler = .idle)
      (hw : s.work.start = some w) : Transition b s .take { s with work := w, handler := .entered }
  | checked (hpc : s.handler = .entered) : Transition b s .check
      { s with handler := if pausedIn s.sys.svc then .returning else .sending }
  | sent (hpc : s.handler = .sending) :
      Transition b s .send { s with handler := .sent, uplinks := s.uplinks + 1 }
  | rescheduled (hpc : s.handler = .sent) : Transition b s .reschedule
      { s with handler := .returning, work := scheduleKeepalive s.work }
  | finished (hpc : s.handler = .returning) :
      Transition b s .finish { s with handler := .idle, work := s.work.finish }

theorem event_transition {e : Event} {ans : Answers}
    (h : step b s (.service (.event e ans)) = some t) :
    Transition b s (.service (.event e ans)) t := by
  simp only [step] at h
  split_ifs at h with howed hstarted
  · obtain ⟨y, hy, rfl⟩ := Option.map_eq_some_iff.1 h
    exact .event e ans y (Bool.of_not_eq_true howed) hstarted hy
  · obtain ⟨y, hy, rfl⟩ := Option.map_eq_some_iff.1 h
    cases Fuota.step_transition hy with
    | ignored => exact .ignored e ans (Bool.of_not_eq_true hstarted)
    | handled _ _ _ hs => exact absurd hs hstarted

theorem service_transition {a : Act} (ha : ∀ e ans, a ≠ .event e ans)
    (h : step b s (.service a) = some t) : Transition b s (.service a) t := by
  by_cases htake : a = .takeWork
  · subst htake
    simp only [step] at h
    split_ifs at h with hrun
    obtain ⟨y, hy, rfl⟩ := Option.map_eq_some_iff.1 h
    exact .service _ y ha (quiet_of_step ha hy) fun hr => absurd hr hrun
  · have hmap : (Fuota.step b s.sys a).map ({ s with sys := · }) = some t := by
      cases a with
      | event e ans => exact absurd rfl (ha e ans)
      | takeWork => exact absurd rfl htake
      | _ => exact h
    obtain ⟨y, hy, rfl⟩ := Option.map_eq_some_iff.1 hmap
    exact .service _ y ha (quiet_of_step ha hy) fun _ hidle => work_idle_step htake hidle hy

theorem transition_of_step {a : KAct} (h : step b s a = some t) : Transition b s a t := by
  cases a with
  | service a =>
    cases a with
    | event e ans => exact event_transition h
    | _ => exact service_transition (fun _ _ ha => by cases ha) h
  | schedule =>
    simp only [step] at h
    split_ifs at h with hc
    cases h
    exact .scheduled hc.1
  | expire =>
    obtain ⟨w, hw, rfl⟩ := Option.map_eq_some_iff.1 h
    exact .expired w hw
  | take =>
    simp only [step] at h
    split_ifs at h with hc
    obtain ⟨w, hw, rfl⟩ := Option.map_eq_some_iff.1 h
    exact .taken w hc.1 hc.2 hw
  | check =>
    obtain ⟨hpc, ht⟩ := Option.ite_none_right_eq_some.1 h
    cases ht
    exact .checked hpc
  | send =>
    simp only [step] at h
    split_ifs at h with hpc
    cases h
    exact .sent hpc
  | reschedule =>
    simp only [step] at h
    split_ifs at h with hpc
    cases h
    exact .rescheduled hpc
  | finish =>
    simp only [step] at h
    split_ifs at h with hpc
    cases h
    exact .finished hpc

/-- The keepalive moves; the service and what the dispatcher owes stay, or it owes nothing any more. -/
theorem Inv.keepalive {w : Item} {pc : Handler} {owed : Bool} {n : Nat} (h : Inv s)
    (hsound : Sound (decide (pc ≠ .idle)) w) (howed : owed = s.owed ∨ owed = false)
    (hthread : w.running = true → s.sys.appliers .work = .idle)
    (hstarted : s.sys.svc.started = true)
    (htransfer : s.sys.svc.state = .transferring → ¬ w.Waiting ∧ (w.running = true → w.canceling = true)) :
    Inv ⟨s.sys, w, pc, owed, n⟩ where
  running := by rw [hsound.running, decide_eq_true_iff]
  canceling := hsound.canceling
  once := hsound.once
  thread := hthread
  fresh hf := by
    rw [hstarted] at hf
    cases hf
  unready := h.unready
  transfer hst := by
    refine ⟨(htransfer hst).1, (htransfer hst).2, ?_⟩
    rcases howed with ho | ho
    · exact ho.trans (h.transfer hst).2.2
    · exact ho

theorem Inv.started (h : Inv s) (hwork : s.work ≠ .idle ∨ s.owed = true) :
    s.sys.svc.started = true := by
  refine Bool.of_not_eq_false fun hf => ?_
  rcases hwork with hwork | howed
  · exact hwork (h.fresh hf).1
  · exact Bool.false_ne_true ((h.fresh hf).2.symm.trans howed)

theorem Inv.started_running (h : Inv s) (hpc : s.handler ≠ .idle) : s.sys.svc.started = true := by
  have hrun := h.running.2 hpc
  exact h.started (.inl fun hidle => by rw [hidle] at hrun; cases hrun)

theorem Inv.sound_pc (h : Inv s) : Sound (decide (s.handler ≠ .idle)) s.work := by
  have hrun : s.work.running = decide (s.handler ≠ .idle) := by
    rw [Bool.eq_iff_iff, decide_eq_true_iff]
    exact h.running
  exact ⟨hrun, h.canceling, h.once⟩

theorem Inv.step {a : KAct} (h : Inv s) (ht : step b s a = some t) : Inv t := by
  cases transition_of_step ht with
  | event e ans y howed hstarted hy => exact h.event hstarted hy
  | ignored => exact h
  | service a y _ hquiet hthread =>
    exact h.service hquiet fun hrun => hthread hrun (h.thread hrun)
  | scheduled howed =>
    refine h.keepalive h.sound_pc.schedule (.inr rfl) ?_ (h.started (.inr howed)) fun hst => ?_
    · rw [h.sound_pc.schedule.running, ← h.sound_pc.running]
      exact h.thread
    · rw [(h.transfer hst).2.2] at howed
      cases howed
  | expired w hw =>
    obtain ⟨hwait, hwait', honce, hrun, hcancel⟩ := Item.expire_spec hw
    have hstarted : s.sys.svc.started = true :=
      h.started (.inl fun hidle => by rw [hidle] at hwait; exact Item.not_waiting_idle hwait)
    refine h.keepalive ⟨by rw [hrun, h.sound_pc.running], fun hc => ?_, honce⟩ (.inl rfl)
      (by rw [hrun]; exact h.thread) hstarted fun hst => absurd hwait (h.transfer hst).1
    rw [hcancel] at hc
    exact absurd hwait (h.canceling hc).2
  | taken w hthread hidle hw =>
    obtain ⟨hwait, hnot, honce, hrun, hcancel⟩ := Item.start_spec h.once hw
    have hstarted : s.sys.svc.started = true :=
      h.started (.inl fun hidle => by rw [hidle] at hwait; exact Item.not_waiting_idle hwait)
    exact h.keepalive ⟨hrun, fun _ => ⟨hrun, hnot⟩, honce⟩ (.inl rfl) (fun _ => hthread) hstarted
      fun hst => absurd hwait (h.transfer hst).1
  | checked hpc =>
    have hne : (if pausedIn s.sys.svc then Handler.returning else .sending) ≠ .idle := by
      split_ifs <;> simp
    refine h.keepalive ?_ (.inl rfl) h.thread (h.started_running (by rw [hpc]; simp)) fun hst =>
      ⟨(h.transfer hst).1, (h.transfer hst).2.1⟩
    rw [decide_eq_true hne]
    refine ⟨?_, h.canceling, h.once⟩
    exact h.running.2 (by rw [hpc]; simp)
  | sent hpc =>
    have hrun : s.work.running = true := h.running.2 (by rw [hpc]; simp)
    exact h.keepalive ⟨hrun, h.canceling, h.once⟩ (.inl rfl) h.thread
      (h.started_running (by rw [hpc]; simp)) fun hst => ⟨(h.transfer hst).1, (h.transfer hst).2.1⟩
  | rescheduled hpc =>
    have hrun : s.work.running = true := h.running.2 (by rw [hpc]; simp)
    have hsound : Sound true s.work := ⟨hrun, h.canceling, h.once⟩
    refine h.keepalive hsound.schedule (.inl rfl) (fun _ => h.thread hrun)
      (h.started_running (by rw [hpc]; simp)) fun hst => ?_
    have hcancel := (h.transfer hst).2.1 hrun
    rw [scheduleKeepalive, Item.schedule_refused rfl hcancel]
    exact ⟨(h.transfer hst).1, fun _ => hcancel⟩
  | finished hpc =>
    refine h.keepalive ⟨rfl, fun hc => (by cases hc), h.once⟩ (.inl rfl) (fun hr => by cases hr)
      (h.started_running (by rw [hpc]; simp)) fun hst => ⟨(h.transfer hst).1, fun hr => by cases hr⟩

/-! ### A keepalive that goes on -/

/-- The handler has still to schedule the next keepalive. -/
def Handler.busy : Handler → Bool
  | .entered | .sending | .sent => true
  | _ => false

/-- The item waits, or its handler will make it wait: nothing cancels it. -/
def Alive (s : Keep) : Prop :=
  s.work.canceling = false ∧ (s.work.Waiting ∨ s.handler.busy = true)

theorem Inv.alive_of_waiting (h : Inv s) (hw : s.work.Waiting) : Alive s :=
  ⟨Bool.eq_false_iff.2 fun hc => (h.canceling hc).2 hw, .inl hw⟩

/-- Steps of the timer and of the handler lead from `s` to `t`. -/
def Leads (b : Build) (s t : Keep) : Prop :=
  ∃ as, (∀ a ∈ as, a.isKeepalive = true) ∧ run (step b) s as = some t

theorem Leads.refl (s : Keep) : Leads b s s := ⟨[], by simp, rfl⟩

theorem Leads.trans (h : Leads b s t) (h' : Leads b t u) : Leads b s u := by
  obtain ⟨as, has, hrun⟩ := h
  obtain ⟨bs, hbs, hrun'⟩ := h'
  refine ⟨as ++ bs, fun a ha => ?_, ?_⟩
  · rcases List.mem_append.1 ha with ha | ha
    exacts [has a ha, hbs a ha]
  · clear has
    induction as generalizing s with
    | nil =>
      cases hrun
      exact hrun'
    | cons a as ih =>
      obtain ⟨r, hr, hrt⟩ := run_cons_eq_some.1 hrun
      exact run_cons_eq_some.2 ⟨r, hr, ih hrt⟩

theorem Leads.one {a : KAct} (ha : a.isKeepalive = true) (h : step b s a = some t) : Leads b s t :=
  ⟨[a], by simpa using ha, run_cons_eq_some.2 ⟨t, h, rfl⟩⟩

/-- `t` differs from `s` in the item and the handler only. -/
structure Beside (s t : Keep) : Prop where
  sys : t.sys = s.sys
  owed : t.owed = s.owed
  uplinks : t.uplinks = s.uplinks

theorem Beside.trans (h : Beside s t) (h' : Beside t u) : Beside s u :=
  ⟨h'.sys.trans h.sys, h'.owed.trans h.owed, h'.uplinks.trans h.uplinks⟩

/-- The steps that the keepalive is away from its next uplink, at most. -/
def rank (s : Keep) : Nat :=
  match s.handler with
  | .sending => 0
  | .entered => 1
  | .idle => if s.work.delayed then 3 else 2
  | .returning => 4
  | .sent => 5

/-- A keepalive that is alive comes a step closer to its next uplink. -/
theorem closer (halive : Alive s) (hthread : s.sys.appliers .work = .idle)
    (hrun : pausedIn s.sys.svc = false) (hpc : s.handler ≠ .sending) :
    ∃ a t, a.isKeepalive = true ∧ step b s a = some t ∧ Beside s t ∧ Alive t ∧ rank t < rank s := by
  obtain ⟨hcancel, hwait⟩ := halive
  cases hhandler : s.handler with
  | sending => exact absurd hhandler hpc
  | entered =>
    refine ⟨.check, { s with handler := .sending }, rfl, by simp [step, hhandler, hrun],
      ⟨rfl, rfl, rfl⟩, ⟨hcancel, .inr rfl⟩, by simp [rank, hhandler]⟩
  | sent =>
    have hwait' : (scheduleKeepalive s.work).Waiting := Item.waiting_schedule (by simp [hcancel])
    refine ⟨.reschedule, { s with handler := .returning, work := scheduleKeepalive s.work }, rfl,
      by simp [step, hhandler], ⟨rfl, rfl, rfl⟩, ⟨?_, .inl hwait'⟩, by simp [rank, hhandler]⟩
    rw [scheduleKeepalive, Item.schedule_canceling]
    exact hcancel
  | returning =>
    have hwait : s.work.Waiting := hwait.resolve_right (by rw [hhandler]; simp [Handler.busy])
    refine ⟨.finish, { s with handler := .idle, work := s.work.finish }, rfl, by simp [step, hhandler],
      ⟨rfl, rfl, rfl⟩, ⟨rfl, .inl hwait⟩, ?_⟩
    simp only [rank, hhandler]
    split_ifs <;> omega
  | idle =>
    have hwait : s.work.Waiting := hwait.resolve_right (by rw [hhandler]; simp [Handler.busy])
    rcases hwait with hd | hq
    · refine ⟨.expire, { s with work := { s.work with delayed := false, queued := true } }, rfl,
        by simp [step, Item.expire, hd], ⟨rfl, rfl, rfl⟩, ⟨hcancel, .inl (.inr rfl)⟩, ?_⟩
      simp [rank, hhandler, hd]
    · let w : Item := { s.work with queued := false, running := true }
      have hw : s.work.start = some w := by simp [Item.start, hq, w]
      refine ⟨.take, { s with work := w, handler := .entered }, rfl,
        by simp [step, hthread, hhandler, hw], ⟨rfl, rfl, rfl⟩, ⟨hcancel, .inr rfl⟩, ?_⟩
      simp only [rank, hhandler]
      split_ifs <;> omega

/-- From a keepalive that is alive the handler comes to its next uplink. -/
theorem leads_sending (halive : Alive s) (hthread : s.sys.appliers .work = .idle)
    (hrun : pausedIn s.sys.svc = false) :
    ∃ t, Leads b s t ∧ Beside s t ∧ Alive t ∧ t.handler = .sending := by
  induction hn : rank s using Nat.strong_induction_on generalizing s with
  | _ n ih =>
    subst hn
    by_cases hpc : s.handler = .sending
    · exact ⟨s, .refl s, ⟨rfl, rfl, rfl⟩, halive, hpc⟩
    · obtain ⟨a, r, ha, hr, hbeside, halive', hlt⟩ := closer (b := b) halive hthread hrun hpc
      rw [← hbeside.sys] at hthread hrun
      obtain ⟨t, hl, hb, ht⟩ := ih (rank r) hlt halive' hthread hrun rfl
      exact ⟨t, (Leads.one ha hr).trans hl, hbeside.trans hb, ht⟩

/-- One more uplink, and the keepalive is still alive. -/
theorem leads_uplink (halive : Alive s) (hthread : s.sys.appliers .work = .idle)
    (hrun : pausedIn s.sys.svc = false) :
    ∃ t, Leads b s t ∧ t.sys = s.sys ∧ Alive t ∧ t.uplinks = s.uplinks + 1 := by
  obtain ⟨r, hl, hbeside, halive', hpc⟩ := leads_sending (b := b) halive hthread hrun
  have hsend : step b r .send = some { r with handler := .sent, uplinks := r.uplinks + 1 } := by
    simp [step, hpc]
  refine ⟨_, hl.trans (.one rfl hsend), hbeside.sys, ⟨halive'.1, .inr rfl⟩, ?_⟩
  rw [hbeside.uplinks]

theorem continues_of_alive (halive : Alive s) (hthread : s.sys.appliers .work = .idle)
    (hrun : pausedIn s.sys.svc = false) : Continues b s := by
  intro n
  suffices hlead : ∃ t, Leads b s t ∧ t.sys = s.sys ∧ Alive t ∧ t.uplinks = s.uplinks + n by
    obtain ⟨t, ⟨as, has, hr⟩, -, -, hup⟩ := hlead
    exact ⟨as, t, has, hr, hup⟩
  induction n with
  | zero => exact ⟨s, .refl s, rfl, halive, rfl⟩
  | succ n ih =>
    obtain ⟨r, hl, hsys, halive', hup⟩ := ih
    obtain ⟨t, hl', hsys', halive'', hup'⟩ := leads_uplink (b := b) halive' (by rw [hsys]; exact hthread) (by rw [hsys]; exact hrun)
    refine ⟨t, hl.trans hl', hsys'.trans hsys, halive'', ?_⟩
    rw [hup', hup, Nat.add_assoc]

/-- Nothing will make the item wait again, and the handler sends one uplink more at most. -/
structure Dying (n : Nat) (s : Keep) : Prop where
  waiting : ¬ s.work.Waiting
  refused : s.handler.busy = true → s.work.canceling = true
  bound : s.uplinks + (if s.handler = .entered ∨ s.handler = .sending then 1 else 0) ≤ n

theorem Dying.step {n : Nat} {a : KAct} (h : Dying n s) (ha : a.isKeepalive = true)
    (ht : step b s a = some t) : Dying n t := by
  obtain ⟨hwait, hrefused, hbound⟩ := h
  cases transition_of_step ht with
  | event | ignored | service | scheduled => cases ha
  | expired w hw => exact absurd (Item.expire_spec hw).1 hwait
  | taken w _ _ hw => exact absurd (Item.waiting_of_start hw) hwait
  | checked hpc =>
    have hcancel := hrefused (by rw [hpc]; rfl)
    refine ⟨hwait, fun _ => hcancel, ?_⟩
    rw [if_pos (.inl hpc)] at hbound
    refine Nat.le_trans ?_ hbound
    split_ifs <;> simp
  | sent hpc =>
    have hcancel := hrefused (by rw [hpc]; rfl)
    refine ⟨hwait, fun _ => hcancel, ?_⟩
    rw [if_pos (.inr hpc)] at hbound
    simpa using hbound
  | rescheduled hpc =>
    have hcancel := hrefused (by rw [hpc]; rfl)
    rw [scheduleKeepalive, Item.schedule_refused rfl hcancel]
    refine ⟨hwait, (fun hb => by cases hb), ?_⟩
    simpa [hpc] using hbound
  | finished hpc => exact ⟨hwait, (fun hb => by cases hb), by simpa [hpc] using hbound⟩

theorem not_continues_of_dying {n : Nat} (h : Dying n s) (hn : n ≤ s.uplinks + 1) :
    ¬ Continues b s := by
  intro hc
  obtain ⟨as, t, has, hr, hup⟩ := hc 2
  have hmeets : Meets (step b) (fun _ a => a.isKeepalive = true) s as := .of_forall fun a ha _ => has a ha
  have hbound := (run_invariant (fun _ _ _ hd ha ht => Dying.step hd ha ht) h hmeets hr).bound
  omega

theorem continues_iff_alive (h : Inv s) (hthread : s.sys.appliers .work = .idle)
    (hrun : pausedIn s.sys.svc = false) : Continues b s ↔ Alive s := by
  refine ⟨fun hc => ?_, fun halive => continues_of_alive halive hthread hrun⟩
  by_contra hdead
  have hwait : ¬ s.work.Waiting := fun hw => hdead (h.alive_of_waiting hw)
  have hrefused (hb : s.handler.busy = true) : s.work.canceling = true :=
    Bool.of_not_eq_false fun hf => hdead ⟨hf, .inr hb⟩
  refine not_continues_of_dying (n := s.uplinks + 1) ⟨hwait, hrefused, ?_⟩ Nat.le.refl hc
  split_ifs <;> omega

/-! ### The keepalive over whole runs -/

/-- A device that waits for a transfer and is owed nothing has a keepalive that is alive. -/
structure Good (s : Keep) : Prop where
  inv : Inv s
  alive : Waits s → s.owed = false → Alive s

theorem Waits.not_paused (h : Inv s) (hw : Waits s) (halive : Alive s) :
    pausedIn s.sys.svc = false := by
  have hstarted : s.sys.svc.started = true := by
    rcases halive.2 with hwait | hbusy
    · exact h.started (.inl fun hidle => by rw [hidle] at hwait; exact Item.not_waiting_idle hwait)
    · exact h.started_running fun hpc => by rw [hpc] at hbusy; cases hbusy
  rcases hw with hw | hw <;> simp [pausedIn, hstarted, hw]

theorem Good.keepsAlive (h : Good s) : KeepsAlive b s := by
  intro hw howed hthread
  have halive := h.alive hw howed
  exact continues_of_alive halive hthread (Waits.not_paused h.inv hw halive)

theorem alive_of_service {y : Sys} (h : Good s) (hquiet : Quiet s.sys y)
    (hw : Waits { s with sys := y }) (howed : s.owed = false) : Alive s := by
  have hstate := hquiet.state (hw.elim .inl fun hw => .inr (.inl hw))
  refine h.alive ?_ howed
  show s.sys.svc.state = .ready ∨ s.sys.svc.state = .failed
  rw [hstate.1]
  exact hw

/-- An event that ends in READY or FAILED without owing a schedule was SESSION_ENDED, or left the state
as it was. -/
theorem Good.event {e : Event} {ans : Answers} {y : Sys} (h : Good s) (howed : s.owed = false)
    (hstarted : s.sys.svc.started = true)
    (hG : NoScheduleUnderCancel s (.service (.event e ans)))
    (hy : Fuota.step b s.sys (.event e ans) = some y)
    (hw : y.svc.state = .ready ∨ y.svc.state = .failed) (howes : eventOwes e = false) :
    Alive ⟨y, eventWork e s.sys.svc s.work, s.handler, eventOwes e, s.uplinks⟩ := by
  obtain ⟨-, -, hstate⟩ := event_svc hstarted hy
  have hst : y.svc.state = (eventState e (s.sys.svc.state, s.sys.svc.imageReady)).1 := by
    rw [← hstate]
  rw [hst] at hw
  have hkept (hw : Waits s) : Alive s := h.alive hw howed
  cases e with
  | joined => cases howes
  | joinFailed | sessionStarted => rcases hw with hw | hw <;> cases hw
  | transferDone successful size =>
    cases successful
    · cases howes
    · rcases hw with hw | hw <;> cases hw
  | stateChanged ready =>
    simp only [eventState, eventWork] at hw ⊢
    split_ifs at hw ⊢ with hc
    · rcases hw with hw | hw <;> cases hw
    · exact hkept hw
  | sessionEnded =>
    simp only [eventState, eventWork] at hw ⊢
    split_ifs at hw ⊢ with hc
    · have hcancel := hG hstarted hc.1 hc.2
      refine ⟨?_, .inl (Item.waiting_schedule (by simp [hcancel]))⟩
      rw [scheduleKeepalive, Item.schedule_canceling]
      exact hcancel
    · exact hkept hw
  | clockSynced | rebootRequested | other => exact hkept hw

theorem Good.step {a : KAct} (h : Good s) (hG : NoScheduleUnderCancel s a)
    (ht : step b s a = some t) : Good t := by
  refine ⟨h.inv.step ht, ?_⟩
  cases transition_of_step ht with
  | event e ans y howed hstarted hy => exact fun hw howes => h.event howed hstarted hG hy hw howes
  | ignored => exact h.alive
  | service a y _ hquiet _ => exact fun hw howed => alive_of_service (s := s) h hquiet hw howed
  | scheduled howed =>
    intro hw _
    have hcancel := hG hw
    refine ⟨?_, .inl (Item.waiting_schedule (by simp [hcancel]))⟩
    show (scheduleKeepalive s.work).canceling = false
    rw [scheduleKeepalive, Item.schedule_canceling]
    exact hcancel
  | expired w hw =>
    intro hwaits howed
    obtain ⟨-, hwait, -, -, hcancel⟩ := Item.expire_spec hw
    exact ⟨hcancel.trans (h.alive hwaits howed).1, .inl hwait⟩
  | taken w _ _ hw =>
    intro hwaits howed
    obtain ⟨-, -, -, -, hcancel⟩ := Item.start_spec h.inv.once hw
    exact ⟨hcancel.trans (h.alive hwaits howed).1, .inr rfl⟩
  | checked hpc =>
    intro hwaits howed
    have halive := h.alive hwaits howed
    rw [if_neg (Bool.eq_false_iff.1 (Waits.not_paused h.inv hwaits halive))]
    exact ⟨halive.1, .inr rfl⟩
  | sent hpc => exact fun hwaits howed => ⟨(h.alive hwaits howed).1, .inr rfl⟩
  | rescheduled hpc =>
    intro hwaits howed
    have hcancel := (h.alive hwaits howed).1
    refine ⟨?_, .inl (Item.waiting_schedule (by simp [hcancel]))⟩
    show (scheduleKeepalive s.work).canceling = false
    rw [scheduleKeepalive, Item.schedule_canceling]
    exact hcancel
  | finished hpc =>
    intro hwaits howed
    have hwait := (h.alive hwaits howed).2.resolve_right (by rw [hpc]; simp [Handler.busy])
    exact ⟨rfl, .inl hwait⟩

/-- A schedule that the kernel refuses to a device that waits ends the keepalive. -/
theorem broken_step {a : KAct} (h : Good s) (hG : ¬ NoScheduleUnderCancel s a)
    (ht : step b s a = some t) : ¬ KeepsAlive b t := by
  have hdead {y : Sys} (hc : s.work.canceling = true) (happ : y.appliers = s.sys.appliers)
      (hw : y.svc.state = .ready ∨ y.svc.state = .failed)
      (hinv : Inv ⟨y, scheduleKeepalive s.work, s.handler, false, s.uplinks⟩) :
      ¬ KeepsAlive b ⟨y, scheduleKeepalive s.work, s.handler, false, s.uplinks⟩ := by
    intro hk
    have hthread : y.appliers .work = .idle := by
      rw [happ]
      exact h.inv.thread (h.inv.canceling hc).1
    have hcontinues := hk hw rfl hthread
    have hrun : pausedIn y.svc = false := by
      have hstarted := hinv.started_running (h.inv.running.1 (h.inv.canceling hc).1)
      have hstarted' : y.svc.started = true := hstarted
      rcases hw with hw | hw <;> simp [pausedIn, hstarted', hw]
    have halive := (continues_iff_alive hinv hthread hrun).1 hcontinues
    have hcancel : (scheduleKeepalive s.work).canceling = false := halive.1
    rw [scheduleKeepalive, Item.schedule_canceling, hc] at hcancel
    cases hcancel
  cases transition_of_step ht with
  | event e ans y howed hstarted hy =>
    cases e with
    | sessionEnded =>
      simp only [NoScheduleUnderCancel, not_forall, Bool.not_eq_false] at hG
      obtain ⟨-, htransfer, hready, hc⟩ := hG
      obtain ⟨-, happ, hstate⟩ := event_svc hstarted hy
      have hwork : eventWork .sessionEnded s.sys.svc s.work = scheduleKeepalive s.work := by
        simp [eventWork, htransfer, hready]
      have hinv := h.inv.event hstarted hy
      rw [hwork] at hinv ⊢
      refine hdead hc happ (.inl ?_) hinv
      rw [eventState, if_pos ⟨htransfer, hready⟩] at hstate
      exact congrArg Prod.fst hstate
    | _ => exact absurd trivial hG
  | ignored e ans hstarted =>
    cases e with
    | sessionEnded =>
      simp only [NoScheduleUnderCancel, not_forall] at hG
      rw [hG.1] at hstarted
      cases hstarted
    | _ => exact absurd trivial hG
  | service a y ha =>
    cases a with
    | event e ans => exact absurd rfl (ha e ans)
    | _ => exact absurd trivial hG
  | scheduled howed =>
    simp only [NoScheduleUnderCancel, not_forall, Bool.not_eq_false] at hG
    obtain ⟨hw, hc⟩ := hG
    exact hdead hc rfl hw (h.inv.step ht)
  | _ => exact absurd trivial hG

/-- The keepalive of a device that waits for a transfer goes on in every state of a run exactly if the
dispatcher never schedules it, for such a device, while a handler that was cancelled still runs. -/
theorem keeps_alive_iff (b : Build) (as : List KAct) (hr : run (step b) .init as = some u) :
    Always (step b) (KeepsAlive b) .init as ↔ Meets (step b) NoScheduleUnderCancel .init as := by
  refine always_iff_meets (I := Good) (fun _ h => h.keepsAlive) (fun _ _ _ h hG ht => h.step hG ht)
    (fun _ _ _ h hG ht => broken_step h hG ht) ⟨.init, ?_⟩ hr
  rintro (h | h) <;> cases h

/-- A device that has joined sends its first keepalive and is about to send the next. -/
def firstKeepalive : List KAct :=
  [.service .start, .service (.event .joined goodAnswers), .service .dispatch, .schedule, .expire,
    .take, .check, .send, .reschedule, .finish]

theorem keeps_alive_first : Always (step fullBuild) (KeepsAlive fullBuild) .init firstKeepalive :=
  (keeps_alive_iff fullBuild firstKeepalive rfl).2 <|
    .cons rfl trivial <| .cons rfl trivial <| .cons rfl trivial <| .cons rfl (fun _ => rfl) <|
    .cons rfl trivial <| .cons rfl trivial <| .cons rfl trivial <| .cons rfl trivial <|
    .cons rfl trivial <| .cons rfl trivial trivial

/-! ### The uplinks of a session -/

/-- In a session the handler that was cancelled may still send: once. -/
theorem uplinks_step {n : Nat} {a : KAct} (hinv : Inv s) (hst : s.sys.svc.state = .transferring)
    (h : s.uplinks + (if s.handler = .sending then 1 else 0) ≤ n) (ht : step b s a = some t) :
    t.uplinks + (if t.handler = .sending then 1 else 0) ≤ n := by
  cases transition_of_step ht with
  | event | ignored | service | scheduled | expired => exact h
  | taken w hthread hidle hw => exact absurd (Item.waiting_of_start hw) (hinv.transfer hst).1
  | checked hpc =>
    rw [if_pos (by simp [pausedIn, hst])]
    simpa [hpc] using h
  | sent hpc =>
    rw [if_pos hpc] at h
    simpa using h
  | rescheduled hpc | finished hpc => simpa [hpc] using h

/-- While the device is TRANSFERRING, at most one keepalive is handed to `rzi_lorawan_send`, and only by a
handler that had passed its check before. -/
theorem uplink_of_transfer (b : Build) (as bs : List KAct) (hs : run (step b) .init as = some s)
    (ht : run (step b) s bs = some t)
    (hst : Always (step b) (fun s => s.sys.svc.state = .transferring) s bs) :
    t.uplinks ≤ s.uplinks + if s.handler = .sending then 1 else 0 := by
  have hinv : Inv s := run_invariant' (fun _ _ _ h ht => h.step ht) .init hs
  suffices h : ∀ {s bs} (n : Nat), Inv s → s.uplinks + (if s.handler = .sending then 1 else 0) ≤ n →
      Always (step b) (fun s => s.sys.svc.state = .transferring) s bs → run (step b) s bs = some t →
      t.uplinks ≤ n by
    exact h _ hinv Nat.le.refl hst ht
  intro s bs n hinv hn hst hrun
  induction bs generalizing s with
  | nil =>
    cases hrun
    exact Nat.le_trans (Nat.le_add_right _ _) hn
  | cons a bs ih =>
    obtain ⟨r, hr, hrt⟩ := run_cons_eq_some.1 hrun
    obtain ⟨hstate, hrest⟩ := always_cons.1 hst
    exact ih (hinv.step hr) (uplinks_step hinv hstate hn hr) (hrest r hr) hrt

/-- A session starts under a handler that has passed its check. -/
theorem uplink_of_transfer_started : ∃ s t,
    run (step fullBuild) .init (firstKeepalive.take 7 ++
      [.service (.event .sessionStarted goodAnswers)]) = some s ∧
    run (step fullBuild) s [.send] = some t ∧ s.uplinks = 0 ∧ t.uplinks = 1 ∧
    t.uplinks ≤ s.uplinks + if s.handler = .sending then 1 else 0 := by
  refine ⟨_, _, rfl, rfl, rfl, rfl, ?_⟩
  refine uplink_of_transfer fullBuild (firstKeepalive.take 7 ++
    [.service (.event .sessionStarted goodAnswers)]) [.send] rfl rfl ?_
  refine always_cons.2 ⟨rfl, fun t ht => always_nil.2 ?_⟩
  cases ht
  rfl

end Rzi.Fuota.Keepalive
