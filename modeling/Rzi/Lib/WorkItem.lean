import Mathlib.Tactic.SplitIfs

/-!
# Work items of a kernel work queue

One item of a work queue: it may wait for a delay to expire, wait in the queue, run, and be under
cancellation while it runs. An item can be scheduled again while its own handler still runs.
Whether a kernel accepts a new submission during a cancellation is the parameter `rejects`.
-/

namespace WorkQueue

structure Item where
  delayed : Bool
  queued : Bool
  running : Bool
  canceling : Bool
deriving DecidableEq, Repr

namespace Item
variable {w w' : Item} {rejects noWait : Bool}

def idle : Item := ⟨false, false, false, false⟩

/-- The item will run (again): its delay is counting or it is in the queue. -/
def Waiting (w : Item) : Prop := w.delayed = true ∨ w.queued = true

instance : Decidable w.Waiting := inferInstanceAs (Decidable (_ ∨ _))

/-- Schedule the item, unless it waits already or the kernel refuses it for now. -/
def schedule (rejects noWait : Bool) (w : Item) : Item :=
  if w.delayed || w.queued || (rejects && w.canceling) then w
  else if noWait then { w with queued := true }
  else { w with delayed := true }

/-- Put the item into the queue, unless it is there or the kernel refuses it for now. -/
def submit (rejects : Bool) (w : Item) : Item :=
  if w.queued || (rejects && w.canceling) then w else { w with queued := true }

/-- Cancel: the item no longer waits; if its handler runs, the cancellation lasts until it ends. -/
def cancel (w : Item) : Item :=
  { delayed := false, queued := false, running := w.running, canceling := w.running || w.canceling }

def cancelBusy (w : Item) : Bool := w.running || w.canceling

def expire (w : Item) : Option Item :=
  if w.delayed then some { w with delayed := false, queued := true } else none

def start (w : Item) : Option Item :=
  if w.queued then some { w with queued := false, running := true } else none

/-- The handler returns, which completes a cancellation. -/
def finish (w : Item) : Item := { w with running := false, canceling := false }

@[simp] theorem not_waiting_idle : ¬ idle.Waiting := by simp [Waiting, idle]

@[simp] theorem not_waiting_cancel : ¬ w.cancel.Waiting := by simp [Waiting, cancel]

@[simp] theorem schedule_running : (w.schedule rejects noWait).running = w.running := by
  unfold schedule; split_ifs <;> rfl

@[simp] theorem schedule_canceling : (w.schedule rejects noWait).canceling = w.canceling := by
  unfold schedule; split_ifs <;> rfl

/-- A scheduled item waits, unless the kernel refused it. -/
theorem waiting_schedule (h : ¬ (rejects = true ∧ w.canceling = true)) :
    (w.schedule rejects noWait).Waiting := by
  unfold schedule Waiting
  cases hd : w.delayed <;> cases hq : w.queued <;> cases hr : rejects <;> cases hc : w.canceling <;>
    cases noWait <;> simp_all

theorem schedule_refused (hr : rejects = true) (hc : w.canceling = true) :
    w.schedule rejects noWait = w := by
  simp [schedule, hr, hc]

/-- The item waits in one place at most. -/
def Once (w : Item) : Prop := w.delayed = true → w.queued = false

theorem once_idle : idle.Once := fun h => by cases h

theorem once_cancel : w.cancel.Once := fun _ => rfl

theorem Once.schedule (h : w.Once) : (w.schedule rejects noWait).Once := by
  unfold Item.schedule
  split_ifs with hw
  · exact h
  · intro hd
    simp [show w.delayed = true from hd] at hw
  · intro _
    simp only [Bool.or_eq_true, not_or] at hw
    simpa using hw.1.2

theorem expire_spec (h : w.expire = some w') :
    w.Waiting ∧ w'.Waiting ∧ w'.Once ∧ w'.running = w.running ∧ w'.canceling = w.canceling := by
  unfold expire at h
  split_ifs at h with hd
  cases h
  exact ⟨.inl hd, .inr rfl, (fun hd => by cases hd), rfl, rfl⟩

theorem waiting_of_start (h : w.start = some w') : w.Waiting := by
  unfold start at h
  split_ifs at h with hq
  exact .inr hq

theorem start_spec (hw : w.Once) (h : w.start = some w') :
    w.Waiting ∧ ¬ w'.Waiting ∧ w'.Once ∧ w'.running = true ∧ w'.canceling = w.canceling := by
  unfold start at h
  split_ifs at h with hq
  cases h
  refine ⟨.inr hq, ?_, fun _ => rfl, rfl, rfl⟩
  rintro (hd | hq')
  · simp [hw hd] at hq
  · cases hq'

end Item

end WorkQueue
