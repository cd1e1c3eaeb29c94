import Mathlib.Algebra.BigOperators.Fin
import Mathlib.Algebra.BigOperators.Group.Finset.Piecewise
import Mathlib.Data.Fintype.Basic
import Rzi.Err

/-!
# The power locks (`src/power/power.c`)

Five owners and the runtime switch share one native lock of all power states, which
`pm_policy_state_all_lock_get` takes and `pm_policy_state_all_lock_put` releases. `native` is the
number of calls of the one less that of the other. Each call holds `power_lock` from its checks to its
return, so a history is a list of calls. `lock_counting` is the account of the references over every
history.
-/

namespace Rzi.Power

/-- `enum rzi_power_lock`. -/
inductive Lock where
  | app | lorawan | flash | transport | update
deriving DecidableEq, Repr

/-- The owners by their numbers. -/
def Lock.all : List Lock := [.app, .lorawan, .flash, .transport, .update]

instance : Fintype Lock := ⟨⟨Lock.all, by decide⟩, fun lock => by cases lock <;> decide⟩

def Lock.number : Lock → Nat
  | .app => 0
  | .lorawan => 1
  | .flash => 2
  | .transport => 3
  | .update => 4

/-- The owner an argument of type `enum rzi_power_lock` names. -/
def Lock.ofNumber (lock : UInt32) : Option Lock := Lock.all[lock.toNat]?

structure State where
  isPmLocked : Bool
  lockCounts : Lock → UInt8
  native : Int

/-- The image after boot. -/
def State.init : State := ⟨false, fun _ => 0, 0⟩

/-! ### The calls -/

variable (configPm isr : Bool)

/-- `get_lock_mask_locked`. -/
def getLockMaskLocked (s : State) : BitVec 32 :=
  Lock.all.foldl (fun mask lock =>
    if s.lockCounts lock ≠ 0 then mask ||| (BitVec.twoPow 32 lock.number) else mask) 0

def setPmEnabled (enabled : Bool) (s : State) : Except Err Unit × State :=
  if isr then (.error .isr, s)
  else if !configPm then (.error .notSupported, s)
  else if !enabled && !s.isPmLocked then
    (.ok (), { s with native := s.native + 1, isPmLocked := true })
  else if enabled && s.isPmLocked then
    (.ok (), { s with native := s.native - 1, isPmLocked := false })
  else (.ok (), s)

/-- `rzi_power_get_pm_enabled`; `dest` is false for a NULL pointer. -/
def getPmEnabled (dest : Bool) (s : State) : Except Err Bool :=
  if isr then .error .isr
  else if !dest then .error .invalid
  else .ok (configPm && !s.isPmLocked)

def lockGet (lock : UInt32) (s : State) : Except Err Unit × State :=
  if isr then (.error .isr, s)
  else
    match Lock.ofNumber lock with
    | none => (.error .invalid, s)
    | some lock =>
      if s.lockCounts lock = 255 then (.error .noResource, s)
      else
        (.ok (), { s with
          native := s.native + 1
          lockCounts := Function.update s.lockCounts lock (s.lockCounts lock + 1) })

def lockPut (lock : UInt32) (s : State) : Except Err Unit × State :=
  if isr then (.error .isr, s)
  else
    match Lock.ofNumber lock with
    | none => (.error .invalid, s)
    | some lock =>
      if s.lockCounts lock = 0 then (.error .invalid, s)
      else
        (.ok (), { s with
          lockCounts := Function.update s.lockCounts lock (s.lockCounts lock - 1)
          native := s.native - 1 })

/-- `rzi_power_get_lock_mask`. -/
def getLockMask (dest : Bool) (s : State) : Except Err (BitVec 32) :=
  if isr then .error .isr
  else if !dest then .error .invalid
  else .ok (getLockMaskLocked s)

/-- The calls that can change something; `isr` tells where each is made. -/
inductive Call where
  | setPmEnabled (isr enabled : Bool)
  | lockGet (isr : Bool) (lock : UInt32)
  | lockPut (isr : Bool) (lock : UInt32)
deriving DecidableEq, Repr

def Call.run : Call → State → Except Err Unit × State
  | .setPmEnabled isr enabled => Power.setPmEnabled configPm isr enabled
  | .lockGet isr lock => Power.lockGet isr lock
  | .lockPut isr lock => Power.lockPut isr lock

/-- The state after a history of calls. -/
def after (calls : List Call) : State := calls.foldl (fun s call => (call.run configPm s).2) .init

/-- The references an owner has been given over a history, and those it has given back. -/
def Call.takes (lock : Lock) : Call → Bool
  | .lockGet _ raw => Lock.ofNumber raw = some lock
  | _ => false

def Call.gives (lock : Lock) : Call → Bool
  | .lockPut _ raw => Lock.ofNumber raw = some lock
  | _ => false

/-- How many of the calls that meet `p` succeed. -/
def succeeded (p : Call → Bool) : State → List Call → Nat
  | _, [] => 0
  | s, call :: calls =>
    (p call && (call.run configPm s).1.isOk).toNat + succeeded p (call.run configPm s).2 calls

/-- What the switch was last set to, after a call and its result. -/
def Call.sets (last : Bool) : Call → Except Err Unit → Bool
  | .setPmEnabled _ enabled, .ok () => enabled
  | _, _ => last

/-- What the last successful call of a history to set the switch asked for; `last` where there is none. -/
def lastSet : State → Bool → List Call → Bool
  | _, last, [] => last
  | s, last, call :: calls => lastSet (call.run configPm s).2 (call.sets last (call.run configPm s).1) calls

/-! ### What a call does -/

variable {configPm isr : Bool} {s t : State} {call : Call} {rc : Except Err Unit}

/-- Everything a call can do: fail, repeat the switch, or move one reference. -/
inductive Effect (configPm : Bool) (s : State) : Call → Except Err Unit → State → Prop
  | failed (call : Call) (e : Err) : Effect configPm s call (.error e) s
  | same (isr : Bool) : Effect configPm s (.setPmEnabled isr (!s.isPmLocked)) (.ok ()) s
  | switched (isr : Bool) (hpm : configPm = true) :
      Effect configPm s (.setPmEnabled isr s.isPmLocked) (.ok ()) { s with
        native := s.native + (if s.isPmLocked then -1 else 1)
        isPmLocked := !s.isPmLocked }
  | got (isr : Bool) (raw : UInt32) (lock : Lock) (hlock : Lock.ofNumber raw = some lock)
      (hfull : s.lockCounts lock ≠ 255) :
      Effect configPm s (.lockGet isr raw) (.ok ()) { s with
        native := s.native + 1
        lockCounts := Function.update s.lockCounts lock (s.lockCounts lock + 1) }
  | put (isr : Bool) (raw : UInt32) (lock : Lock) (hlock : Lock.ofNumber raw = some lock)
      (hzero : s.lockCounts lock ≠ 0) :
      Effect configPm s (.lockPut isr raw) (.ok ()) { s with
        lockCounts := Function.update s.lockCounts lock (s.lockCounts lock - 1)
        native := s.native - 1 }

theorem setPmEnabled_effect (configPm isr enabled : Bool) (s : State) :
    Effect configPm s (.setPmEnabled isr enabled) (setPmEnabled configPm isr enabled s).1
      (setPmEnabled configPm isr enabled s).2 := by
  unfold setPmEnabled
  split
  · exact .failed _ _
  split
  · exact .failed _ _
  rename_i hpm
  have hswitched := Effect.switched (s := s) isr (by simpa using hpm : configPm = true)
  split
  · rename_i h
    obtain ⟨he, hl⟩ : enabled = false ∧ s.isPmLocked = false := by simpa using h
    rw [hl] at hswitched
    rw [he]
    exact hswitched
  split
  · rename_i h
    obtain ⟨he, hl⟩ : enabled = true ∧ s.isPmLocked = true := by simpa using h
    rw [hl] at hswitched
    rw [he]
    exact hswitched
  · rename_i h₁ h₂
    have he : enabled = !s.isPmLocked := by
      cases enabled <;> cases hl : s.isPmLocked <;> simp_all
    rw [he]
    exact .same isr

theorem lockGet_effect (configPm isr : Bool) (raw : UInt32) (s : State) :
    Effect configPm s (.lockGet isr raw) (lockGet isr raw s).1 (lockGet isr raw s).2 := by
  unfold lockGet
  split
  · exact .failed _ _
  split
  · exact .failed _ _
  rename_i lock hlock
  split
  · exact .failed _ _
  · rename_i hfull
    exact .got isr raw lock hlock hfull

theorem lockPut_effect (configPm isr : Bool) (raw : UInt32) (s : State) :
    Effect configPm s (.lockPut isr raw) (lockPut isr raw s).1 (lockPut isr raw s).2 := by
  unfold lockPut
  split
  · exact .failed _ _
  split
  · exact .failed _ _
  rename_i lock hlock
  split
  · exact .failed _ _
  · rename_i hzero
    exact .put isr raw lock hlock hzero

theorem call_effect (configPm : Bool) (call : Call) (s : State) :
    Effect configPm s call (call.run configPm s).1 (call.run configPm s).2 := by
  cases call with
  | setPmEnabled isr enabled => exact setPmEnabled_effect configPm isr enabled s
  | lockGet isr raw => exact lockGet_effect configPm isr raw s
  | lockPut isr raw => exact lockPut_effect configPm isr raw s

/-- A call that fails changes nothing. -/
theorem call_error {e : Err} (h : (call.run configPm s).1 = .error e) :
    (call.run configPm s).2 = s := by
  have heff := call_effect configPm call s
  rw [h] at heff
  generalize (call.run configPm s).2 = t at heff ⊢
  cases heff
  rfl

/-! ### The native lock -/

/-- One reference more of one owner is one more in all. -/
theorem sum_update (f : Lock → UInt8) (lock : Lock) (v : UInt8) :
    (∑ l, (Function.update f lock v l).toNat) + (f lock).toNat = (∑ l, (f l).toNat) + v.toNat := by
  have hnat : ∀ l, (Function.update f lock v l).toNat =
      Function.update (fun l => (f l).toNat) lock v.toNat l := fun l =>
    Function.apply_update (fun _ => UInt8.toNat) f lock v l
  have hsum := Finset.sum_update_of_mem (Finset.mem_univ lock) (fun l => (f l).toNat) v.toNat
  have hsplit := Fintype.sum_eq_sum_compl_add lock fun l => (f l).toNat
  rw [Finset.sum_congr rfl fun l _ => hnat l, hsum]
  rw [← Finset.compl_eq_univ_sdiff]
  omega

theorem toNat_succ {n : UInt8} (h : n ≠ 255) : (n + 1).toNat = n.toNat + 1 := by
  have hlt := n.toNat_lt
  have hne : n.toNat ≠ 255 := fun hn => h (UInt8.toNat_inj.1 hn)
  rw [UInt8.toNat_add]
  show (n.toNat + 1) % 256 = _
  omega

theorem toNat_pred {n : UInt8} (h : n ≠ 0) : (n - 1).toNat + 1 = n.toNat := by
  have hlt := n.toNat_lt
  have hne : n.toNat ≠ 0 := fun hn => h (UInt8.toNat_inj.1 hn)
  rw [UInt8.toNat_sub]
  show (256 - 1 + n.toNat) % 256 + 1 = _
  omega

/-- The native lock is taken once for the switch that is off and once for each reference. -/
structure Balanced (configPm : Bool) (s : State) : Prop where
  native : s.native = s.isPmLocked.toNat + ∑ lock, ((s.lockCounts lock).toNat : Int)
  switch : s.isPmLocked = true → configPm = true

theorem balanced_init : Balanced configPm .init := ⟨by decide, by simp [State.init]⟩

theorem Effect.balanced (heff : Effect configPm s call rc t) (h : Balanced configPm s) :
    Balanced configPm t := by
  cases heff with
  | failed => exact h
  | same => exact h
  | switched isr hpm =>
    refine ⟨?_, fun _ => hpm⟩
    have hn := h.native
    cases hl : s.isPmLocked <;> simp [hl] at hn ⊢ <;> omega
  | got isr raw lock hlock hfull =>
    refine ⟨?_, h.switch⟩
    have hn := h.native
    have hsum := sum_update s.lockCounts lock (s.lockCounts lock + 1)
    rw [toNat_succ hfull] at hsum
    show s.native + 1 = s.isPmLocked.toNat +
      ∑ l, ((Function.update s.lockCounts lock (s.lockCounts lock + 1) l).toNat : Int)
    rw [← Nat.cast_sum] at hn ⊢
    omega
  | put isr raw lock hlock hzero =>
    refine ⟨?_, h.switch⟩
    have hn := h.native
    have hsum := sum_update s.lockCounts lock (s.lockCounts lock - 1)
    have hpred := toNat_pred hzero
    show s.native - 1 = s.isPmLocked.toNat +
      ∑ l, ((Function.update s.lockCounts lock (s.lockCounts lock - 1) l).toNat : Int)
    rw [← Nat.cast_sum] at hn ⊢
    omega

theorem balanced_after (calls : List Call) : Balanced configPm (after configPm calls) := by
  refine List.foldlRecOn calls _ balanced_init fun s h call _ => ?_
  exact (call_effect configPm call s).balanced h

/-! ### The switch -/

theorem Effect.isPmLocked (heff : Effect configPm s call rc t) :
    t.isPmLocked = !call.sets (!s.isPmLocked) rc := by
  cases heff with
  | failed call e => cases call <;> simp [Call.sets]
  | _ => simp [Call.sets]

theorem foldl_lastSet (configPm : Bool) (calls : List Call) (s : State) :
    (calls.foldl (fun s call => (call.run configPm s).2) s).isPmLocked =
      !lastSet configPm s (!s.isPmLocked) calls := by
  induction calls generalizing s with
  | nil => simp [lastSet]
  | cons call calls ih =>
    have hstep := (call_effect configPm call s).isPmLocked
    rw [List.foldl_cons, ih, hstep, lastSet, Bool.not_not]

/-! ### The references of an owner -/

/-- The range check on the argument. -/
theorem ofNumber_eq_some {raw : UInt32} {lock : Lock} :
    Lock.ofNumber raw = some lock ↔ raw.toNat = lock.number := by
  unfold Lock.ofNumber
  constructor
  · intro h
    obtain ⟨hlt, hget⟩ := List.getElem?_eq_some_iff.1 h
    have hall : ∀ i, ∀ hi : i < Lock.all.length, Lock.all[i].number = i := by decide
    rw [← hget, hall]
  · intro h
    rw [h]
    cases lock <;> rfl

/-- What a call does to the count of an owner; no count wraps. -/
theorem Effect.counted (heff : Effect configPm s call rc t) (lock : Lock) :
    (t.lockCounts lock).toNat + (call.gives lock && rc.isOk).toNat =
      (s.lockCounts lock).toNat + (call.takes lock && rc.isOk).toNat := by
  cases heff with
  | failed => simp [Except.isOk, Except.toBool]
  | same => rfl
  | switched => rfl
  | got isr raw owner hlock hfull =>
    show (Function.update s.lockCounts owner (s.lockCounts owner + 1) lock).toNat + 0 =
      _ + (decide (Lock.ofNumber raw = some lock) && true).toNat
    rw [hlock]
    by_cases hl : lock = owner
    · subst hl
      simp [toNat_succ hfull]
    · simp [hl, Ne.symm hl]
  | put isr raw owner hlock hzero =>
    show (Function.update s.lockCounts owner (s.lockCounts owner - 1) lock).toNat +
      (decide (Lock.ofNumber raw = some lock) && true).toNat = _ + 0
    rw [hlock]
    by_cases hl : lock = owner
    · subst hl
      simp [toNat_pred hzero]
    · simp [hl, Ne.symm hl]

theorem foldl_count (configPm : Bool) (calls : List Call) (s : State) (lock : Lock) :
    ((calls.foldl (fun s call => (call.run configPm s).2) s).lockCounts lock).toNat +
        succeeded configPm (Call.gives lock) s calls =
      (s.lockCounts lock).toNat + succeeded configPm (Call.takes lock) s calls := by
  induction calls generalizing s with
  | nil => rfl
  | cons call calls ih =>
    have hstep := (call_effect configPm call s).counted lock
    have hrest := ih (call.run configPm s).2
    simp only [List.foldl_cons, succeeded]
    omega

/-! ### The mask -/

/-- The bits that a fold over owners with distinct bits sets. -/
theorem foldl_mask_bit (p : Lock → Prop) [DecidablePred p] (locks : List Lock) (mask : BitVec 32)
    (i : Nat) :
    (locks.foldl (fun mask lock => if p lock then mask ||| BitVec.twoPow 32 lock.number else mask)
        mask).getLsbD i = true ↔
      mask.getLsbD i = true ∨ ∃ lock ∈ locks, p lock ∧ lock.number = i := by
  induction locks generalizing mask with
  | nil => simp
  | cons lock locks ih =>
    have hbit : (BitVec.twoPow 32 lock.number).getLsbD i = true ↔ lock.number = i := by
      have hlt : lock.number < 32 := by cases lock <;> decide
      rw [BitVec.getLsbD_twoPow, Bool.and_eq_true, decide_eq_true_eq, decide_eq_true_eq]
      omega
    rw [List.foldl_cons, ih]
    split
    · rename_i hp
      rw [BitVec.getLsbD_or, Bool.or_eq_true, hbit, or_assoc]
      simp [hp]
    · rename_i hp
      simp [hp]

theorem getLockMaskLocked_bit (s : State) (i : Nat) : (getLockMaskLocked s).getLsbD i = true ↔
    ∃ lock : Lock, s.lockCounts lock ≠ 0 ∧ lock.number = i := by
  have hall : ∀ lock, lock ∈ Lock.all := fun lock => by cases lock <;> decide
  rw [getLockMaskLocked, foldl_mask_bit fun lock => s.lockCounts lock ≠ 0]
  simp [hall]

/-! ### The account -/

theorem lockGet_fails_iff {raw : UInt32} {lock : Lock} (h : raw.toNat = lock.number) :
    (lockGet false raw s).1 ≠ .ok () ↔ s.lockCounts lock = 255 := by
  unfold lockGet
  rw [ofNumber_eq_some.2 h]
  simp only [Bool.false_eq_true, if_false]
  split <;> simp_all

theorem lockPut_fails_iff {raw : UInt32} {lock : Lock} (h : raw.toNat = lock.number) :
    (lockPut false raw s).1 ≠ .ok () ↔ s.lockCounts lock = 0 := by
  unfold lockPut
  rw [ofNumber_eq_some.2 h]
  simp only [Bool.false_eq_true, if_false]
  split <;> simp_all

theorem setPmEnabled_twice (configPm isr enabled : Bool) (s : State) :
    setPmEnabled configPm isr enabled (setPmEnabled configPm isr enabled s).2 =
      ((setPmEnabled configPm isr enabled s).1, (setPmEnabled configPm isr enabled s).2) := by
  unfold setPmEnabled
  cases isr <;> cases configPm <;> cases enabled <;> cases hl : s.isPmLocked <;> simp [hl]

/-- Over every history of calls: the native lock is taken once for the switch that is off and once for
each reference; the switch is as it was last successfully set, and on where it never was; the count of an
owner is what it was given less what it gave back; a call fails only where its owner's count is at its
end, and then changes nothing; the mask names the owners with a reference; and the switch may be set
again. -/
theorem lock_counting (configPm : Bool) (calls : List Call) :
    (after configPm calls).native = (after configPm calls).isPmLocked.toNat +
        ∑ lock, (((after configPm calls).lockCounts lock).toNat : Int) ∧
      (after configPm calls).isPmLocked = !lastSet configPm .init true calls ∧
      (∀ lock, ((after configPm calls).lockCounts lock).toNat +
          succeeded configPm (Call.gives lock) .init calls =
        succeeded configPm (Call.takes lock) .init calls) ∧
      (∀ lock (raw : UInt32), raw.toNat = lock.number →
        ((lockPut false raw (after configPm calls)).1 ≠ .ok () ↔
          (after configPm calls).lockCounts lock = 0) ∧
        ((lockGet false raw (after configPm calls)).1 ≠ .ok () ↔
          (after configPm calls).lockCounts lock = 255)) ∧
      (∀ call : Call, (call.run configPm (after configPm calls)).1 ≠ .ok () →
        (call.run configPm (after configPm calls)).2 = after configPm calls) ∧
      (∀ i, (getLockMaskLocked (after configPm calls)).getLsbD i = true ↔
        ∃ lock : Lock, (after configPm calls).lockCounts lock ≠ 0 ∧ lock.number = i) ∧
      ∀ isr enabled,
        setPmEnabled configPm isr enabled
            (setPmEnabled configPm isr enabled (after configPm calls)).2 =
          setPmEnabled configPm isr enabled (after configPm calls) := by
  refine ⟨(balanced_after calls).native, foldl_lastSet configPm calls .init, fun lock => ?_,
    fun lock raw h => ?_, fun call h => ?_, getLockMaskLocked_bit _,
    fun isr enabled => setPmEnabled_twice configPm isr enabled _⟩
  · have hcount := foldl_count configPm calls .init lock
    rw [show ((State.init.lockCounts lock).toNat) = 0 from rfl, Nat.zero_add] at hcount
    exact hcount
  · exact ⟨lockPut_fails_iff h, lockGet_fails_iff h⟩
  · cases hrc : (call.run configPm (after configPm calls)).1 with
    | error e => exact call_error hrc
    | ok u => exact absurd hrc h

end Rzi.Power
