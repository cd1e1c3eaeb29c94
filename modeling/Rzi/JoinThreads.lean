import Rzi.LorawanService
import Rzi.Lib.Run
import Mathlib.Logic.Function.Basic

/-!
# The join sequence as its threads execute it

`rzi_lorawan_join`, the dispatcher's handling of JOINED and JOIN_FAILED and the credential setters,
taken apart: every atomic operation and every section under `credential_lock` is a step of its own,
and any thread may take the next one. What a call still does after its last access to the sequence
(asking the backend, publishing, calling subscribers) is one step. The service is started, and its
threads are the elements of `ι`, the dispatcher one of them. `alone_join` and `alone_event` say that
a call that is not interleaved does what `LorawanService` says.
-/

namespace Rzi.Lorawan
open Zephyr (JoinConfig)

/-- Where a thread is. -/
inductive Pc where
  /-- in no call -/
  | idle
  /-- in `rzi_lorawan_join`, past its look at the flag; `start` is 1 or 0 -/
  | policyDue (start : Bool) (policy : Policy)
  /-- in `begin_join`, before `rzi_lorawan_get_activation` -/
  | activationDue
  /-- before `rzi_lorawan_get_join_attempts` -/
  | attemptsDue
  /-- before `rzi_lorawan_credentials_build_config` -/
  | configDue (attempts : UInt8)
  /-- before the `atomic_cas` of `join_sequence_active` -/
  | casDue (config : JoinConfig) (attempts : UInt8)
  /-- before `join_retries_remaining` is set -/
  | retriesDue (config : JoinConfig) (attempts : UInt8)
  /-- before `rzi_lorawan_credentials_set_join_active(true)` -/
  | activeDue (config : JoinConfig)
  /-- before `backend.join`; `inForce` and `retries` are the store and the counter at the moment
  `join_active` was set, which the code does not keep -/
  | joinDue (config : JoinConfig) (inForce : CredentialStore) (retries : Int)
  /-- in `stop_join`, before it reads `join_sequence_active` -/
  | stopDue
  /-- in `clear_join_sequence`, before each of its three steps -/
  | clearFlagDue
  | clearRetriesDue
  | clearActiveDue
  /-- past the last access to the sequence -/
  | finishing
  /-- in `swallow_join_event` on JOIN_FAILED, before it reads `join_sequence_active` -/
  | failedDue
  /-- before it reads `join_retries_remaining` -/
  | failedRetriesDue
  /-- before `atomic_dec` -/
  | failedDecDue
deriving DecidableEq

/-- A call of `backend.join`, with the store and the counter when `join_active` was set for it. -/
structure JoinCall where
  config : JoinConfig
  inForce : CredentialStore
  retries : Int
deriving DecidableEq

/-- The variables the threads share, and the calls of `backend.join` so far. -/
structure Shared where
  joinSequenceActive : Bool
  joinRetriesRemaining : Int
  credentials : CredentialStore
  calls : List JoinCall
deriving DecidableEq

structure Threads (ι : Type*) where
  shared : Shared
  pc : ι → Pc

def Pc.ofResult {α : Type*} (r : Except Err α) (f : α → Pc) : Pc :=
  match r with
  | .error _ => .idle
  | .ok v => f v

/-- The next step of a thread at `pc`. -/
def advance (build : Build) (env : Env) (m : Shared) : Pc → Pc × Shared
  | .idle => (.idle, m)
  | .policyDue start policy =>
    (.ofResult (updatePolicy policy env.settings m.credentials).1
        fun _ => if start then .activationDue else .stopDue,
      { m with credentials := (updatePolicy policy env.settings m.credentials).2 })
  | .activationDue =>
    (.ofResult (getActivation env.settings m.credentials).1
        fun mode => if activationSupported build mode then .attemptsDue else .idle,
      { m with credentials := (getActivation env.settings m.credentials).2 })
  | .attemptsDue =>
    (.ofResult (getJoinAttempts env.settings m.credentials).1 .configDue,
      { m with credentials := (getJoinAttempts env.settings m.credentials).2 })
  | .configDue attempts =>
    (.ofResult (buildConfig build env.settings m.credentials).1 (.casDue · attempts),
      { m with credentials := (buildConfig build env.settings m.credentials).2 })
  | .casDue config attempts =>
    if m.joinSequenceActive then (.idle, m)
    else (.retriesDue config attempts, { m with joinSequenceActive := true })
  | .retriesDue config attempts =>
    (.activeDue config, { m with joinRetriesRemaining := attempts.toNat })
  | .activeDue config =>
    (.joinDue config m.credentials m.joinRetriesRemaining,
      { m with credentials := setJoinActive true m.credentials })
  | .joinDue config inForce retries =>
    (match env.join with
      | .error _ => .clearFlagDue
      | .ok () => .idle,
      { m with calls := m.calls ++ [⟨config, inForce, retries⟩] })
  | .stopDue => (.clearFlagDue, m)
  | .clearFlagDue => (.clearRetriesDue, { m with joinSequenceActive := false })
  | .clearRetriesDue => (.clearActiveDue, { m with joinRetriesRemaining := 0 })
  | .clearActiveDue => (.finishing, { m with credentials := setJoinActive false m.credentials })
  | .finishing => (.idle, m)
  | .failedDue => (if m.joinSequenceActive then .failedRetriesDue else .finishing, m)
  | .failedRetriesDue => (if 0 < m.joinRetriesRemaining then .failedDecDue else .clearFlagDue, m)
  | .failedDecDue => (.idle, { m with joinRetriesRemaining := m.joinRetriesRemaining - 1 })

inductive ThreadAct (ι : Type*) where
  /-- `rzi_lorawan_join` is called, with `start` 1 or 0, and looks at the flag -/
  | join (i : ι) (start : Bool) (policy : Policy)
  /-- the dispatcher takes a JOINED or a JOIN_FAILED -/
  | event (i : ι) (joined : Bool)
  /-- the thread takes its next step -/
  | next (i : ι) (env : Env)
  /-- a setter's section, on any thread -/
  | set (setter : Setter) (a : Answers)

section Step
variable {ι : Type*} [DecidableEq ι]

def Threads.goto (x : Threads ι) (i : ι) (pc : Pc) : Threads ι :=
  { x with pc := Function.update x.pc i pc }

def threadStep (build : Build) (x : Threads ι) : ThreadAct ι → Option (Threads ι)
  | .join i start policy =>
    if x.pc i ≠ .idle then none
    else if start && x.shared.joinSequenceActive then some x
    else some (x.goto i (.policyDue start policy))
  | .event i joined =>
    if x.pc i ≠ .idle then none
    else some (x.goto i (if joined then .clearFlagDue else .failedDue))
  | .next i env =>
    if x.pc i = .idle then none
    else some ⟨(advance build env x.shared (x.pc i)).2,
      Function.update x.pc i (advance build env x.shared (x.pc i)).1⟩
  | .set setter a =>
    some { x with shared := { x.shared with
      credentials := (setter.call build a x.shared.credentials).2 } }

/-- The image: no thread is in a call, and no sequence is active. -/
def Threads.init : Threads ι := ⟨⟨false, 0, .empty, []⟩, fun _ => .idle⟩

end Step

/-! ### A call that is not interleaved -/

/-- `k` steps of a thread with nothing in between. -/
def alone (build : Build) (env : Env) : Nat → Pc × Shared → Pc × Shared
  | 0, x => x
  | k + 1, x => alone build env k (advance build env x.2 x.1)

/-- The shared variables are those of the service. -/
structure Shared.Is (m : Shared) (s : Service) : Prop where
  active : m.joinSequenceActive = s.joinSequenceActive
  retries : m.joinRetriesRemaining = s.joinRetriesRemaining
  credentials : m.credentials = s.credentials
  calls : m.calls.map (·.config) = s.joins

variable {build : Build} {env : Env} {m : Shared} {s : Service} {policy : Policy}

theorem alone_succ (k : Nat) (pc : Pc) (m : Shared) :
    alone build env (k + 1) (pc, m) = alone build env k (advance build env m pc) := rfl

theorem alone_idle (k : Nat) (m : Shared) : alone build env k (.idle, m) = (.idle, m) := by
  induction k with
  | zero => rfl
  | succ k ih => exact ih

def Shared.clear (m : Shared) : Shared :=
  { m with
    joinSequenceActive := false
    joinRetriesRemaining := 0
    credentials := setJoinActive false m.credentials }

theorem alone_clear (k : Nat) (m : Shared) :
    alone build env (k + 4) (.clearFlagDue, m) = (.idle, m.clear) := by
  rw [alone_succ, alone_succ, alone_succ, alone_succ]
  exact alone_idle k m.clear

theorem Shared.Is.clear (h : m.Is s) : m.clear.Is (clearJoinSequence s) :=
  ⟨rfl, rfl, congrArg (setJoinActive false) h.credentials, h.calls⟩

theorem Shared.Is.publishState (h : m.Is s) (state : LinkState) : m.Is (publishState state s) :=
  ⟨h.active, h.retries, h.credentials, h.calls⟩

theorem Shared.Is.withCredentials (h : m.Is s) (c : CredentialStore) :
    Shared.Is { m with credentials := c } { s with credentials := c } :=
  ⟨h.active, h.retries, rfl, h.calls⟩

theorem stopJoin_is (h : m.Is s) : m.clear.Is (stopJoin env s).2 := by
  unfold stopJoin
  split
  · exact h.clear
  · split
    · exact h.clear
    · exact h.clear
    · split
      · split
        · exact h.clear.publishState _
        · exact h.clear
      · exact h.clear.publishState _

theorem alone_startSequence (h : m.Is s) (config : JoinConfig) (attempts : UInt8) :
    ∃ m', alone build env 8 (.casDue config attempts, m) = (.idle, m') ∧
      m'.Is (startSequence config attempts env s).2 := by
  rw [alone_succ]
  simp only [advance, startSequence, h.active]
  split
  · exact ⟨m, alone_idle _ m, h⟩
  · rw [alone_succ, alone_succ, alone_succ]
    simp only [advance]
    cases env.join with
    | error e =>
      refine ⟨_, alone_clear 0 _, Shared.Is.publishState (Shared.Is.clear ?_) _⟩
      exact ⟨rfl, rfl, congrArg (setJoinActive true) h.credentials, by simp [h.calls, publishState, publish]⟩
    | ok u =>
      refine ⟨_, alone_idle _ _, ?_⟩
      exact ⟨rfl, rfl, congrArg (setJoinActive true) h.credentials, by simp [h.calls, publishState, publish]⟩

theorem alone_beginJoin (h : m.Is s) :
    ∃ m', alone build env 11 (.activationDue, m) = (.idle, m') ∧ m'.Is (beginJoin build env s).2 := by
  rw [alone_succ]
  simp only [advance, beginJoin, prepareJoin, h.credentials]
  rcases hmode : getActivation env.settings s.credentials with ⟨e | mode, c⟩
  · exact ⟨_, alone_idle _ _, h.withCredentials c⟩
  · simp only [Pc.ofResult]
    cases hsupported : activationSupported build mode with
    | false => exact ⟨_, alone_idle _ _, h.withCredentials c⟩
    | true =>
      simp only [if_true, Bool.not_true]
      rw [alone_succ]
      simp only [advance]
      rcases hattempts : getJoinAttempts env.settings c with ⟨e | attempts, c₁⟩
      · exact ⟨_, alone_idle _ _, h.withCredentials c₁⟩
      · simp only [Pc.ofResult]
        rw [alone_succ]
        simp only [advance]
        rcases hconfig : buildConfig build env.settings c₁ with ⟨e | config, c₂⟩
        · exact ⟨_, alone_idle _ _, h.withCredentials c₂⟩
        · exact alone_startSequence (h.withCredentials c₂) config attempts

theorem alone_stop (h : m.Is s) :
    ∃ m', alone build env 12 (.policyDue false policy, m) = (.idle, m') ∧
      m'.Is (lorawanJoin build 0 policy env s).2 := by
  rw [lorawanJoin, if_neg (by simp), if_neg (by simp), alone_succ]
  simp only [advance, h.credentials]
  rcases hpolicy : updatePolicy policy env.settings s.credentials with ⟨e | _, c⟩
  · exact ⟨_, alone_idle _ _, h.withCredentials c⟩
  · simp only [Pc.ofResult, Bool.false_eq_true, if_false]
    rw [if_pos trivial, alone_succ]
    exact ⟨_, alone_clear _ _, stopJoin_is (h.withCredentials c)⟩

theorem alone_start (h : m.Is s) (hs : s.started = true) (hactive : s.joinSequenceActive = false) :
    ∃ m', alone build env 12 (.policyDue true policy, m) = (.idle, m') ∧
      m'.Is (lorawanJoin build 1 policy env s).2 := by
  rw [lorawanJoin, if_neg (by simp), if_neg (by simp [hactive]), alone_succ]
  simp only [advance, h.credentials]
  rcases hpolicy : updatePolicy policy env.settings s.credentials with ⟨e | _, c⟩
  · exact ⟨_, alone_idle _ _, h.withCredentials c⟩
  · simp only [Pc.ofResult, if_true]
    rw [if_neg (by simp), if_neg (by simp), if_neg (by simp [hs])]
    exact alone_beginJoin (h.withCredentials c)

/-- A join or a stop that no other thread interrupts does what `rzi_lorawan_join` does at once. -/
theorem alone_join (h : m.Is s) (hs : s.started = true) (start : Bool) :
    ∃ m', alone build env 12
        (if start && m.joinSequenceActive then .idle else .policyDue start policy, m) = (.idle, m') ∧
      m'.Is (lorawanJoin build (if start then 1 else 0) policy env s).2 := by
  cases start with
  | false => exact alone_stop h
  | true =>
    rw [h.active]
    cases hactive : s.joinSequenceActive with
    | false => exact alone_start h hs hactive
    | true =>
      refine ⟨m, alone_idle _ m, ?_⟩
      rw [if_pos rfl, lorawanJoin, if_neg (by simp), if_pos ⟨rfl, hactive⟩]
      exact h

/-- So does the handling of an event. -/
theorem alone_event (h : m.Is s) (joined : Bool) :
    ∃ m', alone build env 7 (if joined then .clearFlagDue else .failedDue, m) = (.idle, m') ∧
      m'.Is (swallowJoinEvent (if joined then .joined else .joinFailed none) s).2 := by
  cases joined with
  | true => exact ⟨_, alone_clear _ _, h.clear⟩
  | false =>
    simp only [Bool.false_eq_true, if_false, swallowJoinEvent]
    rw [alone_succ]
    simp only [advance, h.active]
    cases hactive : s.joinSequenceActive with
    | false => exact ⟨m, rfl, h⟩
    | true =>
      simp only [if_true, Bool.not_true, Bool.false_eq_true, if_false]
      rw [alone_succ]
      simp only [advance, h.retries]
      by_cases hpos : 0 < s.joinRetriesRemaining
      · rw [if_pos (by exact_mod_cast hpos), if_pos hpos]
        refine ⟨_, alone_idle 4 _, h.active.trans hactive, ?_, h.credentials, h.calls⟩
        simp only [h.retries]
        omega
      · rw [if_neg (by exact_mod_cast hpos), if_neg hpos]
        exact ⟨_, alone_clear _ _, h.clear.publishState _⟩

end Rzi.Lorawan
