import Rzi.LorawanService
import Rzi.Lib.Run

/-!
# Leaving during a join sequence

`rzi_lorawan_leave` stops the backend and does not clear the join sequence: after a leave the service
still refuses to join and to change credentials, unless the sequence was going to end anyway.
`leave_ends_sequence_iff` says when that is: no sequence was running, a JOINED was queued already, or
more failures were queued than retries remained.
-/

namespace Rzi.Lorawan
open Lts

/-- The states the service reaches from the image. -/
def Reachable (build : Build) (s : Service) : Prop := ∃ as, run (step build) Service.init as = some s

/-- Up to `k` events dispatched. -/
def drain : Nat → Service → Service
  | 0, s => s
  | k + 1, s => drain k ((dispatcher s).getD s)

/-- The queued events dispatched, and the one that the end of a sequence adds to them. -/
def dispatchAll (s : Service) : Service := drain (s.events.length + 1) s

/-- The settings layer has no reason of its own to answer BUSY. -/
structure Answers.NeverBusy (a : Answers) : Prop where
  read : ∀ k, a.read k ≠ .error .busy
  write : ∀ k value, a.write k value ≠ .error .busy

/-- No call is refused with BUSY because of a join sequence. -/
structure Unblocked (build : Build) (s : Service) : Prop where
  join : ∀ policy env, env.settings.NeverBusy → env.join ≠ .error .busy →
    (lorawanJoin build 1 policy env s).1 ≠ .error .busy
  set : ∀ (setter : Setter) a, a.NeverBusy → (setter.call build a s.credentials).1 ≠ .error .busy

/-- The sequence ends with what is queued: a JOINED, or more failures than it has retries left. -/
def SequenceEnds (s : Service) : Prop :=
  s.joinSequenceActive = false ∨ (∃ q ∈ s.events, q.event = .joined) ∨
    s.joinRetriesRemaining < s.events.countP (·.event.isJoinFailed)

/-- The two records of a running sequence agree between calls. -/
def Agree (s : Service) : Prop := s.credentials.joinActive = s.joinSequenceActive

variable {build : Build} {s t : Service} {a : Answers} {c : CredentialStore}

/-! ### Who answers BUSY -/

theorem loadCandidate_not_busy (ha : a.NeverBusy) : loadCandidate a ≠ .error .busy := by
  intro h
  have hbind {α β : Type} {x : Except Err α} {f : α → Except Err β}
      (h : x >>= f = .error .busy) (hx : x ≠ .error .busy) : ∃ v, f v = .error .busy := by
    cases x with
    | error e =>
      cases h
      exact absurd rfl hx
    | ok v => exact ⟨v, h⟩
  unfold loadCandidate at h
  obtain ⟨_, h⟩ := hbind h (ha.read _)
  obtain ⟨_, h⟩ := hbind h (ha.read _)
  obtain ⟨_, h⟩ := hbind h (ha.read _)
  obtain ⟨_, h⟩ := hbind h (ha.read _)
  obtain ⟨_, h⟩ := hbind h (ha.read _)
  obtain ⟨_, h⟩ := hbind h (ha.read _)
  obtain ⟨_, h⟩ := hbind h (ha.read _)
  obtain ⟨_, h⟩ := hbind h (ha.read _)
  obtain ⟨_, h⟩ := hbind h (ha.read _)
  obtain ⟨_, h⟩ := hbind h (ha.read _)
  cases h

theorem ensureLoadedLocked_not_busy (ha : a.NeverBusy) (c : CredentialStore) :
    (ensureLoadedLocked a c).1 ≠ .error .busy := by
  rcases ensureLoadedLocked_cases a c with ⟨h, -⟩ | ⟨e, he, h⟩
  · rw [h]
    simp
  · rw [h]
    exact fun hbusy => loadCandidate_not_busy ha (he.trans (congrArg _ (Except.error.inj hbusy)))

theorem readLocked_not_busy {α : Type*} (ha : a.NeverBusy) (f : CredentialStore → α)
    (c : CredentialStore) : (readLocked f a c).1 ≠ .error .busy := by
  have hload := ensureLoadedLocked_not_busy ha c
  unfold readLocked
  split <;> rename_i h <;> rw [h] at hload
  · exact fun he => hload (congrArg Except.error (Except.error.inj he))
  · simp

theorem writeLocked_not_busy (ha : a.NeverBusy) (key : Settings.Key)
    (value : CredentialStore → Bytes) (f : CredentialStore → CredentialStore) (c : CredentialStore) :
    (writeLocked key value f a c).1 ≠ .error .busy := by
  have hload := ensureLoadedLocked_not_busy ha c
  unfold writeLocked
  split <;> rename_i h <;> rw [h] at hload
  · exact hload
  · split
    · rename_i e he
      rw [← he]
      exact ha.write _ _
    · simp

theorem setLocked_not_busy (ha : a.NeverBusy) (key : Settings.Key) (value : Bytes)
    (f : CredentialStore → CredentialStore) (hc : c.joinActive = false) :
    (setLocked key value f a c).1 ≠ .error .busy := by
  have hload := ensureLoadedLocked_not_busy ha c
  have hactive := ensureLoadedLocked_joinActive a c
  unfold setLocked
  split <;> rename_i h <;> rw [h] at hload hactive
  · exact hload
  · rw [if_neg (by simpa using hactive.trans hc)]
    split
    · rename_i e he
      rw [← he]
      exact ha.write _ _
    · simp

theorem updatePolicy_not_busy (ha : a.NeverBusy) (policy : Policy) (c : CredentialStore) :
    (updatePolicy policy a c).1 ≠ .error .busy := by
  unfold updatePolicy
  split
  · simp
  · exact writeLocked_not_busy ha _ _ _ c

theorem setBytes_not_busy (ha : a.NeverBusy) (key : Settings.Key)
    (store : Bytes → CredentialStore → CredentialStore) (src : Option Bytes)
    (hc : c.joinActive = false) : (setBytes key store src a c).1 ≠ .error .busy := by
  unfold setBytes
  split
  · simp
  · split
    · simp
    · exact setLocked_not_busy ha _ _ _ hc

theorem Setter.call_not_busy (ha : a.NeverBusy) (setter : Setter) (hc : c.joinActive = false) :
    (setter.call build a c).1 ≠ .error .busy := by
  cases setter with
  | devEui src => exact setBytes_not_busy ha _ _ src hc
  | appEui src => exact setBytes_not_busy ha _ _ src hc
  | appKey src => exact setBytes_not_busy ha _ _ src hc
  | genAppKey src => exact setBytes_not_busy ha _ _ src hc
  | nwkSkey src => exact setBytes_not_busy ha _ _ src hc
  | appSkey src => exact setBytes_not_busy ha _ _ src hc
  | devAddr value => exact setLocked_not_busy ha _ _ _ hc
  | activation mode =>
    simp only [Setter.call, setActivation]
    split
    · simp
    · exact setLocked_not_busy ha _ _ _ hc
  | channelMask mask =>
    simp only [Setter.call, setChannelMask]
    split
    · simp
    · exact setLocked_not_busy ha _ _ _ hc
  | policy p => exact updatePolicy_not_busy ha p c

theorem prepareJoin_not_busy (ha : a.NeverBusy) (c : CredentialStore) :
    (prepareJoin build a c).1 ≠ .error .busy := by
  have hread {α : Type} {f : CredentialStore → α} {c c' : CredentialStore} {e : Err}
      (h : readLocked f a c = (.error e, c')) : e ≠ .busy := by
    have hne := readLocked_not_busy ha f c
    rw [h] at hne
    exact fun he => hne (congrArg _ he)
  unfold prepareJoin
  split
  · rename_i h
    simpa using hread h
  · split
    · simp
    · split
      · rename_i h
        simpa using hread h
      · split
        · rename_i h
          simpa using hread h
        · simp

theorem startSequence_not_busy {env : Env} (hjoin : env.join ≠ .error .busy)
    (hs : s.joinSequenceActive = false) (config : Zephyr.JoinConfig) (attempts : UInt8) :
    (startSequence config attempts env s).1 ≠ .error .busy := by
  rw [startSequence, if_neg (by simp [hs])]
  simp only
  split
  · rename_i e he
    rw [he] at hjoin
    exact hjoin
  · simp

/-- Without a sequence the service lets a join through to the backend. -/
theorem lorawanJoin_not_busy {env : Env} (ha : env.settings.NeverBusy)
    (hjoin : env.join ≠ .error .busy) (hs : s.joinSequenceActive = false) (policy : Policy) :
    (lorawanJoin build 1 policy env s).1 ≠ .error .busy := by
  have hpolicy := updatePolicy_not_busy ha policy s.credentials
  rw [lorawanJoin, if_neg (by simp), if_neg (by simp [hs])]
  split
  · rename_i e c h
    rw [h] at hpolicy
    exact hpolicy
  · rename_i c h
    rw [if_neg (by simp), if_neg (by simp)]
    split
    · simp
    · have hprepare := @prepareJoin_not_busy build env.settings ha c
      unfold beginJoin
      split
      · rename_i e c' hc'
        rw [hc'] at hprepare
        exact fun hbusy => hprepare (congrArg _ (Except.error.inj hbusy))
      · refine startSequence_not_busy hjoin ?_ _ _
        exact hs

theorem neverBusy_default : defaultAnswers.NeverBusy := ⟨by simp [defaultAnswers], by simp [defaultAnswers]⟩

theorem unblocked_iff (h : Agree s) : Unblocked build s ↔ s.joinSequenceActive = false := by
  constructor
  · intro hu
    by_contra hactive
    refine hu.join ⟨-1, -1, -1⟩ joiningEnv neverBusy_default (by simp [joiningEnv]) ?_
    rw [lorawanJoin, if_neg (by simp), if_pos ⟨rfl, Bool.of_not_eq_false hactive⟩]
  · intro hs
    exact ⟨fun policy env ha hjoin => lorawanJoin_not_busy ha hjoin hs policy,
      fun setter a ha => setter.call_not_busy ha (h.trans hs)⟩

/-! ### Between calls the two records agree -/

theorem Agree.join (h : Agree s) (start : Int) (policy : Policy) (env : Env) :
    Agree (lorawanJoin build start policy env s).2 := by
  have hout := lorawanJoin_outcome build start policy env s
  generalize (lorawanJoin build start policy env s).1 = r at hout
  generalize (lorawanJoin build start policy env s).2 = t at hout ⊢
  cases hout with
  | kept _ c hc _ _ => exact hc.trans h
  | stopped _ c events _ _ _ => rfl
  | started c config _ _ _ _ => rfl
  | refused e c config events _ _ _ _ => rfl

theorem Agree.dispatch (h : Agree s) (event : BackendEvent) : Agree (dispatch event s) := by
  have hswallow : Agree (swallowJoinEvent event s).2 := by
    unfold swallowJoinEvent
    split
    · rfl
    · split
      · exact h
      · split
        · exact h
        · rfl
    · exact h
  unfold Lorawan.dispatch
  split
  · exact hswallow
  · exact hswallow

theorem Agree.init (h : Agree s) (setRegion start : Except Err Unit) :
    Agree (lorawanInit setRegion start s).2 := by
  unfold lorawanInit
  split
  · exact h
  split
  · exact h
  split
  · exact h
  · exact h

theorem Agree.leave (h : Agree s) (env : Env) : Agree (lorawanLeave env s).2 := by
  unfold lorawanLeave
  split
  · exact h
  · split
    · exact h
    · exact h

theorem Agree.clearSettings (h : Agree s) (rc : Except Err Unit) :
    Agree { s with credentials := (clearSettings rc s.credentials).2 } := by
  unfold Lorawan.clearSettings
  split
  · exact h
  · rename_i hactive
    split
    · exact h
    · exact (Bool.eq_false_of_not_eq_true hactive).symm.trans h

theorem Agree.step (h : Agree s) {act : Act} (ht : step build s act = some t) : Agree t := by
  cases act with
  | init setRegion start =>
    cases ht
    exact h.init setRegion start
  | join start policy env =>
    cases ht
    exact h.join start policy env
  | leave env =>
    cases ht
    exact h.leave env
  | set setter a =>
    cases ht
    exact (setter.call_joinActive a s.credentials).trans h
  | clearSettings rc =>
    cases ht
    exact h.clearSettings rc
  | publish event sequence =>
    simp only [Lorawan.step] at ht
    split at ht
    · cases ht
    · cases ht
      exact h
  | dispatch =>
    simp only [Lorawan.step, dispatcher] at ht
    split at ht
    · cases ht
    · rename_i q events hevents
      cases ht
      exact Agree.dispatch (s := { s with events := events }) h q.event

theorem Reachable.agree (h : Reachable build s) : Agree s := by
  obtain ⟨as, has⟩ := h
  have hinit : Agree Service.init := rfl
  exact run_invariant' (fun _ _ _ hs ht => hs.step ht) hinit has

/-! ### Dispatching what is queued -/

/-- The events left to dispatch, with the one the end of a sequence would add. -/
def pendingEvents (s : Service) : Nat := s.events.length + if s.joinSequenceActive then 1 else 0

theorem dispatch_events (event : BackendEvent) (s : Service) :
    pendingEvents (dispatch event s) ≤ pendingEvents s := by
  have hswallow : pendingEvents (swallowJoinEvent event s).2 ≤ pendingEvents s := by
    unfold swallowJoinEvent
    split
    · simp [pendingEvents, clearJoinSequence]
    · split
      · exact Nat.le_refl _
      · split
        · exact Nat.le_refl _
        · rename_i hactive _
          simp [pendingEvents, clearJoinSequence, publishState, publish] at hactive ⊢
          simp [hactive]
    · exact Nat.le_refl _
  unfold dispatch
  split
  · exact hswallow
  · exact hswallow

theorem drain_events {k : Nat} (h : pendingEvents s ≤ k) : (drain k s).events = [] := by
  induction k generalizing s with
  | zero =>
    have hlen : s.events.length = 0 := by
      unfold pendingEvents at h
      omega
    exact List.length_eq_zero_iff.1 hlen
  | succ k ih =>
    unfold drain
    cases hevents : s.events with
    | nil =>
      have hnone : (dispatcher s).getD s = s := by
        unfold dispatcher
        rw [hevents]
        rfl
      rw [hnone]
      -- nothing is queued, so further turns change nothing
      have hstay : ∀ k, drain k s = s := by
        intro k
        induction k with
        | zero => rfl
        | succ k ihk =>
          rw [drain, hnone]
          exact ihk
      rw [hstay, hevents]
    | cons q events =>
      have hsome : (dispatcher s).getD s = dispatch q.event { s with events := events } := by
        unfold dispatcher
        rw [hevents]
        rfl
      rw [hsome]
      refine ih (Nat.le_trans (dispatch_events _ _) ?_)
      unfold pendingEvents at h ⊢
      rw [hevents, List.length_cons] at h
      simp only
      omega

theorem dispatchAll_events (s : Service) : (dispatchAll s).events = [] := by
  refine drain_events ?_
  unfold pendingEvents
  split <;> omega

/-- Whether the sequence ends with what is queued does not change as that is dispatched. -/
theorem sequenceEnds_dispatch {q : Queued} {events : List Queued} (hevents : s.events = q :: events) :
    SequenceEnds (dispatch q.event { s with events := events }) ↔ SequenceEnds s := by
  unfold SequenceEnds
  cases hq : q.event with
  | joined =>
    simp [dispatch, swallowJoinEvent, deliver, clearJoinSequence, hevents, hq]
  | joinFailed e =>
    cases hactive : s.joinSequenceActive with
    | false => simp [dispatch, swallowJoinEvent, deliver]
    | true =>
      by_cases hremaining : 0 < s.joinRetriesRemaining
      · have hcount : (s.joinRetriesRemaining - 1 < events.countP (·.event.isJoinFailed) ↔
            s.joinRetriesRemaining < events.countP (·.event.isJoinFailed) + 1) := by omega
        simp [dispatch, swallowJoinEvent, hremaining, hevents, hq,
          BackendEvent.isJoinFailed] at hcount ⊢
        rw [hcount]
      · have hzero : s.joinRetriesRemaining = 0 := by omega
        simp [dispatch, swallowJoinEvent, deliver, clearJoinSequence, publishState, publish, hzero,
          hevents, hq, BackendEvent.isJoinFailed]
  | _ => simp [dispatch, swallowJoinEvent, deliver, hevents, hq, BackendEvent.isJoinFailed]

theorem sequenceEnds_drain (k : Nat) (s : Service) : SequenceEnds (drain k s) ↔ SequenceEnds s := by
  induction k generalizing s with
  | zero => exact Iff.rfl
  | succ k ih =>
    rw [drain, ih]
    unfold dispatcher
    split
    · exact Iff.rfl
    · rename_i q events hevents
      exact sequenceEnds_dispatch hevents

theorem Agree.drain (h : Agree s) (k : Nat) : Agree (drain k s) := by
  induction k generalizing s with
  | zero => exact h
  | succ k ih =>
    refine ih ?_
    unfold dispatcher
    split
    · exact h
    · rename_i q events hevents
      exact Agree.dispatch (s := { s with events := events }) h q.event

theorem sequenceEnds_of_empty (h : s.events = []) :
    SequenceEnds s ↔ s.joinSequenceActive = false := by
  simp [SequenceEnds, h]

theorem sequenceEnds_leave {env : Env} (hleave : (lorawanLeave env s).1 = .ok ()) :
    SequenceEnds (lorawanLeave env s).2 ↔ SequenceEnds s := by
  unfold lorawanLeave at hleave ⊢
  split at hleave
  · cases hleave
  · rename_i hstarted
    rw [if_neg hstarted]
    split at hleave
    · cases hleave
    · simp [SequenceEnds, publishState, publish, BackendEvent.isJoinFailed]

/-- **What a leave does to a join sequence.** From any reachable state, after a successful leave and
the dispatch of what is queued, joins and setters are let through exactly if the sequence ends without
the leave: none was running, a JOINED was queued, or more failures than retries remained. -/
theorem leave_ends_sequence_iff (build : Build) (s : Service) (env : Env) (hs : Reachable build s)
    (hleave : (lorawanLeave env s).1 = .ok ()) :
    (dispatchAll (lorawanLeave env s).2).events = [] ∧
      (Unblocked build (dispatchAll (lorawanLeave env s).2) ↔ SequenceEnds s) := by
  have hempty := dispatchAll_events (lorawanLeave env s).2
  refine ⟨hempty, ?_⟩
  have hagree : Agree (dispatchAll (lorawanLeave env s).2) := (hs.agree.leave env).drain _
  rw [unblocked_iff hagree, ← sequenceEnds_of_empty hempty, dispatchAll, sequenceEnds_drain,
    sequenceEnds_leave hleave]

/-- The service while it waits for the network. -/
def waiting : Service :=
  ((run (step fullBuild) Service.init
    [.init (.ok ()) (.ok ()), .join 1 ⟨-1, -1, -1⟩ joiningEnv]).getD Service.init)

theorem waiting_reachable : Reachable fullBuild waiting :=
  ⟨[.init (.ok ()) (.ok ()), .join 1 ⟨-1, -1, -1⟩ joiningEnv], rfl⟩

/-- A leave during a join leaves the service refusing the next one. -/
theorem leave_keeps_sequence : ¬ ∀ (s : Service) (env : Env), Reachable fullBuild s →
    (lorawanLeave env s).1 = .ok () →
    Unblocked fullBuild (dispatchAll (lorawanLeave env s).2) := by
  intro h
  have hunblocked := h waiting joiningEnv waiting_reachable rfl
  have hagree : Agree (dispatchAll (lorawanLeave joiningEnv waiting).2) :=
    (waiting_reachable.agree.leave joiningEnv).drain _
  have hactive := (unblocked_iff hagree).1 hunblocked
  have htrue : (dispatchAll (lorawanLeave joiningEnv waiting).2).joinSequenceActive = true := by
    decide
  rw [htrue] at hactive
  cases hactive

/-- The join that is already exhausted ends with its queued failure. -/
def failing : Service := publish (.joinFailed none) 1 waiting

theorem failing_reachable : Reachable fullBuild failing :=
  ⟨[.init (.ok ()) (.ok ()), .join 1 ⟨-1, -1, -1⟩ joiningEnv, .publish (.joinFailed none) 1], rfl⟩

theorem leave_after_failure :
    (dispatchAll (lorawanLeave joiningEnv failing).2).events = [] ∧
      (Unblocked fullBuild (dispatchAll (lorawanLeave joiningEnv failing).2) ↔ SequenceEnds failing) ∧
      SequenceEnds failing := by
  obtain ⟨hempty, hiff⟩ := leave_ends_sequence_iff fullBuild failing joiningEnv failing_reachable rfl
  exact ⟨hempty, hiff, .inr (.inr (by decide))⟩

end Rzi.Lorawan
