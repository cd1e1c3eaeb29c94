import Rzi.Credentials

/-!
# The LoRaWAN service (`src/lorawan/lorawan.c`)

The join sequence, the event queue and the dispatcher, one call or one dispatched event at a time;
`JoinThreads` takes the same functions apart into their atomic steps. The queue is long enough. A
queued event carries the join sequence for which the backend published it, a number the code does not
have. What the backend and the settings answer during a call is its argument `env`.
-/

namespace Rzi.Lorawan
open Zephyr (JoinConfig TxStatus)

/-- `enum rzi_lorawan_state`. -/
inductive LinkState where
  | stopped | starting | ready | joining | joined
deriving DecidableEq, Repr

/-- `enum rzi_lorawan_class_b_state`. -/
inductive ClassBState where
  | idle | acquiringBeacon | acquiringPingSlot | switching | active
deriving DecidableEq, Repr

structure Downlink where
  port : UInt8
  data : List UInt8
  rssiDbm : Int
  snrQuarterDb : Int
  flags : UInt32
  window : UInt8
  multicastGroup : UInt8
  dataRate : UInt8
  frequencyHz : UInt32
deriving DecidableEq, Repr

structure LinkCheckResult where
  demodMargin : UInt8
  gatewayCount : UInt8
  rssiDbm : Int
  snrQuarterDb : Int
deriving DecidableEq, Repr

/-- `struct rzi_lorawan_backend_event`; an error of `none` is 0. -/
inductive BackendEvent where
  | ready
  | joined
  | joinFailed (error : Option Err)
  | txDone (status : TxStatus) (error : Option Err)
  | downlink (d : Downlink)
  | error (error : Option Err)
  | stateChanged (state : LinkState)
  | fuota
  | linkCheck (result : LinkCheckResult)
  | deviceTime (error : Option Err)
  | classB (state : ClassBState)
  | dutyCycle (limited : Bool)
  | noDownlink (reasons : UInt8)
deriving DecidableEq, Repr

/-- The events that end an attempt to join. -/
def BackendEvent.isJoinResult : BackendEvent → Bool
  | .joined | .joinFailed _ => true
  | _ => false

def BackendEvent.isJoinFailed : BackendEvent → Bool
  | .joinFailed _ => true
  | _ => false

/-- `struct rzi_lorawan_event`. -/
inductive Event where
  | ready
  | joined
  | joinFailed (error : Err)
  | txDone (status : TxStatus) (error : Option Err)
  | downData (d : Downlink)
  | error (error : Option Err)
  | stateChanged (state : LinkState)
  | linkCheck (result : LinkCheckResult)
  | macTime (error : Option Err)
  | classB (state : ClassBState)
  | regionalDutyCycle (limited : Bool)
  | noDownlinkThreshold (reasons : UInt8)
deriving DecidableEq, Repr

def Event.isJoinFailed : Event → Bool
  | .joinFailed _ => true
  | _ => false

def eventFromBackend : BackendEvent → Option Event
  | .ready => some .ready
  | .joined => some .joined
  | .joinFailed error => some (.joinFailed (error.getD .timeout))
  | .txDone status error => some (.txDone status error)
  | .downlink d => some (.downData d)
  | .error error => some (.error error)
  | .stateChanged state => some (.stateChanged state)
  | .linkCheck result => some (.linkCheck result)
  | .deviceTime error => some (.macTime error)
  | .classB state => some (.classB state)
  | .dutyCycle limited => some (.regionalDutyCycle limited)
  | .noDownlink reasons => some (.noDownlinkThreshold reasons)
  | .fuota => none

structure Queued where
  event : BackendEvent
  sequence : Nat
deriving DecidableEq, Repr

structure Service where
  started : Bool
  joinSequenceActive : Bool
  joinRetriesRemaining : Nat
  credentials : CredentialStore
  events : List Queued
  /-- what the subscribers were given, oldest first -/
  delivered : List Event
  /-- the configurations `backend.join` was called with; the sequences are counted by them -/
  joins : List JoinConfig

/-- The service in the image. -/
def Service.init : Service := ⟨false, false, 0, .empty, [], [], []⟩

/-- What the settings layer and the backend answer during one call. -/
structure Env where
  settings : Answers
  join : Except Err Unit
  isJoined : Except Err Bool
  leave : Except Err Unit

/-! ### Publishing and dispatching -/

def publish (event : BackendEvent) (sequence : Nat) (s : Service) : Service :=
  { s with events := s.events ++ [⟨event, sequence⟩] }

def publishState (state : LinkState) (s : Service) : Service := publish (.stateChanged state) 0 s

def clearJoinSequence (s : Service) : Service :=
  { s with
    joinSequenceActive := false
    joinRetriesRemaining := 0
    credentials := setJoinActive false s.credentials }

/-- `swallow_join_event`: whether the event is kept from the subscribers. What `backend.leave`
returns is ignored. -/
def swallowJoinEvent (event : BackendEvent) (s : Service) : Bool × Service :=
  match event with
  | .joined => (false, clearJoinSequence s)
  | .joinFailed _ =>
    if !s.joinSequenceActive then (false, s)
    else if 0 < s.joinRetriesRemaining then
      (true, { s with joinRetriesRemaining := s.joinRetriesRemaining - 1 })
    else (false, publishState .ready (clearJoinSequence s))
  | _ => (false, s)

def deliver (event : BackendEvent) (s : Service) : Service :=
  { s with delivered := s.delivered ++ (eventFromBackend event).toList }

def dispatch (event : BackendEvent) (s : Service) : Service :=
  if (swallowJoinEvent event s).1 then (swallowJoinEvent event s).2
  else deliver event (swallowJoinEvent event s).2

/-- One turn of the dispatcher's loop. -/
def dispatcher (s : Service) : Option Service :=
  match s.events with
  | [] => none
  | q :: events => some (dispatch q.event { s with events := events })

/-! ### Joining and leaving -/

/-- `begin_join` after its checks. -/
def startSequence (config : JoinConfig) (attempts : UInt8) (env : Env) (s : Service) :
    Except Err Unit × Service :=
  if s.joinSequenceActive then (.error .busy, s)
  else
    let s := publishState .joining { s with
      joinSequenceActive := true
      joinRetriesRemaining := attempts.toNat
      credentials := setJoinActive true s.credentials }
    let s := { s with joins := s.joins ++ [config] }
    match env.join with
    | .error e => (.error e, publishState .ready (clearJoinSequence s))
    | .ok () => (.ok (), s)

/-- What `begin_join` reads of the credentials: the configuration and the attempt count. -/
def prepareJoin (build : Build) (a : Answers) (c : CredentialStore) :
    Except Err (JoinConfig × UInt8) × CredentialStore :=
  match getActivation a c with
  | (.error e, c) => (.error e, c)
  | (.ok mode, c) =>
    if !activationSupported build mode then (.error .notSupported, c)
    else
      match getJoinAttempts a c with
      | (.error e, c) => (.error e, c)
      | (.ok attempts, c) =>
        match buildConfig build a c with
        | (.error e, c) => (.error e, c)
        | (.ok config, c) => (.ok (config, attempts), c)

def beginJoin (build : Build) (env : Env) (s : Service) : Except Err Unit × Service :=
  match prepareJoin build env.settings s.credentials with
  | (.error e, c) => (.error e, { s with credentials := c })
  | (.ok (config, attempts), c) => startSequence config attempts env { s with credentials := c }

def stopJoin (env : Env) (s : Service) : Except Err Unit × Service :=
  if !s.joinSequenceActive || !s.started then (.ok (), clearJoinSequence s)
  else
    match env.isJoined with
    | .error e => (.error e, clearJoinSequence s)
    | .ok true => (.ok (), clearJoinSequence s)
    | .ok false =>
      match env.leave with
      | .error e =>
        if e = .notSupported then (.ok (), publishState .ready (clearJoinSequence s))
        else (.error e, clearJoinSequence s)
      | .ok () => (.ok (), publishState .ready (clearJoinSequence s))

/-- `rzi_lorawan_join`. -/
def lorawanJoin (build : Build) (start : Int) (policy : Policy) (env : Env) (s : Service) :
    Except Err Unit × Service :=
  if start ≠ joinKeep ∧ start ≠ 0 ∧ start ≠ 1 then (.error .invalid, s)
  else if start = 1 ∧ s.joinSequenceActive = true then (.error .busy, s)
  else
    match updatePolicy policy env.settings s.credentials with
    | (.error e, c) => (.error e, { s with credentials := c })
    | (.ok (), c) =>
      if start = 0 then stopJoin env { s with credentials := c }
      else if start ≠ 1 then (.ok (), { s with credentials := c })
      else if !s.started then (.error .notReady, { s with credentials := c })
      else beginJoin build env { s with credentials := c }

/-- `rzi_lorawan_leave`; the power lock it releases is not part of the model. -/
def lorawanLeave (env : Env) (s : Service) : Except Err Unit × Service :=
  if !s.started then (.error .notReady, s)
  else
    match env.leave with
    | .error e => (.error e, s)
    | .ok () => (.ok (), publishState .ready s)

/-- `rzi_lorawan_init`, with the answers of the settings layer and of `backend.start`. -/
def lorawanInit (setRegion start : Except Err Unit) (s : Service) : Except Err Unit × Service :=
  if s.started then (.error .already, s)
  else
    match setRegion with
    | .error e => (.error e, s)
    | .ok () =>
      let s := publishState .starting { s with started := true }
      match start with
      | .error e => (.error e, publishState .stopped { s with started := false })
      | .ok () => (.ok (), s)

/-- The calls and events of the service. -/
inductive Act where
  | init (setRegion start : Except Err Unit)
  | join (start : Int) (policy : Policy) (env : Env)
  | leave (env : Env)
  | set (setter : Setter) (a : Answers)
  | clearSettings (rc : Except Err Unit)
  | publish (event : BackendEvent) (sequence : Nat)
  | dispatch

/-- One call or event. The backend publishes a join result for a sequence it has been asked for. -/
def step (build : Build) (s : Service) : Act → Option Service
  | .init setRegion start => some (lorawanInit setRegion start s).2
  | .join start policy env => some (lorawanJoin build start policy env s).2
  | .leave env => some (lorawanLeave env s).2
  | .set setter a => some { s with credentials := (setter.call build a s.credentials).2 }
  | .clearSettings rc => some { s with credentials := (clearSettings rc s.credentials).2 }
  | .publish event sequence =>
    if event.isJoinResult = true ∧ (sequence = 0 ∨ s.joins.length < sequence) then none
    else some (publish event sequence s)
  | .dispatch => dispatcher s

/-- A settings layer in which nothing is stored. -/
def defaultAnswers : Answers := ⟨fun k => .ok (Settings.defaultValue k, false), fun _ _ => .ok ()⟩

/-- A backend that accepts a join and waits for the network. -/
def joiningEnv : Env := ⟨defaultAnswers, .ok (), .ok false, .ok ()⟩

def fullBuild : Build := ⟨true, true, true, .eu868⟩

/-! ### What a call does to the sequence -/

variable {build : Build} {s t : Service} {env : Env} {policy : Policy} {start : Int}

/-- What a join reads is the store as its last section leaves it. -/
theorem prepareJoin_ok {a : Answers} {c c' : CredentialStore} {config : JoinConfig} {attempts : UInt8}
    (h : prepareJoin build a c = (.ok (config, attempts), c')) :
    config = c'.joinConfig build ∧ attempts = c'.joinAttempts := by
  unfold prepareJoin at h
  split at h
  · cases h
  rename_i mode c₁ hmode
  split at h
  · cases h
  -- the first section has loaded the store, so the others only read it
  have hloaded : c₁.loaded = true := by
    rw [getActivation, readLocked_eq] at hmode
    obtain ⟨hrc, rfl⟩ := Prod.mk.inj hmode
    rcases ensureLoadedLocked_cases a c with ⟨-, hl⟩ | ⟨e, -, he⟩
    · exact hl
    · rw [he] at hrc
      cases hrc
  have hattempts : getJoinAttempts a c₁ = (.ok c₁.joinAttempts, c₁) := by
    rw [getJoinAttempts, readLocked_eq, ensureLoadedLocked_of_loaded hloaded]
    rfl
  have hconfig : buildConfig build a c₁ = (.ok (c₁.joinConfig build), c₁) := by
    rw [buildConfig, readLocked_eq, ensureLoadedLocked_of_loaded hloaded]
    rfl
  simp only [hattempts, hconfig] at h
  cases h
  exact ⟨rfl, rfl⟩

theorem prepareJoin_joinActive (a : Answers) (c : CredentialStore) :
    (prepareJoin build a c).2.joinActive = c.joinActive := by
  have hread {α : Type} {f : CredentialStore → α} {c c' : CredentialStore} {r : Except Err α}
      (h : readLocked f a c = (r, c')) : c'.joinActive = c.joinActive := by
    rw [← readLocked_joinActive f a c, h]
  unfold prepareJoin
  split
  · rename_i hmode
    exact hread hmode
  · rename_i hmode
    split
    · exact hread hmode
    · split
      · rename_i hattempts
        exact (hread hattempts).trans (hread hmode)
      · rename_i hattempts
        split
        · rename_i hconfig
          exact (hread hconfig).trans ((hread hattempts).trans (hread hmode))
        · rename_i hconfig
          exact (hread hconfig).trans ((hread hattempts).trans (hread hmode))

/-- Nothing that the dispatcher would count. -/
def Quiet (events : List Queued) : Prop := ∀ q ∈ events, ∃ state, q.event = .stateChanged state

/-- The state a stopped or refused sequence leaves. -/
def Service.cleared (s : Service) (c : CredentialStore) (events : List Queued) : Service :=
  { clearJoinSequence { s with credentials := c } with events := s.events ++ events }

/-- The state a started sequence leaves, with its configuration and its attempts. -/
def Service.joining (s : Service) (c : CredentialStore) (config : JoinConfig) (attempts : UInt8) :
    Service :=
  { s with
    joinSequenceActive := true
    joinRetriesRemaining := attempts.toNat
    credentials := setJoinActive true c
    events := s.events ++ [⟨.stateChanged .joining, 0⟩]
    joins := s.joins ++ [config] }

/-- What `rzi_lorawan_join` can do. -/
inductive JoinOutcome (build : Build) (start : Int) (policy : Policy) (env : Env) (s : Service) :
    Except Err Unit → Service → Prop
  /-- the sequence is left as it is -/
  | kept (r : Except Err Unit) (c : CredentialStore) (hc : c.joinActive = s.credentials.joinActive)
      (hstart : start = 1 → r ≠ .ok ())
      (hstop : start = 0 → (updatePolicy policy env.settings s.credentials).1 ≠ .ok ()) :
      JoinOutcome build start policy env s r { s with credentials := c }
  | stopped (r : Except Err Unit) (c : CredentialStore) (events : List Queued) (hstart : start = 0)
      (hpolicy : updatePolicy policy env.settings s.credentials = (.ok (), c))
      (hquiet : Quiet events) : JoinOutcome build start policy env s r (s.cleared c events)
  | started (c : CredentialStore) (config : JoinConfig) (hstart : start = 1)
      (hactive : s.joinSequenceActive = false) (hc : c.joinActive = s.credentials.joinActive)
      (hconfig : config = c.joinConfig build) :
      JoinOutcome build start policy env s (.ok ()) (s.joining c config c.joinAttempts)
  /-- `backend.join` refused, and the sequence was cleared again -/
  | refused (e : Err) (c : CredentialStore) (config : JoinConfig) (events : List Queued)
      (hstart : start = 1) (hactive : s.joinSequenceActive = false) (he : env.join = .error e)
      (hquiet : Quiet events) :
      JoinOutcome build start policy env s (.error e)
        { s.cleared c events with joins := s.joins ++ [config] }

theorem quiet_singleton (state : LinkState) : Quiet [⟨.stateChanged state, 0⟩] := fun q hq =>
  ⟨state, by rw [List.mem_singleton.1 hq]⟩

theorem stopJoin_outcome {c : CredentialStore}
    (hpolicy : updatePolicy policy env.settings s.credentials = (.ok (), c)) :
    JoinOutcome build 0 policy env s (stopJoin env { s with credentials := c }).1
      (stopJoin env { s with credentials := c }).2 := by
  have hplain (r : Except Err Unit) :
      JoinOutcome build 0 policy env s r (clearJoinSequence { s with credentials := c }) := by
    have h : s.cleared c [] = clearJoinSequence { s with credentials := c } := by
      simp [Service.cleared, clearJoinSequence]
    rw [← h]
    exact .stopped r c [] rfl hpolicy (fun q hq => by cases hq)
  have hready (r : Except Err Unit) : JoinOutcome build 0 policy env s r
      (publishState .ready (clearJoinSequence { s with credentials := c })) :=
    .stopped r c [⟨.stateChanged .ready, 0⟩] rfl hpolicy (quiet_singleton _)
  unfold stopJoin
  split
  · exact hplain _
  · split
    · exact hplain _
    · exact hplain _
    · split
      · split
        · exact hready _
        · exact hplain _
      · exact hready _

theorem beginJoin_outcome {c : CredentialStore} (hactive : s.joinSequenceActive = false)
    (hc : c.joinActive = s.credentials.joinActive) :
    JoinOutcome build 1 policy env s (beginJoin build env { s with credentials := c }).1
      (beginJoin build env { s with credentials := c }).2 := by
  have hprepared := @prepareJoin_joinActive build env.settings c
  unfold beginJoin
  split
  · rename_i e c₁ hprepare
    rw [hprepare] at hprepared
    exact .kept _ c₁ (hprepared.trans hc) (by simp) (by simp)
  · rename_i config attempts c₁ hprepare
    rw [hprepare] at hprepared
    obtain ⟨hconfig, rfl⟩ := prepareJoin_ok hprepare
    rw [startSequence, if_neg (by simp [hactive])]
    simp only
    split
    · rename_i e he
      have h : { s.cleared c₁ [⟨.stateChanged .joining, 0⟩, ⟨.stateChanged .ready, 0⟩] with
          joins := s.joins ++ [config] } = publishState .ready (clearJoinSequence
            { s.joining c₁ config c₁.joinAttempts with joins := s.joins ++ [config] }) := by
        simp [Service.cleared, Service.joining, clearJoinSequence, publishState, publish, setJoinActive]
      have hquiet : Quiet [⟨.stateChanged .joining, 0⟩, ⟨.stateChanged .ready, 0⟩] := by
        intro q hq
        rcases List.mem_cons.1 hq with rfl | hq
        · exact ⟨_, rfl⟩
        · exact quiet_singleton _ q hq
      have hout : JoinOutcome build 1 policy env s (.error e)
          { s.cleared c₁ [⟨.stateChanged .joining, 0⟩, ⟨.stateChanged .ready, 0⟩] with
            joins := s.joins ++ [config] } := .refused e c₁ config _ rfl hactive he hquiet
      rw [h] at hout
      exact hout
    · exact .started c₁ config rfl hactive (hprepared.trans hc) hconfig

theorem lorawanJoin_outcome (build : Build) (start : Int) (policy : Policy) (env : Env)
    (s : Service) : JoinOutcome build start policy env s (lorawanJoin build start policy env s).1
      (lorawanJoin build start policy env s).2 := by
  have hsame : ({ s with credentials := s.credentials } : Service) = s := rfl
  unfold lorawanJoin
  split
  · rename_i hinvalid
    rw [← hsame]
    exact .kept _ s.credentials rfl (fun h => absurd h hinvalid.2.2) (fun h => absurd h hinvalid.2.1)
  split
  · rename_i hbusy
    rw [← hsame]
    refine .kept _ s.credentials rfl (by simp) fun h => ?_
    rw [hbusy.1] at h
    cases h
  rename_i hbusy
  split
  · rename_i e c hpolicy
    have hc : c.joinActive = s.credentials.joinActive := by
      rw [← updatePolicy_joinActive policy env.settings s.credentials, hpolicy]
    exact .kept _ c hc (by simp) fun _ => by simp [hpolicy]
  · rename_i c hpolicy
    have hc : c.joinActive = s.credentials.joinActive := by
      rw [← updatePolicy_joinActive policy env.settings s.credentials, hpolicy]
    split
    · rename_i hstart
      subst hstart
      exact stopJoin_outcome hpolicy
    rename_i hzero
    split
    · rename_i hone
      exact .kept _ c hc (fun h => absurd h hone) (fun h => absurd h hzero)
    rename_i hone
    rw [ne_eq, not_not] at hone
    subst hone
    split
    · exact .kept _ c hc (by simp) (by simp)
    · exact beginJoin_outcome (by simpa using hbusy) hc

end Rzi.Lorawan
