import Rzi.LorawanService

/-!
# The LoRaWAN service over a backend

The join calls of `src/lorawan/lorawan.c` once more, on the state of the service and that of the backend
below it: what `base.join`, `base.leave` and `base.is_joined` answer and do is the backend's own, where
`LorawanService` takes their answers as given. `lorawanJoin_service` and the theorems beside it say that
the two agree. A call runs without interruption.
-/

namespace Rzi.Stack
open Lorawan (Answers BackendEvent Build CredentialStore Event LinkState Policy Service)
open Zephyr (JoinConfig)

/-- The operations of `struct rzi_lorawan_backend` that a join uses. `ι` is what the world below the
backend answers during one of them, `ε` is what happens in the backend between them. -/
structure Backend (β ι ε : Type) where
  start : ι → β → Except Err Unit × β
  join : ι → JoinConfig → β → Except Err Unit × β
  leave : ι → β → Except Err Unit × β
  isJoined : ι → β → Except Err Bool
  /-- what happens in the backend, with the events that it publishes -/
  event : ε → β → Option (β × List BackendEvent)
  /-- the device has joined -/
  joined : β → Bool
  /-- a join has been asked for and has not ended -/
  pending : β → Bool

/-- What is answered during one call of the service. -/
structure Env (ι : Type) where
  settings : Answers
  setRegion : Except Err Unit
  start : ι
  join : ι
  isJoined : ι
  leave : ι

/-- The AT package's part of the state. -/
structure Context where
  /-- the AT package has started the service -/
  serviceStarted : Bool
  joinPending : Bool
  /-- what the package has published, oldest first -/
  published : List String
deriving DecidableEq, Repr

structure System (β : Type) where
  service : Service
  backend : β
  context : Context

variable {β ι ε : Type} (b : Backend β ι ε) (build : Build)

def System.publishState (state : LinkState) (x : System β) : System β :=
  { x with service := Lorawan.publishState state x.service }

def System.clearJoinSequence (x : System β) : System β :=
  { x with service := Lorawan.clearJoinSequence x.service }

/-! ### Dispatching -/

/-- `swallow_join_event`. -/
def swallowJoinEvent (leave : ι) (event : BackendEvent) (x : System β) : Bool × System β :=
  match event with
  | .joined => (false, x.clearJoinSequence)
  | .joinFailed _ =>
    if !x.service.joinSequenceActive then (false, x)
    else if 0 < x.service.joinRetriesRemaining then
      (true, { x with
        service := { x.service with joinRetriesRemaining := x.service.joinRetriesRemaining - 1 } })
    else
      let x := x.clearJoinSequence
      (false, { x with backend := (b.leave leave x.backend).2 }.publishState .ready)
  | _ => (false, x)

/-- `dispatch`, with the subscriber's callback. -/
def dispatch (onEvent : Event → System β → System β) (leave : ι) (event : BackendEvent) (x : System β) :
    System β :=
  let (swallowed, x) := swallowJoinEvent b leave event x
  if swallowed then x
  else
    let x := { x with service := Lorawan.deliver event x.service }
    match Lorawan.eventFromBackend event with
    | none => x
    | some event => onEvent event x

/-! ### Joining and leaving -/

/-- `begin_join` after its checks. -/
def startSequence (config : JoinConfig) (attempts : UInt8) (e : Env ι) (x : System β) :
    Except Err Unit × System β :=
  if x.service.joinSequenceActive then (.error .busy, x)
  else
    let x := { x with
      service := { x.service with
        joinSequenceActive := true
        joinRetriesRemaining := attempts.toNat
        credentials := Lorawan.setJoinActive true x.service.credentials } }.publishState .joining
    let x := { x with service := { x.service with joins := x.service.joins ++ [config] } }
    match b.join e.join config x.backend with
    | (.error err, backend) =>
      (.error err, ({ x with backend := backend }.clearJoinSequence).publishState .ready)
    | (.ok (), backend) => (.ok (), { x with backend := backend })

def beginJoin (e : Env ι) (x : System β) : Except Err Unit × System β :=
  match Lorawan.prepareJoin build e.settings x.service.credentials with
  | (.error err, c) => (.error err, { x with service := { x.service with credentials := c } })
  | (.ok (config, attempts), c) =>
    startSequence b config attempts e { x with service := { x.service with credentials := c } }

def stopJoin (e : Env ι) (x : System β) : Except Err Unit × System β :=
  let wasActive := x.service.joinSequenceActive
  let x := x.clearJoinSequence
  if !wasActive || !x.service.started then (.ok (), x)
  else
    match b.isJoined e.isJoined x.backend with
    | .error err => (.error err, x)
    | .ok true => (.ok (), x)
    | .ok false =>
      match b.leave e.leave x.backend with
      | (.error err, backend) =>
        if err = .notSupported then (.ok (), { x with backend := backend }.publishState .ready)
        else (.error err, { x with backend := backend })
      | (.ok (), backend) => (.ok (), { x with backend := backend }.publishState .ready)

/-- `rzi_lorawan_join`. -/
def lorawanJoin (start : Int) (policy : Policy) (e : Env ι) (x : System β) :
    Except Err Unit × System β :=
  if start ≠ Lorawan.joinKeep ∧ start ≠ 0 ∧ start ≠ 1 then (.error .invalid, x)
  else if start = 1 ∧ x.service.joinSequenceActive = true then (.error .busy, x)
  else
    match Lorawan.updatePolicy policy e.settings x.service.credentials with
    | (.error err, c) => (.error err, { x with service := { x.service with credentials := c } })
    | (.ok (), c) =>
      let x := { x with service := { x.service with credentials := c } }
      if start = 0 then stopJoin b e x
      else if start ≠ 1 then (.ok (), x)
      else if !x.service.started then (.error .notReady, x)
      else beginJoin b build e x

/-- `rzi_lorawan_leave`. -/
def lorawanLeave (leave : ι) (x : System β) : Except Err Unit × System β :=
  if !x.service.started then (.error .notReady, x)
  else
    match b.leave leave x.backend with
    | (.error err, backend) => (.error err, { x with backend := backend })
    | (.ok (), backend) => (.ok (), { x with backend := backend }.publishState .ready)

/-- `rzi_lorawan_init`. -/
def lorawanInit (e : Env ι) (x : System β) : Except Err Unit × System β :=
  if x.service.started then (.error .already, x)
  else
    match e.setRegion with
    | .error err => (.error err, x)
    | .ok () =>
      let x := { x with service := { x.service with started := true } }.publishState .starting
      match b.start e.start x.backend with
      | (.error err, backend) =>
        (.error err, { x with
          service := { x.service with started := false }, backend := backend }.publishState .stopped)
      | (.ok (), backend) => (.ok (), { x with backend := backend })

/-- `rzi_lorawan_is_joined`. -/
def lorawanIsJoined (isJoined : ι) (x : System β) : Except Err Bool :=
  if !x.service.started then .error .notReady else b.isJoined isJoined x.backend

/-! ### The service alone -/

variable {b build} {x : System β} {e : Env ι} {config : JoinConfig} {start : Int} {policy : Policy}

/-- What a backend in a given state answers. -/
def Backend.answers (b : Backend β ι ε) (e : Env ι) (config : JoinConfig) (backend : β) : Lorawan.Env where
  settings := e.settings
  join := (b.join e.join config backend).1
  isJoined := b.isJoined e.isJoined backend
  leave := (b.leave e.leave backend).1

theorem swallowJoinEvent_service (leave : ι) (event : BackendEvent) (x : System β) :
    ((swallowJoinEvent b leave event x).1, (swallowJoinEvent b leave event x).2.service) =
      Lorawan.swallowJoinEvent event x.service := by
  cases event with
  | joinFailed error =>
    unfold swallowJoinEvent Lorawan.swallowJoinEvent
    dsimp only
    split
    · rfl
    · split <;> rfl
  | _ => rfl

/-- The dispatcher up to the callback. -/
theorem dispatch_service (leave : ι) (event : BackendEvent) (x : System β) :
    (dispatch b (fun _ x => x) leave event x).service = Lorawan.dispatch event x.service := by
  have h := @swallowJoinEvent_service _ _ _ b leave event x
  unfold dispatch Lorawan.dispatch
  rw [← h]
  dsimp only
  split
  · rfl
  · split <;> rfl

theorem stopJoin_service (config : JoinConfig) (e : Env ι) (x : System β) :
    ((stopJoin b e x).1, (stopJoin b e x).2.service) =
      Lorawan.stopJoin (b.answers e config x.backend) x.service := by
  unfold stopJoin Lorawan.stopJoin Backend.answers
  dsimp only
  have hstarted : x.clearJoinSequence.service.started = x.service.started := rfl
  have hbackend : x.clearJoinSequence.backend = x.backend := rfl
  rw [hstarted, hbackend]
  split
  · rfl
  · rcases b.isJoined e.isJoined x.backend with err | joined
    · rfl
    · rcases joined with _ | _
      · rcases b.leave e.leave x.backend with ⟨err | _, backend⟩
        · dsimp only
          split <;> rfl
        · rfl
      · rfl

theorem startSequence_service (attempts : UInt8) (e : Env ι) (x : System β) :
    ((startSequence b config attempts e x).1, (startSequence b config attempts e x).2.service) =
      Lorawan.startSequence config attempts (b.answers e config x.backend) x.service := by
  unfold startSequence Lorawan.startSequence Backend.answers
  dsimp only
  split
  · rfl
  · have hbackend (s : Service) : ({ x with service := s }.publishState .joining).backend = x.backend := rfl
    simp only [hbackend]
    rcases b.join e.join config x.backend with ⟨err | _, backend⟩
    · rfl
    · rfl

theorem beginJoin_service (e : Env ι) (x : System β) : ∃ config,
    ((beginJoin b build e x).1, (beginJoin b build e x).2.service) =
      Lorawan.beginJoin build (b.answers e config x.backend) x.service := by
  unfold beginJoin Lorawan.beginJoin
  have hsettings (config : JoinConfig) : (b.answers e config x.backend).settings = e.settings := rfl
  simp only [hsettings]
  rcases Lorawan.prepareJoin build e.settings x.service.credentials with ⟨err | ⟨config, attempts⟩, c⟩
  · exact ⟨Zephyr.otaaConfig, rfl⟩
  · exact ⟨config, startSequence_service attempts e _⟩

/-- A join of the service over a backend is a join of the service with what the backend answers. -/
theorem lorawanJoin_service (start : Int) (policy : Policy) (e : Env ι) (x : System β) : ∃ config,
    ((lorawanJoin b build start policy e x).1, (lorawanJoin b build start policy e x).2.service) =
      Lorawan.lorawanJoin build start policy (b.answers e config x.backend) x.service := by
  unfold lorawanJoin Lorawan.lorawanJoin
  have hsettings (config : JoinConfig) : (b.answers e config x.backend).settings = e.settings := rfl
  simp only [hsettings]
  split
  · exact ⟨Zephyr.otaaConfig, rfl⟩
  · split
    · exact ⟨Zephyr.otaaConfig, rfl⟩
    · rcases Lorawan.updatePolicy policy e.settings x.service.credentials with ⟨err | _, c⟩
      · exact ⟨Zephyr.otaaConfig, rfl⟩
      · dsimp only
        split
        · exact ⟨Zephyr.otaaConfig, stopJoin_service _ e _⟩
        · split
          · exact ⟨Zephyr.otaaConfig, rfl⟩
          · split
            · exact ⟨Zephyr.otaaConfig, rfl⟩
            · exact beginJoin_service e _

theorem lorawanLeave_service (config : JoinConfig) (e : Env ι) (x : System β) :
    ((lorawanLeave b e.leave x).1, (lorawanLeave b e.leave x).2.service) =
      Lorawan.lorawanLeave (b.answers e config x.backend) x.service := by
  unfold lorawanLeave Lorawan.lorawanLeave Backend.answers
  dsimp only
  split
  · rfl
  · rcases b.leave e.leave x.backend with ⟨err | _, backend⟩
    · rfl
    · rfl

theorem lorawanInit_service (e : Env ι) (x : System β) :
    ((lorawanInit b e x).1, (lorawanInit b e x).2.service) =
      Lorawan.lorawanInit e.setRegion (b.start e.start x.backend).1 x.service := by
  unfold lorawanInit Lorawan.lorawanInit
  split
  · rfl
  · rcases e.setRegion with err | _
    · rfl
    · have hbackend (s : Service) :
          ({ x with service := s }.publishState .starting).backend = x.backend := rfl
      simp only [hbackend]
      rcases b.start e.start x.backend with ⟨err | _, backend⟩
      · rfl
      · rfl

end Rzi.Stack
