import Rzi.AtService
import Rzi.UspBackend
import Rzi.Lib.Run

/-!
# The device class from the AT interface (`at_lorawan.c`, `at_lorawan_network_management.c`)

AT+CLASS before the service is started is kept in `device_class`; AT+JOIN then starts the service, and
the join itself is left to the dispatcher, which sets the class first when it is handed READY.
`rzi_at_lorawan_apply_class` does so only once `service_started` is set, and the AT thread sets that
flag after `rzi_lorawan_init` has returned, with READY already in the queue. Here the AT thread and the
dispatcher interleave between any two accesses to the context.

`class_takes_effect` says that the class takes effect in every run in which the dispatcher does not come
too early (`InTime`), and `early_join_skips_class` that a join that comes too early misses it.
-/

namespace Rzi.At.Class
open Lts
open Lorawan (BackendEvent Build Env Event LinkState Service lorawanJoin publishState joinKeep)
open Usp (DeviceClass)

/-! ### The context and the log -/

/-- What is read and written here of `struct rzi_at_lorawan_context`. -/
structure Context where
  serviceStarted : Bool
  joinPending : Bool
  deviceClass : DeviceClass
deriving DecidableEq, Repr

/-- What the two threads have done to the class and to the join. -/
inductive Entry where
  /-- AT+CLASS was answered with OK -/
  | accepted (deviceClass : DeviceClass)
  /-- `handle_class` called `rzi_lorawan_set_class` -/
  | setClass (deviceClass : DeviceClass) (rc : Except Err Unit)
  /-- `rzi_at_lorawan_apply_class` called `rzi_lorawan_set_class` -/
  | applyClass (deviceClass : DeviceClass) (rc : Except Err Unit)
  /-- `continue_pending_join` called `rzi_lorawan_join` -/
  | join (rc : Except Err Unit)
  /-- `continue_pending_join` published JOIN_FAILED_RX_TIMEOUT -/
  | joinFailed
deriving DecidableEq

/-- Where the AT thread is. -/
inductive AtPc where
  /-- between two lines -/
  | idle
  /-- in `start_service`, before `rzi_lorawan_init` -/
  | initDue
  /-- in `rzi_lorawan_init`, before `backend.start` answers -/
  | startDue
  /-- in `start_service`, after `rzi_lorawan_init` -/
  | initDone
  | initFailed
  /-- in `handle_class`, before `device_class` is written; `accepted` tells AT+CLASS= from AT+CLASS=? -/
  | storing (deviceClass : DeviceClass) (accepted : Bool)
deriving DecidableEq, Repr

/-- Where the dispatcher is. -/
inductive DispatcherPc where
  | waiting
  /-- in `continue_pending_join`, before its `atomic_cas` -/
  | casDue
  /-- in `rzi_at_lorawan_apply_class`, before it reads `service_started` -/
  | startedDue
  /-- before it reads `device_class` -/
  | classDue
  /-- before it reads `device_class` again, for `rzi_lorawan_set_class` -/
  | applyDue
  /-- before `rzi_lorawan_join` -/
  | joinDue
deriving DecidableEq, Repr

structure State where
  service : Service
  /-- the service's own record of the class -/
  configuredClass : DeviceClass
  context : Context
  atThread : AtPc
  dispatcher : DispatcherPc
  /-- newest first -/
  log : List Entry

def State.init : State := ⟨.init, .a, ⟨false, false, .a⟩, .idle, .waiting, []⟩

variable (supported : DeviceClass → Bool) (build : Build)

/-! ### The service's calls -/

/-- `rzi_lorawan_set_class`; `answer` is that of the backend. -/
def lorawanSetClass (deviceClass : DeviceClass) (answer : Except Err Unit) (s : State) :
    Except Err Unit × State :=
  if !s.service.started then (.error .notReady, s)
  else if !supported deviceClass then (.error .notSupported, s)
  else
    match answer with
    | .error e => (.error e, s)
    | .ok () => (.ok (), { s with configuredClass := deviceClass })

/-- `rzi_lorawan_get_class`; `answer` is that of the backend, if it has the operation. -/
def lorawanGetClass (answer : Option (Except Err DeviceClass)) (s : State) :
    Except Err DeviceClass × State :=
  if !s.service.started then (.error .notReady, s)
  else
    match answer with
    | some (.ok deviceClass) => (.ok deviceClass, { s with configuredClass := deviceClass })
    | some (.error e) => if e = .notSupported then (.ok s.configuredClass, s) else (.error e, s)
    | none => (.ok s.configuredClass, s)

/-- `rzi_lorawan_init` up to `backend.start`. -/
def initBegin (setRegion : Except Err Unit) (s : Service) : Except Err Unit × Service :=
  if s.started then (.error .already, s)
  else
    match setRegion with
    | .error e => (.error e, s)
    | .ok () => (.ok (), publishState .starting { s with started := true })

/-- `rzi_lorawan_init` after `backend.start`. -/
def initEnd (start : Except Err Unit) (s : Service) : Except Err Unit × Service :=
  match start with
  | .error e => (.error e, publishState .stopped { s with started := false })
  | .ok () => (.ok (), s)

/-- Where nothing happens between the two, they are `rzi_lorawan_init`. -/
theorem lorawanInit_eq (setRegion start : Except Err Unit) (s : Service) :
    Lorawan.lorawanInit setRegion start s =
      match initBegin setRegion s with
      | (.error e, s) => (.error e, s)
      | (.ok (), s) => initEnd start s := by
  unfold Lorawan.lorawanInit initBegin
  split
  · rfl
  · rcases setRegion with e | _
    · rfl
    · rfl

/-- The deferred join and that of an AT+JOIN after the start. -/
def joinKeeping (env : Env) (s : State) : Except Err Unit × State :=
  let result := lorawanJoin build 1 ⟨joinKeep, joinKeep, joinKeep⟩ env s.service
  (result.1, { s with service := result.2 })

/-! ### The AT thread -/

/-- The argument of AT+CLASS, with the check of `class_supported`. -/
def requestedClass (argument : List UInt8) : Except Err DeviceClass :=
  let checked (deviceClass : DeviceClass) : Except Err DeviceClass :=
    if supported deviceClass then .ok deviceClass else .error .notSupported
  if argument = ascii "A" then checked .a
  else if argument = ascii "B" then checked .b
  else if argument = ascii "C" then checked .c
  else .error .invalid

/-- `handle_class` for AT+CLASS=, up to the write of `device_class` when the service is started. -/
def handleClassWrite (argument : List UInt8) (answer : Except Err Unit) (s : State) : State :=
  match requestedClass supported argument with
  | .error _ => s
  | .ok deviceClass =>
    if s.context.serviceStarted then
      match lorawanSetClass supported deviceClass answer s with
      | (.error e, s) => { s with log := .setClass deviceClass (.error e) :: s.log }
      | (.ok (), s) =>
        { s with atThread := .storing deviceClass true, log := .setClass deviceClass (.ok ()) :: s.log }
    else
      { s with
        context := { s.context with deviceClass := deviceClass }
        log := .accepted deviceClass :: s.log }

/-- `handle_class` for AT+CLASS=?, up to the write of `device_class`. -/
def handleClassRead (answer : Option (Except Err DeviceClass)) (s : State) : State :=
  if s.context.serviceStarted then
    match lorawanGetClass answer s with
    | (.error _, s) => s
    | (.ok deviceClass, s) => { s with atThread := .storing deviceClass false }
  else s

/-- `rzi_at_lorawan_join_start`, as far as `rzi_lorawan_init` if it starts the service. -/
def joinStart (region : Except Err Unit) (env : Env) (s : State) : State :=
  if s.context.serviceStarted then
    if s.service.started ∧ env.isJoined = .ok true then s else (joinKeeping build env s).2
  else
    match region with
    | .error _ => s
    | .ok () => { s with context := { s.context with joinPending := true }, atThread := .initDue }

/-- `rzi_at_lorawan_join_stop`. -/
def joinStop (env : Env) (s : State) : State :=
  { s with
    context := { s.context with joinPending := false }
    service :=
      if s.context.serviceStarted then (Lorawan.lorawanLeave env s.service).2 else s.service }

/-- The next step of `start_service` or `handle_class`. -/
def atStep (answer : Except Err Unit) (s : State) : Option State :=
  match s.atThread with
  | .idle => none
  | .initDue =>
    let (rc, service) := initBegin answer s.service
    some { s with service := service, atThread := if rc = .ok () then .startDue else .initFailed }
  | .startDue =>
    let (rc, service) := initEnd answer s.service
    some { s with service := service, atThread := if rc = .ok () then .initDone else .initFailed }
  | .initDone =>
    some { s with context := { s.context with serviceStarted := true }, atThread := .idle }
  | .initFailed =>
    some { s with context := { s.context with joinPending := false }, atThread := .idle }
  | .storing deviceClass accepted =>
    some { s with
      context := { s.context with deviceClass := deviceClass }
      atThread := .idle
      log := if accepted then .accepted deviceClass :: s.log else s.log }

/-! ### The dispatcher -/

/-- The events on which `on_event` calls `continue_pending_join`. -/
def continuesJoin : Event → Bool
  | .ready | .stateChanged .ready => true
  | _ => false

/-- The next step of the dispatcher: `dispatch` up to the package's callback, and that callback. -/
def dispatcherStep (answer : Except Err Unit) (env : Env) (s : State) : Option State :=
  match s.dispatcher with
  | .waiting =>
    match s.service.events with
    | [] => none
    | q :: events =>
      some { s with
        service := Lorawan.dispatch q.event { s.service with events := events }
        dispatcher := if (Lorawan.eventFromBackend q.event).any continuesJoin then .casDue else .waiting }
  | .casDue =>
    if s.context.joinPending then
      some { s with context := { s.context with joinPending := false }, dispatcher := .startedDue }
    else some { s with dispatcher := .waiting }
  | .startedDue =>
    some { s with dispatcher := if s.context.serviceStarted then .classDue else .joinDue }
  | .classDue =>
    some { s with dispatcher := if s.context.deviceClass = .a then .joinDue else .applyDue }
  | .applyDue =>
    match lorawanSetClass supported s.context.deviceClass answer s with
    | (.error e, s) =>
      some { s with
        dispatcher := .waiting
        log := .joinFailed :: .applyClass s.context.deviceClass (.error e) :: s.log }
    | (.ok (), s) =>
      some { s with
        dispatcher := .joinDue
        log := .applyClass s.context.deviceClass (.ok ()) :: s.log }
  | .joinDue =>
    match joinKeeping build env s with
    | (.error e, s) =>
      some { s with dispatcher := .waiting, log := .joinFailed :: .join (.error e) :: s.log }
    | (.ok (), s) => some { s with dispatcher := .waiting, log := .join (.ok ()) :: s.log }

/-! ### Runs -/

inductive Act where
  | classWrite (argument : List UInt8) (answer : Except Err Unit)
  | classRead (answer : Option (Except Err DeviceClass))
  | join (region : Except Err Unit) (env : Env)
  | joinStop (env : Env)
  | next (answer : Except Err Unit)
  | dispatcher (answer : Except Err Unit) (env : Env)
  /-- another thread calls the service, or the backend publishes an event -/
  | service (a : Lorawan.Act)
  /-- the application sets the class -/
  | setClass (deviceClass : DeviceClass) (answer : Except Err Unit)

/-- The AT thread takes the next line only when it is done with the one before. -/
def step (s : State) : Act → Option State
  | .classWrite argument answer =>
    if s.atThread = .idle then some (handleClassWrite supported argument answer s) else none
  | .classRead answer => if s.atThread = .idle then some (handleClassRead answer s) else none
  | .join region env => if s.atThread = .idle then some (joinStart build region env s) else none
  | .joinStop env => if s.atThread = .idle then some (joinStop env s) else none
  | .next answer => atStep answer s
  | .dispatcher answer env => dispatcherStep supported build answer env s
  | .service .dispatch => none
  | .service a => (Lorawan.step build s.service a).map fun service => { s with service := service }
  | .setClass deviceClass answer => some (lorawanSetClass supported deviceClass answer s).2

/-! ### The property -/

/-- The class of the last AT+CLASS that was accepted. -/
def wanted : List Entry → DeviceClass
  | [] => .a
  | .accepted deviceClass :: _ => deviceClass
  | _ :: log => wanted log

/-- `rzi_lorawan_set_class` was called with the class and returned 0. -/
def Applied (deviceClass : DeviceClass) (log : List Entry) : Prop :=
  .setClass deviceClass (.ok ()) ∈ log ∨ .applyClass deviceClass (.ok ()) ∈ log

/-- A call of `continue_pending_join` that returned an error. -/
def Entry.failed : Entry → Bool
  | .applyClass _ (.error _) | .join (.error _) => true
  | _ => false

/-- Each deferred join came after the class that was asked for had been set, and each one that failed,
in setting the class or in joining, was reported. -/
structure TakesEffect (log : List Entry) : Prop where
  applied : ∀ rc before, .join rc :: before <:+ log →
    wanted before = .a ∨ Applied (wanted before) before
  reported : ∀ x before, x.failed = true → x :: before <:+ log →
    .joinFailed :: x :: before <:+ log

/-- The class that AT+CLASS=? is about to write. -/
def AtPc.queried : AtPc → Option DeviceClass
  | .storing deviceClass false => some deviceClass
  | _ => none

/-- In `rzi_at_lorawan_apply_class`, past its look at `service_started`. -/
def DispatcherPc.applying : DispatcherPc → Bool
  | .classDue | .applyDue => true
  | _ => false

/-- A deferred join has still to read the class. -/
def State.Outstanding (s : State) : Prop :=
  s.context.joinPending = true ∨ s.dispatcher = .startedDue ∨ s.dispatcher.applying = true

/-- The dispatcher does not test `service_started` before it is set, unless the class is A; while a
deferred join has still to read the class, AT+CLASS=? does not overwrite the one that was asked for
with another; and no class is asked for of a service that is not started while the dispatcher is
between its test and its join. -/
def InTime (s : State) : Act → Prop
  | .dispatcher _ _ =>
    s.dispatcher = .startedDue → s.context.serviceStarted = true ∨ s.context.deviceClass = .a
  | .next _ =>
    ∀ deviceClass ∈ s.atThread.queried, s.Outstanding →
      wanted s.log = .a ∨ deviceClass = wanted s.log
  | .classWrite argument _ =>
    s.dispatcher = .joinDue → s.context.serviceStarted = true ∨ requestedClass supported argument = .ok .a
  | _ => True

/-! ### Logs -/

variable {supported build} {s t : State} {a : Act} {log : List Entry} {x : Entry}
  {deviceClass : DeviceClass}

theorem Applied.cons (h : Applied deviceClass log) (x : Entry) : Applied deviceClass (x :: log) :=
  h.imp (List.mem_cons_of_mem x) (List.mem_cons_of_mem x)

theorem Applied.of_accepted {k : DeviceClass} (h : Applied k (.accepted deviceClass :: log)) :
    Applied k log := by
  simpa [Applied] using h

theorem takesEffect_nil : TakesEffect [] := by
  constructor
  · intro rc before h
    exact absurd (List.suffix_nil.1 h) (List.cons_ne_nil _ _)
  · intro x before _ h
    exact absurd (List.suffix_nil.1 h) (List.cons_ne_nil _ _)

theorem TakesEffect.cons (h : TakesEffect log)
    (happlied : ∀ rc, x = .join rc → wanted log = .a ∨ Applied (wanted log) log)
    (hfailed : x.failed = false) : TakesEffect (x :: log) := by
  constructor
  · intro rc before hbefore
    rcases List.suffix_cons_iff.1 hbefore with heq | hlog
    · obtain ⟨hx, rfl⟩ := List.cons.inj heq
      exact happlied rc hx.symm
    · exact h.applied rc before hlog
  · intro y before hy hbefore
    rcases List.suffix_cons_iff.1 hbefore with heq | hlog
    · rw [(List.cons.inj heq).1, hfailed] at hy
      cases hy
    · exact (h.reported y before hy hlog).trans (List.suffix_cons x log)

/-- A failed call and its report. -/
theorem TakesEffect.cons_failed (h : TakesEffect log)
    (happlied : ∀ rc, x = .join rc → wanted log = .a ∨ Applied (wanted log) log) :
    TakesEffect (.joinFailed :: x :: log) := by
  constructor
  · intro rc before hbefore
    rcases List.suffix_cons_iff.1 hbefore with heq | hbefore
    · cases heq
    rcases List.suffix_cons_iff.1 hbefore with heq | hlog
    · obtain ⟨hx, rfl⟩ := List.cons.inj heq
      exact happlied rc hx.symm
    · exact h.applied rc before hlog
  · intro y before hy hbefore
    rcases List.suffix_cons_iff.1 hbefore with heq | hbefore
    · cases heq
      cases hy
    rcases List.suffix_cons_iff.1 hbefore with heq | hlog
    · obtain ⟨rfl, rfl⟩ := List.cons.inj heq
      exact List.suffix_rfl
    · have hsuffix : log <:+ Entry.joinFailed :: x :: log := ⟨[.joinFailed, x], rfl⟩
      exact (h.reported y before hy hlog).trans hsuffix

/-! ### The invariant -/

/-- The context, the threads and the log between two steps. -/
structure Inv (s : State) : Prop where
  unstarted : s.context.serviceStarted = false → s.context.deviceClass = wanted s.log
  stored : s.Outstanding → wanted s.log = .a ∨ s.context.deviceClass = wanted s.log
  storing : ∀ deviceClass accepted, s.atThread = .storing deviceClass accepted →
    s.context.serviceStarted = true ∧ (accepted = true → .setClass deviceClass (.ok ()) ∈ s.log)
  tested : s.dispatcher.applying = true → s.context.serviceStarted = true
  unset : s.context.serviceStarted = false → ∀ deviceClass, ¬ Applied deviceClass s.log
  joining : s.dispatcher = .joinDue → wanted s.log = .a ∨ Applied (wanted s.log) s.log
  effect : TakesEffect s.log

theorem inv_init : Inv .init where
  unstarted _ := rfl
  stored _ := .inl rfl
  storing := nofun
  tested := nofun
  unset _ _ := by rintro (h | h) <;> cases h
  joining := nofun
  effect := takesEffect_nil

/-- The invariant does not read the service, nor where the AT thread is, unless it stores a class. -/
theorem Inv.congr (h : Inv s) (hc : t.context = s.context) (hd : t.dispatcher = s.dispatcher)
    (hl : t.log = s.log)
    (hat : ∀ deviceClass accepted, t.atThread = .storing deviceClass accepted →
      s.context.serviceStarted = true ∧ (accepted = true → .setClass deviceClass (.ok ()) ∈ s.log)) :
    Inv t := by
  constructor
  · rw [hc, hl]; exact h.unstarted
  · rw [State.Outstanding, hc, hd, hl]; exact h.stored
  · rw [hc, hl]; exact hat
  · rw [hd, hc]; exact h.tested
  · rw [hc, hl]; exact h.unset
  · rw [hd, hl]; exact h.joining
  · rw [hl]; exact h.effect

theorem Inv.frame (h : Inv s) (hc : t.context = s.context) (ha : t.atThread = s.atThread)
    (hd : t.dispatcher = s.dispatcher) (hl : t.log = s.log) : Inv t :=
  h.congr hc hd hl (by rw [ha]; exact h.storing)

theorem lorawanSetClass_cases (deviceClass : DeviceClass) (answer : Except Err Unit) (s : State) :
    (∃ e, lorawanSetClass supported deviceClass answer s = (.error e, s)) ∨
      lorawanSetClass supported deviceClass answer s =
        (.ok (), { s with configuredClass := deviceClass }) := by
  unfold lorawanSetClass
  split_ifs
  · exact .inl ⟨_, rfl⟩
  · exact .inl ⟨_, rfl⟩
  · rcases answer with e | _
    · exact .inl ⟨e, rfl⟩
    · exact .inr rfl

theorem lorawanGetClass_frame (answer : Option (Except Err DeviceClass)) (s : State) :
    ∃ configured, (lorawanGetClass answer s).2 = { s with configuredClass := configured } := by
  unfold lorawanGetClass
  split_ifs
  · exact ⟨s.configuredClass, rfl⟩
  · split
    · exact ⟨_, rfl⟩
    · split_ifs
      · exact ⟨s.configuredClass, rfl⟩
      · exact ⟨s.configuredClass, rfl⟩
    · exact ⟨s.configuredClass, rfl⟩

/-- A call of `rzi_lorawan_set_class` by `handle_class`. -/
theorem Inv.setClass (h : Inv s) (hs : s.context.serviceStarted = true) (deviceClass : DeviceClass)
    (rc : Except Err Unit) : Inv { s with log := .setClass deviceClass rc :: s.log } where
  unstarted := h.unstarted
  stored := h.stored
  storing k accepted hk :=
    have hstoring := h.storing k accepted hk
    ⟨hstoring.1, fun ha => List.mem_cons_of_mem _ (hstoring.2 ha)⟩
  tested := h.tested
  unset hu := by
    rw [show s.context.serviceStarted = false from hu] at hs
    cases hs
  joining hd := (h.joining hd).imp_right fun hset => hset.cons _
  effect := h.effect.cons nofun rfl

/-- A class becomes the one that was asked for. -/
theorem Inv.accept (h : Inv s) (deviceClass : DeviceClass)
    (hnew : s.dispatcher = .joinDue → deviceClass = .a ∨ Applied deviceClass s.log) :
    Inv { s with
      context := { s.context with deviceClass := deviceClass }
      atThread := .idle
      log := .accepted deviceClass :: s.log } where
  unstarted _ := rfl
  stored _ := .inr rfl
  storing := nofun
  tested := h.tested
  unset hu k hk := h.unset hu k hk.of_accepted
  joining hd := (hnew hd).imp_right fun hset => hset.cons _
  effect := h.effect.cons nofun rfl

theorem handleClassWrite_inv (h : Inv s) (hidle : s.atThread = .idle) {argument : List UInt8}
    (answer : Except Err Unit) (hG : InTime supported s (.classWrite argument answer)) :
    Inv (handleClassWrite supported argument answer s) := by
  unfold handleClassWrite
  rcases hr : requestedClass supported argument with e | deviceClass
  · exact h
  dsimp only
  split_ifs with hs
  · have hset := fun rc => h.setClass hs deviceClass rc
    rcases lorawanSetClass_cases deviceClass answer s with ⟨e, he⟩ | hok
    · rw [he]
      exact hset (.error e)
    · rw [hok]
      refine (hset (.ok ())).congr rfl rfl rfl ?_
      rintro k accepted hk
      cases hk
      exact ⟨hs, fun _ => List.mem_cons_self⟩
  · -- no class but A is asked for behind the dispatcher's test
    have hnew : s.dispatcher = .joinDue → deviceClass = .a ∨ Applied deviceClass s.log := by
      intro hd
      rcases hG hd with hstarted | ha
      · exact absurd hstarted hs
      · rw [hr] at ha
        exact .inl (Except.ok.inj ha)
    exact (h.accept deviceClass hnew).frame rfl hidle rfl rfl

theorem handleClassRead_inv (h : Inv s) (answer : Option (Except Err DeviceClass)) :
    Inv (handleClassRead answer s) := by
  unfold handleClassRead
  split_ifs with hs
  · obtain ⟨configured, hframe⟩ := lorawanGetClass_frame answer s
    rcases hx : lorawanGetClass answer s with ⟨e | deviceClass, s'⟩
    · rw [hx] at hframe
      rw [show s' = _ from hframe]
      exact h.frame rfl rfl rfl rfl
    · rw [hx] at hframe
      rw [show s' = _ from hframe]
      refine h.congr rfl rfl rfl ?_
      rintro k accepted hk
      cases hk
      exact ⟨hs, nofun⟩
  · exact h

theorem joinStart_inv (h : Inv s) (region : Except Err Unit) (env : Env) :
    Inv (joinStart build region env s) := by
  unfold joinStart
  split_ifs with hs hj
  · exact h
  · exact h.frame rfl rfl rfl rfl
  · rcases region with e | _
    · exact h
    · have hunstarted : s.context.serviceStarted = false := by simpa using hs
      exact ⟨h.unstarted, fun _ => .inr (h.unstarted hunstarted), nofun, h.tested, h.unset, h.joining,
        h.effect⟩

/-- The deferred join is called off. -/
theorem Inv.clear (h : Inv s) :
    Inv { s with context := { s.context with joinPending := false } } := by
  refine ⟨h.unstarted, fun hout => h.stored ?_, h.storing, h.tested, h.unset, h.joining, h.effect⟩
  rcases hout with hp | hd
  · cases hp
  · exact .inr hd

theorem atStep_inv (h : Inv s) {answer : Except Err Unit} (hG : InTime supported s (.next answer))
    (ht : atStep answer s = some t) : Inv t := by
  unfold atStep at ht
  rcases hat : s.atThread with _ | _ | _ | _ | _ | ⟨deviceClass, accepted⟩ <;>
    rw [hat] at ht <;> cases ht
  · refine h.congr rfl rfl rfl fun k accepted hk => ?_
    dsimp only at hk
    split_ifs at hk
  · refine h.congr rfl rfl rfl fun k accepted hk => ?_
    dsimp only at hk
    split_ifs at hk
  · exact ⟨nofun, h.stored, nofun, fun _ => rfl, nofun, h.joining, h.effect⟩
  · exact h.clear.congr rfl rfl rfl nofun
  · obtain ⟨hs, hset⟩ := h.storing deviceClass accepted hat
    rcases accepted with _ | _
    · refine ⟨fun hu => ?_, fun hout => ?_, nofun, h.tested, h.unset, h.joining, h.effect⟩
      · rw [show s.context.serviceStarted = false from hu] at hs
        cases hs
      · exact hG deviceClass (by rw [hat]; rfl) hout
    · exact h.accept deviceClass fun _ => .inr (.inl (hset rfl))

/-- The dispatcher goes on to `pc`. -/
theorem Inv.goto (h : Inv s) (pc : DispatcherPc)
    (hread : pc = .startedDue ∨ pc.applying = true → s.Outstanding)
    (htested : pc.applying = true → s.context.serviceStarted = true)
    (hjoining : pc = .joinDue → wanted s.log = .a ∨ Applied (wanted s.log) s.log) :
    Inv { s with dispatcher := pc } := by
  refine ⟨h.unstarted, fun hout => h.stored ?_, h.storing, htested, h.unset, hjoining, h.effect⟩
  rcases hout with hp | hpc
  · exact .inl hp
  · exact hread hpc

theorem Inv.wait (h : Inv s) : Inv { s with dispatcher := .waiting } :=
  h.goto .waiting (by rintro (h | h) <;> cases h) nofun nofun

theorem Inv.taken (h : Inv s) (hp : s.context.joinPending = true) :
    Inv { s with context := { s.context with joinPending := false }, dispatcher := .startedDue } := by
  have hstarted : Inv { s with dispatcher := .startedDue } :=
    h.goto .startedDue (fun _ => .inl hp) nofun nofun
  exact hstarted.clear

/-- The class that a deferred join reads is the one that was asked for. -/
theorem Inv.class_read (h : Inv s) (hd : s.dispatcher.applying = true) :
    wanted s.log = .a ∨ s.context.deviceClass = wanted s.log := h.stored (.inr (.inr hd))

/-- The dispatcher skips the class where it is A. -/
theorem Inv.skip (h : Inv s)
    (hs : s.context.serviceStarted = false ∨ s.dispatcher.applying = true)
    (ha : s.context.deviceClass = .a) : Inv { s with dispatcher := .joinDue } := by
  refine h.goto .joinDue (by rintro (h | h) <;> cases h) nofun fun _ => ?_
  have hstored : wanted s.log = .a ∨ s.context.deviceClass = wanted s.log := by
    rcases hs with hs | hd
    · exact .inr (h.unstarted hs)
    · exact h.class_read hd
  rcases hstored with hwanted | hclass
  · exact .inl hwanted
  · rw [ha] at hclass
    exact .inl hclass.symm

/-- The dispatcher adds `entries` to the log and goes on to `pc`, past the class. -/
theorem Inv.record (h : Inv s) {pc : DispatcherPc} (entries : List Entry)
    (hpc : pc = .waiting ∨ pc = .joinDue)
    (hwanted : wanted (entries ++ s.log) = wanted s.log)
    (hset : s.context.serviceStarted = false → ∀ k, Applied k (entries ++ s.log) → Applied k s.log)
    (hjoining : pc = .joinDue → wanted s.log = .a ∨ Applied (wanted s.log) (entries ++ s.log))
    (heffect : TakesEffect (entries ++ s.log)) :
    Inv { s with dispatcher := pc, log := entries ++ s.log } := by
  constructor
  · intro hu
    show s.context.deviceClass = wanted (entries ++ s.log)
    rw [hwanted]
    exact h.unstarted hu
  · intro hout
    show wanted (entries ++ s.log) = .a ∨ s.context.deviceClass = wanted (entries ++ s.log)
    rw [hwanted]
    refine h.stored ?_
    rcases hout with hp | hd
    · exact .inl hp
    · rcases hpc with rfl | rfl <;> rcases hd with hd | hd <;> cases hd
  · intro k accepted hk
    have hstoring := h.storing k accepted hk
    exact ⟨hstoring.1, fun ha => List.mem_append_right _ (hstoring.2 ha)⟩
  · intro hd
    rcases hpc with rfl | rfl <;> cases hd
  · exact fun hu k hk => h.unset hu k (hset hu k hk)
  · intro hd
    show wanted (entries ++ s.log) = .a ∨ Applied (wanted (entries ++ s.log)) (entries ++ s.log)
    rw [hwanted]
    exact hjoining hd
  · exact heffect

theorem Inv.applied (h : Inv s) (hd : s.dispatcher = .applyDue) :
    Inv { s with
      dispatcher := .joinDue
      log := .applyClass s.context.deviceClass (.ok ()) :: s.log } := by
  have happlying : s.dispatcher.applying = true := by rw [hd]; rfl
  refine h.record [.applyClass s.context.deviceClass (.ok ())] (.inr rfl) rfl ?_ ?_ ?_
  · intro hu
    rw [h.tested happlying] at hu
    cases hu
  · intro _
    rcases h.class_read happlying with hwanted | hclass
    · exact .inl hwanted
    · refine .inr (.inr ?_)
      rw [hclass]
      exact List.mem_cons_self
  · exact h.effect.cons nofun rfl

theorem Inv.applyFailed (h : Inv s) (e : Err) :
    Inv { s with
      dispatcher := .waiting
      log := .joinFailed :: .applyClass s.context.deviceClass (.error e) :: s.log } := by
  refine h.record [.joinFailed, .applyClass s.context.deviceClass (.error e)] (.inl rfl) rfl
    ?_ nofun (h.effect.cons_failed nofun)
  intro _ k hk
  simpa [Applied] using hk

theorem Inv.joined (h : Inv s) (hd : s.dispatcher = .joinDue) :
    Inv { s with dispatcher := .waiting, log := .join (.ok ()) :: s.log } := by
  refine h.record [.join (.ok ())] (.inl rfl) rfl ?_ nofun
    (h.effect.cons (fun _ _ => h.joining hd) rfl)
  intro _ k hk
  simpa [Applied] using hk

theorem Inv.joinFailed (h : Inv s) (hd : s.dispatcher = .joinDue) (e : Err) :
    Inv { s with dispatcher := .waiting, log := .joinFailed :: .join (.error e) :: s.log } := by
  refine h.record [.joinFailed, .join (.error e)] (.inl rfl) rfl ?_ nofun
    (h.effect.cons_failed fun _ _ => h.joining hd)
  intro _ k hk
  simpa [Applied] using hk

theorem dispatcherStep_inv (h : Inv s) {answer : Except Err Unit} {env : Env}
    (hG : InTime supported s (.dispatcher answer env))
    (ht : dispatcherStep supported build answer env s = some t) : Inv t := by
  unfold dispatcherStep at ht
  rcases hd : s.dispatcher with _ | _ | _ | _ | _ | _ <;> rw [hd] at ht <;> dsimp only at ht
  · split at ht
    · cases ht
    · cases ht
      refine (h.goto _ ?_ ?_ ?_).frame rfl rfl rfl rfl <;> split_ifs <;> simp [DispatcherPc.applying]
  · split_ifs at ht with hp
    · cases ht
      exact h.taken hp
    · cases ht
      exact h.wait
  · cases ht
    by_cases hs : s.context.serviceStarted = true
    · rw [if_pos hs]
      exact h.goto .classDue (fun _ => .inr (.inl hd)) (fun _ => hs) nofun
    · rw [if_neg hs]
      rcases hG hd with hstarted | ha
      · exact absurd hstarted hs
      · exact h.skip (.inl (by simpa using hs)) ha
  · cases ht
    have happlying : s.dispatcher.applying = true := by rw [hd]; rfl
    by_cases ha : s.context.deviceClass = .a
    · rw [if_pos ha]
      exact h.skip (.inr happlying) ha
    · rw [if_neg ha]
      exact h.goto .applyDue (fun _ => .inr (.inr happlying)) (fun _ => h.tested happlying) nofun
  · rcases lorawanSetClass_cases s.context.deviceClass answer s with ⟨e, he⟩ | hok
    · rw [he] at ht
      cases ht
      exact h.applyFailed e
    · rw [hok] at ht
      cases ht
      exact (h.applied hd).frame rfl rfl rfl rfl
  · rcases hj : joinKeeping build env s with ⟨e | _, s'⟩
    · rw [hj] at ht
      cases ht
      obtain rfl : _ = s' := congrArg Prod.snd hj
      exact (h.joinFailed hd e).frame rfl rfl rfl rfl
    · rw [hj] at ht
      cases ht
      obtain rfl : _ = s' := congrArg Prod.snd hj
      exact (h.joined hd).frame rfl rfl rfl rfl

theorem step_inv (h : Inv s) (hG : InTime supported s a) (ht : step supported build s a = some t) :
    Inv t := by
  rcases a with ⟨argument, answer⟩ | ⟨answer⟩ | ⟨region, env⟩ | ⟨env⟩ | ⟨answer⟩ | ⟨answer, env⟩ | ⟨a⟩ |
    ⟨deviceClass, answer⟩
  · obtain ⟨hidle, ht⟩ := Option.ite_none_right_eq_some.1 ht
    cases ht
    exact handleClassWrite_inv h hidle answer hG
  · obtain ⟨-, ht⟩ := Option.ite_none_right_eq_some.1 ht
    cases ht
    exact handleClassRead_inv h answer
  · obtain ⟨-, ht⟩ := Option.ite_none_right_eq_some.1 ht
    cases ht
    exact joinStart_inv h region env
  · obtain ⟨-, ht⟩ := Option.ite_none_right_eq_some.1 ht
    cases ht
    exact h.clear.frame rfl rfl rfl rfl
  · exact atStep_inv h hG ht
  · exact dispatcherStep_inv h hG ht
  · obtain ⟨service, -, rfl⟩ : ∃ service, Lorawan.step build s.service a = some service ∧
        { s with service := service } = t := by
      cases a with
      | dispatch => cases ht
      | _ => exact Option.map_eq_some_iff.1 ht
    exact h.frame rfl rfl rfl rfl
  · cases ht
    rcases @lorawanSetClass_cases supported deviceClass answer s with ⟨e, he⟩ | hok
    · rw [he]
      exact h
    · rw [hok]
      exact h.frame rfl rfl rfl rfl

/-- A deferred join whose test of `service_started` comes too early is made without the class. -/
theorem early_join_skips_class (h : Inv s) (hd : s.dispatcher = .startedDue)
    (hs : s.context.serviceStarted = false) (ha : s.context.deviceClass ≠ .a)
    {answer answer' : Except Err Unit} {env env' : Env}
    (hr : run (step supported build) s [.dispatcher answer env, .dispatcher answer' env'] = some t) :
    ¬ TakesEffect t.log := by
  obtain ⟨s₁, hs₁, hr⟩ := run_cons_eq_some.1 hr
  obtain ⟨t', ht, hr⟩ := run_cons_eq_some.1 hr
  cases hr
  have hjoin : s₁ = { s with dispatcher := .joinDue } := by
    rw [step, dispatcherStep, hd] at hs₁
    simpa [hs] using hs₁.symm
  subst hjoin
  have hsuffix : ∃ rc, .join rc :: s.log <:+ t.log := by
    simp only [step, dispatcherStep] at ht
    split at ht
    · rename_i e s' hj
      obtain rfl : _ = s' := congrArg Prod.snd hj
      cases ht
      exact ⟨.error e, List.suffix_cons _ _⟩
    · rename_i s' hj
      obtain rfl : _ = s' := congrArg Prod.snd hj
      cases ht
      exact ⟨.ok (), List.suffix_rfl⟩
  obtain ⟨rc, hrc⟩ := hsuffix
  intro heffect
  have hwanted := h.unstarted hs
  rcases heffect.applied rc s.log hrc with hclass | hset
  · rw [hclass] at hwanted
    exact ha hwanted
  · exact h.unset hs _ hset

instance (s : State) : Decidable s.Outstanding := inferInstanceAs (Decidable (_ ∨ _ ∨ _))

instance decidableInTime (s : State) : (a : Act) → Decidable (InTime supported s a)
  | .dispatcher _ _ => inferInstanceAs (Decidable (_ = _ → _ ∨ _))
  | .next _ => inferInstanceAs (Decidable (∀ deviceClass ∈ s.atThread.queried, s.Outstanding → _ ∨ _))
  | .classWrite _ _ => inferInstanceAs (Decidable (_ = _ → _ ∨ _))
  | .classRead _ | .join _ _ | .joinStop _ | .service _ | .setClass _ _ => .isTrue trivial

/-- **AT+CLASS takes effect.** In every run in which the dispatcher does not come too early, each
deferred join comes after the class that was asked for has been set, or is reported as failed. -/
theorem class_takes_effect (supported : DeviceClass → Bool) (build : Build) (as : List Act)
    (has : Meets (step supported build) (InTime supported) .init as) :
    Always (step supported build) (fun s => TakesEffect s.log) .init as :=
  always_of_invariant (fun _ h => h.effect) (fun _ _ _ h hG ht => step_inv h hG ht) inv_init has

/-- AT+CLASS=C, then an AT+JOIN whose READY is handled after the start. -/
def readyAfterInit : List Act :=
  [.classWrite (ascii "C") (.ok ()), .join (.ok ()) Lorawan.joiningEnv, .next (.ok ()),
      .service (.publish .ready 0), .next (.ok ()), .next (.ok ())] ++
    List.replicate 7 (.dispatcher (.ok ()) Lorawan.joiningEnv)

theorem class_takes_effect_after_init :
    (run (step (fun _ => true) Lorawan.fullBuild) .init readyAfterInit).map (·.log) =
        some [.join (.ok ()), .applyClass .c (.ok ()), .accepted .c] ∧
      Always (step (fun _ => true) Lorawan.fullBuild) (fun s => TakesEffect s.log) .init
        readyAfterInit :=
  ⟨by decide, class_takes_effect _ _ _ (by decide)⟩

/-- The same, with READY handled before `rzi_lorawan_init` returns. -/
def readyWithinInit : List Act :=
  [.classWrite (ascii "C") (.ok ()), .join (.ok ()) Lorawan.joiningEnv, .next (.ok ()),
      .service (.publish .ready 0)] ++
    List.replicate 5 (.dispatcher (.ok ()) Lorawan.joiningEnv) ++ [.next (.ok ()), .next (.ok ())]

theorem class_left_at_a : ¬ ∀ as : List Act,
    Always (step (fun _ => true) Lorawan.fullBuild) (fun s => TakesEffect s.log) .init as := by
  intro h
  have hlog : (run (step (fun _ => true) Lorawan.fullBuild) .init readyWithinInit).map (·.log) =
      some [.join (.ok ()), .accepted .c] := by decide
  obtain ⟨s, hs, hlog⟩ := Option.map_eq_some_iff.1 hlog
  have heffect : TakesEffect s.log := h readyWithinInit readyWithinInit s (List.prefix_refl _) hs
  rw [hlog] at heffect
  rcases heffect.applied (.ok ()) [.accepted .c] List.suffix_rfl with hwanted | happlied
  · cases hwanted
  · simp [Applied] at happlied

end Rzi.At.Class
