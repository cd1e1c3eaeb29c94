import Rzi.AtDownlink
import Rzi.AtArguments
import Rzi.UspBackend

/-!
# LinkCheckReq and DeviceTimeReq (`api/lorawan_mac_commands.c`)

`link_check_mode` and `device_time_enabled` are two static variables that no lock protects. A request
stores its mode, has the backend send the MAC command, and a successful ONCE then stores DISABLED; every
`rzi_lorawan_send` and `rzi_lorawan_send_empty` reads both on its way to the backend. Threads may be
anywhere between these steps. What `rzi_lorawan_check_started`, `is_joined` and the backend answer is part
of the actions.

`uplink_requests` says what precedes an uplink, and `mode_printed_iff` when AT+LINKCHECK=? prints the mode
in force.
-/

namespace Rzi.Lorawan.Mac
open Lts Strtol
open Zephyr (MessageType)
open At (Answer Operation ascii parseLong)

/-- `enum rzi_lorawan_link_check_mode`. -/
inductive LinkCheckMode where
  | disabled | once | everyUplink
deriving DecidableEq, Repr

def LinkCheckMode.toNat : LinkCheckMode → Nat
  | .disabled => 0
  | .once => 1
  | .everyUplink => 2

def modeOf : UInt32 → Option LinkCheckMode
  | 0 => some .disabled
  | 1 => some .once
  | 2 => some .everyUplink
  | _ => none

/-- The MAC commands. -/
inductive Op where
  | linkCheck | deviceTime
deriving DecidableEq, Repr

inductive Uplink where
  | data (port : UInt8) (data : List UInt8) (type : MessageType)
  | empty (withPort : Bool) (port : UInt8) (type : MessageType)
deriving DecidableEq, Repr

/-- What the backend is called with. -/
inductive BackendCall where
  | request (op : Op)
  | uplink (uplink : Uplink)
deriving DecidableEq, Repr

/-- Where a thread is. -/
inductive Pc where
  | idle
  /-- in `rzi_lorawan_request_link_check`: before the mode is stored, before `trig_link_check`, and before
  DISABLED is stored -/
  | linkStore (mode : LinkCheckMode)
  | linkTrigger (mode : LinkCheckMode)
  | linkWriteBack
  /-- in `rzi_lorawan_request_device_time` -/
  | timeStore (enabled : Bool)
  | timeTrigger
  /-- in `rzi_lorawan_mac_commands_on_uplink`: before `link_check_mode` is read, before `trig_link_check`,
  before `device_time_enabled` is read and before `trig_device_time` -/
  | uplinkMode (uplink : Uplink)
  | uplinkLinkCheck (uplink : Uplink)
  | uplinkTime (uplink : Uplink)
  | uplinkDeviceTime (uplink : Uplink)
  /-- before the backend gets the uplink -/
  | submit (uplink : Uplink)
deriving DecidableEq

structure State where
  linkCheckMode : LinkCheckMode
  deviceTimeEnabled : Bool
  threads : Nat → Pc
  /-- what each thread has called the backend with, oldest first -/
  calls : Nat → List BackendCall
  /-- what the last call of each thread returned -/
  result : Nat → Except Err Unit
  /-- the mode asked for by the request that stored its mode last, DISABLED once that request is a ONCE
  that has succeeded -/
  wanted : LinkCheckMode
  /-- the thread of that request -/
  owner : Option Nat

def State.boot : State where
  linkCheckMode := .disabled
  deviceTimeEnabled := false
  threads _ := .idle
  calls _ := []
  result _ := .ok ()
  wanted := .disabled
  owner := none

/-- `mac_ops` and `send_empty` of the network table: which operations the backend has. -/
structure Backend where
  mac : Op → Bool
  sendEmpty : Bool

section Model
variable (backend : Backend)

def goto (i : Nat) (pc : Pc) (s : State) : State :=
  { s with threads := fun j => if j = i then pc else s.threads j }

def call (i : Nat) (c : BackendCall) (s : State) : State :=
  { s with calls := fun j => if j = i then s.calls i ++ [c] else s.calls j }

/-- A call of the thread returns. -/
def finish (i : Nat) (rc : Except Err Unit) (s : State) : State :=
  { goto i .idle s with result := fun j => if j = i then rc else s.result j }

/-- `trig_link_check` and `trig_device_time`, answered `answer` by the backend. -/
def trig (i : Nat) (op : Op) (answer : Except Err Unit) (s : State) : Except Err Unit × State :=
  if backend.mac op then (answer, call i (.request op) s) else (.error .notSupported, s)

/-- `rzi_lorawan_request_link_check` up to the store. -/
def requestLinkCheck (i : Nat) (mode : UInt32) (started : Except Err Unit) (s : State) : State :=
  match started with
  | .error e => finish i (.error e) s
  | .ok () =>
    match modeOf mode with
    | none => finish i (.error .invalid) s
    | some mode =>
      if backend.mac .linkCheck then goto i (.linkStore mode) s else finish i (.error .notSupported) s

/-- `rzi_lorawan_request_device_time` up to the store. -/
def requestDeviceTime (i : Nat) (enabled : Bool) (started : Except Err Unit) (s : State) : State :=
  match started with
  | .error e => finish i (.error e) s
  | .ok () =>
    if backend.mac .deviceTime then goto i (.timeStore enabled) s else finish i (.error .notSupported) s

/-- The checks of `rzi_lorawan_send` and `rzi_lorawan_send_empty`. -/
def checkUplink (started : Except Err Unit) (joined : Except Err Bool) : Uplink → Except Err Unit
  | .data port data _ =>
    if port = 0 ∨ 223 < port then .error .invalid
    else if At.Recv.maxPayload < data.length then .error .tooLarge
    else checkJoined
  | .empty withPort port _ =>
    if withPort ∧ (port = 0 ∨ 223 < port) then .error .invalid
    else
      match started with
      | .error e => .error e
      | .ok () => if backend.sendEmpty then checkJoined else .error .notSupported
where
  /-- `check_joined` -/
  checkJoined : Except Err Unit :=
    match started, joined with
    | .error e, _ => .error e
    | .ok (), .error e => .error e
    | .ok (), .ok joined => if joined then .ok () else .error .notJoined

/-- `rzi_lorawan_send` and `rzi_lorawan_send_empty` up to `rzi_lorawan_mac_commands_on_uplink`. -/
def send (i : Nat) (uplink : Uplink) (started : Except Err Unit) (joined : Except Err Bool) (s : State) :
    State :=
  match checkUplink backend started joined uplink with
  | .error e => finish i (.error e) s
  | .ok () => goto i (.uplinkMode uplink) s

/-- The next step of the thread; `answer` is what the backend answers if it is called. -/
def threadStep (i : Nat) (answer : Except Err Unit) (s : State) : Option State :=
  match s.threads i with
  | .idle => none
  | .linkStore mode =>
    let s := { s with linkCheckMode := mode, wanted := mode, owner := some i }
    some (if mode = .disabled then finish i (.ok ()) s else goto i (.linkTrigger mode) s)
  | .linkTrigger mode =>
    let out := trig backend i .linkCheck answer s
    some (if out.1 = .ok () ∧ mode = .once then goto i .linkWriteBack out.2 else finish i out.1 out.2)
  | .linkWriteBack =>
    some (finish i (.ok ()) { s with
      linkCheckMode := .disabled
      wanted := if s.owner = some i then .disabled else s.wanted })
  | .timeStore enabled =>
    let s := { s with deviceTimeEnabled := enabled }
    some (if enabled then goto i .timeTrigger s else finish i (.ok ()) s)
  | .timeTrigger =>
    let out := trig backend i .deviceTime answer s
    some (finish i out.1 out.2)
  | .uplinkMode uplink =>
    some (goto i (if s.linkCheckMode = .everyUplink then .uplinkLinkCheck uplink else .uplinkTime uplink) s)
  | .uplinkLinkCheck uplink => some (goto i (.uplinkTime uplink) (trig backend i .linkCheck answer s).2)
  | .uplinkTime uplink =>
    some (goto i (if s.deviceTimeEnabled then .uplinkDeviceTime uplink else .submit uplink) s)
  | .uplinkDeviceTime uplink => some (goto i (.submit uplink) (trig backend i .deviceTime answer s).2)
  | .submit uplink => some (finish i answer (call i (.uplink uplink) s))

inductive Act where
  | requestLinkCheck (i : Nat) (mode : UInt32) (started : Except Err Unit)
  | requestDeviceTime (i : Nat) (enabled : Bool) (started : Except Err Unit)
  | send (i : Nat) (uplink : Uplink) (started : Except Err Unit) (joined : Except Err Bool)
  | step (i : Nat) (answer : Except Err Unit)

def Act.thread : Act → Nat
  | .requestLinkCheck i _ _ | .requestDeviceTime i _ _ | .send i _ _ _ | .step i _ => i

/-- A thread calls where it is idle. -/
def step (s : State) : Act → Option State
  | .requestLinkCheck i mode started =>
    if s.threads i = .idle then some (requestLinkCheck backend i mode started s) else none
  | .requestDeviceTime i enabled started =>
    if s.threads i = .idle then some (requestDeviceTime backend i enabled started s) else none
  | .send i uplink started joined =>
    if s.threads i = .idle then some (send backend i uplink started joined s) else none
  | .step i answer => threadStep backend i answer s

/-- `rzi_lorawan_get_link_check_mode`. -/
def getLinkCheckMode (started : Except Err Unit) (s : State) : Except Err LinkCheckMode := do
  started
  if backend.mac .linkCheck then .ok s.linkCheckMode else .error .notSupported

/-- `handle_linkcheck` on a read. -/
def linkcheckRead (started : Except Err Unit) (s : State) : Except Err Answer := do
  let mode ← getLinkCheckMode backend started s
  return .value (ascii "AT+LINKCHECK=" ++ decimal mode.toNat)

/-- The mode that `handle_linkcheck` requests on a write. -/
def linkcheckWrite (argument : List UInt8) : Except Err UInt32 :=
  match parseLong 32 argument with
  | .error _ => .error .invalid
  | .ok parsed => if parsed < 0 ∨ 2 < parsed then .error .invalid else .ok (UInt32.ofNat parsed.toNat)

end Model

/-! ### What a step leaves alone -/

section Frame
variable {backend : Backend} {i j : Nat} {op : Op} {answer : Except Err Unit} {rc : Except Err Unit} {pc : Pc}
  {s t : State} {a : Act}

theorem goto_threads (i : Nat) (pc : Pc) (s : State) : (goto i pc s).threads i = pc := if_pos rfl

theorem finish_threads (i : Nat) (rc : Except Err Unit) (s : State) : (finish i rc s).threads i = .idle :=
  if_pos rfl

theorem call_calls (i : Nat) (c : BackendCall) (s : State) : (call i c s).calls i = s.calls i ++ [c] :=
  if_pos rfl

/-- What one thread does leaves where another is, what that one has called the backend with and what its
calls have returned. -/
structure Apart (i : Nat) (s t : State) : Prop where
  threads : ∀ j, j ≠ i → t.threads j = s.threads j
  calls : ∀ j, j ≠ i → t.calls j = s.calls j
  result : ∀ j, j ≠ i → t.result j = s.result j

namespace Apart

theorem refl (s : State) : Apart i s s := ⟨fun _ _ => rfl, fun _ _ => rfl, fun _ _ => rfl⟩

theorem trans {u : State} (h : Apart i s t) (h' : Apart i t u) : Apart i s u where
  threads j hj := (h'.threads j hj).trans (h.threads j hj)
  calls j hj := (h'.calls j hj).trans (h.calls j hj)
  result j hj := (h'.result j hj).trans (h.result j hj)

theorem goto (pc : Pc) (s : State) : Apart i s (goto i pc s) :=
  ⟨fun _ hj => if_neg hj, fun _ _ => rfl, fun _ _ => rfl⟩

theorem finish (rc : Except Err Unit) (s : State) : Apart i s (finish i rc s) :=
  ⟨fun _ hj => if_neg hj, fun _ _ => rfl, fun _ hj => if_neg hj⟩

theorem call (c : BackendCall) (s : State) : Apart i s (call i c s) :=
  ⟨fun _ _ => rfl, fun _ hj => if_neg hj, fun _ _ => rfl⟩

theorem trig (op : Op) (answer : Except Err Unit) (s : State) : Apart i s (trig backend i op answer s).2 := by
  unfold Mac.trig
  split
  · exact .call _ s
  · exact .refl s

theorem threadStep (h : threadStep backend i answer s = some t) : Apart i s t := by
  unfold Mac.threadStep at h
  split at h
  · cases h
  all_goals
    cases Option.some.inj h
  · split
    · exact ⟨fun _ hj => if_neg hj, fun _ _ => rfl, fun _ hj => if_neg hj⟩
    · exact ⟨fun _ hj => if_neg hj, fun _ _ => rfl, fun _ _ => rfl⟩
  · split
    · exact (trig .linkCheck answer s).trans (.goto _ _)
    · exact (trig .linkCheck answer s).trans (.finish _ _)
  · exact ⟨fun _ hj => if_neg hj, fun _ _ => rfl, fun _ hj => if_neg hj⟩
  · split
    · exact ⟨fun _ hj => if_neg hj, fun _ _ => rfl, fun _ _ => rfl⟩
    · exact ⟨fun _ hj => if_neg hj, fun _ _ => rfl, fun _ hj => if_neg hj⟩
  · exact (trig .deviceTime answer s).trans (.finish _ _)
  · exact .goto _ s
  · exact (trig .linkCheck answer s).trans (.goto _ _)
  · exact .goto _ s
  · exact (trig .deviceTime answer s).trans (.goto _ _)
  · exact (call _ s).trans (.finish _ _)

end Apart

/-- A call begins: it stores nothing and calls nothing. -/
structure Begins (i : Nat) (s t : State) : Prop where
  apart : Apart i s t
  calls : t.calls i = s.calls i
  linkCheckMode : t.linkCheckMode = s.linkCheckMode
  deviceTimeEnabled : t.deviceTimeEnabled = s.deviceTimeEnabled
  wanted : t.wanted = s.wanted
  owner : t.owner = s.owner

theorem Begins.goto (pc : Pc) (s : State) : Begins i s (goto i pc s) := ⟨.goto pc s, rfl, rfl, rfl, rfl, rfl⟩

theorem Begins.finish (rc : Except Err Unit) (s : State) : Begins i s (finish i rc s) :=
  ⟨.finish rc s, rfl, rfl, rfl, rfl, rfl⟩

/-- What a call of the service is made for, once its checks have passed. -/
inductive Job where
  | linkCheck (mode : LinkCheckMode)
  | deviceTime (enabled : Bool)
  | uplink (uplink : Uplink)
deriving DecidableEq

/-- The call of the thread that the action begins; one that is refused has no job. -/
def Act.job (backend : Backend) (i : Nat) : Act → Option Job
  | .requestLinkCheck j mode started =>
    if j = i ∧ started = .ok () ∧ backend.mac .linkCheck = true then (modeOf mode).map .linkCheck else none
  | .requestDeviceTime j enabled started =>
    if j = i ∧ started = .ok () ∧ backend.mac .deviceTime = true then some (.deviceTime enabled) else none
  | .send j uplink started joined =>
    if j = i ∧ checkUplink backend started joined uplink = .ok () then some (.uplink uplink) else none
  | .step .. => none

/-- The job of the call that a thread is in. -/
def Pc.job : Pc → Option Job
  | .idle => none
  | .linkStore mode | .linkTrigger mode => some (.linkCheck mode)
  | .linkWriteBack => some (.linkCheck .once)
  | .timeStore enabled => some (.deviceTime enabled)
  | .timeTrigger => some (.deviceTime true)
  | .uplinkMode u | .uplinkLinkCheck u | .uplinkTime u | .uplinkDeviceTime u | .submit u => some (.uplink u)

/-- The thread has done nothing of its job. -/
def Pc.fresh : Pc → Bool
  | .idle | .linkStore _ | .timeStore _ | .uplinkMode _ => true
  | _ => false

/-- An action is the beginning of a call or a step of a thread. -/
theorem step_cases (h : step backend s a = some t) :
    (s.threads a.thread = .idle ∧ Begins a.thread s t ∧ (t.threads a.thread).fresh = true ∧
        (t.threads a.thread).job = a.job backend a.thread) ∨
      ∃ answer, a = .step a.thread answer ∧ threadStep backend a.thread answer s = some t := by
  have hgoto : ∀ (i : Nat) (pc : Pc) (job : Option Job), pc.fresh = true → pc.job = job →
      Begins i s (goto i pc s) ∧ ((goto i pc s).threads i).fresh = true ∧
        ((goto i pc s).threads i).job = job := fun i pc job hpc hjob =>
    ⟨.goto pc s, by rw [goto_threads, hpc], by rw [goto_threads, hjob]⟩
  have hfinish : ∀ (i : Nat) (rc : Except Err Unit) (job : Option Job), none = job →
      Begins i s (finish i rc s) ∧ ((finish i rc s).threads i).fresh = true ∧
        ((finish i rc s).threads i).job = job := fun i rc job hjob =>
    ⟨.finish rc s, by rw [finish_threads]; rfl, by rw [finish_threads, ← hjob]; rfl⟩
  rcases a with ⟨i, mode, started⟩ | ⟨i, enabled, started⟩ | ⟨i, uplink, started, joined⟩ | ⟨i, answer⟩
  · simp only [step] at h
    split at h <;> cases h
    rename_i hidle
    refine .inl ⟨hidle, ?_⟩
    unfold requestLinkCheck
    split
    · exact hfinish _ _ _ (by simp [Act.job])
    · split
      · rename_i hmode
        exact hfinish _ _ _ (by simp [Act.job, hmode])
      · rename_i hmode
        split
        · rename_i hmac
          exact hgoto _ _ _ rfl (by simp [Act.job, Act.thread, Pc.job, hmac, hmode])
        · rename_i hmac
          exact hfinish _ _ _ (by simp [Act.job, hmac])
  · simp only [step] at h
    split at h <;> cases h
    rename_i hidle
    refine .inl ⟨hidle, ?_⟩
    unfold requestDeviceTime
    split
    · exact hfinish _ _ _ (by simp [Act.job])
    · split
      · rename_i hmac
        exact hgoto _ _ _ rfl (by simp [Act.job, Act.thread, Pc.job, hmac])
      · rename_i hmac
        exact hfinish _ _ _ (by simp [Act.job, hmac])
  · simp only [step] at h
    split at h <;> cases h
    rename_i hidle
    refine .inl ⟨hidle, ?_⟩
    unfold send
    split
    · rename_i hcheck
      exact hfinish _ _ _ (by simp [Act.job, hcheck])
    · rename_i hcheck
      exact hgoto _ _ _ rfl (by simp [Act.job, Act.thread, Pc.job, hcheck])
  · exact .inr ⟨answer, rfl, h⟩

theorem step_apart (h : step backend s a = some t) : Apart a.thread s t := by
  rcases step_cases h with ⟨-, hbegins, -⟩ | ⟨answer, -, hstep⟩
  · exact hbegins.apart
  · exact .threadStep hstep

end Frame

/-! ### What precedes an uplink -/

section Uplinks
variable {backend : Backend} {M : LinkCheckMode → Prop} {D : Bool → Prop} {i : Nat} {answer : Except Err Unit}
  {s t : State} {a : Act} {acts : List Act} {pc : Pc} {asked : List BackendCall}

/-- The request for a MAC command, where the backend has it. -/
def ask (backend : Backend) (op : Op) : List BackendCall := if backend.mac op then [.request op] else []

def linkPart (backend : Backend) (mode : LinkCheckMode) : List BackendCall :=
  if mode = .everyUplink then ask backend .linkCheck else []

def timePart (backend : Backend) (enabled : Bool) : List BackendCall :=
  if enabled then ask backend .deviceTime else []

/-- What the backend is called with for a job: for an uplink, the LinkCheckReq of EVERY_UPLINK and the
DeviceTimeReq of a set flag right before it, as the two variables were when the thread read them. -/
def Serves (backend : Backend) (M : LinkCheckMode → Prop) (D : Bool → Prop) : Job → List BackendCall → Prop
  | .linkCheck mode, calls => calls = if mode = .disabled then [] else ask backend .linkCheck
  | .deviceTime enabled, calls => calls = timePart backend enabled
  | .uplink u, calls => ∃ mode enabled, M mode ∧ D enabled ∧
      calls = linkPart backend mode ++ timePart backend enabled ++ [.uplink u]

/-- What a thread has called the backend with in the call that it is in. -/
def Begun (backend : Backend) (M : LinkCheckMode → Prop) (D : Bool → Prop) (part : List BackendCall) :
    Pc → Prop
  | .linkTrigger mode => part = [] ∧ mode ≠ .disabled
  | .linkWriteBack => part = ask backend .linkCheck
  | .uplinkLinkCheck _ => part = [] ∧ M .everyUplink
  | .uplinkTime _ => ∃ mode, M mode ∧ part = linkPart backend mode
  | .uplinkDeviceTime _ => ∃ mode, M mode ∧ D true ∧ part = linkPart backend mode
  | .submit _ => ∃ mode enabled, M mode ∧ D enabled ∧ part = linkPart backend mode ++ timePart backend enabled
  | _ => part = []

theorem begun_nil (h : pc.fresh = true) : Begun backend M D asked pc ↔ asked = [] := by
  cases pc <;> first | rfl | cases h

/-- The jobs are done one after the other, each with its calls, but for the one that the thread is at. -/
structure Served (backend : Backend) (M : LinkCheckMode → Prop) (D : Bool → Prop) (jobs : List Job)
    (asked : List BackendCall) (pc : Pc) (done : List Job) (blocks : List (List BackendCall))
    (part : List BackendCall) : Prop where
  jobs : jobs = done ++ pc.job.toList
  asked : asked = blocks.flatten ++ part
  blocks : List.Forall₂ (Serves backend M D) done blocks
  begun : Begun backend M D part pc

theorem trig_calls (op : Op) (answer : Except Err Unit) (s : State) :
    (trig backend i op answer s).2.calls i = s.calls i ++ ask backend op := by
  unfold trig ask
  split
  · exact call_calls i _ s
  · exact (List.append_nil _).symm

namespace Served
variable {pc' : Pc} {jobs done : List Job} {blocks : List (List BackendCall)} {part rest : List BackendCall}

/-- The job is done. -/
theorem close {job : Job} (h : Served backend M D jobs asked pc done blocks part) (hjob : pc.job = some job)
    (hserves : Serves backend M D job (part ++ rest)) :
    Served backend M D jobs (asked ++ rest) .idle (done ++ [job]) (blocks ++ [part ++ rest]) [] where
  jobs := by
    rw [h.jobs, hjob]
    simp [Pc.job]
  asked := by
    rw [h.asked]
    simp
  blocks := List.rel_append h.blocks (.cons hserves .nil)
  begun := rfl

/-- The thread goes on with its job. -/
theorem grow (h : Served backend M D jobs asked pc done blocks part) (hjob : pc'.job = pc.job)
    (hbegun : Begun backend M D (part ++ rest) pc') :
    Served backend M D jobs (asked ++ rest) pc' done blocks (part ++ rest) :=
  ⟨by rw [h.jobs, hjob], by rw [h.asked, List.append_assoc], h.blocks, hbegun⟩

/-- An idle thread takes a job. -/
theorem take (h : Served backend M D jobs asked .idle done blocks part) (hfresh : pc.fresh = true) :
    Served backend M D (jobs ++ pc.job.toList) asked pc done blocks part :=
  ⟨by rw [h.jobs]; simp [Pc.job], h.asked, h.blocks, (begun_nil hfresh).2 h.begun⟩

end Served

/-- A step of the thread, while the variables are as `M` and `D` allow. -/
theorem threadStep_served {jobs done : List Job} {blocks : List (List BackendCall)} {part : List BackendCall}
    (hstep : threadStep backend i answer s = some t) (hM : M s.linkCheckMode) (hD : D s.deviceTimeEnabled)
    (h : Served backend M D jobs asked (s.threads i) done blocks part) :
    ∃ rest done blocks part, t.calls i = s.calls i ++ rest ∧
      Served backend M D jobs (asked ++ rest) (t.threads i) done blocks part := by
  have close : ∀ {t : State} {job : Job} {rest : List BackendCall}, t.calls i = s.calls i ++ rest →
      t.threads i = .idle → (s.threads i).job = some job → Serves backend M D job (part ++ rest) →
      ∃ rest done blocks part, t.calls i = s.calls i ++ rest ∧
        Served backend M D jobs (asked ++ rest) (t.threads i) done blocks part :=
    fun hcalls hpc hjob hserves => ⟨_, _, _, _, hcalls, hpc ▸ h.close hjob hserves⟩
  have grow : ∀ {t : State} {pc : Pc} {rest : List BackendCall}, t.calls i = s.calls i ++ rest →
      t.threads i = pc → pc.job = (s.threads i).job → Begun backend M D (part ++ rest) pc →
      ∃ rest done blocks part, t.calls i = s.calls i ++ rest ∧
        Served backend M D jobs (asked ++ rest) (t.threads i) done blocks part :=
    fun hcalls hpc hjob hbegun => ⟨_, _, _, _, hcalls, hpc ▸ h.grow hjob hbegun⟩
  have hnil : s.calls i = s.calls i ++ [] := (List.append_nil _).symm
  unfold threadStep at hstep
  split at hstep
  · cases hstep
  all_goals
    rename_i hpc
    cases Option.some.inj hstep
    have hbegun := h.begun
    rw [hpc] at hbegun close grow
  -- the mode is stored
  · have hbegun : part = [] := hbegun
    subst hbegun
    split
    · rename_i hmode
      exact close hnil (finish_threads ..) rfl (if_pos hmode).symm
    · rename_i hmode
      exact grow hnil (goto_threads ..) rfl ⟨rfl, hmode⟩
  -- the LinkCheckReq of a request
  · obtain ⟨rfl, hmode⟩ := hbegun
    split
    · rename_i hanswer
      exact grow (trig_calls ..) (goto_threads ..) (by rw [hanswer.2]; rfl) rfl
    · exact close (trig_calls ..) (finish_threads ..) rfl (if_neg hmode).symm
  -- DISABLED is stored
  · exact close hnil (finish_threads ..) rfl ((List.append_nil _).trans hbegun)
  -- the flag is stored
  · have hbegun : part = [] := hbegun
    subst hbegun
    split
    · rename_i henabled
      exact grow hnil (goto_threads ..) (by rw [henabled]; rfl) rfl
    · rename_i henabled
      exact close hnil (finish_threads ..) rfl (if_neg henabled).symm
  -- the DeviceTimeReq of a request
  · have hbegun : part = [] := hbegun
    subst hbegun
    exact close (trig_calls ..) (finish_threads ..) rfl rfl
  -- the mode is read for an uplink
  · have hbegun : part = [] := hbegun
    subst hbegun
    split
    · rename_i hmode
      exact grow hnil (goto_threads ..) rfl ⟨rfl, hmode ▸ hM⟩
    · rename_i hmode
      exact grow hnil (goto_threads ..) rfl ⟨_, hM, (if_neg hmode).symm⟩
  · obtain ⟨rfl, hmode⟩ := hbegun
    exact grow (trig_calls ..) (goto_threads ..) rfl ⟨_, hmode, (if_pos rfl).symm⟩
  -- the flag is read for an uplink
  · obtain ⟨mode, hmode, rfl⟩ := hbegun
    split
    · rename_i henabled
      exact grow hnil (goto_threads ..) rfl ⟨mode, hmode, henabled ▸ hD, List.append_nil _⟩
    · rename_i henabled
      exact grow hnil (goto_threads ..) rfl ⟨mode, _, hmode, hD, by rw [timePart, if_neg henabled]⟩
  · obtain ⟨mode, hmode, henabled, rfl⟩ := hbegun
    exact grow (trig_calls ..) (goto_threads ..) rfl ⟨mode, true, hmode, henabled, rfl⟩
  · obtain ⟨mode, enabled, hmode, henabled, rfl⟩ := hbegun
    exact close (call_calls ..) (finish_threads ..) rfl ⟨mode, enabled, hmode, henabled, rfl⟩

theorem job_other (h : a.thread ≠ i) : a.job backend i = none := by
  cases a <;> simp_all [Act.thread, Act.job]

/-- An action, whoever takes it. -/
theorem step_served {jobs done : List Job} {blocks : List (List BackendCall)} {part : List BackendCall}
    (hstep : step backend s a = some t) (hM : M s.linkCheckMode) (hD : D s.deviceTimeEnabled)
    (h : Served backend M D jobs asked (s.threads i) done blocks part) :
    ∃ rest done blocks part, t.calls i = s.calls i ++ rest ∧
      Served backend M D (jobs ++ (a.job backend i).toList) (asked ++ rest) (t.threads i) done blocks
        part := by
  by_cases hi : a.thread = i
  · subst hi
    rcases step_cases hstep with ⟨hidle, hbegins, hfresh, hjob⟩ | ⟨answer, ha, hthread⟩
    · rw [hidle] at h
      refine ⟨[], done, blocks, part, hbegins.calls.trans (List.append_nil _).symm, ?_⟩
      rw [List.append_nil, ← hjob]
      exact h.take hfresh
    · have hjob : a.job backend a.thread = none := by
        rw [ha]
        rfl
      rw [hjob]
      simpa using threadStep_served hthread hM hD h
  · have hapart := step_apart hstep
    refine ⟨[], done, blocks, part, (hapart.calls i (Ne.symm hi)).trans (List.append_nil _).symm, ?_⟩
    rw [job_other hi, hapart.threads i (Ne.symm hi)]
    simpa using h

/-- **What precedes an uplink.** From any state on in which a thread is idle, and however the threads
interleave, what the thread calls the backend with are the calls for its jobs, one job after the other: for
a request its MAC command, and for an uplink the LinkCheckReq of EVERY_UPLINK and the DeviceTimeReq of a set
flag right before it, and nothing else, as the two variables were when the thread read them; `M` and `D` are
whatever holds of them all along. -/
theorem uplink_requests (hidle : s.threads i = .idle) (hrun : run (step backend) s acts = some t)
    (hG : Meets (step backend) (fun s _ => M s.linkCheckMode ∧ D s.deviceTimeEnabled) s acts) :
    ∃ asked done blocks part, t.calls i = s.calls i ++ asked ∧
      Served backend M D (acts.filterMap (·.job backend i)) asked (t.threads i) done blocks part := by
  have hserved : ∀ {jobs asked done blocks part},
      Served backend M D jobs asked (s.threads i) done blocks part →
      ∃ rest done blocks part, t.calls i = s.calls i ++ rest ∧
        Served backend M D (jobs ++ acts.filterMap (·.job backend i)) (asked ++ rest) (t.threads i) done
          blocks part := by
    clear hidle
    induction acts generalizing s with
    | nil =>
      cases hrun
      intro jobs asked done blocks part h
      exact ⟨[], done, blocks, part, (List.append_nil _).symm, by simpa using h⟩
    | cons a acts ih =>
      intro jobs asked done blocks part h
      obtain ⟨u, hu, hrun⟩ := run_cons_eq_some.1 hrun
      obtain ⟨rest, done, blocks, part, hcalls, hnext⟩ := step_served hu hG.1.1 hG.1.2 h
      obtain ⟨rest', done', blocks', part', hcalls', hlast⟩ := ih hrun (hG.2 u hu) hnext
      refine ⟨rest ++ rest', done', blocks', part', by rw [hcalls', hcalls, List.append_assoc], ?_⟩
      have hjobs : (a :: acts).filterMap (·.job backend i) =
          (a.job backend i).toList ++ acts.filterMap (·.job backend i) := by
        rw [List.filterMap_cons]
        cases a.job backend i <;> rfl
      rw [hjobs, ← List.append_assoc, ← List.append_assoc]
      exact hlast
  have hnone : Served backend M D [] [] (s.threads i) [] [] [] := by
    rw [hidle]
    exact ⟨rfl, rfl, .nil, rfl⟩
  simpa using hserved hnone

/-- A backend with all the operations. -/
def complete : Backend where
  mac _ := true
  sendEmpty := true

/-- EVERY_UPLINK and DeviceTimeReq are in force. -/
def State.everyUplink : State := { State.boot with linkCheckMode := .everyUplink, deviceTimeEnabled := true }

/-- A thread sends an uplink and asks for the time, another one begins to send. -/
def twoSenders : List Act :=
  [.send 1 (.data 2 [7] .confirmed) (.ok ()) (.ok true), .step 1 (.ok ()), .step 1 (.error .busy),
    .send 2 (.empty false 0 .unconfirmed) (.ok ()) (.ok true), .step 2 (.ok ()), .step 1 (.ok ()),
    .step 1 (.ok ()), .step 1 (.ok ()), .requestDeviceTime 1 true (.ok ()), .step 1 (.ok ())]

theorem uplink_requests_two_senders : ∃ t, run (step complete) State.everyUplink twoSenders = some t ∧
    ∃ asked done blocks part, t.calls 1 = [] ++ asked ∧
      Served complete (· = .everyUplink) (· = true) [.uplink (.data 2 [7] .confirmed), .deviceTime true] asked
        (t.threads 1) done blocks part := by
  obtain ⟨t, ht⟩ : ∃ t, run (step complete) State.everyUplink twoSenders = some t := ⟨_, rfl⟩
  exact ⟨t, ht, uplink_requests rfl ht (by decide)⟩

end Uplinks

/-! ### What AT+LINKCHECK=? prints -/

section Modes
variable {backend : Backend} {i : Nat} {answer : Except Err Unit} {s t u : State} {a : Act} {acts : List Act}
  {argument : List UInt8} {mode : LinkCheckMode} {requested : UInt32}

/-- The answer of AT+LINKCHECK=? in the mode. -/
def printed (mode : LinkCheckMode) : Except Err Answer :=
  .ok (.value (ascii "AT+LINKCHECK=" ++ decimal mode.toNat))

theorem linkcheckRead_eq (hmac : backend.mac .linkCheck = true) (s : State) :
    linkcheckRead backend (.ok ()) s = printed s.linkCheckMode := by
  simp [linkcheckRead, getLinkCheckMode, hmac, printed, bind, Except.bind, pure, Except.pure]

theorem printed_injective {mode mode' : LinkCheckMode} (h : printed mode = printed mode') : mode = mode' := by
  cases mode <;> cases mode' <;> first | rfl | exact absurd h (by decide)

/-- A thread that stores DISABLED is the one of the request that stored its mode last, or DISABLED is the mode
in force. -/
def NotStale (s : State) (a : Act) : Prop :=
  ∀ i answer, a = .step i answer → s.threads i = .linkWriteBack → s.owner = some i ∨ s.wanted = .disabled

/-- A step of a thread stores a mode only where it says so. -/
theorem threadStep_mode (h : threadStep backend i answer s = some t) :
    (s.threads i ≠ .linkWriteBack ∧ t.linkCheckMode = s.linkCheckMode ∧ t.wanted = s.wanted) ∨
    (∃ mode, s.threads i = .linkStore mode ∧ t.linkCheckMode = mode ∧ t.wanted = mode) ∨
    (s.threads i = .linkWriteBack ∧ t.linkCheckMode = .disabled ∧
      t.wanted = if s.owner = some i then .disabled else s.wanted) := by
  have htrig : ∀ op answer, (trig backend i op answer s).2.linkCheckMode = s.linkCheckMode ∧
      (trig backend i op answer s).2.wanted = s.wanted := fun op answer => by
    unfold trig
    split <;> exact ⟨rfl, rfl⟩
  unfold threadStep at h
  split at h
  · cases h
  all_goals
    rename_i hpc
    cases Option.some.inj h
  · refine .inr (.inl ⟨_, hpc, ?_⟩)
    split <;> exact ⟨rfl, rfl⟩
  · refine .inl ⟨by simp [hpc], ?_⟩
    split <;> exact htrig _ _
  · exact .inr (.inr ⟨hpc, rfl, rfl⟩)
  · refine .inl ⟨by simp [hpc], ?_⟩
    split <;> exact ⟨rfl, rfl⟩
  · exact .inl ⟨by simp [hpc], htrig _ _⟩
  · exact .inl ⟨by simp [hpc], rfl, rfl⟩
  · exact .inl ⟨by simp [hpc], htrig _ _⟩
  · exact .inl ⟨by simp [hpc], rfl, rfl⟩
  · exact .inl ⟨by simp [hpc], htrig _ _⟩
  · exact .inl ⟨by simp [hpc], rfl, rfl⟩

/-- **The mode in force.** In every run of any number of threads AT+LINKCHECK=? prints, in every state, the
mode of the request that stored its mode last, and 0 once that request is a ONCE that has succeeded, if and
only if no thread stores the DISABLED of its ONCE while the mode in force is another thread's and not
DISABLED. -/
theorem mode_printed_iff (hmac : backend.mac .linkCheck = true)
    (hrun : run (step backend) .boot acts = some t) :
    Always (step backend) (fun s => linkcheckRead backend (.ok ()) s = printed s.wanted) .boot acts ↔
      Meets (step backend) NotStale .boot acts := by
  refine always_iff_meets (I := fun s => s.linkCheckMode = s.wanted)
    (fun s h => by rw [linkcheckRead_eq hmac, h]) ?_ ?_ rfl hrun
  · intro s a t hs hG hstep
    rcases step_cases hstep with ⟨-, hbegins, -⟩ | ⟨answer, ha, hthread⟩
    · rw [hbegins.linkCheckMode, hbegins.wanted, hs]
    · rcases threadStep_mode hthread with ⟨-, hmode, hwanted⟩ | ⟨mode, -, hmode, hwanted⟩ |
        ⟨hpc, hmode, hwanted⟩
      · rw [hmode, hwanted, hs]
      · rw [hmode, hwanted]
      · rw [hmode, hwanted]
        split
        · rfl
        · rename_i howner
          exact ((hG _ _ ha hpc).resolve_left howner).symm
  · intro s a t hs hG hstep hP
    rw [linkcheckRead_eq hmac] at hP
    have hP := printed_injective hP
    refine hG fun i answer ha hpc => ?_
    subst ha
    rcases threadStep_mode hstep with ⟨hno, -⟩ | ⟨mode, hstore, -⟩ | ⟨-, hmode, hwanted⟩
    · exact absurd hpc hno
    · rw [hpc] at hstore
      cases hstore
    · by_cases howner : s.owner = some i
      · exact .inl howner
      · rw [hmode, hwanted, if_neg howner] at hP
        exact .inr hP.symm

/-- A ONCE has been sent when another thread stores EVERY_UPLINK. -/
def staleOnce : List Act :=
  [.requestLinkCheck 0 1 (.ok ()), .step 0 (.ok ()), .step 0 (.ok ()), .requestLinkCheck 1 2 (.ok ()),
    .step 1 (.ok ())]

theorem mode_printed_stale :
    ¬ Always (step complete) (fun s => linkcheckRead complete (.ok ()) s = printed s.wanted) .boot
      (staleOnce ++ [.step 0 (.ok ())]) := by
  obtain ⟨s, hs⟩ : ∃ s, run (step complete) .boot staleOnce = some s := ⟨_, rfl⟩
  obtain ⟨t, ht⟩ : ∃ t, run (step complete) .boot (staleOnce ++ [.step 0 (.ok ())]) = some t := ⟨_, rfl⟩
  have hpc : (run (step complete) .boot staleOnce).map (·.threads 0) = some .linkWriteBack := rfl
  have howner : (run (step complete) .boot staleOnce).map (·.owner) = some (some 1) := rfl
  have hwanted : (run (step complete) .boot staleOnce).map (·.wanted) = some .everyUplink := rfl
  simp only [hs, Option.map_some, Option.some.injEq] at hpc howner hwanted
  rw [mode_printed_iff rfl ht]
  intro h
  rcases h.last hs 0 _ rfl hpc with h | h
  · rw [howner] at h
    cases h
  · rw [hwanted] at h
    cases h

/-- Where a thread is in a request of a LinkCheckReq. -/
def Pc.links : Pc → Bool
  | .linkStore _ | .linkTrigger _ | .linkWriteBack => true
  | _ => false

/-- The mode that a request leaves. -/
def settled (mode : LinkCheckMode) (rc : Except Err Unit) : LinkCheckMode :=
  if mode = .once ∧ rc = .ok () then .disabled else mode

/-- Where the request of the thread is, and the mode then. -/
def Requesting (i : Nat) (mode : LinkCheckMode) (s : State) : Prop :=
  match s.threads i with
  | .idle => s.linkCheckMode = settled mode (s.result i)
  | .linkStore m => m = mode
  | .linkTrigger m => m = mode ∧ s.linkCheckMode = mode
  | .linkWriteBack => mode = .once
  | _ => False

/-- The thread takes the steps of its request, and no other thread requests a LinkCheckReq. -/
def OnlyRequest (i : Nat) : Act → Prop
  | .requestLinkCheck .. => False
  | .requestDeviceTime j .. | .send j .. => j ≠ i
  | .step .. => True

theorem trig_mode (op : Op) (answer : Except Err Unit) (s : State) :
    (trig backend i op answer s).2.linkCheckMode = s.linkCheckMode := by
  unfold trig
  split <;> rfl

/-- A thread gets into a request of a LinkCheckReq only by calling for it. -/
theorem step_links (h : step backend s a = some t)
    (hno : ∀ i mode started, a ≠ .requestLinkCheck i mode started)
    (hl : (s.threads a.thread).links = false) : (t.threads a.thread).links = false := by
  rcases a with ⟨i, mode, started⟩ | ⟨i, enabled, started⟩ | ⟨i, uplink, started, joined⟩ | ⟨i, answer⟩
  · exact absurd rfl (hno i mode started)
  · simp only [step] at h
    split at h <;> cases h
    unfold requestDeviceTime Act.thread
    split
    · rw [finish_threads]; rfl
    · split
      · rw [goto_threads]; rfl
      · rw [finish_threads]; rfl
  · simp only [step] at h
    split at h <;> cases h
    unfold send Act.thread
    split
    · rw [finish_threads]; rfl
    · rw [goto_threads]; rfl
  · change threadStep backend i answer s = some t at h
    change (t.threads i).links = false
    change (s.threads i).links = false at hl
    unfold threadStep at h
    split at h
    · cases h
    all_goals
      rename_i hpc
      rw [hpc] at hl
      cases Option.some.inj h
    · cases hl
    · cases hl
    · cases hl
    · split
      · rw [goto_threads]; rfl
      · rw [finish_threads]; rfl
    · rw [finish_threads]; rfl
    · rw [goto_threads]
      split <;> rfl
    · rw [goto_threads]; rfl
    · rw [goto_threads]
      split <;> rfl
    · rw [goto_threads]; rfl
    · rw [finish_threads]; rfl

/-- A step of the thread of the request. -/
theorem threadStep_requesting (h : Requesting i mode s) (hstep : threadStep backend i answer s = some t) :
    Requesting i mode t := by
  unfold Requesting at h
  unfold threadStep at hstep
  split at hstep
  · cases hstep
  all_goals
    rename_i hpc
    rw [hpc] at h
    cases Option.some.inj hstep
  · have h : _ = mode := h
    subst h
    split
    · rename_i hmode
      simp [Requesting, finish, goto, settled, hmode]
    · simp [Requesting, goto]
  · obtain ⟨rfl, hmode⟩ := h
    rw [← @trig_mode backend i .linkCheck answer s] at hmode
    split
    · rename_i hanswer
      simp [Requesting, goto, hanswer.2]
    · rename_i hanswer
      rw [and_comm] at hanswer
      simpa [Requesting, finish, goto, settled, hanswer] using hmode
  · have h : mode = .once := h
    simp [Requesting, finish, goto, settled, h]
  all_goals exact False.elim h

/-- The steps of the other threads. -/
theorem step_requesting (hother : a.thread ≠ i) (h : Requesting i mode s)
    (hl : (s.threads a.thread).links = false) (hstep : step backend s a = some t) : Requesting i mode t := by
  have hapart := step_apart hstep
  have hmode : t.linkCheckMode = s.linkCheckMode := by
    rcases step_cases hstep with ⟨-, hbegins, -⟩ | ⟨answer, -, hthread⟩
    · exact hbegins.linkCheckMode
    · rcases threadStep_mode hthread with ⟨-, hmode, -⟩ | ⟨mode, hpc, -⟩ | ⟨hpc, -⟩
      · exact hmode
      · rw [hpc] at hl
        cases hl
      · rw [hpc] at hl
        cases hl
  unfold Requesting at h ⊢
  rw [hapart.threads i hother.symm, hapart.result i hother.symm, hmode]
  exact h

/-- The numbers from 0 to 2 are taken. -/
theorem linkcheckWrite_ok : linkcheckWrite argument = .ok requested ↔
    ∃ x, Numeral argument x ∧ x.toInt = (requested.toNat : Int) ∧ requested.toNat ≤ 2 := by
  unfold linkcheckWrite
  constructor
  · intro h
    cases hparse : parseLong 32 argument with
    | error e =>
      rw [hparse] at h
      cases h
    | ok parsed =>
      rw [hparse] at h
      dsimp only at h
      split at h
      · cases h
      · rename_i hrange
        cases h
        obtain ⟨x, hx, rfl⟩ := At.parseLong_ok.1 hparse
        have hlong : x.long 32 = x.toInt := long_eq_of_mem (by omega) (by omega)
        have hvalue : (UInt32.ofNat (x.long 32).toNat).toNat = (x.long 32).toNat :=
          UInt32.toNat_ofNat_of_lt' (by simp [UInt32.size]; omega)
        exact ⟨x, hx, by rw [hvalue]; omega, by rw [hvalue]; omega⟩
  · rintro ⟨x, hx, hvalue, hrange⟩
    have hlong : x.long 32 = x.toInt := long_eq (by omega) (by omega)
    rw [At.parseLong_ok.2 ⟨x, hx, rfl⟩, hlong, hvalue]
    dsimp only
    rw [if_neg (by omega), Int.toNat_natCast, UInt32.ofNat_toNat]

theorem linkcheckWrite_mode (h : linkcheckWrite argument = .ok requested) :
    ∃ mode, modeOf requested = some mode := by
  obtain ⟨-, -, -, hrange⟩ := linkcheckWrite_ok.1 h
  have hcases : requested = 0 ∨ requested = 1 ∨ requested = 2 := by
    simp only [← UInt32.toNat_inj]
    simp only [show (0 : UInt32).toNat = 0 from rfl, show (1 : UInt32).toNat = 1 from rfl,
      show (2 : UInt32).toNat = 2 from rfl]
    omega
  rcases hcases with rfl | rfl | rfl
  · exact ⟨.disabled, rfl⟩
  · exact ⟨.once, rfl⟩
  · exact ⟨.everyUplink, rfl⟩

/-- **A request of the mode.** AT+LINKCHECK=n stores its mode whatever the backend answers: when it has
returned, and as long as no other thread requests a LinkCheckReq, AT+LINKCHECK=? prints n, and 0 after a
ONCE that has succeeded, whatever other calls and uplinks run beside it. -/
theorem linkcheck_printed (hmac : backend.mac .linkCheck = true)
    (hwrite : linkcheckWrite argument = .ok requested)
    (hstart : step backend s (.requestLinkCheck i requested (.ok ())) = some u)
    (hothers : ∀ j, j ≠ i → (s.threads j).links = false) (hrun : run (step backend) u acts = some t)
    (hacts : ∀ a ∈ acts, OnlyRequest i a) (hdone : t.threads i = .idle) :
    ∃ mode, modeOf requested = some mode ∧
      linkcheckRead backend (.ok ()) t = printed (settled mode (t.result i)) := by
  obtain ⟨mode, hmode⟩ := linkcheckWrite_mode hwrite
  refine ⟨mode, hmode, ?_⟩
  simp only [step] at hstart
  split at hstart <;> cases hstart
  have hu : requestLinkCheck backend i requested (.ok ()) s = goto i (.linkStore mode) s := by
    simp [requestLinkCheck, hmode, hmac]
  rw [hu] at hrun
  have hinv : Requesting i mode t ∧ ∀ j, j ≠ i → (t.threads j).links = false := by
    refine run_invariant (I := fun v => Requesting i mode v ∧ ∀ j, j ≠ i → (v.threads j).links = false)
      ?_ ⟨by simp [Requesting, goto], fun j hj => ?_⟩ (.of_forall fun a ha _ => hacts a ha) hrun
    · rintro v a v' ⟨hreq, hlinks⟩ hact hstep
      have hapart := step_apart hstep
      by_cases hi : a.thread = i
      · obtain ⟨answer, rfl⟩ : ∃ answer, a = .step i answer := by
          rcases a with _ | _ | _ | ⟨j, answer⟩
          · exact hact.elim
          · exact absurd hi hact
          · exact absurd hi hact
          · exact ⟨answer, by rw [show j = i from hi]⟩
        exact ⟨threadStep_requesting hreq hstep,
          fun j hj => (congrArg Pc.links (hapart.threads j hj)).trans (hlinks j hj)⟩
      · refine ⟨step_requesting hi hreq (hlinks _ hi) hstep, fun j hj => ?_⟩
        by_cases hj' : j = a.thread
        · subst hj'
          exact step_links hstep (fun j mode started ha => by subst ha; exact hact) (hlinks _ hj)
        · exact (congrArg Pc.links (hapart.threads j hj')).trans (hlinks j hj)
    · exact (congrArg Pc.links ((Apart.goto (i := i) (.linkStore mode) s).threads j hj)).trans (hothers j hj)
  have hreq := hinv.1
  unfold Requesting at hreq
  rw [hdone] at hreq
  rw [linkcheckRead_eq hmac]
  exact congrArg printed hreq

theorem linkcheck_printed_once : ∃ t,
    run (step complete) .boot
      [.requestLinkCheck 0 1 (.ok ()), .step 0 (.ok ()), .step 0 (.ok ()), .step 0 (.ok ())] = some t ∧
    ∃ mode, modeOf 1 = some mode ∧
      linkcheckRead complete (.ok ()) t = printed (settled mode (t.result 0)) := by
  obtain ⟨t, ht⟩ : ∃ t, run (step complete) (goto 0 (.linkStore .once) .boot)
    [.step 0 (.ok ()), .step 0 (.ok ()), .step 0 (.ok ())] = some t := ⟨_, rfl⟩
  have hdone : (run (step complete) (goto 0 (.linkStore .once) .boot)
    [.step 0 (.ok ()), .step 0 (.ok ()), .step 0 (.ok ())]).map (·.threads 0) = some .idle := rfl
  rw [ht, Option.map_some, Option.some.injEq] at hdone
  have hwrite : linkcheckWrite (decimal 1) = .ok 1 :=
    linkcheckWrite_ok.2 ⟨_, decimal_numeral 1, rfl, by decide⟩
  have hothers : ∀ j, j ≠ 0 → (State.boot.threads j).links = false := fun _ _ => rfl
  exact ⟨t, ht, linkcheck_printed rfl hwrite rfl hothers ht (by simp [OnlyRequest]) hdone⟩

end Modes

end Rzi.Lorawan.Mac
