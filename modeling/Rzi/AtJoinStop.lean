import Rzi.AtJoin
import Rzi.UspBackend

/-!
# AT+JOIN=0 over the two backends

`handle_join` stops a join twice: `rzi_lorawan_join(0, ..)` asks the backend to leave if a sequence is
active, and `rzi_at_lorawan_join_stop` asks it once more if the AT package has started the service. The
Zephyr backend refuses to leave when no join is pending, the USP backend never does. `stop_reports_iff`
says when OK means that nothing is left to stop.

What the LoRa Basics Modem is doing is two flags here: a join request that it has accepted lasts until it
reports JOINED, resets or accepts a leave request, and the joined bit of its status follows from these.
-/

namespace Rzi.At.Join
open Lorawan (Build BackendEvent Policy)
open Stack (Backend Env System)
open Lts

/-! ### The backends -/

/-- What the device and the MAC answer to the Zephyr backend. -/
structure ZephyrReply where
  region : Zephyr.Region
  deviceReady : Bool
  regionRc : Option Errno
  startRc : Option Errno
  mib : List UInt16 → Option Errno

def zephyrEvent : Zephyr.Event → BackendEvent
  | .ready => .ready
  | .joined => .joined
  | .joinFailed error => .joinFailed (some error)
  | .txDone status error => .txDone status error

/-- The calls that the service makes of the Zephyr backend here. -/
def isZephyrCall : Zephyr.Act → Bool
  | .start .. | .join .. | .leave => true
  | _ => false

def zephyrBackend (rejects : Bool) : Backend Zephyr.State ZephyrReply Zephyr.Act where
  start r s := Zephyr.zephyrStart r.region r.deviceReady r.regionRc r.startRc s
  join r config s := Zephyr.zephyrJoin rejects r.mib config s
  leave _ s := Zephyr.zephyrLeave s
  isJoined _ s := Zephyr.zephyrIsJoined s
  event a s :=
    if isZephyrCall a then none
    else (Zephyr.step rejects s a).map fun t => (t, (t.published.drop s.published.length).map zephyrEvent)
  joined s := s.joined
  pending s := s.joinPending

/-- The USP backend with the modem below it. -/
structure UspState where
  usp : Usp.State
  joined : Bool
  joining : Bool

/-- What the modem answers to the USP backend, and what `rzi_lorawan_init` passes to it. -/
structure UspReply where
  region : Zephyr.Region
  bypass : Bool
  answer : Usp.Request → Usp.ModemRc
  listRegion : Usp.ModemRc × List Zephyr.Region
  statusRc : Usp.ModemRc

def UspReply.modem (r : UspReply) (s : UspState) : Usp.Modem := ⟨r.answer, r.listRegion, (r.statusRc, s.joined)⟩

/-- An event of the modem or another call of the backend. -/
inductive UspAct where
  | modem (r : UspReply) (source : Except Err (Usp.ModemEvent × Nat))
  | call (r : UspReply) (c : Usp.Call)

/-- The calls that the service makes of the USP backend here. -/
def isUspCall : Usp.Call → Bool
  | .start .. | .join .. | .leave => true
  | _ => false

/-- What an event says about the modem. -/
def modemFlags (source : Except Err (Usp.ModemEvent × Nat)) (s : UspState) : UspState :=
  match source with
  | .ok (.joined, _) => { s with joined := true, joining := false }
  | .ok (.reset, _) => { s with joined := false, joining := false }
  | _ => s

def uspBackend : Backend UspState UspReply UspAct where
  start r s :=
    let o := Usp.uspStart r.region r.bypass s.usp
    (o.rc, { s with usp := o.state })
  join r config s :=
    let o := Usp.uspJoin (r.modem s) config s.usp
    (o.rc, { s with usp := o.state, joining := s.joining || o.rc.isOk })
  leave r s :=
    let o := Usp.uspLeave (r.modem s) s.usp
    match o.rc with
    | .error e => (.error e, { s with usp := o.state })
    | .ok () => (.ok (), ⟨o.state, false, false⟩)
  isJoined r s := Usp.uspIsJoined (r.modem s) s.usp
  event a s :=
    match a with
    | .modem r source =>
      let (usp, events) := Usp.handleEvent (r.modem s) source s.usp
      some ({ modemFlags source s with usp := usp }, events)
    | .call r c =>
      if isUspCall c then none
      else some ({ s with usp := (c.run (r.modem s) s.usp).state }, (c.run (r.modem s) s.usp).published)
  joined s := s.joined
  pending s := s.joining

def System.boot {β : Type} (backend : β) : Stack.System β := ⟨.init, backend, ⟨false, false, []⟩⟩

/-! ### The property and its condition -/

section Property
variable {β ι ε : Type} (b : Backend β ι ε) (build : Build) (w : Nat)

/-- AT+JOIN=0 answers OK if and only if no join is left, neither in the service nor in the backend. -/
def ReportsStop (x : Stack.System β) : Act ι ε → Prop
  | .atJoin .write argument r => ∀ p, parseJoinParameters w argument = .ok p → p.start = 0 →
      x.service.started = true → b.joined x.backend = false →
        ((handleJoin b build w .write argument r x).1 = .ok .ok ↔
          (handleJoin b build w .write argument r x).2.service.joinSequenceActive = false ∧
            b.pending (handleJoin b build w .write argument r x).2.backend = false)
  | _ => True

/-- The rest of the policy, as AT+JOIN=0 passes it on. -/
def JoinParameters.policy (p : JoinParameters) : Policy := ⟨p.autoJoin, p.interval, p.attempts⟩

/-- The policy of the command is stored. -/
def Stores (p : JoinParameters) (r : Replies ι) (x : Stack.System β) : Prop :=
  (Lorawan.updatePolicy p.policy r.join.settings x.service.credentials).1 = .ok ()

/-- Where the policy is not stored, nothing is stopped: there has to be something that still goes on.
Where it is, `Stops` has to hold. -/
def StopsWhenStored (Stops : Replies ι → Stack.System β → Prop) (x : Stack.System β) :
    Act ι ε → Prop
  | .atJoin .write argument r => ∀ p, parseJoinParameters w argument = .ok p → p.start = 0 →
      x.service.started = true → b.joined x.backend = false →
        (Stores p r x → Stops r x) ∧
          (¬ Stores p r x → x.service.joinSequenceActive = true ∨ b.pending x.backend = true)
  | _ => True

end Property

/-- The Zephyr backend has a join to leave for the last request to leave, and is rid of it at once: its
work item does not run. -/
structure ZephyrStops (_ : Replies ZephyrReply) (x : Stack.System Zephyr.State) : Prop where
  /-- the command's own request is the only one -/
  own : x.context.serviceStarted = true → x.service.joinSequenceActive = false ∧
    x.backend.joinPending = true ∧ x.backend.joinWork.cancelBusy = false
  active : x.context.serviceStarted = false → x.service.joinSequenceActive = true →
    x.backend.joinPending = true → x.backend.joinWork.cancelBusy = false
  idle : x.context.serviceStarted = false → x.service.joinSequenceActive = false →
    x.backend.joinPending = false

/-- The USP backend passes a request to leave on, and the modem accepts it. -/
def LeaveAccepted (r : UspReply) (s : Usp.State) : Prop :=
  s.ready = true ∧ s.txPending = false ∧ r.answer .leaveNetwork = .ok

/-- The service asks whether the device has joined and then asks it to leave. -/
def FirstLeave (r : Env UspReply) (s : Usp.State) : Prop :=
  r.isJoined.statusRc = .ok ∧ LeaveAccepted r.leave s

/-- The modem accepts the requests to leave that the command makes; where it refuses one, a join goes
on. -/
structure UspStops (r : Replies UspReply) (x : Stack.System UspState) : Prop where
  first : x.service.joinSequenceActive = true → ¬ FirstLeave r.join x.backend.usp → x.backend.joining = true
  /-- a join that the first request has ended does not go on -/
  own : x.context.serviceStarted = true → ¬ LeaveAccepted r.last.leave x.backend.usp →
    (x.service.joinSequenceActive = true → FirstLeave r.join x.backend.usp) →
      x.service.joinSequenceActive = false ∧ x.backend.joining = true
  idle : x.context.serviceStarted = false → x.service.joinSequenceActive = false → x.backend.joining = false

/-! ### What the command asks of a backend -/

section Backend
variable {β ι ε : Type} {b : Backend β ι ε} {build : Build} {w : Nat} {argument : List UInt8}
  {r : Replies ι} {x : Stack.System β} {p : JoinParameters}

/-- The request of `stop_join`. -/
def leaveFirst (b : Backend β ι ε) (active : Bool) (e : Env ι) (s : β) : Except Err Unit × β :=
  if active then
    match b.isJoined e.isJoined s with
    | .error err => (.error err, s)
    | .ok true => (.ok (), s)
    | .ok false =>
      match b.leave e.leave s with
      | (.error err, s) => if err = .notSupported then (.ok (), s) else (.error err, s)
      | (.ok (), s) => (.ok (), s)
  else (.ok (), s)

/-- The requests of the command, where the policy has been stored. -/
def stopBackend (b : Backend β ι ε) (serviceStarted active : Bool) (r : Replies ι) (s : β) :
    Except Err Unit × β :=
  match leaveFirst b active r.join s with
  | (.error err, s) => (.error err, s)
  | (.ok (), s) => if serviceStarted then b.leave r.last.leave s else (.ok (), s)

theorem stopJoin_backend {e : Env ι} (hstarted : x.service.started = true) :
    ∃ service, Stack.stopJoin b e x = ((leaveFirst b x.service.joinSequenceActive e x.backend).1,
        { x with service := service, backend := (leaveFirst b x.service.joinSequenceActive e x.backend).2 }) ∧
      service.started = true ∧ service.joinSequenceActive = false := by
  unfold Stack.stopJoin leaveFirst
  dsimp only
  have hservice : x.clearJoinSequence.service.started = true := hstarted
  have hbackend : x.clearJoinSequence.backend = x.backend := rfl
  rw [hservice, hbackend]
  rcases x.service.joinSequenceActive with _ | _
  · exact ⟨_, rfl, hstarted, rfl⟩
  · simp only [Bool.not_true, Bool.or_self, Bool.false_eq_true, if_false, if_true]
    rcases b.isJoined e.isJoined x.backend with err | joined
    · exact ⟨_, rfl, hstarted, rfl⟩
    · rcases joined with _ | _
      · rcases b.leave e.leave x.backend with ⟨err | _, s⟩
        · dsimp only
          split
          · exact ⟨_, rfl, hstarted, rfl⟩
          · exact ⟨_, rfl, hstarted, rfl⟩
        · exact ⟨_, rfl, hstarted, rfl⟩
      · exact ⟨_, rfl, hstarted, rfl⟩

theorem joinStop_backend {leave : ι} (hstarted : x.service.started = true) :
    (joinStop b leave x).1 =
        (if x.context.serviceStarted then b.leave leave x.backend else (.ok (), x.backend)).1 ∧
      (joinStop b leave x).2.backend =
        (if x.context.serviceStarted then b.leave leave x.backend else (.ok (), x.backend)).2 ∧
      (joinStop b leave x).2.service.joinSequenceActive = x.service.joinSequenceActive := by
  unfold joinStop Stack.lorawanLeave
  dsimp only
  split
  · rw [if_neg (by simp [hstarted])]
    rcases b.leave leave x.backend with ⟨e | _, s⟩
    · exact ⟨rfl, rfl, rfl⟩
    · exact ⟨rfl, rfl, rfl⟩
  · exact ⟨rfl, rfl, rfl⟩

theorem respondOk_fst {σ : Type} (rc : Except Err Unit) (s : σ) :
    (respondOk (rc, s)).1 = .ok .ok ↔ rc = .ok () := by
  rcases rc with e | _
  · exact iff_of_false (fun h => (by cases h)) fun h => (by cases h)
  · exact iff_of_true rfl rfl

theorem respondOk_snd {σ : Type} (r : Except Err Unit × σ) : (respondOk r).2 = r.2 := by
  rcases r with ⟨e | _, s⟩
  · rfl
  · rfl

theorem lorawanJoin_zero {policy : Policy} {e : Env ι} : Stack.lorawanJoin b build 0 policy e x =
    match Lorawan.updatePolicy policy e.settings x.service.credentials with
    | (.error err, c) => (.error err, { x with service := { x.service with credentials := c } })
    | (.ok (), c) => Stack.stopJoin b e { x with service := { x.service with credentials := c } } := by
  unfold Stack.lorawanJoin
  rw [if_neg fun h => h.2.1 rfl, if_neg fun h => absurd h.1 (by decide)]
  rcases Lorawan.updatePolicy policy e.settings x.service.credentials with ⟨err | _, c⟩
  · rfl
  · rfl

theorem handleJoinWrite_zero (hstart : p.start = 0) : handleJoinWrite b build p r x =
    match Stack.lorawanJoin b build 0 p.policy r.join x with
    | (.error err, x) => (.error err, x)
    | (.ok (), x) => respondOk (joinStop b r.last.leave x) := by
  rw [handleJoinWrite, if_pos hstart]
  rfl

/-- Where the policy is not stored, AT+JOIN=0 stops nothing. -/
theorem handleJoinWrite_unstored (hstart : p.start = 0) (h : ¬ Stores p r x) :
    (handleJoinWrite b build p r x).1 ≠ .ok .ok ∧
      (handleJoinWrite b build p r x).2.service.joinSequenceActive = x.service.joinSequenceActive ∧
      (handleJoinWrite b build p r x).2.backend = x.backend := by
  unfold Stores at h
  rw [handleJoinWrite_zero hstart, lorawanJoin_zero]
  rcases hpolicy : Lorawan.updatePolicy p.policy r.join.settings x.service.credentials with ⟨e | _, c⟩
  · exact ⟨fun h => (by cases h), rfl, rfl⟩
  · rw [hpolicy] at h
    exact absurd rfl h

/-- Where it is, the sequence is cleared and the backend is asked to leave. -/
theorem handleJoinWrite_stored (hstart : p.start = 0) (hstarted : x.service.started = true)
    (h : Stores p r x) :
    ((handleJoinWrite b build p r x).1 = .ok .ok ↔
        (stopBackend b x.context.serviceStarted x.service.joinSequenceActive r x.backend).1 = .ok ()) ∧
      (handleJoinWrite b build p r x).2.service.joinSequenceActive = false ∧
      (handleJoinWrite b build p r x).2.backend =
        (stopBackend b x.context.serviceStarted x.service.joinSequenceActive r x.backend).2 := by
  unfold Stores at h
  rw [handleJoinWrite_zero hstart, lorawanJoin_zero]
  rcases hpolicy : Lorawan.updatePolicy p.policy r.join.settings x.service.credentials with ⟨e | _, c⟩
  · rw [hpolicy] at h
    cases h
  · dsimp only
    obtain ⟨service, hstop, hservice, hcleared⟩ := @stopJoin_backend β ι ε b
      { x with service := { x.service with credentials := c } } r.join hstarted
    dsimp only at hstop
    rw [hstop, stopBackend]
    rcases leaveFirst b x.service.joinSequenceActive r.join x.backend with ⟨err | _, s⟩
    · exact ⟨iff_of_false (fun h => (by cases h)) (fun h => (by cases h)), hcleared, rfl⟩
    · dsimp only
      obtain ⟨hrc, hbackend, hactive⟩ := @joinStop_backend β ι ε b
        { x with service := service, backend := s } r.last.leave hservice
      dsimp only at hrc hbackend hactive
      rw [respondOk_snd, ← hbackend, ← hrc, hactive]
      exact ⟨respondOk_fst _ _, hcleared, rfl⟩

/-- AT+JOIN=0 reports what it did where the policy is stored and the requests to leave report what they
did, or the policy is not stored and something goes on. -/
theorem reportsStop_iff {Stops : Replies ι → Stack.System β → Prop} {a : Act ι ε}
    (hstops : ∀ r, b.joined x.backend = false → x.service.started = true →
      (((stopBackend b x.context.serviceStarted x.service.joinSequenceActive r x.backend).1 = .ok () ↔
          b.pending (stopBackend b x.context.serviceStarted x.service.joinSequenceActive r x.backend).2 =
            false) ↔ Stops r x)) :
    ReportsStop b build w x a ↔ StopsWhenStored b w Stops x a := by
  unfold ReportsStop StopsWhenStored
  split
  · rename_i argument r
    refine forall_congr' fun p => forall_congr' fun hparse => forall_congr' fun hstart =>
      forall_congr' fun hstarted => forall_congr' fun hjoined => ?_
    have hhandle : handleJoin b build w .write argument r x = handleJoinWrite b build p r x := by
      unfold handleJoin
      dsimp only
      rw [hparse]
    rw [hhandle]
    by_cases hstored : Stores p r x
    · obtain ⟨hrc, hactive, hbackend⟩ := @handleJoinWrite_stored β ι ε b build r x p hstart hstarted hstored
      rw [hrc, hactive, hbackend, ← hstops r hjoined hstarted]
      simp only [true_and, hstored, forall_const, not_true_eq_false, false_implies, and_true]
    · obtain ⟨hrc, hactive, hbackend⟩ := @handleJoinWrite_unstored β ι ε b build r x p hstart hstored
      rw [hactive, hbackend, iff_false_left hrc]
      simp only [hstored, false_implies, not_false_eq_true, forall_const, true_and]
      rcases x.service.joinSequenceActive with _ | _ <;> rcases b.pending x.backend with _ | _ <;> simp
  · exact Iff.rfl

end Backend

/-! ### The Zephyr backend -/

section Zephyr
variable {rejects : Bool} {s : Zephyr.State} {r : ZephyrReply}

theorem zephyrLeave_pending (h : s.joinPending = true) : (zephyrBackend rejects).leave r s =
    (.ok (), { s with
      joinStop := true, joinWork := s.joinWork.cancel, joinPending := s.joinWork.cancelBusy }) := by
  show Zephyr.zephyrLeave s = _
  rw [Zephyr.zephyrLeave, if_pos h]

theorem zephyrLeave_idle (h : s.joinPending = false) :
    (zephyrBackend rejects).leave r s = (.error .notSupported, s) := by
  show Zephyr.zephyrLeave s = _
  rw [Zephyr.zephyrLeave, if_neg (by simp [h])]

/-- The request of `stop_join` succeeds, and a join is left only where its work item runs. -/
theorem zephyr_leaveFirst {active : Bool} {e : Env ZephyrReply} (hstarted : s.started = true)
    (hjoined : s.joined = false) : ∃ t, leaveFirst (zephyrBackend rejects) active e s = (.ok (), t) ∧
      t.joinPending = (s.joinPending && (!active || s.joinWork.cancelBusy)) ∧
      (t.joinPending = true → t.joinWork.cancelBusy = s.joinWork.cancelBusy) := by
  unfold leaveFirst
  rcases active with _ | _
  · exact ⟨s, rfl, by simp, fun _ => rfl⟩
  · have hanswer : (zephyrBackend rejects).isJoined e.isJoined s = .ok false := by
      show Zephyr.zephyrIsJoined s = _
      rw [Zephyr.zephyrIsJoined, hstarted, hjoined]
      rfl
    rw [if_pos rfl, hanswer]
    dsimp only
    rcases hpending : s.joinPending with _ | _
    · rw [zephyrLeave_idle hpending]
      exact ⟨s, rfl, by simp [hpending], fun h => absurd (hpending.symm.trans h) Bool.false_ne_true⟩
    · rw [zephyrLeave_pending hpending]
      refine ⟨_, rfl, by simp, fun _ => ?_⟩
      simp [WorkQueue.Item.cancel, WorkQueue.Item.cancelBusy]

/-- The last request succeeds where a join is pending. -/
theorem zephyr_leave_iff : (((zephyrBackend rejects).leave r s).1 = .ok () ↔
      ((zephyrBackend rejects).leave r s).2.joinPending = false) ↔
    s.joinPending = true ∧ s.joinWork.cancelBusy = false := by
  rcases hpending : s.joinPending with _ | _
  · rw [zephyrLeave_idle hpending, hpending]
    simp
  · rw [zephyrLeave_pending hpending]
    simp

theorem zephyr_stops_iff {x : Stack.System Zephyr.State} {replies : Replies ZephyrReply}
    (hstarted : x.backend.started = true) (hjoined : x.backend.joined = false) :
    ((stopBackend (zephyrBackend rejects) x.context.serviceStarted x.service.joinSequenceActive replies
          x.backend).1 = .ok () ↔
        (zephyrBackend rejects).pending (stopBackend (zephyrBackend rejects) x.context.serviceStarted
          x.service.joinSequenceActive replies x.backend).2 = false) ↔ ZephyrStops replies x := by
  obtain ⟨t, hfirst, hpending, hbusy⟩ := @zephyr_leaveFirst rejects x.backend
    x.service.joinSequenceActive replies.join hstarted hjoined
  rw [stopBackend, hfirst]
  dsimp only
  rcases hcontext : x.context.serviceStarted with _ | _
  · -- the service was started by the application
    have hdone : (zephyrBackend rejects).pending t = t.joinPending := rfl
    simp only [Bool.false_eq_true, if_false, hdone, hpending, true_iff]
    constructor
    · intro h
      constructor
      · rw [hcontext]
        exact fun h => (by cases h)
      · intro _ hactive hp
        rw [hactive, hp] at h
        simpa using h
      · intro _ hactive
        rw [hactive] at h
        simpa using h
    · intro h
      rcases hactive : x.service.joinSequenceActive with _ | _
      · rw [h.idle hcontext hactive]
        rfl
      · rcases hp : x.backend.joinPending with _ | _
        · rfl
        · rw [h.active hcontext hactive hp]
          rfl
  · have hleave := @zephyr_leave_iff rejects t replies.last.leave
    rw [if_pos rfl]
    refine hleave.trans ⟨?_, ?_⟩
    · rintro ⟨hp, hfree⟩
      have hwork := hbusy hp
      rw [hpending, Bool.and_eq_true, Bool.or_eq_true] at hp
      have hidle : x.service.joinSequenceActive = false := by
        rcases hp.2 with hidle | hrunning
        · simpa using hidle
        · rw [hfree] at hwork
          rw [← hwork] at hrunning
          cases hrunning
      refine ⟨fun _ => ⟨hidle, hp.1, by rw [← hwork, hfree]⟩, ?_, ?_⟩
      · rw [hcontext]
        exact fun h => (by cases h)
      · rw [hcontext]
        exact fun h => (by cases h)
    · intro h
      obtain ⟨hidle, hp, hfree⟩ := h.own hcontext
      have ht : t.joinPending = true := by
        rw [hpending, hp, hidle]
        rfl
      exact ⟨ht, by rw [hbusy ht, hfree]⟩

end Zephyr

/-! ### The USP backend -/

section Usp
variable {s : UspState} {r : UspReply}

theorem uspResult_eq_ok {rc : Usp.ModemRc} : Usp.uspResult rc = .ok () ↔ rc = .ok := by
  rcases rc <;> simp [Usp.uspResult]

theorem uspResult_supported {rc : Usp.ModemRc} : Usp.uspResult rc ≠ .error .notSupported := by
  rcases rc <;> simp [Usp.uspResult]

theorem uspLeave_accepted (h : LeaveAccepted r s.usp) : uspBackend.leave r s =
    (.ok (), ⟨{ s.usp with fuotaImageReady := false }, false, false⟩) := by
  obtain ⟨hready, htx, hanswer⟩ := h
  have hleave : Usp.uspLeave (r.modem s) s.usp =
      Usp.finish (.ok ()) { s.usp with fuotaImageReady := false } := by
    have hrequest : (r.modem s).request .leaveNetwork = .ok () := uspResult_eq_ok.2 hanswer
    unfold Usp.uspLeave Usp.enter
    dsimp only
    rw [if_pos hready, htx, if_neg Bool.false_ne_true, hrequest]
  simp only [uspBackend, hleave, Usp.finish]

/-- A refused request leaves what the modem is doing as it is. -/
theorem uspLeave_refused (h : ¬ LeaveAccepted r s.usp) : ∃ err usp,
    uspBackend.leave r s = (.error err, { s with usp := usp }) ∧ err ≠ .notSupported := by
  have hleave : ∃ err usp, Usp.uspLeave (r.modem s) s.usp = Usp.finish (.error err) usp ∧
      err ≠ .notSupported := by
    unfold Usp.uspLeave Usp.enter
    dsimp only
    rcases hready : s.usp.ready with _ | _
    · exact ⟨.notReady, s.usp, rfl, by simp⟩
    · rcases htx : s.usp.txPending with _ | _
      · rcases hrc : (r.modem s).request .leaveNetwork with err | _
        · refine ⟨err, _, rfl, ?_⟩
          rintro rfl
          exact uspResult_supported hrc
        · exact absurd ⟨hready, htx, uspResult_eq_ok.1 hrc⟩ h
      · exact ⟨.busy, s.usp, rfl, by simp⟩
  obtain ⟨err, usp, hleave, herr⟩ := hleave
  refine ⟨err, usp, ?_, herr⟩
  simp only [uspBackend, hleave, Usp.finish]

theorem usp_leaveFirst_accepted {e : Env UspReply} (hjoined : s.joined = false)
    (h : FirstLeave e s.usp) : leaveFirst uspBackend true e s =
      (.ok (), ⟨{ s.usp with fuotaImageReady := false }, false, false⟩) := by
  obtain ⟨hstatus, hleave⟩ := h
  have hanswer : uspBackend.isJoined e.isJoined s = .ok false := by
    have hrc : Usp.uspResult (e.isJoined.modem s).status.1 = .ok () := uspResult_eq_ok.2 hstatus
    show Usp.uspIsJoined (e.isJoined.modem s) s.usp = _
    rw [Usp.uspIsJoined, if_neg (by simp [hleave.1]), hrc]
    exact congrArg Except.ok hjoined
  rw [leaveFirst, if_pos rfl, hanswer, uspLeave_accepted hleave]

theorem usp_leaveFirst_refused {e : Env UspReply} (hjoined : s.joined = false)
    (h : ¬ FirstLeave e s.usp) : ∃ err usp,
      leaveFirst uspBackend true e s = (.error err, { s with usp := usp }) := by
  rw [leaveFirst, if_pos rfl]
  rcases hanswer : uspBackend.isJoined e.isJoined s with err | joined
  · exact ⟨err, s.usp, rfl⟩
  · have hstatus : e.isJoined.statusRc = .ok ∧ joined = s.joined := by
      change Usp.uspIsJoined (e.isJoined.modem s) s.usp = _ at hanswer
      rw [Usp.uspIsJoined] at hanswer
      split at hanswer
      · cases hanswer
      · rcases hrc : Usp.uspResult (e.isJoined.modem s).status.1 with err | _
        · rw [hrc] at hanswer
          cases hanswer
        · rw [hrc] at hanswer
          cases hanswer
          exact ⟨uspResult_eq_ok.1 hrc, rfl⟩
    obtain rfl : joined = false := hstatus.2.trans hjoined
    obtain ⟨err, usp, hleave, herr⟩ := uspLeave_refused fun hleave => h ⟨hstatus.1, hleave⟩
    refine ⟨err, usp, ?_⟩
    dsimp only
    rw [hleave]
    exact if_neg herr

theorem usp_leave_iff : ((uspBackend.leave r s).1 = .ok () ↔ (uspBackend.leave r s).2.joining = false) ↔
    (¬ LeaveAccepted r s.usp → s.joining = true) := by
  by_cases h : LeaveAccepted r s.usp
  · rw [uspLeave_accepted h]
    exact iff_of_true (iff_of_true rfl rfl) fun hnot => absurd h hnot
  · obtain ⟨err, usp, hleave, -⟩ := uspLeave_refused h
    rw [hleave]
    simp [h]

theorem usp_stops_iff {x : Stack.System UspState} {replies : Replies UspReply}
    (hjoined : x.backend.joined = false) :
    ((stopBackend uspBackend x.context.serviceStarted x.service.joinSequenceActive replies
          x.backend).1 = .ok () ↔
        uspBackend.pending (stopBackend uspBackend x.context.serviceStarted
          x.service.joinSequenceActive replies x.backend).2 = false) ↔ UspStops replies x := by
  have hpending (t : UspState) : uspBackend.pending t = t.joining := rfl
  rcases hactive : x.service.joinSequenceActive with _ | _
  · -- only the command's own request
    rw [stopBackend, leaveFirst, if_neg Bool.false_ne_true]
    dsimp only
    rcases hcontext : x.context.serviceStarted with _ | _
    · rw [if_neg Bool.false_ne_true, hpending]
      constructor
      · intro h
        refine ⟨?_, ?_, fun _ _ => h.1 rfl⟩
        · rw [hactive]
          exact fun h => (by cases h)
        · rw [hcontext]
          exact fun h => (by cases h)
      · exact fun h => iff_of_true rfl (h.idle hcontext hactive)
    · rw [if_pos rfl, hpending, usp_leave_iff]
      constructor
      · intro h
        refine ⟨?_, fun _ hrefused _ => ⟨hactive, h hrefused⟩, ?_⟩
        · rw [hactive]
          exact fun h => (by cases h)
        · rw [hcontext]
          exact fun h => (by cases h)
      · intro h hrefused
        refine (h.own hcontext hrefused ?_).2
        rw [hactive]
        exact fun h => (by cases h)
  · have hidle : ¬ x.service.joinSequenceActive = false := by
      rw [hactive]
      exact fun h => (by cases h)
    by_cases hfirst : FirstLeave replies.join x.backend.usp
    · rw [stopBackend, usp_leaveFirst_accepted hjoined hfirst]
      dsimp only
      rcases hcontext : x.context.serviceStarted with _ | _
      · rw [if_neg Bool.false_ne_true, hpending]
        refine iff_of_true (iff_of_true rfl rfl) ⟨fun _ h => absurd hfirst h, ?_, fun _ h => absurd h hidle⟩
        rw [hcontext]
        exact fun h => (by cases h)
      · rw [if_pos rfl, hpending, usp_leave_iff]
        constructor
        · intro h
          refine ⟨fun _ hnot => absurd hfirst hnot, fun _ hrefused _ => ?_, fun _ h => absurd h hidle⟩
          cases h hrefused
        · intro h hrefused
          exact absurd (h.own hcontext hrefused fun _ => hfirst).1 hidle
    · obtain ⟨err, usp, hleave⟩ := usp_leaveFirst_refused hjoined hfirst
      rw [stopBackend, hleave]
      dsimp only
      rw [hpending]
      constructor
      · intro h
        have hjoining : x.backend.joining = true := by
          rcases hj : x.backend.joining with _ | _
          · cases h.2 hj
          · rfl
        exact ⟨fun _ _ => hjoining, fun _ _ hnot => absurd (hnot hactive) hfirst, fun _ h => absurd h hidle⟩
      · intro h
        rw [h.first hactive hfirst]
        exact iff_of_false (fun h => (by cases h)) fun h => (by cases h)

end Usp

/-! ### A started service has a started backend -/

section Grounded
variable {β ι ε : Type} {b : Backend β ι ε} {build : Build} {P : β → Prop} {x y z : Stack.System β}

/-- Where the service has been started, `P` holds of the backend. -/
def Grounded (P : β → Prop) (x : Stack.System β) : Prop := x.service.started = true → P x.backend

/-- The service is started as before, and `P` is not lost. -/
structure Kept (P : β → Prop) (x y : Stack.System β) : Prop where
  started : y.service.started = x.service.started
  backend : P x.backend → P y.backend

theorem Kept.of_eq (hstarted : y.service.started = x.service.started) (hbackend : y.backend = x.backend) :
    Kept P x y := ⟨hstarted, fun h => hbackend ▸ h⟩

theorem Kept.trans (h : Kept P x y) (h' : Kept P y z) : Kept P x z :=
  ⟨h'.started.trans h.started, fun hP => h'.backend (h.backend hP)⟩

theorem Grounded.kept (h : Grounded P x) (hkept : Kept P x y) : Grounded P y := fun hstarted =>
  hkept.backend (h (hkept.started ▸ hstarted))

/-- What the operations of a backend do to `P`. -/
structure Grounds (b : Backend β ι ε) (P : β → Prop) : Prop where
  start : ∀ r s, (b.start r s).1 = .ok () → P (b.start r s).2
  join : ∀ r config s, P s → P (b.join r config s).2
  leave : ∀ r s, P s → P (b.leave r s).2
  event : ∀ a s t events, b.event a s = some (t, events) → P s → P t

theorem kept_swallowJoinEvent (hb : Grounds b P) (leave : ι) (event : BackendEvent) (x : Stack.System β) :
    Kept P x (Stack.swallowJoinEvent b leave event x).2 := by
  cases event with
  | joinFailed error =>
    unfold Stack.swallowJoinEvent
    dsimp only
    split
    · exact .of_eq rfl rfl
    · split
      · exact .of_eq rfl rfl
      · exact ⟨rfl, hb.leave leave x.backend⟩
  | _ => exact .of_eq rfl rfl

theorem kept_dispatch (hb : Grounds b P) {onEvent : Lorawan.Event → Stack.System β → Stack.System β}
    (hevent : ∀ event x, Kept P x (onEvent event x)) (leave : ι) (event : BackendEvent)
    (x : Stack.System β) : Kept P x (Stack.dispatch b onEvent leave event x) := by
  have hswallow := kept_swallowJoinEvent hb leave event x
  unfold Stack.dispatch
  dsimp only
  split
  · exact hswallow
  · split
    · exact hswallow.trans (.of_eq rfl rfl)
    · rename_i delivered _
      have hdeliver : Kept P (Stack.swallowJoinEvent b leave event x).2 _ :=
        .of_eq (y := { (Stack.swallowJoinEvent b leave event x).2 with
          service := Lorawan.deliver event (Stack.swallowJoinEvent b leave event x).2.service }) rfl rfl
      exact hswallow.trans (hdeliver.trans (hevent _ _))

theorem kept_beginJoin (hb : Grounds b P) (e : Env ι) (x : Stack.System β) :
    Kept P x (Stack.beginJoin b build e x).2 := by
  unfold Stack.beginJoin Stack.startSequence
  rcases Lorawan.prepareJoin build e.settings x.service.credentials with ⟨err | ⟨config, attempts⟩, c⟩
  · exact .of_eq rfl rfl
  · dsimp only
    split
    · exact .of_eq rfl rfl
    · have hbackend (s : Lorawan.Service) : ({ x with service := s }.publishState .joining).backend = x.backend :=
        rfl
      have hjoin := hb.join e.join config x.backend
      simp only [hbackend]
      rcases hrc : b.join e.join config x.backend with ⟨err | _, backend⟩
      · rw [hrc] at hjoin
        exact ⟨rfl, hjoin⟩
      · rw [hrc] at hjoin
        exact ⟨rfl, hjoin⟩

theorem kept_stopJoin (hb : Grounds b P) (e : Env ι) (x : Stack.System β) :
    Kept P x (Stack.stopJoin b e x).2 := by
  unfold Stack.stopJoin
  dsimp only
  have hbackend : x.clearJoinSequence.backend = x.backend := rfl
  have hleave := hb.leave e.leave x.backend
  rw [hbackend]
  split
  · exact .of_eq rfl rfl
  · split
    · exact .of_eq rfl rfl
    · exact .of_eq rfl rfl
    · rcases hrc : b.leave e.leave x.backend with ⟨err | _, backend⟩
      · rw [hrc] at hleave
        dsimp only
        split
        · exact ⟨rfl, hleave⟩
        · exact ⟨rfl, hleave⟩
      · rw [hrc] at hleave
        exact ⟨rfl, hleave⟩

theorem kept_lorawanJoin (hb : Grounds b P) (start : Int) (policy : Policy) (e : Env ι)
    (x : Stack.System β) : Kept P x (Stack.lorawanJoin b build start policy e x).2 := by
  unfold Stack.lorawanJoin
  split
  · exact .of_eq rfl rfl
  · split
    · exact .of_eq rfl rfl
    · rcases Lorawan.updatePolicy policy e.settings x.service.credentials with ⟨err | _, c⟩
      · exact .of_eq rfl rfl
      · have hstore : Kept P x { x with service := { x.service with credentials := c } } := .of_eq rfl rfl
        dsimp only
        split
        · exact hstore.trans (kept_stopJoin hb e _)
        · split
          · exact hstore
          · split
            · exact hstore
            · exact hstore.trans (kept_beginJoin hb e _)

theorem kept_lorawanLeave (hb : Grounds b P) (leave : ι) (x : Stack.System β) :
    Kept P x (Stack.lorawanLeave b leave x).2 := by
  unfold Stack.lorawanLeave
  have hleave := hb.leave leave x.backend
  split
  · exact .of_eq rfl rfl
  · rcases hrc : b.leave leave x.backend with ⟨err | _, backend⟩
    · rw [hrc] at hleave
      exact ⟨rfl, hleave⟩
    · rw [hrc] at hleave
      exact ⟨rfl, hleave⟩

theorem grounded_lorawanInit (hb : Grounds b P) (h : Grounded P x) (e : Env ι) :
    Grounded P (Stack.lorawanInit b e x).2 := by
  unfold Stack.lorawanInit
  split
  · exact h
  · rcases e.setRegion with err | _
    · exact h
    · have hbackend (s : Lorawan.Service) : ({ x with service := s }.publishState .starting).backend = x.backend :=
        rfl
      have hstart := hb.start e.start x.backend
      simp only [hbackend]
      rcases hrc : b.start e.start x.backend with ⟨err | _, backend⟩
      · exact fun hstarted => (by cases hstarted)
      · rw [hrc] at hstart
        exact fun _ => hstart rfl

/-! ### The AT package -/

theorem kept_publishEvent (line : String) (x : Stack.System β) : Kept P x (publishEvent line x) :=
  .of_eq rfl rfl

theorem grounded_joinStart (hb : Grounds b P) (h : Grounded P x) (r : Replies ι) :
    Grounded P (joinStart b build r x).2 := by
  unfold joinStart
  split
  · unfold startService
    rcases r.region with err | _
    · exact h
    · have hpending : Grounded P { x with context := { x.context with joinPending := true } } := h
      have hinit := grounded_lorawanInit hb hpending r.last
      dsimp only
      split
      · rename_i err y hrc
        rw [hrc] at hinit
        exact hinit
      · rename_i y hrc
        rw [hrc] at hinit
        exact hinit
  · split
    · exact h.kept (kept_publishEvent _ _)
    · exact h.kept (kept_lorawanJoin hb _ _ _ _)

theorem kept_joinStop (hb : Grounds b P) (leave : ι) (x : Stack.System β) :
    Kept P x (joinStop b leave x).2 := by
  unfold joinStop
  have hclear : Kept P x { x with context := { x.context with joinPending := false } } := .of_eq rfl rfl
  dsimp only
  split
  · exact hclear.trans (kept_lorawanLeave hb leave _)
  · exact hclear

theorem kept_readPolicy (a : Lorawan.Answers) (x : Stack.System β) : Kept P x (readPolicy a x).2 := by
  unfold readPolicy
  dsimp only
  split
  · exact .of_eq rfl rfl
  · split
    · exact .of_eq rfl rfl
    · split
      · exact .of_eq rfl rfl
      · exact .of_eq rfl rfl

theorem grounded_handleJoinWrite (hb : Grounds b P) (h : Grounded P x) (p : JoinParameters)
    (r : Replies ι) : Grounded P (handleJoinWrite b build p r x).2 := by
  have hjoin (start : Int) (policy : Policy) :
      Grounded P (Stack.lorawanJoin b build start policy r.join x).2 :=
    h.kept (kept_lorawanJoin hb start policy r.join x)
  unfold handleJoinWrite
  dsimp only
  split
  · have hzero := hjoin 0 ⟨p.autoJoin, p.interval, p.attempts⟩
    split
    · rename_i err y hrc
      rw [hrc] at hzero
      exact hzero
    · rename_i y hrc
      rw [hrc] at hzero
      rw [respondOk_snd]
      exact hzero.kept (kept_joinStop hb _ _)
  · split
    · have hkeep := hjoin Lorawan.joinKeep ⟨p.autoJoin, p.interval, p.attempts⟩
      split
      · rename_i y hrc
        rw [hrc] at hkeep
        exact hkeep.kept (kept_publishEvent _ _)
      · rename_i err y hrc
        rw [hrc] at hkeep
        exact hkeep
    · have hone := hjoin 1 ⟨p.autoJoin, p.interval, p.attempts⟩
      split
      · rename_i y hrc
        rw [hrc] at hone
        exact hone
      · rename_i err y hrc
        rw [hrc] at hone
        split
        · rw [respondOk_snd]
          exact grounded_joinStart hb hone r
        · exact hone

theorem grounded_handleJoin (hb : Grounds b P) (h : Grounded P x) (w : Nat) (operation : Operation)
    (argument : List UInt8) (r : Replies ι) :
    Grounded P (handleJoin b build w operation argument r x).2 := by
  unfold handleJoin
  split
  · have hread := h.kept (kept_readPolicy r.join.settings x)
    split
    · rename_i err y hrc
      rw [hrc] at hread
      exact hread
    · rename_i hrc
      rw [hrc] at hread
      exact hread
  · rw [respondOk_snd]
    exact grounded_joinStart hb h r
  · split
    · exact h
    · exact grounded_handleJoinWrite hb h _ r

theorem kept_continuePendingJoin (hb : Grounds b P) (applyClass : Except Err Unit) (e : Env ι)
    (x : Stack.System β) : Kept P x (continuePendingJoin b build applyClass e x) := by
  unfold continuePendingJoin
  have hclear : Kept P x { x with context := { x.context with joinPending := false } } := .of_eq rfl rfl
  split
  · dsimp only
    split
    · exact hclear.trans (kept_publishEvent _ _)
    · have hjoin := hclear.trans (@kept_lorawanJoin β ι ε b build P hb 1 keepPolicy e _)
      split
      · rename_i hrc
        rw [hrc] at hjoin
        exact hjoin.trans (kept_publishEvent _ _)
      · rename_i hrc
        rw [hrc] at hjoin
        exact hjoin
  · exact .of_eq rfl rfl

theorem kept_onEvent (hb : Grounds b P) (applyClass : Except Err Unit) (e : Env ι)
    (event : Lorawan.Event) (x : Stack.System β) : Kept P x (onEvent b build applyClass e event x) := by
  unfold onEvent
  split
  · exact kept_continuePendingJoin hb applyClass e x
  · exact kept_continuePendingJoin hb applyClass e x
  · exact kept_publishEvent _ _
  · exact kept_publishEvent _ _
  · exact .of_eq rfl rfl

theorem sink_started (events : List BackendEvent) (x : Stack.System β) :
    (sink events x).service.started = x.service.started := by
  unfold sink
  dsimp only
  generalize x.service = s
  induction events generalizing s with
  | nil => rfl
  | cons event events ih => exact ih _

/-- A started service has a backend of which `P` holds, in every run. -/
theorem grounded_step (hb : Grounds b P) {w : Nat} {a : Act ι ε} (h : Grounded P x)
    (hstep : step b build w x a = some y) : Grounded P y := by
  cases a with
  | init e =>
    cases hstep
    exact grounded_lorawanInit hb h e
  | join start policy e =>
    cases hstep
    exact h.kept (kept_lorawanJoin hb start policy e x)
  | leave leave =>
    cases hstep
    exact h.kept (kept_lorawanLeave hb leave x)
  | set setter a =>
    cases hstep
    exact h
  | clearSettings rc =>
    cases hstep
    exact h
  | atJoin operation argument r =>
    cases hstep
    exact grounded_handleJoin hb h w operation argument r
  | dispatch applyClass leave e =>
    simp only [step] at hstep
    split at hstep
    · cases hstep
    · rename_i q events hevents
      cases hstep
      have htaken : Grounded P { x with service := { x.service with events := events } } := h
      exact htaken.kept (kept_dispatch hb (kept_onEvent hb applyClass e) leave q.event _)
  | backend event =>
    obtain ⟨⟨t, events⟩, ht, rfl⟩ := Option.map_eq_some_iff.1 hstep
    intro hstarted
    rw [sink_started] at hstarted
    exact hb.event event x.backend t events ht (h hstarted)

end Grounded

theorem zephyr_grounds (rejects : Bool) : Grounds (zephyrBackend rejects) fun s => s.started = true where
  start r s hrc := by
    change (Zephyr.zephyrStart r.region r.deviceReady r.regionRc r.startRc s).1 = .ok () at hrc
    show (Zephyr.zephyrStart r.region r.deviceReady r.regionRc r.startRc s).2.started = true
    unfold Zephyr.zephyrStart at hrc ⊢
    split at hrc
    · cases hrc
    · rename_i hready
      rw [if_neg hready]
      dsimp only at hrc ⊢
      split at hrc
      · cases hrc
      · cases hrc
      · rfl
  join r config s h := by
    show (Zephyr.zephyrJoin rejects r.mib config s).2.started = true
    by_cases haccepted : Zephyr.AcceptedJoin s (.join config r.mib)
    · rw [Zephyr.zephyrJoin_accepted haccepted]
      exact h
    · obtain ⟨e, he⟩ := @Zephyr.zephyrJoin_rejected rejects s config r.mib haccepted
      rw [he]
      exact h
  leave r s h := by
    rcases hpending : s.joinPending with _ | _
    · rw [zephyrLeave_idle hpending]
      exact h
    · rw [zephyrLeave_pending hpending]
      exact h
  event a s t events hevent h := by
    change (if isZephyrCall a then none else _) = some (t, events) at hevent
    split at hevent
    · cases hevent
    · obtain ⟨u, hstep, hu⟩ := Option.map_eq_some_iff.1 hevent
      obtain ⟨rfl, -⟩ := Prod.mk.inj hu
      cases Zephyr.step_transition hstep with
      | started => rfl
      | joinEnded rc hw => rw [Zephyr.joinHandlerEnded_started, h]
      | _ => exact h

/-! ### Runs -/

/-- In every run, AT+JOIN=0 reports what it did exactly where the policy is stored and the backend can be
stopped in the requests that the command makes, or the policy is not stored and something goes on. -/
theorem stop_reports_iff (build : Build) (w : Nat) (rejects : Bool)
    (as : List (Act ZephyrReply Zephyr.Act)) (as' : List (Act UspReply UspAct)) :
    (Meets (step (zephyrBackend rejects) build w) (ReportsStop (zephyrBackend rejects) build w)
          (System.boot Zephyr.init) as ↔
        Meets (step (zephyrBackend rejects) build w)
          (StopsWhenStored (zephyrBackend rejects) w ZephyrStops) (System.boot Zephyr.init) as) ∧
      (Meets (step uspBackend build w) (ReportsStop uspBackend build w)
            (System.boot ⟨.init, false, false⟩) as' ↔
          Meets (step uspBackend build w) (StopsWhenStored uspBackend w UspStops)
            (System.boot ⟨.init, false, false⟩) as') := by
  constructor
  · have hiff : ∀ x a, Grounded (fun s : Zephyr.State => s.started = true) x →
        (ReportsStop (zephyrBackend rejects) build w x a ↔
          StopsWhenStored (zephyrBackend rejects) w ZephyrStops x a) := fun x a hground =>
      reportsStop_iff fun r hjoined hstarted => zephyr_stops_iff (hground hstarted) hjoined
    have hboot : Grounded (fun s : Zephyr.State => s.started = true) (System.boot Zephyr.init) :=
      fun hstarted => (by cases hstarted)
    constructor
    · exact Meets.of_invariant (fun x a hground => (hiff x a hground).1)
        (fun x a y hground _ hstep => grounded_step (zephyr_grounds rejects) hground hstep) hboot
    · exact Meets.of_invariant (fun x a hground => (hiff x a hground).2)
        (fun x a y hground _ hstep => grounded_step (zephyr_grounds rejects) hground hstep) hboot
  · have hiff : ∀ x a, ReportsStop uspBackend build w x a ↔ StopsWhenStored uspBackend w UspStops x a :=
      fun x a => reportsStop_iff fun r hjoined _ => usp_stops_iff hjoined
    constructor
    · exact Meets.of_invariant (I := fun _ => True) (fun x a _ => (hiff x a).1)
        (fun x a y _ _ _ => trivial) trivial
    · exact Meets.of_invariant (I := fun _ => True) (fun x a _ => (hiff x a).2)
        (fun x a y _ _ _ => trivial) trivial

/-- A device that answers every request. -/
def zephyrReply : ZephyrReply := ⟨.eu868, true, none, none, fun _ => none⟩

def zephyrEnv : Env ZephyrReply :=
  ⟨Lorawan.defaultAnswers, .ok (), zephyrReply, zephyrReply, zephyrReply, zephyrReply⟩

def zephyrReplies : Replies ZephyrReply := ⟨.ok (), zephyrReply, zephyrEnv, zephyrReply, zephyrEnv⟩

/-- AT+JOIN starts the service, and AT+JOIN=0 finds nothing to stop. -/
def stopIdle : List (Act ZephyrReply Zephyr.Act) :=
  [.atJoin .run [] zephyrReplies, .atJoin .write (ascii "0") zephyrReplies]

/-- Nothing is left to stop, and the answer is an error. -/
theorem stop_answers_error : ¬ Meets (step (zephyrBackend false) Lorawan.fullBuild 32)
    (ReportsStop (zephyrBackend false) Lorawan.fullBuild 32) (System.boot Zephyr.init) stopIdle := by
  intro h
  have hstop := (h.2 _ rfl).1 ⟨0, Lorawan.joinKeep, Lorawan.joinKeep, Lorawan.joinKeep⟩ rfl rfl rfl rfl
  have hrc := hstop.2 (by decide)
  revert hrc
  decide

end Rzi.At.Join
