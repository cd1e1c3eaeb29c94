import Rzi.ZephyrBackend

/-!
# Uplink completion of the Zephyr backend

One buffer, one flag and one work item carry every uplink. The flag `tx_pending` is taken with the
buffer and given back before the completion is published, so the next send may be accepted while the
handler of the last one still runs; its submission then makes the item run once more. The history kept
beside the backend is what callers, the MAC and the sink saw: `SendInv.reported` says that they agree.
`ZephyrProgress` adds that what was accepted is completed.
-/

namespace Rzi.Zephyr.Uplink
open WorkQueue Lts

/-- `RZI_LORAWAN_MAX_PAYLOAD`. -/
def maxPayload : Nat := 242

def isTxDone : Event → Bool
  | .txDone _ _ => true
  | _ => false

/-- The TX_DONE events that were published. -/
def txDones (events : List Event) : List Event := events.filter isTxDone

/-- What a step adds to the history. -/
structure Marks where
  accepted : List Tx
  calls : List Tx
  results : List (Option Errno)

def Marks.none : Marks := ⟨[], [], []⟩

def marks (s : State) : Act → Marks
  | .send port data type =>
    if (zephyrSend port data type s).1.isOk then ⟨[⟨port, data, type⟩], [], []⟩ else .none
  -- the handler calls `lorawan_send` with what its first locked section copied
  | .enter => if s.worker = .sendEntry then ⟨[], [s.tx], []⟩ else .none
  | .sendReturns rc => ⟨[], [], [rc]⟩
  | _ => .none

/-- The backend with the history of its uplinks. -/
structure Traced where
  backend : State
  /-- the sends that returned 0 -/
  accepted : List Tx
  /-- the calls of `lorawan_send` -/
  calls : List Tx
  /-- what they returned -/
  results : List (Option Errno)

def Traced.init : Traced := ⟨Zephyr.init, [], [], []⟩

/-- `rzi_lorawan_send` passes on no larger payload. -/
def fits : Act → Bool
  | .send _ data _ => data.length ≤ maxPayload
  | _ => true

def step (rejects : Bool) (s : Traced) (a : Act) : Option Traced :=
  if fits a then
    (Zephyr.step rejects s.backend a).map fun b => ⟨b, s.accepted ++ (marks s.backend a).accepted,
      s.calls ++ (marks s.backend a).calls, s.results ++ (marks s.backend a).results⟩
  else none

/-- The completions of `txs` when the MAC answered `results`. -/
def outcomes (txs : List Tx) (results : List (Option Errno)) : List Event :=
  List.zipWith (fun tx rc => sendEvent tx.type rc) txs results

/-- The MAC was called with the accepted uplinks, each once and in their order, and TX_DONE was
published with what each call returned. -/
structure Reported (s : Traced) : Prop where
  calls : s.calls <+: s.accepted
  results : s.results.length ≤ s.calls.length
  events : txDones s.backend.published <+: outcomes s.accepted s.results

/-- The MAC was called with all of `txs`, and their completions were published. -/
structure AllReported (txs : List Tx) (s : Traced) : Prop where
  calls : txs <+: s.calls
  results : txs.length ≤ s.results.length
  events : outcomes txs s.results <+: txDones s.backend.published

/-- The steps of the work-queue thread. -/
def isWorker : Act → Bool
  | .takeJoin | .takeSend | .enter | .joinReturns _ | .sendReturns _ | .relock | .publish
  | .handlerReturn => true
  | _ => false

/-! ### What a step does to an uplink -/

/-- The thread is in `send_work_handler`. -/
def inSend : Worker → Bool
  | .sendEntry | .sending _ | .sendEnded _ _ | .sendPublish _ _ | .sendReturn => true
  | _ => false

/-- The thread is in `send_work_handler` and has not executed its second locked section. -/
def sendOpen : Worker → Bool
  | .sendEntry | .sending _ | .sendEnded _ _ => true
  | _ => false

/-- The step leaves the uplink, its work item and its handler alone. -/
structure Frame (s t : State) : Prop where
  started : t.started = s.started
  pending : t.txPending = s.txPending
  tx : t.tx = s.tx
  work : t.sendWork = s.sendWork
  submitters : t.submitters = s.submitters
  events : txDones t.published = txDones s.published
  worker : t.worker = s.worker ∨ inSend s.worker = false ∧ inSend t.worker = false

/-- What a step can do to an uplink. -/
inductive SendStep (rejects : Bool) (s : State) : Act → State → Prop
  | other (a t) (hf : Frame s t) (hm : marks s a = .none) : SendStep rejects s a t
  | started (a region) (hs : s.started = false) (hm : marks s a = .none) :
      SendStep rejects s a { s with
        currentRegion := region, joinWork := .idle, sendWork := .idle, started := true
        joined := false, readyDue := true }
  | accepted (port data type) (hs : s.started = true) (hj : s.joinPending = false)
      (hp : s.txPending = false)
      (hm : marks s (.send port data type) = ⟨[⟨port, data, type⟩], [], []⟩) :
      SendStep rejects s (.send port data type) { s with
        tx := ⟨port, data.take (data.length % 256), type⟩
        txPending := true
        submitters := s.submitters + 1 }
  | submitted (hn : s.submitters ≠ 0) : SendStep rejects s .submit { s with
      submitters := s.submitters - 1, sendWork := s.sendWork.submit rejects }
  | taken (w) (hi : s.worker = .idle) (hw : s.sendWork.start = some w) :
      SendStep rejects s .takeSend { s with sendWork := w, worker := .sendEntry }
  | called (hw : s.worker = .sendEntry) :
      SendStep rejects s .enter { s with worker := .sending s.tx }
  | returned (tx rc) (hw : s.worker = .sending tx) :
      SendStep rejects s (.sendReturns rc) { s with worker := .sendEnded tx.type rc }
  | ended (type rc) (hw : s.worker = .sendEnded type rc) :
      SendStep rejects s .relock { s with txPending := false, worker := .sendPublish type rc }
  | published (type rc) (hw : s.worker = .sendPublish type rc) :
      SendStep rejects s .publish { s.publish (sendEvent type rc) with worker := .sendReturn }
  | finished (hw : s.worker = .sendReturn) :
      SendStep rejects s .handlerReturn { s with sendWork := s.sendWork.finish, worker := .idle }

variable {rejects : Bool} {s t : State} {a : Act}

theorem Frame.rest {region : Region} {joined joinPending joinStop ready : Bool} {config : JoinConfig}
    {joinWork : Item} {nonce : UInt16} : Frame s { s with
      currentRegion := region, joined := joined, joinPending := joinPending, joinStop := joinStop
      joinSettings := config, joinWork := joinWork, nextDevNonce := nonce, readyDue := ready } :=
  ⟨rfl, rfl, rfl, rfl, rfl, rfl, .inl rfl⟩

theorem Frame.join {w : Worker} {joined joinPending : Bool} {joinWork : Item} {nonce : UInt16}
    (hs : inSend s.worker = false) (hw : inSend w = false) : Frame s { s with
      joined := joined, joinPending := joinPending, joinWork := joinWork, nextDevNonce := nonce
      worker := w } :=
  ⟨rfl, rfl, rfl, rfl, rfl, rfl, .inr ⟨hs, hw⟩⟩

theorem txDones_append_of_not {events : List Event} {event : Event} (h : isTxDone event = false) :
    txDones (events ++ [event]) = txDones events := by
  simp [txDones, List.filter_append, h]

theorem isTxDone_sendEvent (type : MessageType) (rc : Option Errno) :
    isTxDone (sendEvent type rc) = true := by
  cases rc <;> rfl

theorem isTxDone_joinEvent (rc : Option Errno) : isTxDone (joinEvent rc) = false := by
  cases rc <;> rfl

theorem joinHandlerEnded_frame {rc : Option Errno} (hw : s.worker = .joinEnded rc) :
    Frame s (joinHandlerEnded rejects rc s) := by
  have hs : inSend s.worker = false := by rw [hw]; rfl
  rcases rc with _ | e
  · rw [joinHandlerEnded_success]
    exact .join hs rfl
  cases hst : s.joinStop
  · rw [joinHandlerEnded_retry hst]
    exact .join hs rfl
  · rw [joinHandlerEnded_stopped hst]
    exact .join hs rfl

theorem step_sendStep (h : Zephyr.step rejects s a = some t) : SendStep rejects s a t := by
  cases step_transition h with
  | startFailed | joinRejected | joinAccepted | leaveRejected | left | devNonceSet | expired =>
    exact .other _ _ .rest rfl
  | started region hs => exact .started _ region hs rfl
  | readyPublished =>
    exact .other _ _ ⟨rfl, rfl, rfl, rfl, rfl, txDones_append_of_not rfl, .inl rfl⟩ rfl
  | sendRejected port data type e he =>
    exact .other _ _ .rest (by simp [marks, he, Except.isOk, Except.toBool])
  | sendAccepted port data type hs hj hp hok =>
    exact .accepted port data type hs hj hp (by simp [marks, hok, Except.isOk, Except.toBool])
  | submitted hn => exact .submitted hn
  | sendTaken w hi hw => exact .taken w hi hw
  | sendCalled hw => exact .called hw
  | sendReturned tx rc hw => exact .returned tx rc hw
  | sendEnded type rc hw => exact .ended type rc hw
  | sendPublished type rc hw => exact .published type rc hw
  | sendFinished hw => exact .finished hw
  | joinDropped hw | joinCalled config nonce hw =>
    exact .other _ _ (.join (by rw [hw]; rfl) rfl) (by simp [marks, hw])
  | joinTaken | joinReturned | joinFinished =>
    exact .other _ _ (.join (by rw [‹s.worker = _›]; rfl) rfl) rfl
  | joinEnded rc hw => exact .other _ _ (joinHandlerEnded_frame hw) rfl
  | joinPublished rc hw =>
    exact .other _ _ ⟨rfl, rfl, rfl, rfl, rfl, txDones_append_of_not (isTxDone_joinEvent rc),
      .inr ⟨by rw [hw]; rfl, rfl⟩⟩ rfl

/-! ### The history and the state agree -/

/-- `lorawan_send` has been called and its completion is not published. -/
def called : Worker → Bool
  | .sending _ | .sendEnded _ _ => true
  | _ => false

/-- The accepted uplink that the MAC has not been called with. -/
def unsent (b : State) : List Tx := if b.txPending && !called b.worker then [b.tx] else []

/-- The uplink the MAC is busy with. -/
def inCall : Worker → List Tx
  | .sending tx => [tx]
  | _ => []

/-- The completion that the handler is about to publish. -/
def due : Worker → List Event
  | .sendEnded type rc | .sendPublish type rc => [sendEvent type rc]
  | _ => []

structure SendInv (s : Traced) : Prop where
  accepted : s.accepted = s.calls ++ unsent s.backend
  returned : ∃ done, s.calls = done ++ inCall s.backend.worker ∧ done.length = s.results.length ∧
    outcomes done s.results = txDones s.backend.published ++ due s.backend.worker
  opened : sendOpen s.backend.worker = true → s.backend.txPending = true
  /-- an accepted uplink that no handler has taken waits for its submission or in the queue -/
  located : s.backend.submitters + s.backend.sendWork.queued.toNat =
    (s.backend.txPending && !sendOpen s.backend.worker).toNat
  canceling : s.backend.sendWork.canceling = false
  unstarted : s.backend.started = false → s.backend.txPending = false ∧ inSend s.backend.worker = false

variable {x y : Traced}

theorem sendInv_init : SendInv Traced.init where
  accepted := rfl
  returned := ⟨[], rfl, rfl, rfl⟩
  opened h := by cases h
  located := rfl
  canceling := rfl
  unstarted _ := ⟨rfl, rfl⟩

theorem of_not_inSend {w : Worker} (h : inSend w = false) :
    called w = false ∧ inCall w = [] ∧ due w = [] ∧ sendOpen w = false := by
  cases w <;> first | exact ⟨rfl, rfl, rfl, rfl⟩ | cases h

theorem outcomes_append_left (txs more : List Tx) (results : List (Option Errno)) :
    outcomes txs results <+: outcomes (txs ++ more) results := by
  induction txs generalizing results with
  | nil => exact List.nil_prefix
  | cons tx txs ih =>
    cases results with
    | nil => exact List.nil_prefix
    | cons rc results => exact (List.prefix_cons_inj _).2 (ih results)

/-- What a step reaches, with what it adds to the history. -/
theorem step_eq (h : step rejects x a = some y) : fits a = true ∧
    SendStep rejects x.backend a y.backend ∧
    y.accepted = x.accepted ++ (marks x.backend a).accepted ∧
    y.calls = x.calls ++ (marks x.backend a).calls ∧
    y.results = x.results ++ (marks x.backend a).results := by
  unfold step at h
  split at h
  · rename_i hfits
    obtain ⟨b, hb, rfl⟩ := Option.map_eq_some_iff.1 h
    exact ⟨hfits, step_sendStep hb, rfl, rfl, rfl⟩
  · cases h

namespace SendInv

theorem frame {b : State} (h : SendInv x) (hf : Frame x.backend b) :
    SendInv ⟨b, x.accepted, x.calls, x.results⟩ := by
  have hw : called b.worker = called x.backend.worker ∧ inCall b.worker = inCall x.backend.worker ∧
      due b.worker = due x.backend.worker ∧ sendOpen b.worker = sendOpen x.backend.worker ∧
      inSend b.worker = inSend x.backend.worker := by
    rcases hf.worker with hw | ⟨hs, ht⟩
    · rw [hw]
      exact ⟨rfl, rfl, rfl, rfl, rfl⟩
    · obtain ⟨h1, h2, h3, h4⟩ := of_not_inSend hs
      obtain ⟨h1', h2', h3', h4'⟩ := of_not_inSend ht
      exact ⟨h1'.trans h1.symm, h2'.trans h2.symm, h3'.trans h3.symm, h4'.trans h4.symm,
        ht.trans hs.symm⟩
  obtain ⟨hcalled, hcall, hdue, hopen, hin⟩ := hw
  constructor
  · simp only [unsent, hcalled, hf.pending, hf.tx]
    exact h.accepted
  · simp only [hcall, hdue, hf.events]
    exact h.returned
  · simp only [hopen, hf.pending]
    exact h.opened
  · simp only [hf.submitters, hf.work, hf.pending, hopen]
    exact h.located
  · simp only [hf.work]
    exact h.canceling
  · simp only [hf.started, hf.pending, hin]
    exact h.unstarted

/-- An accepted send finds no other uplink on its way to the MAC. -/
theorem accepted_send {port : UInt8} {data : List UInt8} {type : MessageType} (h : SendInv x)
    (hfits : data.length ≤ maxPayload) (hs : x.backend.started = true)
    (hp : x.backend.txPending = false) :
    SendInv ⟨{ x.backend with
        tx := ⟨port, data.take (data.length % 256), type⟩
        txPending := true
        submitters := x.backend.submitters + 1 }, x.accepted ++ [⟨port, data, type⟩], x.calls,
      x.results⟩ := by
  have hopen : sendOpen x.backend.worker = false := by
    cases ho : sendOpen x.backend.worker
    · rfl
    · rw [h.opened ho] at hp
      cases hp
  have hcalled : called x.backend.worker = false := by
    cases hw : x.backend.worker <;> first | rfl | (rw [hw] at hopen; cases hopen)
  have hdata : data.take (data.length % 256) = data := by
    rw [Nat.mod_eq_of_lt (Nat.lt_of_le_of_lt hfits (by decide)), List.take_length]
  have hlocated := h.located
  have haccepted := h.accepted
  simp only [hp, Bool.false_and, Bool.toNat_false, unsent, Bool.false_eq_true, if_false,
    List.append_nil] at hlocated haccepted
  constructor
  · simp only [unsent, hcalled, hdata, Bool.not_false, Bool.and_true, if_true]
    rw [haccepted]
  · exact h.returned
  · exact fun _ => rfl
  · simp only [hopen, Bool.not_false, Bool.and_true, Bool.toNat_true]
    omega
  · exact h.canceling
  · intro hs'
    rw [show x.backend.started = false from hs'] at hs
    cases hs

theorem submitted (h : SendInv x) (hn : x.backend.submitters ≠ 0) :
    SendInv ⟨{ x.backend with
      submitters := x.backend.submitters - 1
      sendWork := x.backend.sendWork.submit rejects }, x.accepted, x.calls, x.results⟩ := by
  have hqueued : x.backend.sendWork.queued = false := by
    have hlocated := h.located
    cases hq : x.backend.sendWork.queued
    · rfl
    · have hle := Bool.toNat_le (x.backend.txPending && !sendOpen x.backend.worker)
      rw [hq, Bool.toNat_true] at hlocated
      omega
  have hsubmit : x.backend.sendWork.submit rejects = { x.backend.sendWork with queued := true } := by
    simp [Item.submit, hqueued, h.canceling]
  rw [hsubmit]
  refine ⟨h.accepted, h.returned, h.opened, ?_, h.canceling, h.unstarted⟩
  have hlocated := h.located
  simp only [hqueued, Bool.toNat_false, Bool.toNat_true] at hlocated ⊢
  omega

/-- The handler starts with the uplink in the buffer. -/
theorem taken {w : Item} (h : SendInv x) (hi : x.backend.worker = .idle)
    (hw : x.backend.sendWork.start = some w) :
    SendInv ⟨{ x.backend with sendWork := w, worker := .sendEntry }, x.accepted, x.calls,
      x.results⟩ := by
  unfold Item.start at hw
  split_ifs at hw with hq
  cases hw
  have hlocated := h.located
  have haccepted := h.accepted
  have hreturned := h.returned
  simp only [hi, hq, Bool.toNat_true, sendOpen, Bool.not_false, Bool.and_true] at hlocated
  have hp : x.backend.txPending = true := by
    cases hp : x.backend.txPending
    · rw [hp, Bool.toNat_false] at hlocated
      omega
    · rfl
  rw [hp, Bool.toNat_true] at hlocated
  constructor
  · simpa [unsent, called, hi] using haccepted
  · simpa [inCall, due, hi] using hreturned
  · exact fun _ => hp
  · simp only [sendOpen, Bool.not_true, Bool.and_false, Bool.toNat_false]
    omega
  · exact h.canceling
  · intro hs
    rw [(h.unstarted hs).1] at hp
    cases hp

theorem called_mac (h : SendInv x) (hw : x.backend.worker = .sendEntry) :
    SendInv ⟨{ x.backend with worker := .sending x.backend.tx }, x.accepted,
      x.calls ++ [x.backend.tx], x.results⟩ := by
  have hp : x.backend.txPending = true := h.opened (by rw [hw]; rfl)
  have haccepted := h.accepted
  have hlocated := h.located
  obtain ⟨done, hcalls, hlength, hevents⟩ := h.returned
  simp only [hw, inCall, due, List.append_nil, unsent, called, hp, Bool.not_false, Bool.and_true,
    if_true, sendOpen] at hcalls hevents haccepted hlocated
  constructor
  · simp only [unsent, called, Bool.not_true, Bool.and_false, Bool.false_eq_true, if_false,
      List.append_nil]
    exact haccepted
  · refine ⟨done, ?_, hlength, ?_⟩
    · rw [hcalls]
      rfl
    · simp only [due, List.append_nil]
      exact hevents
  · exact fun _ => hp
  · simp only [sendOpen, hp]
    exact hlocated
  · exact h.canceling
  · intro hs
    rw [(h.unstarted hs).1] at hp
    cases hp

theorem outcomes_concat {txs : List Tx} {results : List (Option Errno)} {tx : Tx} {rc : Option Errno}
    (h : txs.length = results.length) :
    outcomes (txs ++ [tx]) (results ++ [rc]) = outcomes txs results ++ [sendEvent tx.type rc] := by
  unfold outcomes
  rw [List.zipWith_append h]
  rfl

theorem mac_returned {tx : Tx} (h : SendInv x) (hw : x.backend.worker = .sending tx)
    (rc : Option Errno) : SendInv ⟨{ x.backend with worker := .sendEnded tx.type rc }, x.accepted,
      x.calls, x.results ++ [rc]⟩ := by
  have hp : x.backend.txPending = true := h.opened (by rw [hw]; rfl)
  have haccepted := h.accepted
  have hlocated := h.located
  obtain ⟨done, hcalls, hlength, hevents⟩ := h.returned
  simp only [hw, inCall, due, List.append_nil, unsent, called, sendOpen]
    at hcalls hevents haccepted hlocated
  constructor
  · simpa [unsent, called] using haccepted
  · refine ⟨done ++ [tx], ?_, ?_, ?_⟩
    · rw [hcalls]
      simp [inCall]
    · simp [hlength]
    · rw [outcomes_concat hlength, hevents]
      rfl
  · exact fun _ => hp
  · exact hlocated
  · exact h.canceling
  · intro hs
    rw [(h.unstarted hs).1] at hp
    cases hp

/-- The flag is given back; the completion is still due. -/
theorem ended {type : MessageType} {rc : Option Errno} (h : SendInv x)
    (hw : x.backend.worker = .sendEnded type rc) :
    SendInv ⟨{ x.backend with txPending := false, worker := .sendPublish type rc }, x.accepted,
      x.calls, x.results⟩ := by
  have hp : x.backend.txPending = true := h.opened (by rw [hw]; rfl)
  have haccepted := h.accepted
  have hlocated := h.located
  have hreturned := h.returned
  simp only [hw, unsent, called, sendOpen, inCall, due] at haccepted hlocated hreturned
  constructor
  · simpa [unsent] using haccepted
  · exact hreturned
  · exact fun ho => by cases ho
  · simpa using hlocated
  · exact h.canceling
  · intro hs
    rw [(h.unstarted hs).1] at hp
    cases hp

theorem published {type : MessageType} {rc : Option Errno} (h : SendInv x)
    (hw : x.backend.worker = .sendPublish type rc) :
    SendInv ⟨{ x.backend.publish (sendEvent type rc) with worker := .sendReturn }, x.accepted,
      x.calls, x.results⟩ := by
  have haccepted := h.accepted
  have hlocated := h.located
  obtain ⟨done, hcalls, hlength, hevents⟩ := h.returned
  simp only [hw, unsent, called, sendOpen, inCall, due] at haccepted hlocated hcalls hevents
  constructor
  · exact haccepted
  · refine ⟨done, hcalls, hlength, ?_⟩
    simp only [State.publish, due, txDones, List.filter_append, List.append_nil]
    rw [hevents]
    simp [txDones, isTxDone_sendEvent]
  · exact fun ho => by cases ho
  · exact hlocated
  · exact h.canceling
  · intro hs
    have hin := (h.unstarted hs).2
    rw [hw] at hin
    cases hin

theorem finished (h : SendInv x) (hw : x.backend.worker = .sendReturn) :
    SendInv ⟨{ x.backend with sendWork := x.backend.sendWork.finish, worker := .idle }, x.accepted,
      x.calls, x.results⟩ := by
  have haccepted := h.accepted
  have hlocated := h.located
  have hreturned := h.returned
  simp only [hw, unsent, called, sendOpen, inCall, due] at haccepted hlocated hreturned
  refine ⟨haccepted, hreturned, (fun ho => by cases ho), hlocated, rfl, fun hs => ?_⟩
  exact ⟨(h.unstarted hs).1, rfl⟩

theorem initialised {region : Region} (h : SendInv x) (hs : x.backend.started = false) :
    SendInv ⟨{ x.backend with
        currentRegion := region, joinWork := .idle, sendWork := .idle, started := true
        joined := false, readyDue := true }, x.accepted, x.calls, x.results⟩ := by
  obtain ⟨hp, hin⟩ := h.unstarted hs
  refine ⟨h.accepted, h.returned, h.opened, ?_, rfl, fun hs' => by cases hs'⟩
  have hlocated := h.located
  simp only [hp, Bool.false_and, Bool.toNat_false, Item.idle] at hlocated ⊢
  omega

theorem step (h : SendInv x) (ht : Uplink.step rejects x a = some y) : SendInv y := by
  obtain ⟨hfits, hstep, haccepted, hcalls, hresults⟩ := step_eq ht
  obtain ⟨b, accepted, calls, results⟩ := y
  simp only at hstep haccepted hcalls hresults
  subst haccepted hcalls hresults
  cases hstep with
  | other _ _ hf hm =>
    rw [hm]
    simp only [Marks.none, List.append_nil]
    exact h.frame hf
  | started _ region hs hm =>
    rw [hm]
    simp only [Marks.none, List.append_nil]
    exact h.initialised hs
  | accepted port data type hs _ hp hm =>
    rw [hm]
    simp only [List.append_nil]
    exact h.accepted_send (by simpa [fits] using hfits) hs hp
  | submitted hn =>
    simp only [marks, Marks.none, List.append_nil]
    exact h.submitted hn
  | taken w hi hw =>
    simp only [marks, Marks.none, List.append_nil]
    exact h.taken hi hw
  | called hw =>
    simp only [marks, hw, if_true, List.append_nil]
    exact h.called_mac hw
  | returned tx rc hw =>
    simp only [marks, List.append_nil]
    exact h.mac_returned hw rc
  | ended type rc hw =>
    simp only [marks, Marks.none, List.append_nil]
    exact h.ended hw
  | published type rc hw =>
    simp only [marks, Marks.none, List.append_nil]
    exact h.published hw
  | finished hw =>
    simp only [marks, Marks.none, List.append_nil]
    exact h.finished hw

theorem reported (h : SendInv x) : Reported x := by
  obtain ⟨done, hcalls, hlength, hevents⟩ := h.returned
  refine ⟨?_, ?_, ?_⟩
  · rw [h.accepted]
    exact List.prefix_append _ _
  · rw [hcalls, List.length_append, hlength]
    exact Nat.le_add_right _ _
  · rw [h.accepted, hcalls, List.append_assoc]
    refine List.IsPrefix.trans ?_ (outcomes_append_left done _ x.results)
    rw [hevents]
    exact List.prefix_append _ _

end SendInv

end Rzi.Zephyr.Uplink
