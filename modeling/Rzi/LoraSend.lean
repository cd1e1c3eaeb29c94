import Rzi.Lora

/-!
# Completion of P2P transmissions (`on_tx_done`, `usp_send`, `usp_poll`)

`on_tx_done` runs under the USP lock, a poll runs without it and in any number of threads. A call of the
service and a callback section are one step each, except that `on_tx_done` stores the error and sets
`tx_done` in two steps, and a poll clears `tx_done`, reads the error and invokes the callback in three. A
transmission that was accepted completes once. A run has no `rzi_lora_stop`, and a `tx_done` callback is
registered.

`announced_iff_in_turn` says in which runs the callback is invoked once for every accepted transmission,
in the order of the completions and with their errors.
-/

namespace Rzi.Lora.Send

/-- The service with what is under way, and what has been accepted, completed and published so far. -/
structure Sys where
  service : Service
  /-- a transaction was accepted and has not completed -/
  transmitting : Bool
  /-- `on_tx_done` has stored its error and has not set `tx_done` -/
  completing : Bool
  /-- polls that have cleared `tx_done` and not read the error -/
  taken : Nat
  /-- the errors that polls have read, and not passed on -/
  read : List Int
  accepted : Nat
  completed : List Int
  published : List Int
deriving DecidableEq

def Sys.boot : Sys := ⟨.init, false, false, 0, [], 0, [], []⟩

/-- The first half of `on_tx_done`. -/
def storeResult (status : Status) (b : Backend) : Backend :=
  { b with txBusy := false, txError := txResult status }

/-- The second half of `on_tx_done`. -/
def setDone (b : Backend) : Backend := { b with txDone := true }

theorem onTxDone_eq (status : Status) (b : Backend) :
    onTxDone status b = setDone (storeResult status b) := rfl

/-- The other calls of the service and the callbacks of a receive. -/
def Other : Lora.Act → Bool
  | .stop _ | .send _ _ | .poll | .txDone _ => false
  | _ => true

inductive Act where
  | send (radio : Radio) (data : Option (List UInt8))
  | store (status : Status)
  | setDone
  /-- `atomic_cas(&tx_done, 1, 0)` -/
  | take
  /-- `atomic_get(&tx_error)` -/
  | read
  /-- `rzi_lora_publish_tx_done` by a poll that has read this error -/
  | publish (error : Int)
  | other (a : Lora.Act)

def step (s : Sys) : Act → Option Sys
  | .send radio data =>
    if s.completing then none
    else
      match loraSend radio data s.service with
      | (.error _, t) => some { s with service := t }
      | (.ok (), t) => some { s with service := t, transmitting := true, accepted := s.accepted + 1 }
  | .store status =>
    if !s.transmitting || s.completing then none
    else some { s with
      service := { s.service with backend := storeResult status s.service.backend }
      transmitting := false
      completing := true
      completed := s.completed ++ [txResult status] }
  | .setDone =>
    if !s.completing then none
    else some { s with
      service := { s.service with backend := setDone s.service.backend }
      completing := false }
  | .take =>
    if !s.service.backend.txDone then some s
    else some { s with
      service := { s.service with backend := { s.service.backend with txDone := false } }
      taken := s.taken + 1 }
  | .read =>
    match s.taken with
    | 0 => none
    | n + 1 => some { s with taken := n, read := s.read ++ [s.service.backend.txError] }
  | .publish error =>
    if error ∉ s.read then none
    else some { s with read := s.read.erase error, published := s.published ++ [error] }
  | .other a => if Other a then some { s with service := Lora.next s.service a } else none

/-- Nothing is under way, and a last poll has found nothing. -/
structure Quiescent (s : Sys) : Prop where
  transmitting : s.transmitting = false
  completing : s.completing = false
  taken : s.taken = 0
  read : s.read = []
  done : s.service.backend.txDone = false

/-- The callback was invoked once for every accepted transmission, in the order of the completions and
with their errors. -/
structure Announced (s : Sys) : Prop where
  count : s.published.length = s.accepted
  errors : s.published = s.completed

/-- Polls do not overtake each other between reading the error and invoking the callback. -/
def Ordered (s : Sys) : Act → Prop
  | .publish error => s.read.head? = some error
  | _ => True

/-- A completion stores its error when every earlier error has been read, or the error is the same, and
sets `tx_done` when it is clear. -/
def Fresh (s : Sys) : Act → Prop
  | .store status => s.service.backend.txDone = true ∨ 0 < s.taken →
      txResult status = s.service.backend.txError
  | .setDone => s.service.backend.txDone = false
  | _ => True

def InTurn (s : Sys) (a : Act) : Prop := Ordered s a ∧ Fresh s a

instance (s : Sys) : DecidablePred (InTurn s) := fun a => by
  unfold InTurn
  cases a <;> unfold Ordered Fresh <;> infer_instance

/-! ### What one step does -/

variable {s t : Sys} {a : Act} {acts : List Act}

/-- The completions that no poll has read. -/
def Sys.unread (s : Sys) : Nat := s.taken + s.service.backend.txDone.toNat + s.completing.toNat

/-- What was published and read, and the unread completions with the stored error, are all completions. -/
def Faithful (s : Sys) : Prop :=
  s.published ++ s.read ++ List.replicate s.unread s.service.backend.txError = s.completed

/-- What holds in every run. -/
structure Inv (s : Sys) : Prop where
  busy : s.service.backend.txBusy = s.transmitting
  accepted : s.accepted = s.completed.length + s.transmitting.toNat
  fewer : s.published.length + s.read.length + s.unread ≤ s.completed.length
  last : 0 < s.unread → s.completed.getLast? = some s.service.backend.txError

theorem inv_boot : Inv .boot := ⟨rfl, rfl, Nat.le_refl _, fun h => absurd h (by decide)⟩

/-- The variables of a transmission are the same. -/
structure SameTx (b c : Backend) : Prop where
  busy : c.txBusy = b.txBusy
  done : c.txDone = b.txDone
  error : c.txError = b.txError

theorem SameTx.refl (b : Backend) : SameTx b b := ⟨rfl, rfl, rfl⟩

theorem leaveTestMode_sameTx (radio : Radio) (b : Backend) : SameTx b (leaveTestMode radio b).2 := by
  unfold leaveTestMode
  split
  · exact .refl b
  · split <;> exact ⟨rfl, rfl, rfl⟩

theorem uspTest_sameTx (radio : Radio) (b : Backend) : SameTx b (uspTest radio b).2 := by
  have henter : SameTx b (enterTestMode radio b).2 := by
    unfold enterTestMode
    split
    · exact .refl b
    · dsimp only
      split <;> exact ⟨rfl, rfl, rfl⟩
  unfold uspTest
  split <;> rename_i hr <;> rw [hr] at henter <;> exact henter

theorem uspReceive_sameTx (radio : Radio) (timeoutMs : UInt32) (b : Backend) :
    SameTx b (uspReceive radio timeoutMs b).2 := by
  have hleave := leaveTestMode_sameTx radio { b with rxActive := false }
  unfold uspReceive
  dsimp only
  split
  · exact ⟨rfl, rfl, rfl⟩
  split <;> rename_i hr <;> rw [hr] at hleave
  · exact ⟨hleave.busy, hleave.done, hleave.error⟩
  · split <;> exact ⟨hleave.busy, hleave.done, hleave.error⟩

theorem onRxDone_sameTx (radio : Radio) (status : Status) (r : Reception) (b : Backend) :
    SameTx b (onRxDone radio status r b) := by
  unfold onRxDone
  dsimp only
  generalize hb : (if status = .rxPacket ∧ r.data ≠ [] then
    putPacket ⟨r.rssi, r.snr * 4, r.data.take maxPayload⟩ b else b) = c
  have hsame : SameTx b c := by
    subst hb
    unfold putPacket
    split
    · split <;> exact ⟨rfl, rfl, rfl⟩
    · exact .refl b
  split
  · exact hsame
  · split
    · exact ⟨hsame.busy, hsame.done, hsame.error⟩
    · exact hsame

theorem loraTest_sameTx {f : Radio → Backend → Except Err Unit × Backend} (radio : Radio) (s : Service)
    (hf : SameTx s.backend (f radio s.backend).2) : SameTx s.backend (loraTest radio f s).2.backend := by
  unfold loraTest
  split
  · exact .refl _
  · exact hf

theorem next_sameTx (s : Service) {a : Lora.Act} (h : Other a = true) :
    SameTx s.backend (Lora.next s a).backend := by
  cases a with
  | stop | send | poll | txDone => cases h
  | init radio known =>
    have hopen : SameTx s.backend (openRadio radio s.backend).2 := by
      unfold openRadio
      split
      · exact .refl _
      · split <;> exact ⟨rfl, rfl, rfl⟩
    show SameTx s.backend (loraInit radio known s).2.backend
    unfold loraInit withBackend uspStart
    split
    · exact .refl _
    split
    · exact .refl _
    split <;> rename_i hr <;> obtain rfl := (Prod.mk.inj hr).2 <;> exact hopen
  | setConfig radio config =>
    show SameTx s.backend (loraSetConfig radio config s).2.backend
    unfold loraSetConfig
    split
    · exact .refl _
    split
    · exact .refl _
    · split <;> exact .refl _
  | receive radio timeoutMs =>
    show SameTx s.backend (loraReceive radio timeoutMs s).2.backend
    have hreceive := uspReceive_sameTx radio timeoutMs s.backend
    unfold loraReceive withBackend
    split
    · exact .refl _
    split
    · exact .refl _
    split <;> rename_i hr <;> obtain rfl := (Prod.mk.inj hr).2 <;> exact hreceive
  | test radio => exact loraTest_sameTx radio s (uspTest_sameTx radio s.backend)
  | testGetRssi radio => exact loraTest_sameTx radio s (.refl _)
  | testRx radio => exact loraTest_sameTx radio s (uspReceive_sameTx radio rxContinuous s.backend)
  | testStop radio => exact loraTest_sameTx radio s (.refl _)
  | rxDone radio status r => exact onRxDone_sameTx radio status r s.backend

/-- A send is accepted when no transmission is under way; it leaves what a poll looks at. -/
theorem loraSend_cases (radio : Radio) (data : Option (List UInt8)) (s : Service) :
    ((∃ e, (loraSend radio data s).1 = .error e) ∧ SameTx s.backend (loraSend radio data s).2.backend) ∨
      ((loraSend radio data s).1 = .ok () ∧ s.backend.txBusy = false ∧
        (loraSend radio data s).2.backend.txBusy = true ∧
        (loraSend radio data s).2.backend.txDone = s.backend.txDone ∧
        (loraSend radio data s).2.backend.txError = s.backend.txError) := by
  have hsend : ∀ data,
      ((∃ e, (uspSend radio data s.backend).1 = .error e) ∧ SameTx s.backend (uspSend radio data s.backend).2) ∨
        ((uspSend radio data s.backend).1 = .ok () ∧ s.backend.txBusy = false ∧
          (uspSend radio data s.backend).2.txBusy = true ∧
          (uspSend radio data s.backend).2.txDone = s.backend.txDone ∧
          (uspSend radio data s.backend).2.txError = s.backend.txError) := by
    intro data
    have hleave := leaveTestMode_sameTx radio s.backend
    unfold uspSend
    split <;> rename_i b hr <;> rw [hr] at hleave
    · exact .inl ⟨⟨_, rfl⟩, hleave⟩
    split
    · exact .inl ⟨⟨_, rfl⟩, hleave⟩
    rename_i hbusy
    have hidle : s.backend.txBusy = false := hleave.busy.symm.trans (by simpa using hbusy)
    dsimp only
    split
    · exact .inl ⟨⟨_, rfl⟩, hidle.symm, hleave.done, hleave.error⟩
    · exact .inr ⟨rfl, hidle, rfl, hleave.done, hleave.error⟩
  unfold loraSend
  split
  · exact .inl ⟨⟨_, rfl⟩, .refl _⟩
  split
  · exact .inl ⟨⟨_, rfl⟩, .refl _⟩
  split
  · exact .inl ⟨⟨_, rfl⟩, .refl _⟩
  split
  · exact .inl ⟨⟨_, rfl⟩, .refl _⟩
  split
  · exact .inl ⟨⟨_, rfl⟩, .refl _⟩
  · exact hsend _

/-- A step that neither completes a transmission nor is part of a poll. -/
structure Frame (s t : Sys) : Prop where
  done : t.service.backend.txDone = s.service.backend.txDone
  error : t.service.backend.txError = s.service.backend.txError
  completing : t.completing = s.completing
  taken : t.taken = s.taken
  read : t.read = s.read
  completed : t.completed = s.completed
  published : t.published = s.published

theorem Frame.unread (h : Frame s t) : t.unread = s.unread := by
  unfold Sys.unread
  rw [h.taken, h.done, h.completing]

theorem Frame.faithful (h : Frame s t) : Faithful t ↔ Faithful s := by
  unfold Faithful
  rw [h.published, h.read, h.unread, h.error, h.completed]

theorem Frame.inv (h : Frame s t) (hs : Inv s) (hbusy : t.service.backend.txBusy = t.transmitting)
    (haccepted : t.accepted = t.completed.length + t.transmitting.toNat) : Inv t where
  busy := hbusy
  accepted := haccepted
  fewer := by
    rw [h.published, h.read, h.unread, h.completed]
    exact hs.fewer
  last hn := by
    rw [h.unread] at hn
    rw [h.completed, h.error]
    exact hs.last hn

/-- What a step keeps, and when it keeps the completions faithful: exactly when it is fresh, as long as
polls do not overtake each other. -/
structure Spec (s t : Sys) (a : Act) : Prop where
  inv : Inv t
  faithful : Ordered s a → (Faithful t ↔ Faithful s ∧ Fresh s a)

theorem Frame.spec (h : Frame s t) (hinv : Inv t) (hfresh : Fresh s a) : Spec s t a :=
  ⟨hinv, fun _ => h.faithful.trans (and_iff_left hfresh).symm⟩

theorem send_spec (hs : Inv s) {radio : Radio} {data : Option (List UInt8)}
    (h : step s (.send radio data) = some t) : Spec s t (.send radio data) := by
  unfold step at h
  dsimp only at h
  split at h
  · cases h
  have hcases := loraSend_cases radio data s.service
  generalize loraSend radio data s.service = r at h hcases
  obtain ⟨rc, service⟩ := r
  dsimp only at h hcases
  rcases hcases with ⟨⟨e, rfl⟩, hsame⟩ | ⟨rfl, hidle, hbusy, hdone, herror⟩
  · obtain rfl := Option.some.inj h
    have hframe : Frame s { s with service := service } := ⟨hsame.done, hsame.error, rfl, rfl, rfl, rfl, rfl⟩
    exact hframe.spec (hframe.inv hs (hsame.busy.trans hs.busy) hs.accepted) trivial
  · obtain rfl := Option.some.inj h
    have hframe : Frame s { s with service := service, transmitting := true, accepted := s.accepted + 1 } :=
      ⟨hdone, herror, rfl, rfl, rfl, rfl, rfl⟩
    have hwas : s.transmitting = false := hs.busy.symm.trans hidle
    refine hframe.spec (hframe.inv hs hbusy ?_) trivial
    show s.accepted + 1 = s.completed.length + 1
    rw [hs.accepted, hwas]
    rfl

/-- One more completion with the error `e` is in order after faithful ones, and where some are unread only
if it is the error that they are to be given. -/
theorem faithful_concat (hs : Inv s) (e : Int) :
    s.published ++ s.read ++ List.replicate s.unread e = s.completed ↔
      Faithful s ∧ (0 < s.unread → e = s.service.backend.txError) := by
  unfold Faithful
  constructor
  · intro heq
    have hsame : 0 < s.unread → e = s.service.backend.txError := by
      intro hpos
      have hlast := hs.last hpos
      rw [← heq, List.getLast?_append, List.getLast?_replicate, if_neg (Nat.pos_iff_ne_zero.1 hpos)] at hlast
      exact Option.some.inj hlast
    refine ⟨?_, hsame⟩
    rcases Nat.eq_zero_or_pos s.unread with h0 | hpos
    · rw [h0] at heq ⊢
      exact heq
    · rw [← hsame hpos]
      exact heq
  · rintro ⟨hfaithful, hsame⟩
    rcases Nat.eq_zero_or_pos s.unread with h0 | hpos
    · rw [h0] at hfaithful ⊢
      exact hfaithful
    · rw [hsame hpos]
      exact hfaithful

theorem store_spec (hs : Inv s) {status : Status} (h : step s (.store status) = some t) :
    Spec s t (.store status) := by
  unfold step at h
  dsimp only at h
  split at h
  · cases h
  rename_i hguard
  simp only [Bool.or_eq_true, Bool.not_eq_true', not_or, Bool.not_eq_true, Bool.not_eq_false] at hguard
  obtain ⟨htransmitting, hcompleting⟩ := hguard
  obtain rfl := Option.some.inj h
  have hunread : s.unread = s.taken + s.service.backend.txDone.toNat := by
    unfold Sys.unread
    rw [hcompleting]
    rfl
  have hpending : s.service.backend.txDone = true ∨ 0 < s.taken ↔ 0 < s.unread := by
    rw [hunread]
    cases s.service.backend.txDone <;> simp
  set t : Sys := { s with
    service := { s.service with backend := storeResult status s.service.backend }
    transmitting := false
    completing := true
    completed := s.completed ++ [txResult status] } with ht
  have hmore : t.unread = s.unread + 1 := by
    rw [hunread]
    rfl
  refine ⟨⟨rfl, ?_, ?_, fun _ => List.getLast?_concat⟩, fun _ => ?_⟩
  · show s.accepted = (s.completed ++ [txResult status]).length + 0
    rw [hs.accepted, htransmitting, List.length_append]
    rfl
  · show s.published.length + s.read.length + t.unread ≤ (s.completed ++ [txResult status]).length
    have hfewer := hs.fewer
    rw [hmore, List.length_append, List.length_singleton]
    omega
  · show s.published ++ s.read ++ List.replicate t.unread (txResult status) =
      s.completed ++ [txResult status] ↔ _
    rw [hmore, List.replicate_succ', ← List.append_assoc, List.append_left_inj]
    -- the error of an earlier completion that is still unread is the last one stored
    rw [faithful_concat hs, ← hpending]
    rfl

theorem setDone_spec (hs : Inv s) (h : step s .setDone = some t) : Spec s t .setDone := by
  unfold step at h
  dsimp only at h
  split at h
  · cases h
  rename_i hguard
  have hcompleting : s.completing = true := by simpa using hguard
  obtain rfl := Option.some.inj h
  set t : Sys := { s with
    service := { s.service with backend := setDone s.service.backend }
    completing := false } with ht
  have hunread : t.unread + s.service.backend.txDone.toNat = s.unread := by
    show s.taken + 1 + 0 + s.service.backend.txDone.toNat = s.taken + s.service.backend.txDone.toNat +
      s.completing.toNat
    rw [hcompleting]
    show _ = _ + 1
    omega
  refine ⟨⟨hs.busy, hs.accepted, ?_, fun hpos => hs.last (by omega)⟩, fun _ => ?_⟩
  · have hfewer := hs.fewer
    show s.published.length + s.read.length + t.unread ≤ s.completed.length
    omega
  · show s.published ++ s.read ++ List.replicate t.unread s.service.backend.txError = s.completed ↔ _
    constructor
    · intro heq
      -- a flag that was set already stands for two completions
      have hclear : s.service.backend.txDone = false := by
        have hlength := congrArg List.length heq
        have hfewer := hs.fewer
        rw [List.length_append, List.length_append, List.length_replicate] at hlength
        cases hdone : s.service.backend.txDone with
        | false => rfl
        | true =>
          rw [hdone] at hunread
          simp only [Bool.toNat_true] at hunread
          omega
      refine ⟨?_, hclear⟩
      rw [hclear] at hunread
      unfold Faithful
      rw [← hunread]
      exact heq
    · rintro ⟨hfaithful, hclear⟩
      rw [show s.service.backend.txDone = false from hclear] at hunread
      unfold Faithful at hfaithful
      rw [← hunread] at hfaithful
      exact hfaithful

theorem take_spec (hs : Inv s) (h : step s .take = some t) : Spec s t .take := by
  unfold step at h
  dsimp only at h
  split at h
  · obtain rfl := Option.some.inj h
    exact ⟨hs, fun _ => (and_iff_left trivial).symm⟩
  rename_i hguard
  have hdone : s.service.backend.txDone = true := by simpa using hguard
  obtain rfl := Option.some.inj h
  set t : Sys := { s with
    service := { s.service with backend := { s.service.backend with txDone := false } }
    taken := s.taken + 1 } with ht
  have hunread : t.unread = s.unread := by
    show s.taken + 1 + 0 + s.completing.toNat = s.taken + s.service.backend.txDone.toNat +
      s.completing.toNat
    rw [hdone]
    rfl
  refine ⟨⟨hs.busy, hs.accepted, ?_, fun hpos => hs.last (hunread ▸ hpos)⟩, fun _ => ?_⟩
  · rw [hunread]
    exact hs.fewer
  · unfold Faithful
    rw [hunread]
    exact (and_iff_left trivial).symm

theorem read_spec (hs : Inv s) (h : step s .read = some t) : Spec s t .read := by
  unfold step at h
  dsimp only at h
  split at h
  · cases h
  rename_i n hn
  obtain rfl := Option.some.inj h
  set t : Sys := { s with taken := n, read := s.read ++ [s.service.backend.txError] } with ht
  have hunread : t.unread + 1 = s.unread := by
    show n + s.service.backend.txDone.toNat + s.completing.toNat + 1 =
      s.taken + s.service.backend.txDone.toNat + s.completing.toNat
    omega
  refine ⟨⟨hs.busy, hs.accepted, ?_, fun hpos => hs.last (by omega)⟩, fun _ => ?_⟩
  · have hfewer := hs.fewer
    show s.published.length + (s.read ++ [s.service.backend.txError]).length + t.unread ≤ s.completed.length
    rw [List.length_append, List.length_singleton]
    omega
  · show s.published ++ (s.read ++ [s.service.backend.txError]) ++
      List.replicate t.unread s.service.backend.txError = s.completed ↔ _
    unfold Faithful
    rw [← hunread, List.replicate_succ]
    simp only [List.append_assoc, List.singleton_append]
    exact (and_iff_left trivial).symm

theorem publish_spec (hs : Inv s) {error : Int} (h : step s (.publish error) = some t) :
    Spec s t (.publish error) := by
  unfold step at h
  dsimp only at h
  split at h
  · cases h
  rename_i hguard
  have hmem : error ∈ s.read := not_not.1 hguard
  obtain rfl := Option.some.inj h
  refine ⟨⟨hs.busy, hs.accepted, ?_, hs.last⟩, fun hordered => ?_⟩
  · have hfewer := hs.fewer
    have hlength := List.length_erase_of_mem hmem
    have hpos := List.length_pos_of_mem hmem
    show (s.published ++ [error]).length + (s.read.erase error).length + s.unread ≤ s.completed.length
    rw [List.length_append, List.length_singleton]
    omega
  · obtain ⟨rest, hread⟩ := List.head?_eq_some_iff.1 hordered
    show s.published ++ [error] ++ s.read.erase error ++ List.replicate s.unread s.service.backend.txError =
      s.completed ↔ _
    unfold Faithful
    rw [hread, List.erase_cons_head]
    simp only [List.append_assoc, List.singleton_append]
    exact (and_iff_left trivial).symm

theorem other_spec (hs : Inv s) {b : Lora.Act} (h : step s (.other b) = some t) : Spec s t (.other b) := by
  unfold step at h
  dsimp only at h
  split at h
  · rename_i hother
    obtain rfl := Option.some.inj h
    have hsame := next_sameTx s.service hother
    have hframe : Frame s { s with service := Lora.next s.service b } :=
      ⟨hsame.done, hsame.error, rfl, rfl, rfl, rfl, rfl⟩
    exact hframe.spec (hframe.inv hs (hsame.busy.trans hs.busy) hs.accepted) trivial
  · cases h

theorem step_spec (hs : Inv s) (h : step s a = some t) : Spec s t a := by
  cases a with
  | send radio data => exact send_spec hs h
  | store status => exact store_spec hs h
  | setDone => exact setDone_spec hs h
  | take => exact take_spec hs h
  | read => exact read_spec hs h
  | publish error => exact publish_spec hs h
  | other b => exact other_spec hs h

/-! ### Runs -/

/-- At rest nothing is unread, so the completions are faithful exactly when they were announced. -/
theorem Quiescent.announced_iff (hq : Quiescent s) (hs : Inv s) : Announced s ↔ Faithful s := by
  have hunread : s.unread = 0 := by
    unfold Sys.unread
    rw [hq.taken, hq.done, hq.completing]
    rfl
  have hfaithful : Faithful s ↔ s.published = s.completed := by
    unfold Faithful
    rw [hunread, hq.read, List.append_nil, List.replicate_zero, List.append_nil]
  have haccepted : s.accepted = s.completed.length := by
    rw [hs.accepted, hq.transmitting]
    rfl
  rw [hfaithful]
  exact ⟨fun h => h.errors, fun h => ⟨by rw [h, haccepted], h⟩⟩

/-- The completions at the end of a run, from those at its beginning. -/
theorem faithful_run (hs : Inv s) (hr : Lts.run step s acts = some t)
    (hordered : Lts.Meets step Ordered s acts) : Faithful t ↔ Faithful s ∧ Lts.Meets step Fresh s acts := by
  induction acts generalizing s with
  | nil =>
    cases hr
    exact (and_iff_left trivial).symm
  | cons a acts ih =>
    obtain ⟨r, hsr, hrt⟩ := Lts.run_cons_eq_some.1 hr
    have hspec := step_spec hs hsr
    rw [ih hspec.inv hrt (hordered.2 r hsr), hspec.faithful hordered.1, and_assoc]
    refine and_congr_right fun _ => ⟨fun h => h.2.cons hsr h.1, fun h => ⟨h.1, h.2 r hsr⟩⟩

/-- A run whose steps are all in turn announces every accepted transmission; and a run in which polls do
not overtake each other announces them in no other case. -/
theorem announced_iff_in_turn (acts : List Act) (s : Sys) (hr : Lts.run step .boot acts = some s)
    (hq : Quiescent s) :
    (Lts.Meets step InTurn .boot acts → Announced s) ∧
      (Lts.Meets step Ordered .boot acts → Announced s → Lts.Meets step InTurn .boot acts) := by
  have hs : Inv s := Lts.run_invariant' (fun s a t hs ht => (step_spec hs ht).inv) inv_boot hr
  rw [hq.announced_iff hs]
  constructor
  · intro hturn
    obtain ⟨hordered, hfresh⟩ := Lts.meets_and.1 hturn
    exact (faithful_run inv_boot hr hordered).2 ⟨rfl, hfresh⟩
  · intro hordered hfaithful
    exact Lts.meets_and.2 ⟨hordered, ((faithful_run inv_boot hr hordered).1 hfaithful).2⟩

/-- A transmission that completes with this status. -/
def transmission (status : Status) : List Act :=
  [.send goodRadio (some [1]), .store status, .setDone]

def poll (error : Int) : List Act := [.take, .read, .publish error]

/-- Two transmissions before the first poll: the second was preempted. -/
def twoSends : List Act :=
  .other (.init goodRadio true) :: transmission .txDone ++ transmission .taskAborted ++
    poll (txResult .taskAborted)

/-- Of two accepted transmissions one is announced, with the error of the other. -/
theorem two_sends_one_announced : ∃ s, Lts.run step .boot twoSends = some s ∧ Quiescent s ∧
    ¬ Announced s ∧ s.accepted = 2 ∧ s.completed = [0, txResult .taskAborted] ∧
    s.published = [txResult .taskAborted] := by
  refine ⟨_, rfl, ⟨rfl, rfl, rfl, rfl, rfl⟩, fun h => ?_, rfl, rfl, rfl⟩
  have hcount := h.count
  revert hcount
  decide

def polledSends : List Act :=
  .other (.init goodRadio true) :: transmission .txDone ++ poll 0 ++ transmission .taskAborted ++
    poll (txResult .taskAborted)

theorem announced_iff_in_turn_polled : ∃ s, Lts.run step .boot polledSends = some s ∧ Announced s := by
  have hrun : ∃ s, Lts.run step .boot polledSends = some s ∧ Quiescent s :=
    ⟨_, rfl, ⟨rfl, rfl, rfl, rfl, rfl⟩⟩
  obtain ⟨s, hr, hq⟩ := hrun
  exact ⟨s, hr, (announced_iff_in_turn polledSends s hr hq).1 (by decide)⟩

end Rzi.Lora.Send
