import Rzi.UspBackend
import Rzi.Lib.Run

/-!
# Uplink completion of the USP backend

`tx_pending` marks the one uplink the modem still owes a TXDONE for. The RESET handler drops the flag
and publishes no completion, and the modem will not report the lost uplink either. So
`uplinks_completed_iff`: along a run every accepted uplink is completed exactly once before the next
is accepted, exactly if no RESET is handled while an uplink is outstanding.
-/

namespace Rzi.Usp.Uplink
open Lts
open Lorawan (BackendEvent)

/-- What a caller sees of its uplinks: the request was accepted, or TX_DONE was published. -/
inductive Mark where
  | accepted | completed
deriving DecidableEq, Repr

/-- The backend, the completions the modem still owes, and the marks so far. -/
structure Traced where
  backend : State
  owed : Nat
  log : List Mark

def Traced.init : Traced := ⟨State.init, 0, []⟩

inductive Act where
  | call (c : Call) (modem : Modem)
  | event (source : Except Err (ModemEvent × Nat)) (modem : Modem)

def Act.isReset : Act → Bool
  | .event (.ok (.reset, _)) _ => true
  | _ => false

def completions (events : List BackendEvent) : List Mark :=
  (events.filter isTxDone).map fun _ => .completed

/-- The completions owed after an event: a TXDONE is one of them, a RESET loses them all. -/
def owedAfter (owed : Nat) : Except Err (ModemEvent × Nat) → Nat
  | .ok (.reset, _) => 0
  | .ok (.txDone _, _) => owed - 1
  | _ => owed

/-- Whether the modem can emit the event: a TXDONE is for an accepted request. -/
def canEmit (owed : Nat) : Except Err (ModemEvent × Nat) → Bool
  | .ok (.txDone _, _) => 0 < owed
  | _ => true

def step (s : Traced) : Act → Option Traced
  | .call c modem =>
    let out := c.run modem s.backend
    let accepted := c.isUplink && out.rc.isOk
    some ⟨out.state, if accepted then s.owed + 1 else s.owed,
      s.log ++ completions out.published ++ if accepted then [.accepted] else []⟩
  | .event source modem =>
    if s.backend.eventSink && canEmit s.owed source then
      let handled := handleEvent modem source s.backend
      some ⟨handled.1, owedAfter s.owed source, s.log ++ completions handled.2⟩
    else none

/-- Every accepted request is followed by one completion before the next; only the last one may be
without it, as long as the modem owes it. -/
def Completed (owed : Nat) : List Mark → Prop
  | [] => True
  | [.accepted] => 0 < owed
  | .accepted :: .completed :: log => Completed owed log
  | _ => False

/-- The accepted requests without a completion. -/
def outstanding (log : List Mark) : Nat := log.count .accepted - log.count .completed

/-- At most one request is outstanding, and each has its one completion. -/
structure EachCompleted (s : Traced) : Prop where
  one : outstanding s.log ≤ 1
  completed : Completed s.owed s.log

/-! ### Logs -/

/-- A log in which nothing is outstanding. -/
inductive Closed : List Mark → Prop
  | nil : Closed []
  | uplink {log : List Mark} (h : Closed log) : Closed (log ++ [.accepted, .completed])

theorem completed_append {owed : Nat} {log : List Mark} (h : Closed log) (rest : List Mark) :
    Completed owed (log ++ rest) ↔ Completed owed rest := by
  induction h generalizing rest with
  | nil => exact Iff.rfl
  | uplink h ih =>
    rw [List.append_assoc, ih]
    exact Iff.rfl

theorem Closed.count_eq {log : List Mark} (h : Closed log) :
    log.count .accepted = log.count .completed := by
  induction h with
  | nil => rfl
  | uplink h ih => simp [List.count_append, ih]

theorem Closed.completed {log : List Mark} (h : Closed log) (owed : Nat) : Completed owed log := by
  have happ := (completed_append h []).2 (show Completed owed [] from trivial)
  rwa [List.append_nil] at happ

theorem completed_open {owed : Nat} {log : List Mark} (h : Closed log) :
    Completed owed (log ++ [.accepted]) ↔ 0 < owed := completed_append h [.accepted]

/-- The flag, the debt of the modem and the log say the same. -/
inductive Settled (s : Traced) : Prop
  | closed (hpending : s.backend.txPending = false) (howed : s.owed = 0) (hlog : Closed s.log)
  | opened (log : List Mark) (hpending : s.backend.txPending = true) (howed : s.owed = 1)
      (hlog : s.log = log ++ [.accepted]) (hclosed : Closed log)

variable {s t : Traced}

theorem Settled.eachCompleted (h : Settled s) : EachCompleted s := by
  cases h with
  | closed _ _ hlog =>
    refine ⟨?_, hlog.completed _⟩
    rw [outstanding, hlog.count_eq, Nat.sub_self]
    exact Nat.zero_le 1
  | opened log _ howed hlog hclosed =>
    have hcompleted : Completed s.owed s.log := by
      rw [hlog, completed_open hclosed, howed]
      exact Nat.one_pos
    refine ⟨?_, hcompleted⟩
    rw [hlog, outstanding]
    simp [List.count_append, hclosed.count_eq]

theorem completions_plain {events : List BackendEvent} (h : Plain events) : completions events = [] := by
  unfold completions
  rw [List.map_eq_nil_iff, List.filter_eq_nil_iff]
  intro e he
  simp [(h e he).1]

theorem completions_publishClassB (state : Lorawan.ClassBState) (s : State) :
    completions (publishClassB state s) = [] := by
  unfold publishClassB
  split
  · rfl
  · rfl

/-- The state a step reaches that leaves the uplink alone. -/
theorem Settled.same {b : State} (h : Settled s) (hb : b.txPending = s.backend.txPending) :
    Settled ⟨b, s.owed, s.log⟩ := by
  cases h with
  | closed hpending howed hlog => exact .closed (hb.trans hpending) howed hlog
  | opened log hpending howed hlog hclosed =>
    exact .opened log (hb.trans hpending) howed hlog hclosed

theorem Settled.call (h : Settled s) (c : Call) (modem : Modem)
    (ht : step s (.call c modem) = some t) : Settled t := by
  have heffect := c.run_effect modem s.backend
  simp only [step, Option.some.injEq] at ht
  subst ht
  generalize c.run modem s.backend = out at heffect ⊢
  cases heffect with
  | same rc b hb hrc =>
    have hrefused : (c.isUplink && rc.isOk) = false := by
      cases hc : c.isUplink with
      | false => rfl
      | true =>
        cases rc with
        | ok u => exact absurd rfl (hrc hc)
        | error e => rfl
    simp only [finish, hrefused, completions, List.filter_nil, List.map_nil, List.append_nil,
      Bool.false_eq_true, if_false]
    exact h.same hb.txPending
  | accepted hc hready hpending =>
    cases h with
    | opened log hopen _ _ _ =>
      rw [hpending] at hopen
      cases hopen
    | closed _ howed hlog =>
      refine .opened s.log rfl ?_ ?_ hlog
      · simp [finish, hc, howed, Except.isOk, Except.toBool]
      · simp [finish, hc, completions, Except.isOk, Except.toBool]
  | classB state hc hready =>
    simp only [hc, completions_publishClassB, Bool.false_and, List.append_nil, Bool.false_eq_true,
      if_false]
    exact h.same rfl

theorem completions_missed (missed : Nat) (events : List BackendEvent) :
    completions ((if 0 < missed then [.error (some .overflow)] else []) ++ events) =
      completions events := by
  split
  · rfl
  · rfl

theorem completions_txDone (status : Option Zephyr.MessageType) :
    completions [txDoneEvent status] = [.completed] := by
  cases status with
  | none => rfl
  | some type => cases type <;> rfl

/-- What a step of the modem does to the log and to its debt. -/
theorem step_event {source : Except Err (ModemEvent × Nat)} {modem : Modem}
    (ht : step s (.event source modem) = some t) : canEmit s.owed source = true ∧
      t = ⟨(handleEvent modem source s.backend).1, owedAfter s.owed source,
        s.log ++ completions (handleEvent modem source s.backend).2⟩ := by
  simp only [step] at ht
  split at ht
  · rename_i hguard
    simp only [Bool.and_eq_true] at hguard
    cases ht
    exact ⟨hguard.2, rfl⟩
  · cases ht

theorem handleReset_txPending (modem : Modem) (b : State) :
    (handleReset modem b).1.txPending = false ∧ completions (handleReset modem b).2 = [] := by
  rcases handleReset_cases modem b with ⟨e, h⟩ | h
  · rw [h]
    exact ⟨rfl, rfl⟩
  · rw [h]
    exact ⟨rfl, rfl⟩

theorem owedAfter_of_ne {owed : Nat} {event : ModemEvent} (missed : Nat) (hreset : event ≠ .reset)
    (htx : ∀ status, event ≠ .txDone status) : owedAfter owed (.ok (event, missed)) = owed := by
  cases event with
  | reset => exact absurd rfl hreset
  | txDone status => exact absurd rfl (htx status)
  | _ => rfl

theorem Settled.event (h : Settled s) {source : Except Err (ModemEvent × Nat)} {modem : Modem}
    (hreset : (Act.event source modem).isReset = true → s.backend.txPending = false)
    (ht : step s (.event source modem) = some t) : Settled t := by
  obtain ⟨hemit, rfl⟩ := step_event ht
  cases source with
  | error e =>
    simp only [handleEvent, owedAfter]
    rw [completions_plain (plain_singleton rfl rfl), List.append_nil]
    exact h.same rfl
  | ok source =>
    obtain ⟨event, missed⟩ := source
    have heffect := handleEventType_effect modem event s.backend
    simp only [handleEvent, completions_missed]
    generalize handleEventType modem event s.backend = out at heffect ⊢
    cases heffect with
    | reset =>
      obtain ⟨hpending, hlog⟩ := handleReset_txPending modem s.backend
      cases h with
      | opened log hopen _ _ _ =>
        rw [hreset rfl] at hopen
        cases hopen
      | closed _ _ hclosed =>
        refine .closed hpending rfl ?_
        rw [hlog, List.append_nil]
        exact hclosed
    | txDone status =>
      cases h with
      | closed _ howed _ =>
        -- the modem owes nothing that it could report
        rw [canEmit, howed] at hemit
        cases hemit
      | opened log _ howed hlog hclosed =>
        refine .closed rfl ?_ ?_
        · simp [owedAfter, howed]
        · simp only [completions_txDone, hlog, List.append_assoc]
          exact .uplink hclosed
    | classB event state hreset htx =>
      rw [owedAfter_of_ne missed hreset htx, completions_publishClassB, List.append_nil]
      exact h.same rfl
    | same event b events hb hevents hreset htx =>
      rw [owedAfter_of_ne missed hreset htx, completions_plain hevents, List.append_nil]
      exact h.same hb.txPending

/-- No RESET is handled while an uplink is outstanding. -/
def ResetWhenIdle (s : Traced) (a : Act) : Prop := a.isReset = true → s.backend.txPending = false

theorem Settled.step {a : Act} (h : Settled s) (ha : ResetWhenIdle s a) (ht : step s a = some t) :
    Settled t := by
  cases a with
  | call c modem => exact h.call c modem ht
  | event source modem => exact h.event ha ht

/-- A RESET with an uplink outstanding leaves it without its completion. -/
theorem Settled.lost {a : Act} (h : Settled s) (ha : ¬ ResetWhenIdle s a) (ht : Uplink.step s a = some t) :
    ¬ EachCompleted t := by
  unfold ResetWhenIdle at ha
  rw [Classical.not_imp] at ha
  obtain ⟨hreset, hpending⟩ := ha
  cases a with
  | call c modem => cases hreset
  | event source modem =>
    obtain ⟨-, rfl⟩ := step_event ht
    cases h with
    | closed hidle _ _ => exact absurd hidle hpending
    | opened log _ _ hlog hclosed =>
      rintro ⟨-, hcompleted⟩
      match source, hreset with
      | .ok (.reset, missed), _ =>
        simp only [handleEvent, handleEventType, completions_missed, owedAfter,
          (handleReset_txPending modem s.backend).2, List.append_nil, hlog,
          completed_open hclosed] at hcompleted
        exact absurd hcompleted (Nat.lt_irrefl 0)

theorem settled_init : Settled Traced.init := .closed rfl rfl .nil

/-- **Uplink completion.** In every run, at most one accepted uplink is outstanding and each is
completed exactly once before the next is accepted, exactly if no RESET is handled while `tx_pending`
is set. -/
theorem uplinks_completed_iff (as : List Act) (hr : run step Traced.init as = some t) :
    Always step EachCompleted Traced.init as ↔ Meets step ResetWhenIdle Traced.init as :=
  always_iff_meets (fun _ h => h.eachCompleted) (fun _ _ _ h ha ht => h.step ha ht)
    (fun _ _ _ h ha ht => h.lost ha ht) settled_init hr

def joinConfig : Zephyr.JoinConfig :=
  ⟨.otaa ⟨.replicate 8 1, .replicate 8 2, .replicate 16 3, .replicate 16 3, 0⟩, 0, none⟩

/-- A modem that starts, joins and takes an uplink. -/
def joinAndSend : List Act :=
  [.call (.start .eu868 false) agreeable, .event (.ok (.reset, 0)) agreeable,
    .call (.join joinConfig) agreeable, .event (.ok (.joined, 0)) agreeable,
    .call (.send 2 [0x48] .confirmed) agreeable]

theorem uplinks_completed_once :
    Always step EachCompleted Traced.init (joinAndSend ++
      [.event (.ok (.txDone (some .confirmed), 0)) agreeable, .event (.ok (.reset, 0)) agreeable,
        .call (.sendEmpty false 0 .unconfirmed) agreeable]) := by
  refine (uplinks_completed_iff _ (t := (run step Traced.init (joinAndSend ++
      [.event (.ok (.txDone (some .confirmed), 0)) agreeable, .event (.ok (.reset, 0)) agreeable,
        .call (.sendEmpty false 0 .unconfirmed) agreeable])).getD Traced.init) rfl).2 ?_
  unfold ResetWhenIdle
  decide

/-- The modem resets with the uplink outstanding, and the next request is accepted: two requests and
no completion. -/
theorem uplink_lost_by_reset : ¬ ∀ as t, run step Traced.init as = some t →
    Always step EachCompleted Traced.init as := by
  intro h
  have hlog : ((run step Traced.init (joinAndSend ++
      [.event (.ok (.reset, 0)) agreeable, .call (.join joinConfig) agreeable,
        .event (.ok (.joined, 0)) agreeable,
        .call (.send 2 [0x48] .confirmed) agreeable])).map Traced.log) =
      some [.accepted, .accepted] := by decide
  obtain ⟨t, ht, hlog⟩ := Option.map_eq_some_iff.1 hlog
  have hcompleted := (h _ t ht _ t (List.prefix_refl _) ht).completed
  rw [hlog] at hcompleted
  exact hcompleted

end Rzi.Usp.Uplink
