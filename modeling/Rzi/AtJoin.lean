import Rzi.AtArguments
import Rzi.JoinStack
import Rzi.Lib.Run

/-!
# AT+JOIN (`handle_join`, `commands/lorawan/at_lorawan_join_send.c`, `at_lorawan.c`)

The argument of a write is one to four numbers with colons between them; what is left out keeps its
value. `step` is the system of the AT package, the service and a backend. `join_arguments_iff` says which
arguments are accepted, and that a write with any other does nothing.
-/

namespace Rzi.At.Join
open Lorawan (Answers BackendEvent Build Event Policy Setter joinKeep)
open Stack (Backend Env System)
open Strtol

/-! ### The argument -/

/-- `struct join_parameters`. -/
structure JoinParameters where
  start : Int
  autoJoin : Int
  interval : Int
  attempts : Int
deriving DecidableEq, Repr

/-- The loop of `parse_join_parameters` with so many `values` left: the values it stores, and the text
that is left. -/
def parseFields (w : Nat) : Nat → List UInt8 → Except Err (List Int × List UInt8)
  | 0, cursor => .ok ([], cursor)
  | slots + 1, cursor =>
    if cursor = [] then .ok ([], [])
    else
      let (value, rest) := strtol w 10 cursor
      if rest = cursor ∨ value < 0 ∨ 255 < value then .error .invalid
      else if rest = [] then .ok ([value], [])
      else if rest.head? ≠ some 0x3a ∨ rest.tail = [] then .error .invalid
      else
        match parseFields w slots rest.tail with
        | .error e => .error e
        | .ok (values, cursor) => .ok (value :: values, cursor)

def parseJoinParameters (w : Nat) (argument : List UInt8) : Except Err JoinParameters :=
  match parseFields w 4 argument with
  | .error e => .error e
  | .ok (values, cursor) =>
    if cursor ≠ [] ∨ values.length = 0 ∨ 1 < values.getD 0 0 ∨ (2 ≤ values.length ∧ 1 < values.getD 1 0) ∨
        (3 ≤ values.length ∧ (values.getD 2 0 < 7 ∨ 255 < values.getD 2 0)) then
      .error .invalid
    else .ok {
      start := values.getD 0 0
      autoJoin := values.getD 1 joinKeep
      interval := values.getD 2 joinKeep
      attempts := values.getD 3 joinKeep }

/-- The least and the greatest value of each field. -/
def fieldRanges : List (Int × Int) := [(0, 1), (0, 1), (7, 255), (0, 255)]

/-- One number for each of the first fields, in its range. -/
def InRanges (xs : List Number) : Prop :=
  List.Forall₂ (fun range x => range.1 ≤ x.toInt ∧ x.toInt ≤ range.2) (fieldRanges.take xs.length) xs

def JoinParameters.ofNumbers (xs : List Number) : JoinParameters where
  start := (xs.map (·.toInt)).getD 0 0
  autoJoin := (xs.map (·.toInt)).getD 1 joinKeep
  interval := (xs.map (·.toInt)).getD 2 joinKeep
  attempts := (xs.map (·.toInt)).getD 3 joinKeep

/-! ### The handler -/

/-- What is answered during a command. -/
structure Replies (ι : Type) where
  /-- `rzi_lorawan_get_region` -/
  region : Except Err Unit
  isJoined : ι
  join : Env ι
  /-- what `rzi_at_lorawan_join_start` and `_stop` ask after that -/
  isJoinedAgain : ι
  last : Env ι

section Handlers
variable {β ι ε : Type} (b : Backend β ι ε) (build : Build)

/-- `rzi_at_publish_event`. -/
def publishEvent (line : String) (x : System β) : System β :=
  { x with context := { x.context with published := x.context.published ++ [line] } }

/-- `rzi_at_lorawan_is_joined`. -/
def isJoined (answer : ι) (x : System β) : Bool :=
  if !x.context.serviceStarted then false
  else
    match Stack.lorawanIsJoined b answer x with
    | .ok joined => joined
    | .error _ => false

def startService (region : Except Err Unit) (e : Env ι) (x : System β) : Except Err Unit × System β :=
  match region with
  | .error err => (.error err, x)
  | .ok () =>
    let x := { x with context := { x.context with joinPending := true } }
    match Stack.lorawanInit b e x with
    | (.error err, x) => (.error err, { x with context := { x.context with joinPending := false } })
    | (.ok (), x) => (.ok (), { x with context := { x.context with serviceStarted := true } })

/-- Every part of the policy is left as it is. -/
def keepPolicy : Policy := ⟨joinKeep, joinKeep, joinKeep⟩

/-- `rzi_at_lorawan_join_start`. -/
def joinStart (r : Replies ι) (x : System β) : Except Err Unit × System β :=
  if !x.context.serviceStarted then startService b r.region r.last x
  else if isJoined b r.isJoinedAgain x then (.ok (), publishEvent "JOINED" x)
  else Stack.lorawanJoin b build 1 keepPolicy r.last x

/-- `rzi_at_lorawan_join_stop`. -/
def joinStop (leave : ι) (x : System β) : Except Err Unit × System β :=
  let x := { x with context := { x.context with joinPending := false } }
  if x.context.serviceStarted then Stack.lorawanLeave b leave x else (.ok (), x)

/-- The policy that AT+JOIN=? reads, field by field. -/
def readPolicy (a : Answers) (x : System β) : Except Err (Bool × UInt8 × UInt8) × System β :=
  let keep (c : Lorawan.CredentialStore) : System β := { x with service := { x.service with credentials := c } }
  match Lorawan.readLocked (·.autoJoin) a x.service.credentials with
  | (.error err, c) => (.error err, keep c)
  | (.ok autoJoin, c) =>
    match Lorawan.readLocked (·.joinInterval) a c with
    | (.error err, c) => (.error err, keep c)
    | (.ok interval, c) =>
      match Lorawan.readLocked (·.joinAttempts) a c with
      | (.error err, c) => (.error err, keep c)
      | (.ok attempts, c) => (.ok (autoJoin, interval, attempts), keep c)

def joinValue (autoJoin : Bool) (interval attempts : UInt8) : List UInt8 :=
  ascii "AT+JOIN=1:" ++ decimal (if autoJoin then 1 else 0) ++ [0x3a] ++ decimal interval.toNat ++ [0x3a] ++
    decimal attempts.toNat

/-- `handle_join` on a write. -/
def handleJoinWrite (p : JoinParameters) (r : Replies ι) (x : System β) : Except Err Answer × System β :=
  let policy : Policy := ⟨p.autoJoin, p.interval, p.attempts⟩
  if p.start = 0 then
    match Stack.lorawanJoin b build 0 policy r.join x with
    | (.error err, x) => (.error err, x)
    | (.ok (), x) => respondOk (joinStop b r.last.leave x)
  else if isJoined b r.isJoined x then
    match Stack.lorawanJoin b build joinKeep policy r.join x with
    | (.ok (), x) => respondOk (.ok (), publishEvent "JOINED" x)
    | (.error err, x) => (.error err, x)
  else
    match Stack.lorawanJoin b build 1 policy r.join x with
    | (.ok (), x) => (.ok .ok, x)
    | (.error err, x) =>
      if err = .notReady then respondOk (joinStart b build r x) else (.error err, x)

def handleJoin (w : Nat) (operation : Operation) (argument : List UInt8) (r : Replies ι) (x : System β) :
    Except Err Answer × System β :=
  match operation with
  | .read =>
    match readPolicy r.join.settings x with
    | (.error err, x) => (.error err, x)
    | (.ok (autoJoin, interval, attempts), x) => (.ok (.value (joinValue autoJoin interval attempts)), x)
  | .run => respondOk (joinStart b build r x)
  | _ =>
    match parseJoinParameters w argument with
    | .error err => (.error err, x)
    | .ok p => handleJoinWrite b build p r x

/-! ### The system -/

/-- `continue_pending_join`, with what `rzi_at_lorawan_apply_class` answers. -/
def continuePendingJoin (applyClass : Except Err Unit) (e : Env ι) (x : System β) : System β :=
  if x.context.joinPending then
    let x := { x with context := { x.context with joinPending := false } }
    match applyClass with
    | .error _ => publishEvent "JOIN_FAILED_RX_TIMEOUT" x
    | .ok () =>
      match Stack.lorawanJoin b build 1 keepPolicy e x with
      | (.error _, x) => publishEvent "JOIN_FAILED_RX_TIMEOUT" x
      | (.ok (), x) => x
  else x

/-- `on_event`, for the events that a join leads to. -/
def onEvent (applyClass : Except Err Unit) (e : Env ι) (event : Event) (x : System β) : System β :=
  match event with
  | .ready | .stateChanged .ready => continuePendingJoin b build applyClass e x
  | .joined => publishEvent "JOINED" x
  | .joinFailed _ => publishEvent "JOIN_FAILED_RX_TIMEOUT" x
  | _ => x

/-- The calls of the application, AT+JOIN, the dispatcher and the backend. -/
inductive Act (ι ε : Type) where
  | init (e : Env ι)
  | join (start : Int) (policy : Policy) (e : Env ι)
  | leave (leave : ι)
  | set (setter : Setter) (a : Answers)
  | clearSettings (rc : Except Err Unit)
  | atJoin (operation : Operation) (argument : List UInt8) (r : Replies ι)
  | dispatch (applyClass : Except Err Unit) (leave : ι) (e : Env ι)
  | backend (event : ε)

/-- The sink of the backend; a join result belongs to the last join that the backend was asked for. -/
def sink (events : List BackendEvent) (x : System β) : System β :=
  { x with service := events.foldl (fun s event =>
    Lorawan.publish event (if event.isJoinResult then s.joins.length else 0) s) x.service }

def step (w : Nat) (x : System β) : Act ι ε → Option (System β)
  | .init e => some (Stack.lorawanInit b e x).2
  | .join start policy e => some (Stack.lorawanJoin b build start policy e x).2
  | .leave leave => some (Stack.lorawanLeave b leave x).2
  | .set setter a => some { x with
      service := { x.service with credentials := (setter.call build a x.service.credentials).2 } }
  | .clearSettings rc => some { x with
      service := { x.service with credentials := (Lorawan.clearSettings rc x.service.credentials).2 } }
  | .atJoin operation argument r => some (handleJoin b build w operation argument r x).2
  | .dispatch applyClass leave e =>
    match x.service.events with
    | [] => none
    | q :: events => some (Stack.dispatch b (onEvent b build applyClass e) leave q.event
        { x with service := { x.service with events := events } })
  | .backend event => (b.event event x.backend).map fun (backend, events) =>
      sink events { x with backend := backend }

end Handlers

/-! ### What the loop accepts -/

variable {w : Nat} {argument cursor rest : List UInt8} {x : Number} {slots : Nat} {values : List Int}

theorem long_byte (hw : 32 ≤ w) {x : Number} (h : 0 ≤ x.toInt ∧ x.toInt ≤ 255) : x.long w = x.toInt := by
  have hpow := two_pow_le hw
  exact long_eq (by omega) (by omega)

/-- A field is read as it is written, or it is no byte. -/
theorem long_out (hw : 32 ≤ w) {x : Number} (h : ¬ (0 ≤ x.toInt ∧ x.toInt ≤ 255)) :
    x.long w < 0 ∨ 255 < x.long w := by
  have hpow := two_pow_le hw
  by_contra hin
  have heq := @long_eq_of_mem w x (by omega) (by omega)
  omega

/-- One turn of the loop, where it comes to the end of the text. -/
theorem parseFields_turn (hw : 32 ≤ w) (hscan : scan 10 cursor = some (x, rest)) :
    parseFields w (slots + 1) cursor = .ok (values, []) ↔ (0 ≤ x.toInt ∧ x.toInt ≤ 255) ∧
      (rest = [] ∧ values = [x.toInt] ∨ ∃ text more, rest = 0x3a :: text ∧ text ≠ [] ∧
        parseFields w slots text = .ok (more, []) ∧ values = x.toInt :: more) := by
  have hne : cursor ≠ [] := by
    rintro rfl
    cases hscan
  rw [parseFields, if_neg hne, strtol_some hscan]
  simp only [scan_moved hscan, false_or]
  by_cases hbyte : 0 ≤ x.toInt ∧ x.toInt ≤ 255
  · rw [long_byte hw hbyte, if_neg (by omega), and_iff_right hbyte]
    rcases rest with _ | ⟨c, text⟩
    · rw [if_pos rfl]
      constructor
      · intro h
        cases h
        exact .inl ⟨rfl, rfl⟩
      · rintro (⟨-, rfl⟩ | ⟨_, _, hcons, -⟩)
        · rfl
        · cases hcons
    · rw [if_neg (List.cons_ne_nil c text)]
      by_cases hcolon : c = 0x3a ∧ text ≠ []
      · obtain ⟨rfl, htext⟩ := hcolon
        rw [if_neg (by simp [htext])]
        constructor
        · intro h
          split at h
          · cases h
          · rename_i more rest hmore
            cases h
            exact .inr ⟨text, more, rfl, htext, hmore, rfl⟩
        · rintro (⟨hnil, -⟩ | ⟨_, more, hcons, -, hmore, rfl⟩)
          · cases hnil
          · cases hcons
            rw [List.tail_cons, hmore]
      · rw [if_pos (by simpa [or_iff_not_imp_left] using hcolon)]
        constructor
        · intro h
          cases h
        · rintro (⟨hnil, -⟩ | ⟨_, _, hcons, htext, -⟩)
          · cases hnil
          · cases hcons
            exact absurd ⟨rfl, htext⟩ hcolon
  · rw [if_pos (long_out hw hbyte)]
    constructor
    · intro h
      cases h
    · exact fun h => absurd h.1 hbyte

theorem parseFields_none (hne : cursor ≠ []) (hscan : scan 10 cursor = none) :
    parseFields w (slots + 1) cursor = .error .invalid := by
  rw [parseFields, if_neg hne, strtol_none hscan]
  exact if_pos (.inl rfl)

theorem parseFields_error {e : Err} (h : parseFields w slots cursor = .error e) : e = .invalid := by
  induction slots generalizing cursor with
  | zero => cases h
  | succ slots ih =>
    rw [parseFields] at h
    split at h
    · cases h
    · dsimp only at h
      split at h
      · cases h
        rfl
      · split at h
        · cases h
        · split at h
          · cases h
            rfl
          · split at h
            · rename_i hmore
              cases h
              exact ih hmore
            · cases h

theorem not_numerals_nil {xs : List Number} : ¬ Numerals 0x3a [] xs :=
  not_numerals_of_scan separates_colon.1 rfl

/-- The loop comes to the end of a text exactly where it is so many numbers, each a byte. -/
theorem parseFields_iff (hw : 32 ≤ w) (hne : cursor ≠ []) :
    parseFields w slots cursor = .ok (values, []) ↔ ∃ xs, Numerals 0x3a cursor xs ∧ xs.length ≤ slots ∧
      (∀ x ∈ xs, 0 ≤ x.toInt ∧ x.toInt ≤ 255) ∧ values = xs.map (·.toInt) := by
  induction slots generalizing cursor values with
  | zero =>
    constructor
    · intro h
      cases h
      exact absurd rfl hne
    · rintro ⟨xs, hxs, hlen, -⟩
      exact absurd (List.length_eq_zero_iff.1 (Nat.le_zero.1 hlen)) hxs.ne_nil
  | succ slots ih =>
    rcases hscan : scan 10 cursor with _ | ⟨x, rest⟩
    · rw [parseFields_none hne hscan]
      constructor
      · intro h
        cases h
      · rintro ⟨xs, hxs, -⟩
        exact absurd hxs (not_numerals_of_scan separates_colon.1 hscan)
    have hturn := @numerals_iff_of_scan rest cursor x
    rw [parseFields_turn hw hscan]
    constructor
    · rintro ⟨hbyte, ⟨rfl, rfl⟩ | ⟨text, more, rfl, htext, hmore, rfl⟩⟩
      · refine ⟨[x], (hturn separates_colon.1 hscan).2 ⟨[], rfl, .inl ⟨rfl, rfl⟩⟩, ?_, ?_, rfl⟩
        · exact Nat.succ_le_succ (Nat.zero_le slots)
        · exact fun y hy => List.mem_singleton.1 hy ▸ hbyte
      · obtain ⟨ys, hys, hlen, hbytes, rfl⟩ := (ih htext).1 hmore
        refine ⟨x :: ys, (hturn separates_colon.1 hscan).2 ⟨ys, rfl, .inr ⟨text, rfl, hys⟩⟩, ?_, ?_, rfl⟩
        · exact Nat.succ_le_succ hlen
        · exact List.forall_mem_cons.2 ⟨hbyte, hbytes⟩
    · rintro ⟨xs, hxs, hlen, hbytes, rfl⟩
      obtain ⟨ys, rfl, hrest⟩ := (hturn separates_colon.1 hscan).1 hxs
      obtain ⟨hbyte, hbytes⟩ := List.forall_mem_cons.1 hbytes
      refine ⟨hbyte, ?_⟩
      rcases hrest with ⟨rfl, rfl⟩ | ⟨text, rfl, hys⟩
      · exact .inl ⟨rfl, rfl⟩
      · have htext : text ≠ [] := by
          rintro rfl
          exact not_numerals_nil hys
        exact .inr ⟨text, _, rfl, htext,
          (ih htext).2 ⟨ys, hys, Nat.le_of_succ_le_succ hlen, hbytes, rfl⟩, rfl⟩

/-! ### What the command accepts -/

variable {p : JoinParameters} {xs : List Number}

/-- The checks behind the loop, on bytes. -/
theorem inRanges_iff (hlen : xs.length ≤ 4) (hne : xs ≠ []) : InRanges xs ↔
    (∀ x ∈ xs, 0 ≤ x.toInt ∧ x.toInt ≤ 255) ∧
      ¬ (1 < (xs.map (·.toInt)).getD 0 0 ∨ (2 ≤ xs.length ∧ 1 < (xs.map (·.toInt)).getD 1 0) ∨
        (3 ≤ xs.length ∧ ((xs.map (·.toInt)).getD 2 0 < 7 ∨ 255 < (xs.map (·.toInt)).getD 2 0))) := by
  unfold InRanges
  match xs, hne with
  | [start], _ =>
    simp [fieldRanges]
    omega
  | [start, autoJoin], _ =>
    simp [fieldRanges]
    omega
  | [start, autoJoin, interval], _ =>
    simp [fieldRanges]
    omega
  | [start, autoJoin, interval, attempts], _ =>
    simp [fieldRanges]
    omega
  | _ :: _ :: _ :: _ :: _ :: _, _ =>
    simp only [List.length_cons] at hlen
    omega

theorem InRanges.length_le (h : InRanges xs) : xs.length ≤ 4 := by
  have hlen := h.length_eq
  rw [List.length_take] at hlen
  have hfour : fieldRanges.length = 4 := rfl
  omega

theorem parseJoinParameters_ok : parseJoinParameters w argument = .ok p ↔ ∃ values,
    parseFields w 4 argument = .ok (values, []) ∧ values ≠ [] ∧
      ¬ (1 < values.getD 0 0 ∨ (2 ≤ values.length ∧ 1 < values.getD 1 0) ∨
        (3 ≤ values.length ∧ (values.getD 2 0 < 7 ∨ 255 < values.getD 2 0))) ∧
      p = ⟨values.getD 0 0, values.getD 1 joinKeep, values.getD 2 joinKeep, values.getD 3 joinKeep⟩ := by
  unfold parseJoinParameters
  rcases parseFields w 4 argument with e | ⟨values, cursor⟩
  · constructor
    · intro h
      cases h
    · rintro ⟨values, h, -⟩
      cases h
  · dsimp only
    split
    · rename_i hbad
      constructor
      · intro h
        cases h
      · rintro ⟨values', h, hne, hgood, -⟩
        cases h
        rcases hbad with hbad | hbad | hbad
        · exact absurd rfl hbad
        · exact absurd (List.length_eq_zero_iff.1 hbad) hne
        · exact absurd hbad hgood
    · rename_i hgood
      simp only [not_or, ne_eq, not_not] at hgood
      obtain ⟨rfl, hne, hgood⟩ := hgood
      constructor
      · intro h
        cases h
        exact ⟨values, rfl, fun h => hne (by rw [h]; rfl), by simpa only [not_or] using hgood, rfl⟩
      · rintro ⟨values', h, -, -, rfl⟩
        cases h
        rfl

theorem parseJoinParameters_error {e : Err} (h : parseJoinParameters w argument = .error e) :
    e = .invalid := by
  unfold parseJoinParameters at h
  split at h
  · rename_i hfields
    cases h
    exact parseFields_error hfields
  · split at h
    · cases h
      rfl
    · cases h

/-- The accepted arguments, and what they mean. -/
theorem parse_iff (hw : 32 ≤ w) : parseJoinParameters w argument = .ok p ↔
    ∃ xs, Numerals 0x3a argument xs ∧ InRanges xs ∧ p = .ofNumbers xs := by
  rw [parseJoinParameters_ok]
  by_cases hnil : argument = []
  · subst hnil
    constructor
    · rintro ⟨values, h, hne, -⟩
      cases h
      exact absurd rfl hne
    · rintro ⟨xs, hxs, -⟩
      exact absurd hxs not_numerals_nil
  · simp only [parseFields_iff hw hnil]
    constructor
    · rintro ⟨_, ⟨xs, hxs, hlen, hbytes, rfl⟩, -, hgood, rfl⟩
      rw [List.length_map] at hgood
      exact ⟨xs, hxs, (inRanges_iff hlen hxs.ne_nil).2 ⟨hbytes, hgood⟩, rfl⟩
    · rintro ⟨xs, hxs, hranges, rfl⟩
      have hlen := hranges.length_le
      obtain ⟨hbytes, hgood⟩ := (inRanges_iff hlen hxs.ne_nil).1 hranges
      refine ⟨_, ⟨xs, hxs, hlen, hbytes, rfl⟩, ?_, ?_, rfl⟩
      · exact fun h => hxs.ne_nil (List.map_eq_nil_iff.1 h)
      · rwa [List.length_map]

/-- A write of AT+JOIN is accepted exactly where its argument is one to four numbers in their ranges with
colons between them, and what is left out is kept. A write with another argument is answered with an
error, and changes nothing. -/
theorem join_arguments_iff (hw : 32 ≤ w) (argument : List UInt8) :
    (∀ p, parseJoinParameters w argument = .ok p ↔
      ∃ xs, Numerals 0x3a argument xs ∧ InRanges xs ∧ p = .ofNumbers xs) ∧
    ∀ {β ι ε : Type} (b : Backend β ι ε) (build : Build) (r : Replies ι) (x : System β),
      (∀ p, parseJoinParameters w argument ≠ .ok p) →
        handleJoin b build w .write argument r x = (.error .invalid, x) := by
  refine ⟨fun p => parse_iff hw, fun b build r x hrejected => ?_⟩
  unfold handleJoin
  dsimp only
  rcases hparse : parseJoinParameters w argument with e | p
  · rw [parseJoinParameters_error hparse]
  · exact absurd hparse (hrejected p)

theorem join_arguments_iff_omitted :
    (∀ p, parseJoinParameters 32 (ascii "1:0") = .ok p ↔
      ∃ xs, Numerals 0x3a (ascii "1:0") xs ∧ InRanges xs ∧ p = .ofNumbers xs) ∧
    ∀ {β ι ε : Type} (b : Backend β ι ε) (build : Build) (r : Replies ι) (x : System β),
      (∀ p, parseJoinParameters 32 (ascii "1:0") ≠ .ok p) →
        handleJoin b build 32 .write (ascii "1:0") r x = (.error .invalid, x) :=
  join_arguments_iff (by decide) (ascii "1:0")

/-- A fifth field, and a colon at the end. -/
example : parseJoinParameters 32 (ascii "1:0:8:0:1") = .error .invalid ∧
    parseJoinParameters 32 (ascii "1:0:") = .error .invalid ∧
    parseJoinParameters 32 (ascii "1: +1") = .ok ⟨1, 1, joinKeep, joinKeep⟩ := by decide

end Rzi.At.Join
