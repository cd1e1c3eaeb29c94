import Rzi.AtReceive

/-!
# The line editor against its specification

`reference` says what a byte stream should give, in terms of the stream alone: an LF right after a CR
is dropped, the rest is cut at the line ends, and each finished piece is answered by what is kept of
it. `Buffer` is the editor with its array, where a write outside the array has no result.
`editor_refines` says that the editor never writes outside, that it gives what the reference gives,
and that the receive path gives the same however the stream reaches it.
-/

namespace Rzi.At
open Lts

/-- What `rzi_at_parser_feed` makes of a finished line. -/
inductive Reply where
  | overflow
  | line (text : List UInt8)
deriving DecidableEq, Repr

def replies (actions : List (Action UInt8)) : List Reply :=
  actions.filterMap fun
    | .overflowStatus => some .overflow
    | .execute text => some (.line text)
    | _ => none

/-! ### The reference -/

namespace Reference
variable (lineMax : Nat)

def isErase (b : UInt8) : Bool := b == 0x08 || b == 0x7f

def isPrintable (b : UInt8) : Bool := 0x20 ≤ b && b ≤ 0x7e

/-- What is kept of a line after one more byte. -/
def keep (kept : List UInt8) (b : UInt8) : List UInt8 :=
  if isErase b then kept.dropLast
  else if isPrintable b && kept.length < lineMax - 1 then kept ++ [b]
  else kept

/-- What is kept of the bytes of a line. -/
def kept (bytes : List UInt8) : List UInt8 := bytes.foldl (keep lineMax) []

/-- Some byte was offered to a full line. -/
def overflows (bytes : List UInt8) : Bool :=
  (List.range bytes.length).any fun i =>
    isPrintable (bytes.getD i 0) && lineMax - 1 ≤ (kept lineMax (bytes.take i)).length

/-- The answer to a finished line. -/
def answer (bytes : List UInt8) : List Reply :=
  if overflows lineMax bytes then [.overflow]
  else if kept lineMax bytes = [] then []
  else [.line (kept lineMax bytes)]

/-- The stream without the LFs that follow a CR at once. -/
def dropLf : Bool → List UInt8 → List UInt8
  | _, [] => []
  | afterCr, b :: bs =>
    if b = 0x0a ∧ afterCr = true then dropLf false bs else b :: dropLf (b == 0x0d) bs

/-- The pieces of the stream between its line ends; the last one is not finished. -/
def pieces (stream : List UInt8) : List (List UInt8) := (dropLf false stream).splitOnP isTerminator

end Reference

open Reference

/-- What a stream gives. -/
def reference (lineMax : Nat) (stream : List UInt8) : List Reply :=
  (pieces stream).dropLast.flatMap (answer lineMax)

/-! ### The editor after a piece of a line -/

variable {lineMax : Nat} {bytes stream : List UInt8} {b : UInt8} {afterCr : Bool}

/-- The editor in the middle of a line, from the bytes of the line alone. -/
def within (lineMax : Nat) (bytes : List UInt8) (afterCr : Bool) : Parser UInt8 :=
  ⟨kept lineMax bytes, overflows lineMax bytes, afterCr⟩

theorem within_nil : within lineMax [] false = Parser.reset := rfl

theorem kept_append : kept lineMax (bytes ++ [b]) = keep lineMax (kept lineMax bytes) b := by
  simp [kept]

theorem overflows_append : overflows lineMax (bytes ++ [b]) =
    (overflows lineMax bytes || (isPrintable b && decide (lineMax - 1 ≤ (kept lineMax bytes).length))) := by
  have hold : ∀ i ∈ List.range bytes.length,
      (isPrintable ((bytes ++ [b]).getD i 0) &&
        decide (lineMax - 1 ≤ (kept lineMax ((bytes ++ [b]).take i)).length)) =
      (isPrintable (bytes.getD i 0) &&
        decide (lineMax - 1 ≤ (kept lineMax (bytes.take i)).length)) := by
    intro i hi
    have hlt : i < bytes.length := List.mem_range.1 hi
    rw [List.take_append_of_le_length (Nat.le_of_lt hlt)]
    simp [List.getElem?_append_left hlt]
  unfold overflows
  rw [List.length_append, List.length_singleton, List.range_succ, List.any_append]
  congr 1
  · rw [Bool.eq_iff_iff, List.any_eq_true, List.any_eq_true]
    exact exists_congr fun i => and_congr_right fun hi => by rw [hold i hi]
  · simp

theorem within_append : within lineMax (bytes ++ [b]) afterCr =
    ⟨keep lineMax (kept lineMax bytes) b,
      overflows lineMax bytes || (isPrintable b && decide (lineMax - 1 ≤ (kept lineMax bytes).length)),
      afterCr⟩ := by
  rw [within, kept_append, overflows_append]

theorem feed_id : feed id lineMax (within lineMax bytes afterCr) b =
    if b = 0x0a ∧ afterCr = true then (within lineMax bytes false, [])
    else if b = 0x08 ∨ b = 0x7f then
      if (kept lineMax bytes).length ≠ 0 then
        (⟨(kept lineMax bytes).dropLast, overflows lineMax bytes, false⟩, [.echoErase])
      else (⟨kept lineMax bytes, overflows lineMax bytes, false⟩, [])
    else if isTerminator b then
      if overflows lineMax bytes then
        (within lineMax [] (b == 0x0d), (if b = 0x0d then [.echoNewline] else []) ++ [.overflowStatus])
      else if (kept lineMax bytes).length ≠ 0 then
        (within lineMax [] (b == 0x0d),
          (if b = 0x0d then [.echoNewline] else []) ++ [.execute (kept lineMax bytes)])
      else (within lineMax [] (b == 0x0d), if b = 0x0d then [.echoNewline] else [])
    else if b < 0x20 ∨ 0x7e < b then (⟨kept lineMax bytes, overflows lineMax bytes, false⟩, [])
    else if lineMax - 1 ≤ (kept lineMax bytes).length then (⟨kept lineMax bytes, true, false⟩, [])
    else (⟨kept lineMax bytes ++ [b], overflows lineMax bytes, false⟩, [.echo b]) := rfl

theorem isPrintable_eq_false : isPrintable b = false ↔ b < 0x20 ∨ 0x7e < b := by
  simp only [isPrintable, Bool.and_eq_false_iff, decide_eq_false_iff_not, UInt8.not_le]

theorem isErase_iff : isErase b = true ↔ b = 0x08 ∨ b = 0x7f := by
  simp [isErase]

/-- A byte that does not end the line takes the editor from the bytes before it to those with it. -/
theorem feed_within (lineMax : Nat) (bytes : List UInt8) (afterCr : Bool)
    (hb : isTerminator b = false) :
    (feed id lineMax (within lineMax bytes afterCr) b).1 = within lineMax (bytes ++ [b]) false ∧
      replies (feed id lineMax (within lineMax bytes afterCr) b).2 = [] := by
  have hlf : ¬ (b = 0x0a ∧ afterCr = true) := by
    rintro ⟨rfl, -⟩
    cases hb
  rw [within_append, keep, feed_id, if_neg hlf]
  by_cases hbs : b = 0x08 ∨ b = 0x7f
  · have hprint : isPrintable b = false := by
      rcases hbs with rfl | rfl
      · rfl
      · rfl
    rw [if_pos hbs, if_pos (isErase_iff.2 hbs), hprint, Bool.false_and, Bool.or_false]
    by_cases hlen : (kept lineMax bytes).length ≠ 0
    · rw [if_pos hlen]
      exact ⟨rfl, rfl⟩
    · have hnil : kept lineMax bytes = [] := List.length_eq_zero_iff.1 (not_not.1 hlen)
      rw [if_neg hlen, hnil]
      exact ⟨rfl, rfl⟩
  · rw [if_neg hbs, if_neg (by rw [hb]; simp), if_neg fun h => hbs (isErase_iff.1 h)]
    by_cases hctl : b < 0x20 ∨ 0x7e < b
    · rw [if_pos hctl, isPrintable_eq_false.2 hctl]
      simp [replies]
    · have hprint : isPrintable b = true := by
        rw [← Bool.not_eq_false, isPrintable_eq_false]
        exact hctl
      rw [if_neg hctl, hprint]
      by_cases hfull : lineMax - 1 ≤ (kept lineMax bytes).length
      · rw [if_pos hfull]
        simp [hfull, Nat.not_lt.2 hfull, replies]
      · rw [if_neg hfull]
        simp [hfull, Nat.lt_of_not_le hfull, replies]

/-- A line end answers the line and starts the next one. -/
theorem feed_terminator (lineMax : Nat) (bytes : List UInt8) (hb : isTerminator b = true)
    (hlf : ¬ (b = 0x0a ∧ afterCr = true)) :
    (feed id lineMax (within lineMax bytes afterCr) b).1 = within lineMax [] (b == 0x0d) ∧
      replies (feed id lineMax (within lineMax bytes afterCr) b).2 = answer lineMax bytes := by
  have hbs : ¬ (b = 0x08 ∨ b = 0x7f) := by
    rintro (rfl | rfl) <;> cases hb
  have hnewline : replies (if b = 0x0d then [Action.echoNewline] else []) = [] := by
    split <;> rfl
  have happend : ∀ as : List (Action UInt8),
      replies ((if b = 0x0d then [Action.echoNewline] else []) ++ as) = replies as := by
    intro as
    rw [replies, List.filterMap_append]
    exact congrArg (· ++ replies as) hnewline
  rw [feed_id, if_neg hlf, if_neg hbs, if_pos hb, answer]
  by_cases ho : overflows lineMax bytes = true
  · rw [if_pos ho, if_pos ho]
    exact ⟨rfl, happend _⟩
  rw [if_neg ho, if_neg ho]
  by_cases hlen : (kept lineMax bytes).length ≠ 0
  · rw [if_pos hlen, if_neg fun h => hlen (List.length_eq_zero_iff.2 h)]
    exact ⟨rfl, happend _⟩
  · rw [if_neg hlen, if_pos (List.length_eq_zero_iff.1 (not_not.1 hlen))]
    exact ⟨rfl, hnewline⟩

/-! ### Streams -/

/-- The editor after a stream, and what it answered. -/
def feedStream (lineMax : Nat) : Parser UInt8 → List UInt8 → Parser UInt8 × List Reply
  | p, [] => (p, [])
  | p, b :: bs =>
    ((feedStream lineMax (feed id lineMax p b).1 bs).1,
      replies (feed id lineMax p b).2 ++ (feedStream lineMax (feed id lineMax p b).1 bs).2)

theorem feedStream_append (p : Parser UInt8) (as bs : List UInt8) :
    feedStream lineMax p (as ++ bs) =
      ((feedStream lineMax (feedStream lineMax p as).1 bs).1,
        (feedStream lineMax p as).2 ++ (feedStream lineMax (feedStream lineMax p as).1 bs).2) := by
  induction as generalizing p with
  | nil => rfl
  | cons a as ih => simp [feedStream, ih]

/-- From the middle of a line, the first piece of the stream goes to that line. -/
theorem feedStream_within (bytes stream : List UInt8) (afterCr : Bool) :
    (feedStream lineMax (within lineMax bytes afterCr) stream).2 =
      (((dropLf afterCr stream).splitOnP isTerminator).modifyHead (bytes ++ ·)).dropLast.flatMap
        (answer lineMax) := by
  induction stream generalizing bytes afterCr with
  | nil => simp [feedStream, dropLf]
  | cons b bs ih =>
    rw [feedStream, dropLf]
    by_cases hlf : b = 0x0a ∧ afterCr = true
    · -- the LF of a CR LF: the editor only forgets the CR
      have hfeed : feed id lineMax (within lineMax bytes afterCr) b =
          (within lineMax bytes false, []) := by
        rw [feed_id, if_pos hlf]
      rw [hfeed, if_pos hlf]
      exact ih bytes false
    rw [if_neg hlf, List.splitOnP_cons_eq_if_modifyHead]
    obtain ⟨piece, more, hpieces⟩ := List.exists_cons_of_ne_nil
      (List.splitOnP_ne_nil isTerminator (dropLf (b == 0x0d) bs))
    cases hb : isTerminator b with
    | true =>
      obtain ⟨hstate, hanswer⟩ := feed_terminator lineMax bytes hb hlf
      have hih := ih [] (b == 0x0d)
      rw [hpieces] at hih ⊢
      rw [hstate, hanswer, hih]
      simp
    | false =>
      obtain ⟨hstate, hanswer⟩ := feed_within lineMax bytes afterCr hb
      have hcr : (b == 0x0d) = false := by
        simp only [isTerminator, Bool.or_eq_false_iff] at hb
        exact hb.1
      have hih := ih (bytes ++ [b]) false
      rw [hcr] at hpieces ⊢
      rw [hpieces] at hih ⊢
      rw [hstate, hanswer, hih]
      simp

theorem feedStream_reset (stream : List UInt8) :
    (feedStream lineMax .reset stream).2 = reference lineMax stream := by
  rw [← within_nil, feedStream_within, reference, pieces]
  congr 1
  cases (dropLf false stream).splitOnP isTerminator <;> rfl

/-! ### The array -/

/-- The parser's static variables with the array `line`. -/
structure Buffer (lineMax : Nat) where
  line : Vector UInt8 lineMax
  lineLength : Nat
  lineOverflow : Bool
  ignoreLf : Bool

namespace Buffer

/-- The static variables at boot. -/
def init : Buffer lineMax := ⟨Vector.replicate lineMax 0, 0, false, false⟩

/-- The assignment `line[i] = c`, which there is only inside the array. -/
def store (line : Vector UInt8 lineMax) (i : Nat) (c : UInt8) : Option (Vector UInt8 lineMax) :=
  if h : i < lineMax then some (line.set i c h) else none

/-- The C string in the array, if it ends there. -/
def cString (line : Vector UInt8 lineMax) : Option (List UInt8) :=
  if 0 ∈ line.toList then some (line.toList.takeWhile (· != 0)) else none

/-- `rzi_at_parser_feed` on the array; `execute` is what the command leaves in it. -/
def feed (execute : Vector UInt8 lineMax → Vector UInt8 lineMax) (q : Buffer lineMax)
    (byte : UInt8) : Option (Buffer lineMax × List (Action UInt8)) :=
  if byte = 0x0a ∧ q.ignoreLf = true then some ({ q with ignoreLf := false }, [])
  else if byte = 0x08 ∨ byte = 0x7f then
    if q.lineLength ≠ 0 then
      some ({ q with lineLength := q.lineLength - 1, ignoreLf := false }, [.echoErase])
    else some ({ q with ignoreLf := false }, [])
  else if isTerminator byte then
    let newline := if byte = 0x0d then [Action.echoNewline] else []
    if q.lineOverflow then
      some (⟨q.line, 0, false, byte == 0x0d⟩, newline ++ [.overflowStatus])
    else if q.lineLength ≠ 0 then
      (store q.line q.lineLength 0).bind fun line =>
        (cString line).map fun text =>
          (⟨execute line, 0, false, byte == 0x0d⟩, newline ++ [.execute text])
    else some ({ q with ignoreLf := byte == 0x0d }, newline)
  else if byte < 0x20 ∨ 0x7e < byte then some ({ q with ignoreLf := false }, [])
  else if lineMax - 1 ≤ q.lineLength then
    some ({ q with lineOverflow := true, ignoreLf := false }, [])
  else
    (store q.line q.lineLength byte).map fun line =>
      (⟨line, q.lineLength + 1, q.lineOverflow, false⟩, [.echo byte])

def feedStream (execute : Vector UInt8 lineMax → Vector UInt8 lineMax) :
    Buffer lineMax → List UInt8 → Option (Buffer lineMax × List Reply)
  | q, [] => some (q, [])
  | q, b :: bs =>
    (feed execute q b).bind fun r =>
      (feedStream execute r.1 bs).map fun u => (u.1, replies r.2 ++ u.2)

/-- The array holds the line, with room for the NUL that will end it. -/
structure Represents (q : Buffer lineMax) (p : Parser UInt8) : Prop where
  room : q.lineLength < lineMax
  line : q.line.toList.take q.lineLength = p.line
  nonzero : 0 ∉ p.line
  lineOverflow : q.lineOverflow = p.lineOverflow
  ignoreLf : q.ignoreLf = p.ignoreLf

variable {execute : Vector UInt8 lineMax → Vector UInt8 lineMax} {q : Buffer lineMax}
  {p : Parser UInt8}

theorem represents_init (h : 0 < lineMax) : (init : Buffer lineMax).Represents .reset where
  room := h
  line := rfl
  nonzero := by simp [Parser.reset]
  lineOverflow := rfl
  ignoreLf := rfl

theorem Represents.length (h : q.Represents p) : p.line.length = q.lineLength := by
  rw [← h.line, List.length_take, Vector.length_toList]
  have := h.room
  omega

theorem store_eq (line : Vector UInt8 lineMax) {i : Nat} (c : UInt8) (h : i < lineMax) :
    ∃ line', store line i c = some line' ∧ line'.toList = line.toList.set i c :=
  ⟨line.set i c h, dif_pos h, Vector.toList_set h⟩

/-- The bytes in front of the NUL are the C string. -/
theorem cString_eq {line : Vector UInt8 lineMax} {i : Nat} {text : List UInt8}
    (htext : line.toList.take i = text) (hnonzero : 0 ∉ text) (hnul : line.toList[i]? = some 0) :
    cString line = some text := by
  have hsplit : line.toList = text ++ line.toList.drop i := by
    rw [← htext, List.take_append_drop]
  have hhead : (line.toList.drop i).takeWhile (· != 0) = [] := by
    obtain ⟨hlt, hget⟩ := List.getElem?_eq_some_iff.1 hnul
    rw [List.drop_eq_getElem_cons hlt, hget]
    rfl
  have hmem : 0 ∈ line.toList := List.mem_of_getElem? hnul
  have htake : line.toList.takeWhile (· != 0) = text := by
    rw [hsplit, List.takeWhile_append_of_pos fun a ha => ?_, hhead, List.append_nil]
    rw [bne_iff_ne]
    rintro rfl
    exact hnonzero ha
  rw [cString, if_pos hmem, htake]

/-- The NUL goes behind the kept bytes, which are then the C string. -/
theorem store_nul {line : Vector UInt8 lineMax} {text : List UInt8} {length : Nat}
    (hroom : length < lineMax) (htext : line.toList.take length = text) (hnonzero : 0 ∉ text) :
    ∃ line', store line length 0 = some line' ∧ cString line' = some text := by
  obtain ⟨line', hstore, hset⟩ := store_eq line 0 hroom
  refine ⟨line', hstore, cString_eq (i := length) ?_ hnonzero ?_⟩
  · rw [hset, List.take_set_of_le (Nat.le_refl _)]
    exact htext
  · rw [hset, List.getElem?_set_self (by simpa using hroom)]

/-- A byte stays inside the array and does what it does to the list. -/
theorem Represents.feed (h : q.Represents p) (execute : Vector UInt8 lineMax → Vector UInt8 lineMax)
    (b : UInt8) : ∃ q', q.feed execute b = some (q', (At.feed id lineMax p b).2) ∧
      q'.Represents (At.feed id lineMax p b).1 := by
  obtain ⟨text, overflow, cr⟩ := p
  obtain ⟨line, length, overflow', cr'⟩ := q
  have hlength : text.length = length := h.length
  have hroom : length < lineMax := h.room
  have htext : line.toList.take length = text := h.line
  obtain rfl : overflow' = overflow := h.lineOverflow
  obtain rfl : cr' = cr := h.ignoreLf
  have hnonzero : 0 ∉ text := h.nonzero
  unfold Buffer.feed At.feed
  simp only [id_eq, hlength]
  by_cases hlf : b = 0x0a ∧ cr' = true
  · simp only [if_pos hlf]
    exact ⟨_, rfl, hroom, htext, hnonzero, rfl, rfl⟩
  simp only [if_neg hlf]
  by_cases hbs : b = 0x08 ∨ b = 0x7f
  · simp only [if_pos hbs]
    by_cases hlen : length ≠ 0
    · simp only [if_pos hlen]
      refine ⟨_, rfl, show length - 1 < lineMax by omega, ?_, fun h0 => hnonzero (List.dropLast_subset _ h0), rfl, rfl⟩
      rw [← htext, List.dropLast_take (by simpa using hroom)]
    · simp only [if_neg hlen]
      exact ⟨_, rfl, hroom, htext, hnonzero, rfl, rfl⟩
  simp only [if_neg hbs]
  have hempty : ∀ line' : Vector UInt8 lineMax,
      (⟨line', 0, false, b == 0x0d⟩ : Buffer lineMax).Represents ⟨[], false, b == 0x0d⟩ :=
    fun line' => ⟨show 0 < lineMax by omega, rfl, by simp, rfl, rfl⟩
  by_cases ht : isTerminator b = true
  · simp only [if_pos ht]
    by_cases ho : overflow' = true
    · simp only [if_pos ho]
      exact ⟨_, rfl, hempty line⟩
    simp only [if_neg ho]
    by_cases hlen : length ≠ 0
    · obtain ⟨line', hstore, hstring⟩ := store_nul hroom htext hnonzero
      simp only [if_pos hlen, hstore, hstring, Option.bind_some, Option.map_some]
      exact ⟨_, rfl, hempty _⟩
    · simp only [if_neg hlen]
      obtain rfl : length = 0 := not_not.1 hlen
      obtain rfl : overflow' = false := Bool.eq_false_iff.2 ho
      exact ⟨_, rfl, hempty line⟩
  simp only [if_neg ht]
  by_cases hctl : b < 0x20 ∨ 0x7e < b
  · simp only [if_pos hctl]
    exact ⟨_, rfl, hroom, htext, hnonzero, rfl, rfl⟩
  simp only [if_neg hctl]
  by_cases hfull : lineMax - 1 ≤ length
  · simp only [if_pos hfull]
    exact ⟨_, rfl, hroom, htext, hnonzero, rfl, rfl⟩
  · obtain ⟨line', hstore, hset⟩ := store_eq line b hroom
    simp only [if_neg hfull, hstore, Option.map_some]
    refine ⟨_, rfl, show length + 1 < lineMax by omega, ?_, ?_, rfl, rfl⟩
    · show line'.toList.take (length + 1) = text ++ [b]
      rw [List.take_add_one, hset, List.take_set_of_le (Nat.le_refl _), htext,
        List.getElem?_set_self (by simpa using hroom)]
      rfl
    · show 0 ∉ text ++ [b]
      rw [List.mem_append, List.mem_singleton]
      rintro (h0 | rfl)
      · exact hnonzero h0
      · exact hctl (Or.inl (by decide))

theorem Represents.feedStream (h : q.Represents p)
    (execute : Vector UInt8 lineMax → Vector UInt8 lineMax) (stream : List UInt8) :
    ∃ q', q.feedStream execute stream = some (q', (At.feedStream lineMax p stream).2) := by
  induction stream generalizing q p with
  | nil => exact ⟨q, rfl⟩
  | cons b bs ih =>
    obtain ⟨q', hfeed, hq'⟩ := h.feed execute b
    obtain ⟨q'', hbs⟩ := ih hq'
    refine ⟨q'', ?_⟩
    rw [Buffer.feedStream, hfeed, Option.bind_some, hbs]
    rfl

end Buffer

/-! ### The receive path -/

/-- What a step makes the parser answer. -/
def fedReplies (lineMax : Nat) (s : Rx UInt8) : Act UInt8 → List Reply
  | .feed =>
    match s.pc with
    | .draining (c :: _) => replies (feed id lineMax s.parser c).2
    | _ => []
  | _ => []

/-- The receive path with a record of the parser's answers. -/
def answerStep (ringSize lineMax : Nat) (x : Rx UInt8 × List Reply) (a : Act UInt8) :
    Option (Rx UInt8 × List Reply) :=
  (step id ringSize lineMax x.1 a).map fun t => (t, x.2 ++ fedReplies lineMax x.1 a)

/-- What the AT thread has taken out of the ring and not fed yet. -/
def Pc.taken {α : Type*} : Pc α → List α
  | .draining buffer => buffer
  | _ => []

/-- What has been received and not fed yet. -/
def Rx.unread {α : Type*} (s : Rx α) : List α := s.pc.taken ++ s.ring

/-- Without a loss the parser is where the bytes fed so far take it. -/
def Faithful (lineMax : Nat) (x : Rx UInt8 × List Reply) : Prop :=
  x.1.lost = [] → x.1.rxOverflow = false ∧ x.1.pc ≠ .resetting ∧
    ∃ fed, x.1.received = fed ++ x.1.unread ∧ (x.1.parser, x.2) = feedStream lineMax .reset fed

theorem faithful_init : Faithful lineMax (Rx.init, []) :=
  fun _ => ⟨rfl, (fun h => by cases h), [], rfl, rfl⟩

theorem faithful_step {ringSize : Nat} {x y : Rx UInt8 × List Reply} {a : Act UInt8}
    (hx : Faithful lineMax x) (h : answerStep ringSize lineMax x a = some y) :
    Faithful lineMax y := by
  obtain ⟨⟨ring, overflow, pc, parser, received, lost, gap, lines⟩, out⟩ := x
  obtain ⟨t, ht, rfl⟩ := Option.map_eq_some_iff.1 h
  intro hlost
  cases a with
  | receive data =>
    cases ht
    obtain ⟨hnil, hdrop⟩ := List.append_eq_nil_iff.1 hlost
    obtain ⟨hflag, hpc, fed, hreceived, hparser⟩ := hx hnil
    have hall : min (ringSize - ring.length) data.length = data.length :=
      Nat.le_antisymm (Nat.min_le_right _ _) (List.drop_eq_nil_iff.1 hdrop)
    refine ⟨?_, hpc, fed, ?_, ?_⟩
    · simp only [receive, hall]
      rw [show overflow = false from hflag]
      simp
    · have hfed : received = fed ++ (pc.taken ++ ring) := hreceived
      simp only [receive, Rx.unread, hall, List.take_length]
      rw [hfed]
      simp
    · rw [← hparser]
      simp [receive, fedReplies]
  | test =>
    rcases pc with _ | _ | buffer
    · cases overflow with
      | true =>
        cases ht
        exact absurd (hx hlost).1 Bool.noConfusion
      | false =>
        cases ht
        obtain ⟨-, -, fed, hreceived, hparser⟩ := hx hlost
        refine ⟨rfl, (fun h => by cases h), fed, hreceived, ?_⟩
        rw [← hparser]
        exact congrArg (parser, ·) (List.append_nil out)
    · cases ht
    · cases ht
  | reset =>
    rcases pc with _ | _ | buffer
    · cases ht
    · cases ht
      exact absurd rfl (hx hlost).2.1
    · cases ht
  | get =>
    rcases pc with _ | _ | (_ | ⟨c, buffer⟩)
    · cases ht
    · cases ht
    · by_cases hring : ring = []
      · rw [step, if_pos hring] at ht
        cases ht
        obtain ⟨hflag, -, fed, hreceived, hparser⟩ := hx hlost
        refine ⟨hflag, (fun h => by cases h), fed, hreceived, ?_⟩
        rw [← hparser]
        exact congrArg (parser, ·) (List.append_nil out)
      · rw [step, if_neg hring] at ht
        cases ht
        obtain ⟨hflag, -, fed, hreceived, hparser⟩ := hx hlost
        refine ⟨hflag, (fun h => by cases h), fed, ?_, ?_⟩
        · show received = fed ++ (ring.take 64 ++ ring.drop 64)
          rw [List.take_append_drop]
          exact hreceived
        · rw [← hparser]
          exact congrArg (parser, ·) (List.append_nil out)
    · cases ht
  | feed =>
    rcases pc with _ | _ | (_ | ⟨c, buffer⟩)
    · cases ht
    · cases ht
    · cases ht
    · -- the byte fed next goes behind those fed so far
      cases ht
      obtain ⟨hflag, -, fed, hreceived, hparser⟩ := hx hlost
      refine ⟨hflag, (fun h => by cases h), fed ++ [c], ?_, ?_⟩
      · show received = fed ++ [c] ++ (buffer ++ ring)
        rw [show received = fed ++ (c :: buffer ++ ring) from hreceived]
        simp
      · rw [feedStream_append, ← hparser]
        simp [feedStream, fedReplies]

/-- The editor on its array never leaves it and answers what the reference answers, for every stream
and line length, whatever the commands leave in the array. The receive path answers the same for the
bytes it has fed, however they came in, as long as the ring has lost none. -/
theorem editor_refines (n : Nat) (execute : Vector UInt8 (n + 1) → Vector UInt8 (n + 1)) :
    (∀ stream, ∃ q, Buffer.init.feedStream execute stream = some (q, reference (n + 1) stream)) ∧
      ∀ ringSize as s out, run (answerStep ringSize (n + 1)) (Rx.init, []) as = some (s, out) →
        s.lost = [] → ∃ fed, s.received = fed ++ s.unread ∧ out = reference (n + 1) fed := by
  constructor
  · intro stream
    obtain ⟨q, hq⟩ := (Buffer.represents_init (Nat.succ_pos n)).feedStream execute stream
    exact ⟨q, by rw [hq, feedStream_reset]⟩
  · intro ringSize as s out hrun hlost
    have hfaithful : Faithful (n + 1) (s, out) :=
      run_invariant' (fun _ _ _ => faithful_step) faithful_init hrun
    obtain ⟨-, -, fed, hreceived, hparser⟩ := hfaithful hlost
    refine ⟨fed, hreceived, ?_⟩
    rw [← feedStream_reset, ← hparser]

/-- Two calls bring `ABCD`, an erase, CR, LF, `A` and CR to an editor for three bytes. -/
theorem editor_refines_two_calls : ∃ as s,
    run (answerStep 16 4) (Rx.init, []) as = some (s, [.overflow, .line [0x41]]) ∧ s.lost = [] ∧
      ∃ fed, s.received = fed ++ s.unread ∧ [.overflow, .line [0x41]] = reference 4 fed := by
  have hrun : run (answerStep 16 4) (Rx.init, [])
      [.receive [0x41, 0x42, 0x43, 0x44, 0x08, 0x0d], .test, .get, .feed, .feed, .feed, .feed,
        .receive [0x0a, 0x41, 0x0d], .feed, .feed, .get, .feed, .feed, .feed] =
      some (⟨[], false, .draining [], ⟨[], false, true⟩,
        [0x41, 0x42, 0x43, 0x44, 0x08, 0x0d, 0x0a, 0x41, 0x0d], [], false, [([0x41], 0x0d)]⟩,
        [.overflow, .line [0x41]]) := by
    decide
  exact ⟨_, _, hrun, rfl, (editor_refines 3 id).2 16 _ _ _ hrun rfl⟩

end Rzi.At
