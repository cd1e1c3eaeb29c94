import Mathlib.Data.List.Basic

/-!
# The AT line parser (`src/at/at_parser.c`)

The line editor of `rzi_at_parser_feed`, over any type of characters with a byte value: the service
feeds it bytes, and the receive path is also run over bytes that carry the position at which they
were received (`feed_map`: the parser reads nothing but the values). What a byte makes the parser
do besides changing its own state is returned as a list of actions.
-/

namespace Rzi.At

/-- The parser's static variables; `line` holds the first `line_length` characters. -/
structure Parser (α : Type*) where
  line : List α
  lineOverflow : Bool
  ignoreLf : Bool
deriving DecidableEq, Repr

inductive Action (α : Type*) where
  | echoErase
  | echoNewline
  | echo (c : α)
  | overflowStatus
  | execute (line : List α)
deriving DecidableEq, Repr

/-- `rzi_at_parser_reset`, which is also the initial state. -/
def Parser.reset {α : Type*} : Parser α := ⟨[], false, false⟩

def isTerminator (b : UInt8) : Bool := b == 0x0d || b == 0x0a

section Feed
variable {α : Type*} (val : α → UInt8) (lineMax : Nat)

def feed (p : Parser α) (c : α) : Parser α × List (Action α) :=
  if val c = 0x0a ∧ p.ignoreLf = true then ({ p with ignoreLf := false }, [])
  else if val c = 0x08 ∨ val c = 0x7f then
    if p.line.length ≠ 0 then ({ p with line := p.line.dropLast, ignoreLf := false }, [.echoErase])
    else ({ p with ignoreLf := false }, [])
  else if isTerminator (val c) then
    let p' : Parser α := ⟨[], false, val c == 0x0d⟩
    let newline := if val c = 0x0d then [Action.echoNewline] else []
    if p.lineOverflow then (p', newline ++ [.overflowStatus])
    else if p.line.length ≠ 0 then (p', newline ++ [.execute p.line])
    else (p', newline)
  else if val c < 0x20 ∨ 0x7e < val c then ({ p with ignoreLf := false }, [])
  else if lineMax - 1 ≤ p.line.length then ({ p with lineOverflow := true, ignoreLf := false }, [])
  else ({ p with line := p.line ++ [c], ignoreLf := false }, [.echo c])

/-- The line that feeding `c` executes, with `c` as its terminator. -/
def executed (p : Parser α) (c : α) : List (List α × α) :=
  (feed val lineMax p c).2.filterMap fun
    | .execute line => some (line, c)
    | _ => none

/-- The parser after a sequence of characters, and the lines it executed on the way. -/
def feedAll : Parser α → List α → Parser α × List (List α × α)
  | p, [] => (p, [])
  | p, c :: cs =>
    ((feedAll (feed val lineMax p c).1 cs).1,
      executed val lineMax p c ++ (feedAll (feed val lineMax p c).1 cs).2)

variable {val lineMax} {p : Parser α} {c : α} {cs ds : List α}

@[simp] theorem feedAll_nil : feedAll val lineMax p [] = (p, []) := rfl

theorem feedAll_cons : feedAll val lineMax p (c :: cs) =
    ((feedAll val lineMax (feed val lineMax p c).1 cs).1,
      executed val lineMax p c ++ (feedAll val lineMax (feed val lineMax p c).1 cs).2) := rfl

theorem feedAll_append : feedAll val lineMax p (cs ++ ds) =
    ((feedAll val lineMax (feedAll val lineMax p cs).1 ds).1,
      (feedAll val lineMax p cs).2 ++ (feedAll val lineMax (feedAll val lineMax p cs).1 ds).2) := by
  induction cs generalizing p with
  | nil => rfl
  | cons c cs ih => simp only [List.cons_append, feedAll_cons, ih, List.append_assoc]

/-- What a character can do: the parser after it and the line it executes. -/
inductive Fed (p : Parser α) (c : α) : Parser α → List (List α × α) → Prop
  | kept (i) : Fed p c { p with ignoreLf := i } []
  | erased : Fed p c { p with line := p.line.dropLast, ignoreLf := false } []
  | discarded (i) : Fed p c ⟨[], false, i⟩ []
  | executed (i) (h : p.lineOverflow = false) (hline : p.line ≠ []) : Fed p c ⟨[], false, i⟩ [(p.line, c)]
  | full : Fed p c { p with lineOverflow := true, ignoreLf := false } []
  | extended : Fed p c { p with line := p.line ++ [c], ignoreLf := false } []

theorem feed_spec (val : α → UInt8) (lineMax : Nat) (p : Parser α) (c : α) :
    Fed p c (feed val lineMax p c).1 (executed val lineMax p c) := by
  unfold executed feed
  by_cases hlf : val c = 0x0a ∧ p.ignoreLf = true
  · rw [if_pos hlf]
    exact .kept false
  rw [if_neg hlf]
  by_cases hbs : val c = 0x08 ∨ val c = 0x7f
  · rw [if_pos hbs]
    split_ifs
    · exact .erased
    · exact .kept false
  rw [if_neg hbs]
  by_cases ht : isTerminator (val c) = true
  · -- the line ends; the echoed newline is no execution
    rw [if_pos ht]
    cases ho : p.lineOverflow
    · by_cases hl : p.line.length ≠ 0
      · have h : Fed p c ⟨[], false, val c == 0x0d⟩ [(p.line, c)] :=
          .executed _ ho fun hnil => hl (by rw [hnil]; rfl)
        by_cases hcr : val c = 0x0d <;> simpa [hl, hcr] using h
      · have h : Fed p c ⟨[], false, val c == 0x0d⟩ [] := .discarded _
        by_cases hcr : val c = 0x0d <;> simpa [hl, hcr] using h
    · have h : Fed p c ⟨[], false, val c == 0x0d⟩ [] := .discarded _
      by_cases hcr : val c = 0x0d <;> simpa [hcr] using h
  rw [if_neg ht]
  split_ifs
  · exact .kept false
  · exact .full
  · exact .extended

/-- The characters of a line that can still be executed have the property. -/
def Parser.Holds (Q : α → Prop) (p : Parser α) : Prop := p.lineOverflow = false → ∀ c ∈ p.line, Q c

theorem Parser.holds_reset {Q : α → Prop} : (Parser.reset : Parser α).Holds Q := fun _ _ h => by
  cases h

theorem Fed.holds {Q : α → Prop} {p' : Parser α} {ls : List (List α × α)} (h : Fed p c p' ls)
    (hp : p.Holds Q) (hc : Q c) :
    p'.Holds Q ∧ ∀ l ∈ ls, (∀ d ∈ l.1, Q d) ∧ l.2 = c := by
  cases h with
  | kept i => exact ⟨hp, by simp⟩
  | erased => exact ⟨fun ho d hd => hp ho d (List.dropLast_subset _ hd), by simp⟩
  | discarded i => exact ⟨(fun _ d hd => by cases hd), by simp⟩
  | executed i ho _ => exact ⟨(fun _ d hd => by cases hd), by simpa using hp ho⟩
  | full => exact ⟨(fun ho => by cases ho), by simp⟩
  | extended =>
    refine ⟨fun ho d hd => ?_, by simp⟩
    rcases List.mem_append.1 hd with hd | hd
    · exact hp ho d hd
    · rw [List.mem_singleton.1 hd]
      exact hc

theorem feedAll_holds {Q : α → Prop} (hp : p.Holds Q) (hcs : ∀ c ∈ cs, Q c) :
    (feedAll val lineMax p cs).1.Holds Q ∧
      ∀ l ∈ (feedAll val lineMax p cs).2, (∀ d ∈ l.1, Q d) ∧ l.2 ∈ cs := by
  induction cs generalizing p with
  | nil => exact ⟨hp, by simp⟩
  | cons c cs ih =>
    obtain ⟨hp', hls⟩ := (feed_spec val lineMax p c).holds hp (hcs c (by simp))
    obtain ⟨hp'', hls'⟩ := ih hp' fun d hd => hcs d (by simp [hd])
    refine ⟨hp'', fun l hl => ?_⟩
    rcases List.mem_append.1 hl with hl | hl
    · exact ⟨(hls l hl).1, by simp [(hls l hl).2]⟩
    · exact ⟨(hls' l hl).1, by simp [(hls' l hl).2]⟩

theorem Fed.line_of_mem {p' : Parser α} {ls : List (List α × α)} (h : Fed p c p' ls) {l : List α × α}
    (hl : l ∈ ls) : p.lineOverflow = false ∧ p.line ≠ [] ∧ l = (p.line, c) := by
  cases h with
  | executed i ho hline => exact ⟨ho, hline, List.mem_singleton.1 hl⟩
  | _ => cases hl

/-- An executed line is not empty, and its characters stand before its terminator in any order that the
characters come in. -/
theorem feedAll_ordered {r : α → α → Prop} (hp : ∀ c ∈ cs, p.Holds (r · c)) (hcs : cs.Pairwise r) :
    ∀ l ∈ (feedAll val lineMax p cs).2, l.1 ≠ [] ∧ ∀ d ∈ l.1, r d l.2 := by
  induction cs generalizing p with
  | nil => exact fun l hl => by cases hl
  | cons c cs ih =>
    obtain ⟨hc, htail⟩ := List.pairwise_cons.1 hcs
    intro l hl
    rcases List.mem_append.1 hl with hl | hl
    · obtain ⟨ho, hline, rfl⟩ := (feed_spec val lineMax p c).line_of_mem hl
      exact ⟨hline, hp c List.mem_cons_self ho⟩
    · refine ih (fun d hd => ?_) htail l hl
      exact ((feed_spec val lineMax p c).holds (hp d (List.mem_cons_of_mem c hd)) (hc d hd)).1

end Feed

/-! ### The parser reads only the values -/

section Map
variable {α β : Type*} {val : β → UInt8} {lineMax : Nat} (f : α → β)

def Parser.map (p : Parser α) : Parser β := ⟨p.line.map f, p.lineOverflow, p.ignoreLf⟩

def Action.map : Action α → Action β
  | .echoErase => .echoErase
  | .echoNewline => .echoNewline
  | .echo c => .echo (f c)
  | .overflowStatus => .overflowStatus
  | .execute line => .execute (line.map f)

theorem feed_map (p : Parser α) (c : α) : feed val lineMax (p.map f) (f c) =
    ((feed (val ∘ f) lineMax p c).1.map f, (feed (val ∘ f) lineMax p c).2.map (Action.map f)) := by
  simp only [feed, Parser.map, List.length_map, Function.comp_apply]
  by_cases hlf : val (f c) = 0x0a ∧ p.ignoreLf = true
  · simp only [if_pos hlf, List.map_nil]
  simp only [if_neg hlf]
  by_cases hbs : val (f c) = 0x08 ∨ val (f c) = 0x7f
  · simp only [if_pos hbs]
    split_ifs
    · simp [Action.map, List.map_dropLast]
    · rfl
  simp only [if_neg hbs]
  by_cases ht : isTerminator (val (f c)) = true
  · simp only [if_pos ht]
    by_cases hcr : val (f c) = 0x0d <;> split_ifs <;> simp [Action.map, hcr]
  simp only [if_neg ht]
  split_ifs
  · rfl
  · rfl
  · simp [Action.map]

theorem executed_map (p : Parser α) (c : α) : executed val lineMax (p.map f) (f c) =
    (executed (val ∘ f) lineMax p c).map (Prod.map (List.map f) f) := by
  unfold executed
  rw [feed_map, List.filterMap_map, List.map_filterMap]
  refine List.filterMap_congr fun a _ => ?_
  cases a <;> rfl

end Map

end Rzi.At
