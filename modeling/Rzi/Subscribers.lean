import Mathlib.Data.List.ReduceOption
import Mathlib.Data.List.TakeWhile
import Rzi.LorawanService
import Rzi.Lib.Run

/-!
# The subscribers of the service (`src/lorawan/lorawan.c`)

The callback table is an array of slots: a registration takes the first free slot, a dispatch takes a
snapshot of the active ones in the order of the array. `table` is that code and `list capacity` is
what it is for, a list of subscribers in the order of their registration; `next` runs either of them
under the same calls and dispatches.

`subscribers_listed_iff` compares the two over every history. The results always agree, and so does
the set of subscribers; their order does exactly if no registration takes a slot in front of an older
subscriber.
-/

namespace Rzi.Lorawan.Subscribers
open Lts

/-- `struct rzi_lorawan_callbacks`. -/
structure Callbacks (φ δ : Type) where
  onEvent : Option φ
  userData : δ
deriving DecidableEq, Repr

section Slots
variable {κ : Type} [DecidableEq κ]

/-- The loop of `rzi_lorawan_register_callbacks` from slot `i` on, with the free slot found so far. -/
def scan (c : κ) : List (Option κ) → Nat → Option Nat → Except Err (Option Nat)
  | [], _, available => .ok available
  | none :: slots, i, available => scan c slots (i + 1) (available.or (some i))
  | some d :: slots, i, available =>
    if d = c then .error .already else scan c slots (i + 1) available

def register (c : κ) (slots : List (Option κ)) : Except Err (List (Option κ)) :=
  match scan c slots 0 none with
  | .error e => .error e
  | .ok none => .error .noResource
  | .ok (some i) => .ok (slots.set i (some c))

/-- The loop of `rzi_lorawan_unregister_callbacks`. -/
def remove (c : κ) : List (Option κ) → Option (List (Option κ))
  | [] => none
  | none :: slots => (remove c slots).map (none :: ·)
  | some d :: slots =>
    if d = c then some (none :: slots) else (remove c slots).map (some d :: ·)

def unregister (c : κ) (slots : List (Option κ)) : Except Err (List (Option κ)) :=
  match remove c slots with
  | none => .error .notFound
  | some slots => .ok slots

/-- The subscribers a dispatch copies. -/
def snapshot (slots : List (Option κ)) : List κ := slots.reduceOption

/-- From the first free slot on, every slot is free. -/
def NoGap (slots : List (Option κ)) : Prop :=
  ∀ slot ∈ slots.dropWhile Option.isSome, slot = none

end Slots

/-! ### Histories -/

/-- What the API functions and the dispatcher do with the set of subscribers. -/
structure Interface (τ φ δ : Type) where
  register : Callbacks φ δ → τ → Except Err τ
  unregister : Callbacks φ δ → τ → Except Err τ
  receivers : τ → List (Callbacks φ δ)

structure State (τ φ δ : Type) where
  subscribers : τ
  /-- the calls which the running dispatch has still to make -/
  pending : List (Callbacks φ δ × Event)
  /-- the calls made -/
  calls : List (Callbacks φ δ × Event)
  /-- what the API functions returned -/
  results : List (Except Err Unit)

/-- The calls of the API functions with a pointer that may be NULL, and the steps of `dispatch`: the
snapshot, with the service as the event finds it, and one call of a subscriber. -/
inductive Act (φ δ : Type) where
  | register (isr : Bool) (callbacks : Option (Callbacks φ δ))
  | unregister (isr : Bool) (callbacks : Option (Callbacks φ δ))
  | dispatch (event : BackendEvent) (service : Service)
  | call

/-- The event the subscribers get, if they get one. -/
def publicEvent (event : BackendEvent) (service : Service) : Option Event :=
  if (swallowJoinEvent event service).1 then none else eventFromBackend event

section Model
variable {τ φ δ : Type}

/-- The checks of both API functions. -/
def checked (isr : Bool) (callbacks : Option (Callbacks φ δ)) : Except Err (Callbacks φ δ) :=
  if isr then .error .isr
  else
    match callbacks with
    | none => .error .invalid
    | some c => if c.onEvent.isNone then .error .invalid else .ok c

def edit (op : Callbacks φ δ → τ → Except Err τ) (isr : Bool) (callbacks : Option (Callbacks φ δ))
    (s : State τ φ δ) : State τ φ δ :=
  match (checked isr callbacks).bind fun c => op c s.subscribers with
  | .error e => { s with results := s.results ++ [.error e] }
  | .ok subscribers => { s with subscribers := subscribers, results := s.results ++ [.ok ()] }

/-- One call or one step of the dispatcher; what is not its turn changes nothing. -/
def next (I : Interface τ φ δ) (s : State τ φ δ) : Act φ δ → State τ φ δ
  | .register isr callbacks => edit I.register isr callbacks s
  | .unregister isr callbacks => edit I.unregister isr callbacks s
  | .dispatch event service =>
    if s.pending = [] then
      { s with pending :=
          (publicEvent event service).toList.flatMap fun e =>
            (I.receivers s.subscribers).map fun c => (c, e) }
    else s
  | .call =>
    match s.pending with
    | [] => s
    | c :: pending => { s with pending := pending, calls := s.calls ++ [c] }

variable [DecidableEq φ] [DecidableEq δ]

/-- The table of slots. -/
def table : Interface (List (Option (Callbacks φ δ))) φ δ where
  register := register
  unregister := unregister
  receivers := fun slots => (snapshot slots).filter fun c => c.onEvent.isSome

/-- The list of subscribers in the order of registration. -/
def list (capacity : Nat) : Interface (List (Callbacks φ δ)) φ δ where
  register := fun c l =>
    if c ∈ l then .error .already
    else if capacity ≤ l.length then .error .noResource
    else .ok (l ++ [c])
  unregister := fun c l => if c ∈ l then .ok (l.erase c) else .error .notFound
  receivers := fun l => l

/-- The table and the list under the same calls. -/
def pairStep (capacity : Nat)
    (x : State (List (Option (Callbacks φ δ))) φ δ × State (List (Callbacks φ δ)) φ δ) (a : Act φ δ) :
    Option (State (List (Option (Callbacks φ δ))) φ δ × State (List (Callbacks φ δ)) φ δ) :=
  some (next table x.1 a, next (list capacity) x.2 a)

end Model

section Property
variable {φ δ : Type}

def init (capacity : Nat) :
    State (List (Option (Callbacks φ δ))) φ δ × State (List (Callbacks φ δ)) φ δ :=
  (⟨List.replicate capacity none, [], [], []⟩, ⟨[], [], [], []⟩)

/-- The table as the list it stands for. -/
def State.toList (s : State (List (Option (Callbacks φ δ))) φ δ) : State (List (Callbacks φ δ)) φ δ :=
  ⟨snapshot s.subscribers, s.pending, s.calls, s.results⟩

/-- The table stands for the list: same subscribers in the same order, same results, same calls. -/
def Agrees (x : State (List (Option (Callbacks φ δ))) φ δ × State (List (Callbacks φ δ)) φ δ) : Prop :=
  x.1.toList = x.2

/-- What the table keeps of the list whatever slots it uses. -/
structure Listed (capacity : Nat)
    (x : State (List (Option (Callbacks φ δ))) φ δ × State (List (Callbacks φ δ)) φ δ) : Prop where
  length : x.1.subscribers.length = capacity
  perm : (snapshot x.1.subscribers).Perm x.2.subscribers
  nodup : x.2.subscribers.Nodup
  callable : ∀ c ∈ x.2.subscribers, c.onEvent.isSome = true
  results : x.1.results = x.2.results

/-- A pair that is registered anew finds no older subscriber behind the first free slot. -/
def AtEnd (x : State (List (Option (Callbacks φ δ))) φ δ × State (List (Callbacks φ δ)) φ δ) :
    Act φ δ → Prop
  | .register false (some c) =>
    c.onEvent.isSome = true → c ∉ snapshot x.1.subscribers → NoGap x.1.subscribers
  | _ => True

end Property

/-! ### The loops -/

section Loops
variable {κ : Type} {c : κ} {slots : List (Option κ)}

theorem mem_snapshot : c ∈ snapshot slots ↔ some c ∈ slots := List.reduceOption_mem_iff

theorem snapshot_append (before after : List (Option κ)) :
    snapshot (before ++ after) = snapshot before ++ snapshot after :=
  List.reduceOption_append _ _

theorem snapshot_cons (c : κ) (slots : List (Option κ)) :
    snapshot (some c :: slots) = c :: snapshot slots := rfl

theorem isSome_of_none_not_mem (h : none ∉ slots) :
    ∀ slot ∈ slots, slot.isSome = true := by
  rintro (_ | d) hslot
  · exact absurd hslot h
  · rfl

theorem noGap_of_full (h : none ∉ slots) : NoGap slots := by
  unfold NoGap
  rw [List.dropWhile_eq_nil_iff.2 (isSome_of_none_not_mem h)]
  exact nofun

theorem noGap_iff {before after : List (Option κ)} (h : none ∉ before) :
    NoGap (before ++ none :: after) ↔ ∀ slot ∈ after, slot = none := by
  unfold NoGap
  rw [List.dropWhile_append_of_pos (isSome_of_none_not_mem h)]
  simp

/-- A pair in the first free slot is behind the others exactly if the slots behind it are free. -/
theorem snapshot_append_iff {before after : List (Option κ)}
    (hc : c ∉ snapshot (before ++ none :: after)) :
    snapshot (before ++ some c :: after) = snapshot (before ++ none :: after) ++ [c] ↔
      ∀ slot ∈ after, slot = none := by
  have hnone : snapshot (before ++ none :: after) = snapshot before ++ snapshot after := by
    rw [snapshot_append]
    rfl
  rw [hnone] at hc ⊢
  rw [snapshot_append, snapshot_cons, List.append_assoc, List.append_cancel_left_eq]
  constructor
  · intro heq
    cases hafter : snapshot after with
    | nil =>
      intro slot hslot
      cases slot with
      | none => rfl
      | some d => exact absurd (hafter ▸ mem_snapshot.2 hslot) List.not_mem_nil
    | cons d rest =>
      rw [hafter, List.cons_append] at heq
      obtain ⟨rfl, -⟩ := List.cons.inj heq
      exact absurd (by rw [hafter]; simp) hc
  · intro hfree
    have hnil : snapshot after = [] := by
      refine List.eq_nil_iff_forall_not_mem.2 fun d hd => ?_
      cases hfree _ (mem_snapshot.1 hd)
    rw [hnil]
    rfl

variable [DecidableEq κ]

theorem scan_some (c : κ) (slots : List (Option κ)) (i k : Nat) :
    scan c slots i (some k) = if some c ∈ slots then .error .already else .ok (some k) := by
  induction slots generalizing i with
  | nil => rfl
  | cons slot slots ih =>
    cases slot with
    | none => simpa [scan] using ih (i + 1)
    | some d =>
      by_cases hd : d = c
      · simp [scan, hd]
      · rw [scan, if_neg hd, ih]
        simp [Ne.symm hd]

/-- The loop finds the pair, or no free slot, or the first free one. -/
theorem scan_none (c : κ) (slots : List (Option κ)) (i : Nat) :
    (some c ∈ slots ∧ scan c slots i none = .error .already) ∨
      (some c ∉ slots ∧ none ∉ slots ∧ scan c slots i none = .ok none) ∨
      ∃ before after, some c ∉ slots ∧ none ∉ before ∧ slots = before ++ none :: after ∧
        scan c slots i none = .ok (some (i + before.length)) := by
  induction slots generalizing i with
  | nil => exact .inr (.inl ⟨List.not_mem_nil, List.not_mem_nil, rfl⟩)
  | cons slot slots ih =>
    cases slot with
    | none =>
      have hscan : scan c (none :: slots) i none = scan c slots (i + 1) (some i) := rfl
      rw [hscan, scan_some]
      by_cases hmem : some c ∈ slots
      · exact .inl ⟨List.mem_cons_of_mem _ hmem, if_pos hmem⟩
      · exact .inr (.inr ⟨[], slots, by simp [hmem], List.not_mem_nil, rfl, if_neg hmem⟩)
    | some d =>
      by_cases hd : d = c
      · exact .inl ⟨by simp [hd], if_pos hd⟩
      have hscan : scan c (some d :: slots) i none = scan c slots (i + 1) none := if_neg hd
      rw [hscan]
      rcases ih (i + 1) with
        ⟨hmem, h⟩ | ⟨hmem, hfull, h⟩ | ⟨before, after, hmem, hbefore, hslots, h⟩
      · exact .inl ⟨List.mem_cons_of_mem _ hmem, h⟩
      · exact .inr (.inl ⟨by simp [hmem, Ne.symm hd], by simp [hfull], h⟩)
      · refine .inr (.inr ⟨some d :: before, after, by simp [hmem, Ne.symm hd], by simp [hbefore],
          by rw [hslots]; rfl, ?_⟩)
        rw [h, List.length_cons]
        congr 2
        omega

/-- `register` refuses a pair it has and a pair it has no slot for, and else uses a free slot. -/
theorem register_cases (c : κ) (slots : List (Option κ)) :
    (c ∈ snapshot slots ∧ register c slots = .error .already) ∨
      (c ∉ snapshot slots ∧ none ∉ slots ∧ register c slots = .error .noResource) ∨
      ∃ before after, c ∉ snapshot slots ∧ none ∉ before ∧ slots = before ++ none :: after ∧
        register c slots = .ok (before ++ some c :: after) := by
  rw [mem_snapshot]
  unfold register
  rcases scan_none c slots 0 with
    ⟨hmem, h⟩ | ⟨hmem, hfull, h⟩ | ⟨before, after, hmem, hbefore, hslots, h⟩
  · exact .inl ⟨hmem, by rw [h]⟩
  · exact .inr (.inl ⟨hmem, hfull, by rw [h]⟩)
  · refine .inr (.inr ⟨before, after, hmem, hbefore, hslots, ?_⟩)
    rw [h, Nat.zero_add]
    subst hslots
    simp

/-- `unregister` frees the slot of the pair, if there is one. -/
theorem remove_cases (c : κ) (slots : List (Option κ)) :
    (c ∉ snapshot slots ∧ remove c slots = none) ∨
      ∃ slots', c ∈ snapshot slots ∧ remove c slots = some slots' ∧ slots'.length = slots.length ∧
        snapshot slots' = (snapshot slots).erase c := by
  induction slots with
  | nil => exact .inl ⟨List.not_mem_nil, rfl⟩
  | cons slot slots ih =>
    cases slot with
    | none =>
      rcases ih with ⟨hmem, h⟩ | ⟨slots', hmem, h, hlen, hsnap⟩
      · exact .inl ⟨hmem, by rw [remove, h]; rfl⟩
      · exact .inr ⟨none :: slots', hmem, by rw [remove, h]; rfl, by simp [hlen], hsnap⟩
    | some d =>
      rw [snapshot_cons]
      by_cases hd : d = c
      · subst hd
        exact .inr ⟨none :: slots, List.mem_cons_self, if_pos rfl, rfl, by simp; rfl⟩
      · rcases ih with ⟨hmem, h⟩ | ⟨slots', hmem, h, hlen, hsnap⟩
        · exact .inl ⟨by simp [hmem, Ne.symm hd], by rw [remove, if_neg hd, h]; rfl⟩
        · refine .inr ⟨some d :: slots', List.mem_cons_of_mem _ hmem,
            by rw [remove, if_neg hd, h]; rfl, by simp [hlen], ?_⟩
          rw [List.erase_cons_tail (by simpa using hd), ← hsnap]
          rfl

end Loops

/-! ### Both together -/

section Both
variable {φ δ : Type} [DecidableEq φ] [DecidableEq δ] {capacity : Nat} {c : Callbacks φ δ}
  {slots : List (Option (Callbacks φ δ))} {l : List (Callbacks φ δ)}

theorem register_both (hlen : slots.length = capacity) (hperm : (snapshot slots).Perm l)
    (c : Callbacks φ δ) :
    (∃ e, (c ∈ snapshot slots ∨ none ∉ slots) ∧ register c slots = .error e ∧
        (list capacity).register c l = .error e) ∨
      ∃ before after, c ∉ snapshot slots ∧ none ∉ before ∧ slots = before ++ none :: after ∧
        register c slots = .ok (before ++ some c :: after) ∧
        (list capacity).register c l = .ok (l ++ [c]) := by
  have hlist : (list capacity).register c l =
      if c ∈ l then .error .already
      else if capacity ≤ l.length then .error .noResource else .ok (l ++ [c]) := rfl
  have hlength : (snapshot slots).length = l.length := hperm.length_eq
  rw [hlist]
  rcases register_cases c slots with
    ⟨hmem, h⟩ | ⟨hmem, hfull, h⟩ | ⟨before, after, hmem, hbefore, hslots, h⟩
  · exact .inl ⟨.already, .inl hmem, h, if_pos (hperm.mem_iff.1 hmem)⟩
  · have hall : (snapshot slots).length = slots.length := by
      refine List.reduceOption_length_eq_iff.2 fun slot hslot => ?_
      cases slot with
      | none => exact absurd hslot hfull
      | some d => rfl
    refine .inl ⟨.noResource, .inr hfull, h, ?_⟩
    rw [if_neg fun h => hmem (hperm.mem_iff.2 h), if_pos (by omega)]
  · have hroom : (snapshot slots).length < slots.length :=
      List.reduceOption_length_lt_iff.2 (by rw [hslots]; simp)
    refine .inr ⟨before, after, hmem, hbefore, hslots, h, ?_⟩
    rw [if_neg fun h => hmem (hperm.mem_iff.2 h), if_neg (by omega)]

theorem unregister_both (hperm : (snapshot slots).Perm l) (c : Callbacks φ δ) :
    (∃ e, unregister c slots = .error e ∧ (list capacity).unregister c l = .error e) ∨
      ∃ slots', unregister c slots = .ok slots' ∧ (list capacity).unregister c l = .ok (l.erase c) ∧
        slots'.length = slots.length ∧ snapshot slots' = (snapshot slots).erase c := by
  have hlist : (list capacity).unregister c l =
      if c ∈ l then .ok (l.erase c) else .error .notFound := rfl
  rw [hlist, unregister]
  rcases remove_cases c slots with ⟨hmem, h⟩ | ⟨slots', hmem, h, hlen, hsnap⟩
  · exact .inl ⟨.notFound, by rw [h], if_neg fun h => hmem (hperm.mem_iff.2 h)⟩
  · exact .inr ⟨slots', by rw [h], if_pos (hperm.mem_iff.1 hmem), hlen, hsnap⟩

end Both

section Checked
variable {τ φ δ : Type} {op : Callbacks φ δ → τ → Except Err τ} {isr : Bool}
  {callbacks : Option (Callbacks φ δ)} {c : Callbacks φ δ} {e : Err} {s : State τ φ δ} {t : τ}

theorem checked_eq_ok (h : checked isr callbacks = .ok c) :
    isr = false ∧ callbacks = some c ∧ c.onEvent.isSome = true := by
  unfold checked at h
  split at h
  · cases h
  · rename_i hisr
    refine ⟨Bool.eq_false_iff.2 hisr, ?_⟩
    split at h
    · cases h
    · split_ifs at h with hempty
      cases h
      refine ⟨rfl, ?_⟩
      rw [← Option.not_isNone, Bool.eq_false_iff.2 hempty]
      rfl

theorem edit_refused (h : checked isr callbacks = .error e) :
    edit op isr callbacks s = { s with results := s.results ++ [.error e] } := by
  unfold edit
  rw [h]
  rfl

theorem edit_error (h : checked isr callbacks = .ok c) (hop : op c s.subscribers = .error e) :
    edit op isr callbacks s = { s with results := s.results ++ [.error e] } := by
  unfold edit
  rw [h]
  simp [Except.bind, hop]

theorem edit_ok (h : checked isr callbacks = .ok c) (hop : op c s.subscribers = .ok t) :
    edit op isr callbacks s = { s with subscribers := t, results := s.results ++ [.ok ()] } := by
  unfold edit
  rw [h]
  simp [Except.bind, hop]

end Checked

/-! ### Steps -/

section Steps
variable {φ δ : Type} {capacity : Nat} {a : Act φ δ}
  {x y : State (List (Option (Callbacks φ δ))) φ δ × State (List (Callbacks φ δ)) φ δ}

theorem listed_init : Listed capacity (init capacity : State _ φ δ × _) where
  length := List.length_replicate
  perm := by
    rw [init, snapshot, List.reduceOption_replicate_none]
  nodup := List.nodup_nil
  callable := nofun
  results := rfl

/-- A call that both refuse leaves both as they are. -/
theorem Listed.refused (h : Listed capacity x) (e : Err) :
    Listed capacity ({ x.1 with results := x.1.results ++ [.error e] },
      { x.2 with results := x.2.results ++ [.error e] }) :=
  ⟨h.length, h.perm, h.nodup, h.callable, congrArg (· ++ [.error e]) h.results⟩

/-- A pair that is new takes the first free slot, and goes behind the others of the list. -/
theorem Listed.registered (h : Listed capacity x) {before after : List (Option (Callbacks φ δ))}
    {c : Callbacks φ δ} (hslots : x.1.subscribers = before ++ none :: after)
    (hnew : c ∉ x.2.subscribers) (hcallable : c.onEvent.isSome = true) :
    Listed capacity
      ({ x.1 with subscribers := before ++ some c :: after, results := x.1.results ++ [.ok ()] },
        { x.2 with subscribers := x.2.subscribers ++ [c], results := x.2.results ++ [.ok ()] }) := by
  have hsnapshot : snapshot x.1.subscribers = snapshot before ++ snapshot after := by
    rw [hslots, snapshot_append]
    rfl
  constructor
  · show (before ++ some c :: after).length = capacity
    rw [← h.length, hslots]
    simp
  · show (snapshot (before ++ some c :: after)).Perm (x.2.subscribers ++ [c])
    rw [snapshot_append, snapshot_cons]
    refine List.perm_middle.trans (.trans ?_ (List.perm_append_singleton c _).symm)
    rw [← hsnapshot]
    exact h.perm.cons c
  · refine List.pairwise_append.2 ⟨h.nodup, List.pairwise_singleton _ c, ?_⟩
    intro d hd d' hd' heq
    rw [heq, List.mem_singleton.1 hd'] at hd
    exact hnew hd
  · intro d hd
    rcases List.mem_append.1 hd with hd | hd
    · exact h.callable d hd
    · rw [List.mem_singleton.1 hd]
      exact hcallable
  · exact congrArg (· ++ [.ok ()]) h.results

variable [DecidableEq φ] [DecidableEq δ]

theorem Listed.unregistered (h : Listed capacity x) {slots' : List (Option (Callbacks φ δ))}
    {c : Callbacks φ δ} (hlen : slots'.length = x.1.subscribers.length)
    (hsnapshot : snapshot slots' = (snapshot x.1.subscribers).erase c) :
    Listed capacity ({ x.1 with subscribers := slots', results := x.1.results ++ [.ok ()] },
      { x.2 with subscribers := x.2.subscribers.erase c, results := x.2.results ++ [.ok ()] }) := by
  refine ⟨hlen.trans h.length, ?_, h.nodup.erase c, fun d hd => ?_, ?_⟩
  · show (snapshot slots').Perm (x.2.subscribers.erase c)
    rw [hsnapshot]
    exact h.perm.erase c
  · exact h.callable d (List.mem_of_mem_erase hd)
  · exact congrArg (· ++ [.ok ()]) h.results

theorem Listed.step (h : Listed capacity x) (hy : pairStep capacity x a = some y) :
    Listed capacity y := by
  cases hy
  cases a with
  | register isr callbacks =>
    show Listed capacity (edit register isr callbacks x.1, edit (list capacity).register isr callbacks x.2)
    cases hc : checked isr callbacks with
    | error e =>
      rw [edit_refused hc, edit_refused hc]
      exact h.refused e
    | ok c =>
      rcases register_both h.length h.perm c with
        ⟨e, -, htable, hlist⟩ | ⟨before, after, hmem, -, hslots, htable, hlist⟩
      · rw [edit_error hc htable, edit_error hc hlist]
        exact h.refused e
      · rw [edit_ok hc htable, edit_ok hc hlist]
        exact h.registered hslots (fun hmem' => hmem (h.perm.mem_iff.2 hmem')) (checked_eq_ok hc).2.2
  | unregister isr callbacks =>
    show Listed capacity
      (edit unregister isr callbacks x.1, edit (list capacity).unregister isr callbacks x.2)
    cases hc : checked isr callbacks with
    | error e =>
      rw [edit_refused hc, edit_refused hc]
      exact h.refused e
    | ok c =>
      rcases unregister_both h.perm c with
        ⟨e, htable, hlist⟩ | ⟨slots', htable, hlist, hlen, hsnapshot⟩
      · rw [edit_error hc htable, edit_error hc hlist]
        exact h.refused e
      · rw [edit_ok hc htable, edit_ok hc hlist]
        exact h.unregistered hlen hsnapshot
  | dispatch event service =>
    simp only [next]
    split_ifs <;> exact ⟨h.length, h.perm, h.nodup, h.callable, h.results⟩
  | call =>
    simp only [next]
    split <;> split <;> exact ⟨h.length, h.perm, h.nodup, h.callable, h.results⟩

omit [DecidableEq φ] [DecidableEq δ] in
theorem atEnd_of_refused {isr : Bool} {callbacks : Option (Callbacks φ δ)} {e : Err}
    (h : checked isr callbacks = .error e) : AtEnd x (.register isr callbacks) := by
  cases isr with
  | true => trivial
  | false =>
    cases callbacks with
    | none => trivial
    | some c =>
      intro hcallable
      have hnone : ¬ c.onEvent.isNone = true := by
        rw [← Option.not_isSome, hcallable]
        exact Bool.false_ne_true
      have hok : checked false (some c) = .ok c := if_neg hnone
      cases hok.symm.trans h

/-- A step keeps the table in the order of the list exactly if a new pair goes behind the others. -/
theorem agrees_step (h : Listed capacity x) (hx : Agrees x) (hy : pairStep capacity x a = some y) :
    Agrees y ↔ AtEnd x a := by
  cases hy
  obtain ⟨s, t⟩ := x
  obtain rfl : s.toList = t := hx
  cases a with
  | register isr callbacks =>
    show (edit register isr callbacks s).toList = edit (list capacity).register isr callbacks s.toList ↔ _
    cases hc : checked isr callbacks with
    | error e =>
      rw [edit_refused hc, edit_refused hc]
      exact iff_of_true rfl (atEnd_of_refused hc)
    | ok c =>
      obtain ⟨rfl, rfl, hcallable⟩ := checked_eq_ok hc
      rcases register_both h.length h.perm c with
        ⟨e, hfull, htable, hlist⟩ | ⟨before, after, hmem, hbefore, hslots, htable, hlist⟩
      · rw [edit_error hc htable, edit_error hc hlist]
        refine iff_of_true rfl fun _ hnew => ?_
        rcases hfull with hmem | hfull
        · exact absurd hmem hnew
        · exact noGap_of_full hfull
      · rw [edit_ok hc htable, edit_ok hc hlist]
        have hatEnd : AtEnd (s, s.toList) (.register false (some c)) ↔ NoGap s.subscribers :=
          ⟨fun hG => hG hcallable hmem, fun hgap _ _ => hgap⟩
        rw [hatEnd, show s.subscribers = before ++ none :: after from hslots, noGap_iff hbefore,
          ← snapshot_append_iff (hslots ▸ hmem)]
        rw [← show s.subscribers = before ++ none :: after from hslots]
        simp [State.toList]
  | unregister isr callbacks =>
    show (edit unregister isr callbacks s).toList =
      edit (list capacity).unregister isr callbacks s.toList ↔ _
    refine iff_of_true ?_ trivial
    cases hc : checked isr callbacks with
    | error e =>
      rw [edit_refused hc, edit_refused hc]
      rfl
    | ok c =>
      rcases unregister_both h.perm c with
        ⟨e, htable, hlist⟩ | ⟨slots', htable, hlist, -, hsnapshot⟩
      · rw [edit_error hc htable, edit_error hc hlist]
        rfl
      · rw [edit_ok hc htable, edit_ok hc hlist]
        simp [State.toList, hsnapshot]
  | dispatch event service =>
    refine iff_of_true ?_ trivial
    have hreceivers : (table : Interface _ φ δ).receivers s.subscribers = snapshot s.subscribers :=
      List.filter_eq_self.2 h.callable
    obtain ⟨slots, pending, calls, results⟩ := s
    cases pending with
    | nil =>
      exact congrArg (fun l => State.mk (snapshot slots)
        ((publicEvent event service).toList.flatMap fun e => l.map fun c => (c, e)) calls results)
        hreceivers
    | cons c pending => rfl
  | call =>
    refine iff_of_true ?_ trivial
    show (next table s .call).toList = next (list capacity) s.toList .call
    obtain ⟨slots, pending, calls, results⟩ := s
    cases pending <;> rfl

end Steps

/-- **The subscriber table.** In every history the table gives the results of the list, holds the same
pairs, each once, and never more than its capacity. It keeps them in the order of registration, and so
delivers every event as the list does, if and only if no registration takes a free slot in front of
an older subscriber. -/
theorem subscribers_listed_iff {φ δ : Type} [DecidableEq φ] [DecidableEq δ] (capacity : Nat)
    (as : List (Act φ δ)) :
    (∀ x, run (pairStep capacity) (init capacity) as = some x → Listed capacity x) ∧
      (Always (pairStep capacity) Agrees (init capacity) as ↔
        Meets (pairStep capacity) AtEnd (init capacity) as) := by
  refine ⟨fun x hx => run_invariant' (fun _ _ _ => Listed.step) listed_init hx, ?_⟩
  have hagrees : Agrees (init capacity : State (List (Option (Callbacks φ δ))) φ δ × _) := by
    simp [Agrees, init, State.toList, snapshot, List.reduceOption_replicate_none]
  refine always_iff_meets (I := fun x => Listed capacity x ∧ Agrees x) (fun _ h => h.2)
    (fun _ _ _ h hG hy => ⟨h.1.step hy, (agrees_step h.1 h.2 hy).2 hG⟩)
    (fun _ _ _ h hG hy hagrees => hG ((agrees_step h.1 h.2 hy).1 hagrees)) ⟨listed_init, hagrees⟩
    (run_total (fun x a => (next table x.1 a, next (list capacity) x.2 a)) _ as)

/-- Two subscribers, the first leaves, a third comes, and an event is delivered. -/
def slotReused : List (Act Nat Nat) :=
  [.register false (some ⟨some 1, 0⟩), .register false (some ⟨some 2, 0⟩),
    .unregister false (some ⟨some 1, 0⟩), .register false (some ⟨some 3, 0⟩), .dispatch .ready .init,
    .call, .call]

/-- The third subscriber is called before the second. -/
theorem newest_called_first : ¬ ∀ capacity (as : List (Act Nat Nat)),
    Always (pairStep capacity) Agrees (init capacity) as := by
  intro h
  have hlast : (run (pairStep 2) (init 2) slotReused).map (fun x => (x.1.calls, x.2.calls)) =
      some ([(⟨some 3, 0⟩, .ready), (⟨some 2, 0⟩, .ready)],
        [(⟨some 2, 0⟩, .ready), (⟨some 3, 0⟩, .ready)]) := rfl
  obtain ⟨x, hx, hcalls⟩ := Option.map_eq_some_iff.1 hlast
  have hagrees : x.1.calls = x.2.calls :=
    congrArg State.calls (h 2 slotReused slotReused x (List.prefix_refl _) hx)
  rw [(Prod.mk.inj hcalls).1, (Prod.mk.inj hcalls).2] at hagrees
  exact absurd hagrees (by decide)

end Rzi.Lorawan.Subscribers
