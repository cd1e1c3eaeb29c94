import Rzi.UspBackend

/-!
# The multicast sessions on USP (`lorawan_multicast.c`, `lorawan_backend_usp_multicast.c`)

The public calls over the table of the backend. A session is listed from the call that adds it until a
call that removes it or all; `Held` says this of a history of calls and their results, without the
table, and `sessions_listed` that the count and the enumeration report it. `remove_first_of_two` is the
case of two sessions with one address.
-/

namespace Rzi.Usp.Multicast

/-- The context of a public call: where it is made, whether the service has started, and the modem. -/
structure Ctx where
  isr : Bool
  started : Bool
  modem : Modem

/-- `rzi_lorawan_check_started`. -/
def checkStarted (ctx : Ctx) : Except Err Unit :=
  if ctx.isr then .error .isr else if !ctx.started then .error .notReady else .ok ()

/-- The check of the arguments in `rzi_lorawan_add_multicast_session`. -/
def validSession (session : MulticastSession) : Bool :=
  (session.deviceClass == .b || session.deviceClass == .c) && session.dataRate ≤ 15 &&
    session.frequencyHz != 0 && -1 ≤ session.groupId && session.groupId ≤ 3

/-- `rzi_lorawan_add_multicast_session`; `none` is NULL. -/
def addSession (ctx : Ctx) (session : Option MulticastSession) (s : State) : Outcome :=
  match checkStarted ctx with
  | .error e => finish (.error e) s
  | .ok () =>
    match session with
    | none => finish (.error .invalid) s
    | some session =>
      if !validSession session then finish (.error .invalid) s
      else uspMulticastAdd ctx.modem session s

/-- `rzi_lorawan_remove_multicast_session`. -/
def removeSession (ctx : Ctx) (devAddr : UInt32) (s : State) : Outcome :=
  match checkStarted ctx with
  | .error e => finish (.error e) s
  | .ok () => uspMulticastRemove ctx.modem devAddr s

/-- `rzi_lorawan_clear_multicast_sessions`. -/
def clearSessions (ctx : Ctx) (s : State) : Outcome :=
  match checkStarted ctx with
  | .error e => finish (.error e) s
  | .ok () => uspMulticastClear ctx.modem s

/-- `rzi_lorawan_get_multicast_count`. -/
def getCount (ctx : Ctx) (s : State) : Except Err Nat :=
  match checkStarted ctx with
  | .error e => .error e
  | .ok () => uspMulticastCount s

/-- The loop of `usp_multicast_get` from a group on, after `n` sessions. -/
def findSession (index : Nat) (s : State) : Nat → List (Fin 4) → Except Err MulticastSession
  | _, [] => .error .invalid
  | n, group :: groups =>
    if !s.multicastUsed.get group then findSession index s n groups
    else if n = index then .ok (s.multicast.get group)
    else findSession index s (n + 1) groups

def uspMulticastGet (index : Nat) (s : State) : Except Err MulticastSession :=
  if !s.ready then .error .notReady else findSession index s 0 (List.finRange 4)

/-- `rzi_lorawan_get_multicast_session`. -/
def getSession (ctx : Ctx) (index : Nat) (s : State) : Except Err MulticastSession :=
  match checkStarted ctx with
  | .error e => .error e
  | .ok () => uspMulticastGet index s

/-! ### Histories -/

/-- A call on the multicast table. -/
def isMulticast : Usp.Call → Bool
  | .multicastAdd _ | .multicastRemove _ | .multicastClear => true
  | _ => false

/-- The public calls on the table, and the other calls and events of the backend. -/
inductive Act where
  | add (ctx : Ctx) (session : Option MulticastSession)
  | remove (ctx : Ctx) (devAddr : UInt32)
  | clear (ctx : Ctx)
  | getCount (ctx : Ctx)
  | getSession (ctx : Ctx) (index : Nat)
  | other (modem : Modem) (call : Usp.Call) (h : isMulticast call = false)
  | event (modem : Modem) (source : Except Err (ModemEvent × Nat))

def Outcome.result (o : Outcome) : Except Err Unit × State := (o.rc, o.state)

/-- The return code and the state after it. -/
def Act.run (s : State) : Act → Except Err Unit × State
  | .add ctx session => Outcome.result (addSession ctx session s)
  | .remove ctx devAddr => Outcome.result (removeSession ctx devAddr s)
  | .clear ctx => Outcome.result (clearSessions ctx s)
  | .getCount ctx => ((Multicast.getCount ctx s).map fun _ => (), s)
  | .getSession ctx index => ((Multicast.getSession ctx index s).map fun _ => (), s)
  | .other modem call _ => Outcome.result (call.run modem s)
  | .event modem source => (.ok (), (handleEvent modem source s).1)

/-- The state with the calls so far and their results. -/
structure Sys where
  state : State
  trace : List (Act × Except Err Unit)

def next (x : Sys) (a : Act) : Sys := ⟨(a.run x.state).2, x.trace ++ [(a, (a.run x.state).1)]⟩

def after (acts : List Act) : Sys := acts.foldl next ⟨.init, []⟩

/-- Neither adds nor removes sessions. -/
def Act.keeps : Act → Bool
  | .add _ _ | .remove _ _ | .clear _ => false
  | _ => true

/-- The sessions that were added and not since removed or cleared, each as it was added, by the group
that it was given: the one that was requested, or any free one where -1 was. -/
inductive Held : List (Act × Except Err Unit) → (Fin 4 → Option MulticastSession) → Prop
  | boot : Held [] fun _ => none
  | added {trace held} (h : Held trace held) (ctx : Ctx) (session : MulticastSession) (group : Fin 4)
      (hfree : held group = none) (hgroup : session.groupId = -1 ∨ session.groupId = group) :
      Held (trace ++ [(.add ctx (some session), .ok ())]) (Function.update held group (some session))
  | removed {trace held} (h : Held trace held) (ctx : Ctx) (session : MulticastSession) (group : Fin 4)
      (hheld : held group = some session) :
      Held (trace ++ [(.remove ctx session.devAddr, .ok ())]) (Function.update held group none)
  | cleared {trace held} (h : Held trace held) (ctx : Ctx) :
      Held (trace ++ [(.clear ctx, .ok ())]) fun _ => none
  | failed {trace held} (h : Held trace held) (a : Act) (e : Err) : Held (trace ++ [(a, .error e)]) held
  | kept {trace held} (h : Held trace held) (a : Act) (ha : a.keeps = true) (rc : Except Err Unit) :
      Held (trace ++ [(a, rc)]) held

/-- A session as it is listed: without keys, and under its group. -/
def shown (group : Fin 4) (session : MulticastSession) : MulticastSession :=
  { session with
    groupId := group
    applicationSessionKey := .replicate 16 0
    networkSessionKey := .replicate 16 0 }

/-- The listing of sessions by their groups. -/
def listing (held : Fin 4 → Option MulticastSession) : List MulticastSession :=
  (List.finRange 4).filterMap fun group => (held group).map (shown group)

/-- The session in a group of the table. -/
def entry (s : State) (group : Fin 4) : Option MulticastSession :=
  if s.multicastUsed.get group then some (s.multicast.get group) else none

/-- The sessions in the table, in the order of their groups. -/
def listed (s : State) : List MulticastSession := (List.finRange 4).filterMap (entry s)

/-! ### The queries -/

variable {s : State} {ctx : Ctx}

/-- What a query checks before it looks at the table. -/
def check (ctx : Ctx) (s : State) : Except Err Unit :=
  match checkStarted ctx with
  | .error e => .error e
  | .ok () => if !s.ready then .error .notReady else .ok ()

theorem findSession_eq (s : State) (n k : Nat) (groups : List (Fin 4)) :
    findSession (n + k) s n groups =
      match (groups.filterMap (entry s))[k]? with
      | some session => .ok session
      | none => .error .invalid := by
  induction groups generalizing n k with
  | nil => rfl
  | cons group groups ih =>
    unfold findSession
    cases hused : s.multicastUsed.get group with
    | false =>
      have hentry : entry s group = none := by
        unfold entry
        rw [hused]
        rfl
      rw [if_pos (by rfl), List.filterMap_cons_none hentry]
      exact ih n k
    | true =>
      have hentry : entry s group = some (s.multicast.get group) := by
        unfold entry
        rw [hused]
        rfl
      rw [if_neg (by simp), List.filterMap_cons_some hentry]
      cases k with
      | zero => rw [if_pos (Nat.add_zero n).symm, List.getElem?_cons_zero]
      | succ k =>
        rw [if_neg (by omega), List.getElem?_cons_succ, show n + (k + 1) = n + 1 + k by omega]
        exact ih (n + 1) k

theorem getSession_eq (ctx : Ctx) (index : Nat) (s : State) :
    getSession ctx index s = (check ctx s).bind fun _ =>
      match (listed s)[index]? with
      | some session => .ok session
      | none => .error .invalid := by
  have hfind := findSession_eq s 0 index (List.finRange 4)
  rw [Nat.zero_add] at hfind
  unfold getSession check
  split
  · rfl
  · unfold uspMulticastGet
    split
    · rfl
    · exact hfind

theorem count_eq_length (s : State) : s.multicastUsed.toList.count true = (listed s).length := by
  have hused : s.multicastUsed.toList = (List.finRange 4).map s.multicastUsed.get := by
    refine List.ext_getElem (by simp) fun i h₁ h₂ => ?_
    simp only [List.getElem_map, List.getElem_finRange]
    rfl
  have hentry : ∀ group : Fin 4, (entry s group).isSome = s.multicastUsed.get group := by
    intro group
    unfold entry
    cases s.multicastUsed.get group <;> rfl
  rw [hused, List.count, List.countP_map]
  unfold listed
  rw [List.length_filterMap_eq_countP]
  refine List.countP_congr fun group _ => ?_
  rw [hentry]
  simp

theorem getCount_eq (ctx : Ctx) (s : State) :
    getCount ctx s = (check ctx s).map fun _ => (listed s).length := by
  unfold getCount check
  split
  · rfl
  · unfold uspMulticastCount
    split
    · rfl
    · rw [count_eq_length]
      rfl

/-! ### The table -/

variable {held : Fin 4 → Option MulticastSession} {session stored : MulticastSession} {group : Fin 4}
  {t : State} {modem : Modem}

theorem allocateGroup_some {requested : Int} {used : Vector Bool 4}
    (h : allocateGroup requested used = some group) :
    used.get group = false ∧ (requested < 0 ∨ requested = group) := by
  unfold allocateGroup at h
  split at h
  · have hfound := List.find?_some h
    simp only [Bool.and_eq_true, decide_eq_true_eq, Bool.not_eq_true'] at hfound
    exact ⟨hfound.2, .inr hfound.1.symm⟩
  · rename_i hneg
    have hfound := List.find?_some h
    simp only [Bool.not_eq_true'] at hfound
    exact ⟨hfound, .inl (Int.not_le.1 hneg)⟩

theorem entry_eq_none : entry s group = none ↔ s.multicastUsed.get group = false := by
  unfold entry
  cases s.multicastUsed.get group <;> simp

theorem get_set {α : Type} (xs : Vector α 4) (group : Fin 4) (x : α) (g : Fin 4) :
    (xs.set group x group.isLt).get g = if g = group then x else xs.get g := by
  by_cases hg : g = group
  · rw [if_pos hg, hg]
    exact Vector.getElem_set_self ..
  · rw [if_neg hg]
    exact Vector.getElem_set_ne _ _ fun h => hg (Fin.ext h.symm)

theorem get_replicate {α : Type} (x : α) (g : Fin 4) : (Vector.replicate 4 x).get g = x :=
  Vector.getElem_replicate ..

/-- Storing a session in a group. -/
theorem entry_set (s : State) (group : Fin 4) (stored : MulticastSession) :
    entry { s with
        multicast := s.multicast.set group stored group.isLt
        multicastUsed := s.multicastUsed.set group true group.isLt } =
      Function.update (entry s) group (some stored) := by
  funext g
  unfold entry
  by_cases hg : g = group
  · rw [hg, Function.update_self, get_set, get_set, if_pos rfl, if_pos rfl, if_pos rfl]
  · rw [Function.update_of_ne hg, get_set, get_set, if_neg hg, if_neg hg]

/-- Giving a group up. -/
theorem entry_unset (s : State) (group : Fin 4) :
    entry { s with multicastUsed := s.multicastUsed.set group false group.isLt } =
      Function.update (entry s) group none := by
  funext g
  unfold entry
  by_cases hg : g = group
  · rw [hg, Function.update_self, get_set, if_pos rfl, if_neg Bool.false_ne_true]
  · rw [Function.update_of_ne hg, get_set, if_neg hg]

theorem entry_cleared (s : State) :
    entry { s with multicastUsed := .replicate 4 false } = fun _ => none := by
  funext g
  unfold entry
  rw [get_replicate, if_neg Bool.false_ne_true]

/-- What an add does: it fails and leaves the state, or it takes a free group for the session. -/
theorem addSession_cases (ctx : Ctx) (session : Option MulticastSession) (s : State) :
    (∃ e, Outcome.result (addSession ctx session s) = (.error e, s)) ∨
      ∃ x group, session = some x ∧ entry s group = none ∧ (x.groupId = -1 ∨ x.groupId = group) ∧
        (Outcome.result (addSession ctx session s)).1 = .ok () ∧
        entry (Outcome.result (addSession ctx session s)).2 =
          Function.update (entry s) group (some (shown group x)) := by
  unfold addSession
  split
  · exact .inl ⟨_, rfl⟩
  split
  · exact .inl ⟨_, rfl⟩
  rename_i x
  split
  · exact .inl ⟨_, rfl⟩
  rename_i hvalid
  have hvalid : validSession x = true := by simpa using hvalid
  simp only [validSession, Bool.and_eq_true, decide_eq_true_eq] at hvalid
  unfold uspMulticastAdd enter
  split
  · dsimp only
    split
    · exact .inl ⟨_, rfl⟩
    rename_i group hgroup
    obtain ⟨hfree, hgiven⟩ := allocateGroup_some hgroup
    split
    · exact .inl ⟨_, rfl⟩
    · refine .inr ⟨x, group, rfl, entry_eq_none.2 hfree, ?_, rfl, entry_set s group (shown group x)⟩
      rcases hgiven with hneg | heq
      · exact .inl (by omega)
      · exact .inr heq
  · exact .inl ⟨_, rfl⟩

/-- What a remove does: it fails and leaves the state, or it gives up a group with the address. -/
theorem removeSession_cases (ctx : Ctx) (devAddr : UInt32) (s : State) :
    (∃ e, Outcome.result (removeSession ctx devAddr s) = (.error e, s)) ∨
      ∃ x group, entry s group = some x ∧ x.devAddr = devAddr ∧
        (Outcome.result (removeSession ctx devAddr s)).1 = .ok () ∧
        entry (Outcome.result (removeSession ctx devAddr s)).2 = Function.update (entry s) group none := by
  unfold removeSession
  split
  · exact .inl ⟨_, rfl⟩
  unfold uspMulticastRemove enter
  split
  · dsimp only
    split
    · exact .inl ⟨_, rfl⟩
    rename_i group hgroup
    have hfound := List.find?_some hgroup
    simp only [Bool.and_eq_true, beq_iff_eq] at hfound
    split
    · exact .inl ⟨_, rfl⟩
    · refine .inr ⟨s.multicast.get group, group, ?_, hfound.2, rfl, entry_unset s group⟩
      unfold entry
      exact if_pos hfound.1
  · exact .inl ⟨_, rfl⟩

theorem clearSessions_cases (ctx : Ctx) (s : State) :
    (∃ e, Outcome.result (clearSessions ctx s) = (.error e, s)) ∨
      (Outcome.result (clearSessions ctx s)).1 = .ok () ∧
        entry (Outcome.result (clearSessions ctx s)).2 = fun _ => none := by
  unfold clearSessions
  split
  · exact .inl ⟨_, rfl⟩
  unfold uspMulticastClear enter
  split
  · dsimp only
    split
    · exact .inl ⟨_, rfl⟩
    · exact .inr ⟨rfl, entry_cleared s⟩
  · exact .inl ⟨_, rfl⟩

/-! ### The other calls and the events -/

/-- The table is the same. -/
structure SameTable (s t : State) : Prop where
  multicast : t.multicast = s.multicast
  used : t.multicastUsed = s.multicastUsed

theorem SameTable.refl (s : State) : SameTable s s := ⟨rfl, rfl⟩

theorem SameTable.entry_eq (h : SameTable s t) : entry t = entry s := by
  funext g
  unfold entry
  rw [h.multicast, h.used]

theorem setClassBState_sameTable (state : Lorawan.ClassBState) (s : State) :
    SameTable s (setClassBState state s).2 := by
  unfold setClassBState
  split <;> exact ⟨rfl, rfl⟩

theorem enter_sameTable {call : State → Outcome} (h : SameTable s (call s).state) :
    SameTable s (enter s call).state := by
  unfold enter
  split
  · exact h
  · exact .refl s

theorem requestUplink_sameTable (r : Request) : SameTable s (requestUplink modem r s).state := by
  refine enter_sameTable ?_
  split
  · exact .refl s
  · split <;> exact ⟨rfl, rfl⟩

theorem call_sameTable (modem : Modem) (s : State) {call : Usp.Call} (h : isMulticast call = false) :
    SameTable s (call.run modem s).state := by
  cases call with
  | multicastAdd | multicastRemove | multicastClear => cases h
  | start region bypass => exact ⟨rfl, rfl⟩
  | join config =>
    simp only [Usp.Call.run, uspJoin]
    split
    · exact .refl s
    · exact enter_sameTable ⟨rfl, rfl⟩
  | leave =>
    refine enter_sameTable ?_
    split <;> exact ⟨rfl, rfl⟩
  | send port data type => exact requestUplink_sameTable _
  | sendEmpty withPort port type => exact requestUplink_sameTable _
  | setClass deviceClass =>
    refine enter_sameTable ?_
    have hset := setClassBState_sameTable deviceClass.initialState s
    dsimp only
    split
    · split
      · have hback := setClassBState_sameTable s.classBState (setClassBState deviceClass.initialState s).2
        exact ⟨hback.multicast.trans hset.multicast, hback.used.trans hset.used⟩
      · exact hset
    · exact hset
  | stopClassB =>
    refine enter_sameTable ?_
    dsimp only
    split
    · exact .refl s
    · exact setClassBState_sameTable .idle s

theorem handleEvent_sameTable (modem : Modem) (source : Except Err (ModemEvent × Nat)) (s : State) :
    SameTable s (handleEvent modem source s).1 := by
  cases source with
  | error e => exact .refl s
  | ok p =>
    obtain ⟨event, missed⟩ := p
    show SameTable s (handleEventType modem event s).1
    cases event with
    | reset =>
      show SameTable s (handleReset modem s).1
      rcases handleReset_cases modem s with ⟨e, h⟩ | h <;> rw [h] <;> exact ⟨rfl, rfl⟩
    | linkCheck answered data =>
      cases answered with
      | false => exact .refl s
      | true => cases data <;> exact .refl s
    | macTime answered => cases answered <;> exact .refl s
    | classBStatus ready =>
      cases ready with
      | none => exact .refl s
      | some ready => exact setClassBState_sameTable _ s
    | _ => exact ⟨rfl, rfl⟩

/-! ### Every history -/

/-- The table holds what has been added and not since removed or cleared. -/
structure Holds (x : Sys) (held : Fin 4 → Option MulticastSession) : Prop where
  history : Held x.trace held
  entries : ∀ g, entry x.state g = (held g).map (shown g)

theorem Holds.listed {x : Sys} (h : Holds x held) : listed x.state = listing held :=
  List.filterMap_congr fun g _ => h.entries g

/-- A call that fails leaves the state. -/
theorem run_error {a : Act} {e : Err} (h : (a.run s).1 = .error e) : listed (a.run s).2 = listed s := by
  have hcases : ∀ {r : Except Err Unit × State}, (∃ e, r = (.error e, s)) ∨ r.1 = .ok () →
      r.1 = .error e → Multicast.listed r.2 = Multicast.listed s := by
    rintro r (⟨e', rfl⟩ | hok) he
    · rfl
    · rw [hok] at he
      cases he
  cases a with
  | add ctx session =>
    refine hcases ((addSession_cases ctx session s).imp_right ?_) h
    rintro ⟨x, group, -, -, -, hok, -⟩
    exact hok
  | remove ctx devAddr =>
    refine hcases ((removeSession_cases ctx devAddr s).imp_right ?_) h
    rintro ⟨x, group, -, -, hok, -⟩
    exact hok
  | clear ctx => exact hcases ((clearSessions_cases ctx s).imp_right And.left) h
  | getCount ctx => rfl
  | getSession ctx index => rfl
  | other modem call hcall =>
    show List.filterMap (entry (call.run modem s).state) _ = _
    rw [(call_sameTable modem s hcall).entry_eq]
    rfl
  | event modem source =>
    show List.filterMap (entry (handleEvent modem source s).1) _ = _
    rw [(handleEvent_sameTable modem source s).entry_eq]
    rfl

theorem holds_boot : Holds ⟨.init, []⟩ fun _ => none := by
  refine ⟨.boot, fun g => ?_⟩
  rw [entry_eq_none.2 (get_replicate false g)]
  rfl

/-- A change of one group changes what is shown of it. -/
theorem Holds.update {x : Sys} (h : Holds x held) (group : Fin 4) (y : Option MulticastSession)
    (g : Fin 4) : Function.update (entry x.state) group (y.map (shown group)) g =
      (Function.update held group y g).map (shown g) := by
  by_cases hg : g = group
  · subst hg
    rw [Function.update_self, Function.update_self]
  · rw [Function.update_of_ne hg, Function.update_of_ne hg]
    exact h.entries g

theorem holds_next {x : Sys} (h : Holds x held) (a : Act) : ∃ held, Holds (next x a) held := by
  have hfailed : ∀ {r : Except Err Unit × State}, (∃ e, r = (.error e, x.state)) →
      Holds ⟨r.2, x.trace ++ [(a, r.1)]⟩ held := by
    rintro r ⟨e, rfl⟩
    exact ⟨h.history.failed a e, h.entries⟩
  have hkept : a.keeps = true → entry (a.run x.state).2 = entry x.state → Holds (next x a) held :=
    fun ha heq => ⟨h.history.kept a ha _, fun g => (congrFun heq g).trans (h.entries g)⟩
  cases a with
  | add ctx session =>
    rcases addSession_cases ctx session x.state with he | ⟨y, group, rfl, hfree, hgroup, hok, hentry⟩
    · exact ⟨held, hfailed he⟩
    · rw [h.entries, Option.map_eq_none_iff] at hfree
      refine ⟨Function.update held group (some y), ?_, fun g => ?_⟩
      · have hadded := h.history.added ctx y group hfree hgroup
        rw [← hok] at hadded
        exact hadded
      · show entry (Outcome.result (addSession ctx (some y) x.state)).2 g = _
        rw [hentry]
        exact h.update group (some y) g
  | remove ctx devAddr =>
    rcases removeSession_cases ctx devAddr x.state with he | ⟨y, group, hwas, haddr, hok, hentry⟩
    · exact ⟨held, hfailed he⟩
    · rw [h.entries, Option.map_eq_some_iff] at hwas
      obtain ⟨z, hz, rfl⟩ := hwas
      refine ⟨Function.update held group none, ?_, fun g => ?_⟩
      · have hremoved := h.history.removed ctx z group hz
        rw [← hok, show z.devAddr = devAddr from haddr] at hremoved
        exact hremoved
      · show entry (Outcome.result (removeSession ctx devAddr x.state)).2 g = _
        rw [hentry]
        exact h.update group none g
  | clear ctx =>
    rcases clearSessions_cases ctx x.state with he | ⟨hok, hentry⟩
    · exact ⟨held, hfailed he⟩
    · refine ⟨fun _ => none, ?_, fun g => congrFun hentry g⟩
      have hcleared := h.history.cleared ctx
      rw [← hok] at hcleared
      exact hcleared
  | getCount ctx => exact ⟨held, hkept rfl rfl⟩
  | getSession ctx index => exact ⟨held, hkept rfl rfl⟩
  | other modem call hcall => exact ⟨held, hkept rfl (call_sameTable modem x.state hcall).entry_eq⟩
  | event modem source => exact ⟨held, hkept rfl (handleEvent_sameTable modem source x.state).entry_eq⟩

theorem holds_after (acts : List Act) : ∃ held, Holds (after acts) held := by
  refine List.foldlRecOn (motive := fun x => ∃ held, Holds x held) acts next ⟨_, holds_boot⟩ ?_
  rintro x ⟨held, h⟩ a -
  exact holds_next h a

/-- Of an address that one session has, none is left when it was removed. -/
theorem Holds.remove {x : Sys} (h : Holds x held) {devAddr : UInt32}
    (hrc : (removeSession ctx devAddr x.state).rc = .ok ())
    (hone : ∀ y ∈ Multicast.listed x.state, ∀ z ∈ Multicast.listed x.state, y.devAddr = devAddr →
      z.devAddr = devAddr → y = z) :
    ∀ y ∈ Multicast.listed (removeSession ctx devAddr x.state).state, y.devAddr ≠ devAddr := by
  intro y hy haddr
  rcases removeSession_cases ctx devAddr x.state with ⟨e, he⟩ | ⟨z, group, hwas, hz, -, hentry⟩
  · have herror : (removeSession ctx devAddr x.state).rc = .error e := congrArg Prod.fst he
    rw [hrc] at herror
    cases herror
  obtain ⟨g, hg, hleft⟩ := List.mem_filterMap.1 hy
  replace hleft : entry (Outcome.result (removeSession ctx devAddr x.state)).2 g = some y := hleft
  rw [hentry] at hleft
  have hne : g ≠ group := by
    rintro rfl
    rw [Function.update_self] at hleft
    cases hleft
  rw [Function.update_of_ne hne] at hleft
  have heq := hone y (List.mem_filterMap.2 ⟨g, hg, hleft⟩) z
    (List.mem_filterMap.2 ⟨group, List.mem_finRange group, hwas⟩) haddr hz
  -- one session would be in two groups
  rw [h.entries, Option.map_eq_some_iff] at hleft hwas
  obtain ⟨y', -, rfl⟩ := hleft
  obtain ⟨z', -, rfl⟩ := hwas
  have hgroup : (g.val : Int) = group.val := congrArg MulticastSession.groupId heq
  exact hne (Fin.ext (Int.ofNat.inj hgroup))

/-- The multicast table over every history: the count and the enumeration report the sessions that were
added and not since removed or cleared, each without keys and under the group it was given; an address
that one session has is free when a remove of it has returned 0; and a call that fails changes nothing. -/
theorem sessions_listed (acts : List Act) :
    (∃ held, Held (after acts).trace held ∧ listed (after acts).state = listing held) ∧
      (∀ ctx, getCount ctx (after acts).state =
        (check ctx (after acts).state).map fun _ => (listed (after acts).state).length) ∧
      (∀ ctx index, getSession ctx index (after acts).state =
        (check ctx (after acts).state).bind fun _ =>
          match (listed (after acts).state)[index]? with
          | some session => .ok session
          | none => .error .invalid) ∧
      (∀ ctx devAddr, (removeSession ctx devAddr (after acts).state).rc = .ok () →
        (∀ y ∈ listed (after acts).state, ∀ z ∈ listed (after acts).state, y.devAddr = devAddr →
          z.devAddr = devAddr → y = z) →
        ∀ y ∈ listed (removeSession ctx devAddr (after acts).state).state, y.devAddr ≠ devAddr) ∧
      ∀ (a : Act) (e : Err), (a.run (after acts).state).1 = .error e →
        listed (a.run (after acts).state).2 = listed (after acts).state := by
  obtain ⟨held, h⟩ := holds_after acts
  exact ⟨⟨held, h.history, h.listed⟩, fun ctx => getCount_eq ctx _, fun ctx index => getSession_eq ctx index _,
    fun ctx devAddr => h.remove, fun a e => run_error⟩

/-- A service that has started, over a modem that accepts everything. -/
def startedCtx : Ctx := ⟨false, true, agreeable⟩

/-- The modem's RESET makes the backend ready. -/
def ready : Act := .event agreeable (.ok (.reset, 0))

def sessionIn (group : Int) : MulticastSession :=
  ⟨.c, 1, .replicate 16 1, .replicate 16 2, 868100000, 0, 0, group⟩

/-- Two sessions with one address: a remove of it that returns 0 leaves the second. And a session that
asked for any group is listed under the one that it got. -/
theorem remove_first_of_two :
    (removeSession startedCtx 1 (after [ready, .add startedCtx (some (sessionIn 0)),
        .add startedCtx (some (sessionIn 1))]).state).rc = .ok () ∧
      getSession startedCtx 0 (removeSession startedCtx 1 (after [ready,
        .add startedCtx (some (sessionIn 0)), .add startedCtx (some (sessionIn 1))]).state).state =
          .ok (shown 1 (sessionIn 1)) ∧
      (shown 1 (sessionIn 1)).devAddr = 1 ∧
      getSession startedCtx 0 (after [ready, .add startedCtx (some (sessionIn (-1)))]).state =
        .ok (shown 0 (sessionIn (-1))) ∧
      (shown 0 (sessionIn (-1))).groupId ≠ (sessionIn (-1)).groupId := by
  decide

end Rzi.Usp.Multicast
