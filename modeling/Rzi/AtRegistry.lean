import Mathlib.Data.List.Nodup
import Rzi.AtSystem

/-!
# The command table (`at_registry.c`)

`rzi_at_register`, `rzi_at_registry_seal` and `rzi_at_dispatch` on the descriptors as they are given,
with the pointers that may be NULL and the mask of allowed operations. `registry_integrity` is what
holds of the table over every history of calls, and `register_eq` says that the registration of
`AtSystem` is this one before the seal.
-/

namespace Rzi.At.Table
variable {η : Type*}

/-- `struct rzi_at_command`; `none` is a NULL pointer, and a handler comes with its `user_data`. -/
structure Descriptor (η : Type*) where
  name : Option (List UInt8)
  help : Option (List UInt8)
  allowedOperations : UInt8
  handler : Option η
deriving DecidableEq

/-- The arguments of `rzi_at_register`: an array with its length, or NULL with a count. -/
inductive Batch (η : Type*) where
  | array (commands : List (Descriptor η))
  | null (count : Nat)

def Batch.commands : Batch η → List (Descriptor η)
  | .array commands => commands
  | .null _ => []

/-- `registered` with `command_count`, and `sealed`. -/
structure State (η : Type*) where
  registered : List (Descriptor η)
  isSealed : Bool

def State.init : State η := ⟨[], false⟩

/-- `valid_name`. -/
def nameValid : Option (List UInt8) → Bool
  | none => false
  | some name => validName name

/-- The checking loop of `rzi_at_register`, after the commands `seen` of the same call. -/
def checkCommands (registered : List (Descriptor η)) :
    List (Descriptor η) → List (Descriptor η) → Except Err Unit
  | _, [] => .ok ()
  | seen, c :: commands =>
    if !nameValid c.name || c.handler.isNone then .error .invalid
    else if c.name ∈ registered.map (·.name) then .error .already
    else if c.name ∈ seen.map (·.name) then .error .already
    else checkCommands registered (seen ++ [c]) commands

/-- `rzi_at_register`, with CONFIG_RZI_AT_MAX_COMMANDS. -/
def register (maxCommands : Nat) (batch : Batch η) (s : State η) : Except Err Unit × State η :=
  if s.isSealed then (.error .invalidState, s)
  else
    match batch with
    | .null count =>
      if count ≠ 0 ∨ maxCommands < s.registered.length + count then (.error .invalid, s) else (.ok (), s)
    | .array commands =>
      if maxCommands < s.registered.length + commands.length then (.error .invalid, s)
      else
        match checkCommands s.registered [] commands with
        | .error e => (.error e, s)
        | .ok () => (.ok (), { s with registered := s.registered ++ commands })

def registrySeal (s : State η) : State η := { s with isSealed := true }

/-- RZI_AT_OP_RUN to RZI_AT_OP_WRITE. -/
def opNumber : Operation → UInt8
  | .run => 0
  | .help => 1
  | .read => 2
  | .write => 3

def allowed (c : Descriptor η) (operation : Operation) : Bool :=
  c.allowedOperations &&& (1 <<< opNumber operation) ≠ 0

/-- What a dispatch comes to. -/
inductive Outcome (η : Type*) where
  | notFound
  | notSupported
  /-- `rzi_at_respond_value` with the help line -/
  | help (name text : List UInt8)
  | handled (handler : η) (request : Request)
deriving DecidableEq

/-- `rzi_at_dispatch`. -/
def dispatch (operation : Operation) (argument : Option (List UInt8)) (name : List UInt8) :
    List (Descriptor η) → Outcome η
  | [] => .notFound
  | c :: commands =>
    if c.name ≠ some name then dispatch operation argument name commands
    else if operation = .help then
      match c.help with
      | none => .notSupported
      | some text => .help name text
    else if !allowed c operation then .notSupported
    else
      match c.handler with
      -- a registered command has a handler
      | none => .notSupported
      | some handler => .handled handler ⟨operation, argument⟩

/-- The handlers a dispatch invokes. -/
def Outcome.invoked : Outcome η → List (η × Request)
  | .handled handler request => [(handler, request)]
  | _ => []

/-- The calls of a history. -/
inductive Act (η : Type*) where
  | register (batch : Batch η)
  | registrySeal

def next (maxCommands : Nat) (s : State η) : Act η → State η
  | .register batch => (register maxCommands batch s).2
  | .registrySeal => registrySeal s

/-- The table after a history. -/
def after (maxCommands : Nat) (acts : List (Act η)) : State η := acts.foldl (next maxCommands) .init

/-! ### What a registration checks -/

variable {maxCommands : Nat} {s : State η} {batch : Batch η} {commands seen : List (Descriptor η)}

/-- A descriptor that passed the checks of a registration. -/
structure Checked (c : Descriptor η) : Prop where
  name : ∃ name, c.name = some name ∧ validName name = true
  handler : c.handler ≠ none

theorem validName_iff {name : List UInt8} : validName name = true ↔
    name ≠ [] ∧ ∀ b ∈ name, (0x41 ≤ b ∧ b ≤ 0x5a) ∨ (0x30 ≤ b ∧ b ≤ 0x39) ∨ b = 0x5f := by
  simp [validName, or_assoc]

theorem checkCommands_ok {registered : List (Descriptor η)}
    (h : checkCommands registered seen commands = .ok ()) :
    (∀ c ∈ commands, Checked c) ∧ (commands.map (·.name)).Nodup ∧
      (∀ c ∈ commands, c.name ∉ registered.map (·.name)) ∧
      ∀ c ∈ commands, c.name ∉ seen.map (·.name) := by
  induction commands generalizing seen with
  | nil => simp
  | cons c commands ih =>
    unfold checkCommands at h
    split at h
    · cases h
    rename_i hchecked
    split at h
    · cases h
    rename_i hold
    split at h
    · cases h
    rename_i hseen
    obtain ⟨hcommands, hnodup, holds, hseens⟩ := ih h
    have hc : Checked c := by
      rw [Bool.or_eq_true, not_or] at hchecked
      refine ⟨?_, fun hnone => by simp [hnone] at hchecked⟩
      cases hn : c.name with
      | none => simp [hn, nameValid] at hchecked
      | some name => exact ⟨name, rfl, by simpa [hn, nameValid] using hchecked.1⟩
    have hfresh : ∀ d ∈ commands, d.name ≠ c.name ∧ d.name ∉ seen.map (·.name) := by
      intro d hd
      have hnot := hseens d hd
      rw [List.map_append, List.mem_append, not_or] at hnot
      exact ⟨fun heq => hnot.2 (by simp [heq]), hnot.1⟩
    refine ⟨List.forall_mem_cons.2 ⟨hc, hcommands⟩, ?_, List.forall_mem_cons.2 ⟨hold, holds⟩,
      List.forall_mem_cons.2 ⟨hseen, fun d hd => (hfresh d hd).2⟩⟩
    rw [List.map_cons, List.nodup_cons]
    refine ⟨fun hmem => ?_, hnodup⟩
    obtain ⟨d, hd, heq⟩ := List.mem_map.1 hmem
    exact (hfresh d hd).1 heq

theorem checkCommands_of {registered : List (Descriptor η)} (hchecked : ∀ c ∈ commands, Checked c)
    (hnodup : (commands.map (·.name)).Nodup) (hold : ∀ c ∈ commands, c.name ∉ registered.map (·.name))
    (hseen : ∀ c ∈ commands, c.name ∉ seen.map (·.name)) :
    checkCommands registered seen commands = .ok () := by
  induction commands generalizing seen with
  | nil => rfl
  | cons c commands ih =>
    rw [List.map_cons, List.nodup_cons] at hnodup
    obtain ⟨⟨⟨name, hname, hvalid⟩, hhandler⟩, hrest⟩ := List.forall_mem_cons.1 hchecked
    have hhandler : c.handler.isNone = false :=
      Option.isNone_eq_false_iff.2 (Option.isSome_iff_ne_none.2 hhandler)
    unfold checkCommands
    rw [if_neg (by simp [hname, nameValid, hvalid, hhandler]),
      if_neg (hold c (List.mem_cons_self ..)), if_neg (hseen c (List.mem_cons_self ..))]
    refine ih hrest hnodup.2 (fun d hd => hold d (List.mem_cons_of_mem _ hd)) fun d hd hmem => ?_
    rw [List.map_append, List.mem_append] at hmem
    rcases hmem with hmem | hmem
    · exact hseen d (List.mem_cons_of_mem _ hd) hmem
    · refine hnodup.1 (List.mem_map.2 ⟨d, hd, ?_⟩)
      simpa using hmem

/-- A registration that succeeds also succeeds where fewer commands are registered. -/
theorem register_of_fewer {registered more : List (Descriptor η)}
    (h : (register maxCommands (.array commands) ⟨registered ++ more, false⟩).1 = .ok ()) :
    (register maxCommands (.array commands) ⟨registered, false⟩).1 = .ok () := by
  unfold register at h ⊢
  dsimp only at h ⊢
  split at h
  · rename_i hsealed
    cases hsealed
  split at h
  · cases h
  rename_i hfits
  split at h
  · cases h
  rename_i hok
  obtain ⟨hchecked, hnodup, hold, hseen⟩ := checkCommands_ok hok
  have hok' : checkCommands registered [] commands = .ok () := by
    refine checkCommands_of hchecked hnodup (fun c hc hmem => hold c hc ?_) hseen
    rw [List.map_append]
    exact List.mem_append_left _ hmem
  rw [if_neg (by simp), if_neg (by rw [List.length_append] at hfits; omega), hok']

/-- A registration either fails and changes nothing, or appends its commands, which are checked, new
and within the limit. -/
theorem register_cases (maxCommands : Nat) (batch : Batch η) (s : State η) :
    (∃ e, register maxCommands batch s = (.error e, s)) ∨
      (s.isSealed = false ∧ s.registered.length + batch.commands.length ≤ maxCommands ∧
        checkCommands s.registered [] batch.commands = .ok () ∧
        register maxCommands batch s =
          (.ok (), { s with registered := s.registered ++ batch.commands })) := by
  unfold register
  split
  · exact .inl ⟨_, rfl⟩
  rename_i hopen
  have hopen : s.isSealed = false := by simpa using hopen
  cases batch with
  | null count =>
    dsimp only
    split
    · exact .inl ⟨_, rfl⟩
    · rename_i h
      refine .inr ⟨hopen, ?_, rfl, ?_⟩
      · simp only [Batch.commands, List.length_nil]
        omega
      · simp [Batch.commands]
  | array commands =>
    dsimp only
    split
    · exact .inl ⟨_, rfl⟩
    rename_i hfits
    split
    · exact .inl ⟨_, rfl⟩
    · rename_i hok
      exact .inr ⟨hopen, Nat.le_of_not_lt hfits, hok, rfl⟩

/-! ### The table over a history -/

structure Integrity (maxCommands : Nat) (s : State η) : Prop where
  checked : ∀ c ∈ s.registered, Checked c
  distinct : (s.registered.map (·.name)).Nodup
  fits : s.registered.length ≤ maxCommands

theorem integrity_init : Integrity maxCommands (State.init : State η) :=
  ⟨fun c hc => (by cases hc), List.nodup_nil, Nat.zero_le _⟩

theorem Integrity.register (h : Integrity maxCommands s) (batch : Batch η) :
    Integrity maxCommands (Table.register maxCommands batch s).2 := by
  rcases register_cases maxCommands batch s with ⟨e, heq⟩ | ⟨-, hfits, hok, heq⟩
  · rw [heq]
    exact h
  · obtain ⟨hchecked, hnodup, hold, -⟩ := checkCommands_ok hok
    rw [heq]
    refine ⟨fun c hc => ?_, ?_, ?_⟩
    · rcases List.mem_append.1 hc with hc | hc
      · exact h.checked c hc
      · exact hchecked c hc
    · show ((s.registered ++ batch.commands).map (·.name)).Nodup
      rw [List.map_append]
      refine List.nodup_append.2 ⟨h.distinct, hnodup, fun n hn m hm hnm => ?_⟩
      obtain ⟨c, hc, rfl⟩ := List.mem_map.1 hm
      exact hold c hc (hnm ▸ hn)
    · show (s.registered ++ batch.commands).length ≤ maxCommands
      rw [List.length_append]
      exact hfits

theorem integrity_after (maxCommands : Nat) (acts : List (Act η)) :
    Integrity maxCommands (after maxCommands acts) := by
  refine List.foldlRecOn acts _ integrity_init fun s h act _ => ?_
  cases act with
  | register batch => exact h.register batch
  | registrySeal => exact ⟨h.checked, h.distinct, h.fits⟩

/-- Nothing is registered after the seal. -/
theorem foldl_sealed (h : s.isSealed = true) (acts : List (Act η)) :
    acts.foldl (next maxCommands) s = s := by
  induction acts with
  | nil => rfl
  | cons act acts ih =>
    have hact : next maxCommands s act = s := by
      cases act with
      | register batch =>
        show (Table.register maxCommands batch s).2 = s
        unfold Table.register
        rw [if_pos h]
      | registrySeal =>
        show { s with isSealed := true } = s
        rw [← h]
    rw [List.foldl_cons, hact, ih]

/-! ### Dispatch -/

/-- The command behind an invocation is one with the name, and the operation is allowed for it. -/
theorem dispatch_handled {operation : Operation} {argument : Option (List UInt8)}
    {name : List UInt8} {handler : η} {request : Request}
    (h : dispatch operation argument name commands = .handled handler request) :
    request = ⟨operation, argument⟩ ∧ operation ≠ .help ∧
      ∃ c ∈ commands, c.name = some name ∧ c.handler = some handler ∧ allowed c operation = true := by
  induction commands with
  | nil => cases h
  | cons c commands ih =>
    unfold dispatch at h
    split at h
    · obtain ⟨hrequest, hop, d, hd, hrest⟩ := ih h
      exact ⟨hrequest, hop, d, List.mem_cons_of_mem _ hd, hrest⟩
    rename_i hname
    split at h
    · split at h <;> cases h
    rename_i hop
    split at h
    · cases h
    rename_i hallowed
    split at h
    · cases h
    · rename_i handler' hhandler
      cases h
      exact ⟨rfl, hop, c, List.mem_cons_self .., not_not.1 hname, hhandler, by simpa using hallowed⟩

theorem Integrity.unique (h : Integrity maxCommands s) {c d : Descriptor η}
    (hc : c ∈ s.registered) (hd : d ∈ s.registered) (hname : d.name = c.name) : d = c :=
  List.inj_on_of_nodup_map h.distinct hd hc hname

theorem Integrity.dispatch (h : Integrity maxCommands s) (operation : Operation)
    (argument : Option (List UInt8)) (name : List UInt8) :
    (Table.dispatch operation argument name s.registered).invoked.length ≤ 1 ∧
      ∀ p ∈ (Table.dispatch operation argument name s.registered).invoked,
        p.2 = ⟨operation, argument⟩ ∧ operation ≠ .help ∧
          ∃ c ∈ s.registered, c.name = some name ∧ c.handler = some p.1 ∧
            allowed c operation = true ∧ ∀ d ∈ s.registered, d.name = some name → d = c := by
  cases hout : Table.dispatch operation argument name s.registered with
  | notFound | notSupported | help _ _ => simp [Outcome.invoked]
  | handled handler request =>
    refine ⟨Nat.le_refl _, fun p hp => ?_⟩
    obtain rfl := List.mem_singleton.1 hp
    obtain ⟨hrequest, hop, c, hc, hname, hhandler, hallowed⟩ := dispatch_handled hout
    exact ⟨hrequest, hop, c, hc, hname, hhandler, hallowed,
      fun d hd hdname => h.unique hc hd (hdname.trans hname.symm)⟩

/-- The registry over every history of registrations and seals. -/
theorem registry_integrity (maxCommands : Nat) (acts : List (Act η)) :
    (∀ c ∈ (after maxCommands acts).registered, c.handler ≠ none ∧ ∃ name, c.name = some name ∧
        name ≠ [] ∧ ∀ b ∈ name, (0x41 ≤ b ∧ b ≤ 0x5a) ∨ (0x30 ≤ b ∧ b ≤ 0x39) ∨ b = 0x5f) ∧
      ((after maxCommands acts).registered.map (·.name)).Nodup ∧
      (after maxCommands acts).registered.length ≤ maxCommands ∧
      (∀ batch e, (register maxCommands batch (after maxCommands acts)).1 = .error e →
        (register maxCommands batch (after maxCommands acts)).2 = after maxCommands acts) ∧
      (∀ batch, (register maxCommands batch (after maxCommands acts)).1 = .ok () →
        (register maxCommands batch (after maxCommands acts)).2.registered =
          (after maxCommands acts).registered ++ batch.commands) ∧
      (∀ more, (after maxCommands (acts ++ .registrySeal :: more)).registered =
        (after maxCommands acts).registered) ∧
      ∀ operation argument name,
        (dispatch operation argument name (after maxCommands acts).registered).invoked.length ≤ 1 ∧
          ∀ p ∈ (dispatch operation argument name (after maxCommands acts).registered).invoked,
            p.2 = ⟨operation, argument⟩ ∧ operation ≠ .help ∧
              ∃ c ∈ (after maxCommands acts).registered, c.name = some name ∧ c.handler = some p.1 ∧
                allowed c operation = true ∧
                ∀ d ∈ (after maxCommands acts).registered, d.name = some name → d = c := by
  have h := integrity_after maxCommands acts
  refine ⟨fun c hc => ?_, h.distinct, h.fits, fun batch e he => ?_, fun batch hok => ?_,
    fun more => ?_, h.dispatch⟩
  · obtain ⟨name, hname, hvalid⟩ := (h.checked c hc).name
    exact ⟨(h.checked c hc).handler, name, hname, validName_iff.1 hvalid⟩
  · rcases register_cases maxCommands batch (after maxCommands acts) with ⟨e', heq⟩ | ⟨-, -, -, heq⟩
    · rw [heq]
    · rw [heq] at he
      cases he
  · rcases register_cases maxCommands batch (after maxCommands acts) with ⟨e', heq⟩ | ⟨-, -, -, heq⟩
    · rw [heq] at hok
      cases hok
    · rw [heq]
  · have hsplit : after maxCommands (acts ++ .registrySeal :: more) =
        more.foldl (next maxCommands) (registrySeal (after maxCommands acts)) := by
      rw [after, List.foldl_append, List.foldl_cons]
      rfl
    rw [hsplit, foldl_sealed rfl]
    rfl

/-! ### The registration of a service that has not started -/

/-- A descriptor with its handler called. -/
def toCommand {ω : Type*} (call : η → Request → At.State ω → Int × At.State ω)
    (c : Descriptor η) : Command ω where
  name := c.name.getD []
  help := c.help
  allowedOperations := [Operation.run, .help, .read, .write].filter fun operation => allowed c operation
  handler := fun request s =>
    match c.handler with
    | none => (0, s)
    | some handler => call handler request s

theorem mem_names_iff {ω : Type*} {call : η → Request → At.State ω → Int × At.State ω}
    {name : List UInt8} (hvalid : validName name = true) (commands : List (Descriptor η)) :
    name ∈ names (commands.map (toCommand call)) ↔ some name ∈ commands.map (·.name) := by
  simp only [names, List.map_map, List.mem_map, Function.comp_apply]
  constructor
  · rintro ⟨c, hc, hname⟩
    refine ⟨c, hc, ?_⟩
    cases hn : c.name with
    | none =>
      have hempty : name = [] := by simpa [toCommand, hn] using hname.symm
      rw [hempty] at hvalid
      cases hvalid
    | some n => simpa [toCommand, hn] using hname
  · rintro ⟨c, hc, hname⟩
    exact ⟨c, hc, by simp [toCommand, hname]⟩

theorem checkNames_eq {ω : Type*} (call : η → Request → At.State ω → Int × At.State ω)
    (registered seen : List (Descriptor η)) (hhandler : ∀ c ∈ commands, c.handler ≠ none) :
    checkNames (names (registered.map (toCommand call))) (names (seen.map (toCommand call)))
        (names (commands.map (toCommand call))) = checkCommands registered seen commands := by
  induction commands generalizing seen with
  | nil => rfl
  | cons c commands ih =>
    have hc : c.handler.isNone = false :=
      Option.isNone_eq_false_iff.2 (Option.isSome_iff_ne_none.2 (hhandler c (List.mem_cons_self ..)))
    have hrest : ∀ d ∈ commands, d.handler ≠ none := fun d hd => hhandler d (List.mem_cons_of_mem _ hd)
    cases hn : c.name with
    | none =>
      show checkNames _ _ (c.name.getD [] :: names (commands.map (toCommand call))) = _
      rw [hn, checkNames, checkCommands, hn]
      rfl
    | some name =>
      show checkNames _ _ (c.name.getD [] :: names (commands.map (toCommand call))) = _
      rw [hn, checkNames, checkCommands, hn, hc, Bool.or_false]
      cases hvalid : validName name with
      | false => simp [nameValid, hvalid]
      | true =>
        have hseen : names (seen.map (toCommand call)) ++ [name] =
            names ((seen ++ [c]).map (toCommand call)) := by
          simp [names, toCommand, hn]
        simp only [Option.getD_some, mem_names_iff hvalid, nameValid, hvalid, Bool.not_true,
          Bool.false_eq_true, Bool.true_eq_false, if_false, hseen, ih _ hrest]

/-- Before the seal, and on commands with handlers, the registration of `AtSystem` is this one. -/
theorem register_eq {ω : Type*} (port : Port ω) (call : η → Request → At.State ω → Int × At.State ω)
    (hopen : s.isSealed = false) (hhandler : ∀ c ∈ commands, c.handler ≠ none) :
    At.register port (s.registered.map (toCommand call)) (commands.map (toCommand call)) =
      (register port.maxCommands (.array commands) s).1.map
        fun _ => ((s.registered ++ commands).map (toCommand call)) := by
  have hcheck := checkNames_eq call s.registered [] hhandler
  unfold At.register Table.register
  rw [if_neg (c := s.isSealed = true) (by simp [hopen]), List.length_map, List.length_map]
  dsimp only
  split
  · rfl
  · rw [show names (([] : List (Descriptor η)).map (toCommand call)) = [] from rfl] at hcheck
    rw [hcheck]
    cases checkCommands s.registered [] commands with
    | error e => rfl
    | ok u => simp [Except.map]

end Rzi.At.Table
