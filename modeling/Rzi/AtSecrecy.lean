import Rzi.AtLock

/-!
# Two runs of a locked port that differ in the password

A locked port compares the password with what PWORD is given, and should tell nothing else about it.
`handle_pword` looks at the lock only after it has answered a read, so AT+PWORD=? prints the password
of a locked port. `password_secret_iff` says that this is the only leak: over any bytes that do not
unlock the port, two runs whose passwords differ cannot be told apart exactly if none of the lines
they execute is that read.
-/

namespace Rzi.At
variable {ω : Type*} {port : Port ω} {commands : List (Command ω)} {extensions : List (Extension ω)}
  {line p q : List UInt8} {s s' t : State ω}

def State.withPassword (s : State ω) (p : List UInt8) : State ω := { s with password := p }

/-- What AT+PWORD can set: at most eight characters that a line can hold in a value. -/
structure IsPassword (p : List UInt8) : Prop where
  short : p.length ≤ 8
  chars : ∀ b ∈ p, 0x20 ≤ b ∧ b ≤ 0x7e ∧ b ≠ 0x3f

def isPasswordRead (line : List UInt8) : Bool :=
  parseCommand line == some (ascii "PWORD", ⟨.read, none⟩)

/-- The same bytes have been written, and the states differ in the password at most. -/
structure Twins (s t : State ω) : Prop where
  bytes : t.out.flatten = s.out.flatten
  parser : t.parser = s.parser
  locked : t.locked = s.locked
  echoEnabled : t.echoEnabled = s.echoEnabled
  rest : t.rest = s.rest
  rebooted : t.rebooted = s.rebooted

/-- The password is not read: with another one, everything else is as it was. -/
def Blind (f : State ω → Int × State ω) : Prop :=
  ∀ s p, f (s.withPassword p) = ((f s).1, (f s).2.withPassword p)

/-- The lock and the password stay, the line editor is not touched, and output is only added. -/
structure Adds (s s' : State ω) : Prop where
  locked : s'.locked = s.locked
  password : s'.password = s.password
  parser : s'.parser = s.parser
  out : s.out <+: s'.out

/-- The factory reset hooks leave the AT service's own variables alone: no hook of the repository
calls the password, lock or parser functions of `at_priv.h`. -/
def HooksApart (extensions : List (Extension ω)) : Prop :=
  ∀ e ∈ extensions, ∀ hook, e.factoryReset = some hook → Blind hook ∧ ∀ s, Adds s (hook s).2

/-! ### What only adds output -/

theorem Adds.refl (s : State ω) : Adds s s := ⟨rfl, rfl, rfl, List.prefix_refl _⟩

theorem Adds.trans {s'' : State ω} (h : Adds s s') (h' : Adds s' s'') : Adds s s'' :=
  ⟨h'.locked.trans h.locked, h'.password.trans h.password, h'.parser.trans h.parser,
    h.out.trans h'.out⟩

theorem Adds.of_unaffected (h : Unaffected s s') (hout : s.out <+: s'.out) : Adds s s' :=
  ⟨h.locked, h.password, h.parser, hout⟩

theorem writeAll_adds (text : List UInt8) (s : State ω) : Adds s (writeAll port text s).2 :=
  .of_unaffected (writeAll_unaffected text s) (List.prefix_append _ _)

theorem respondStatus_adds (status : Status) (s : State ω) : Adds s (respondStatus port status s).2 :=
  writeAll_adds _ s

theorem respondValue_adds (text : List UInt8) (s : State ω) : Adds s (respondValue port text s).2 := by
  refine .of_unaffected (respondValue_unaffected text s) ?_
  rcases @respondValue_out ω port text s with h | h
  · exact h ▸ List.prefix_refl _
  · rw [h]
    exact List.prefix_append _ _

theorem respondForError_adds (rc : Int) (s : State ω) : Adds s (respondForError port rc s) := by
  refine .of_unaffected (respondForError_unaffected rc s) ?_
  unfold respondForError
  split_ifs
  · exact (respondStatus_adds _ s).out
  · exact (respondStatus_adds _ s).out
  · exact (respondStatus_adds _ s).out
  · exact (respondStatus_adds _ s).out
  · exact (respondStatus_adds _ s).out
  · exact List.prefix_refl _

theorem echoText_adds (text : List UInt8) (s : State ω) : Adds s (echoText port text s) := by
  unfold echoText
  split
  · exact writeAll_adds _ s
  · exact .refl s

theorem writeHelpLines_adds (cs : List (Command ω)) (s : State ω) :
    Adds s (writeHelpLines port cs s).2 := by
  induction cs generalizing s with
  | nil => exact respondStatus_adds _ s
  | cons c cs ih =>
    unfold writeHelpLines
    split
    · exact ih s
    · simp only
      split
      · exact .refl s
      · split
        · exact writeAll_adds _ s
        · exact (writeAll_adds _ s).trans (ih _)

theorem registryWriteAllHelp_adds (s : State ω) :
    Adds s (registryWriteAllHelp port commands s).2 := by
  unfold registryWriteAllHelp
  simp only
  split
  · exact writeAll_adds _ s
  · exact (writeAll_adds _ s).trans (writeHelpLines_adds _ _)

theorem HooksApart.tail {e : Extension ω} (h : HooksApart (e :: extensions)) :
    HooksApart extensions := fun f hf => h f (List.mem_cons_of_mem _ hf)

theorem runFactoryResets_adds (hapart : HooksApart extensions) (result : Int) (s : State ω) :
    Adds s (runFactoryResets extensions result s).2 := by
  induction extensions generalizing result s with
  | nil => exact .refl s
  | cons e es ih =>
    unfold runFactoryResets
    split
    · exact ih hapart.tail result s
    · rename_i hook hhook
      have hadds : Adds s (hook s).2 := (hapart e List.mem_cons_self hook hhook).2 s
      exact hadds.trans (ih hapart.tail _ _)

/-! ### What does not read the password -/

theorem writeAll_blind (text : List UInt8) : Blind (writeAll port text) := fun _ _ => rfl

theorem respondStatus_blind (status : Status) : Blind (respondStatus port status) := fun _ _ => rfl

theorem respondValue_blind (text : List UInt8) : Blind (respondValue port text) := by
  intro s p
  unfold respondValue writeFormatted
  split_ifs <;> rfl

theorem respondForError_withPassword (rc : Int) (s : State ω) (p : List UInt8) :
    respondForError port rc (s.withPassword p) = (respondForError port rc s).withPassword p := by
  unfold respondForError
  split_ifs <;> rfl

theorem echoText_withPassword (text : List UInt8) (s : State ω) (p : List UInt8) :
    echoText port text (s.withPassword p) = (echoText port text s).withPassword p := by
  unfold echoText
  change (if (port.echo && s.echoEnabled) = true then _ else _) = _
  split <;> rfl

theorem writeHelpLines_blind (cs : List (Command ω)) : Blind (writeHelpLines port cs) := by
  intro s p
  induction cs generalizing s with
  | nil => rfl
  | cons c cs ih =>
    unfold writeHelpLines
    split
    · exact ih s
    · simp only [writeAll_blind _ s p]
      split
      · rfl
      · split
        · rfl
        · exact ih _

theorem registryWriteAllHelp_blind : Blind (registryWriteAllHelp port commands) := by
  intro s p
  unfold registryWriteAllHelp
  simp only [writeAll_blind _ s p]
  split
  · rfl
  · exact writeHelpLines_blind commands _ p

theorem runFactoryResets_blind (hapart : HooksApart extensions) (result : Int) :
    Blind (runFactoryResets extensions result) := by
  intro s p
  induction extensions generalizing result s with
  | nil => rfl
  | cons e es ih =>
    unfold runFactoryResets
    split
    · exact ih hapart.tail result s
    · rename_i hook hhook
      simp only [(hapart e List.mem_cons_self hook hhook).1 s p]
      exact ih hapart.tail _ _

/-! ### The two commands a locked port accepts -/

theorem runCommand_blind {c : Command ω} {request : Request}
    (h : request.operation ∈ c.allowedOperations →
      c.handler request (s.withPassword p) =
        ((c.handler request s).1, (c.handler request s).2.withPassword p)) :
    runCommand port c request (s.withPassword p) =
      ((runCommand port c request s).1, (runCommand port c request s).2.withPassword p) := by
  unfold runCommand
  split
  · split
    · rfl
    · exact respondValue_blind _ s p
  · split
    · rfl
    · rename_i hallowed
      exact h (not_not.1 hallowed)

theorem runCommand_adds {c : Command ω} {request : Request}
    (h : request.operation ∈ c.allowedOperations → Adds s (c.handler request s).2) :
    Adds s (runCommand port c request s).2 := by
  unfold runCommand
  split
  · split
    · exact .refl s
    · exact respondValue_adds _ s
  · split
    · exact .refl s
    · rename_i hallowed
      exact h (not_not.1 hallowed)

theorem handleLock_blind (request : Request) : Blind (handleLock port request) := by
  intro s p
  unfold handleLock
  split
  · exact respondValue_blind _ s p
  · rfl

theorem handleLock_adds (hlocked : s.locked = true) (request : Request) :
    Adds s (handleLock port request s).2 := by
  refine .of_unaffected (handleLock_unaffected hlocked request) ?_
  unfold handleLock
  split
  · exact (respondValue_adds _ s).out
  · exact List.prefix_append _ _

theorem handlePword_refused (hlocked : s.locked = true) {request : Request}
    (hread : request.operation ≠ .read) (hwrong : request.argument ≠ some s.password) :
    handlePword port request s = (Err.invalid.rc, s) := by
  rw [handlePword, if_neg hread, if_pos hlocked, if_pos hwrong]

/-! ### One line -/

/-- Only a write has an argument. -/
theorem parseCommand_request {name : List UInt8} {request : Request} {operation : Operation}
    (h : parseCommand line = some (name, request)) (hop : request.operation = operation)
    (hwrite : operation ≠ .write) : request = ⟨operation, none⟩ := by
  have hargument : request.argument = none := (parseCommand_argument h).2 (by rwa [hop])
  exact congrArg₂ Request.mk hop hargument

/-- A PWORD command that reaches the handler and is no read is a write of something else. -/
theorem pword_argument_ne {request : Request}
    (hparse : parseCommand line = some (ascii "PWORD", request))
    (hallowed : request.operation ∈ (pwordCommand port).allowedOperations)
    (hread : request.operation ≠ .read) (hunlock : isUnlockLine p line = false) :
    request.argument ≠ some p := by
  intro hargument
  have hwrite : request.operation = .write := by
    rcases List.mem_cons.1 hallowed with h | h
    · exact absurd h hread
    · exact List.mem_singleton.1 h
  have hrequest : request = ⟨.write, some p⟩ := congrArg₂ Request.mk hwrite hargument
  rw [hrequest] at hparse
  rw [isUnlockLine_of_parse hparse] at hunlock
  cases hunlock

theorem operation_ne_read {request : Request}
    (hparse : parseCommand line = some (ascii "PWORD", request)) (h : isPasswordRead line = false) :
    request.operation ≠ .read := by
  intro hread
  have hrequest : request = ⟨.read, none⟩ := parseCommand_request hparse hread (by simp)
  rw [isPasswordRead, hparse, hrequest] at h
  simp at h

theorem locked_name {name : List UInt8} (hlocked : s.locked = true)
    (h : ¬ (s.locked = true ∧ name ≠ ascii "PWORD" ∧ name ≠ ascii "LOCK")) :
    name = ascii "PWORD" ∨ name = ascii "LOCK" := by
  by_contra hne
  rw [not_or] at hne
  exact h ⟨hlocked, hne⟩

theorem dispatch_pword (reg : Registry port) (request : Request) (s : State ω) :
    dispatch port reg.commands (ascii "PWORD") request s =
      runCommand port (pwordCommand port) request s := reg.dispatch_mem reg.pword_mem request s

theorem dispatch_lock (reg : Registry port) (request : Request) (s : State ω) :
    dispatch port reg.commands (ascii "LOCK") request s =
      runCommand port (lockCommand port) request s := reg.dispatch_mem reg.lock_mem request s

theorem executeCommand_adds (reg : Registry port) (hlocked : s.locked = true)
    (hunlock : isUnlockLine s.password line = false) :
    Adds s (executeCommand port reg.commands line s).1 := by
  have hrefuse : Adds s (respondStatus port .error s).2 := respondStatus_adds _ s
  refine executeCommand_cases (P := fun x => Adds s x.1) hrefuse fun name request hparse hname => ?_
  have hdispatch : Adds s (dispatch port reg.commands name request s).2 := by
    rcases hname hlocked with rfl | rfl
    · rw [dispatch_pword]
      refine runCommand_adds fun hallowed => ?_
      by_cases hread : request.operation = .read
      · change Adds s (handlePword port request s).2
        rw [handlePword, if_pos hread]
        exact respondValue_adds _ s
      · have hwrong := pword_argument_ne hparse hallowed hread hunlock
        change Adds s (handlePword port request s).2
        rw [handlePword_refused hlocked hread hwrong]
        exact .refl s
    · rw [dispatch_lock]
      exact runCommand_adds fun _ => handleLock_adds hlocked request
  exact hdispatch.trans (respondForError_adds _ _)

theorem executeCommand_withPassword (reg : Registry port) (hlocked : s.locked = true)
    (hread : isPasswordRead line = false) (hp : isUnlockLine s.password line = false)
    (hq : isUnlockLine q line = false) :
    executeCommand port reg.commands line (s.withPassword q) =
      ((executeCommand port reg.commands line s).1.withPassword q,
        (executeCommand port reg.commands line s).2) := by
  unfold executeCommand
  split
  · rfl
  · rename_i name request hparse
    change (if s.locked = true ∧ name ≠ ascii "PWORD" ∧ name ≠ ascii "LOCK" then _ else _) = _
    split
    · rfl
    · rename_i hname
      have hdispatch : dispatch port reg.commands name request (s.withPassword q) =
          ((dispatch port reg.commands name request s).1,
            (dispatch port reg.commands name request s).2.withPassword q) := by
        rcases locked_name hlocked hname with rfl | rfl
        · rw [dispatch_pword, dispatch_pword]
          refine runCommand_blind fun hallowed => ?_
          have hne := operation_ne_read hparse hread
          change handlePword port request (s.withPassword q) =
            ((handlePword port request s).1, (handlePword port request s).2.withPassword q)
          rw [handlePword_refused hlocked hne (pword_argument_ne hparse hallowed hne hp),
            handlePword_refused (s := s.withPassword q) hlocked hne
              (pword_argument_ne hparse hallowed hne hq)]
        · rw [dispatch_lock, dispatch_lock]
          exact runCommand_blind fun _ => handleLock_blind request s q
      simp only [hdispatch, respondForError_withPassword]

theorem execute_adds (reg : Registry port) (hapart : HooksApart extensions)
    (hlocked : s.locked = true) (hunlock : isUnlockLine s.password line = false) :
    Adds s (execute port reg.commands extensions line s).1 := by
  have hstatus (status : Status) (t : State ω) : Adds t (respondStatus port status t).2 :=
    respondStatus_adds _ t
  have hform := execute_form port reg.commands extensions line
  generalize execute port reg.commands extensions line = f at hform ⊢
  cases hform with
  | status => exact hstatus .ok s
  | help => exact registryWriteAllHelp_adds s
  | echo => exact ⟨rfl, rfl, rfl, List.prefix_append _ _⟩
  | text value => exact respondValue_adds value s
  | reboot => exact ⟨rfl, rfl, rfl, List.prefix_refl _⟩
  | factoryReset =>
    have hreset : Adds s (registryFactoryReset extensions s).2 := runFactoryResets_adds hapart 0 s
    simp only
    split
    · have h := hreset.trans (hstatus .ok _)
      exact ⟨h.locked, h.password, h.parser, h.out⟩
    · exact hreset.trans (hstatus _ _)
  | command => exact executeCommand_adds reg hlocked hunlock

theorem execute_withPassword (reg : Registry port) (hapart : HooksApart extensions)
    (hlocked : s.locked = true) (hread : isPasswordRead line = false)
    (hp : isUnlockLine s.password line = false) (hq : isUnlockLine q line = false) :
    execute port reg.commands extensions line (s.withPassword q) =
      ((execute port reg.commands extensions line s).1.withPassword q,
        (execute port reg.commands extensions line s).2) := by
  have hform := execute_form port reg.commands extensions line
  generalize execute port reg.commands extensions line = f at hform ⊢
  cases hform with
  | status => rfl
  | help =>
    simp only
    rw [registryWriteAllHelp_blind]
  | echo => rfl
  | text value =>
    simp only
    rw [respondValue_blind]
  | reboot => rfl
  | factoryReset =>
    have hreset : registryFactoryReset extensions (s.withPassword q) =
        ((registryFactoryReset extensions s).1,
          (registryFactoryReset extensions s).2.withPassword q) := runFactoryResets_blind hapart 0 s q
    simp only [hreset, respondStatus_blind _ _ q]
    split <;> rfl
  | command => exact executeCommand_withPassword reg hlocked hread hp hq

/-! ### A stream without a read -/

theorem perform_adds (reg : Registry port) (hapart : HooksApart extensions) {a : Action UInt8}
    (hlocked : s.locked = true)
    (hunlock : ∀ line, a = .execute line → isUnlockLine s.password line = false) :
    Adds s (perform port reg.commands extensions s a) := by
  cases a with
  | echoErase => exact echoText_adds _ s
  | echoNewline => exact echoText_adds _ s
  | echo c => exact echoText_adds _ s
  | overflowStatus => exact respondStatus_adds _ s
  | execute line => exact execute_adds reg hapart hlocked (hunlock line rfl)

theorem perform_withPassword (reg : Registry port) (hapart : HooksApart extensions)
    {a : Action UInt8} (hlocked : s.locked = true)
    (hread : ∀ line, a = .execute line → isPasswordRead line = false)
    (hunlock : ∀ line, a = .execute line →
      isUnlockLine s.password line = false ∧ isUnlockLine q line = false) :
    perform port reg.commands extensions (s.withPassword q) a =
      (perform port reg.commands extensions s a).withPassword q := by
  cases a with
  | echoErase => exact echoText_withPassword _ s q
  | echoNewline => exact echoText_withPassword _ s q
  | echo c => exact echoText_withPassword _ s q
  | overflowStatus => rfl
  | execute line =>
    obtain ⟨hp, hq⟩ := hunlock line rfl
    exact congrArg Prod.fst (execute_withPassword reg hapart hlocked (hread line rfl) hp hq)

theorem actions_adds (reg : Registry port) (hapart : HooksApart extensions)
    {as : List (Action UInt8)} (hlocked : s.locked = true)
    (hunlock : ∀ line, .execute line ∈ as → isUnlockLine s.password line = false) :
    Adds s (as.foldl (perform port reg.commands extensions) s) := by
  induction as generalizing s with
  | nil => exact .refl s
  | cons a as ih =>
    have hstep : Adds s (perform port reg.commands extensions s a) :=
      perform_adds reg hapart hlocked fun line h => hunlock line (h ▸ List.mem_cons_self)
    refine hstep.trans (ih (hstep.locked.trans hlocked) fun line h => ?_)
    rw [hstep.password]
    exact hunlock line (List.mem_cons_of_mem _ h)

theorem actions_withPassword (reg : Registry port) (hapart : HooksApart extensions)
    {as : List (Action UInt8)} (hlocked : s.locked = true)
    (hread : ∀ line, .execute line ∈ as → isPasswordRead line = false)
    (hunlock : ∀ line, .execute line ∈ as →
      isUnlockLine s.password line = false ∧ isUnlockLine q line = false) :
    as.foldl (perform port reg.commands extensions) (s.withPassword q) =
      (as.foldl (perform port reg.commands extensions) s).withPassword q := by
  induction as generalizing s with
  | nil => rfl
  | cons a as ih =>
    have hstep : Adds s (perform port reg.commands extensions s a) :=
      perform_adds reg hapart hlocked fun line h => (hunlock line (h ▸ List.mem_cons_self)).1
    rw [List.foldl_cons, List.foldl_cons, perform_withPassword reg hapart hlocked
      (fun line h => hread line (h ▸ List.mem_cons_self))
      (fun line h => hunlock line (h ▸ List.mem_cons_self))]
    refine ih (hstep.locked.trans hlocked)
      (fun line h => hread line (List.mem_cons_of_mem _ h)) fun line h => ?_
    rw [hstep.password]
    exact hunlock line (List.mem_cons_of_mem _ h)

/-- The lines among the actions are those executed, whatever each of them does. -/
theorem mem_actionExecutions {as : List (Action UInt8)} {line : List UInt8}
    (h : .execute line ∈ as) :
    ∃ x ∈ actionExecutions port commands extensions s as, x.line = line := by
  induction as generalizing s with
  | nil => cases h
  | cons a as ih =>
    rcases List.mem_cons.1 h with rfl | hmem
    · exact ⟨_, List.mem_cons_self, rfl⟩
    · cases a with
      | execute l =>
        obtain ⟨x, hx, hline⟩ := ih (s := perform port commands extensions s (.execute l)) hmem
        exact ⟨x, List.mem_cons_of_mem _ hx, hline⟩
      | _ => exact ih hmem

theorem actionExecutions_mem {as : List (Action UInt8)} {x : Execution ω}
    (h : x ∈ actionExecutions port commands extensions s as) : .execute x.line ∈ as := by
  induction as generalizing s with
  | nil => cases h
  | cons a as ih =>
    cases a with
    | execute l =>
      rcases List.mem_cons.1 h with rfl | h
      · exact List.mem_cons_self
      · exact List.mem_cons_of_mem _ (ih h)
    | _ => exact List.mem_cons_of_mem _ (ih h)

/-- None of the lines that the bytes complete is a PWORD write of the password. -/
def NoUnlock (port : Port ω) (password : List UInt8) (parser : Parser UInt8) (bs : List UInt8) :
    Prop := ∀ l ∈ (feedAll id port.lineMax parser bs).2, isUnlockLine password l.1 = false

instance decidableNoUnlock (port : Port ω) (password : List UInt8) (parser : Parser UInt8)
    (bs : List UInt8) : Decidable (NoUnlock port password parser bs) :=
  inferInstanceAs (Decidable (∀ l ∈ (feedAll id port.lineMax parser bs).2, _))

theorem NoUnlock.head {parser : Parser UInt8} {b : UInt8} {bs : List UInt8}
    (h : NoUnlock port p parser (b :: bs)) {line : List UInt8}
    (hline : .execute line ∈ (feed id port.lineMax parser b).2) : isUnlockLine p line = false :=
  h (line, b) (List.mem_append_left _ (mem_executed.2 ⟨hline, rfl⟩))

theorem NoUnlock.tail {parser : Parser UInt8} {b : UInt8} {bs : List UInt8}
    (h : NoUnlock port p parser (b :: bs)) : NoUnlock port p (feed id port.lineMax parser b).1 bs :=
  fun l hl => h l (List.mem_append_right _ hl)

theorem feedBytes_rebooted (h : s.rebooted = true) (bs : List UInt8) :
    feedBytes port commands extensions s bs = s := by
  induction bs with
  | nil => rfl
  | cons b bs ih =>
    have hb : feedByte port commands extensions s b = s := by rw [feedByte, if_pos h]
    rw [feedBytes, List.foldl_cons, hb]
    exact ih

theorem executions_rebooted (h : s.rebooted = true) (bs : List UInt8) :
    executions port commands extensions s bs = [] := by
  induction bs with
  | nil => rfl
  | cons b bs ih =>
    have hb : feedByte port commands extensions s b = s := by rw [feedByte, if_pos h]
    rw [executions, if_pos h, hb]
    exact ih

/-- A byte that does not unlock: nothing but the line editor moves, and output is added. -/
theorem feedByte_adds (reg : Registry port) (hapart : HooksApart extensions) {b : UInt8}
    {bs : List UInt8} (hlocked : s.locked = true) (hrunning : s.rebooted = false)
    (hunlock : NoUnlock port s.password s.parser (b :: bs)) :
    Adds { s with parser := (feed id port.lineMax s.parser b).1 }
      (feedByte port reg.commands extensions s b) := by
  rw [feedByte_of_running hrunning]
  exact actions_adds reg hapart hlocked fun line h => hunlock.head h

theorem feedBytes_out (reg : Registry port) (hapart : HooksApart extensions) {bs : List UInt8}
    (hlocked : s.locked = true) (hunlock : NoUnlock port s.password s.parser bs) :
    s.out <+: (feedBytes port reg.commands extensions s bs).out := by
  induction bs generalizing s with
  | nil => exact List.prefix_refl _
  | cons b bs ih =>
    cases hrunning : s.rebooted with
    | true => exact ⟨[], by rw [feedBytes_rebooted hrunning, List.append_nil]⟩
    | false =>
      have hadds := feedByte_adds reg hapart hlocked hrunning hunlock
      refine hadds.out.trans (ih (hadds.locked.trans hlocked) ?_)
      rw [hadds.password, hadds.parser]
      exact hunlock.tail

theorem feedByte_withPassword (reg : Registry port) (hapart : HooksApart extensions) {b : UInt8}
    {bs : List UInt8} (hlocked : s.locked = true) (hrunning : s.rebooted = false)
    (hp : NoUnlock port s.password s.parser (b :: bs)) (hq : NoUnlock port q s.parser (b :: bs))
    (hread : ∀ line, .execute line ∈ (feed id port.lineMax s.parser b).2 →
      isPasswordRead line = false) :
    feedByte port reg.commands extensions (s.withPassword q) b =
      (feedByte port reg.commands extensions s b).withPassword q := by
  rw [feedByte_of_running hrunning, feedByte_of_running (s := s.withPassword q) hrunning]
  exact actions_withPassword (s := { s with parser := (feed id port.lineMax s.parser b).1 })
    reg hapart hlocked hread fun line h => ⟨hp.head h, hq.head h⟩

theorem feedBytes_withPassword (reg : Registry port) (hapart : HooksApart extensions)
    {bs : List UInt8} (hlocked : s.locked = true)
    (hp : NoUnlock port s.password s.parser bs) (hq : NoUnlock port q s.parser bs)
    (hread : ∀ x ∈ executions port reg.commands extensions s bs, isPasswordRead x.line = false) :
    feedBytes port reg.commands extensions (s.withPassword q) bs =
      (feedBytes port reg.commands extensions s bs).withPassword q := by
  induction bs generalizing s with
  | nil => rfl
  | cons b bs ih =>
    cases hrunning : s.rebooted with
    | true =>
      have hrunning' : (s.withPassword q).rebooted = true := hrunning
      rw [feedBytes_rebooted hrunning, feedBytes_rebooted hrunning']
    | false =>
      rw [executions_of_running hrunning] at hread
      have hbyte := feedByte_withPassword reg hapart hlocked hrunning hp hq fun line h => by
        obtain ⟨x, hx, rfl⟩ := @mem_actionExecutions ω port reg.commands extensions
          { s with parser := (feed id port.lineMax s.parser b).1 } _ _ h
        exact hread x (List.mem_append_left _ hx)
      have hadds := feedByte_adds reg hapart hlocked hrunning hp
      rw [feedBytes, List.foldl_cons, hbyte]
      refine ih (hadds.locked.trans hlocked) ?_ ?_ fun x hx => hread x (List.mem_append_right _ hx)
      · rw [hadds.password, hadds.parser]
        exact hp.tail
      · rw [hadds.parser]
        exact hq.tail

/-! ### A stream with a read -/

/-- The reply to AT+PWORD=?. -/
def passwordReply (p : List UInt8) : List UInt8 :=
  crlf ++ (ascii "AT+PWORD=" ++ p) ++ (crlf ++ ascii "OK" ++ crlf)

/-- The outputs went apart at a reply that tells the password. -/
def Diverged (p q : List UInt8) (s t : State ω) : Prop :=
  ∃ common more more', s.out = common ++ passwordReply p :: more ∧
    t.out = common ++ passwordReply q :: more'

theorem Diverged.of_prefix {t' : State ω} (h : Diverged p q s t) (hs : s.out <+: s'.out)
    (ht : t.out <+: t'.out) : Diverged p q s' t' := by
  obtain ⟨common, more, more', hp, hq⟩ := h
  obtain ⟨ms, hms⟩ := hs
  obtain ⟨mt, hmt⟩ := ht
  refine ⟨common, more ++ ms, more' ++ mt, ?_, ?_⟩
  · rw [← hms, hp, List.append_assoc, List.cons_append]
  · rw [← hmt, hq, List.append_assoc, List.cons_append]

theorem IsPassword.takeWhile (hp : IsPassword p) (rest : List UInt8) :
    (p ++ (crlf ++ rest)).takeWhile (· ≠ 0x0d) = p := by
  have hcr : ∀ b ∈ p, (decide (b ≠ 0x0d)) = true := by
    intro b hb
    obtain ⟨hlow, -, -⟩ := hp.chars b hb
    refine decide_eq_true fun h => ?_
    rw [h] at hlow
    exact absurd hlow (by decide)
  rw [List.takeWhile_append_of_pos hcr]
  simp [crlf]

/-- A password has no CR, so the reply that tells it can be read back. -/
theorem Diverged.bytes_ne (h : Diverged p q s t) (hp : IsPassword p) (hq : IsPassword q)
    (hne : p ≠ q) : t.out.flatten ≠ s.out.flatten := by
  obtain ⟨common, more, more', hs, ht⟩ := h
  intro heq
  rw [hs, ht, List.flatten_append, List.flatten_append, List.append_cancel_left_eq,
    List.flatten_cons, List.flatten_cons] at heq
  simp only [passwordReply, List.append_assoc, List.append_cancel_left_eq] at heq
  have htake := congrArg (List.takeWhile (· ≠ 0x0d)) heq
  rw [hp.takeWhile, hq.takeWhile] at htake
  exact hne htake.symm

theorem execute_read_out (reg : Registry port) (hsize : 128 ≤ port.txBufferSize)
    (hp : s.password.length ≤ 8) (hread : isPasswordRead line = true) :
    ∃ more, (execute port reg.commands extensions line s).1.out =
      s.out ++ passwordReply s.password :: more := by
  have hparse : parseCommand line = some (ascii "PWORD", ⟨.read, none⟩) := by
    simpa [isPasswordRead] using hread
  have hreply : handlePword port ⟨.read, none⟩ s = writeAll port (passwordReply s.password) s := by
    have h₁ : (crlf : List UInt8).length = 2 := rfl
    have h₂ : (ascii "AT+PWORD=").length = 9 := rfl
    have h₃ : (crlf ++ ascii "OK" ++ crlf).length = 6 := rfl
    rw [handlePword, if_pos rfl, respondValue, writeFormatted, if_neg, if_neg, if_neg]
    · rfl
    · simp only [List.length_append, h₁, h₂, h₃]
      omega
    · simp only [List.length_append, h₁, h₂]
      omega
    · omega
  have hdispatch : dispatch port reg.commands (ascii "PWORD") ⟨.read, none⟩ s =
      writeAll port (passwordReply s.password) s := by
    rw [dispatch_pword, ← hreply]
    rfl
  obtain ⟨more, hmore⟩ := (@respondForError_adds ω port
    (writeAll port (passwordReply s.password) s).1 (writeAll port (passwordReply s.password) s).2).out
  refine ⟨more, ?_⟩
  rw [execute_of_parsed hparse, executeCommand, hparse]
  simp only [hdispatch]
  rw [if_neg (by simp), ← hmore]
  simp [writeAll]

theorem actions_diverge (reg : Registry port) (hapart : HooksApart extensions)
    (hsize : 128 ≤ port.txBufferSize) {as : List (Action UInt8)} (hlocked : s.locked = true)
    (hp : s.password.length ≤ 8) (hq : q.length ≤ 8)
    (hread : ∃ line, .execute line ∈ as ∧ isPasswordRead line = true)
    (hunlock : ∀ line, .execute line ∈ as →
      isUnlockLine s.password line = false ∧ isUnlockLine q line = false) :
    Diverged s.password q (as.foldl (perform port reg.commands extensions) s)
      (as.foldl (perform port reg.commands extensions) (s.withPassword q)) := by
  induction as generalizing s with
  | nil =>
    obtain ⟨line, hline, -⟩ := hread
    cases hline
  | cons a as ih =>
    have hlocked' : (s.withPassword q).locked = true := hlocked
    have hs : Adds s (perform port reg.commands extensions s a) :=
      perform_adds reg hapart hlocked fun line h => (hunlock line (h ▸ List.mem_cons_self)).1
    have ht : Adds (s.withPassword q) (perform port reg.commands extensions (s.withPassword q) a) :=
      perform_adds reg hapart hlocked' fun line h => (hunlock line (h ▸ List.mem_cons_self)).2
    rw [List.foldl_cons, List.foldl_cons]
    by_cases hhead : ∃ line, a = .execute line ∧ isPasswordRead line = true
    · -- the replies differ here, and what follows is only added to them
      obtain ⟨line, rfl, hline⟩ := hhead
      have hdiverged : Diverged s.password q (perform port reg.commands extensions s (.execute line))
          (perform port reg.commands extensions (s.withPassword q) (.execute line)) := by
        obtain ⟨more, hmore⟩ := @execute_read_out ω port extensions line s reg hsize hp hline
        obtain ⟨more', hmore'⟩ :=
          @execute_read_out ω port extensions line (s.withPassword q) reg hsize hq hline
        exact ⟨s.out, more, more', hmore, hmore'⟩
      refine hdiverged.of_prefix ?_ ?_
      · refine (actions_adds reg hapart (hs.locked.trans hlocked) fun l h => ?_).out
        rw [hs.password]
        exact (hunlock l (List.mem_cons_of_mem _ h)).1
      · refine (actions_adds reg hapart (ht.locked.trans hlocked) fun l h => ?_).out
        rw [ht.password]
        exact (hunlock l (List.mem_cons_of_mem _ h)).2
    · have hnot : ∀ line, a = .execute line → isPasswordRead line = false := fun line h =>
        Bool.of_not_eq_true fun hline => hhead ⟨line, h, hline⟩
      rw [perform_withPassword reg hapart hlocked hnot
        fun line h => hunlock line (h ▸ List.mem_cons_self)]
      rw [← hs.password] at hp hunlock ⊢
      refine ih (hs.locked.trans hlocked) hp ?_ fun l h => hunlock l (List.mem_cons_of_mem _ h)
      obtain ⟨line, hmem, hline⟩ := hread
      rcases List.mem_cons.1 hmem with heq | hmem
      · exact absurd ⟨line, heq.symm, hline⟩ hhead
      · exact ⟨line, hmem, hline⟩

theorem feedBytes_diverge (reg : Registry port) (hapart : HooksApart extensions)
    (hsize : 128 ≤ port.txBufferSize) {bs : List UInt8} (hlocked : s.locked = true)
    (hp : s.password.length ≤ 8) (hq : q.length ≤ 8)
    (hnop : NoUnlock port s.password s.parser bs) (hnoq : NoUnlock port q s.parser bs)
    (hread : ∃ x ∈ executions port reg.commands extensions s bs, isPasswordRead x.line = true) :
    Diverged s.password q (feedBytes port reg.commands extensions s bs)
      (feedBytes port reg.commands extensions (s.withPassword q) bs) := by
  induction bs generalizing s with
  | nil =>
    obtain ⟨x, hx, -⟩ := hread
    cases hx
  | cons b bs ih =>
    cases hrunning : s.rebooted with
    | true =>
      obtain ⟨x, hx, -⟩ := hread
      rw [executions_rebooted hrunning] at hx
      cases hx
    | false =>
      have hs := feedByte_adds reg hapart hlocked hrunning hnop
      have ht : Adds { s.withPassword q with parser := (feed id port.lineMax s.parser b).1 }
          (feedByte port reg.commands extensions (s.withPassword q) b) :=
        feedByte_adds (s := s.withPassword q) reg hapart hlocked hrunning hnoq
      by_cases hhead : ∃ line, .execute line ∈ (feed id port.lineMax s.parser b).2 ∧
          isPasswordRead line = true
      · have hbyte : Diverged s.password q (feedByte port reg.commands extensions s b)
            (feedByte port reg.commands extensions (s.withPassword q) b) := by
          rw [feedByte_of_running hrunning, feedByte_of_running (s := s.withPassword q) hrunning]
          exact actions_diverge (s := { s with parser := (feed id port.lineMax s.parser b).1 })
            reg hapart hsize hlocked hp hq hhead fun line h => ⟨hnop.head h, hnoq.head h⟩
        refine hbyte.of_prefix ?_ ?_
        · refine feedBytes_out reg hapart (hs.locked.trans hlocked) ?_
          rw [hs.password, hs.parser]
          exact hnop.tail
        · refine feedBytes_out reg hapart (ht.locked.trans hlocked) ?_
          rw [ht.password, ht.parser]
          exact hnoq.tail
      · have hnot : ∀ line, .execute line ∈ (feed id port.lineMax s.parser b).2 →
            isPasswordRead line = false := fun line h =>
          Bool.of_not_eq_true fun hline => hhead ⟨line, h, hline⟩
        have hbyte := feedByte_withPassword reg hapart hlocked hrunning hnop hnoq hnot
        have hpassword : (feedByte port reg.commands extensions s b).password = s.password :=
          hs.password
        rw [feedBytes, feedBytes, List.foldl_cons, List.foldl_cons, hbyte, ← hpassword]
        refine ih (hs.locked.trans hlocked) (hpassword ▸ hp) ?_ ?_ ?_
        · rw [hs.password, hs.parser]
          exact hnop.tail
        · rw [hs.parser]
          exact hnoq.tail
        · obtain ⟨x, hx, hline⟩ := hread
          rw [executions_of_running hrunning] at hx
          rcases List.mem_append.1 hx with hx | hx
          · exact absurd ⟨x.line, actionExecutions_mem hx, hline⟩ hhead
          · exact ⟨x, hx, hline⟩

/-! ### The two runs -/

/-- **What a locked port tells about its password.** Bytes that unlock neither of two ports that
differ in the password leave them alike exactly if none of the executed lines reads the password. -/
theorem password_secret_iff (port : Port ω) (reg : Registry port) (s : State ω) (q bs : List UInt8)
    (hapart : HooksApart reg.extensions) (hsize : 128 ≤ port.txBufferSize)
    (hlocked : s.locked = true) (hp : IsPassword s.password) (hq : IsPassword q)
    (hne : s.password ≠ q) (hnop : NoUnlock port s.password s.parser bs)
    (hnoq : NoUnlock port q s.parser bs) :
    Twins (feedBytes port reg.commands reg.extensions s bs)
        (feedBytes port reg.commands reg.extensions (s.withPassword q) bs) ↔
      ∀ x ∈ executions port reg.commands reg.extensions s bs, isPasswordRead x.line = false := by
  constructor
  · intro htwins x hx
    by_contra hread
    have hdiverged := feedBytes_diverge reg hapart hsize hlocked hp.short hq.short hnop hnoq
      ⟨x, hx, Bool.of_not_eq_false hread⟩
    exact hdiverged.bytes_ne hp hq hne htwins.bytes
  · intro hread
    rw [feedBytes_withPassword reg hapart hlocked hnop hnoq hread]
    exact ⟨rfl, rfl, rfl, rfl, rfl, rfl⟩

theorem no_hooks_apart : HooksApart plainRegistry.extensions := fun _ h => by cases h

/-- A locked port prints its password. -/
theorem locked_port_tells_password : ¬ ∀ (s : State Unit) (q bs : List UInt8), s.locked = true →
    IsPassword s.password → IsPassword q → s.password ≠ q →
    NoUnlock plainPort s.password s.parser bs → NoUnlock plainPort q s.parser bs →
    Twins (feedBytes plainPort plainRegistry.commands plainRegistry.extensions s bs)
      (feedBytes plainPort plainRegistry.commands plainRegistry.extensions (s.withPassword q) bs) := by
  intro h
  have htwins := h lockedPort (ascii "other") (ascii "AT+PWORD=?\r") rfl
    ⟨by decide, by decide +kernel⟩ ⟨by decide, by decide +kernel⟩ (by decide)
    (by decide) (by decide)
  have hbytes := htwins.bytes
  exact absurd hbytes (by decide)

theorem locked_port_keeps_password :
    Twins (feedBytes plainPort plainRegistry.commands plainRegistry.extensions lockedPort
        (ascii "AT+PWORD=guess\rAT+LOCK=?\rAT+PWORD?\r"))
      (feedBytes plainPort plainRegistry.commands plainRegistry.extensions
        (lockedPort.withPassword (ascii "other")) (ascii "AT+PWORD=guess\rAT+LOCK=?\rAT+PWORD?\r")) :=
  (password_secret_iff plainPort plainRegistry lockedPort (ascii "other") _ no_hooks_apart
    (by decide) rfl ⟨by decide, by decide +kernel⟩
    ⟨by decide, by decide +kernel⟩ (by decide) (by decide)
    (by decide)).2 (by decide)

end Rzi.At
