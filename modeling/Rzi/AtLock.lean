import Rzi.AtGrammar
import Rzi.AtSystem

/-!
# What a locked port still does

AT+LOCK is meant to leave only PWORD and LOCK accepted. `execute` tests the lock after it has matched
the eight forms without a `+`, so these are carried out on a locked port too. Everything else is
refused: `lock_confines_iff` says that a byte stream without the unlocking line leaves the service
alone exactly if none of the lines it completes is one of the eight.
-/

namespace Rzi.At
variable {ω : Type*} {port : Port ω} {commands : List (Command ω)} {extensions : List (Extension ω)}
  {line password : List UInt8} {s s' : State ω}

/-- The lines `execute` matches before the lock test. -/
def fixedForms : List (List UInt8) :=
  [ascii "AT", ascii "AT?", ascii "ATE", ascii "ATE?", ascii "ATZ", ascii "ATZ?", ascii "ATR",
    ascii "ATR?"]

def isFixedForm (line : List UInt8) : Bool := fixedForms.contains (line.map upper)

/-- `AT+PWORD=` in any case, and the password. -/
def isUnlockLine (password line : List UInt8) : Bool :=
  (line.take 9).map upper == ascii "AT+PWORD=" && line.drop 9 == password

/-- A well-formed PWORD or LOCK command. -/
def isLockLine (line : List UInt8) : Bool :=
  (parseCommand line).any fun c => c.1 == ascii "PWORD" || c.1 == ascii "LOCK"

structure Unaffected (s s' : State ω) : Prop where
  parser : s'.parser = s.parser
  locked : s'.locked = s.locked
  echoEnabled : s'.echoEnabled = s.echoEnabled
  password : s'.password = s.password
  rest : s'.rest = s.rest
  rebooted : s'.rebooted = s.rebooted

/-- The line has no effect besides its reply and, unless it is a PWORD or LOCK command, it is refused:
nothing is called, and the reply is AT_ERROR. -/
structure Execution.Confined (x : Execution ω) : Prop where
  unaffected : Unaffected x.before x.after
  refused : isLockLine x.line = false →
    x.after.out = x.before.out ++ [statusText .error] ∧ x.calls = []

/-- Every executed line is confined, and after each byte nothing but the line editor and the output
has changed. -/
def Confines (port : Port ω) (commands : List (Command ω)) (extensions : List (Extension ω))
    (s : State ω) (bs : List UInt8) : Prop :=
  (∀ x ∈ executions port commands extensions s bs, x.Confined) ∧
    ∀ pre, pre <+: bs → Unaffected { s with parser := (feedAll id port.lineMax s.parser pre).1 }
      (feedBytes port commands extensions s pre)

/-! ### Replies -/

theorem Unaffected.refl (s : State ω) : Unaffected s s := ⟨rfl, rfl, rfl, rfl, rfl, rfl⟩

theorem Unaffected.trans {s'' : State ω} (h : Unaffected s s') (h' : Unaffected s' s'') :
    Unaffected s s'' :=
  ⟨h'.parser.trans h.parser, h'.locked.trans h.locked, h'.echoEnabled.trans h.echoEnabled,
    h'.password.trans h.password, h'.rest.trans h.rest, h'.rebooted.trans h.rebooted⟩

/-- The line editor moves on in between. -/
theorem Unaffected.trans_parser {s'' : State ω} {p p' : Parser UInt8}
    (h : Unaffected { s with parser := p } s') (h' : Unaffected { s' with parser := p' } s'') :
    Unaffected { s with parser := p' } s'' :=
  ⟨h'.parser, h'.locked.trans h.locked, h'.echoEnabled.trans h.echoEnabled,
    h'.password.trans h.password, h'.rest.trans h.rest, h'.rebooted.trans h.rebooted⟩

theorem writeAll_unaffected (text : List UInt8) (s : State ω) :
    Unaffected s (writeAll port text s).2 := ⟨rfl, rfl, rfl, rfl, rfl, rfl⟩

theorem respondStatus_unaffected (status : Status) (s : State ω) :
    Unaffected s (respondStatus port status s).2 := writeAll_unaffected _ s

theorem echoText_unaffected (text : List UInt8) (s : State ω) :
    Unaffected s (echoText port text s) := by
  unfold echoText
  split
  · exact writeAll_unaffected _ s
  · exact .refl s

theorem respondValue_unaffected (text : List UInt8) (s : State ω) :
    Unaffected s (respondValue port text s).2 := by
  unfold respondValue writeFormatted
  split_ifs
  · exact .refl s
  · exact .refl s
  · exact .refl s
  · exact writeAll_unaffected _ s

theorem respondForError_unaffected (rc : Int) (s : State ω) :
    Unaffected s (respondForError port rc s) := by
  unfold respondForError
  split_ifs
  · exact respondStatus_unaffected _ s
  · exact respondStatus_unaffected _ s
  · exact respondStatus_unaffected _ s
  · exact respondStatus_unaffected _ s
  · exact respondStatus_unaffected _ s
  · exact .refl s

/-! ### The two commands a locked port accepts -/

theorem runCommand_unaffected {c : Command ω} {request : Request}
    (h : request.operation ∈ c.allowedOperations → Unaffected s (c.handler request s).2) :
    Unaffected s (runCommand port c request s).2 := by
  unfold runCommand
  split
  · split
    · exact .refl s
    · exact respondValue_unaffected _ s
  · split
    · exact .refl s
    · rename_i hallowed
      exact h (not_not.1 hallowed)

theorem handleLock_unaffected (hlocked : s.locked = true) (request : Request) :
    Unaffected s (handleLock port request s).2 := by
  unfold handleLock
  split
  · exact respondValue_unaffected _ s
  · have hset : Unaffected s { s with locked := true } := ⟨rfl, hlocked.symm, rfl, rfl, rfl, rfl⟩
    exact hset.trans (respondStatus_unaffected _ _)

theorem dispatch_lock_unaffected (reg : Registry port) (s : State ω) (hlocked : s.locked = true)
    (request : Request) : Unaffected s (dispatch port reg.commands (ascii "LOCK") request s).2 := by
  have hdispatch := reg.dispatch_mem reg.lock_mem request s
  rw [show ascii "LOCK" = (lockCommand port).name from rfl, hdispatch]
  exact runCommand_unaffected fun _ => handleLock_unaffected hlocked request

theorem handlePword_unaffected (hlocked : s.locked = true) {request : Request}
    (hwrong : request ≠ ⟨.write, some s.password⟩)
    (hallowed : request.operation ∈ (pwordCommand port).allowedOperations) :
    Unaffected s (handlePword port request s).2 := by
  unfold handlePword
  split
  · exact respondValue_unaffected _ s
  · rename_i hread
    have hargument : request.argument ≠ some s.password := by
      intro hargument
      rcases List.mem_cons.1 hallowed with h | h
      · exact hread h
      · exact hwrong (congrArg₂ Request.mk (List.mem_singleton.1 h) hargument)
    rw [if_pos hargument]
    exact .refl s

theorem dispatch_pword_unaffected (reg : Registry port) (s : State ω) (hlocked : s.locked = true)
    {request : Request} (hwrong : request ≠ ⟨.write, some s.password⟩) :
    Unaffected s (dispatch port reg.commands (ascii "PWORD") request s).2 := by
  have hdispatch := reg.dispatch_mem reg.pword_mem request s
  rw [show ascii "PWORD" = (pwordCommand port).name from rfl, hdispatch]
  exact runCommand_unaffected fun hallowed => handlePword_unaffected hlocked hwrong hallowed

/-! ### Parsing -/

/-- The only write to PWORD that matches the password is the unlocking line. -/
theorem isUnlockLine_of_parse
    (h : parseCommand line = some (ascii "PWORD", ⟨.write, some password⟩)) :
    isUnlockLine password line = true := by
  obtain ⟨name, hcommand, hname⟩ := commandLine_of_parse h
  cases hcommand with
  | @intro head _ _ _ hhead _ hending =>
    cases hending with
    | write =>
      have hfront : (head ++ name ++ ascii "=").map upper = ascii "AT+PWORD=" := by
        rw [List.map_append, List.map_append, hhead, ← hname]
        rfl
      have hnine : (head ++ name ++ ascii "=").length = 9 := by
        rw [← List.length_map upper, hfront]
        rfl
      rw [isUnlockLine, Bool.and_eq_true, beq_iff_eq, beq_iff_eq, ← List.append_assoc,
        List.take_left' hnine, List.drop_left' hnine]
      exact ⟨hfront, rfl⟩

theorem isFixedForm_iff : isFixedForm line = true ↔ line.map upper ∈ fixedForms := by
  rw [isFixedForm, List.contains_iff_mem]

theorem map_upper_fixed : ∀ form ∈ fixedForms, form.map upper = form := by decide

theorem equalsIgnoreCase_fixed {form : List UInt8} (hform : form ∈ fixedForms) (line : List UInt8) :
    equalsIgnoreCase line form = true ↔ line.map upper = form := by
  have hnul : ∀ f ∈ fixedForms, (0 : UInt8) ∉ f := by decide
  rw [equalsIgnoreCase_iff (hnul form hform), map_upper_fixed form hform]

theorem parseCommand_of_fixed (h : isFixedForm line = true) : parseCommand line = none := by
  have hplus : ∀ form ∈ fixedForms, form.take 3 ≠ ascii "AT+" := by decide
  unfold parseCommand
  rw [if_pos]
  rw [ne_eq, asciiCasecmpN_at, List.map_take]
  exact hplus _ (isFixedForm_iff.1 h)

/-! ### One line -/

theorem execute_of_not_fixed (h : isFixedForm line = false) :
    execute port commands extensions line s = executeCommand port commands line s := by
  have hne : ∀ form ∈ fixedForms, ¬ equalsIgnoreCase line form = true := by
    intro form hmem heq
    rw [equalsIgnoreCase_fixed hmem] at heq
    rw [isFixedForm_iff.2 (heq ▸ hmem)] at h
    cases h
  simp only [execute, fixedForms, List.forall_mem_cons] at hne ⊢
  obtain ⟨h₁, h₂, h₃, h₄, h₅, h₆, h₇, h₈, -⟩ := hne
  rw [if_neg h₁, if_neg h₂, if_neg h₃, if_neg h₄, if_neg h₅, if_neg h₆, if_neg h₇, if_neg h₈]

/-- A fixed form is carried out as it is written, whatever the case of the line. -/
theorem execute_of_fixed (h : isFixedForm line = true) :
    execute port commands extensions line s =
      execute port commands extensions (line.map upper) s := by
  have hidem : (line.map upper).map upper = line.map upper :=
    map_upper_fixed _ (isFixedForm_iff.1 h)
  have hcongr : ∀ form ∈ fixedForms,
      equalsIgnoreCase line form = equalsIgnoreCase (line.map upper) form := by
    intro form hmem
    rw [Bool.eq_iff_iff, equalsIgnoreCase_fixed hmem, equalsIgnoreCase_fixed hmem, hidem]
  have hlast : executeCommand port commands line s = executeCommand port commands (line.map upper) s := by
    have h' : isFixedForm (line.map upper) = true := by
      rw [isFixedForm, hidem]
      exact h
    rw [executeCommand, executeCommand, parseCommand_of_fixed h, parseCommand_of_fixed h']
  simp only [fixedForms, List.forall_mem_cons] at hcongr
  obtain ⟨h₁, h₂, h₃, h₄, h₅, h₆, h₇, h₈, -⟩ := hcongr
  rw [execute, execute, h₁, h₂, h₃, h₄, h₅, h₆, h₇, h₈, hlast]

theorem execute_of_parsed {c : List UInt8 × Request} (h : parseCommand line = some c) :
    execute port commands extensions line s = executeCommand port commands line s := by
  refine execute_of_not_fixed ?_
  by_contra hfixed
  rw [parseCommand_of_fixed (Bool.of_not_eq_false hfixed)] at h
  cases h

/-- What a line does, which its text alone decides. -/
inductive Form (port : Port ω) (commands : List (Command ω)) (extensions : List (Extension ω))
    (line : List UInt8) : (State ω → State ω × List Call) → Prop
  | status : Form port commands extensions line fun s => ((respondStatus port .ok s).2, [])
  | help : Form port commands extensions line fun s => ((registryWriteAllHelp port commands s).2, [])
  | echo : Form port commands extensions line fun s =>
      ((respondStatus port .ok { s with echoEnabled := !s.echoEnabled }).2,
        [.setEcho (!s.echoEnabled)])
  | text (value : List UInt8) : Form port commands extensions line fun s =>
      ((respondValue port value s).2, [])
  | reboot : Form port commands extensions line fun s => ({ s with rebooted := true }, [.reboot])
  | factoryReset : Form port commands extensions line fun s =>
      let (rc, s₁) := registryFactoryReset extensions s
      let s₂ := (respondStatus port (if rc = 0 then .ok else .error) s₁).2
      if rc = 0 then ({ s₂ with rebooted := true }, [.factoryReset, .reboot])
      else (s₂, [.factoryReset])
  | command : Form port commands extensions line (executeCommand port commands line)

theorem execute_form (port : Port ω) (commands : List (Command ω)) (extensions : List (Extension ω))
    (line : List UInt8) :
    Form port commands extensions line (execute port commands extensions line) := by
  change Form port commands extensions line fun s => execute port commands extensions line s
  simp only [execute]
  cases equalsIgnoreCase line (ascii "AT")
  · cases equalsIgnoreCase line (ascii "AT?")
    · cases equalsIgnoreCase line (ascii "ATE")
      · cases equalsIgnoreCase line (ascii "ATE?")
        · cases equalsIgnoreCase line (ascii "ATZ")
          · cases equalsIgnoreCase line (ascii "ATZ?")
            · cases equalsIgnoreCase line (ascii "ATR")
              · cases equalsIgnoreCase line (ascii "ATR?")
                · exact .command
                · exact .text _
              · exact .factoryReset
            · exact .text _
          · exact .reboot
        · exact .text _
      · exact .echo
    · exact .help
  · exact .status

/-- A line is refused with an error status, or its command is dispatched, which on a locked port is
PWORD or LOCK. -/
theorem executeCommand_cases {P : State ω × List Call → Prop}
    (hrefuse : P ((respondStatus port .error s).2, []))
    (hdispatch : ∀ name request, parseCommand line = some (name, request) →
      (s.locked = true → name = ascii "PWORD" ∨ name = ascii "LOCK") →
        P (respondForError port (dispatch port commands name request s).1
          (dispatch port commands name request s).2, [.dispatch name request])) :
    P (executeCommand port commands line s) := by
  unfold executeCommand
  split
  · exact hrefuse
  · rename_i name request hparse
    split
    · exact hrefuse
    · rename_i hname
      refine hdispatch name request hparse fun hlocked => ?_
      by_contra hne
      rw [not_or] at hne
      exact hname ⟨hlocked, hne⟩

/-- A locked port refuses every line that is neither a fixed form nor a PWORD or LOCK command. -/
theorem execute_confined (reg : Registry port) (hlocked : s.locked = true)
    (hfixed : isFixedForm line = false) (hunlock : isUnlockLine s.password line = false) :
    (executionOf port reg.commands extensions line s).Confined := by
  have hreply : Unaffected s (respondStatus port .error s).2 := respondStatus_unaffected _ s
  have hrefuse : Execution.Confined ⟨line, s, (respondStatus port .error s).2, []⟩ :=
    ⟨hreply, fun _ => ⟨rfl, rfl⟩⟩
  rw [executionOf, execute_of_not_fixed hfixed]
  refine executeCommand_cases (P := fun x => Execution.Confined ⟨line, s, x.1, x.2⟩) hrefuse
    fun name request hparse hname => ?_
  have hnames := hname hlocked
  have hlock : isLockLine line = true := by
    simpa [isLockLine, hparse] using hnames
  refine ⟨?_, fun h => absurd (h.symm.trans hlock) Bool.false_ne_true⟩
  have hdispatch : Unaffected s (dispatch port reg.commands name request s).2 := by
    rcases hnames with rfl | rfl
    · refine dispatch_pword_unaffected reg s hlocked fun hreq => ?_
      rw [hreq] at hparse
      rw [isUnlockLine_of_parse hparse] at hunlock
      cases hunlock
    · exact dispatch_lock_unaffected reg s hlocked request
  exact hdispatch.trans (respondForError_unaffected _ _)

theorem respondValue_out (text : List UInt8) (s : State ω) :
    (respondValue port text s).2.out = s.out ∨
      (respondValue port text s).2.out = s.out ++ [crlf ++ text ++ (crlf ++ ascii "OK" ++ crlf)] := by
  unfold respondValue writeFormatted
  split_ifs
  · exact .inl rfl
  · exact .inl rfl
  · exact .inl rfl
  · exact .inr rfl

theorem writeHelpLines_out (cs : List (Command ω)) (s : State ω) :
    ∃ more, (writeHelpLines port cs s).2.out = s.out ++ more := by
  induction cs generalizing s with
  | nil => exact ⟨[statusText .ok], rfl⟩
  | cons c cs ih =>
    unfold writeHelpLines
    split
    · exact ih s
    · simp only
      split
      · exact ⟨[], by simp⟩
      · split
        · exact ⟨_, rfl⟩
        · obtain ⟨more, hmore⟩ := ih (writeAll port _ s).2
          exact ⟨_ :: more, hmore.trans (List.append_assoc _ _ _)⟩

theorem registryWriteAllHelp_out (s : State ω) :
    ∃ more, (registryWriteAllHelp port commands s).2.out = s.out ++ helpHeader :: more := by
  unfold registryWriteAllHelp
  simp only
  split
  · exact ⟨[], rfl⟩
  · obtain ⟨more, hmore⟩ := @writeHelpLines_out ω port commands (writeAll port helpHeader s).2
    exact ⟨more, hmore.trans (List.append_assoc _ _ _)⟩

theorem not_confined_of_fixed (h : isFixedForm line = true) :
    ¬ (executionOf port commands extensions line s).Confined := by
  intro hconfined
  have hlock : isLockLine line = false := by
    rw [isLockLine, parseCommand_of_fixed h]
    rfl
  obtain ⟨hout, hcalls⟩ := hconfined.refused hlock
  simp only [executionOf, execute_of_fixed h] at hout hcalls
  -- a help text of a fixed form is no refusal, even where it is too long to be sent
  have hhelp (text : List UInt8)
      (htext : crlf ++ text ++ (crlf ++ ascii "OK" ++ crlf) ≠ statusText .error) :
      (respondValue port text s).2.out ≠ s.out ++ [statusText .error] := by
    intro heq
    rcases @respondValue_out ω port text s with ho | ho <;> rw [ho] at heq
    · simp at heq
    · exact htext (List.singleton_inj.1 (List.append_cancel_left heq))
  have hform := isFixedForm_iff.1 h
  simp only [fixedForms, List.mem_cons, List.not_mem_nil, or_false] at hform
  rcases hform with hf | hf | hf | hf | hf | hf | hf | hf <;> rw [hf] at hout hcalls
  · have hne : statusText .ok ≠ statusText .error := by decide
    exact hne (List.singleton_inj.1 (List.append_cancel_left hout))
  · obtain ⟨more, hmore⟩ := @registryWriteAllHelp_out ω port commands s
    have hne : helpHeader ≠ statusText .error := by decide
    exact hne (List.cons.inj (List.append_cancel_left (hmore.symm.trans hout))).1
  · cases hcalls
  · exact hhelp _ (by decide) hout
  · cases hcalls
  · exact hhelp _ (by decide) hout
  · -- the reset is called, whatever its hooks return
    change (if (registryFactoryReset extensions s).1 = 0 then (_, [Call.factoryReset, .reboot])
      else (_, [Call.factoryReset])).2 = [] at hcalls
    split at hcalls <;> cases hcalls
  · exact hhelp _ (by decide) hout

/-! ### A byte, and a stream -/

theorem mem_executed {p : Parser UInt8} {b : UInt8} {l : List UInt8 × UInt8} {lineMax : Nat} :
    l ∈ executed id lineMax p b ↔ .execute l.1 ∈ (feed id lineMax p b).2 ∧ l.2 = b := by
  simp only [executed, List.mem_filterMap]
  constructor
  · rintro ⟨a, ha, heq⟩
    cases a <;> cases heq
    exact ⟨ha, rfl⟩
  · rintro ⟨hl, rfl⟩
    exact ⟨_, hl, rfl⟩

theorem perform_unaffected {a : Action UInt8} (ha : ∀ line, a ≠ .execute line) (s : State ω) :
    Unaffected s (perform port commands extensions s a) := by
  cases a with
  | echoErase => exact echoText_unaffected _ s
  | echoNewline => exact echoText_unaffected _ s
  | echo c => exact echoText_unaffected _ s
  | overflowStatus => exact respondStatus_unaffected _ s
  | execute line => exact absurd rfl (ha line)

theorem actions_confined (reg : Registry port) {as : List (Action UInt8)}
    (hlocked : s.locked = true)
    (hlines : ∀ line, .execute line ∈ as →
      isFixedForm line = false ∧ isUnlockLine s.password line = false) :
    (∀ x ∈ actionExecutions port reg.commands extensions s as, x.Confined) ∧
      Unaffected s (as.foldl (perform port reg.commands extensions) s) := by
  induction as generalizing s with
  | nil => exact ⟨by simp [actionExecutions], .refl s⟩
  | cons a as ih =>
    have hrest (t : State ω) (ht : Unaffected s t) :
        (∀ x ∈ actionExecutions port reg.commands extensions t as, x.Confined) ∧
          Unaffected t (as.foldl (perform port reg.commands extensions) t) := by
      refine ih (ht.locked.trans hlocked) fun line hline => ?_
      rw [ht.password]
      exact hlines line (List.mem_cons_of_mem _ hline)
    by_cases hexec : ∃ line, a = .execute line
    · obtain ⟨line, rfl⟩ := hexec
      obtain ⟨hfixed, hunlock⟩ := hlines line (by simp)
      have hconfined : (executionOf port reg.commands extensions line s).Confined :=
        execute_confined reg hlocked hfixed hunlock
      obtain ⟨hxs, hun⟩ := hrest _ hconfined.unaffected
      refine ⟨fun x hx => ?_, hconfined.unaffected.trans hun⟩
      rcases List.mem_cons.1 hx with rfl | hx
      · exact hconfined
      · exact hxs x hx
    · have hne : ∀ line, a ≠ .execute line := fun line h => hexec ⟨line, h⟩
      have hstep : Unaffected s (perform port reg.commands extensions s a) :=
        perform_unaffected hne s
      obtain ⟨hxs, hun⟩ := hrest _ hstep
      refine ⟨?_, hstep.trans hun⟩
      cases a <;> first | exact hxs | exact absurd rfl (hne _)

theorem actions_not_fixed {as : List (Action UInt8)}
    (h : ∀ x ∈ actionExecutions port commands extensions s as, x.Confined) :
    ∀ line, .execute line ∈ as → isFixedForm line = false := by
  induction as generalizing s with
  | nil => simp
  | cons a as ih =>
    intro line hline
    cases a with
    | execute l =>
      rcases List.mem_cons.1 hline with heq | hline
      · cases heq
        by_contra hfixed
        exact not_confined_of_fixed (Bool.of_not_eq_false hfixed) (h _ List.mem_cons_self)
      · exact ih (fun x hx => h x (List.mem_cons_of_mem _ hx)) line hline
    | _ =>
      rcases List.mem_cons.1 hline with heq | hline
      · cases heq
      · exact ih h line hline

theorem feedByte_of_running (hrunning : s.rebooted = false) (b : UInt8) :
    feedByte port commands extensions s b =
      (feed id port.lineMax s.parser b).2.foldl (perform port commands extensions)
        { s with parser := (feed id port.lineMax s.parser b).1 } := by
  rw [feedByte, if_neg (by rw [hrunning]; exact Bool.false_ne_true)]

theorem executions_of_running (hrunning : s.rebooted = false) (b : UInt8) (bs : List UInt8) :
    executions port commands extensions s (b :: bs) =
      actionExecutions port commands extensions
          { s with parser := (feed id port.lineMax s.parser b).1 }
          (feed id port.lineMax s.parser b).2 ++
        executions port commands extensions (feedByte port commands extensions s b) bs := by
  rw [executions, if_neg (by rw [hrunning]; exact Bool.false_ne_true)]

theorem byte_confined (reg : Registry port) {b : UInt8} (hlocked : s.locked = true)
    (hrunning : s.rebooted = false)
    (hlines : ∀ l ∈ executed id port.lineMax s.parser b,
      isFixedForm l.1 = false ∧ isUnlockLine s.password l.1 = false) :
    (∀ x ∈ actionExecutions port reg.commands extensions
        { s with parser := (feed id port.lineMax s.parser b).1 } (feed id port.lineMax s.parser b).2,
      x.Confined) ∧
      Unaffected { s with parser := (feed id port.lineMax s.parser b).1 }
        (feedByte port reg.commands extensions s b) := by
  rw [feedByte_of_running hrunning]
  exact actions_confined reg hlocked fun line hline =>
    hlines (line, b) (mem_executed.2 ⟨hline, rfl⟩)

theorem stream_confined (reg : Registry port) {bs : List UInt8} (hlocked : s.locked = true)
    (hrunning : s.rebooted = false)
    (hlines : ∀ l ∈ (feedAll id port.lineMax s.parser bs).2,
      isFixedForm l.1 = false ∧ isUnlockLine s.password l.1 = false) :
    Confines port reg.commands extensions s bs := by
  induction bs generalizing s with
  | nil =>
    refine ⟨by simp [executions], fun pre hpre => ?_⟩
    rw [List.prefix_nil.1 hpre]
    exact .refl _
  | cons b bs ih =>
    rw [feedAll_cons] at hlines
    obtain ⟨hxs, hun⟩ := @byte_confined ω port extensions s reg b hlocked hrunning fun l hl =>
      hlines l (List.mem_append_left _ hl)
    have hrest := ih (hun.locked.trans hlocked) (hun.rebooted.trans hrunning) (by
      rw [hun.parser, hun.password]
      exact fun l hl => hlines l (List.mem_append_right _ hl))
    refine ⟨fun x hx => ?_, fun pre hpre => ?_⟩
    · rw [executions_of_running hrunning] at hx
      rcases List.mem_append.1 hx with hx | hx
      · exact hxs x hx
      · exact hrest.1 x hx
    · rcases List.prefix_cons_iff.1 hpre with rfl | ⟨pre', rfl, hpre'⟩
      · exact .refl _
      · have h := hrest.2 pre' hpre'
        rw [hun.parser] at h
        exact hun.trans_parser h

theorem stream_not_fixed (reg : Registry port) {bs : List UInt8} (hlocked : s.locked = true)
    (hrunning : s.rebooted = false)
    (hunlock : ∀ l ∈ (feedAll id port.lineMax s.parser bs).2, isUnlockLine s.password l.1 = false)
    (h : ∀ x ∈ executions port reg.commands extensions s bs, x.Confined) :
    ∀ l ∈ (feedAll id port.lineMax s.parser bs).2, isFixedForm l.1 = false := by
  induction bs generalizing s with
  | nil => simp
  | cons b bs ih =>
    rw [executions_of_running hrunning] at h
    rw [feedAll_cons] at hunlock ⊢
    have hfirst : ∀ l ∈ executed id port.lineMax s.parser b, isFixedForm l.1 = false := fun l hl =>
      actions_not_fixed (fun x hx => h x (List.mem_append_left _ hx)) l.1 (mem_executed.1 hl).1
    -- with no fixed form in it, the first byte leaves the port locked and running
    obtain ⟨-, hun⟩ := @byte_confined ω port extensions s reg b hlocked hrunning fun l hl =>
      ⟨hfirst l hl, hunlock l (List.mem_append_left _ hl)⟩
    intro l hl
    rcases List.mem_append.1 hl with hl | hl
    · exact hfirst l hl
    · refine ih (hun.locked.trans hlocked) (hun.rebooted.trans hrunning) ?_
        (fun x hx => h x (List.mem_append_right _ hx)) l ?_
      · rw [hun.parser, hun.password]
        exact fun l hl => hunlock l (List.mem_append_right _ hl)
      · rw [hun.parser]
        exact hl

/-- **What the lock confines.** A byte stream that does not unlock a locked port is confined exactly
if none of the lines it completes is one of the eight fixed forms. -/
theorem lock_confines_iff (port : Port ω) (reg : Registry port) (s : State ω) (bs : List UInt8)
    (hlocked : s.locked = true) (hrunning : s.rebooted = false)
    (hunlock : ∀ l ∈ (feedAll id port.lineMax s.parser bs).2, isUnlockLine s.password l.1 = false) :
    Confines port reg.commands reg.extensions s bs ↔
      ∀ l ∈ (feedAll id port.lineMax s.parser bs).2, isFixedForm l.1 = false := by
  constructor
  · intro h
    exact stream_not_fixed reg hlocked hrunning hunlock h.1
  · intro h
    exact stream_confined reg hlocked hrunning fun l hl => ⟨h l hl, hunlock l hl⟩

def plainPort : Port Unit := ⟨600, 640, 160, true, fun _ => 0, none⟩

def plainRegistry : Registry plainPort where
  commands := systemCommands plainPort fun _ _ s => (0, s)
  extensions := []
  started := by
    have hreg : register plainPort [] (systemCommands plainPort fun _ _ s => (0, s)) =
        .ok (systemCommands plainPort fun _ _ s => (0, s)) := by
      have hcheck : checkNames (names ([] : List (Command Unit))) []
          (names (systemCommands plainPort fun _ _ s => (0, s))) = .ok () := by decide
      rw [register, if_neg (by decide), hcheck]
      rfl
    refine ⟨fun _ _ s => (0, s), [], [], ?_⟩
    rw [builtinRegister, applicationRegister, hreg]
    rfl

def lockedPort : State Unit := ⟨.reset, true, true, ascii "secret", (), [], false⟩

/-- ATZ reboots a locked device. -/
theorem locked_port_reboots : ¬ ∀ (s : State Unit) (bs : List UInt8),
    s.locked = true → s.rebooted = false →
    (∀ l ∈ (feedAll id plainPort.lineMax s.parser bs).2, isUnlockLine s.password l.1 = false) →
    Confines plainPort plainRegistry.commands plainRegistry.extensions s bs := by
  intro h
  have hconfines := h lockedPort (ascii "ATZ\r") rfl rfl (by decide)
  have hrunning := (hconfines.2 _ (List.prefix_refl _)).rebooted
  have hreboot : (feedBytes plainPort plainRegistry.commands plainRegistry.extensions lockedPort
      (ascii "ATZ\r")).rebooted = true := by decide
  exact absurd (hreboot.symm.trans hrunning) (by decide)

theorem locked_port_refuses :
    Confines plainPort plainRegistry.commands plainRegistry.extensions lockedPort
      (ascii "AT+VER=?\rAT+PWORD=wrong\rat+lock=?\r") :=
  (lock_confines_iff plainPort plainRegistry lockedPort _ rfl rfl (by decide)).2 (by decide)

end Rzi.At
