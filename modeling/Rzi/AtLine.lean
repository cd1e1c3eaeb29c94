import Rzi.AtLock

/-!
# What a line is

A line is one of the eight fixed forms, a command line of the grammar, or nothing of these. Every line
is of exactly one of these classes (`class_unique`), and its class decides what `execute` does with it
(`execute_by_grammar`).
-/

namespace Rzi.At
variable {ω : Type*} {port : Port ω} {commands : List (Command ω)} {extensions : List (Extension ω)}
  {line name : List UInt8} {request : Request} {s : State ω}

/-! ### The classes -/

inductive FixedForm where
  | bare | bareHelp | ate | ateHelp | atz | atzHelp | atr | atrHelp

def FixedForm.text : FixedForm → List UInt8
  | .bare => ascii "AT"
  | .bareHelp => ascii "AT?"
  | .ate => ascii "ATE"
  | .ateHelp => ascii "ATE?"
  | .atz => ascii "ATZ"
  | .atzHelp => ascii "ATZ?"
  | .atr => ascii "ATR"
  | .atrHelp => ascii "ATR?"

/-- A line as the grammar sees it; a command's name is in upper case. -/
inductive LineClass where
  | fixed (form : FixedForm)
  | command (name : List UInt8) (request : Request)
  | other

/-- The line is of the class. -/
inductive Classified (line : List UInt8) : LineClass → Prop
  | fixed {form : FixedForm} (h : line.map upper = form.text) : Classified line (.fixed form)
  | command {name : List UInt8} {request : Request} (h : CommandLine line name request) :
      Classified line (.command (name.map upper) request)
  | other (hfixed : ∀ form : FixedForm, line.map upper ≠ form.text)
      (hcommand : ∀ name request, ¬ CommandLine line name request) : Classified line .other

/-! ### What a class leads to -/

/-- The action of a fixed form, with the calls it makes. -/
def FixedForm.action (port : Port ω) (commands : List (Command ω)) (extensions : List (Extension ω))
    (s : State ω) : FixedForm → State ω × List Call
  | .bare => ((respondStatus port .ok s).2, [])
  | .bareHelp => ((registryWriteAllHelp port commands s).2, [])
  | .ate => ((respondStatus port .ok { s with echoEnabled := !s.echoEnabled }).2,
      [.setEcho (!s.echoEnabled)])
  | .ateHelp => ((respondValue port (ascii "ATE: show or hide the AT command input") s).2, [])
  | .atz => ({ s with rebooted := true }, [.reboot])
  | .atzHelp => ((respondValue port (ascii "ATZ: triggers a reset on the MCU.") s).2, [])
  | .atr =>
    let (rc, s') := registryFactoryReset extensions s
    if rc = 0 then ({ (respondStatus port .ok s').2 with rebooted := true }, [.factoryReset, .reboot])
    else ((respondStatus port .error s').2, [.factoryReset])
  | .atrHelp => ((respondValue port (ascii "ATR: restore default parameters") s).2, [])

/-- AT_ERROR, and nothing is called. -/
def refusal (port : Port ω) (s : State ω) : State ω × List Call :=
  ((respondStatus port .error s).2, [])

/-- One call to `rzi_at_dispatch`, and the reply to its return code. -/
def dispatched (port : Port ω) (commands : List (Command ω)) (name : List UInt8) (request : Request)
    (s : State ω) : State ω × List Call :=
  (respondForError port (dispatch port commands name request s).1
    (dispatch port commands name request s).2, [.dispatch name request])

def LineClass.outcome (port : Port ω) (commands : List (Command ω)) (extensions : List (Extension ω))
    (s : State ω) : LineClass → State ω × List Call
  | .fixed form => form.action port commands extensions s
  | .command name request =>
    if s.locked = false ∨ name = ascii "PWORD" ∨ name = ascii "LOCK" then
      dispatched port commands name request s
    else refusal port s
  | .other => refusal port s

/-! ### Every line is of one class -/

theorem FixedForm.text_mem (form : FixedForm) : form.text ∈ fixedForms := by
  cases form <;> decide

theorem mem_fixedForms {text : List UInt8} :
    text ∈ fixedForms ↔ ∃ form : FixedForm, form.text = text := by
  constructor
  · intro h
    simp only [fixedForms, List.mem_cons, List.not_mem_nil, or_false] at h
    rcases h with h | h | h | h | h | h | h | h
    exacts [⟨.bare, h.symm⟩, ⟨.bareHelp, h.symm⟩, ⟨.ate, h.symm⟩, ⟨.ateHelp, h.symm⟩, ⟨.atz, h.symm⟩,
      ⟨.atzHelp, h.symm⟩, ⟨.atr, h.symm⟩, ⟨.atrHelp, h.symm⟩]
  · rintro ⟨form, rfl⟩
    exact form.text_mem

theorem FixedForm.text_injective : Function.Injective FixedForm.text := by
  intro form form' h
  cases form <;> cases form' <;> first | rfl | exact absurd h (by decide)

theorem isFixedForm_of_text {form : FixedForm} (h : line.map upper = form.text) :
    isFixedForm line = true := isFixedForm_iff.2 (h ▸ form.text_mem)

theorem CommandLine.ne_text (h : CommandLine line name request) (form : FixedForm) :
    line.map upper ≠ form.text := by
  intro hform
  have hnone := parseCommand_of_fixed (isFixedForm_of_text hform)
  rw [h.parse] at hnone
  cases hnone

theorem class_unique (line : List UInt8) : ∃! c, Classified line c := by
  by_cases hfixed : ∃ form : FixedForm, line.map upper = form.text
  · obtain ⟨form, hform⟩ := hfixed
    refine ⟨_, .fixed hform, fun c hc => ?_⟩
    cases hc with
    | fixed h => rw [FixedForm.text_injective (h.symm.trans hform)]
    | command h => exact absurd hform (h.ne_text form)
    | other h _ => exact absurd hform (h form)
  by_cases hcommand : ∃ name request, CommandLine line name request
  · obtain ⟨name, request, hline⟩ := hcommand
    refine ⟨_, .command hline, fun c hc => ?_⟩
    cases hc with
    | fixed h => exact absurd ⟨_, h⟩ hfixed
    | command h =>
      -- two readings of one line are what `parseCommand` finds
      obtain ⟨hname, rfl⟩ := Prod.mk.inj (Option.some.inj (h.parse.symm.trans hline.parse))
      rw [hname]
    | other _ h => exact absurd hline (h name request)
  · refine ⟨.other, .other (not_exists.1 hfixed) fun name request h => hcommand ⟨name, request, h⟩,
      fun c hc => ?_⟩
    cases hc with
    | fixed h => exact absurd ⟨_, h⟩ hfixed
    | command h => exact absurd ⟨_, _, h⟩ hcommand
    | other => rfl

/-! ### What `execute` does with it -/

theorem execute_fixed {form : FixedForm} (h : line.map upper = form.text) :
    execute port commands extensions line s = form.action port commands extensions s := by
  rw [execute_of_fixed (isFixedForm_of_text h), h]
  cases form with
  | bare => rfl
  | bareHelp => rfl
  | ate => rfl
  | ateHelp => rfl
  | atz => rfl
  | atzHelp => rfl
  | atr =>
    -- the reply is chosen before the return code is looked at again
    have hcode (rc : Int) (s' : State ω) :
        (if rc = 0 then
          ({ (respondStatus port (if rc = 0 then .ok else .error) s').2 with rebooted := true },
            [Call.factoryReset, .reboot])
        else ((respondStatus port (if rc = 0 then .ok else .error) s').2, [.factoryReset])) =
          if rc = 0 then
            ({ (respondStatus port .ok s').2 with rebooted := true }, [.factoryReset, .reboot])
          else ((respondStatus port .error s').2, [.factoryReset]) := by
      by_cases hrc : rc = 0
      · rw [if_pos hrc, if_pos hrc, if_pos hrc]
      · rw [if_neg hrc, if_neg hrc, if_neg hrc]
    exact hcode _ _
  | atrHelp => rfl

theorem execute_command (h : CommandLine line name request) :
    execute port commands extensions line s =
      (LineClass.command (name.map upper) request).outcome port commands extensions s := by
  rw [execute_of_parsed h.parse, executeCommand, h.parse]
  simp only [LineClass.outcome]
  by_cases haccepted : s.locked = false ∨ name.map upper = ascii "PWORD" ∨ name.map upper = ascii "LOCK"
  · rw [if_pos haccepted, if_neg]
    · rfl
    · rintro ⟨hlocked, hpword, hlock⟩
      rcases haccepted with h | h | h
      · rw [h] at hlocked
        cases hlocked
      · exact hpword h
      · exact hlock h
  · rw [if_neg haccepted, if_pos]
    · rfl
    · rw [not_or, not_or] at haccepted
      exact ⟨Bool.of_not_eq_false haccepted.1, haccepted.2⟩

theorem execute_other (hfixed : ∀ form : FixedForm, line.map upper ≠ form.text)
    (hcommand : ∀ name request, ¬ CommandLine line name request) :
    execute port commands extensions line s = refusal port s := by
  have hnot : isFixedForm line = false := by
    by_contra h
    obtain ⟨form, hform⟩ := mem_fixedForms.1 (isFixedForm_iff.1 (Bool.of_not_eq_false h))
    exact hfixed form hform.symm
  have hnone : parseCommand line = none := by
    by_contra h
    obtain ⟨⟨upperName, request⟩, hparse⟩ := Option.ne_none_iff_exists'.1 h
    obtain ⟨name, hline, -⟩ := commandLine_of_parse hparse
    exact hcommand name request hline
  rw [execute_of_not_fixed hnot, executeCommand, hnone]
  rfl

/-- **The grammar decides.** Every line is of exactly one class, and its class decides what `execute`
does: the action of a fixed form, one dispatch of a command that the lock lets through, AT_ERROR. -/
theorem execute_by_grammar (port : Port ω) (commands : List (Command ω))
    (extensions : List (Extension ω)) (line : List UInt8) :
    (∃! c, Classified line c) ∧ ∀ c, Classified line c → ∀ s : State ω,
      execute port commands extensions line s = c.outcome port commands extensions s := by
  refine ⟨class_unique line, fun c hc s => ?_⟩
  cases hc with
  | fixed h => exact execute_fixed h
  | command h => exact execute_command h
  | other hfixed hcommand => exact execute_other hfixed hcommand

/-- `AT+` and a name in any case, and a value with a second `=` in it. -/
theorem execute_by_grammar_value :
    (execute plainPort plainRegistry.commands plainRegistry.extensions (ascii "at+Pword=Ab=c")
      { lockedPort with locked := false }).2 =
        [.dispatch (ascii "PWORD") ⟨.write, some (ascii "Ab=c")⟩] := by
  have hname : IsName (ascii "Pword") := ⟨by decide, by decide, by decide⟩
  have hline : CommandLine (ascii "at+" ++ ascii "Pword" ++ (ascii "=" ++ ascii "Ab=c"))
      (ascii "Pword") ⟨.write, some (ascii "Ab=c")⟩ :=
    .intro (by decide) hname (.write (by decide) (by decide))
  have hupper : (ascii "Pword").map upper = ascii "PWORD" := by decide
  have hexecute := (execute_by_grammar plainPort plainRegistry.commands plainRegistry.extensions
    (ascii "at+Pword=Ab=c")).2 _ (.command hline) { lockedPort with locked := false }
  rw [hexecute, hupper]
  rfl

end Rzi.At
