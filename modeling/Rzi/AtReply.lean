import Rzi.AtLock
import Rzi.Lib.Lines

/-!
# The final status of a line

A host sends a line and reads until it sees a final status. `Answered` says that the output for a
line has exactly one line that is a status and ends with it, and that AT? lists the help of every
command. `line_answered_iff` says when: the help printer of AT? gives up on a help line of 160
characters without a status, and a help text may have a line of its own that reads like a status.
-/

namespace Rzi.At
open Lines
variable {ω : Type*} {port : Port ω} {commands : List (Command ω)} {extensions : List (Extension ω)}
  {line text : List UInt8} {texts : List (List UInt8)} {s s' : State ω}

def statuses : List Status :=
  [.ok, .error, .paramError, .busyError, .noNetworkJoined, .testParamOverflow]

def isStatusLine (l : List UInt8) : Bool := statuses.any (·.name == l)

/-- No line of the text reads like a status. -/
def Plain (text : List UInt8) : Prop := ∀ l ∈ lines text, isStatusLine l = false

/-- The text has one line that is a status, and ends with it. -/
def OneStatus (text : List UInt8) : Prop :=
  ∃ front status, lines text = front ++ [Status.name status, []] ∧ ∀ l ∈ front, isStatusLine l = false

/-- What is written between the two states has one status, at its end. -/
def Replied (s s' : State ω) : Prop := ∃ texts, s'.out = s.out ++ texts ∧ OneStatus texts.flatten

/-- What `rzi_at_dispatch` and the help printer write of a command. -/
def helpText (c : Command ω) (help : List UInt8) : List UInt8 :=
  ascii "AT+" ++ c.name ++ ascii ": " ++ help

/-- The help of every command that has one, in the order of the table. -/
def helpTexts (commands : List (Command ω)) : List (List UInt8) :=
  commands.filterMap fun c => c.help.map (helpText c)

/-- The output is the list of all commands, and OK. -/
def Listed (commands : List (Command ω)) (s s' : State ω) : Prop :=
  ∃ texts, s'.out = s.out ++ texts ∧ texts.flatten =
    helpHeader ++ (helpTexts commands).flatMap (· ++ crlf) ++ statusText .ok

/-- The line has one final status, and AT? lists the commands. -/
structure Answered (port : Port ω) (commands : List (Command ω)) (extensions : List (Extension ω))
    (line : List UInt8) (s : State ω) : Prop where
  replied : Replied s (execute port commands extensions line s).1
  listed : equalsIgnoreCase line (ascii "AT?") = true →
    Listed commands s (execute port commands extensions line s).1

/-- A handler writes one reply and returns 0, or writes nothing and fails, or reboots. -/
def Obeys (c : Command ω) : Prop :=
  ∀ request s, (c.handler request s).2.rebooted = true ∨
    ((c.handler request s).1 = 0 ∧ Replied s (c.handler request s).2) ∨
    ((c.handler request s).1 ≠ 0 ∧ (c.handler request s).2.out = s.out)

/-- The hooks of ATR write nothing. -/
def HooksSilent (extensions : List (Extension ω)) : Prop :=
  ∀ e ∈ extensions, ∀ hook, e.factoryReset = some hook → ∀ s, (hook s).2.out = s.out

/-- The help text that a request to a command asks for. -/
def commandHelp (c : Command ω) (request : Request) : Option (List UInt8) :=
  if request.operation = .help then c.help.map (helpText c) else none

/-- The help text that a line asks for. -/
def askedHelp (commands : List (Command ω)) (line : List UInt8) (s : State ω) : Option (List UInt8) :=
  match parseCommand line with
  | none => none
  | some (name, request) =>
    if s.locked = true ∧ name ≠ ascii "PWORD" ∧ name ≠ ascii "LOCK" then none
    else (commands.find? (·.name == name)).bind (commandHelp · request)

/-- The value fits in the buffer of `write_formatted`. -/
def Fits (port : Port ω) (text : List UInt8) : Prop := text.length + 8 < port.txBufferSize

instance (port : Port ω) (text : List UInt8) : Decidable (Fits port text) :=
  inferInstanceAs (Decidable (_ < _))

/-- The help that the line prints fits, where AT? needs it to, and none of its lines reads like a
status. -/
structure HelpFits (port : Port ω) (commands : List (Command ω)) (line : List UInt8) (s : State ω) :
    Prop where
  all : equalsIgnoreCase line (ascii "AT?") = true →
    ∀ text ∈ helpTexts commands, text.length + 2 < 160 ∧ Plain text
  asked : ∀ text, askedHelp commands line s = some text → Fits port text → Plain text

/-! ### Statuses in a text -/

theorem isStatusLine_name (status : Status) : isStatusLine status.name = true := by
  cases status <;> decide

theorem isStatusLine_nil : isStatusLine [] = false := by decide

theorem oneStatus_iff {front : List (List UInt8)} {status : Status}
    (h : lines text = front ++ [status.name, []]) :
    OneStatus text ↔ ∀ l ∈ front, isStatusLine l = false := by
  constructor
  · rintro ⟨front', status', h', hfront⟩
    rw [h] at h'
    rw [(List.append_inj' h' rfl).1]
    exact hfront
  · exact fun hfront => ⟨front, status, h, hfront⟩

theorem lines_name (status : Status) : lines status.name = [status.name] :=
  lines_of_not_mem (by cases status <;> decide)

theorem lines_statusText (status : Status) : lines (statusText status) = [[]] ++ [status.name, []] := by
  have h : statusText status = crLf ++ (status.name ++ (crLf ++ [])) := by
    simp [statusText, crlf, crLf]
  rw [h, lines_crLf, lines_append_crLf, lines_name]
  rfl

theorem oneStatus_statusText (status : Status) : OneStatus (statusText status) :=
  (oneStatus_iff (lines_statusText status)).2 (by simp [isStatusLine_nil])

/-- A value has one status unless a line of it reads like one. -/
theorem oneStatus_value (text : List UInt8) :
    OneStatus (crlf ++ text ++ (crlf ++ ascii "OK" ++ crlf)) ↔ Plain text := by
  have h : crlf ++ text ++ (crlf ++ ascii "OK" ++ crlf) =
      crLf ++ (text ++ (crLf ++ (Status.ok.name ++ (crLf ++ [])))) := by
    simp [crlf, crLf, Status.name]
  have hlines : lines (crlf ++ text ++ (crlf ++ ascii "OK" ++ crlf)) =
      ([] :: lines text) ++ [Status.ok.name, []] := by
    rw [h, lines_crLf, lines_append_crLf, lines_append_crLf, lines_name]
    rfl
  rw [oneStatus_iff hlines, List.forall_mem_cons, isStatusLine_nil]
  exact ⟨fun h => h.2, fun h => ⟨rfl, h⟩⟩

theorem replied_iff (h : s'.out = s.out ++ texts) : Replied s s' ↔ OneStatus texts.flatten := by
  constructor
  · rintro ⟨texts', h', hone⟩
    rw [h] at h'
    rw [List.append_cancel_left h']
    exact hone
  · exact fun hone => ⟨texts, h, hone⟩

theorem Replied.congr {r : State ω} (h : Replied r s') (hr : r.out = s.out) : Replied s s' := by
  obtain ⟨texts, hout, hone⟩ := h
  exact ⟨texts, by rw [← hr, hout], hone⟩

theorem respondStatus_replied (port : Port ω) (status : Status) (s : State ω) :
    Replied s (respondStatus port status s).2 := by
  have hout : (respondStatus port status s).2.out = s.out ++ [statusText status] := rfl
  refine (replied_iff hout).2 ?_
  simpa using oneStatus_statusText status

/-- An error is answered with one status. -/
theorem respondForError_replied {rc : Int} (h : rc ≠ 0) (s : State ω) :
    Replied s (respondForError port rc s) := by
  unfold respondForError
  split_ifs
  · exact respondStatus_replied port _ s
  · exact respondStatus_replied port _ s
  · exact respondStatus_replied port _ s
  · exact respondStatus_replied port _ s
  · exact respondStatus_replied port _ s

theorem respondForError_zero (s : State ω) : respondForError port 0 s = s := by
  unfold respondForError
  rw [if_neg (by decide), if_neg (by decide), if_neg (by decide), if_neg (by decide),
    if_neg (by decide)]

/-- `rzi_at_respond_value` writes a value that fits the buffer together with its frame. -/
theorem respondValue_eq (text : List UInt8) (s : State ω) : respondValue port text s =
    if Fits port text then writeAll port (crlf ++ text ++ (crlf ++ ascii "OK" ++ crlf)) s
    else (Err.overflow.rc, s) := by
  have hcrlf : crlf.length = 2 := rfl
  have hsuffix : (crlf ++ ascii "OK" ++ crlf).length = 6 := by decide
  unfold respondValue writeFormatted
  by_cases hfits : Fits port text
  · have hlt : text.length + 8 < port.txBufferSize := hfits
    rw [if_pos hfits, if_neg (by omega), if_neg (by omega), if_neg (by omega)]
  · rw [if_neg hfits]
    split_ifs
    · rfl
    · rfl
    · rfl
    · exact absurd (show text.length + 8 < port.txBufferSize by omega) hfits

/-- A value is written as a whole or not at all. -/
theorem respondValue_cases (hwrite : ∀ out, port.writeRc out = 0) (text : List UInt8) (s : State ω) :
    (Fits port text ∧ (respondValue port text s).1 = 0 ∧
        (Replied s (respondValue port text s).2 ↔ Plain text)) ∨
      (¬ Fits port text ∧ (respondValue port text s).1 ≠ 0 ∧ (respondValue port text s).2 = s) := by
  rw [respondValue_eq]
  by_cases hfits : Fits port text
  · rw [if_pos hfits]
    refine .inl ⟨hfits, hwrite _, ?_⟩
    have hout : (writeAll port (crlf ++ text ++ (crlf ++ ascii "OK" ++ crlf)) s).2.out =
        s.out ++ [crlf ++ text ++ (crlf ++ ascii "OK" ++ crlf)] := rfl
    rw [replied_iff hout, ← oneStatus_value]
    simp
  · rw [if_neg hfits]
    exact .inr ⟨hfits, Err.overflow.rc_ne_zero, rfl⟩

theorem respondValue_replied (hwrite : ∀ out, port.writeRc out = 0) (hfits : Fits port text)
    (hplain : Plain text) (s : State ω) : Replied s (respondValue port text s).2 := by
  rcases respondValue_cases hwrite text s with ⟨-, -, h⟩ | ⟨h, -⟩
  · exact h.2 hplain
  · exact absurd hfits h

theorem plain_echo : Plain (ascii "ATE: show or hide the AT command input") := by
  unfold Plain
  decide

theorem plain_reset : Plain (ascii "ATZ: triggers a reset on the MCU.") := by
  unfold Plain
  decide

theorem plain_restore : Plain (ascii "ATR: restore default parameters") := by
  unfold Plain
  decide

/-! ### Commands -/

section Commands
variable {c : Command ω} {name : List UInt8} {request : Request}

theorem runCommand_replied_iff (hwrite : ∀ out, port.writeRc out = 0) (hobeys : Obeys c)
    (hrun : (runCommand port c request s).2.rebooted = false) :
    Replied s (respondForError port (runCommand port c request s).1 (runCommand port c request s).2) ↔
      ∀ text, commandHelp c request = some text → Fits port text → Plain text := by
  unfold commandHelp
  unfold runCommand at hrun ⊢
  by_cases hhelp : request.operation = .help
  · simp only [if_pos hhelp]
    cases hc : c.help with
    | none => exact iff_of_true (respondForError_replied Err.notSupported.rc_ne_zero s) nofun
    | some help =>
      simp only [Option.map_some, Option.some.injEq, forall_eq']
      change Replied s (respondForError port (respondValue port (helpText c help) s).1
        (respondValue port (helpText c help) s).2) ↔ _
      rcases respondValue_cases hwrite (helpText c help) s with ⟨hfits, hrc, hplain⟩ | ⟨hfits, hrc, hout⟩
      · rw [hrc, respondForError_zero, hplain]
        exact ⟨fun h _ => h, fun h => h hfits⟩
      · rw [hout]
        exact iff_of_true (respondForError_replied hrc s) fun h => absurd h hfits
  · simp only [if_neg hhelp] at hrun ⊢
    refine iff_of_true ?_ nofun
    split
    · exact respondForError_replied Err.notSupported.rc_ne_zero s
    · rename_i hallowed
      rw [if_neg hallowed] at hrun
      rcases hobeys request s with hreboot | ⟨hrc, h⟩ | ⟨hrc, h⟩
      · exact absurd (hrun.symm.trans hreboot) Bool.false_ne_true
      · rw [hrc, respondForError_zero]
        exact h
      · exact (respondForError_replied hrc _).congr h

theorem dispatch_replied_iff (hwrite : ∀ out, port.writeRc out = 0)
    (hobeys : ∀ c ∈ commands, Obeys c)
    (hrun : (dispatch port commands name request s).2.rebooted = false) :
    Replied s (respondForError port (dispatch port commands name request s).1
        (dispatch port commands name request s).2) ↔
      ∀ text, (commands.find? (·.name == name)).bind (commandHelp · request) = some text →
        Fits port text → Plain text := by
  unfold dispatch at hrun ⊢
  cases hfind : commands.find? (·.name == name) with
  | none => exact iff_of_true (respondForError_replied Err.notFound.rc_ne_zero s) nofun
  | some c =>
    simp only [hfind] at hrun
    exact runCommand_replied_iff hwrite (hobeys c (List.mem_of_find?_eq_some hfind)) hrun

/-- A command is answered with one status, unless it prints a help text that reads like one. -/
theorem executeCommand_replied_iff (hwrite : ∀ out, port.writeRc out = 0)
    (hobeys : ∀ c ∈ commands, Obeys c)
    (hrun : (executeCommand port commands line s).1.rebooted = false) :
    Replied s (executeCommand port commands line s).1 ↔
      ∀ text, askedHelp commands line s = some text → Fits port text → Plain text := by
  unfold askedHelp
  unfold executeCommand at hrun ⊢
  cases hparse : parseCommand line with
  | none => exact iff_of_true (respondStatus_replied port _ s) nofun
  | some parsed =>
    obtain ⟨name, request⟩ := parsed
    simp only [hparse] at hrun ⊢
    by_cases hlock : s.locked = true ∧ name ≠ ascii "PWORD" ∧ name ≠ ascii "LOCK"
    · simp only [if_pos hlock]
      exact iff_of_true (respondStatus_replied port _ s) nofun
    · simp only [if_neg hlock] at hrun ⊢
      have hkeep : Unaffected (dispatch port commands name request s).2
          (respondForError port (dispatch port commands name request s).1
            (dispatch port commands name request s).2) := respondForError_unaffected _ _
      exact dispatch_replied_iff hwrite hobeys (hkeep.rebooted.symm.trans hrun)

end Commands

/-! ### AT? -/

theorem helpTexts_cons (c : Command ω) (cs : List (Command ω)) :
    helpTexts (c :: cs) = (c.help.map (helpText c)).toList ++ helpTexts cs := by
  unfold helpTexts
  rw [List.filterMap_cons]
  cases c.help with
  | none => rfl
  | some help => rfl

/-- The help printer writes the help of all commands and OK, or stops before a line that is too
long. -/
theorem writeHelpLines_cases (hwrite : ∀ out, port.writeRc out = 0) (cs : List (Command ω))
    (s : State ω) :
    ((∀ text ∈ helpTexts cs, text.length + 2 < 160) ∧ (writeHelpLines port cs s).2.out =
        s.out ++ ((helpTexts cs).map (· ++ crlf) ++ [statusText .ok])) ∨
      ((∃ text ∈ helpTexts cs, ¬ text.length + 2 < 160) ∧ ∃ front back,
        helpTexts cs = front ++ back ∧
          (writeHelpLines port cs s).2.out = s.out ++ front.map (· ++ crlf)) := by
  induction cs generalizing s with
  | nil => exact .inl ⟨nofun, rfl⟩
  | cons c cs ih =>
    rw [helpTexts_cons]
    unfold writeHelpLines
    cases hc : c.help with
    | none => exact ih s
    | some help =>
      have hlen : (ascii "AT+" ++ c.name ++ ascii ": " ++ help ++ crlf).length =
          (helpText c help).length + 2 := by
        rw [List.length_append]
        rfl
      simp only [Option.map_some, Option.toList_some, List.cons_append, List.nil_append, hlen]
      by_cases hlong : 160 ≤ (helpText c help).length + 2
      · rw [if_pos hlong]
        refine .inr ⟨⟨_, List.mem_cons_self, by omega⟩, [], _, rfl, ?_⟩
        simp
      · rw [if_neg hlong, if_neg (by rw [writeAll, hwrite]; exact not_not.2 rfl)]
        rcases ih (writeAll port (ascii "AT+" ++ c.name ++ ascii ": " ++ help ++ crlf) s).2 with
          ⟨hall, hout⟩ | ⟨⟨text, hmem, htext⟩, front, back, hsplit, hout⟩
        · refine .inl ⟨List.forall_mem_cons.2 ⟨by omega, hall⟩, ?_⟩
          rw [hout]
          simp [writeAll, helpText]
        · refine .inr ⟨⟨text, List.mem_cons_of_mem _ hmem, htext⟩, helpText c help :: front, back, ?_, ?_⟩
          · rw [hsplit]
            rfl
          · rw [hout]
            simp [writeAll, helpText]

/-- The header without the line end it ends with. -/
def helpHead : List UInt8 :=
  crlf ++ ascii "AT+<CMD>?: help on <CMD>" ++ crlf ++ ascii "AT+<CMD>: run <CMD>" ++ crlf ++
    ascii "AT+<CMD>=<value>: set the value" ++ crlf ++ ascii "AT+<CMD>=?: get the value"

theorem plain_helpHead : Plain helpHead := by
  have h : ∀ l ∈ lines helpHead, isStatusLine l = false := by decide
  exact h

theorem lines_flatMap (texts : List (List UInt8)) (bs : List UInt8) :
    lines (texts.flatMap (· ++ crlf) ++ bs) = texts.flatMap lines ++ lines bs := by
  induction texts with
  | nil => rfl
  | cons text texts ih =>
    have h : (text :: texts).flatMap (· ++ crlf) ++ bs =
        text ++ (crLf ++ (texts.flatMap (· ++ crlf) ++ bs)) := by
      simp [crlf, crLf]
    rw [h, lines_append_crLf, ih]
    simp

/-- The list of all commands has one status exactly if no help text reads like one. -/
theorem oneStatus_list (texts : List (List UInt8)) :
    OneStatus (helpHeader ++ texts.flatMap (· ++ crlf) ++ statusText .ok) ↔
      ∀ text ∈ texts, Plain text := by
  have h : helpHeader ++ texts.flatMap (· ++ crlf) ++ statusText .ok =
      helpHead ++ (crLf ++ (texts.flatMap (· ++ crlf) ++ statusText .ok)) := by
    simp [helpHeader, helpHead, crlf, crLf]
  have hlines : lines (helpHeader ++ texts.flatMap (· ++ crlf) ++ statusText .ok) =
      (lines helpHead ++ texts.flatMap lines ++ [[]]) ++ [Status.ok.name, []] := by
    rw [h, lines_append_crLf, lines_flatMap, lines_statusText]
    simp
  rw [oneStatus_iff hlines]
  constructor
  · intro hfront text htext l hl
    refine hfront l ?_
    simp only [List.mem_append, List.mem_flatMap]
    exact .inl (.inr ⟨text, htext, hl⟩)
  · intro hplain l hl
    simp only [List.mem_append, List.mem_flatMap, List.mem_singleton] at hl
    rcases hl with (hl | ⟨text, htext, hl⟩) | rfl
    · exact plain_helpHead l hl
    · exact hplain text htext l hl
    · exact isStatusLine_nil

/-- AT? is answered exactly if every help line fits and none reads like a status. -/
theorem registryWriteAllHelp_iff (hwrite : ∀ out, port.writeRc out = 0) (s : State ω) :
    (Replied s (registryWriteAllHelp port commands s).2 ∧
        Listed commands s (registryWriteAllHelp port commands s).2) ↔
      ∀ text ∈ helpTexts commands, text.length + 2 < 160 ∧ Plain text := by
  have hheader : registryWriteAllHelp port commands s =
      writeHelpLines port commands { s with out := s.out ++ [helpHeader] } := by
    unfold registryWriteAllHelp
    simp only [writeAll, hwrite, ne_eq, not_true_eq_false, if_false]
  rw [hheader]
  rcases writeHelpLines_cases hwrite commands { s with out := s.out ++ [helpHeader] } with
    ⟨hall, hout⟩ | ⟨⟨text, hmem, hlong⟩, front, back, hsplit, hout⟩
  · have hout' : (writeHelpLines port commands { s with out := s.out ++ [helpHeader] }).2.out =
        s.out ++ ([helpHeader] ++ ((helpTexts commands).map (· ++ crlf) ++ [statusText .ok])) := by
      rw [hout, List.append_assoc]
    have hflat : ([helpHeader] ++ ((helpTexts commands).map (· ++ crlf) ++ [statusText .ok])).flatten =
        helpHeader ++ (helpTexts commands).flatMap (· ++ crlf) ++ statusText .ok := by
      simp [List.flatMap_def]
    rw [replied_iff hout', hflat, oneStatus_list]
    constructor
    · exact fun h text htext => ⟨hall text htext, h.1 text htext⟩
    · exact fun h => ⟨fun text htext => (h text htext).2, _, hout', hflat⟩
  · -- the list stops early, so it is not the list of all commands
    refine iff_of_false ?_ fun h => hlong (h text hmem).1
    rintro ⟨-, texts, hlisted, hflat⟩
    rw [hout, List.append_assoc] at hlisted
    rw [← List.append_cancel_left hlisted, hsplit] at hflat
    have hlength := congrArg List.length hflat
    have hstatus : (statusText .ok).length = 6 := by decide
    simp only [List.flatten_append, List.flatten_singleton, List.flatMap_def, List.map_append,
      List.length_append, hstatus] at hlength
    omega

/-! ### Every line -/

theorem runFactoryResets_out (hsilent : HooksSilent extensions) (result : Int) (s : State ω) :
    (runFactoryResets extensions result s).2.out = s.out := by
  induction extensions generalizing result s with
  | nil => rfl
  | cons e es ih =>
    have htail : HooksSilent es := fun e' he' => hsilent e' (List.mem_cons_of_mem _ he')
    unfold runFactoryResets
    split
    · exact ih htail _ _
    · rename_i hook hhook
      exact (ih htail _ _).trans (hsilent e List.mem_cons_self hook hhook s)

/-- Every fixed form but AT? is answered, if it does not reboot. -/
theorem execute_fixed_replied (hsize : 128 ≤ port.txBufferSize) (hwrite : ∀ out, port.writeRc out = 0)
    (hsilent : HooksSilent extensions) (hform : line.map upper ∈ fixedForms)
    (hne : line.map upper ≠ ascii "AT?")
    (hrun : (execute port commands extensions line s).1.rebooted = false) :
    Replied s (execute port commands extensions line s).1 := by
  rw [execute_of_fixed (isFixedForm_iff.2 hform)] at hrun ⊢
  simp only [fixedForms, List.mem_cons, List.not_mem_nil, or_false] at hform
  rcases hform with h | h | h | h | h | h | h | h <;> rw [h] at hrun hne ⊢
  · exact respondStatus_replied port .ok s
  · exact absurd rfl hne
  · exact (respondStatus_replied port .ok { s with echoEnabled := !s.echoEnabled }).congr rfl
  · exact respondValue_replied hwrite (Nat.lt_of_lt_of_le (by decide) hsize) plain_echo s
  · cases hrun
  · exact respondValue_replied hwrite (Nat.lt_of_lt_of_le (by decide) hsize) plain_reset s
  · -- without a reboot the reset has failed
    change (if (registryFactoryReset extensions s).1 = 0 then _ else _ : State ω × List Call).1.rebooted =
      false at hrun
    change Replied s (if (registryFactoryReset extensions s).1 = 0 then _ else _ : State ω × List Call).1
    by_cases hrc : (registryFactoryReset extensions s).1 = 0
    · rw [if_pos hrc] at hrun
      cases hrun
    · rw [if_neg hrc]
      exact (respondStatus_replied port _ _).congr (runFactoryResets_out hsilent 0 s)
  · exact respondValue_replied hwrite (Nat.lt_of_lt_of_le (by decide) hsize) plain_restore s

theorem execute_help (h : equalsIgnoreCase line (ascii "AT?") = true) :
    execute port commands extensions line s = ((registryWriteAllHelp port commands s).2, []) := by
  have hupper : line.map upper = ascii "AT?" := (equalsIgnoreCase_fixed (by simp [fixedForms]) line).1 h
  have hform : isFixedForm line = true := isFixedForm_iff.2 (by rw [hupper]; simp [fixedForms])
  rw [execute_of_fixed hform, hupper, execute, if_neg (by decide), if_pos (by decide)]

/-- **One final status.** Where the port's write function does not fail, every handler writes one
reply or fails, and the hooks are silent, a line that does not reboot has one final status at the end
of its output, and AT? lists every command, exactly if the help it prints fits and does not read like
a status. -/
theorem line_answered_iff (port : Port ω) (hsize : 128 ≤ port.txBufferSize)
    (hwrite : ∀ out, port.writeRc out = 0) (calls : List (List (Command ω)))
    (hobeys : ∀ c ∈ applicationRegister port [] calls, Obeys c) (extensions : List (Extension ω))
    (hsilent : HooksSilent extensions) (line : List UInt8) (s : State ω)
    (hrun : (execute port (applicationRegister port [] calls) extensions line s).1.rebooted = false) :
    Answered port (applicationRegister port [] calls) extensions line s ↔
      HelpFits port (applicationRegister port [] calls) line s := by
  generalize applicationRegister port [] calls = commands at hobeys hrun ⊢
  by_cases hform : isFixedForm line = true
  · have hasked : askedHelp commands line s = none := by
      rw [askedHelp, parseCommand_of_fixed hform]
    by_cases hhelp : equalsIgnoreCase line (ascii "AT?") = true
    · have hexecute : execute port commands extensions line s =
          ((registryWriteAllHelp port commands s).2, []) := execute_help hhelp
      have hiff : (Replied s (registryWriteAllHelp port commands s).2 ∧
          Listed commands s (registryWriteAllHelp port commands s).2) ↔
            ∀ text ∈ helpTexts commands, text.length + 2 < 160 ∧ Plain text :=
        registryWriteAllHelp_iff hwrite s
      constructor
      · intro h
        refine ⟨fun _ => hiff.1 ?_, by rw [hasked]; exact nofun⟩
        exact ⟨by simpa only [hexecute] using h.replied, by simpa only [hexecute] using h.listed hhelp⟩
      · intro h
        have hanswer := hiff.2 (h.all hhelp)
        exact ⟨by simpa only [hexecute] using hanswer.1, fun _ => by simpa only [hexecute] using hanswer.2⟩
    · have hne : line.map upper ≠ ascii "AT?" := fun h =>
        hhelp ((equalsIgnoreCase_fixed (by simp [fixedForms]) line).2 h)
      refine iff_of_true ⟨?_, fun h => absurd h hhelp⟩ ⟨fun h => absurd h hhelp, by rw [hasked]; exact nofun⟩
      exact execute_fixed_replied hsize hwrite hsilent (isFixedForm_iff.1 hform) hne hrun
  · have hhelp : ¬ equalsIgnoreCase line (ascii "AT?") = true := by
      intro h
      refine hform (isFixedForm_iff.2 ?_)
      rw [(equalsIgnoreCase_fixed (by simp [fixedForms]) line).1 h]
      simp [fixedForms]
    have hexecute : execute port commands extensions line s = executeCommand port commands line s :=
      execute_of_not_fixed (Bool.eq_false_iff.2 hform)
    have hiff := executeCommand_replied_iff hwrite hobeys (by rw [← hexecute]; exact hrun)
    constructor
    · exact fun h => ⟨fun h => absurd h hhelp, hiff.1 (by simpa only [hexecute] using h.replied)⟩
    · exact fun h => ⟨by simpa only [hexecute] using hiff.2 h.asked, fun h => absurd h hhelp⟩

/-- The BAND command of the LoRaWAN package, with a handler that answers OK. -/
def bandCommand : Command Unit where
  name := ascii "BAND"
  help := some (ascii ("get or set the active region (0 = EU433, 1 = CN470, 2 = RU864, " ++
    "3 = IN865, 4 = EU868, 5 = US915, 6 = AU915, 7 = KR920, " ++
    "8 = AS923-1, 9 = AS923-2, 10 = AS923-3, 11 = AS923-4, " ++ "12 = LA915)"))
  allowedOperations := [.read, .write]
  handler := fun _ s => respondStatus plainPort .ok s

def classCommand : Command Unit where
  name := ascii "CLASS"
  help := some (ascii "get or set the device class (A = class A, B = class B, C = class C)")
  allowedOperations := [.read, .write]
  handler := fun _ s => respondStatus plainPort .ok s

def openPort : State Unit := ⟨.reset, false, true, [], (), [], false⟩

theorem respondOk_obeys {c : Command Unit} (h : c.handler = fun _ s => respondStatus plainPort .ok s) :
    Obeys c := by
  intro request s
  rw [h]
  exact .inr (.inl ⟨rfl, respondStatus_replied plainPort _ s⟩)

/-- AT? stops before the help of BAND and writes no status. -/
theorem help_without_status : ¬ ∀ (calls : List (List (Command Unit))) (line : List UInt8)
    (s : State Unit), (∀ c ∈ applicationRegister plainPort [] calls, Obeys c) →
      (execute plainPort (applicationRegister plainPort [] calls) [] line s).1.rebooted = false →
        Answered plainPort (applicationRegister plainPort [] calls) [] line s := by
  intro h
  have hreg : applicationRegister plainPort [] [[bandCommand]] = [bandCommand] := rfl
  have hanswered := h [[bandCommand]] (ascii "AT?") openPort
    (by rw [hreg]; simpa using respondOk_obeys rfl) (by decide +kernel)
  rw [hreg] at hanswered
  obtain ⟨texts, hout, hone⟩ := hanswered.replied
  have hwritten : (execute plainPort [bandCommand] [] (ascii "AT?") openPort).1.out = [helpHeader] := by
    decide +kernel
  obtain rfl : texts = [helpHeader] := hout.symm.trans hwritten
  have hlines : lines helpHeader = lines helpHead ++ [[]] := by decide
  obtain ⟨front, status, hstatus, -⟩ := hone
  rw [List.flatten_singleton, hlines, List.append_cons front] at hstatus
  have hmem : status.name ∈ lines helpHead := by
    rw [(List.append_inj' hstatus rfl).1]
    simp
  exact absurd (plain_helpHead _ hmem) (by rw [isStatusLine_name]; simp)

theorem help_with_status : Answered plainPort [classCommand] [] (ascii "AT?") openPort := by
  have hreg : applicationRegister plainPort [] [[classCommand]] = [classCommand] := rfl
  rw [← hreg]
  refine (line_answered_iff plainPort (by decide) (fun _ => rfl) [[classCommand]] ?_ [] nofun
    (ascii "AT?") openPort (by decide)).2 ⟨fun _ => ?_, ?_⟩
  · rw [hreg]
    simpa using respondOk_obeys rfl
  · rw [hreg]
    unfold Plain
    decide
  · rw [hreg]
    exact nofun

end Rzi.At
