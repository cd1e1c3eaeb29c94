import Rzi.AtParser
import Rzi.Err

/-!
# The AT service (`src/at/at.c`, `src/at/at_registry.c`, `src/at/at_parser.c`)

What an input byte does once it has left the receive ring: the line editor, `execute`, the registry's
dispatch and the replies. A C string is the list of its bytes before the NUL. Command handlers and
extension hooks may change the whole state; what none of the functions here looks at (settings, the
commands' own variables) is the type `ω`. Return codes are the C integers.

`execute` also returns what it calls besides the reply functions, oldest first, and `out` is what has
been handed to the port's write function.
-/

namespace Rzi

/-- The return value of a public function that fails. -/
def Err.rc (e : Err) : Int := -(e.code : Int)

theorem Err.rc_ne_zero (e : Err) : e.rc ≠ 0 := by
  cases e <;> decide

namespace At

def ascii (s : String) : List UInt8 := s.toUTF8.data.toList

inductive Operation where
  | run | help | read | write
deriving DecidableEq, Repr

inductive Status where
  | ok | error | paramError | busyError | noNetworkJoined | testParamOverflow
deriving DecidableEq, Repr

def Status.name : Status → List UInt8
  | .ok => ascii "OK"
  | .error => ascii "AT_ERROR"
  | .paramError => ascii "AT_PARAM_ERROR"
  | .busyError => ascii "AT_BUSY_ERROR"
  | .noNetworkJoined => ascii "AT_NO_NETWORK_JOINED"
  | .testParamOverflow => ascii "AT_TEST_PARAM_OVERFLOW"

/-- `struct rzi_at_request`; the parser passes a NULL argument for every operation but a write. -/
structure Request where
  operation : Operation
  argument : Option (List UInt8)
deriving DecidableEq, Repr

inductive Call where
  | setEcho (enable : Bool)
  | reboot
  | factoryReset
  | dispatch (name : List UInt8) (request : Request)
deriving DecidableEq, Repr

structure State (ω : Type*) where
  parser : Parser UInt8
  locked : Bool
  echoEnabled : Bool
  password : List UInt8
  rest : ω
  out : List (List UInt8)
  rebooted : Bool

/-- The build options, and what the application and the storage answer. -/
structure Port (ω : Type*) where
  lineMax : Nat
  txBufferSize : Nat
  maxCommands : Nat
  echo : Bool
  /-- the return code of the port's write function, by all it has been handed -/
  writeRc : List (List UInt8) → Int
  /-- `rzi_storage_write` under `rzi`, where `CONFIG_RZI_AT_NVM` is set -/
  storageWrite : Option (List UInt8 → List UInt8 → ω → Int × ω)

/-- `struct rzi_at_command`, with its `user_data` in the handler. -/
structure Command (ω : Type*) where
  name : List UInt8
  help : Option (List UInt8)
  allowedOperations : List Operation
  handler : Request → State ω → Int × State ω

/-- `struct rzi_at_extension`: the hook that a line can reach. -/
structure Extension (ω : Type*) where
  factoryReset : Option (State ω → Int × State ω)

variable {ω : Type*} (port : Port ω) (commands : List (Command ω)) (extensions : List (Extension ω))

/-! ### Output -/

def writeAll (text : List UInt8) (s : State ω) : Int × State ω :=
  (port.writeRc (s.out ++ [text]), { s with out := s.out ++ [text] })

def crlf : List UInt8 := [0x0d, 0x0a]

def statusText (status : Status) : List UInt8 := crlf ++ status.name ++ crlf

def respondStatus (status : Status) (s : State ω) : Int × State ω :=
  writeAll port (statusText status) s

/-- `write_formatted`, on the formatted text. -/
def writeFormatted (head suffix body : List UInt8) (s : State ω) : Int × State ω :=
  if port.txBufferSize ≤ head.length then (Err.overflow.rc, s)
  else if port.txBufferSize - head.length ≤ body.length then (Err.overflow.rc, s)
  else if port.txBufferSize ≤ head.length + body.length + suffix.length then (Err.overflow.rc, s)
  else writeAll port (head ++ body ++ suffix) s

def respondValue (text : List UInt8) (s : State ω) : Int × State ω :=
  writeFormatted port crlf (crlf ++ ascii "OK" ++ crlf) text s

/-- The reply of a handler that succeeds. -/
inductive Answer where
  | ok
  | value (text : List UInt8)
deriving DecidableEq, Repr

def respond (answer : Answer) (s : State ω) : Int × State ω :=
  match answer with
  | .ok => respondStatus port .ok s
  | .value text => respondValue port text s

def respondForError (rc : Int) (s : State ω) : State ω :=
  if rc = Err.invalid.rc then (respondStatus port .paramError s).2
  else if rc = Err.busy.rc then (respondStatus port .busyError s).2
  else if rc = Err.notJoined.rc then (respondStatus port .noNetworkJoined s).2
  else if rc = Err.tooLarge.rc ∨ rc = Err.overflow.rc then
    (respondStatus port .testParamOverflow s).2
  else if rc ≠ 0 then (respondStatus port .error s).2
  else s

/-! ### The registry -/

/-- `rzi_at_dispatch` on the command it has found. -/
def runCommand (command : Command ω) (request : Request) (s : State ω) : Int × State ω :=
  if request.operation = .help then
    match command.help with
    | none => (Err.notSupported.rc, s)
    | some help => respondValue port (ascii "AT+" ++ command.name ++ ascii ": " ++ help) s
  else if request.operation ∉ command.allowedOperations then (Err.notSupported.rc, s)
  else command.handler request s

def dispatch (name : List UInt8) (request : Request) (s : State ω) : Int × State ω :=
  match commands.find? (·.name == name) with
  | none => (Err.notFound.rc, s)
  | some command => runCommand port command request s

/-- The loop of `rzi_at_registry_factory_reset` after a result. -/
def runFactoryResets : List (Extension ω) → Int → State ω → Int × State ω
  | [], result, s => (result, s)
  | e :: es, result, s =>
    match e.factoryReset with
    | none => runFactoryResets es result s
    | some hook =>
      let (rc, s') := hook s
      runFactoryResets es (if rc ≠ 0 ∧ result = 0 then rc else result) s'

def registryFactoryReset (s : State ω) : Int × State ω := runFactoryResets extensions 0 s

def helpHeader : List UInt8 :=
  crlf ++ ascii "AT+<CMD>?: help on <CMD>" ++ crlf ++ ascii "AT+<CMD>: run <CMD>" ++ crlf ++
    ascii "AT+<CMD>=<value>: set the value" ++ crlf ++ ascii "AT+<CMD>=?: get the value" ++ crlf

/-- The loop of `rzi_at_registry_write_all_help`, and the status after it. -/
def writeHelpLines : List (Command ω) → State ω → Int × State ω
  | [], s => respondStatus port .ok s
  | c :: cs, s =>
    match c.help with
    | none => writeHelpLines cs s
    | some help =>
      let line := ascii "AT+" ++ c.name ++ ascii ": " ++ help ++ crlf
      if 160 ≤ line.length then (Err.overflow.rc, s)
      else
        let (rc, s') := writeAll port line s
        if rc ≠ 0 then (rc, s') else writeHelpLines cs s'

def registryWriteAllHelp (s : State ω) : Int × State ω :=
  let (rc, s') := writeAll port helpHeader s
  if rc ≠ 0 then (rc, s') else writeHelpLines port commands s'

/-! ### Lines -/

def upper (b : UInt8) : UInt8 := if 0x61 ≤ b ∧ b ≤ 0x7a then b - 0x20 else b

/-- `ascii_casecmp_n`; past its end a string reads as NUL. -/
def asciiCasecmpN : List UInt8 → List UInt8 → Nat → Int
  | _, _, 0 => 0
  | left, right, count + 1 =>
    let a := upper (left.headD 0)
    let b := upper (right.headD 0)
    if a ≠ b ∨ a = 0 then (a.toNat : Int) - b.toNat else asciiCasecmpN left.tail right.tail count

def equalsIgnoreCase (left right : List UInt8) : Bool :=
  left.length == right.length && asciiCasecmpN left right left.length == 0

def isSeparator (b : UInt8) : Bool := b == 0x3d || b == 0x3f

/-- What follows `AT+`: the name up to the first `=` or `?`, the operation, and the argument of a
write. -/
def parseBody (body : List UInt8) : Option (List UInt8 × Request) :=
  let name := body.takeWhile (!isSeparator ·)
  let separator := body.dropWhile (!isSeparator ·)
  if separator = [] then some (name, ⟨.run, none⟩)
  else if separator = ascii "?" then some (name, ⟨.help, none⟩)
  else if separator = ascii "=?" then some (name, ⟨.read, none⟩)
  else if separator.head? = some 0x3d ∧ separator.tail ≠ [] ∧ 0x3f ∉ separator.tail then
    some (name, ⟨.write, some separator.tail⟩)
  else none

/-- The part of `execute` between the fixed forms and the lock test: a command's name in upper case
and the request, or `none` where it answers AT_ERROR. -/
def parseCommand (line : List UInt8) : Option (List UInt8 × Request) :=
  if asciiCasecmpN line (ascii "AT+") 3 ≠ 0 then none
  else
    match parseBody (line.drop 3) with
    | none => none
    | some (name, request) => if name = [] then none else some (name.map upper, request)

def executeCommand (line : List UInt8) (s : State ω) : State ω × List Call :=
  match parseCommand line with
  | none => ((respondStatus port .error s).2, [])
  | some (name, request) =>
    if s.locked = true ∧ name ≠ ascii "PWORD" ∧ name ≠ ascii "LOCK" then
      ((respondStatus port .error s).2, [])
    else
      let (rc, s') := dispatch port commands name request s
      (respondForError port rc s', [.dispatch name request])

def execute (line : List UInt8) (s : State ω) : State ω × List Call :=
  if equalsIgnoreCase line (ascii "AT") then ((respondStatus port .ok s).2, [])
  else if equalsIgnoreCase line (ascii "AT?") then ((registryWriteAllHelp port commands s).2, [])
  else if equalsIgnoreCase line (ascii "ATE") then
    ((respondStatus port .ok { s with echoEnabled := !s.echoEnabled }).2,
      [.setEcho (!s.echoEnabled)])
  else if equalsIgnoreCase line (ascii "ATE?") then
    ((respondValue port (ascii "ATE: show or hide the AT command input") s).2, [])
  else if equalsIgnoreCase line (ascii "ATZ") then ({ s with rebooted := true }, [.reboot])
  else if equalsIgnoreCase line (ascii "ATZ?") then
    ((respondValue port (ascii "ATZ: triggers a reset on the MCU.") s).2, [])
  else if equalsIgnoreCase line (ascii "ATR") then
    let (rc, s₁) := registryFactoryReset extensions s
    let s₂ := (respondStatus port (if rc = 0 then .ok else .error) s₁).2
    if rc = 0 then ({ s₂ with rebooted := true }, [.factoryReset, .reboot])
    else (s₂, [.factoryReset])
  else if equalsIgnoreCase line (ascii "ATR?") then
    ((respondValue port (ascii "ATR: restore default parameters") s).2, [])
  else executeCommand port commands line s

/-! ### Bytes -/

/-- An echo, where the build has it and ATE has not switched it off. -/
def echoText (text : List UInt8) (s : State ω) : State ω :=
  if port.echo && s.echoEnabled then (writeAll port text s).2 else s

def perform (s : State ω) : Action UInt8 → State ω
  | .echoErase => echoText port [0x08, 0x20, 0x08] s
  | .echoNewline => echoText port crlf s
  | .echo c => echoText port [c] s
  | .overflowStatus => (respondStatus port .testParamOverflow s).2
  | .execute line => (execute port commands extensions line s).1

/-- `rzi_at_parser_feed` with its effects; a system that has rebooted takes no further byte. -/
def feedByte (s : State ω) (b : UInt8) : State ω :=
  if s.rebooted then s
  else
    (feed id port.lineMax s.parser b).2.foldl (perform port commands extensions)
      { s with parser := (feed id port.lineMax s.parser b).1 }

def feedBytes (s : State ω) (bs : List UInt8) : State ω :=
  bs.foldl (feedByte port commands extensions) s

/-! ### The executed lines -/

/-- An executed line, with the state in which it is executed, the one it leaves and its calls. -/
structure Execution (ω : Type*) where
  line : List UInt8
  before : State ω
  after : State ω
  calls : List Call

def executionOf (line : List UInt8) (s : State ω) : Execution ω :=
  ⟨line, s, (execute port commands extensions line s).1, (execute port commands extensions line s).2⟩

def actionExecutions : State ω → List (Action UInt8) → List (Execution ω)
  | _, [] => []
  | s, .execute line :: as =>
    executionOf port commands extensions line s ::
      actionExecutions (perform port commands extensions s (.execute line)) as
  | s, a :: as => actionExecutions (perform port commands extensions s a) as

def executions : State ω → List UInt8 → List (Execution ω)
  | _, [] => []
  | s, b :: bs =>
    (if s.rebooted then []
      else actionExecutions port commands extensions
        { s with parser := (feed id port.lineMax s.parser b).1 }
        (feed id port.lineMax s.parser b).2) ++
      executions (feedByte port commands extensions s b) bs

/-! ### Comparing without case -/

theorem upper_eq_zero {b : UInt8} : upper b = 0 ↔ b = 0 := by
  unfold upper
  split
  · rename_i h
    constructor
    · intro h0
      have h₁ := UInt8.le_iff_toNat_le.1 h.1
      have h₂ := congrArg UInt8.toNat h0
      rw [UInt8.toNat_sub_of_le _ _ (UInt8.le_iff_toNat_le.2 (by simp at h₁ ⊢; omega))] at h₂
      simp at h₁ h₂
      omega
    · rintro rfl
      simp at h
  · rfl

variable {left right : List UInt8} {count : Nat}

theorem asciiCasecmpN_eq_zero_iff (hnul : (0 : UInt8) ∉ right) (hcount : count ≤ right.length) :
    asciiCasecmpN left right count = 0 ↔
      (left.take count).map upper = (right.take count).map upper := by
  induction count generalizing left right with
  | zero => simp [asciiCasecmpN]
  | succ count ih =>
    cases right with
    | nil => simp at hcount
    | cons b right =>
      have hb : upper b ≠ 0 := fun h => hnul (by simp [upper_eq_zero.1 h])
      have ih := @ih left.tail right (fun h => hnul (List.mem_cons_of_mem _ h)) (by simpa using hcount)
      rw [asciiCasecmpN]
      cases left with
      | nil =>
        have h0 : upper 0 = 0 := rfl
        have hpos : (upper b).toNat ≠ 0 := fun h => hb (UInt8.toNat_inj.1 h)
        simp [h0]
        omega
      | cons a left =>
        by_cases hab : upper a = upper b
        · simp [hab, hb] at ih ⊢
          exact ih
        · have hne : (upper a).toNat ≠ (upper b).toNat := fun h => hab (UInt8.toNat_inj.1 h)
          simp [hab]
          omega

theorem equalsIgnoreCase_iff (hnul : (0 : UInt8) ∉ right) :
    equalsIgnoreCase left right = true ↔ left.map upper = right.map upper := by
  rw [equalsIgnoreCase, Bool.and_eq_true, beq_iff_eq, beq_iff_eq]
  constructor
  · rintro ⟨hlen, h⟩
    rw [asciiCasecmpN_eq_zero_iff hnul (Nat.le_of_eq hlen), List.take_length, hlen,
      List.take_length] at h
    exact h
  · intro h
    have hlen : left.length = right.length := by
      rw [← List.length_map upper, h, List.length_map]
    refine ⟨hlen, ?_⟩
    rw [asciiCasecmpN_eq_zero_iff hnul (Nat.le_of_eq hlen), List.take_length, hlen, List.take_length]
    exact h

end At

end Rzi
