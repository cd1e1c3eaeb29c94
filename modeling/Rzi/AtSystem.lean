import Rzi.AtService

/-!
# Command registration and the system commands (`at_registry.c`, `commands/at_command_system.c`)

`rzi_at_register` as the application and the packages call it, the handlers of AT+LOCK and AT+PWORD,
and the built-in command table they stand in. A `Registry` is the table of a started service: by
`nodup` and `lock_mem`, `pword_mem`, the names LOCK and PWORD are those of the built-in handlers,
whatever else was registered.
-/

namespace Rzi.At
variable {ω : Type*} (port : Port ω)

/-! ### Registration -/

def validName (name : List UInt8) : Bool :=
  name ≠ [] && name.all fun b =>
    (0x41 ≤ b && b ≤ 0x5a) || (0x30 ≤ b && b ≤ 0x39) || b == 0x5f

/-- The checking loop of `rzi_at_register`, after the names `seen` of the same call. -/
def checkNames (registered : List (List UInt8)) : List (List UInt8) → List (List UInt8) →
    Except Err Unit
  | _, [] => .ok ()
  | seen, name :: names =>
    if validName name = false then .error .invalid
    else if name ∈ registered then .error .already
    else if name ∈ seen then .error .already
    else checkNames registered (seen ++ [name]) names

def names (commands : List (Command ω)) : List (List UInt8) := commands.map (·.name)

/-- `rzi_at_register` before the registry is sealed. -/
def register (registered commands : List (Command ω)) : Except Err (List (Command ω)) :=
  if port.maxCommands < registered.length + commands.length then .error .invalid
  else
    match checkNames (names registered) [] (names commands) with
    | .error e => .error e
    | .ok () => .ok (registered ++ commands)

/-- The application's calls before the start: one that fails leaves the table as it was. -/
def applicationRegister : List (Command ω) → List (List (Command ω)) → List (Command ω)
  | registered, [] => registered
  | registered, commands :: calls =>
    match register port registered commands with
    | .ok registered' => applicationRegister registered' calls
    | .error _ => applicationRegister registered calls

/-! ### LOCK and PWORD -/

def handleLock (request : Request) (s : State ω) : Int × State ω :=
  if request.operation = .read then
    respondValue port (ascii "AT+LOCK=" ++ if s.locked then ascii "locked" else ascii "unlocked") s
  else respondStatus port .ok { s with locked := true }

/-- `save_string`: a record of 17 bytes, filled with NULs. -/
def saveString (key value : List UInt8) (maxLen : Nat) (s : State ω) : Int × State ω :=
  match port.storageWrite with
  | none => (0, s)
  | some write =>
    let stored := value.take maxLen
    let (rc, rest) := write key (stored ++ List.replicate (17 - stored.length) 0) s.rest
    (rc, { s with rest := rest })

def setPassword (value : List UInt8) (s : State ω) : Int × State ω :=
  if value.length = 0 ∨ 8 < value.length then (Err.invalid.rc, s)
  else (0, { s with password := value })

/-- `handle_pword`. A write always has an argument. -/
def handlePword (request : Request) (s : State ω) : Int × State ω :=
  if request.operation = .read then respondValue port (ascii "AT+PWORD=" ++ s.password) s
  else if s.locked then
    if request.argument ≠ some s.password then (Err.invalid.rc, s)
    else respondStatus port .ok { s with locked := false }
  else
    let argument := request.argument.getD []
    if argument.length = 0 ∨ 8 < argument.length then (Err.invalid.rc, s)
    else
      let (rc, s₁) := saveString port (ascii "pword") argument 8 s
      let (rc, s₂) := if rc = 0 then setPassword argument s₁ else (rc, s₁)
      if rc ≠ 0 then (rc, s₂) else respondStatus port .ok s₂

def lockCommand : Command ω :=
  ⟨ascii "LOCK", some (ascii "lock the serial port"), [.run, .read], handleLock port⟩

def pwordCommand : Command ω :=
  ⟨ascii "PWORD", some (ascii "set the serial port locking password (max 8 char)"), [.read, .write],
    handlePword port⟩

/-! ### The built-in table -/

section Table
variable (handler : List UInt8 → Request → State ω → Int × State ω)

/-- A built-in command other than LOCK and PWORD; its handler is any function. -/
def systemCommand (name help : String) (allowed : List Operation) : Command ω :=
  ⟨ascii name, some (ascii help), allowed, handler (ascii name)⟩

/-- `commands`. -/
def systemCommands : List (Command ω) :=
  [systemCommand handler "VER" "get the version of the firmware" [.read],
   systemCommand handler "FIRMWAREVER" "get the custom firmware version" [.read],
   systemCommand handler "CLIVER" "get the version of the AT command" [.read],
   systemCommand handler "APIVER" "get the version of the RZI API" [.read],
   systemCommand handler "HWMODEL" "get the string of the hardware model" [.read],
   systemCommand handler "HWID" "get the string of the hardware ID" [.read],
   systemCommand handler "SN" "get the serial number of the device (max 18 char)" [.read],
   systemCommand handler "FSN" "get the factory serial number of the device" [.read],
   systemCommand handler "ALIAS" "add an alias name to the device" [.read, .write],
   systemCommand handler "BAT" "get the battery level (volt)" [.read],
   systemCommand handler "SYSV" "get the System Voltage" [.read],
   systemCommand handler "BUILDTIME" "get the build time of the firmware" [.read],
   systemCommand handler "REPOINFO" "get the commit ID of the firmware" [.read],
   systemCommand handler "BOOT" "reboot the device" [.run],
   systemCommand handler "BOOTVER" "get the version of RUI Bootloader" [.read],
   systemCommand handler "DEBUG" "dump AT debug information" [.run],
   systemCommand handler "FACTORY" "restore default parameters" [.run],
   lockCommand port,
   pwordCommand port,
   systemCommand handler "BAUD" "get or set the serial port baudrate" [.read, .write],
   systemCommand handler "ATM" "switch to AT command mode" [.run],
   systemCommand handler "SLEEP" "enter sleep mode for a period of time (ms)" [.write],
   systemCommand handler "LPM" "get or set the low power mode (0 = off, 1 = on)" [.read, .write],
   systemCommand handler "LPMLVL" "get or set the sleep level for low power mode" [.read, .write],
   systemCommand handler "BLEMAC" "get the BLE MAC address" [.read]]

/-- `rzi_at_builtin_register`: the system commands, then those of the packages in the build. -/
def builtinRegister (packages : List (List (Command ω))) (registered : List (Command ω)) :
    Except Err (List (Command ω)) := do
  packages.foldlM (register port) (← register port registered (systemCommands port handler))

end Table

/-- The registry of a started service: `rzi_at_builtin_register` returned 0, and the registry was
sealed after it. -/
structure Registry (port : Port ω) where
  commands : List (Command ω)
  extensions : List (Extension ω)
  started : ∃ handler packages calls,
    builtinRegister port handler packages (applicationRegister port [] calls) = .ok commands

variable {port} {registered registered' commands : List (Command ω)}

theorem checkNames_ok {seen new : List (List UInt8)} {old : List (List UInt8)}
    (h : checkNames old seen new = .ok ()) :
    new.Nodup ∧ (∀ n ∈ new, n ∉ old) ∧ ∀ n ∈ new, n ∉ seen := by
  induction new generalizing seen with
  | nil => simp
  | cons name new ih =>
    unfold checkNames at h
    split at h
    · cases h
    split at h
    · cases h
    rename_i hold
    split at h
    · cases h
    rename_i hseen
    obtain ⟨hnodup, hold', hseen'⟩ := ih h
    have hname : name ∉ new := fun hmem => hseen' name hmem (by simp)
    refine ⟨List.nodup_cons.2 ⟨hname, hnodup⟩, fun n hn => ?_, fun n hn => ?_⟩
    · rcases List.mem_cons.1 hn with rfl | hn
      · exact hold
      · exact hold' n hn
    · rcases List.mem_cons.1 hn with rfl | hn
      · exact hseen
      · exact fun hmem => hseen' n hn (List.mem_append_left _ hmem)

theorem register_ok (h : register port registered commands = .ok registered') :
    registered' = registered ++ commands ∧
      ((names registered).Nodup → (names registered').Nodup) := by
  unfold register at h
  split at h
  · cases h
  split at h
  · cases h
  rename_i hcheck
  obtain rfl : registered ++ commands = registered' := Except.ok.inj h
  obtain ⟨hnew, hold, -⟩ := checkNames_ok hcheck
  refine ⟨rfl, fun hnodup => ?_⟩
  rw [names, List.map_append]
  refine List.nodup_append.2 ⟨hnodup, hnew, fun n hn m hm hnm => hold m hm ?_⟩
  rw [← hnm]
  exact hn

theorem applicationRegister_nodup (calls : List (List (Command ω)))
    (h : (names registered).Nodup) : (names (applicationRegister port registered calls)).Nodup := by
  induction calls generalizing registered with
  | nil => exact h
  | cons commands calls ih =>
    unfold applicationRegister
    split
    · rename_i hreg
      exact ih ((register_ok hreg).2 h)
    · exact ih h

theorem packages_ok (packages : List (List (Command ω)))
    (h : packages.foldlM (register port) registered = .ok registered') :
    registered ⊆ registered' ∧ ((names registered).Nodup → (names registered').Nodup) := by
  induction packages generalizing registered with
  | nil =>
    obtain rfl : registered = registered' := Except.ok.inj h
    exact ⟨List.Subset.refl _, id⟩
  | cons commands packages ih =>
    rw [List.foldlM_cons] at h
    cases hreg : register port registered commands with
    | error e =>
      rw [hreg] at h
      cases h
    | ok mid =>
      rw [hreg] at h
      obtain ⟨rfl, hmid⟩ := register_ok hreg
      obtain ⟨hsub, hnodup⟩ := ih h
      exact ⟨fun c hc => hsub (List.mem_append_left _ hc), fun hn => hnodup (hmid hn)⟩

theorem builtinRegister_ok {handler : List UInt8 → Request → State ω → Int × State ω}
    {packages : List (List (Command ω))}
    (h : builtinRegister port handler packages registered = .ok commands)
    (hnodup : (names registered).Nodup) :
    systemCommands port handler ⊆ commands ∧ (names commands).Nodup := by
  unfold builtinRegister at h
  cases hreg : register port registered (systemCommands port handler) with
  | error e =>
    rw [hreg] at h
    cases h
  | ok mid =>
    rw [hreg] at h
    obtain ⟨rfl, hmid⟩ := register_ok hreg
    obtain ⟨hsub, hnd⟩ := packages_ok packages h
    exact ⟨fun c hc => hsub (List.mem_append_right _ hc), hnd (hmid hnodup)⟩

namespace Registry
variable (reg : Registry port)

theorem builtin : ∃ handler, systemCommands port handler ⊆ reg.commands ∧
    (names reg.commands).Nodup := by
  obtain ⟨handler, packages, calls, h⟩ := reg.started
  exact ⟨handler, builtinRegister_ok h (applicationRegister_nodup calls List.nodup_nil)⟩

theorem nodup : (names reg.commands).Nodup := reg.builtin.choose_spec.2

theorem lock_mem : lockCommand port ∈ reg.commands :=
  reg.builtin.choose_spec.1 (by simp [systemCommands])

theorem pword_mem : pwordCommand port ∈ reg.commands :=
  reg.builtin.choose_spec.1 (by simp [systemCommands])

end Registry

theorem find?_name {c : Command ω} (hnodup : (names commands).Nodup) (hc : c ∈ commands) :
    commands.find? (·.name == c.name) = some c := by
  induction commands with
  | nil => cases hc
  | cons d ds ih =>
    rw [names, List.map_cons, List.nodup_cons] at hnodup
    rw [List.find?_cons]
    rcases List.mem_cons.1 hc with rfl | hmem
    · simp
    · have hne : (d.name == c.name) = false := by
        refine beq_false_of_ne fun heq => hnodup.1 ?_
        rw [heq]
        exact List.mem_map_of_mem hmem
      rw [hne]
      exact ih hnodup.2 hmem

theorem Registry.dispatch_mem (reg : Registry port) {c : Command ω} (hc : c ∈ reg.commands)
    (request : Request) (s : State ω) :
    dispatch port reg.commands c.name request s = runCommand port c request s := by
  rw [dispatch, find?_name reg.nodup hc]

end Rzi.At
