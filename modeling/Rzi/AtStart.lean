import Rzi.AtRegistry
import Rzi.Storage

/-!
# Starting the AT service (`rzi_at_start`, `rzi_at_builtin_register`)

A start registers the built-in commands of the build in four tables, seals the command table and starts
the extensions; when one of the steps fails it gives back the `started` flag and nothing else. The
application registers commands of its own before and between the attempts. `retry_iff` says which
histories leave a later attempt the chance to succeed: those in which every earlier attempt was refused
before it registered anything.

What an attempt meets is its argument `env`. Of a built-in command only the name is written here; what
else its descriptor holds is any function of the name.
-/

namespace Rzi.At.Start
open Table (Batch Descriptor)

/-- The handler of a built-in command, or one of the application's. -/
inductive Handler where
  | builtin (name : List UInt8)
  | application (handler : Nat)
deriving DecidableEq

/-- The options of the build. CONFIG_RZI_AT_NVM depends on CONFIG_RZI_AT_COMMAND_LORAWAN. -/
structure Build where
  commandLorawan : Bool
  commandLora : Bool
  nvm : Bool
  maxCommands : Nat
  maxExtensions : Nat
  /-- the help text and the allowed operations of a built-in command -/
  details : List UInt8 → Option (List UInt8) × UInt8
  nvm_lorawan : nvm = true → commandLorawan = true

/-- The extensions of the repository, by the module that defines them. -/
inductive Extension where
  | networkMode | lorawan | lora
deriving DecidableEq, Repr

/-- `on_network_mode` of the LoRa package is the only listener. -/
inductive Listener where
  | lora
deriving DecidableEq, Repr

/-- The static variables that are loaded at a start: `alias_name`, `serial_number`, `password` and
`network_mode`. -/
structure Settings where
  aliasName : List UInt8
  serialNumber : List UInt8
  password : List UInt8
  networkMode : UInt8
deriving DecidableEq, Repr

structure State where
  started : Bool
  table : Table.State Handler
  extensions : List Extension
  listeners : List Listener
  settings : Settings

/-- What the caller, the storage and the extensions' start functions do during one attempt. -/
structure Env where
  isr : Bool
  /-- `io` and `io->write` are not NULL -/
  io : Bool
  storageInit : Except Err Unit
  /-- `rzi_storage_read` under `rzi`, by the key and the size -/
  storageRead : String → Nat → Except Err Bytes
  lorawanStart : Except Err Unit
  loraStart : Except Err Unit

/-! ### The built-in commands -/

/-- The names of `commands` in `at_command_system.c`. -/
def systemNames : List (List UInt8) :=
  [ascii "VER", ascii "FIRMWAREVER", ascii "CLIVER", ascii "APIVER", ascii "HWMODEL", ascii "HWID",
    ascii "SN", ascii "FSN", ascii "ALIAS", ascii "BAT", ascii "SYSV", ascii "BUILDTIME",
    ascii "REPOINFO", ascii "BOOT", ascii "BOOTVER", ascii "DEBUG", ascii "FACTORY", ascii "LOCK",
    ascii "PWORD", ascii "BAUD", ascii "ATM", ascii "SLEEP", ascii "LPM", ascii "LPMLVL",
    ascii "BLEMAC"]

def networkModeNames : List (List UInt8) := [ascii "NWM"]

/-- The groups of the LoRaWAN package, in the order of `rzi_at_lorawan_register`. -/
def lorawanGroups : List (List (List UInt8)) :=
  [[ascii "DEVEUI", ascii "APPEUI", ascii "APPKEY", ascii "DEVADDR", ascii "NWKSKEY",
      ascii "APPSKEY", ascii "NETID", ascii "MCROOTKEY"],
    [ascii "NJM", ascii "NJS", ascii "CFM", ascii "CFS", ascii "JOIN", ascii "SEND", ascii "RECV",
      ascii "RETY", ascii "LPSEND"],
    [ascii "BAND", ascii "CLASS", ascii "ADR", ascii "DCS", ascii "DR", ascii "TXP", ascii "PNM",
      ascii "RX1DL", ascii "RX2DL", ascii "RX2DR", ascii "RX2FQ", ascii "JN1DL", ascii "JN2DL",
      ascii "LBT", ascii "LBTRSSI", ascii "LBTSCANTIME", ascii "LINKCHECK", ascii "TIMEREQ"],
    [ascii "MASK", ascii "CHE", ascii "CHS"],
    [ascii "RSSI", ascii "SNR"],
    [ascii "PGSLOT", ascii "BFREQ", ascii "BTIME", ascii "BGW", ascii "LTIME"],
    [ascii "ADDMULC", ascii "RMVMULC", ascii "LSTMULC"],
    [ascii "CERTIF"]]

/-- The groups of the LoRa package, in the order of `rzi_at_lora_register`. -/
def loraGroups : List (List (List UInt8)) :=
  [[ascii "P2P", ascii "PFREQ", ascii "PSF", ascii "PBW", ascii "PCR", ascii "PPL", ascii "PTP",
      ascii "PSEND", ascii "PRECV", ascii "CAD", ascii "ENCRY", ascii "ENCKEY", ascii "CRYPIV",
      ascii "IQINVER", ascii "SYNCWORD", ascii "PBR", ascii "PFDEV"],
    [ascii "TRSSI", ascii "TTONE", ascii "TTX", ascii "TRX", ascii "TCONF", ascii "TTH",
      ascii "TRTH", ascii "TOFF", ascii "CW"]]

def Build.command (build : Build) (name : List UInt8) : Descriptor Handler :=
  ⟨some name, (build.details name).1, (build.details name).2, some (.builtin name)⟩

/-- The names that a start registers. -/
def Build.builtinNames (build : Build) : List (List UInt8) :=
  systemNames ++ (if build.commandLorawan || build.commandLora then networkModeNames else []) ++
    (if build.commandLorawan then lorawanGroups.flatten else []) ++
    (if build.commandLora then loraGroups.flatten else [])

/-- The extensions that a start adds. -/
def Build.extensions (build : Build) : List Extension :=
  (if build.nvm then [.networkMode] else []) ++ (if build.commandLorawan then [.lorawan] else []) ++
    (if build.commandLora then [.lora] else [])

def Build.listeners (build : Build) : List Listener := if build.commandLora then [.lora] else []

/-- The values in the image. -/
def Build.defaults (build : Build) : Settings :=
  ⟨[], [], [], if build.commandLorawan then 1 else 0⟩

def Build.boot (build : Build) : State := ⟨false, .init, [], [], build.defaults⟩

/-! ### The steps of a start -/

/-- One step after another, until one fails. -/
def andThen (x y : State → Except Err Unit × State) (s : State) : Except Err Unit × State :=
  match x s with
  | (.error e, t) => (.error e, t)
  | (.ok (), t) => y t

variable (build : Build) (env : Env)

/-- `rzi_at_register` on an array of built-in commands. -/
def registerNames (names : List (List UInt8)) (s : State) : Except Err Unit × State :=
  let r := Table.register build.maxCommands (.array (names.map build.command)) s.table
  (r.1, { s with table := r.2 })

/-- `rzi_at_registry_add_extension`. -/
def addExtension (e : Extension) (s : State) : Except Err Unit × State :=
  if build.maxExtensions ≤ s.extensions.length then (.error .noResource, s)
  else (.ok (), { s with extensions := s.extensions ++ [e] })

def listenerMax : Nat := 2

/-- `rzi_at_network_mode_add_listener`. -/
def addListener (l : Listener) (s : State) : Except Err Unit × State :=
  if listenerMax ≤ s.listeners.length then (.error .noResource, s)
  else (.ok (), { s with listeners := s.listeners ++ [l] })

/-- `load_string`: the string it copies to its destination, where it copies one. -/
def loadString (key : String) (maxLen : Nat) : Option (List UInt8) :=
  if build.nvm then
    match env.storageRead key 17 with
    | .ok stored => some (((stored.take 16).takeWhile (· ≠ 0)).take maxLen)
    | .error _ => none
  else none

/-- The strings that are loaded after the system commands; what goes wrong is ignored. -/
def loadStrings (s : State) : Except Err Unit × State :=
  let password := (loadString build env "pword" 8).getD []
  (.ok (), { s with settings := { s.settings with
    aliasName := (loadString build env "alias" 16).getD s.settings.aliasName
    serialNumber := (loadString build env "sn" 18).getD s.settings.serialNumber
    password := if password = [] then s.settings.password else password } })

def loadMode (s : State) : Except Err Unit × State :=
  if !build.nvm then (.ok (), s)
  else
    match env.storageInit with
    | .error e => (.error e, s)
    | .ok () =>
      match env.storageRead "nwm" 1 with
      | .error e => if e = .notFound then (.ok (), s) else (.error e, s)
      | .ok stored =>
        if 2 < stored.getD 0 0 then (.ok (), s)
        else (.ok (), { s with settings := { s.settings with networkMode := stored.getD 0 0 } })

/-- `rzi_at_network_mode_register`. -/
def networkModeRegister : State → Except Err Unit × State :=
  andThen (loadMode build env) <|
  andThen (registerNames build networkModeNames) <|
  if build.nvm then addExtension build .networkMode else fun s => (.ok (), s)

def registerGroups : List (List (List UInt8)) → State → Except Err Unit × State
  | [], s => (.ok (), s)
  | names :: groups, s => andThen (registerNames build names) (registerGroups groups) s

/-- `rzi_at_lorawan_register`. -/
def lorawanRegister : State → Except Err Unit × State :=
  andThen (registerGroups build lorawanGroups) (addExtension build .lorawan)

/-- `rzi_at_lora_register`. -/
def loraRegister : State → Except Err Unit × State :=
  andThen (addListener .lora) <|
  andThen (registerGroups build loraGroups) (addExtension build .lora)

/-- `rzi_at_builtin_register`. -/
def builtinRegister : State → Except Err Unit × State :=
  andThen (registerNames build systemNames) <|
  andThen (loadStrings build env) <|
  andThen (if build.commandLorawan || build.commandLora then networkModeRegister build env
    else fun s => (.ok (), s)) <|
  andThen (if build.commandLorawan then lorawanRegister build else fun s => (.ok (), s)) <|
  if build.commandLora then loraRegister build else fun s => (.ok (), s)

/-- The `start` function of an extension; that of the network mode has none. -/
def Extension.start : Extension → Except Err Unit
  | .networkMode => .ok ()
  | .lorawan => env.lorawanStart
  | .lora => env.loraStart

/-- `rzi_at_registry_start_extensions`. -/
def startExtensions : List Extension → Except Err Unit
  | [] => .ok ()
  | e :: extensions =>
    match e.start env with
    | .error err => .error err
    | .ok () => startExtensions extensions

/-- `rzi_at_start`. -/
def start (s : State) : Except Err Unit × State :=
  if env.isr then (.error .isr, s)
  else if !env.io then (.error .invalid, s)
  else if s.started then (.error .already, s)
  else
    match builtinRegister build env { s with started := true } with
    | (.error e, t) => (.error e, { t with started := false })
    | (.ok (), t) =>
      let t := { t with table := Table.registrySeal t.table }
      match startExtensions env t.extensions with
      | .error e => (.error e, { t with started := false })
      | .ok () => (.ok (), t)

/-! ### Histories -/

/-- The application's registrations and the attempts to start. -/
inductive Act where
  | register (batch : Batch Handler)
  | start (env : Env)

/-- The state, with the commands that the application has registered. -/
structure Sys where
  state : State
  application : List (Descriptor Handler)

def Sys.boot : Sys := ⟨build.boot, []⟩

def next (x : Sys) : Act → Sys
  | .register batch =>
    let r := Table.register build.maxCommands batch x.state.table
    { x with
      state := { x.state with table := r.2 }
      application := x.application ++ if r.1.isOk then batch.commands else [] }
  | .start env => { x with state := (start build env x.state).2 }

def after (acts : List Act) : Sys := acts.foldl (next build) (Sys.boot build)

/-- The image after boot in which the application has registered these commands, and no start was
attempted. -/
def fresh (application : List (Descriptor Handler)) : State :=
  { build.boot with table := ⟨application, false⟩ }

/-- The attempt is turned away before it registers anything. -/
def Refused : Act → Prop
  | .register _ => True
  | .start env => env.isr = true ∨ env.io = false

/-- Each built-in command is registered exactly once, and each extension and listener is present
exactly once. -/
structure Complete (s : State) : Prop where
  commands : ∀ name ∈ build.builtinNames, (s.table.registered.map (·.name)).count (some name) = 1
  extensions : ∀ e ∈ build.extensions, s.extensions.count e = 1
  listeners : ∀ l ∈ build.listeners, s.listeners.count l = 1

/-! ### What the steps append -/

variable {build : Build} {env : Env} {s t : State} {f g : State → Except Err Unit × State}
  {names names' : List (List UInt8)} {exts exts' : List Extension} {ls ls' : List Listener}

/-- A step that only appends to the tables, and on success appends just these entries. -/
structure Appends (build : Build) (f : State → Except Err Unit × State) (names : List (List UInt8))
    (exts : List Extension) (ls : List Listener) : Prop where
  grows : ∀ s, s.table.registered <+: (f s).2.table.registered
  integrity : ∀ s, Table.Integrity build.maxCommands s.table →
    Table.Integrity build.maxCommands (f s).2.table
  commands : ∀ s t, f s = (.ok (), t) →
    t.table.registered = s.table.registered ++ names.map build.command
  extensions : ∀ s t, f s = (.ok (), t) → t.extensions = s.extensions ++ exts
  listeners : ∀ s t, f s = (.ok (), t) → t.listeners = s.listeners ++ ls

theorem andThen_ok (h : andThen f g s = (.ok (), t)) : ∃ r, f s = (.ok (), r) ∧ g r = (.ok (), t) := by
  unfold andThen at h
  split at h
  · cases h
  · rename_i r hr
    exact ⟨r, hr, h⟩

/-- A step that fails or succeeds and touches neither of the tables. -/
theorem Appends.of_same (htable : ∀ s, (f s).2.table = s.table)
    (hext : ∀ s, (f s).2.extensions = s.extensions) (hlis : ∀ s, (f s).2.listeners = s.listeners) :
    Appends build f [] [] [] where
  grows s := (htable s).symm ▸ List.prefix_rfl
  integrity s h := by rw [htable]; exact h
  commands s t h := by
    have ht := htable s
    rw [h] at ht
    rw [List.map_nil, List.append_nil]
    exact congrArg Table.State.registered ht
  extensions s t h := by
    have ht := hext s
    rw [h] at ht
    rw [List.append_nil]
    exact ht
  listeners s t h := by
    have ht := hlis s
    rw [h] at ht
    rw [List.append_nil]
    exact ht

theorem Appends.andThen (hf : Appends build f names exts ls) (hg : Appends build g names' exts' ls') :
    Appends build (andThen f g) (names ++ names') (exts ++ exts') (ls ++ ls') where
  grows s := by
    have hs := hf.grows s
    unfold Start.andThen
    split <;> rename_i r hr <;> rw [hr] at hs
    · exact hs
    · exact hs.trans (hg.grows r)
  integrity s h := by
    have hs := hf.integrity s h
    unfold Start.andThen
    split <;> rename_i r hr <;> rw [hr] at hs
    · exact hs
    · exact hg.integrity r hs
  commands s t h := by
    obtain ⟨r, hr, ht⟩ := andThen_ok h
    rw [hg.commands r t ht, hf.commands s r hr, List.map_append, List.append_assoc]
  extensions s t h := by
    obtain ⟨r, hr, ht⟩ := andThen_ok h
    rw [hg.extensions r t ht, hf.extensions s r hr, List.append_assoc]
  listeners s t h := by
    obtain ⟨r, hr, ht⟩ := andThen_ok h
    rw [hg.listeners r t ht, hf.listeners s r hr, List.append_assoc]

/-- What the first of two steps registers stays, whatever becomes of the second. -/
theorem Appends.grows_andThen (hg : Appends build g names exts ls)
    (f : State → Except Err Unit × State) (s : State) :
    (f s).2.table.registered <+: (Start.andThen f g s).2.table.registered := by
  unfold Start.andThen
  split
  · rename_i hr
    exact hr ▸ List.prefix_rfl
  · rename_i r hr
    rw [hr]
    exact hg.grows r

theorem appends_registerNames (build : Build) (names : List (List UInt8)) :
    Appends build (registerNames build names) names [] [] where
  grows s := by
    unfold registerNames
    rcases Table.register_cases build.maxCommands (.array (names.map build.command)) s.table with
      ⟨e, h⟩ | ⟨-, -, -, h⟩
    · simp only [h]
      exact List.prefix_rfl
    · simp only [h]
      exact List.prefix_append _ _
  integrity s h := h.register _
  commands s t h := by
    unfold registerNames at h
    rcases Table.register_cases build.maxCommands (.array (names.map build.command)) s.table with
      ⟨e, he⟩ | ⟨-, -, -, he⟩ <;> rw [he] at h <;> cases h
    rfl
  extensions s t h := by
    unfold registerNames at h
    obtain rfl := (Prod.mk.inj h).2
    exact (List.append_nil _).symm
  listeners s t h := by
    unfold registerNames at h
    obtain rfl := (Prod.mk.inj h).2
    exact (List.append_nil _).symm

theorem appends_addExtension (build : Build) (e : Extension) :
    Appends build (addExtension build e) [] [e] [] where
  grows s := by
    unfold addExtension
    split <;> exact List.prefix_rfl
  integrity s h := by
    unfold addExtension
    split <;> exact h
  commands s t h := by
    unfold addExtension at h
    split at h
    · cases h
    · cases h
      exact (List.append_nil _).symm
  extensions s t h := by
    unfold addExtension at h
    split at h
    · cases h
    · cases h
      rfl
  listeners s t h := by
    unfold addExtension at h
    split at h
    · cases h
    · cases h
      exact (List.append_nil _).symm

theorem appends_addListener (build : Build) (l : Listener) :
    Appends build (addListener l) [] [] [l] where
  grows s := by
    unfold addListener
    split <;> exact List.prefix_rfl
  integrity s h := by
    unfold addListener
    split <;> exact h
  commands s t h := by
    unfold addListener at h
    split at h
    · cases h
    · cases h
      exact (List.append_nil _).symm
  extensions s t h := by
    unfold addListener at h
    split at h
    · cases h
    · cases h
      exact (List.append_nil _).symm
  listeners s t h := by
    unfold addListener at h
    split at h
    · cases h
    · cases h
      rfl

theorem appends_skip (build : Build) : Appends build (fun s => (.ok (), s)) [] [] [] :=
  .of_same (fun _ => rfl) (fun _ => rfl) (fun _ => rfl)

theorem appends_loadStrings (build : Build) (env : Env) :
    Appends build (loadStrings build env) [] [] [] :=
  .of_same (fun _ => rfl) (fun _ => rfl) (fun _ => rfl)

theorem loadMode_cases (build : Build) (env : Env) (s : State) :
    (∃ e, loadMode build env s = (.error e, s)) ∨
      ∃ mode, loadMode build env s = (.ok (), { s with settings := { s.settings with networkMode := mode } }) := by
  have hsame : s = { s with settings := { s.settings with networkMode := s.settings.networkMode } } := rfl
  unfold loadMode
  split
  · exact .inr ⟨_, congrArg _ hsame⟩
  split
  · exact .inl ⟨_, rfl⟩
  split
  · split
    · exact .inr ⟨_, congrArg _ hsame⟩
    · exact .inl ⟨_, rfl⟩
  · split
    · exact .inr ⟨_, congrArg _ hsame⟩
    · exact .inr ⟨_, rfl⟩

theorem appends_loadMode (build : Build) (env : Env) : Appends build (loadMode build env) [] [] [] := by
  refine .of_same (fun s => ?_) (fun s => ?_) (fun s => ?_) <;>
    rcases loadMode_cases build env s with ⟨e, h⟩ | ⟨mode, h⟩ <;> rw [h]

theorem appends_networkModeRegister (build : Build) (env : Env) :
    Appends build (networkModeRegister build env) networkModeNames
      (if build.nvm then [.networkMode] else []) [] := by
  have hext : Appends build
      (if build.nvm then addExtension build .networkMode else fun s => (.ok (), s)) []
      (if build.nvm then [.networkMode] else []) [] := by
    split
    · exact appends_addExtension build .networkMode
    · exact appends_skip build
  have h := (appends_loadMode build env).andThen ((appends_registerNames build networkModeNames).andThen hext)
  simp only [List.append_nil, List.nil_append] at h
  exact h

theorem appends_registerGroups (build : Build) (groups : List (List (List UInt8))) :
    Appends build (registerGroups build groups) groups.flatten [] [] := by
  induction groups with
  | nil => exact appends_skip build
  | cons names groups ih => exact (appends_registerNames build names).andThen ih

theorem appends_lorawanRegister (build : Build) :
    Appends build (lorawanRegister build) lorawanGroups.flatten [.lorawan] [] := by
  have h := (appends_registerGroups build lorawanGroups).andThen (appends_addExtension build .lorawan)
  rw [List.append_nil] at h
  exact h

theorem appends_loraRegister (build : Build) :
    Appends build (loraRegister build) loraGroups.flatten [.lora] [.lora] := by
  have h := (appends_addListener build .lora).andThen
    ((appends_registerGroups build loraGroups).andThen (appends_addExtension build .lora))
  simp only [List.append_nil, List.nil_append] at h
  exact h

/-- The system commands come first, then what the packages of the build append. -/
theorem appends_packages (build : Build) (env : Env) :
    ∃ packages names, builtinRegister build env = andThen (registerNames build systemNames) packages ∧
      build.builtinNames = systemNames ++ names ∧
      Appends build packages names build.extensions build.listeners := by
  have hmode : Appends build
      (if build.commandLorawan || build.commandLora then networkModeRegister build env
        else fun s => (.ok (), s))
      (if build.commandLorawan || build.commandLora then networkModeNames else [])
      (if build.nvm then [.networkMode] else []) [] := by
    split
    · exact appends_networkModeRegister build env
    · rename_i hnone
      -- without a package there is no NVM either
      have hnvm : build.nvm = false := by
        rw [Bool.eq_false_iff]
        intro hnvm
        exact hnone (by rw [build.nvm_lorawan hnvm, Bool.true_or])
      rw [hnvm]
      exact appends_skip build
  have hlorawan : Appends build
      (if build.commandLorawan then lorawanRegister build else fun s => (.ok (), s))
      (if build.commandLorawan then lorawanGroups.flatten else [])
      (if build.commandLorawan then [.lorawan] else []) [] := by
    split
    · exact appends_lorawanRegister build
    · exact appends_skip build
  have hlora : Appends build
      (if build.commandLora then loraRegister build else fun s => (.ok (), s))
      (if build.commandLora then loraGroups.flatten else [])
      (if build.commandLora then [.lora] else []) build.listeners := by
    unfold Build.listeners
    split
    · exact appends_loraRegister build
    · exact appends_skip build
  have h := (appends_loadStrings build env).andThen (hmode.andThen (hlorawan.andThen hlora))
  simp only [List.nil_append, ← List.append_assoc] at h
  exact ⟨_, _, rfl, by simp only [Build.builtinNames, List.append_assoc], h⟩

theorem appends_builtinRegister (build : Build) (env : Env) :
    Appends build (builtinRegister build env) build.builtinNames build.extensions build.listeners := by
  obtain ⟨packages, names, hsplit, hnames, h⟩ := appends_packages build env
  rw [hsplit, hnames]
  exact (appends_registerNames build systemNames).andThen h

/-! ### One attempt -/

variable {application : List (Descriptor Handler)} {x : Sys} {acts : List Act}

/-- The system commands are in the table. -/
def Dirty (s : State) : Prop := some (ascii "VER") ∈ s.table.registered.map (·.name)

theorem Dirty.mono (h : Dirty s) (hgrows : s.table.registered <+: t.table.registered) : Dirty t :=
  (hgrows.map _).subset h

/-- `systemNames` are the names of the built-in table of `AtSystem`. -/
theorem systemNames_eq {ω : Type*} (port : Port ω)
    (handler : List UInt8 → Request → At.State ω → Int × At.State ω) :
    At.names (systemCommands port handler) = systemNames := rfl

theorem start_refused (build : Build) (h : env.isr = true ∨ env.io = false) (s : State) :
    ∃ e, start build env s = (.error e, s) := by
  unfold start
  split
  · exact ⟨_, rfl⟩
  · rename_i hisr
    rw [if_pos (by rw [h.resolve_left hisr]; rfl)]
    exact ⟨_, rfl⟩

/-- An attempt only appends to the command table, and keeps its integrity. -/
theorem start_grows (build : Build) (env : Env) (s : State) :
    s.table.registered <+: (start build env s).2.table.registered := by
  have h := (appends_builtinRegister build env).grows { s with started := true }
  unfold start
  split
  · exact List.prefix_rfl
  split
  · exact List.prefix_rfl
  split
  · exact List.prefix_rfl
  split <;> rename_i t ht <;> rw [ht] at h
  · exact h
  · dsimp only
    split <;> exact h

/-- What an attempt that succeeds has done. -/
theorem start_ok (h : (start build env s).1 = .ok ()) :
    env.isr = false ∧ env.io = true ∧ s.started = false ∧
      ∃ t, builtinRegister build env { s with started := true } = (.ok (), t) ∧
        (start build env s).2 = { t with table := Table.registrySeal t.table } := by
  unfold start at h ⊢
  split at h
  · cases h
  rename_i hisr
  rw [if_neg hisr]
  split at h
  · cases h
  rename_i hio
  rw [if_neg hio]
  split at h
  · cases h
  rename_i hstarted
  rw [if_neg hstarted]
  refine ⟨by simpa using hisr, by simpa using hio, by simpa using hstarted, ?_⟩
  split at h
  · cases h
  rename_i t ht
  dsimp only at h ⊢
  split at h
  · cases h
  exact ⟨t, ht, rfl⟩

/-- An attempt that fails clears `started`, or has changed nothing. -/
theorem start_error (h : (start build env s).1 ≠ .ok ()) :
    (start build env s).2 = s ∨ (start build env s).2.started = false := by
  unfold start at h ⊢
  split
  · exact .inl rfl
  rename_i hisr
  rw [if_neg hisr] at h
  split
  · exact .inl rfl
  rename_i hio
  rw [if_neg hio] at h
  split
  · exact .inl rfl
  rename_i hstarted
  rw [if_neg hstarted] at h
  split <;> rename_i t ht <;> rw [ht] at h
  · exact .inr rfl
  dsimp only at h ⊢
  split
  · exact .inr rfl
  · rename_i hext
    rw [hext] at h
    exact absurd rfl h

/-- The system commands of an attempt that succeeds are registered first, on the table it finds. -/
theorem registerNames_of_start_ok (h : (start build env s).1 = .ok ()) :
    (Table.register build.maxCommands (.array (systemNames.map build.command)) s.table).1 = .ok () := by
  obtain ⟨-, -, -, t, ht, -⟩ := start_ok h
  obtain ⟨r, hr, -⟩ := andThen_ok ht
  unfold registerNames at hr
  exact (Prod.mk.inj hr).1

/-- No attempt succeeds that finds the system commands registered. -/
theorem Dirty.start (h : Dirty s) : (start build env s).1 ≠ .ok () := by
  intro hok
  have hreg := registerNames_of_start_ok hok
  rcases Table.register_cases build.maxCommands (.array (systemNames.map build.command)) s.table with
    ⟨e, he⟩ | ⟨-, -, hcheck, -⟩
  · rw [he] at hreg
    cases hreg
  · obtain ⟨-, -, hnew, -⟩ := Table.checkCommands_ok hcheck
    refine hnew (build.command (ascii "VER")) ?_ h
    exact List.mem_map_of_mem (List.mem_cons_self ..)

/-- An attempt that registers the system commands leaves them in the table, whatever fails later. -/
theorem dirty_of_start (hisr : env.isr = false) (hio : env.io = true) (hstarted : s.started = false)
    (hreg : (Table.register build.maxCommands (.array (systemNames.map build.command)) s.table).1 =
      .ok ()) : Dirty (Start.start build env s).2 := by
  have hfirst : Dirty (registerNames build systemNames { s with started := true }).2 := by
    show some (ascii "VER") ∈ List.map (·.name)
      (Table.register build.maxCommands (.array (systemNames.map build.command)) s.table).2.registered
    rcases Table.register_cases build.maxCommands (.array (systemNames.map build.command)) s.table with
      ⟨e, he⟩ | ⟨-, -, -, he⟩
    · rw [he] at hreg
      cases hreg
    · rw [he, List.map_append]
      exact List.mem_append_right _ (List.mem_map.2
        ⟨build.command (ascii "VER"), List.mem_map_of_mem (List.mem_cons_self ..), rfl⟩)
  have hbuiltin : Dirty (builtinRegister build env { s with started := true }).2 := by
    obtain ⟨packages, names, hsplit, -, h⟩ := appends_packages build env
    rw [hsplit]
    exact hfirst.mono (h.grows_andThen _ _)
  unfold Start.start
  rw [if_neg (by simp [hisr]), if_neg (by simp [hio]), if_neg (by simp [hstarted])]
  split <;> rename_i t ht <;> rw [ht] at hbuiltin
  · exact hbuiltin
  · dsimp only
    split <;> exact hbuiltin

/-! ### Every history -/

/-- What holds while every attempt was turned away: only the application's commands are registered. -/
structure Clean (build : Build) (x : Sys) : Prop where
  state : x.state = fresh build x.application
  integrity : Table.Integrity build.maxCommands x.state.table

theorem clean_boot (build : Build) : Clean build (Sys.boot build) := ⟨rfl, Table.integrity_init⟩

theorem Clean.register (h : Clean build x) (batch : Batch Handler) :
    Clean build (next build x (.register batch)) := by
  have htable : x.state.table = ⟨x.application, false⟩ := congrArg State.table h.state
  constructor
  · show { x.state with table := (Table.register build.maxCommands batch x.state.table).2 } =
      fresh build (x.application ++
        if (Table.register build.maxCommands batch x.state.table).1.isOk then batch.commands else [])
    rw [h.state]
    rcases Table.register_cases build.maxCommands batch (fresh build x.application).table with
      ⟨e, he⟩ | ⟨-, -, -, he⟩
    · rw [he]
      show fresh build x.application = fresh build (x.application ++ [])
      rw [List.append_nil]
    · rw [he]
      rfl
  · exact h.integrity.register batch

theorem next_refused (hrefused : env.isr = true ∨ env.io = false) (x : Sys) :
    next build x (.start env) = x := by
  obtain ⟨e, he⟩ := start_refused build hrefused x.state
  show { x with state := (start build env x.state).2 } = x
  rw [he]

theorem clean_of_refused (build : Build) (acts : List Act) (h : ∀ a ∈ acts, Refused a) :
    Clean build (after build acts) := by
  refine List.foldlRecOn acts _ (clean_boot build) fun x hx a ha => ?_
  cases a with
  | register batch => exact hx.register batch
  | start env =>
    rw [next_refused (h _ ha)]
    exact hx

/-- The application's commands only grow in number. -/
theorem application_next (build : Build) (x : Sys) (a : Act) :
    x.application <+: (next build x a).application := by
  cases a with
  | register batch => exact List.prefix_append _ _
  | start env => exact List.prefix_rfl

theorem application_foldl (build : Build) (x : Sys) (acts : List Act) :
    x.application <+: (acts.foldl (next build) x).application := by
  induction acts generalizing x with
  | nil => exact List.prefix_rfl
  | cons a acts ih => exact (application_next build x a).trans (ih _)

theorem Dirty.next (h : Dirty x.state) (a : Act) : Dirty (Start.next build x a).state := by
  cases a with
  | register batch =>
    refine h.mono ?_
    show x.state.table.registered <+: (Table.register build.maxCommands batch x.state.table).2.registered
    rcases Table.register_cases build.maxCommands batch x.state.table with ⟨e, he⟩ | ⟨-, -, -, he⟩
    · exact he ▸ List.prefix_rfl
    · rw [he]
      exact List.prefix_append _ _
  | start env => exact h.mono (start_grows build env x.state)

theorem Dirty.foldl (h : Dirty x.state) (acts : List Act) :
    Dirty (acts.foldl (Start.next build) x).state := by
  induction acts generalizing x with
  | nil => exact h
  | cons a acts ih => exact ih (h.next a)

/-- The registration of the system commands succeeds on a part of a table on which it succeeds. -/
theorem register_of_prefix {part : List (Descriptor Handler)} (hpart : part <+: application)
    {commands : List (Descriptor Handler)}
    (h : (Table.register build.maxCommands (.array commands) ⟨application, false⟩).1 = .ok ()) :
    (Table.register build.maxCommands (.array commands) ⟨part, false⟩).1 = .ok () := by
  obtain ⟨more, rfl⟩ := hpart
  exact Table.register_of_fewer h

/-- Where the system commands find room in the end, a history is either clean or has left them
registered. -/
theorem dirty_of_foldl (hclean : Clean build x) (acts : List Act)
    (hreg : (Table.register build.maxCommands (.array (systemNames.map build.command))
      ⟨(acts.foldl (next build) x).application, false⟩).1 = .ok ())
    (hact : ∃ a ∈ acts, ¬ Refused a) : Dirty (acts.foldl (next build) x).state := by
  induction acts generalizing x with
  | nil =>
    obtain ⟨a, ha, -⟩ := hact
    cases ha
  | cons a acts ih =>
    cases a with
    | register batch =>
      refine ih (hclean.register batch) hreg ?_
      obtain ⟨a, ha, hrefused⟩ := hact
      rcases List.mem_cons.1 ha with rfl | ha
      · exact absurd trivial hrefused
      · exact ⟨a, ha, hrefused⟩
    | start env =>
      by_cases hrefused : env.isr = true ∨ env.io = false
      · rw [List.foldl_cons, next_refused hrefused] at hreg ⊢
        refine ih hclean hreg ?_
        obtain ⟨a, ha, hnot⟩ := hact
        rcases List.mem_cons.1 ha with rfl | ha
        · exact absurd hrefused hnot
        · exact ⟨a, ha, hnot⟩
      · rw [not_or] at hrefused
        refine Dirty.foldl ?_ acts
        refine dirty_of_start (by simpa using hrefused.1) (by simpa using hrefused.2) ?_ ?_
        · rw [hclean.state]
          rfl
        · rw [hclean.state]
          exact register_of_prefix (application_foldl build x (.start env :: acts)) hreg

/-- A successful attempt on a clean table registers everything once. -/
theorem complete_of_start (hintegrity : Table.Integrity build.maxCommands ⟨application, false⟩)
    (h : (start build env (fresh build application)).1 = .ok ()) :
    Complete build (start build env (fresh build application)).2 := by
  obtain ⟨-, -, -, t, ht, hend⟩ := start_ok h
  have hbuiltin := appends_builtinRegister build env
  have hcommands := hbuiltin.commands _ _ ht
  have hdistinct : (t.table.registered.map (·.name)).Nodup := by
    have hkept := hbuiltin.integrity { fresh build application with started := true } hintegrity
    rw [ht] at hkept
    exact hkept.distinct
  rw [hend]
  refine ⟨fun name hname => ?_, fun e he => ?_, fun l hl => ?_⟩
  · refine List.count_eq_one_of_mem hdistinct ?_
    show some name ∈ t.table.registered.map (·.name)
    rw [hcommands, List.map_append]
    exact List.mem_append_right _ (List.mem_map.2 ⟨build.command name, List.mem_map_of_mem hname, rfl⟩)
  · have hext : t.extensions = build.extensions := hbuiltin.extensions _ _ ht
    show t.extensions.count e = 1
    rw [hext]
    refine List.count_eq_one_of_mem ?_ he
    unfold Build.extensions
    cases build.nvm <;> cases build.commandLorawan <;> cases build.commandLora <;> decide
  · have hlis : t.listeners = build.listeners := hbuiltin.listeners _ _ ht
    show t.listeners.count l = 1
    rw [hlis]
    refine List.count_eq_one_of_mem ?_ hl
    unfold Build.listeners
    cases build.commandLora <;> decide

/-- An attempt that would succeed where nothing but the application's commands is registered succeeds,
and leaves everything registered once, if and only if every earlier attempt was turned away at once.
(After an attempt that succeeded there is nothing to retry, and the answer is -ALREADY.) -/
theorem retry_iff (build : Build) (acts : List Act) (env : Env)
    (hok : (start build env (fresh build (after build acts).application)).1 = .ok ()) :
    ((start build env (after build acts).state).1 = .ok () ∧
        Complete build (start build env (after build acts).state).2) ↔ ∀ a ∈ acts, Refused a := by
  constructor
  · rintro ⟨hstart, -⟩ a ha
    by_contra hrefused
    have hreg := registerNames_of_start_ok hok
    exact Dirty.start (dirty_of_foldl (clean_boot build) acts hreg ⟨a, ha, hrefused⟩) hstart
  · intro hrefused
    have hclean := clean_of_refused build acts hrefused
    have hintegrity := hclean.integrity
    rw [hclean.state] at hintegrity ⊢
    exact ⟨hok, complete_of_start hintegrity hok⟩

/-- A build of the LoRaWAN package, with the default limits. -/
def lorawanBuild : Build where
  commandLorawan := true
  commandLora := false
  nvm := true
  maxCommands := 160
  maxExtensions := 4
  details _ := (none, 0)
  nvm_lorawan h := h

def goodEnv : Env where
  isr := false
  io := true
  storageInit := .ok ()
  storageRead _ _ := .error .notFound
  lorawanStart := .ok ()
  loraStart := .ok ()

/-- The storage cannot be mounted at the first attempt; the second meets nothing wrong and fails. -/
theorem retry_fails :
    (start lorawanBuild { goodEnv with storageInit := .error .io } (Sys.boot lorawanBuild).state).1 =
        .error .io ∧
      (after lorawanBuild [.start { goodEnv with storageInit := .error .io }]).state.started = false ∧
      (start lorawanBuild goodEnv (fresh lorawanBuild [])).1 = .ok () ∧
      (start lorawanBuild goodEnv
        (after lorawanBuild [.start { goodEnv with storageInit := .error .io }]).state).1 =
          .error .already := by
  decide

theorem retry_iff_null : ((start lorawanBuild goodEnv
      (after lorawanBuild [.start { goodEnv with io := false }]).state).1 = .ok () ∧
    Complete lorawanBuild (start lorawanBuild goodEnv
      (after lorawanBuild [.start { goodEnv with io := false }]).state).2) ↔
    ∀ a ∈ [Act.start { goodEnv with io := false }], Refused a :=
  retry_iff lorawanBuild [.start { goodEnv with io := false }] goodEnv (by decide)

end Rzi.At.Start
