import Rzi.AtArguments
import Rzi.AtFactoryReset
import Rzi.LoraService
import Rzi.Lib.Run

/-!
# AT+NWM (`at_network_mode.c`, `at_lora.c`)

The working mode is kept three times: in RAM, under `rzi/nwm` in the store, and by the radio service,
which runs in the P2P modes. A start of the AT service loads the first from the second, AT+NWM changes
all three, and when the radio does not start in a P2P mode, `extension_process` falls back to the default
of the build. AT+NWM does nothing where the mode in RAM is already the requested one, which is right as
long as the store agrees. `transactional_write` says when one command is transactional; the runs of the
system are in `Rzi.AtNetworkRuns`.

The storage answers each command separately, as `Access`. The application may use the radio service on
its own, and the radio changes by itself.
-/

namespace Rzi.At.NetworkMode
open Storage LoraService Strtol
open Start (Build Handler Listener)
open FactoryReset (ReadsFrom SameSettings deleteStoredKey)
open Lts

/-- RZI_AT_NETWORK_MODE_P2P_LORA, RZI_AT_NETWORK_MODE_LORAWAN and RZI_AT_NETWORK_MODE_P2P_FSK. -/
def p2pLora : UInt8 := 0
def lorawan : UInt8 := 1
def p2pFsk : UInt8 := 2

/-- The options of the build, the bits of a `long`, and the backend of the radio. -/
structure Image (β : Type) extends Build where
  ztest : Bool
  longBits : Nat
  api : Api β

structure System (β : Type) where
  /-- `sys_reboot` has not been called -/
  up : Bool
  atService : Start.State
  p2pStartPending : Bool
  store : Store
  service : Service β

variable {β : Type} (image : Image β)

/-- `network_mode`. -/
def System.mode (x : System β) : UInt8 := x.atService.settings.networkMode

def System.setMode (mode : UInt8) (x : System β) : System β :=
  { x with atService := { x.atService with
    settings := { x.atService.settings with networkMode := mode } } }

/-- The AT thread runs. -/
def System.running (x : System β) : Bool := x.up && x.atService.started

/-! ### The listener -/

def modulation (mode : UInt8) : Modulation := if mode = p2pFsk then .fsk else .lora

/-- `on_network_mode`. -/
def onNetworkMode (mode : UInt8) (s : Service β) : Except Err Unit × Service β :=
  if mode = lorawan then loraStop image.api false s
  else loraInit image.api false (some (modulation mode)) s

/-- `rzi_at_lora_ensure_started`. -/
def ensureStarted (mode : UInt8) (s : Service β) : Except Err Unit × Service β :=
  if mode = lorawan then (.error .busy, s)
  else if loraIsStarted s then (.ok (), s)
  else loraInit image.api false (some (modulation mode)) s

/-- The loop of `notify_listeners` after a result. -/
def notify (mode : UInt8) : List Listener → Except Err Unit → Service β → Except Err Unit × Service β
  | [], rc, s => (rc, s)
  | .lora :: listeners, rc, s =>
    let one := onNetworkMode image mode s
    notify mode listeners (if rc = .ok () then one.1 else rc) one.2

/-- `notify_listeners`. -/
def notifyListeners (mode : UInt8) (x : System β) : Except Err Unit × System β :=
  let r := notify image mode x.atService.listeners (.ok ()) x.service
  (r.1, { x with service := r.2 })

/-! ### The store -/

/-- What `rzi_storage_init` returns, and the faults of the operation after it. -/
structure Access where
  init : Except Err Unit
  faults : List (Option Fault)

/-- The storage can be used. -/
def Access.Works (a : Access) : Prop := a.init = .ok () ∧ a.faults.headD none = none

/-- `save_mode`. -/
def saveMode (a : Access) (mode : UInt8) (x : System β) : Except Err Unit × System β :=
  if !image.nvm then (.ok (), x)
  else
    match a.init with
    | .error e => (.error e, x)
    | .ok () =>
      let r := write "rzi" "nwm" [mode] ⟨x.store, a.faults⟩
      (r.1, { x with store := r.2.store })

/-- `rzi_at_network_mode_restore_default`. -/
def restoreDefault (a : Access) (x : System β) : Except Err Unit × System β :=
  let x := x.setMode image.defaults.networkMode
  if !image.nvm then (.ok (), x)
  else
    match a.init with
    | .error e => (.error e, x)
    | .ok () =>
      let r := deleteStoredKey "rzi" "nwm" ⟨x.store, a.faults⟩
      (r.1, { x with store := r.2.store })

/-- What an attempt to start meets; it reads the store, with faults that depend on the key. -/
structure Attempt where
  isr : Bool
  io : Bool
  storageInit : Except Err Unit
  faults : String → List (Option Fault)
  lorawanStart : Except Err Unit
  loraStart : Except Err Unit

def Attempt.env (a : Attempt) (store : Store) : Start.Env :=
  ⟨a.isr, a.io, a.storageInit, fun key size => (read "rzi" key size ⟨store, a.faults key⟩).1,
    a.lorawanStart, a.loraStart⟩

/-- Nothing goes wrong. -/
def Attempt.good : Attempt := ⟨false, true, .ok (), fun _ => [], .ok (), .ok ()⟩

/-- What `load_mode` yields at the next boot, if the storage can be used. -/
def bootMode (store : Store) : Except Err UInt8 :=
  let r := Start.loadMode image.toBuild (Attempt.good.env store) image.boot
  r.1.map fun _ => r.2.settings.networkMode

/-! ### The command -/

/-- What the storage and the output answer during a command. -/
structure Replies where
  access : Access
  respond : Except Err Unit

/-- The checks of `handle_nwm`. -/
def requestedMode (argument : List UInt8) : Except Err UInt8 :=
  match parseLong image.longBits argument with
  | .error _ => .error .invalid
  | .ok parsed =>
    if parsed < 0 ∨ p2pFsk.toNat < parsed then .error .invalid
    else if UInt8.ofInt parsed ≠ lorawan ∧ image.commandLora = false then .error .notSupported
    else .ok (UInt8.ofInt parsed)

/-- `handle_nwm` sets the mode, tells the listeners and saves it. -/
def changeMode (a : Access) (mode : UInt8) (x : System β) : Except Err Unit × System β :=
  match notifyListeners image mode (x.setMode mode) with
  | (.error e, x) => (.error e, x)
  | (.ok (), x) => saveMode image a mode x

/-- The way back. -/
def rollBack (previous : UInt8) (x : System β) : Except Err Unit × System β :=
  notifyListeners image previous (x.setMode previous)

/-- A changed mode restarts the device. -/
def Image.restarts : Bool := image.commandLorawan && !image.ztest

def handleNwm (operation : Operation) (argument : List UInt8) (r : Replies) (x : System β) :
    Except Err Answer × System β :=
  if operation = .read then
    (r.respond.map fun _ => .value (ascii "AT+NWM=" ++ decimal x.mode.toNat), x)
  else
    match requestedMode image argument with
    | .error e => (.error e, x)
    | .ok mode =>
      if mode = x.mode then (r.respond.map fun _ => .ok, x)
      else
        match changeMode image r.access mode x with
        | (.error e, y) => (.error e, (rollBack image x.mode y).2)
        | (.ok (), y) => (r.respond.map fun _ => .ok, { y with up := y.up && !image.restarts })

/-- What the host is told: where the device restarts the handler does not return, and there is only the
OK that it has written. -/
def told (r : Except Err Answer × System β) : Option (Except Err Answer) :=
  match r with
  | (.ok answer, _) => some (.ok answer)
  | (.error e, y) => if y.up then some (.error e) else none

/-! ### The system -/

/-- `rzi_at_start`; `extension_start` of the LoRa package is the last thing that it calls. -/
def startService (a : Attempt) (x : System β) : System β :=
  let r := Start.start image.toBuild (a.env x.store) x.atService
  { x with
    atService := r.2
    p2pStartPending :=
      if r.1 = .ok () ∧ Start.Extension.lora ∈ r.2.extensions then
        decide (r.2.settings.networkMode ≠ lorawan)
      else x.p2pStartPending }

/-- `extension_process` of the LoRa package, without the poll of the radio. -/
def extensionProcess (a : Access) (x : System β) : System β :=
  if x.p2pStartPending then
    let x := { x with p2pStartPending := false }
    if x.mode = lorawan then x
    else
      let r := ensureStarted image x.mode x.service
      let x := { x with service := r.2 }
      if r.1 = .ok () then x else (restoreDefault image a x).2
  else x

/-- `rzi_at_registry_factory_reset`: the hook of the network mode, and what the others return. ATR and
AT+FACTORY restart the device if it returns 0. -/
def factoryReset (faults : List (Option Fault)) (others : Except Err Unit) (x : System β) :
    Except Err Unit × System β :=
  if Start.Extension.networkMode ∈ x.atService.extensions then
    let r := deleteStoredKey "rzi" "nwm" ⟨x.store, faults⟩
    (if r.1 = .ok () then others else r.1, { x with store := r.2.store })
  else (others, x)

inductive Act (β : Type) where
  /-- the device restarts; what the backend is then -/
  | reset (b : β)
  | register (batch : Table.Batch Handler)
  | start (a : Attempt)
  | nwm (operation : Operation) (argument : List UInt8) (r : Replies)
  /-- a command that needs the radio in a P2P mode -/
  | radioCommand
  | process (a : Access)
  | factoryReset (faults : List (Option Fault)) (others : Except Err Unit)
  /-- the application uses the radio service -/
  | call (c : LoraService.Call)
  /-- the radio and its backend change -/
  | radio (b : β)
  /-- another setting is written -/
  | write (name : String) (value : Bytes)

def step (x : System β) : Act β → Option (System β)
  | .reset b => some ⟨true, image.boot, false, x.store, .boot b⟩
  | .register batch =>
    if x.up then
      some { x with atService := { x.atService with
        table := (Table.register image.maxCommands batch x.atService.table).2 } }
    else none
  | .start a => if x.up then some (startService image a x) else none
  | .nwm operation argument r =>
    if x.running && (image.commandLorawan || image.commandLora) &&
        (operation == .read || operation == .write) then
      some (handleNwm image operation argument r x).2
    else none
  | .radioCommand =>
    if x.running && image.commandLora then
      some { x with service := (ensureStarted image x.mode x.service).2 }
    else none
  | .process a =>
    if x.running && decide (Start.Extension.lora ∈ x.atService.extensions) then
      some (extensionProcess image a x)
    else none
  | .factoryReset faults others =>
    if x.running then
      let r := factoryReset faults others x
      some { r.2 with up := decide (r.1 ≠ .ok ()) }
    else none
  | .call c =>
    if x.up then some { x with service := (LoraService.call image.api x.service c).2 } else none
  | .radio b => if x.up then some { x with service := { x.service with backend := b } } else none
  | .write name value =>
    if x.up && decide (name ≠ "rzi/nwm") then some { x with store := Function.update x.store name value }
    else none

/-- The device is switched on, with whatever an earlier image has stored. -/
def powerOn (store : Store) (b : β) : System β := ⟨true, image.boot, false, store, .boot b⟩

/-! ### The property and its conditions -/

/-- The radio service is started exactly in the P2P modes, with the modulation of the mode. -/
def Matches (mode : UInt8) (s : Service β) : Prop :=
  (s.started = true ↔ mode = p2pLora ∨ mode = p2pFsk) ∧ (s.started = true → s.modulation = modulation mode)

/-- The command goes back, and the listener takes it. -/
def RolledBack (argument : List UInt8) (r : Replies) (x : System β) : Prop :=
  ∃ mode e y, requestedMode image argument = .ok mode ∧ mode ≠ x.mode ∧
    changeMode image r.access mode x = (.error e, y) ∧ x.atService.listeners ≠ [] ∧
    (rollBack image x.mode y).1 = .ok ()

/-- What an outcome of AT+NWM promises: an error changes nothing, and OK for a mode means that it is
reported and loaded at the next boot. -/
structure Promise (operation : Operation) (argument : List UInt8) (r : Replies) (x : System β)
    (o : Except Err Answer × System β) : Prop where
  error : ∀ e, told o = some (.error e) → o.2.mode = x.mode ∧ o.2.store = x.store ∧
    (operation = .write → RolledBack image argument r x → Matches o.2.mode o.2.service)
  ok : told o = some (.ok .ok) → ∃ mode : UInt8, parseLong image.longBits argument = .ok (mode.toNat : Int) ∧
    o.2.mode = mode ∧ bootMode image o.2.store = .ok mode

def Transactional (x : System β) : Act β → Prop
  | .nwm operation argument r => Promise image operation argument r x (handleNwm image operation argument r x)
  | _ => True

/-- The listener and the storage take a new mode. -/
def Takes (r : Replies) (mode : UInt8) (x : System β) : Prop :=
  (notify image mode x.atService.listeners (.ok ()) x.service).1 = .ok () ∧
    (image.nvm = true → r.access.Works)

/-- The answer to a new mode is what becomes of it: an OK that cannot be written is lost in a restart, and
one that is written is true in a build that stores the mode, or for the default of the build. -/
def AnswersRight (r : Replies) (mode : UInt8) : Prop :=
  match r.respond with
  | .error _ => image.restarts = true
  | .ok () => image.nvm = true ∨ mode = image.defaults.networkMode

/-- The mode that is reported is the one that the next boot loads. -/
def Agrees (x : System β) : Prop := bootMode image x.store = .ok x.mode

/-- When AT+NWM is transactional in a state. -/
def Safe (x : System β) : Act β → Prop
  | .nwm .write argument r => ∀ mode, requestedMode image argument = .ok mode →
      (mode = x.mode → r.respond = .ok () → Agrees image x) ∧
        (mode ≠ x.mode → Takes image r mode x → AnswersRight image r mode)
  | _ => True

/-- The radio is to be started, and does not start. -/
def FallsBack (x : System β) : Prop :=
  x.p2pStartPending = true ∧ x.mode ≠ lorawan ∧ (ensureStarted image x.mode x.service).1 ≠ .ok ()

/-- When a step leaves the store and the mode in RAM in agreement. -/
def Keeps (x : System β) : Act β → Prop
  | .nwm .write argument r => ∀ mode, requestedMode image argument = .ok mode → mode ≠ x.mode →
      Takes image r mode x → AnswersRight image r mode
  | .process a => FallsBack image x → image.nvm = true → a.Works
  | .factoryReset faults others => Start.Extension.networkMode ∈ x.atService.extensions →
      faults.headD none = none → others = .ok () ∨ x.mode = image.defaults.networkMode
  | _ => True

/-! ### What the next boot loads -/

section Store
variable {image} {store store' : Store} {mode : UInt8} {a : Access} {attempt : Attempt} {x y : System β}
  {faults : List (Option Fault)}

theorem buildName_nwm : buildName "rzi" "nwm" = .ok "rzi/nwm" := by decide

theorem bootMode_volatile (hnvm : image.nvm = false) (store : Store) :
    bootMode image store = .ok image.defaults.networkMode := by
  unfold bootMode Start.loadMode
  rw [hnvm]
  rfl

/-- What `load_mode` makes of the stored bytes. -/
theorem bootMode_nvm (hnvm : image.nvm = true) (store : Store) : bootMode image store =
    if store "rzi/nwm" = [] then .ok image.defaults.networkMode
    else if (store "rzi/nwm").length = 1 then
      .ok (if 2 < (store "rzi/nwm").getD 0 0 then image.defaults.networkMode
        else (store "rzi/nwm").getD 0 0)
    else .error .tooLarge := by
  have hread : (read "rzi" "nwm" 1 ⟨store, []⟩).1 =
      if store "rzi/nwm" = [] then .error .notFound
      else if (store "rzi/nwm").length = 1 then .ok (store "rzi/nwm") else .error .tooLarge := by
    unfold Storage.read
    rw [if_neg Nat.one_ne_zero, buildName_nwm]
    rfl
  unfold bootMode Start.loadMode Attempt.env Attempt.good
  simp only [hnvm, Bool.not_true, Bool.false_eq_true, if_false, hread]
  by_cases hempty : store "rzi/nwm" = []
  · rw [if_pos hempty, if_pos hempty]
    rfl
  · rw [if_neg hempty, if_neg hempty]
    by_cases hone : (store "rzi/nwm").length = 1
    · rw [if_pos hone, if_pos hone]
      dsimp only
      split <;> rfl
    · rw [if_neg hone, if_neg hone]
      rfl

theorem bootMode_empty (hempty : store "rzi/nwm" = []) :
    bootMode image store = .ok image.defaults.networkMode := by
  cases hnvm : image.nvm with
  | false => exact bootMode_volatile hnvm store
  | true => rw [bootMode_nvm hnvm, if_pos hempty]

theorem bootMode_congr (h : store' "rzi/nwm" = store "rzi/nwm") :
    bootMode image store' = bootMode image store := by
  cases hnvm : image.nvm with
  | false => rw [bootMode_volatile hnvm, bootMode_volatile hnvm]
  | true => rw [bootMode_nvm hnvm, bootMode_nvm hnvm, h]

theorem bootMode_other (image : Image β) {name : String} (hname : name ≠ "rzi/nwm") (store : Store)
    (value : Bytes) : bootMode image (Function.update store name value) = bootMode image store :=
  bootMode_congr (Function.update_of_ne hname.symm value store)

theorem bootMode_saved (hnvm : image.nvm = true) (hmode : mode ≤ 2) (store : Store) :
    bootMode image (Function.update store "rzi/nwm" [mode]) = .ok mode := by
  rw [bootMode_nvm hnvm, Function.update_self, if_neg (List.cons_ne_nil _ _),
    if_pos (List.length_singleton (a := mode)), List.getD_cons_zero, if_neg (UInt8.not_lt.2 hmode)]

/-- What is stored after a change is loaded where the build stores it, or the mode is the default. -/
theorem bootMode_changed (hmode : mode ≤ 2) (store : Store) :
    bootMode image (if image.nvm then Function.update store "rzi/nwm" [mode] else store) = .ok mode ↔
      image.nvm = true ∨ mode = image.defaults.networkMode := by
  cases hnvm : image.nvm with
  | false =>
    rw [bootMode_volatile hnvm, Except.ok.injEq, eq_comm]
    simp only [Bool.false_eq_true, false_or]
  | true =>
    rw [if_pos rfl, bootMode_saved hnvm hmode]
    simp only [true_or]

theorem defaults_le : image.defaults.networkMode ≤ 2 := by
  show (if image.commandLorawan then 1 else 0 : UInt8) ≤ 2
  split <;> decide

theorem bootMode_le (h : bootMode image store = .ok mode) : mode ≤ 2 := by
  cases hnvm : image.nvm with
  | false =>
    rw [bootMode_volatile hnvm] at h
    cases h
    exact defaults_le
  | true =>
    rw [bootMode_nvm hnvm] at h
    split at h
    · cases h
      exact defaults_le
    split at h
    · split at h <;> cases h
      · exact defaults_le
      · rename_i hle
        exact UInt8.not_lt.1 hle
    · cases h

/-- What `load_mode` does in an attempt to start. -/
theorem loadMode_spec (image : Image β) (attempt : Attempt) (store : Store) (s : Start.State) :
    (∃ e, Start.loadMode image.toBuild (attempt.env store) s = (.error e, s)) ∨
      ∃ t, Start.loadMode image.toBuild (attempt.env store) s = (.ok (), t) ∧
        (bootMode image store = .ok t.settings.networkMode ∨
          t = s ∧ bootMode image store = .ok image.defaults.networkMode) := by
  unfold Start.loadMode
  cases hnvm : image.nvm with
  | false => exact .inr ⟨s, rfl, .inr ⟨rfl, bootMode_volatile hnvm store⟩⟩
  | true =>
    simp only [Bool.not_true, Bool.false_eq_true, if_false]
    cases (attempt.env store).storageInit with
    | error e => exact .inl ⟨e, rfl⟩
    | ok _ =>
      have hout := read_outcome buildName_nwm 1 ⟨store, attempt.faults "nwm"⟩
      change ReadOutcome _ _ ((attempt.env store).storageRead "nwm" 1) at hout
      dsimp only
      generalize (attempt.env store).storageRead "nwm" 1 = result at hout
      cases hout with
      | failed e he => exact .inl ⟨e, if_neg he⟩
      | absent hempty => exact .inr ⟨s, if_pos rfl, .inr ⟨rfl, bootMode_empty hempty⟩⟩
      | found hsome hone =>
        change store "rzi/nwm" ≠ [] at hsome
        change (store "rzi/nwm").length = 1 at hone
        have hboot := bootMode_nvm hnvm store
        rw [if_neg hsome, if_pos hone] at hboot
        dsimp only
        split
        · rename_i hlarge
          rw [if_pos hlarge] at hboot
          exact .inr ⟨s, rfl, .inr ⟨rfl, hboot⟩⟩
        · rename_i hsmall
          rw [if_neg hsmall] at hboot
          exact .inr ⟨_, rfl, .inl hboot⟩

theorem saveMode_spec (image : Image β) (a : Access) (mode : UInt8) (x : System β) :
    (image.nvm = true ∧ ¬ a.Works ∧ ∃ e, saveMode image a mode x = (.error e, x)) ∨
      ((image.nvm = true → a.Works) ∧ saveMode image a mode x = (.ok (), { x with
        store := if image.nvm then Function.update x.store "rzi/nwm" [mode] else x.store })) := by
  unfold saveMode
  cases hnvm : image.nvm with
  | false => exact .inr ⟨fun h => (by cases h), rfl⟩
  | true =>
    simp only [Bool.not_true, Bool.false_eq_true, if_false, if_true, true_and, forall_const]
    cases hinit : a.init with
    | error e => exact .inl ⟨fun h => (by cases hinit.symm.trans h.1), e, rfl⟩
    | ok _ =>
      have hwrite : write "rzi" "nwm" [mode] ⟨x.store, a.faults⟩ =
          onBackend (fun s => (.ok (), Function.update s "rzi/nwm" [mode])) ⟨x.store, a.faults⟩ := by
        unfold write
        rw [if_neg (List.cons_ne_nil _ _), buildName_nwm]
      rw [hwrite]
      rcases onBackend_cases (β := Unit) (fun s => (.ok (), Function.update s "rzi/nwm" [mode]))
        ⟨x.store, a.faults⟩ with ⟨⟨e, he⟩, hs, hfault⟩ | ⟨hok, hs, hfault⟩
      · refine .inl ⟨fun h => ?_, e.1, ?_⟩
        · rw [h.2] at hfault
          cases hfault
        · dsimp only
          rw [he, hs]
      · refine .inr ⟨⟨hinit, hfault⟩, ?_⟩
        dsimp only
        rw [hok, hs]

/-- A delete of the mode that meets no fault erases it, and any other leaves the store alone. -/
theorem deleteNwm_spec (store : Store) (faults : List (Option Fault)) :
    (faults.headD none = none ∧ (deleteStoredKey "rzi" "nwm" ⟨store, faults⟩).1 = .ok () ∧
        (deleteStoredKey "rzi" "nwm" ⟨store, faults⟩).2.store "rzi/nwm" = []) ∨
      (faults.headD none ≠ none ∧ (deleteStoredKey "rzi" "nwm" ⟨store, faults⟩).1 ≠ .ok () ∧
        (deleteStoredKey "rzi" "nwm" ⟨store, faults⟩).2.store = store) := by
  rcases delete_outcome buildName_nwm ⟨store, faults⟩ with ⟨⟨e, he⟩, hs, hfault⟩ | ⟨hok, -, hfault⟩
  · refine .inr ⟨fun h => ?_, fun hok => ?_, hs⟩
    · rw [h] at hfault
      cases hfault
    · unfold deleteStoredKey at hok
      simp only [he, reduceCtorEq, Except.error.injEq, e.2, or_self, if_false] at hok
  · have hdone : (deleteStoredKey "rzi" "nwm" ⟨store, faults⟩).1 = .ok () := if_pos hok
    exact .inl ⟨hfault, hdone, FactoryReset.deleteStoredKey_ok buildName_nwm hdone⟩

end Store

/-! ### What the listener does -/

section Listener
variable {image} {mode : UInt8} {rc : Except Err Unit} {s : Service β} {listeners : List Listener}

theorem mode_cases (h : mode ≤ 2) : mode = p2pLora ∨ mode = lorawan ∨ mode = p2pFsk := by
  have hle : mode.toNat ≤ 2 := h
  have hnat : mode.toNat = 0 ∨ mode.toNat = 1 ∨ mode.toNat = 2 := by omega
  rcases hnat with h0 | h1 | h2
  · exact .inl (UInt8.toNat_inj.1 h0)
  · exact .inr (.inl (UInt8.toNat_inj.1 h1))
  · exact .inr (.inr (UInt8.toNat_inj.1 h2))

/-- A mode that the listener takes is the one the radio is in. -/
theorem onNetworkMode_matches (hmode : mode ≤ 2) (h : (onNetworkMode image mode s).1 = .ok ()) :
    Matches mode (onNetworkMode image mode s).2 := by
  unfold onNetworkMode at h ⊢
  by_cases hlorawan : mode = lorawan
  · rw [if_pos hlorawan] at h ⊢
    have hview : (loraStop image.api false s).2.view = s.view.after (.stop false) :=
      call_ok (a := .stop false) h
    have hstopped : (loraStop image.api false s).2.started = false := congrArg View.started hview
    refine ⟨?_, fun hstarted => ?_⟩
    · subst hlorawan
      rw [hstopped]
      decide
    · rw [hstopped] at hstarted
      cases hstarted
  · rw [if_neg hlorawan] at h ⊢
    have hview : (loraInit image.api false (some (modulation mode)) s).2.view =
        s.view.after (.init false (some (modulation mode))) :=
      call_ok (a := .init false (some (modulation mode))) h
    have hstarted : (loraInit image.api false (some (modulation mode)) s).2.started = true :=
      congrArg View.started hview
    have hmod : (loraInit image.api false (some (modulation mode)) s).2.modulation = modulation mode :=
      congrArg View.modulation hview
    refine ⟨⟨fun _ => ?_, fun _ => hstarted⟩, fun _ => hmod⟩
    rcases mode_cases hmode with hp2p | hp2p | hp2p
    · exact .inl hp2p
    · exact absurd hp2p hlorawan
    · exact .inr hp2p

/-- The first error is kept. -/
theorem notify_rc (h : (notify image mode listeners rc s).1 = .ok ()) : rc = .ok () := by
  induction listeners generalizing rc s with
  | nil => exact h
  | cons listener listeners ih =>
    have hnext := ih h
    by_contra hrc
    rw [if_neg hrc] at hnext
    exact hrc hnext

theorem notify_matches (hmode : mode ≤ 2) (hsome : listeners ≠ [])
    (h : (notify image mode listeners rc s).1 = .ok ()) :
    Matches mode (notify image mode listeners rc s).2 := by
  induction listeners generalizing rc s with
  | nil => exact absurd rfl hsome
  | cons listener listeners ih =>
    cases listeners with
    | nil =>
      have hrc : rc = .ok () := notify_rc h
      subst hrc
      exact onNetworkMode_matches hmode h
    | cons next listeners => exact ih (List.cons_ne_nil next listeners) h

end Listener

/-! ### One command -/

section Command
variable {image} {mode : UInt8} {e : Err} {r : Replies} {x y : System β} {argument : List UInt8}
  {operation : Operation}

theorem requestedMode_ok (h : requestedMode image argument = .ok mode) :
    parseLong image.longBits argument = .ok (mode.toNat : Int) ∧ mode ≤ 2 := by
  unfold requestedMode at h
  split at h
  · cases h
  rename_i parsed hparsed
  split at h
  · cases h
  rename_i hrange
  split at h
  · cases h
  cases h
  have hmodes : parsed = 0 ∨ parsed = 1 ∨ parsed = 2 := by
    rw [not_or, Int.not_lt, Int.not_lt] at hrange
    have hle : parsed ≤ 2 := hrange.2
    omega
  rcases hmodes with rfl | rfl | rfl
  · exact ⟨hparsed, by decide⟩
  · exact ⟨hparsed, by decide⟩
  · exact ⟨hparsed, by decide⟩

/-- A change either takes place, or fails with the store as it was. -/
theorem changeMode_spec (image : Image β) (r : Replies) (mode : UInt8) (x : System β) :
    (¬ Takes image r mode x ∧ ∃ e s, changeMode image r.access mode x =
        (.error e, { x.setMode mode with service := s })) ∨
      (Takes image r mode x ∧ ∃ s, changeMode image r.access mode x = (.ok (), { x.setMode mode with
        service := s
        store := if image.nvm then Function.update x.store "rzi/nwm" [mode] else x.store })) := by
  rcases hn : notify image mode x.atService.listeners (.ok ()) x.service with ⟨rc, s⟩
  have hnotify : notifyListeners image mode (x.setMode mode) =
      (rc, { x.setMode mode with service := s }) := by
    show ((notify image mode x.atService.listeners (.ok ()) x.service).1,
      { x.setMode mode with service := (notify image mode x.atService.listeners (.ok ()) x.service).2 }) = _
    rw [hn]
  unfold changeMode Takes
  rw [hnotify, hn]
  cases rc with
  | error e => exact .inl ⟨fun h => (by cases h.1), e, s, rfl⟩
  | ok _ =>
    dsimp only
    rcases saveMode_spec image r.access mode { x.setMode mode with service := s } with
      ⟨hnvm, hfails, e, hsave⟩ | ⟨hworks, hsave⟩
    · exact .inl ⟨fun h => hfails (h.2 hnvm), e, s, hsave⟩
    · exact .inr ⟨⟨rfl, hworks⟩, s, hsave⟩

variable (image) in
/-- What a write of AT+NWM can do. -/
inductive Effect (argument : List UInt8) (r : Replies) (x : System β) :
    Except Err Answer × System β → Prop
  | refused (e : Err) (hrequest : requestedMode image argument = .error e) :
      Effect argument r x (.error e, x)
  | same (hrequest : requestedMode image argument = .ok x.mode) :
      Effect argument r x (r.respond.map fun _ => .ok, x)
  | undone (mode : UInt8) (e : Err) (y : System β) (hrequest : requestedMode image argument = .ok mode)
      (hne : mode ≠ x.mode) (hnot : ¬ Takes image r mode x)
      (hchange : changeMode image r.access mode x = (.error e, y)) :
      Effect argument r x (.error e, { x with service := (rollBack image x.mode y).2.service })
  | changed (mode : UInt8) (s : Service β) (hrequest : requestedMode image argument = .ok mode)
      (hne : mode ≠ x.mode) (htakes : Takes image r mode x) :
      Effect argument r x (r.respond.map fun _ => .ok, { x.setMode mode with
        service := s
        store := if image.nvm then Function.update x.store "rzi/nwm" [mode] else x.store
        up := x.up && !image.restarts })

theorem handleNwm_effect (image : Image β) (argument : List UInt8) (r : Replies) (x : System β) :
    Effect image argument r x (handleNwm image .write argument r x) := by
  unfold handleNwm
  rw [if_neg (by decide)]
  cases hrequest : requestedMode image argument with
  | error e => exact .refused e hrequest
  | ok mode =>
    dsimp only
    by_cases hsame : mode = x.mode
    · rw [if_pos hsame]
      exact .same (hsame ▸ hrequest)
    · rw [if_neg hsame]
      rcases changeMode_spec image r mode x with
        ⟨hnot, e, s, hchange⟩ | ⟨htakes, s, hchange⟩
      · rw [hchange]
        exact .undone mode e _ hrequest hsame hnot hchange
      · rw [hchange]
        exact .changed mode s hrequest hsame htakes

theorem told_error : told (.error e, x) = if x.up then some (.error e) else none := rfl

/-- The radio is in the old mode again if the listener takes it. -/
theorem rollBack_matches (hmode : x.mode ≤ 2) (hsome : x.atService.listeners ≠ [])
    (hchange : changeMode image r.access mode x = (.error e, y))
    (hback : (rollBack image x.mode y).1 = .ok ()) :
    Matches x.mode (rollBack image x.mode y).2.service := by
  refine notify_matches hmode ?_ hback
  rcases changeMode_spec image r mode x with ⟨-, e', s, hspec⟩ | ⟨-, s, hspec⟩
  · cases hchange.symm.trans hspec
    exact hsome
  · cases hchange.symm.trans hspec

/-- A command that ends with an error and leaves mode and store alone keeps its promise, if it has not gone
back. -/
theorem Promise.of_unchanged {s : Service β} (hup : x.up = true) (hback : ¬ RolledBack image argument r x) :
    Promise image operation argument r x (.error e, { x with service := s }) where
  error _ _ := ⟨rfl, rfl, fun _ h => absurd h hback⟩
  ok h := by
    rw [told_error, if_pos hup] at h
    cases h

theorem promise_refused (hup : x.up = true) (hrequest : requestedMode image argument = .error e) :
    Promise image .write argument r x (.error e, x) := by
  refine .of_unchanged hup ?_
  rintro ⟨mode, -, -, hok, -⟩
  cases hrequest.symm.trans hok

/-- The shortcut: an OK is true where the store agrees. -/
theorem promise_same (hup : x.up = true) (hrequest : requestedMode image argument = .ok x.mode) :
    Promise image .write argument r x (r.respond.map fun _ => .ok, x) ↔
      (r.respond = .ok () → Agrees image x) := by
  rcases hrespond : r.respond with e | _
  · refine iff_of_true (.of_unchanged hup ?_) fun h => (by cases h)
    rintro ⟨mode, -, -, hok, hne, -⟩
    cases hrequest.symm.trans hok
    exact hne rfl
  · constructor
    · rintro h -
      obtain ⟨mode, -, hreported, hboot⟩ := h.ok rfl
      rw [← hreported] at hboot
      exact hboot
    · intro h
      exact ⟨fun e he => (by cases he), fun _ => ⟨x.mode, (requestedMode_ok hrequest).1, rfl, h rfl⟩⟩

theorem promise_undone (hup : x.up = true) (hmode : x.mode ≤ 2)
    (hrequest : requestedMode image argument = .ok mode)
    (hchange : changeMode image r.access mode x = (.error e, y)) :
    Promise image .write argument r x
      (.error e, { x with service := (rollBack image x.mode y).2.service }) where
  error _ _ := by
    refine ⟨rfl, rfl, ?_⟩
    rintro - ⟨mode', e', y', hok, -, hchange', hsome, hback⟩
    cases hrequest.symm.trans hok
    cases hchange.symm.trans hchange'
    have hmatches := rollBack_matches (x := x) hmode hsome hchange hback
    exact hmatches
  ok h := by
    rw [told_error, if_pos hup] at h
    cases h

theorem promise_changed {s : Service β} (hup : x.up = true)
    (hrequest : requestedMode image argument = .ok mode) (hne : mode ≠ x.mode) :
    Promise image .write argument r x (r.respond.map fun _ => .ok, { x.setMode mode with
        service := s
        store := if image.nvm then Function.update x.store "rzi/nwm" [mode] else x.store
        up := x.up && !image.restarts }) ↔ AnswersRight image r mode := by
  obtain ⟨hparse, hle⟩ := requestedMode_ok hrequest
  unfold AnswersRight
  rcases r.respond with e | _
  · rcases hrestarts : image.restarts with _ | _
    · -- the host is told of an error, and the mode is another one
      refine iff_of_false (fun h => hne (h.error e ?_).1) fun h => (by cases h)
      rw [Except.map, told_error, hup]
      rfl
    · refine iff_of_true ⟨fun e' he => ?_, fun he => ?_⟩ rfl
      · rw [Except.map, told_error, hup] at he
        cases he
      · rw [Except.map, told_error, hup] at he
        cases he
  · dsimp only
    rw [← bootMode_changed hle x.store]
    constructor
    · intro h
      obtain ⟨mode', -, hreported, hboot⟩ := h.ok rfl
      rw [← hreported] at hboot
      exact hboot
    · intro h
      exact ⟨fun e he => (by cases he), fun _ => ⟨mode, hparse, rfl, h⟩⟩

theorem transactional_write (hup : x.up = true) (hmode : x.mode ≤ 2) :
    Transactional image x (.nwm .write argument r) ↔ Safe image x (.nwm .write argument r) := by
  have heffect := handleNwm_effect image argument r x
  unfold Transactional Safe
  dsimp only
  generalize handleNwm image .write argument r x = o at heffect
  cases heffect with
  | refused e hrequest =>
    exact iff_of_true (promise_refused hup hrequest) fun mode hok => (by cases hrequest.symm.trans hok)
  | same hrequest =>
    rw [promise_same hup hrequest]
    constructor
    · intro h mode hok
      cases hrequest.symm.trans hok
      exact ⟨fun _ => h, fun hne => absurd rfl hne⟩
    · exact fun h => (h x.mode hrequest).1 rfl
  | undone mode e y hrequest hne hnot hchange =>
    refine iff_of_true (promise_undone hup hmode hrequest hchange) fun mode' hok => ?_
    cases hrequest.symm.trans hok
    exact ⟨fun h => absurd h hne, fun _ htakes => absurd htakes hnot⟩
  | changed mode s hrequest hne htakes =>
    rw [promise_changed hup hrequest hne]
    constructor
    · intro h mode' hok
      cases hrequest.symm.trans hok
      exact ⟨fun hsame => absurd hsame hne, fun _ _ => h⟩
    · exact fun h => (h mode hrequest).2 hne htakes

theorem transactional_read (argument : List UInt8) (r : Replies) (x : System β) :
    Transactional image x (.nwm .read argument r) := by
  have hread : handleNwm image .read argument r x =
      (r.respond.map fun _ => .value (ascii "AT+NWM=" ++ decimal x.mode.toNat), x) := if_pos rfl
  unfold Transactional
  dsimp only
  rw [hread]
  rcases r.respond with e | _
  · refine ⟨fun _ _ => ⟨rfl, rfl, fun h => (by cases h)⟩, fun hok => ?_⟩
    rw [Except.map, told_error] at hok
    split at hok <;> cases hok
  · exact ⟨fun e he => (by cases he), fun hok => (by cases hok)⟩

end Command

end Rzi.At.NetworkMode
