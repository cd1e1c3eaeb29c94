import Rzi.LorawanService
import Rzi.Power
import Rzi.UspBackend
import Rzi.Lib.Run

/-!
# The power lock of Class C (`update_class_c_power_locked`, `rzi_lorawan_note_class`)

The service takes a reference to the LORAWAN power lock when it notes Class C and gives it back when it
notes another class or leaves the network. A leave does not change the class, so a getter that reads C
from the backend afterwards takes the reference again. `held_for_class_c_iff` says in which runs the
reference is held for a Class C that was set and not left, and only for that.

The build has CONFIG_RZI_POWER_AUTO_SERVICE_LOCK. The backend keeps the class it was given last.
-/

namespace Rzi.Lorawan.ClassPower
open Lts
open Power (Lock lockGet lockPut)
open Usp (DeviceClass)

/-- The class an argument of type `enum rzi_lorawan_class` names. -/
def classOfNumber (raw : UInt32) : Option DeviceClass :=
  [DeviceClass.a, DeviceClass.b, DeviceClass.c][raw.toNat]?

/-- What is fixed of the backend: `capabilities`, and whether it has the two operations. -/
structure Backend where
  capability : DeviceClass → Bool
  getClass : Bool
  stopClassB : Bool

/-- The calls that decide about the lock. -/
inductive Decision where
  | setClass (deviceClass : DeviceClass)
  | stopClassB
  | leave
deriving DecidableEq, Repr

structure State where
  service : Service
  configuredClass : DeviceClass
  powerClassCHeld : Bool
  /-- the class the backend reports -/
  backendClass : DeviceClass
  power : Power.State
  /-- the references the service has taken less those it has given back -/
  references : Int
  /-- whether a call of the lock has failed -/
  lockFailed : Bool
  /-- the last of the calls that succeeded -/
  last : Option Decision

def State.init : State := ⟨.init, .a, false, .a, .init, 0, false, none⟩

/-- RZI_POWER_LOCK_LORAWAN. -/
def lorawanLock : UInt32 := 1

/-! ### The calls -/

def updateClassCPowerLocked (classC : Bool) (s : State) : State :=
  if classC && !s.powerClassCHeld then
    match lockGet false lorawanLock s.power with
    | (.ok (), power) =>
      { s with power := power, powerClassCHeld := true, references := s.references + 1 }
    | (.error _, power) => { s with power := power, lockFailed := true }
  else if !classC && s.powerClassCHeld then
    match lockPut false lorawanLock s.power with
    | (.ok (), power) =>
      { s with power := power, powerClassCHeld := false, references := s.references - 1 }
    | (.error _, power) => { s with power := power, lockFailed := true }
  else s

def noteClass (deviceClass : DeviceClass) (s : State) : State :=
  updateClassCPowerLocked (deviceClass == .c) { s with configuredClass := deviceClass }

/-- `rzi_lorawan_set_class`; `answer` is what `backend.set_class` returns. -/
def setClass (backend : Backend) (raw : UInt32) (answer : Except Err Unit) (s : State) :
    Except Err Unit × State :=
  match classOfNumber raw with
  | none => (.error .invalid, s)
  | some k =>
    if !s.service.started then (.error .notReady, s)
    else if !backend.capability k then (.error .notSupported, s)
    else
      match answer with
      | .error e => (.error e, s)
      | .ok () => (.ok (), { noteClass k { s with backendClass := k } with last := some (.setClass k) })

/-- `rzi_lorawan_get_class`; `dest` is false for a NULL pointer, and `failure` is what
`backend.get_class` returns if it fails. -/
def getClass (backend : Backend) (dest : Bool) (failure : Option Err) (s : State) :
    Except Err DeviceClass × State :=
  if !s.service.started then (.error .notReady, s)
  else if !dest then (.error .invalid, s)
  else if !backend.getClass then (.ok s.configuredClass, s)
  else
    match failure with
    | none => (.ok s.backendClass, noteClass s.backendClass s)
    | some e => if e = .notSupported then (.ok s.configuredClass, s) else (.error e, s)

/-- `rzi_lorawan_stop_class_b`, after which the class is A. -/
def stopClassB (backend : Backend) (answer : Except Err Unit) (s : State) : Except Err Unit × State :=
  if !s.service.started then (.error .notReady, s)
  else if !backend.stopClassB then (.error .notSupported, s)
  else
    match answer with
    | .error e => (.error e, s)
    | .ok () => (.ok (), { noteClass .a { s with backendClass := .a } with last := some .stopClassB })

/-- `rzi_lorawan_leave`. -/
def leave (env : Env) (s : State) : Except Err Unit × State :=
  match lorawanLeave env s.service with
  | (.error e, service) => (.error e, { s with service := service })
  | (.ok (), service) =>
    (.ok (), { updateClassCPowerLocked false { s with service := service } with last := some .leave })

/-- The calls that decide about Class C, what else goes on in the service, and the lock calls of other
code. -/
inductive Act where
  | setClass (raw : UInt32) (answer : Except Err Unit)
  | getClass (dest : Bool) (failure : Option Err)
  | stopClassB (answer : Except Err Unit)
  | leave (env : Env)
  | service (act : Lorawan.Act)
  | power (call : Power.Call)

def next (build : Build) (backend : Backend) (s : State) : Act → Option State
  | .setClass raw answer => some (setClass backend raw answer s).2
  | .getClass dest failure => some (getClass backend dest failure s).2
  | .stopClassB answer => some (stopClassB backend answer s).2
  | .leave env => some (leave env s).2
  | .service (.leave _) => none
  | .service act => (Lorawan.step build s.service act).map fun service => { s with service := service }
  | .power call => some { s with power := (call.run true s.power).2 }

/-- One call; a history ends where a lock call of the service fails. -/
def step (build : Build) (backend : Backend) (s : State) (a : Act) : Option State :=
  (next build backend s a).filter fun t => !t.lockFailed

/-! ### When the reference is right -/

/-- The service holds one reference if the last call that succeeded set Class C, and none otherwise. -/
def HeldForClassC (s : State) : Prop :=
  s.references = if s.last = some (.setClass .c) then 1 else 0

/-- `rzi_lorawan_get_class` moves no reference. -/
def GetterKeeps (build : Build) (backend : Backend) (s : State) : Act → Prop
  | .getClass dest failure => ∀ t, step build backend s (.getClass dest failure) = some t →
      t.references = s.references
  | _ => True

/-- The getter is answered by the backend. -/
def Reads (backend : Backend) (dest : Bool) (failure : Option Err) (s : State) : Prop :=
  s.service.started = true ∧ dest = true ∧ backend.getClass = true ∧ failure = none

/-- The backend does not report Class C to a getter after a leave. -/
def NotReadAfterLeave (backend : Backend) (s : State) : Act → Prop
  | .getClass dest failure =>
    Reads backend dest failure s → s.last = some .leave → s.backendClass ≠ .c
  | _ => True

/-- What ties the service's flag, its references and the backend's class to the last call. -/
structure Noted (s : State) : Prop where
  ok : s.lockFailed = false
  held : s.references = s.powerClassCHeld.toNat
  current : s.powerClassCHeld = decide (s.last = some (.setClass .c))
  set : s.last = some (.setClass .c) → s.backendClass = .c
  left : s.backendClass = .c → s.last = some (.setClass .c) ∨ s.last = some .leave

variable {build : Build} {backend : Backend} {s t u : State} {a : Act}

theorem noted_init : Noted .init := ⟨rfl, rfl, rfl, by decide, by decide⟩

theorem Noted.heldForClassC (h : Noted s) : HeldForClassC s := by
  unfold HeldForClassC
  rw [h.held, h.current]
  by_cases hl : s.last = some (.setClass .c) <;> simp [hl]

/-- Unless the lock call fails, the flag and the reference become what is asked for. -/
theorem updateClassCPowerLocked_ok (classC : Bool) (s : State)
    (hheld : s.references = s.powerClassCHeld.toNat)
    (h : (updateClassCPowerLocked classC s).lockFailed = false) :
    ∃ power, updateClassCPowerLocked classC s =
      { s with power := power, powerClassCHeld := classC, references := classC.toNat } := by
  unfold updateClassCPowerLocked at h ⊢
  split at h
  · rename_i hget
    obtain ⟨rfl, hfree⟩ : classC = true ∧ s.powerClassCHeld = false := by simpa using hget
    rw [if_pos hget]
    split at h
    · rename_i power hlock
      exact ⟨power, by simp [hheld, hfree]⟩
    · cases h
  · rename_i hget
    rw [if_neg hget]
    split at h
    · rename_i hput
      obtain ⟨rfl, hfree⟩ : classC = false ∧ s.powerClassCHeld = true := by simpa using hput
      rw [if_pos hput]
      split at h
      · rename_i power hlock
        exact ⟨power, by simp [hheld, hfree]⟩
      · cases h
    · rename_i hput
      rw [if_neg hput]
      have hsame : s.powerClassCHeld = classC := by
        cases classC <;> cases hc : s.powerClassCHeld <;> simp_all
      refine ⟨s.power, ?_⟩
      rw [← hsame, ← hheld]

/-- A class or a leave that is noted, whatever was held before. -/
theorem Noted.decided {classC : Bool} {d : Decision} (hheld : s.references = s.powerClassCHeld.toNat)
    (hd : classC = decide (d = .setClass .c)) (hset : d = .setClass .c → s.backendClass = .c)
    (hleft : s.backendClass = .c → d = .setClass .c ∨ d = .leave)
    (h : (updateClassCPowerLocked classC s).lockFailed = false) :
    Noted { updateClassCPowerLocked classC s with last := some d } := by
  obtain ⟨power, heq⟩ := updateClassCPowerLocked_ok classC s hheld h
  rw [heq] at h ⊢
  exact ⟨h, rfl, by simp [hd], by simpa using hset, by simpa using hleft⟩

/-- A getter that reads the class the last call has set. -/
theorem Noted.read (h : Noted s) (hclass : s.last = some .leave → s.backendClass ≠ .c)
    (hok : (noteClass s.backendClass s).lockFailed = false) :
    Noted (noteClass s.backendClass s) ∧ (noteClass s.backendClass s).references = s.references := by
  obtain ⟨power, heq⟩ := updateClassCPowerLocked_ok (s.backendClass == .c)
    { s with configuredClass := s.backendClass } h.held hok
  have hheld : (s.backendClass == .c) = s.powerClassCHeld := by
    rw [h.current, Bool.eq_iff_iff, beq_iff_eq, decide_eq_true_eq]
    refine ⟨fun hc => ?_, h.set⟩
    rcases h.left hc with hlast | hlast
    · exact hlast
    · exact absurd hc (hclass hlast)
  have hnote : noteClass s.backendClass s = { s with
      configuredClass := s.backendClass, power := power } := by
    refine heq.trans ?_
    rw [hheld, ← h.held]
  rw [hnote]
  exact ⟨⟨h.ok, h.held, h.current, h.set, h.left⟩, rfl⟩

theorem step_eq_some :
    step build backend s a = some t ↔ next build backend s a = some t ∧ t.lockFailed = false := by
  simp [step, Option.filter_eq_some_iff]

theorem next_service {act : Lorawan.Act} (h : next build backend s (.service act) = some t) :
    ∃ service, t = { s with service := service } := by
  cases act with
  | leave env => cases h
  | init _ _ | join _ _ _ | set _ _ | clearSettings _ | publish _ _ | dispatch =>
    simp only [next, Option.map_eq_some_iff] at h
    obtain ⟨service, -, rfl⟩ := h
    exact ⟨service, rfl⟩

theorem getClass_cases (backend : Backend) (dest : Bool) (failure : Option Err) (s : State) :
    (¬ Reads backend dest failure s ∧ (getClass backend dest failure s).2 = s) ∨
      (Reads backend dest failure s ∧
        (getClass backend dest failure s).2 = noteClass s.backendClass s) := by
  unfold getClass Reads
  split
  · rename_i h
    exact .inl ⟨fun hr => by simp [hr.1] at h, rfl⟩
  rename_i hstarted
  split
  · rename_i h
    exact .inl ⟨fun hr => by simp [hr.2.1] at h, rfl⟩
  rename_i hdest
  split
  · rename_i h
    exact .inl ⟨fun hr => by simp [hr.2.2.1] at h, rfl⟩
  rename_i hop
  split
  · exact .inr ⟨⟨by simpa using hstarted, by simpa using hdest, by simpa using hop, rfl⟩, rfl⟩
  · refine .inl ⟨fun hr => ?_, ?_⟩
    · cases hr.2.2.2
    · split <;> rfl

theorem Noted.getClass {dest : Bool} {failure : Option Err} (h : Noted s)
    (hG : NotReadAfterLeave backend s (.getClass dest failure))
    (hok : (getClass backend dest failure s).2.lockFailed = false) :
    Noted (ClassPower.getClass backend dest failure s).2 ∧
      (ClassPower.getClass backend dest failure s).2.references = s.references := by
  rcases getClass_cases backend dest failure s with ⟨-, heq⟩ | ⟨hr, heq⟩
  · rw [heq]
    exact ⟨h, rfl⟩
  · rw [heq] at hok ⊢
    exact h.read (hG hr) hok

theorem setClass_cases (backend : Backend) (raw : UInt32) (answer : Except Err Unit) (s : State) :
    (setClass backend raw answer s).2 = s ∨ ∃ k, (setClass backend raw answer s).2 =
      { noteClass k { s with backendClass := k } with last := some (.setClass k) } := by
  unfold setClass
  split
  · exact .inl rfl
  rename_i k _
  split
  · exact .inl rfl
  split
  · exact .inl rfl
  split
  · exact .inl rfl
  · exact .inr ⟨k, rfl⟩

theorem stopClassB_cases (backend : Backend) (answer : Except Err Unit) (s : State) :
    (stopClassB backend answer s).2 = s ∨ (stopClassB backend answer s).2 =
      { noteClass .a { s with backendClass := .a } with last := some .stopClassB } := by
  unfold stopClassB
  split
  · exact .inl rfl
  split
  · exact .inl rfl
  split
  · exact .inl rfl
  · exact .inr rfl

theorem Noted.setClass {raw : UInt32} {answer : Except Err Unit} (h : Noted s)
    (hok : (setClass backend raw answer s).2.lockFailed = false) :
    Noted (ClassPower.setClass backend raw answer s).2 := by
  rcases setClass_cases backend raw answer s with heq | ⟨k, heq⟩
  · rw [heq]
    exact h
  · rw [heq] at hok ⊢
    exact Noted.decided h.held (by cases k <;> decide) (by simp) (by simp) hok

theorem Noted.stopClassB {answer : Except Err Unit} (h : Noted s)
    (hok : (stopClassB backend answer s).2.lockFailed = false) :
    Noted (ClassPower.stopClassB backend answer s).2 := by
  rcases stopClassB_cases backend answer s with heq | heq
  · rw [heq]
    exact h
  · rw [heq] at hok ⊢
    exact Noted.decided h.held (by decide) (by simp) (by simp) hok

theorem Noted.leave {env : Env} (h : Noted s) (hok : (leave env s).2.lockFailed = false) :
    Noted (ClassPower.leave env s).2 := by
  unfold ClassPower.leave at hok ⊢
  split
  · exact ⟨h.ok, h.held, h.current, h.set, h.left⟩
  · rename_i service hleave
    rw [hleave] at hok
    exact Noted.decided h.held (by decide) (by simp) (by simp) hok

theorem Noted.step (h : Noted s) (hG : NotReadAfterLeave backend s a)
    (ht : step build backend s a = some t) : Noted t := by
  obtain ⟨hnext, hok⟩ := step_eq_some.1 ht
  cases a with
  | setClass raw answer =>
    obtain rfl : (ClassPower.setClass backend raw answer s).2 = t := Option.some.inj hnext
    exact h.setClass hok
  | getClass dest failure =>
    obtain rfl : (ClassPower.getClass backend dest failure s).2 = t := Option.some.inj hnext
    exact (h.getClass hG hok).1
  | stopClassB answer =>
    obtain rfl : (ClassPower.stopClassB backend answer s).2 = t := Option.some.inj hnext
    exact h.stopClassB hok
  | leave env =>
    obtain rfl : (ClassPower.leave env s).2 = t := Option.some.inj hnext
    exact h.leave hok
  | service act =>
    obtain ⟨service, rfl⟩ := next_service hnext
    exact ⟨h.ok, h.held, h.current, h.set, h.left⟩
  | power call =>
    obtain rfl := Option.some.inj hnext
    exact ⟨h.ok, h.held, h.current, h.set, h.left⟩

/-- A getter that reads Class C after a leave takes a reference that the last call does not ask for. -/
theorem Noted.not_heldForClassC (h : Noted s) (hG : ¬ NotReadAfterLeave backend s a)
    (ht : ClassPower.step build backend s a = some t) : ¬ HeldForClassC t := by
  obtain ⟨hnext, hok⟩ := step_eq_some.1 ht
  cases a with
  | getClass dest failure =>
    have hG' : Reads backend dest failure s ∧ s.last = some .leave ∧ s.backendClass = .c := by
      simpa [NotReadAfterLeave] using hG
    obtain ⟨hr, hlast, hclass⟩ := hG'
    obtain rfl : (ClassPower.getClass backend dest failure s).2 = t := Option.some.inj hnext
    rcases getClass_cases backend dest failure s with ⟨hnot, -⟩ | ⟨-, heq⟩
    · exact absurd hr hnot
    rw [heq] at hok ⊢
    obtain ⟨power, hnote⟩ := updateClassCPowerLocked_ok (s.backendClass == .c)
      { s with configuredClass := s.backendClass } h.held hok
    have hrefs : (noteClass s.backendClass s).references = 1 := by
      refine (congrArg State.references hnote).trans ?_
      rw [hclass]
      rfl
    have hkept : (noteClass s.backendClass s).last = s.last :=
      (congrArg State.last hnote).trans rfl
    unfold HeldForClassC
    rw [hrefs, hkept, hlast]
    decide
  | setClass raw answer => exact absurd trivial hG
  | stopClassB answer => exact absurd trivial hG
  | leave env => exact absurd trivial hG
  | service act => exact absurd trivial hG
  | power call => exact absurd trivial hG

theorem Noted.getterKeeps (h : Noted s) (hG : NotReadAfterLeave backend s a) :
    GetterKeeps build backend s a := by
  cases a with
  | getClass dest failure =>
    intro t ht
    obtain ⟨hnext, hok⟩ := step_eq_some.1 ht
    obtain rfl : (ClassPower.getClass backend dest failure s).2 = t := Option.some.inj hnext
    exact (h.getClass hG hok).2
  | setClass raw answer => trivial
  | stopClassB answer => trivial
  | leave env => trivial
  | service act => trivial
  | power call => trivial

/-- In every run whose lock calls succeed, the reference is held for a Class C that was set last, and
for nothing else, and no getter moves it, if and only if no getter reads Class C after a leave. -/
theorem held_for_class_c_iff {as : List Act} (hr : run (step build backend) .init as = some u) :
    Always (step build backend) HeldForClassC .init as ∧
        Meets (step build backend) (GetterKeeps build backend) .init as ↔
      Meets (step build backend) (NotReadAfterLeave backend) .init as := by
  have hiff := always_iff_meets (P := HeldForClassC) (fun s h => Noted.heldForClassC h)
    (fun s a t h hG ht => Noted.step h hG ht) (fun s a t h hG ht => Noted.not_heldForClassC h hG ht)
    noted_init hr
  constructor
  · rintro ⟨halways, -⟩
    exact hiff.1 halways
  · intro hG
    refine ⟨hiff.2 hG, Meets.of_invariant (I := Noted) ?_ ?_ noted_init hG⟩
    · exact fun s a h hG => h.getterKeeps hG
    · exact fun s a t h hG ht => h.step hG ht

/-- A backend with all classes and both operations. -/
def fullBackend : Backend := ⟨fun _ => true, true, true⟩

/-- Class C is set, the network is left, and the class is read. -/
def readAfterLeave : List Act :=
  [.service (.init (.ok ()) (.ok ())), .setClass 2 (.ok ()), .leave joiningEnv, .getClass true none]

/-- The getter takes the reference again that the leave gave back. -/
theorem read_after_leave_breaks :
    ∃ u, run (step fullBuild fullBackend) .init readAfterLeave = some u ∧
      ¬ (Always (step fullBuild fullBackend) HeldForClassC .init readAfterLeave ∧
        Meets (step fullBuild fullBackend) (GetterKeeps fullBuild fullBackend) .init readAfterLeave) := by
  obtain ⟨u, hu, hlast, hrefs⟩ : ∃ u, run (step fullBuild fullBackend) .init readAfterLeave = some u ∧
      u.last = some .leave ∧ u.references = 1 := ⟨_, rfl, rfl, rfl⟩
  refine ⟨u, hu, fun h => ?_⟩
  have hheld := h.1 readAfterLeave u List.prefix_rfl hu
  unfold HeldForClassC at hheld
  rw [hlast, hrefs] at hheld
  exact absurd hheld (by decide)

/-- A run with a leave in which the class is read before it. -/
theorem held_for_class_c_iff_read_before :
    ∃ u, run (step fullBuild fullBackend) .init
        [.service (.init (.ok ()) (.ok ())), .setClass 2 (.ok ()), .getClass true none,
          .leave joiningEnv] = some u ∧
      Always (step fullBuild fullBackend) HeldForClassC .init
        [.service (.init (.ok ()) (.ok ())), .setClass 2 (.ok ()), .getClass true none,
          .leave joiningEnv] := by
  refine ⟨_, rfl, ((held_for_class_c_iff rfl).2 ?_).1⟩
  refine .cons rfl trivial (.cons rfl trivial (.cons rfl ?_ (.cons rfl trivial trivial)))
  exact fun _ h => by cases h

end Rzi.Lorawan.ClassPower
