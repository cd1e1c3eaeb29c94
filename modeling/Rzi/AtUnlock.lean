import Rzi.AtSecrecy
import Rzi.Lib.Run

/-!
# Opening the lock

A locked port opens for AT+PWORD with the password, and the parser takes no empty value: a port that
is locked while no password is set stays locked until the device restarts. `lock_opens_iff` follows
the service over bytes and restarts, from a start with no stored password or one that AT+PWORD has
stored: every locked state on the way can be opened exactly if no AT+LOCK finds the port unlocked
and without a password.
-/

namespace Rzi.At
variable {ω : Type*} {port : Port ω} {line p : List UInt8} {s s' t : State ω}

/-! ### Start -/

/-- What the service finds when the device starts: the stored records, where `CONFIG_RZI_AT_NVM` is
set, and everything else as a reset leaves it. -/
structure Device (ω : Type*) where
  storageRead : Option (List UInt8 → ω → Except Int (List UInt8))
  reset : ω → ω

/-- `load_string`: the return code, and what it leaves in a buffer of NULs. -/
def loadString (device : Device ω) (key : List UInt8) (maxLen : Nat) (rest : ω) :
    Int × List UInt8 :=
  match device.storageRead with
  | none => (0, [])
  | some read =>
    match read key rest with
    | .error rc => (if rc = Err.notFound.rc then 0 else rc, [])
    | .ok stored => (0, ((stored.take 16).take maxLen).takeWhile (· ≠ 0))

/-- The state in which `rzi_at_start` leaves the service; `rzi_at_builtin_register` loads the
password. -/
def start (port : Port ω) (device : Device ω) (rest : ω) : State ω :=
  let fresh : State ω := ⟨.reset, false, port.echo, [], device.reset rest, [], false⟩
  let (rc, stored) := loadString device (ascii "pword") 8 (device.reset rest)
  if rc = 0 ∧ stored ≠ [] then (setPassword stored fresh).2 else fresh

inductive Input where
  | byte (b : UInt8)
  | restart
deriving DecidableEq, Repr

def serviceNext (port : Port ω) (commands : List (Command ω)) (extensions : List (Extension ω))
    (device : Device ω) (s : State ω) : Input → State ω
  | .byte b => feedByte port commands extensions s b
  | .restart => start port device s.rest

def serviceStep (port : Port ω) (commands : List (Command ω)) (extensions : List (Extension ω))
    (device : Device ω) (s : State ω) (i : Input) : Option (State ω) :=
  some (serviceNext port commands extensions device s i)

/-! ### What is assumed and what is shown -/

/-- The record that `save_string` writes for a value. -/
def passwordRecord (v : List UInt8) : List UInt8 := v ++ List.replicate (17 - v.length) 0

/-- The record under `pword`, if one can be read. -/
def Device.storedPassword (device : Device ω) (rest : ω) : Option (List UInt8) :=
  device.storageRead.bind fun read => (read (ascii "pword") rest).toOption

/-- No password is stored, or one that AT+PWORD accepted. -/
def Device.PasswordStored (device : Device ω) (rest : ω) : Prop :=
  ∀ record, device.storedPassword rest = some record →
    ∃ v, IsPassword v ∧ v ≠ [] ∧ record = passwordRecord v

/-- Storage keeps what was written: a write that returns 0 is read back, one that fails leaves the
old record or the new one, and a reset changes neither. -/
structure Device.Keeps (device : Device ω) (port : Port ω) : Prop where
  reset : ∀ w, device.storedPassword (device.reset w) = device.storedPassword w
  write : ∀ write, port.storageWrite = some write → ∀ record w,
    device.storedPassword (write (ascii "pword") record w).2 = some record ∨
      (device.storedPassword (write (ascii "pword") record w).2 = device.storedPassword w ∧
        (write (ascii "pword") record w).1 ≠ 0)

/-- The lock, the password and the line editor stay, and no other password has been stored. -/
structure KeepsLock (device : Device ω) (s s' : State ω) : Prop where
  locked : s'.locked = s.locked
  password : s'.password = s.password
  parser : s'.parser = s.parser
  stored : ∀ record, device.storedPassword s'.rest = some record →
    device.storedPassword s.rest = some record

/-- Nothing but LOCK and PWORD touches the lock: no other handler and no hook of the repository
calls `rzi_at_set_locked`, `rzi_at_set_password` or the parser, or writes the record. -/
structure LockApart (device : Device ω) (commands : List (Command ω))
    (extensions : List (Extension ω)) : Prop where
  handlers : ∀ c ∈ commands, c.name ≠ ascii "LOCK" → c.name ≠ ascii "PWORD" →
    ∀ request s, KeepsLock device s (c.handler request s).2
  hooks : ∀ e ∈ extensions, ∀ hook, e.factoryReset = some hook →
    ∀ s, KeepsLock device s (hook s).2

def unlockLine (v : List UInt8) : List UInt8 := ascii "AT+PWORD=" ++ v

/-- If the port is locked, a password of one to eight characters unlocks it. -/
def Opens (port : Port ω) (commands : List (Command ω)) (extensions : List (Extension ω))
    (s : State ω) : Prop :=
  s.locked = true → ∃ v : List UInt8, 1 ≤ v.length ∧ v.length ≤ 8 ∧
    (execute port commands extensions (unlockLine v) s).1.locked = false

def isLockRun (line : List UInt8) : Bool := parseCommand line == some (ascii "LOCK", ⟨.run, none⟩)

/-- An input that completes AT+LOCK on an unlocked port finds a password set. -/
def LocksWithPassword (port : Port ω) (s : State ω) : Input → Prop
  | .byte b => s.rebooted = false → s.locked = false →
    ∀ l ∈ executed id port.lineMax s.parser b, isLockRun l.1 = true → s.password ≠ []
  | .restart => True

/-- What holds in every state of such a run. -/
structure LockInv (device : Device ω) (s : State ω) : Prop where
  password : IsPassword s.password
  opens : s.locked = true → s.password ≠ []
  stored : device.PasswordStored s.rest
  line : ∀ c ∈ s.parser.line, 0x20 ≤ c ∧ c ≤ 0x7e

/-! ### What a line does to the lock -/

variable {device : Device ω} {commands : List (Command ω)} {extensions : List (Extension ω)}

theorem KeepsLock.refl (s : State ω) : KeepsLock device s s := ⟨rfl, rfl, rfl, fun _ h => h⟩

theorem KeepsLock.trans {s'' : State ω} (h : KeepsLock device s s') (h' : KeepsLock device s' s'') :
    KeepsLock device s s'' :=
  ⟨h'.locked.trans h.locked, h'.password.trans h.password, h'.parser.trans h.parser,
    fun record hr => h.stored record (h'.stored record hr)⟩

theorem KeepsLock.of_unaffected (h : Unaffected s s') : KeepsLock device s s' :=
  ⟨h.locked, h.password, h.parser, fun record hr => by rwa [h.rest] at hr⟩

theorem writeHelpLines_rest (cs : List (Command ω)) (s : State ω) :
    (writeHelpLines port cs s).2.rest = s.rest := by
  induction cs generalizing s with
  | nil => rfl
  | cons c cs ih =>
    unfold writeHelpLines
    split
    · exact ih s
    · simp only
      split
      · rfl
      · split
        · rfl
        · exact ih _

theorem registryWriteAllHelp_keepsLock (s : State ω) :
    KeepsLock device s (registryWriteAllHelp port commands s).2 := by
  have hadds : Adds s (registryWriteAllHelp port commands s).2 := registryWriteAllHelp_adds s
  have hrest : (registryWriteAllHelp port commands s).2.rest = s.rest := by
    unfold registryWriteAllHelp
    simp only
    split
    · rfl
    · exact writeHelpLines_rest _ _
  exact ⟨hadds.locked, hadds.password, hadds.parser, fun record hr => by rwa [hrest] at hr⟩

theorem runFactoryResets_keepsLock
    (hooks : ∀ e ∈ extensions, ∀ hook, e.factoryReset = some hook → ∀ s, KeepsLock device s (hook s).2)
    (result : Int) (s : State ω) : KeepsLock device s (runFactoryResets extensions result s).2 := by
  induction extensions generalizing result s with
  | nil => exact .refl s
  | cons e es ih =>
    have htail := fun f hf => hooks f (List.mem_cons_of_mem _ hf)
    unfold runFactoryResets
    split
    · exact ih htail result s
    · rename_i hook hhook
      exact (hooks e List.mem_cons_self hook hhook s).trans (ih htail _ _)

/-- What an executed line can do: lock or unlock the port, set the password, or none of these. -/
inductive Outcome (device : Device ω) (line : List UInt8) (s : State ω) : State ω → Prop
  | kept {u : State ω} (h : KeepsLock device s u) : Outcome device line s u
  | locks {u : State ω} (hline : isLockRun line = true)
    (h : KeepsLock device { s with locked := true } u) : Outcome device line s u
  | unlocks {u : State ω} (h : KeepsLock device { s with locked := false } u) :
    Outcome device line s u
  | sets {u : State ω} (v : List UInt8) (hv : v ≠ []) (hshort : v.length ≤ 8)
    (hchars : ∀ b ∈ v, b ∈ line ∧ b ≠ 0x3f) (hlocked : u.locked = false)
    (hparser : u.parser = s.parser) (hpassword : u.password = v ∨ u.password = s.password)
    (hstored : ∀ record, device.storedPassword u.rest = some record →
      record = passwordRecord v ∨ device.storedPassword s.rest = some record) :
    Outcome device line s u

theorem Outcome.trans {s'' : State ω} (h : Outcome device line s s')
    (h' : KeepsLock device s' s'') : Outcome device line s s'' := by
  cases h with
  | kept h => exact .kept (h.trans h')
  | locks hline h => exact .locks hline (h.trans h')
  | unlocks h => exact .unlocks (h.trans h')
  | sets v hv hshort hchars hlocked hparser hpassword hstored =>
    refine .sets v hv hshort hchars (h'.locked.trans hlocked) (h'.parser.trans hparser) ?_
      fun record hr => hstored record (h'.stored record hr)
    rw [h'.password]
    exact hpassword

theorem parseCommand_write {name argument : List UInt8}
    (h : parseCommand line = some (name, ⟨.write, some argument⟩)) :
    ∀ b ∈ argument, b ∈ line ∧ b ≠ 0x3f := by
  obtain ⟨name', hcommand, -⟩ := commandLine_of_parse h
  cases hcommand with
  | intro hhead hname hending =>
    cases hending with
    | write hvalue hmark =>
      intro b hb
      refine ⟨List.mem_append_right _ (List.mem_append_right _ hb), fun hq => hmark ?_⟩
      rw [← hq]
      exact hb

/-- A successful AT+PWORD on an unlocked port stores and sets the value; a failed one may have
stored it. -/
theorem handlePword_sets (hkeeps : device.Keeps port) {v : List UInt8} (hlocked : s.locked = false)
    (hchars : ∀ b ∈ v, b ∈ line ∧ b ≠ 0x3f) :
    Outcome device line s (handlePword port ⟨.write, some v⟩ s).2 := by
  rw [handlePword, if_neg (by simp), if_neg (by simp [hlocked])]
  simp only [Option.getD_some]
  split
  · exact .kept (.refl s)
  rename_i hlen
  rw [not_or, Nat.not_lt] at hlen
  have hv : v ≠ [] := fun h => hlen.1 (by rw [h]; rfl)
  have htake : v.take 8 = v := List.take_of_length_le hlen.2
  -- the state after `save_string`, and after the password is set
  have hsaved : ∀ record, device.storedPassword (saveString port (ascii "pword") v 8 s).2.rest =
      some record → record = passwordRecord v ∨ device.storedPassword s.rest = some record := by
    intro record hr
    unfold saveString at hr
    split at hr
    · exact .inr hr
    · rename_i write hwrite
      simp only [htake] at hr
      rcases hkeeps.write write hwrite (passwordRecord v) s.rest with h | ⟨h, -⟩
      · exact .inl (Option.some.inj (hr.symm.trans h))
      · exact .inr (h ▸ hr)
  have hframe : (saveString port (ascii "pword") v 8 s).2.locked = false ∧
      (saveString port (ascii "pword") v 8 s).2.parser = s.parser ∧
      (saveString port (ascii "pword") v 8 s).2.password = s.password := by
    unfold saveString
    split
    · exact ⟨hlocked, rfl, rfl⟩
    · exact ⟨hlocked, rfl, rfl⟩
  obtain ⟨hl, hp, hpw⟩ := hframe
  have hset : setPassword v (saveString port (ascii "pword") v 8 s).2 =
      (0, { (saveString port (ascii "pword") v 8 s).2 with password := v }) := by
    rw [setPassword, if_neg]
    rw [not_or, Nat.not_lt]
    exact hlen
  by_cases hrc : (saveString port (ascii "pword") v 8 s).1 = 0
  · simp only [hrc, hset, if_true, ne_eq, not_true_eq_false, if_false]
    have hout : Outcome device line s
        { (saveString port (ascii "pword") v 8 s).2 with password := v } :=
      .sets v hv hlen.2 hchars hl hp (.inl rfl) hsaved
    exact hout.trans (.of_unaffected (respondStatus_unaffected _ _))
  · simp only [hrc, if_false, ne_eq, not_false_eq_true, if_true]
    exact .sets v hv hlen.2 hchars hl hp (.inr hpw) hsaved

theorem runCommand_outcome {c : Command ω} {request : Request}
    (h : request.operation ∈ c.allowedOperations → Outcome device line s (c.handler request s).2) :
    Outcome device line s (runCommand port c request s).2 := by
  unfold runCommand
  split
  · split
    · exact .kept (.refl s)
    · exact .kept (.of_unaffected (respondValue_unaffected _ s))
  · split
    · exact .kept (.refl s)
    · rename_i hallowed
      exact h (not_not.1 hallowed)

theorem handlePword_outcome (hkeeps : device.Keeps port) {request : Request}
    (hparse : parseCommand line = some (ascii "PWORD", request))
    (hallowed : request.operation ∈ (pwordCommand port).allowedOperations) :
    Outcome device line s (handlePword port request s).2 := by
  by_cases hread : request.operation = .read
  · rw [handlePword, if_pos hread]
    exact .kept (.of_unaffected (respondValue_unaffected _ s))
  have hwrite : request.operation = .write := by
    rcases List.mem_cons.1 hallowed with h | h
    · exact absurd h hread
    · exact List.mem_singleton.1 h
  obtain ⟨v, hv⟩ : ∃ v, request.argument = some v := by
    refine Option.ne_none_iff_exists'.1 fun h => ?_
    exact (parseCommand_argument hparse).1 h hwrite
  obtain rfl : request = ⟨.write, some v⟩ := congrArg₂ Request.mk hwrite hv
  cases hlocked : s.locked with
  | true =>
    rw [handlePword, if_neg hread, if_pos hlocked]
    split
    · exact .kept (.refl s)
    · exact .unlocks (.of_unaffected (respondStatus_unaffected _ _))
  | false => exact handlePword_sets hkeeps hlocked (parseCommand_write hparse)

theorem handleLock_outcome {request : Request}
    (hparse : parseCommand line = some (ascii "LOCK", request))
    (hallowed : request.operation ∈ (lockCommand port).allowedOperations) :
    Outcome device line s (handleLock port request s).2 := by
  unfold handleLock
  split
  · exact .kept (.of_unaffected (respondValue_unaffected _ s))
  · rename_i hread
    have hrun : request.operation = .run := by
      rcases List.mem_cons.1 hallowed with h | h
      · exact h
      · exact absurd (List.mem_singleton.1 h) hread
    refine .locks ?_ (.of_unaffected (respondStatus_unaffected _ _))
    rw [isLockRun, hparse, parseCommand_request hparse hrun (by simp)]
    exact beq_self_eq_true _

theorem executeCommand_outcome (reg : Registry port) (hkeeps : device.Keeps port)
    (hapart : LockApart device reg.commands extensions) :
    Outcome device line s (executeCommand port reg.commands line s).1 := by
  have hrefuse : Outcome device line s (respondStatus port .error s).2 :=
    .kept (.of_unaffected (respondStatus_unaffected _ s))
  refine executeCommand_cases (P := fun x => Outcome device line s x.1) hrefuse
    fun name request hparse _ => ?_
  have hdispatch : Outcome device line s (dispatch port reg.commands name request s).2 := by
    by_cases hpword : name = ascii "PWORD"
    · rw [hpword] at hparse ⊢
      rw [dispatch_pword]
      exact runCommand_outcome (handlePword_outcome hkeeps hparse)
    by_cases hlock : name = ascii "LOCK"
    · rw [hlock] at hparse ⊢
      rw [dispatch_lock]
      exact runCommand_outcome (handleLock_outcome hparse)
    unfold dispatch
    split
    · exact .kept (.refl s)
    · rename_i c hc
      have hname : c.name = name := by simpa using List.find?_some hc
      refine runCommand_outcome fun _ => .kept (hapart.handlers c (List.mem_of_find?_eq_some hc)
        (fun h => hlock (hname.symm.trans h)) (fun h => hpword (hname.symm.trans h)) request s)
  exact hdispatch.trans (.of_unaffected (respondForError_unaffected _ _))

theorem execute_outcome (reg : Registry port) (hkeeps : device.Keeps port)
    (hapart : LockApart device reg.commands extensions) :
    Outcome device line s (execute port reg.commands extensions line s).1 := by
  have hstatus : Outcome device line s (respondStatus port .ok s).2 :=
    .kept (.of_unaffected (respondStatus_unaffected _ s))
  have hform := execute_form port reg.commands extensions line
  generalize execute port reg.commands extensions line = f at hform ⊢
  cases hform with
  | status => exact hstatus
  | help => exact .kept (registryWriteAllHelp_keepsLock s)
  | echo => exact .kept ⟨rfl, rfl, rfl, fun _ h => h⟩
  | text value => exact .kept (.of_unaffected (respondValue_unaffected value s))
  | reboot => exact .kept ⟨rfl, rfl, rfl, fun _ h => h⟩
  | factoryReset =>
    have hreset : KeepsLock device s (registryFactoryReset extensions s).2 :=
      runFactoryResets_keepsLock hapart.hooks 0 s
    simp only
    split
    · exact .kept ⟨hreset.locked, hreset.password, hreset.parser, hreset.stored⟩
    · exact .kept ⟨hreset.locked, hreset.password, hreset.parser, hreset.stored⟩
  | command => exact executeCommand_outcome reg hkeeps hapart

/-! ### The invariant -/

theorem LockInv.of_keepsLock (h : LockInv device s) (hk : KeepsLock device s s') :
    LockInv device s' where
  password := by
    rw [hk.password]
    exact h.password
  opens := by
    rw [hk.password, hk.locked]
    exact h.opens
  stored record hr := h.stored record (hk.stored record hr)
  line := by
    rw [hk.parser]
    exact h.line

theorem Outcome.lockInv (h : Outcome device line s s') (hinv : LockInv device s)
    (hline : ∀ c ∈ line, 0x20 ≤ c ∧ c ≤ 0x7e)
    (hguard : s.locked = false → isLockRun line = true → s.password ≠ []) : LockInv device s' := by
  cases h with
  | kept h => exact hinv.of_keepsLock h
  | locks hlock h =>
    have hset : LockInv device { s with locked := true } := by
      refine ⟨hinv.password, fun _ => ?_, hinv.stored, hinv.line⟩
      cases hlocked : s.locked with
      | true => exact hinv.opens hlocked
      | false => exact hguard hlocked hlock
    exact hset.of_keepsLock h
  | unlocks h =>
    have hset : LockInv device { s with locked := false } :=
      ⟨hinv.password, (fun hl => by cases hl), hinv.stored, hinv.line⟩
    exact hset.of_keepsLock h
  | sets v hv hshort hchars hlocked hparser hpassword hstored =>
    have hvalid : IsPassword v := ⟨hshort, fun b hb =>
      ⟨(hline b (hchars b hb).1).1, (hline b (hchars b hb).1).2, (hchars b hb).2⟩⟩
    refine ⟨?_, fun hl => ?_, fun record hr => ?_, ?_⟩
    · rcases hpassword with h | h
      · exact h ▸ hvalid
      · exact h ▸ hinv.password
    · rw [hlocked] at hl
      cases hl
    · rcases hstored record hr with h | h
      · exact ⟨v, hvalid, hv, h⟩
      · exact hinv.stored record h
    · rw [hparser]
      exact hinv.line

/-- A byte completes a line after at most an echoed newline, and as its last action. -/
theorem feed_execute {lineMax : Nat} {parser : Parser UInt8} {b : UInt8}
    (h : .execute line ∈ (feed id lineMax parser b).2) :
    line = parser.line ∧ ((feed id lineMax parser b).2 = [.execute line] ∨
      (feed id lineMax parser b).2 = [.echoNewline, .execute line]) := by
  unfold feed at h ⊢
  simp only [id] at h ⊢
  split_ifs at h ⊢ with h₁ h₂ h₃ h₄ h₅ h₆ h₇ h₈
  all_goals simp at h
  · subst h
    exact ⟨rfl, .inr rfl⟩
  · subst h
    exact ⟨rfl, .inl rfl⟩

theorem feed_line {lineMax : Nat} {parser : Parser UInt8} {b : UInt8}
    (h : ∀ c ∈ parser.line, 0x20 ≤ c ∧ c ≤ 0x7e) :
    ∀ c ∈ (feed id lineMax parser b).1.line, 0x20 ≤ c ∧ c ≤ 0x7e := by
  have hnil : ∀ c ∈ ([] : List UInt8), 0x20 ≤ c ∧ c ≤ 0x7e := fun c hc => by cases hc
  unfold feed
  simp only [id]
  split
  · exact h
  split
  · split
    · exact fun c hc => h c (List.dropLast_subset _ hc)
    · exact h
  split
  · split_ifs <;> exact hnil
  split
  · exact h
  rename_i hprint
  split
  · exact h
  · rw [not_or] at hprint
    intro c hc
    rcases List.mem_append.1 hc with hc | hc
    · exact h c hc
    · rw [List.mem_singleton.1 hc]
      exact ⟨UInt8.not_lt.1 hprint.1, UInt8.not_lt.1 hprint.2⟩

theorem actions_unaffected {as : List (Action UInt8)} (h : ∀ line, .execute line ∉ as)
    (s : State ω) : Unaffected s (as.foldl (perform port commands extensions) s) := by
  induction as generalizing s with
  | nil => exact .refl s
  | cons a as ih =>
    have hstep : Unaffected s (perform port commands extensions s a) :=
      perform_unaffected (fun line heq => h line (heq ▸ List.mem_cons_self)) s
    exact hstep.trans (ih (fun line hmem => h line (List.mem_cons_of_mem _ hmem)) _)

/-- A byte moves the line editor, and then executes at most the line it completes. -/
theorem feedByte_cases (hrunning : s.rebooted = false) (b : UInt8) :
    (executed id port.lineMax s.parser b = [] ∧
      Unaffected { s with parser := (feed id port.lineMax s.parser b).1 }
        (feedByte port commands extensions s b)) ∨
    ∃ u : State ω, executed id port.lineMax s.parser b = [(s.parser.line, b)] ∧
      Unaffected { s with parser := (feed id port.lineMax s.parser b).1 } u ∧
      feedByte port commands extensions s b =
        (execute port commands extensions s.parser.line u).1 := by
  rw [feedByte_of_running hrunning]
  by_cases h : ∃ line, .execute line ∈ (feed id port.lineMax s.parser b).2
  · obtain ⟨line, hline⟩ := h
    obtain ⟨rfl, hactions | hactions⟩ := feed_execute hline
    · refine .inr ⟨_, ?_, .refl _, ?_⟩
      · rw [executed, hactions]
        rfl
      · rw [hactions]
        rfl
    · refine .inr ⟨echoText port crlf { s with parser := (feed id port.lineMax s.parser b).1 }, ?_,
        echoText_unaffected crlf _, ?_⟩
      · rw [executed, hactions]
        rfl
      · rw [hactions]
        rfl
  · rw [not_exists] at h
    refine .inl ⟨?_, actions_unaffected h _⟩
    refine List.eq_nil_iff_forall_not_mem.2 fun l hl => ?_
    exact h l.1 (mem_executed.1 hl).1

theorem feedByte_lockInv (reg : Registry port) (hkeeps : device.Keeps port)
    (hapart : LockApart device reg.commands extensions) {b : UInt8} (hinv : LockInv device s)
    (hguard : LocksWithPassword port s (.byte b)) :
    LockInv device (feedByte port reg.commands extensions s b) := by
  cases hrunning : s.rebooted with
  | true =>
    rw [feedByte, if_pos hrunning]
    exact hinv
  | false =>
    have hfed : LockInv device { s with parser := (feed id port.lineMax s.parser b).1 } :=
      ⟨hinv.password, hinv.opens, hinv.stored, feed_line hinv.line⟩
    rcases @feedByte_cases ω port s reg.commands extensions hrunning b with ⟨-, hun⟩ | ⟨u, hl, hun, heq⟩
    · exact hfed.of_keepsLock (.of_unaffected hun)
    · rw [heq]
      refine (execute_outcome reg hkeeps hapart).lockInv (hfed.of_keepsLock (.of_unaffected hun))
        hinv.line fun hlocked hlock => ?_
      rw [hun.password]
      refine hguard hrunning (hun.locked ▸ hlocked) (s.parser.line, b) ?_ hlock
      rw [hl]
      exact List.mem_singleton_self _

/-- A stored password is loaded as it was set. -/
theorem loadString_record {v : List UInt8} (hv : IsPassword v) :
    (((passwordRecord v).take 16).take 8).takeWhile (· ≠ 0) = v := by
  have hnul : ∀ b ∈ v, (decide (b ≠ 0)) = true := by
    intro b hb
    obtain ⟨hlow, -, -⟩ := hv.chars b hb
    refine decide_eq_true fun h => ?_
    rw [h] at hlow
    exact absurd hlow (by decide)
  rw [passwordRecord, List.take_take, List.take_append,
    List.take_of_length_le (Nat.le_trans hv.short (by decide)), List.take_replicate,
    List.takeWhile_append_of_pos hnul, List.takeWhile_replicate, if_neg (by simp), List.append_nil]

theorem start_lockInv (hkeeps : device.Keeps port) {w : ω} (hstored : device.PasswordStored w) :
    LockInv device (start port device w) := by
  have hreset : device.PasswordStored (device.reset w) := fun record hr =>
    hstored record ((hkeeps.reset w) ▸ hr)
  have hempty : IsPassword [] := ⟨by simp, fun b hb => by cases hb⟩
  have hfresh : LockInv device ⟨.reset, false, port.echo, [], device.reset w, [], false⟩ :=
    ⟨hempty, (fun h => by cases h), hreset, fun c hc => by cases hc⟩
  unfold start
  simp only
  split
  · rename_i hloaded
    -- what was loaded is what AT+PWORD had stored
    obtain ⟨v, hv, hval⟩ : ∃ v, IsPassword v ∧ (loadString device (ascii "pword") 8
        (device.reset w)).2 = v := by
      refine ⟨_, ?_, rfl⟩
      unfold loadString
      split
      · exact hempty
      · rename_i read hread
        split
        · exact hempty
        · rename_i record hrecord
          have hsome : device.storedPassword (device.reset w) = some record := by
            rw [Device.storedPassword, hread, Option.bind_some, hrecord]
            rfl
          obtain ⟨v, hv, -, rfl⟩ := hreset record hsome
          rw [loadString_record hv]
          exact hv
    rw [hval] at hloaded ⊢
    have hlen : ¬ (v.length = 0 ∨ 8 < v.length) := by
      rintro (h | h)
      · exact hloaded.2 (List.length_eq_zero_iff.1 h)
      · exact absurd hv.short (Nat.not_le.2 h)
    rw [setPassword, if_neg hlen]
    exact ⟨hv, (fun h => by cases h), hreset, fun c hc => by cases hc⟩
  · exact hfresh

/-! ### Which lines open a locked port -/

theorem unlockLine_not_fixed (v : List UInt8) : isFixedForm (unlockLine v) = false := by
  have hshort : ∀ form ∈ fixedForms, form.length < 9 := by decide
  by_contra h
  have hlen := hshort _ (isFixedForm_iff.1 (Bool.of_not_eq_false h))
  have hnine : (ascii "AT+PWORD=").length = 9 := rfl
  rw [List.length_map, unlockLine, List.length_append, hnine] at hlen
  omega

theorem parseCommand_unlockLine {v : List UInt8} (hv : v ≠ []) (hq : 0x3f ∉ v) :
    parseCommand (unlockLine v) = some (ascii "PWORD", ⟨.write, some v⟩) := by
  have hname : IsName (ascii "PWORD") := ⟨by decide, by decide, by decide⟩
  have hcommand : CommandLine (ascii "AT+" ++ ascii "PWORD" ++ (ascii "=" ++ v)) (ascii "PWORD")
      ⟨.write, some v⟩ := .intro rfl hname (.write hv hq)
  have hupper : (ascii "PWORD").map upper = ascii "PWORD" := by decide
  have hparse := hcommand.parse
  rw [hupper] at hparse
  exact hparse

theorem opens_of_password (reg : Registry port) (hp : IsPassword s.password)
    (hne : s.password ≠ []) (hlocked : s.locked = true) :
    (execute port reg.commands extensions (unlockLine s.password) s).1.locked = false := by
  have hq : 0x3f ∉ s.password := fun h => (hp.chars _ h).2.2 rfl
  rw [execute_of_not_fixed (unlockLine_not_fixed _), executeCommand, parseCommand_unlockLine hne hq]
  simp only
  rw [if_neg (by simp), (respondForError_unaffected _ _).locked, dispatch_pword]
  have hrun : runCommand port (pwordCommand port) ⟨.write, some s.password⟩ s =
      handlePword port ⟨.write, some s.password⟩ s := rfl
  have hhandle : handlePword port ⟨.write, some s.password⟩ s =
      respondStatus port .ok { s with locked := false } := by
    rw [handlePword, if_neg (by simp), if_pos hlocked, if_neg (by simp)]
  rw [hrun, hhandle, (respondStatus_unaffected _ _).locked]

/-- Without a password no value opens the port. -/
theorem not_opens_of_empty (reg : Registry port) (hlocked : s.locked = true)
    (hempty : s.password = []) : ¬ Opens port reg.commands extensions s := by
  intro h
  obtain ⟨v, hv, -, hopen⟩ := h hlocked
  have hwrong : isUnlockLine s.password (unlockLine v) = false := by
    have hdrop : (unlockLine v).drop 9 = v := rfl
    have hne : (v == []) = false := beq_false_of_ne fun h => by
      rw [h] at hv
      cases hv
    rw [isUnlockLine, hempty, hdrop, hne, Bool.and_false]
  rw [execute_of_not_fixed (unlockLine_not_fixed _),
    (executeCommand_adds reg hlocked hwrong).locked, hlocked] at hopen
  cases hopen

theorem execute_lock (reg : Registry port) (h : isLockRun line = true) :
    (execute port reg.commands extensions line s).1.locked = true ∧
      (execute port reg.commands extensions line s).1.password = s.password := by
  have hparse : parseCommand line = some (ascii "LOCK", ⟨.run, none⟩) := by
    simpa [isLockRun] using h
  have hdispatch : dispatch port reg.commands (ascii "LOCK") ⟨.run, none⟩ s =
      respondStatus port .ok { s with locked := true } := by
    rw [dispatch_lock]
    rfl
  rw [execute_of_parsed hparse, executeCommand, hparse]
  simp only [hdispatch]
  rw [if_neg (by simp)]
  have hreply := @respondForError_unaffected ω port
    (respondStatus port .ok { s with locked := true }).1
    (respondStatus port .ok { s with locked := true }).2
  exact ⟨hreply.locked, hreply.password⟩

/-! ### Whole runs -/

theorem serviceNext_lockInv (reg : Registry port) (hkeeps : device.Keeps port)
    (hapart : LockApart device reg.commands extensions) {i : Input} (hinv : LockInv device s)
    (hguard : LocksWithPassword port s i) :
    LockInv device (serviceNext port reg.commands extensions device s i) := by
  cases i with
  | byte b => exact feedByte_lockInv reg hkeeps hapart hinv hguard
  | restart => exact start_lockInv hkeeps hinv.stored

theorem serviceNext_not_opens (reg : Registry port) {i : Input}
    (hbad : ¬ LocksWithPassword port s i) :
    ¬ Opens port reg.commands extensions (serviceNext port reg.commands extensions device s i) := by
  cases i with
  | restart => exact absurd trivial hbad
  | byte b =>
    simp only [LocksWithPassword, not_forall, not_not] at hbad
    obtain ⟨hrunning, hlocked, l, hl, hlock, hempty⟩ := hbad
    rcases @feedByte_cases ω port s reg.commands extensions hrunning b with ⟨hnil, -⟩ | ⟨u, hl', hun, heq⟩
    · rw [hnil] at hl
      cases hl
    · rw [hl', List.mem_singleton] at hl
      rw [hl] at hlock
      obtain ⟨hlocked', hpassword⟩ := @execute_lock ω port s.parser.line u extensions reg hlock
      refine not_opens_of_empty reg ?_ ?_
      · exact (congrArg State.locked heq).trans hlocked'
      · exact (congrArg State.password heq).trans (hpassword.trans (hun.password.trans hempty))

/-- **When the lock can be opened.** From any start, every locked state of a run can be opened with
a password of one to eight characters exactly if each AT+LOCK on an unlocked port finds a password. -/
theorem lock_opens_iff (port : Port ω) (reg : Registry port) (device : Device ω)
    (hkeeps : device.Keeps port) (hapart : LockApart device reg.commands reg.extensions) (w : ω)
    (hstored : device.PasswordStored w) (inputs : List Input) :
    Lts.Always (serviceStep port reg.commands reg.extensions device)
        (Opens port reg.commands reg.extensions) (start port device w) inputs ↔
      Lts.Meets (serviceStep port reg.commands reg.extensions device) (LocksWithPassword port)
        (start port device w) inputs := by
  refine Lts.always_iff_meets (I := LockInv device) (fun s hinv hlocked => ?_)
    (fun s i t hinv hguard ht => ?_) (fun s i t hinv hbad ht => ?_)
    (start_lockInv hkeeps hstored)
    (Lts.run_total (serviceNext port reg.commands reg.extensions device) _ inputs)
  · refine ⟨s.password, ?_, hinv.password.short, opens_of_password reg hinv.password
      (hinv.opens hlocked) hlocked⟩
    exact List.length_pos_iff.2 (hinv.opens hlocked)
  · cases ht
    exact serviceNext_lockInv reg hkeeps hapart hinv hguard
  · cases ht
    exact serviceNext_not_opens reg hbad

instance decidableLocksWithPassword (port : Port ω) (s : State ω) :
    (i : Input) → Decidable (LocksWithPassword port s i)
  | .byte b => inferInstanceAs (Decidable (s.rebooted = false → s.locked = false →
      ∀ l ∈ executed id port.lineMax s.parser b, isLockRun l.1 = true → s.password ≠ []))
  | .restart => .isTrue trivial

/-- A device without stored settings. -/
def plainDevice : Device Unit := ⟨none, id⟩

theorem plainDevice_keeps : plainDevice.Keeps plainPort :=
  ⟨fun _ => rfl, fun _ h => by cases h⟩

theorem plainDevice_stored : plainDevice.PasswordStored () := fun _ h => by cases h

theorem plainRegistry_lockApart :
    LockApart plainDevice plainRegistry.commands plainRegistry.extensions where
  handlers c hc hlock hpword request s := by
    have hhandlers : ∀ c ∈ systemCommands plainPort fun _ _ s => (0, s),
        c = lockCommand plainPort ∨ c = pwordCommand plainPort ∨ ∀ request s, c.handler request s = (0, s) := by
      simp [systemCommands, systemCommand]
    rcases hhandlers c hc with rfl | rfl | h
    · exact absurd rfl hlock
    · exact absurd rfl hpword
    · rw [h request s]
      exact .refl s
  hooks e he := by cases he

/-- AT+LOCK on a fresh device locks it for good. -/
theorem fresh_device_locks_for_good : ¬ ∀ inputs : List Input,
    Lts.Always (serviceStep plainPort plainRegistry.commands plainRegistry.extensions plainDevice)
      (Opens plainPort plainRegistry.commands plainRegistry.extensions)
      (start plainPort plainDevice ()) inputs := by
  intro h
  have hopens : Opens plainPort plainRegistry.commands plainRegistry.extensions
      (((ascii "AT+LOCK\r").map Input.byte).foldl
        (serviceNext plainPort plainRegistry.commands plainRegistry.extensions plainDevice)
        (start plainPort plainDevice ())) :=
    h _ _ _ (List.prefix_refl _) (Lts.run_total _ _ _)
  exact not_opens_of_empty plainRegistry (by decide) (by decide) hopens

theorem password_then_lock_opens :
    Lts.Always (serviceStep plainPort plainRegistry.commands plainRegistry.extensions plainDevice)
      (Opens plainPort plainRegistry.commands plainRegistry.extensions)
      (start plainPort plainDevice ())
      ((ascii "AT+PWORD=secret\rAT+LOCK\rAT+PWORD=guess\r").map Input.byte ++ [.restart]) :=
  (lock_opens_iff plainPort plainRegistry plainDevice plainDevice_keeps plainRegistry_lockApart ()
    plainDevice_stored _).2 (by decide)

end Rzi.At
