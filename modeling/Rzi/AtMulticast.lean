import Rzi.AtNumbers
import Rzi.Multicast

/-!
# Multicast groups from the AT interface (`commands/lorawan/at_lorawan_multicast.c`)

AT+ADDMULC reads a group from text, AT+RMVMULC removes it by its address and AT+LSTMULC prints the groups
there are, which it asks for one by one: other threads can call the service in between. `groups_printed`
follows a group from the text it was added with to the line it is printed as.
-/

namespace Rzi.At.Multicast
open Strtol Numbers
open Usp (MulticastSession)
open Usp.Multicast (Ctx Held listed listing entry check)

/-! ### The commands -/

/-- `%08X`. -/
def hex8 (v : UInt32) : List UInt8 :=
  (List.range 8).map fun i => Recv.hexDigits.getD (v >>> UInt32.ofNat (28 - 4 * i) &&& 0x0f).toNat 0

def classLetter (deviceClass : Usp.DeviceClass) : UInt8 := if deviceClass = .b then 0x42 else 0x43

/-- The line of a group. -/
def groupText (index : Nat) (session : MulticastSession) : List UInt8 :=
  ascii "MC" ++ decimal (index + 1) ++ ascii ":" ++ [classLetter session.deviceClass] ++ ascii ":" ++
    hex8 session.devAddr ++ ascii ":" ++ decimal session.frequencyHz.toNat ++ ascii ":" ++
    decimal session.dataRate.toNat ++ ascii ":" ++ decimal session.periodicity.toNat

/-- The loop of `handle_lstmulc` from `i` on, with `left` turns to go and `line` in the buffer. -/
def listLoop (size : Nat) (get : Nat → Except Err MulticastSession) :
    Nat → Nat → List UInt8 → Except Err (List UInt8)
  | _, 0, line => .ok line
  | i, left + 1, line =>
    match get i with
    | .error e => .error e
    | .ok session =>
      let written := (if line = [] then [] else crlf) ++ groupText i session
      if size - line.length ≤ written.length then .error .noResource
      else listLoop size get (i + 1) left (line ++ written)

/-- `handle_lstmulc`: the count is asked for in the first of the states of the backend, and each group in the
next one. -/
def handleLstmulc {ω : Type*} (port : Port ω) (ctx : Ctx) (states : Nat → Usp.State) (_request : Request)
    (s : At.State ω) : Int × At.State ω :=
  match Usp.Multicast.getCount ctx (states 0) with
  | .error e => (e.rc, s)
  | .ok count =>
    match listLoop port.txBufferSize (fun i => Usp.Multicast.getSession ctx i (states (i + 1)))
      0 count [] with
    | .error e => (e.rc, s)
    | .ok line => respondValue port line s

/-- `rzi_lorawan_add_multicast_session` and `_remove_multicast_session`, as the commands call them. -/
def add (ctx : Ctx) (session : MulticastSession) (s : Usp.State) : Except Err Unit × Usp.State :=
  (Usp.Multicast.Act.add ctx (some session)).run s

def remove (ctx : Ctx) (devAddr : UInt32) (s : Usp.State) : Except Err Unit × Usp.State :=
  (Usp.Multicast.Act.remove ctx devAddr).run s

def handleRmvmulc (ctx : Ctx) (argument : List UInt8) (s : Usp.State) : Except Err Answer × Usp.State :=
  match parseDevAddr argument with
  | .error e => (.error e, s)
  | .ok devAddr => respondOk (remove ctx devAddr s)

/-- A command, or anything else that the backend is called for. -/
inductive Input where
  | addmulc (ctx : Ctx) (argument : List UInt8)
  | rmvmulc (ctx : Ctx) (argument : List UInt8)
  | act (a : Usp.Multicast.Act)

def step (s : Usp.State) (a : Usp.Multicast.Act) : Usp.State := (a.run s).2

/-- The calls behind an input. -/
def Input.acts (conversion : Conversion) : Input → List Usp.Multicast.Act
  | .addmulc ctx argument =>
    match sessionOf conversion argument with
    | .error _ => []
    | .ok session => [.add ctx (some session)]
  | .rmvmulc ctx argument =>
    match parseDevAddr argument with
    | .error _ => []
    | .ok devAddr => [.remove ctx devAddr]
  | .act a => [a]

/-- The backend after a history. -/
def after (conversion : Conversion) (inputs : List Input) : Usp.Multicast.Sys :=
  Usp.Multicast.after (inputs.flatMap (Input.acts conversion))

/-- The state that an input leaves, from the handlers. -/
def Input.handle (conversion : Conversion) (s : Usp.State) : Input → Usp.State
  | .addmulc ctx argument => (handleAddmulc conversion (add ctx) argument s).2
  | .rmvmulc ctx argument => (handleRmvmulc ctx argument s).2
  | .act a => (a.run s).2

/-! ### What they are for -/

/-- The lines of groups. -/
def listText (sessions : List MulticastSession) : List UInt8 :=
  crlf.intercalate (sessions.mapIdx groupText)

/-- An argument whose numbers are all in the ranges of their fields, with nothing behind them. -/
def Exact (r : Scanned) : Prop :=
  r.unread = [] ∧ (0 ≤ r.frequency.toInt ∧ r.frequency.toInt < 4294967296) ∧
    (0 ≤ r.dataRate.toInt ∧ r.dataRate.toInt ≤ 15) ∧
    0 ≤ r.periodicity.toInt ∧ r.periodicity.toInt ≤ 65535

/-- The line of a group in terms of the text that it was added with. -/
def printedAs (index : Nat) (r : Scanned) : List UInt8 :=
  ascii "MC" ++ decimal (index + 1) ++ ascii ":" ++ [r.letter] ++ ascii ":" ++ r.devAddr.map upper ++
    ascii ":" ++ decimal r.frequency.toInt.toNat ++ ascii ":" ++ decimal r.dataRate.toInt.toNat ++
    ascii ":" ++ decimal r.periodicity.toInt.toNat

/-- Neither removes a group with this address nor clears the table. -/
def Spares (devAddr : UInt32) (s : Usp.State) : Usp.Multicast.Act → Prop
  | .remove ctx a => a = devAddr → ((Usp.Multicast.Act.remove ctx a).run s).1 ≠ .ok ()
  | .clear ctx => ((Usp.Multicast.Act.clear ctx).run s).1 ≠ .ok ()
  | _ => True

/-- The reply with the text. -/
def framed (text : List UInt8) : List UInt8 := crlf ++ text ++ (crlf ++ ascii "OK" ++ crlf)

/-- Nobody changes the table while the groups are listed. -/
def Undisturbed (states : Nat → Usp.State) (s : Usp.State) : Prop :=
  ∀ i, (states i).ready = s.ready ∧ listed (states i) = listed s

/-! ### The text of a list -/

section Text
variable {size i : Nat} {line text : List UInt8} {texts : List (List UInt8)}
  {get : Nat → Except Err MulticastSession} {ys : List MulticastSession}

/-- The buffer once more lines have been written behind it. -/
def glue (line : List UInt8) : List (List UInt8) → List UInt8
  | [] => line
  | text :: texts => glue (line ++ ((if line = [] then [] else crlf) ++ text)) texts

theorem length_le_glue (line : List UInt8) (texts : List (List UInt8)) :
    line.length ≤ (glue line texts).length := by
  induction texts generalizing line with
  | nil => exact Nat.le_refl _
  | cons text texts ih =>
    have hle := ih (line ++ ((if line = [] then [] else crlf) ++ text))
    rw [List.length_append] at hle
    exact (Nat.le_add_right _ _).trans hle

theorem glue_length {n : Nat} (h : ∀ text ∈ texts, text.length ≤ n) :
    (glue line texts).length ≤ line.length + (n + 2) * texts.length := by
  induction texts generalizing line with
  | nil => exact Nat.le_refl _
  | cons text texts ih =>
    obtain ⟨htext, htexts⟩ := List.forall_mem_cons.1 h
    have hle := @ih (line ++ ((if line = [] then [] else crlf) ++ text)) htexts
    have hsep : (if line = [] then [] else crlf).length ≤ 2 := by
      split
      · exact Nat.zero_le 2
      · exact Nat.le_refl 2
    simp only [List.length_append, List.length_cons, Nat.mul_add] at hle ⊢
    rw [glue]
    omega

theorem glue_of_ne_nil (h : line ≠ []) : glue line texts = crlf.intercalate (line :: texts) := by
  induction texts generalizing line with
  | nil => simp [glue]
  | cons text texts ih =>
    rw [glue, if_neg h, ih (by simp [h])]
    rcases texts with - | ⟨text', texts⟩ <;> simp [List.intercalate, List.intersperse]

theorem glue_nil (h : ∀ text ∈ texts, text ≠ []) : glue [] texts = crlf.intercalate texts := by
  rcases texts with - | ⟨text, texts⟩
  · rfl
  · rw [glue, if_pos rfl, List.nil_append, List.nil_append, glue_of_ne_nil (h text List.mem_cons_self)]

theorem groupText_ne_nil (index : Nat) (session : MulticastSession) : groupText index session ≠ [] := by
  intro h
  have hlen := congrArg List.length h
  simp [groupText, ascii] at hlen

theorem glue_groups (ys : List MulticastSession) : glue [] (ys.mapIdx groupText) = listText ys := by
  refine glue_nil fun text htext => ?_
  obtain ⟨j, hj, rfl⟩ := List.mem_mapIdx.1 htext
  exact groupText_ne_nil _ _

/-- The loop writes the lines of the groups it gets, if all of them fit. -/
theorem listLoop_of_get (hget : ∀ j (hj : j < ys.length), get (i + j) = .ok ys[j])
    (hline : line.length < size) :
    listLoop size get i ys.length line =
      if (glue line (ys.mapIdx fun j => groupText (i + j))).length < size then
        .ok (glue line (ys.mapIdx fun j => groupText (i + j)))
      else .error .noResource := by
  induction ys generalizing i line with
  | nil => exact (if_pos hline).symm
  | cons y ys ih =>
    have hfirst : get i = .ok y := hget 0 (Nat.zero_lt_succ _)
    have hrest : ∀ j (hj : j < ys.length), get (i + 1 + j) = .ok ys[j] := fun j hj => by
      rw [Nat.add_assoc, Nat.add_comm 1 j]
      exact hget (j + 1) (Nat.succ_lt_succ hj)
    have hindex : (ys.mapIdx fun j => groupText (i + (j + 1))) =
        ys.mapIdx fun j => groupText (i + 1 + j) := by
      refine congrArg (fun f => List.mapIdx f ys) (funext fun j => ?_)
      rw [Nat.add_assoc, Nat.add_comm 1 j]
    rw [List.length_cons, listLoop, hfirst, List.mapIdx_cons, glue, Nat.add_zero, hindex]
    dsimp only
    generalize (if line = [] then [] else crlf) ++ groupText i y = written
    have hle := length_le_glue (line ++ written) (ys.mapIdx fun j => groupText (i + 1 + j))
    rw [List.length_append] at hle
    by_cases hroom : size - line.length ≤ written.length
    · rw [if_pos hroom, if_neg (by omega)]
    · rw [if_neg hroom]
      exact ih hrest (by rw [List.length_append]; omega)

theorem listLoop_ok {left : Nat} (h : listLoop size get i left line = .ok text) :
    ∃ ys : List MulticastSession, ys.length = left ∧
      ∀ j (hj : j < ys.length), get (i + j) = .ok ys[j] := by
  induction left generalizing i line with
  | zero => exact ⟨[], rfl, fun j hj => absurd hj (Nat.not_lt_zero j)⟩
  | succ left ih =>
    rw [listLoop] at h
    split at h
    · cases h
    · rename_i y hy
      dsimp only at h
      generalize (if line = [] then [] else crlf) ++ groupText i y = written at h
      split at h
      · cases h
      · obtain ⟨ys, hlen, hget⟩ := ih h
        refine ⟨y :: ys, congrArg (· + 1) hlen, fun j hj => ?_⟩
        rcases j with - | j
        · exact hy
        · have hindex : i + (j + 1) = i + 1 + j := by omega
          exact (congrArg get hindex).trans (hget j (Nat.lt_of_succ_lt_succ hj))

end Text

/-! ### AT+LSTMULC -/

section List
variable {ω : Type*} {port : Port ω} {ctx : Ctx} {s : Usp.State} {states : Nat → Usp.State}

theorem check_congr {t : Usp.State} (h : t.ready = s.ready) : check ctx t = check ctx s := by
  unfold check
  rw [h]

/-- The list fits the handler's buffer, but not that of the reply with its frame. -/
theorem respond_list (text : List UInt8) (device : At.State ω) :
    (if text.length < port.txBufferSize then respondValue port text device
      else (Err.noResource.rc, device)) =
      if Fits port text then writeAll port (framed text) device
      else (if text.length < port.txBufferSize then Err.overflow.rc else Err.noResource.rc, device) := by
  rw [respondValue_eq]
  by_cases hfits : Fits port text
  · have hlt : text.length + 8 < port.txBufferSize := hfits
    rw [if_pos hfits, if_pos hfits, if_pos (by omega)]
    rfl
  · rw [if_neg hfits, if_neg hfits]
    split <;> rfl

/-- What an undisturbed AT+LSTMULC answers. -/
theorem handleLstmulc_eq (hsize : 0 < port.txBufferSize) (h : Undisturbed states s) (request : Request)
    (device : At.State ω) :
    handleLstmulc port ctx states request device =
      match check ctx s with
      | .error e => (e.rc, device)
      | .ok () =>
        if Fits port (listText (listed s)) then writeAll port (framed (listText (listed s))) device
        else (if (listText (listed s)).length < port.txBufferSize then Err.overflow.rc else Err.noResource.rc,
          device) := by
  unfold handleLstmulc
  rw [Usp.Multicast.getCount_eq, check_congr (h 0).1, (h 0).2]
  rcases hcheck : check ctx s with e | u
  · rfl
  · have hget : ∀ j (hj : j < (listed s).length),
        Usp.Multicast.getSession ctx (0 + j) (states (0 + j + 1)) = .ok (listed s)[j] := by
      intro j hj
      rw [Usp.Multicast.getSession_eq, check_congr (h _).1, (h _).2, hcheck, Nat.zero_add,
        List.getElem?_eq_getElem hj]
      rfl
    have hloop := @listLoop_of_get port.txBufferSize 0 []
      (fun i => Usp.Multicast.getSession ctx i (states (i + 1))) (listed s) hget hsize
    simp only [Nat.zero_add, glue_groups] at hloop
    dsimp only [Except.map]
    rw [hloop, ← respond_list]
    by_cases hfits : (listText (listed s)).length < port.txBufferSize
    · rw [if_pos hfits, if_pos hfits]
    · rw [if_neg hfits, if_neg hfits]

/-- Whatever happens in between, a list that is printed has the lines of groups that were there when they
were asked for. -/
theorem handleLstmulc_cases (hsize : 0 < port.txBufferSize) (ctx : Ctx) (states : Nat → Usp.State)
    (request : Request) (device : At.State ω) :
    (∃ e : Err, handleLstmulc port ctx states request device = (e.rc, device)) ∨
      ∃ ys, handleLstmulc port ctx states request device = writeAll port (framed (listText ys)) device ∧
        ys.length = (listed (states 0)).length ∧
          ∀ i (hi : i < ys.length), (listed (states (i + 1)))[i]? = some ys[i] := by
  unfold handleLstmulc
  split
  · exact .inl ⟨_, rfl⟩
  rename_i count hcount
  split
  · exact .inl ⟨_, rfl⟩
  rename_i line hline
  obtain ⟨ys, hlen, hget⟩ := listLoop_ok hline
  have hloop := @listLoop_of_get port.txBufferSize 0 []
    (fun i => Usp.Multicast.getSession ctx i (states (i + 1))) ys hget hsize
  simp only [Nat.zero_add, hlen, hline, glue_groups] at hloop
  have htext : line = listText ys := by
    split at hloop
    · exact Except.ok.inj hloop
    · cases hloop
  rw [respondValue_eq]
  by_cases hfits : Fits port line
  · rw [if_pos hfits]
    refine .inr ⟨ys, by rw [htext]; rfl, ?_, fun i hi => ?_⟩
    · rw [Usp.Multicast.getCount_eq] at hcount
      rcases hcheck : check ctx (states 0) with e | u
      · rw [hcheck] at hcount
        cases hcount
      · rw [hcheck] at hcount
        exact hlen.trans (Except.ok.inj hcount).symm
    · have hi' := hget i hi
      rw [Usp.Multicast.getSession_eq, Nat.zero_add] at hi'
      rcases hcheck : check ctx (states (i + 1)) with e | u
      · rw [hcheck] at hi'
        cases hi'
      · rw [hcheck] at hi'
        simp only [Except.bind] at hi'
        rcases hy : (listed (states (i + 1)))[i]? with - | y
        · rw [hy] at hi'
          cases hi'
        · rw [hy] at hi'
          exact congrArg some (Except.ok.inj hi')
  · rw [if_neg hfits]
    exact .inl ⟨_, rfl⟩

/-- Four groups are never more than this. -/
theorem listText_length (s : Usp.State) : (listText (listed s)).length ≤ 148 := by
  have hcount : (listed s).length ≤ 4 := by
    have hle := List.length_filterMap_le (entry s) (List.finRange 4)
    rwa [List.length_finRange] at hle
  have hline : ∀ text ∈ (listed s).mapIdx groupText, text.length ≤ 35 := by
    intro text htext
    obtain ⟨j, hj, rfl⟩ := List.mem_mapIdx.1 htext
    have hindex : (decimal (j + 1)).length ≤ 1 := (decimal_length (by decide)).2 (by omega)
    have hfrequency : (decimal (listed s)[j].frequencyHz.toNat).length ≤ 10 :=
      (decimal_length (by decide)).2 ((UInt32.toNat_lt _).trans (by decide))
    have hrate : (decimal (listed s)[j].dataRate.toNat).length ≤ 3 :=
      (decimal_length (by decide)).2 ((UInt8.toNat_lt _).trans (by decide))
    have hperiod : (decimal (listed s)[j].periodicity.toNat).length ≤ 5 :=
      (decimal_length (by decide)).2 ((UInt16.toNat_lt _).trans (by decide))
    have hmc : (ascii "MC").length = 2 := by decide
    have hcolon : (ascii ":").length = 1 := by decide
    simp only [groupText, hex8, List.length_append, List.length_map, List.length_range, hmc, hcolon,
      List.length_singleton]
    omega
  have hle : _ ≤ [].length + _ := glue_length hline
  rw [glue_groups, List.length_mapIdx, List.length_nil] at hle
  omega

end List

/-! ### The text that a group is added with -/

section Add
variable {conversion : Conversion} {ctx : Ctx} {argument hex : List UInt8} {s : Usp.State} {r : Scanned}
  {session y : MulticastSession} {devAddr : UInt32}

theorem shift_or_toNat {v : UInt32} (h : v.toNat < 16777216) (b : UInt8) :
    (v <<< 8 ||| b.toUInt32).toNat = v.toNat * 256 + b.toNat := by
  have hb := b.toNat_lt
  have hshift : v.toNat <<< 8 % 2 ^ 32 = v.toNat <<< 8 := by
    rw [Nat.shiftLeft_eq]
    exact Nat.mod_eq_of_lt (by omega)
  rw [UInt32.toNat_or, UInt32.toNat_shiftLeft, UInt8.toNat_toUInt32]
  show v.toNat <<< 8 % 2 ^ 32 ||| b.toNat = _
  rw [hshift, ← Nat.shiftLeft_add_eq_or_of_lt hb, Nat.shiftLeft_eq]

theorem devAddr_toNat (a b c d : UInt8) :
    ([a, b, c, d].foldl (fun (v : UInt32) b => v <<< 8 ||| b.toUInt32) 0).toNat =
      a.toNat * 16777216 + b.toNat * 65536 + c.toNat * 256 + d.toNat := by
  have ha := a.toNat_lt
  have hb := b.toNat_lt
  have hc := c.toNat_lt
  simp only [List.foldl_cons, List.foldl_nil]
  have h₁ := shift_or_toNat (v := 0) (by decide) a
  generalize (0 : UInt32) <<< 8 ||| a.toUInt32 = v₁ at h₁ ⊢
  rw [show (0 : UInt32).toNat = 0 from rfl] at h₁
  have h₂ := shift_or_toNat (by omega : v₁.toNat < 16777216) b
  generalize v₁ <<< 8 ||| b.toUInt32 = v₂ at h₂ ⊢
  have h₃ := shift_or_toNat (by omega : v₂.toNat < 16777216) c
  generalize v₂ <<< 8 ||| c.toUInt32 = v₃ at h₃ ⊢
  rw [shift_or_toNat (by omega) d]
  omega

/-- The address of a text is printed as the text, in upper case. -/
theorem hex8_parseDevAddr (h : parseDevAddr hex = .ok devAddr) : hex8 devAddr = hex.map upper := by
  unfold parseDevAddr at h
  split at h
  · cases h
  rename_i bytes hbytes
  obtain ⟨hlen, hupper⟩ := Hex.binToHex_of_hexToBin hbytes
  obtain ⟨a, b, c, d, rfl⟩ := List.length_eq_four.1 hlen
  have hnat := devAddr_toNat a b c d
  rw [Except.ok.inj h] at hnat
  have ha := a.toNat_lt
  have hb := b.toNat_lt
  have hc := c.toNat_lt
  have hd := d.toNat_lt
  have hdigit (k : UInt32) (n : Nat) (hk : k.toNat % 32 = n) :
      (devAddr >>> k &&& 0x0f).toNat = devAddr.toNat / 2 ^ n % 16 := by
    rw [UInt32.toNat_and, UInt32.toNat_shiftRight, hk, Nat.shiftRight_eq_div_pow]
    exact Nat.and_two_pow_sub_one_eq_mod _ 4
  have hhigh (x : UInt8) : (x >>> 4).toNat = x.toNat / 16 := by
    rw [UInt8.toNat_shiftRight, Nat.shiftRight_eq_div_pow]
    rfl
  have hlow (x : UInt8) : (x &&& 0x0f).toNat = x.toNat % 16 := by
    rw [UInt8.toNat_and]
    exact Nat.and_two_pow_sub_one_eq_mod _ 4
  rw [← hupper]
  simp only [hex8, Recv.binToHex, List.range, List.range.loop, List.map_cons, List.map_nil,
    List.flatMap_cons, List.flatMap_nil, List.cons_append, List.nil_append, hhigh, hlow]
  rw [hdigit _ 28 rfl, hdigit _ 24 rfl, hdigit _ 20 rfl, hdigit _ 16 rfl, hdigit _ 12 rfl, hdigit _ 8 rfl,
    hdigit _ 4 rfl, hdigit _ 0 rfl, hnat]
  simp only [List.cons.injEq, and_true]
  refine ⟨?_, ?_, ?_, ?_, ?_, ?_, ?_, ?_⟩ <;> exact congrArg (Recv.hexDigits.getD · 0) (by omega)

/-- The group that a text stands for. -/
theorem sessionOf_text (h : sessionOf conversion argument = .ok session) (hr : SessionText argument r) :
    sessionClass r.letter = some session.deviceClass ∧ parseDevAddr r.devAddr = .ok session.devAddr ∧
      session.frequencyHz = conversion.unsigned r.frequency ∧
      conversion.unsigned r.dataRate ≤ 15 ∧
      session.dataRate = (conversion.unsigned r.dataRate).toUInt8 ∧
      session.periodicity = (conversion.unsigned r.periodicity).toUInt16 := by
  obtain ⟨hscan, -⟩ := scanSession_full.2 hr
  unfold sessionOf at h
  rw [hscan] at h
  dsimp only at h
  split at h
  · cases h
  rename_i deviceClass hclass
  split at h
  · rename_i devAddr nwkSKey appSKey hdev hnwk happ
    split at h
    · cases h
    · rename_i hchecks
      cases h
      exact ⟨hclass, hdev, rfl, UInt32.not_lt.1 (not_or.1 hchecks).2, rfl, rfl⟩
  · cases h

/-- A group is printed as the text that it was added with. -/
theorem groupText_eq (h : sessionOf conversion argument = .ok session) (hr : SessionText argument r)
    (hexact : Exact r) (hclass : y.deviceClass = session.deviceClass) (haddr : y.devAddr = session.devAddr)
    (hfrequency : y.frequencyHz = session.frequencyHz) (hrate : y.dataRate = session.dataRate)
    (hperiod : y.periodicity = session.periodicity) (index : Nat) :
    groupText index y = printedAs index r := by
  obtain ⟨hletter, hdev, hf, hle, hd, hp⟩ := sessionOf_text h hr
  obtain ⟨-, hfr, hdr, hpr⟩ := hexact
  have hf' := (@unsigned_exact r.frequency conversion).2 hfr
  have hd' := (@unsigned_exact r.dataRate conversion).2 (by omega)
  have hp' := (@unsigned_exact r.periodicity conversion).2 (by omega)
  have hclassLetter : classLetter y.deviceClass = r.letter := by
    rw [hclass]
    unfold sessionClass at hletter
    split at hletter
    · rename_i hb
      rw [← Option.some.inj hletter, hb]
      rfl
    · split at hletter
      · rename_i hc
        rw [← Option.some.inj hletter, hc]
        rfl
      · cases hletter
  have hfreqNat : y.frequencyHz.toNat = r.frequency.toInt.toNat := by
    rw [hfrequency, hf]
    omega
  have hrateNat : y.dataRate.toNat = r.dataRate.toInt.toNat := by
    rw [hrate, hd, UInt32.toNat_toUInt8]
    omega
  have hperiodNat : y.periodicity.toNat = r.periodicity.toInt.toNat := by
    rw [hperiod, hp, UInt32.toNat_toUInt16]
    omega
  rw [groupText, printedAs, hclassLetter, haddr, hex8_parseDevAddr hdev, hfreqNat, hrateNat, hperiodNat]

theorem handleAddmulc_ok (h : (handleAddmulc conversion (add ctx) argument s).1 = .ok .ok) :
    ∃ session, sessionOf conversion argument = .ok session ∧
      ((Usp.Multicast.Act.add ctx (some session)).run s).1 = .ok () ∧
      (handleAddmulc conversion (add ctx) argument s).2 =
        ((Usp.Multicast.Act.add ctx (some session)).run s).2 := by
  unfold handleAddmulc at h ⊢
  rcases hsession : sessionOf conversion argument with e | session
  · rw [hsession] at h
    cases h
  · rw [hsession] at h
    dsimp only [add] at h ⊢
    rcases hadd : (Usp.Multicast.Act.add ctx (some session)).run s with ⟨e | u, t⟩
    · rw [hadd] at h
      cases h
    · exact ⟨session, rfl, by rw [hadd], by rw [hadd]; rfl⟩

/-- An accepted text takes a free group. -/
theorem added (h : (handleAddmulc conversion (add ctx) argument s).1 = .ok .ok)
    (hr : SessionText argument r) (hexact : Exact r) : ∃ group y, entry s group = none ∧
      parseDevAddr r.devAddr = .ok y.devAddr ∧ (∀ index, groupText index y = printedAs index r) ∧
      entry (handleAddmulc conversion (add ctx) argument s).2 group = some y := by
  obtain ⟨session, hsession, hok, hstate⟩ := handleAddmulc_ok h
  rcases Usp.Multicast.addSession_cases ctx (some session) s with
    ⟨e, he⟩ | ⟨x, group, hx, hfree, -, -, hentry⟩
  · cases (congrArg Prod.fst he).symm.trans hok
  · obtain rfl := Option.some.inj hx
    refine ⟨group, Usp.Multicast.shown group session, hfree, (sessionOf_text hsession hr).2.1,
      groupText_eq hsession hr hexact rfl rfl rfl rfl rfl, ?_⟩
    rw [hstate]
    exact (congrFun hentry group).trans (Function.update_self ..)

/-- A group stays where it is until it is removed. -/
theorem entry_kept {group : Fin 4} {a : Usp.Multicast.Act} (h : entry s group = some y)
    (ha : Spares y.devAddr s a) :
    entry (a.run s).2 group = some y := by
  cases a with
  | add ctx session =>
    rcases Usp.Multicast.addSession_cases ctx session s with
      ⟨e, he⟩ | ⟨x, taken, -, hfree, -, -, hentry⟩
    · rw [show (Usp.Multicast.Act.add ctx session).run s = _ from he]
      exact h
    · have hne : group ≠ taken := by
        rintro rfl
        cases hfree.symm.trans h
      refine (congrFun hentry group).trans ?_
      rw [Function.update_of_ne hne, h]
  | remove ctx devAddr =>
    rcases Usp.Multicast.removeSession_cases ctx devAddr s with
      ⟨e, he⟩ | ⟨x, taken, hx, haddr, hok, hentry⟩
    · rw [show (Usp.Multicast.Act.remove ctx devAddr).run s = _ from he]
      exact h
    · have hne : group ≠ taken := by
        rintro rfl
        rw [h] at hx
        cases hx
        exact ha haddr.symm hok
      refine (congrFun hentry group).trans ?_
      rw [Function.update_of_ne hne, h]
  | clear ctx =>
    rcases Usp.Multicast.clearSessions_cases ctx s with ⟨e, he⟩ | ⟨hok, -⟩
    · rw [show (Usp.Multicast.Act.clear ctx).run s = _ from he]
      exact h
    · exact absurd hok ha
  | getCount ctx => exact h
  | getSession ctx index => exact h
  | other modem call hcall =>
    exact (congrFun (Usp.Multicast.call_sameTable modem s hcall).entry_eq group).trans h
  | event modem source =>
    exact (congrFun (Usp.Multicast.handleEvent_sameTable modem source s).entry_eq group).trans h

end Add

/-! ### Histories -/

section History
variable {conversion : Conversion} {group : Fin 4} {y : MulticastSession} {s : Usp.State}

theorem respondOk_snd {σ : Type*} (r : Except Err Unit × σ) : (respondOk r).2 = r.2 := by
  rcases r with ⟨e | u, t⟩ <;> rfl

/-- The calls behind an input do what its handler does. -/
theorem handle_eq (conversion : Conversion) (s : Usp.State) (input : Input) :
    input.handle conversion s = (input.acts conversion).foldl step s := by
  cases input with
  | addmulc ctx argument =>
    rw [Input.handle, handleAddmulc, Input.acts]
    rcases sessionOf conversion argument with e | session
    · rfl
    · exact respondOk_snd _
  | rmvmulc ctx argument =>
    rw [Input.handle, handleRmvmulc, Input.acts]
    rcases parseDevAddr argument with e | devAddr
    · rfl
    · exact respondOk_snd _
  | act a => rfl

theorem next_state (acts : List Usp.Multicast.Act) (x : Usp.Multicast.Sys) :
    (acts.foldl Usp.Multicast.next x).state = acts.foldl step x.state := by
  induction acts generalizing x with
  | nil => rfl
  | cons a acts ih => exact ih _

theorem after_append (inputs more : List Input) : (after conversion (inputs ++ more)).state =
    (more.flatMap (Input.acts conversion)).foldl step
      (after conversion inputs).state := by
  unfold after Usp.Multicast.after
  rw [List.flatMap_append, List.foldl_append, next_state]

theorem after_concat (inputs : List Input) (input : Input) :
    (after conversion (inputs ++ [input])).state =
      input.handle conversion (after conversion inputs).state := by
  rw [after_append, handle_eq, List.flatMap_singleton]

theorem entry_along {acts : List Usp.Multicast.Act} (h : entry s group = some y)
    (hacts : Lts.Along step (Spares y.devAddr) s acts) :
    entry (acts.foldl step s) group = some y := by
  induction acts generalizing s with
  | nil => exact h
  | cons a acts ih =>
    obtain ⟨ha, hacts⟩ := hacts
    exact ih (entry_kept h ha) hacts

/-- **Groups as text.** In every history, AT+LSTMULC prints a line for each group that was added and not
removed, if the list fits the buffer of the reply. Nobody may change the table meanwhile; in any case, it is
answered with an error and nothing is printed, or each line is that of a group that was there when it was
asked for. A group is printed as the text that it was added with until a call removes it. -/
theorem groups_printed {ω : Type*} (conversion : Conversion) (port : Port ω) (hsize : 0 < port.txBufferSize)
    (ctx : Ctx) (request : Request) (device : At.State ω) (inputs : List Input) :
    (∀ input, (after conversion (inputs ++ [input])).state =
        input.handle conversion (after conversion inputs).state) ∧
      (∃ held, Held (after conversion inputs).trace held ∧
        listed (after conversion inputs).state = listing held) ∧
      (∀ states, Undisturbed states (after conversion inputs).state →
        handleLstmulc port ctx states request device =
          match check ctx (after conversion inputs).state with
          | .error e => (e.rc, device)
          | .ok () =>
            let text := listText (listed (after conversion inputs).state)
            if Fits port text then writeAll port (framed text) device
            else (if text.length < port.txBufferSize then Err.overflow.rc else Err.noResource.rc, device)) ∧
      (listText (listed (after conversion inputs).state)).length ≤ 148 ∧
      (∀ states,
        (∃ e : Err, handleLstmulc port ctx states request device = (e.rc, device)) ∨
          ∃ ys, handleLstmulc port ctx states request device = writeAll port (framed (listText ys)) device ∧
            ys.length = (listed (states 0)).length ∧
              ∀ i (hi : i < ys.length), (listed (states (i + 1)))[i]? = some ys[i]) ∧
      ∀ addCtx argument r more, SessionText argument r → Exact r →
        (handleAddmulc conversion (add addCtx) argument (after conversion inputs).state).1 = .ok .ok →
        (∀ devAddr, parseDevAddr r.devAddr = .ok devAddr →
          Lts.Along step (Spares devAddr)
            (after conversion (inputs ++ [.addmulc addCtx argument])).state
            (more.flatMap (Input.acts conversion))) →
        ∃ (i : Nat) (y : MulticastSession),
          (listed (after conversion (inputs ++ [.addmulc addCtx argument] ++ more)).state)[i]? = some y ∧
            groupText i y = printedAs i r := by
  obtain ⟨held, hheld⟩ := Usp.Multicast.holds_after (inputs.flatMap (Input.acts conversion))
  refine ⟨after_concat inputs, ⟨held, hheld.history, hheld.listed⟩,
    fun states h => handleLstmulc_eq hsize h request device, listText_length _,
    fun states => handleLstmulc_cases hsize ctx states request device, ?_⟩
  intro addCtx argument r more hr hexact hok hspares
  obtain ⟨group, y, -, haddr, htext, hentry⟩ := added hok hr hexact
  rw [show (handleAddmulc conversion (add addCtx) argument (after conversion inputs).state).2 = _ from
    (after_concat inputs (.addmulc addCtx argument)).symm] at hentry
  have hlast := entry_along hentry (hspares y.devAddr haddr)
  rw [← after_append] at hlast
  have hmem : y ∈ listed (after conversion (inputs ++ [.addmulc addCtx argument] ++ more)).state :=
    List.mem_filterMap.2 ⟨group, List.mem_finRange group, hlast⟩
  obtain ⟨i, hi, hy⟩ := List.mem_iff_getElem.1 hmem
  exact ⟨i, y, by rw [List.getElem?_eq_getElem hi, hy], htext i⟩

/-- A group of class C. -/
def exampleText : List UInt8 :=
  ascii "C:01020a0b:00112233445566778899aabbccddeeff:ffeeddccbbaa99887766554433221100:868100000:5:0"

def exampleScan : Scanned where
  letter := 0x43
  devAddr := ascii "01020a0b"
  nwkSKey := ascii "00112233445566778899aabbccddeeff"
  appSKey := ascii "ffeeddccbbaa99887766554433221100"
  frequency := ⟨false, 868100000⟩
  dataRate := ⟨false, 5⟩
  periodicity := ⟨false, 0⟩
  unread := []

def earlierText : List UInt8 :=
  ascii "C:0a0b0c0d:00112233445566778899aabbccddeeff:ffeeddccbbaa99887766554433221100:868300000:4:0"

def laterText : List UInt8 :=
  ascii "B:11223344:00112233445566778899aabbccddeeff:ffeeddccbbaa99887766554433221100:869525000:3:7"

/-- A group before the example. -/
def earlier : List Input := [.act Usp.Multicast.ready, .addmulc Usp.Multicast.startedCtx earlierText]

/-- The group before the example is removed, and another one takes its place. -/
def later : List Input :=
  [.rmvmulc Usp.Multicast.startedCtx (ascii "0A0B0C0D"), .addmulc Usp.Multicast.startedCtx laterText]

def shortPort : Port Unit := ⟨64, 160, 80, false, fun _ => 0, none⟩

def idleDevice : At.State Unit := ⟨.reset, false, false, [], (), [], false⟩

theorem groups_printed_two :
    (∃ (i : Nat) (y : MulticastSession),
      (listed (after .saturates
        (earlier ++ [.addmulc Usp.Multicast.startedCtx exampleText] ++ later)).state)[i]? = some y ∧
        groupText i y = printedAs i exampleScan) ∧
      handleLstmulc shortPort Usp.Multicast.startedCtx
        (fun _ => (after .saturates
          (earlier ++ [.addmulc Usp.Multicast.startedCtx exampleText] ++ later)).state)
        ⟨.read, none⟩ idleDevice =
        writeAll shortPort (framed (ascii "MC1:B:11223344:869525000:3:7" ++ crlf ++
          ascii "MC2:C:01020A0B:868100000:5:0")) idleDevice := by
  have hprinted := groups_printed .saturates shortPort (by decide) Usp.Multicast.startedCtx ⟨.read, none⟩
    idleDevice
  constructor
  · refine (hprinted earlier).2.2.2.2.2 Usp.Multicast.startedCtx exampleText exampleScan later
      (scanSession_full.1 ?_) ?_ ?_ fun devAddr hdevAddr => ?_
    · decide +kernel
    · exact ⟨rfl, by decide, by decide, by decide⟩
    · decide +kernel
    · obtain rfl : 0x01020a0b = devAddr := Except.ok.inj hdevAddr
      exact ⟨fun haddr => absurd haddr (by decide), trivial, trivial⟩
  · have hlist := (hprinted (earlier ++ [.addmulc Usp.Multicast.startedCtx exampleText] ++ later)).2.2.1
      (fun _ => _) fun _ => ⟨rfl, rfl⟩
    have hcheck : check Usp.Multicast.startedCtx (after .saturates
        (earlier ++ [.addmulc Usp.Multicast.startedCtx exampleText] ++ later)).state = .ok () := by
      decide +kernel
    have htext : listText (listed (after .saturates
        (earlier ++ [.addmulc Usp.Multicast.startedCtx exampleText] ++ later)).state) =
        ascii "MC1:B:11223344:869525000:3:7" ++ crlf ++ ascii "MC2:C:01020A0B:868100000:5:0" := by
      decide +kernel
    rw [hlist, hcheck]
    dsimp only
    rw [htext, if_pos (by decide)]

end History

end Rzi.At.Multicast
