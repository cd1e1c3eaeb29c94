import Rzi.AtHex
import Rzi.CredentialFrame

/-!
# Keys and identifiers from the AT interface (`commands/lorawan/at_lorawan_key_id.c`)

AT+DEVEUI, AT+APPEUI, AT+APPKEY, AT+DEVADDR, AT+NWKSKEY, AT+APPSKEY and AT+NETID write a byte string as
hexadecimal text through the credential store, or `lorawan_config.c`, into the settings, and print it
from there. In OTAA mode the address and the session keys are printed from the session instead, and so
is the NetID of a joined device. `identifier_printed` follows a text through the layers and over
reboots; `identifier_accepted_iff` says which texts are taken, and that a refused one changes nothing.
-/

namespace Rzi.At.Identifiers
open Settings Storage LittleEndian
open Lorawan (Build CallFaults CredentialStore Mode Setter)

/-- What the service and the backend answer about the session; a missing operation is `none`. -/
structure Session where
  started : Bool
  isJoined : Except Err Bool
  getDevAddr : Option (Except Err UInt32)
  getNwkSkey : Option (Except Err (Vector UInt8 16))
  getAppSkey : Option (Except Err (Vector UInt8 16))
  getNetId : Option (Except Err UInt32)

/-- `sys_get_be32`. -/
def getBe32 (bytes : Bytes) : UInt32 := UInt32.ofNat (getLe (bytes.take 4).reverse)

/-- `sys_put_be32`. -/
def putBe32 (value : UInt32) : Bytes := (putLe 4 value.toNat).reverse

section Model
variable (cfg : Config) (build : Build) (session : Session)

/-! ### The getters that ask the session -/

/-- `session_joined`. -/
def sessionJoined : Except Err Bool := if !session.started then .ok false else session.isJoined

/-- `read_otaa_key` and `read_otaa_dev_addr`. -/
def readOtaa {α : Type} (get : Option (Except Err α)) (zero : α) : Except Err α :=
  match sessionJoined session with
  | .error e => .error e
  | .ok false => .ok zero
  | .ok true =>
    match get with
    | none => .error .notSupported
    | some answer => answer

/-- The section of `rzi_lorawan_get_dev_addr`, `_get_nwk_skey` and `_get_app_skey`: the activation, and
the stored value in ABP mode. -/
def getAbp {α : Type} (src : CredentialStore → α) (valid : CredentialStore → Bool)
    (faults : CallFaults) (d : Lorawan.Device) : Except Err (Option α) × Lorawan.Device :=
  d.readLocked cfg (fun c => match c.njm with
    | .abp => if valid c then .ok (some (src c)) else .error .noData
    | .otaa => .ok none) faults

def getSession {α : Type} (src : CredentialStore → α) (valid : CredentialStore → Bool)
    (get : Option (Except Err α)) (zero : α) (faults : CallFaults) (d : Lorawan.Device) :
    Except Err α × Lorawan.Device :=
  match getAbp cfg src valid faults d with
  | (.error e, d) => (.error e, d)
  | (.ok (some value), d) => (.ok value, d)
  | (.ok none, d) => (readOtaa session get zero, d)

def getDevAddr : CallFaults → Lorawan.Device → Except Err UInt32 × Lorawan.Device :=
  getSession cfg session (·.devAddr) (·.devAddrSet) session.getDevAddr 0

def getNwkSkey (len : Nat) (faults : CallFaults) (d : Lorawan.Device) :
    Except Err (Vector UInt8 16) × Lorawan.Device :=
  if len ≠ 16 then (.error .invalid, d)
  else getSession cfg session (·.nwkSkey) (·.nwkSkeySet) session.getNwkSkey (.replicate 16 0) faults d

def getAppSkey (len : Nat) (faults : CallFaults) (d : Lorawan.Device) :
    Except Err (Vector UInt8 16) × Lorawan.Device :=
  if len ≠ 16 then (.error .invalid, d)
  else getSession cfg session (·.appSkey) (·.appSkeySet) session.getAppSkey (.replicate 16 0) faults d

/-- The NetID that the setting stands for. -/
def storedNetId : Except Err (Bytes × Bool) → Except Err UInt32
  | .error e => .error e
  | .ok (_, false) => .error .noData
  | .ok (stored, true) => .ok (UInt32.ofNat (getLe (stored.take 4)))

/-- `rzi_lorawan_config_get_net_id`. -/
def configGetNetId (faults : CallFaults) (d : Lorawan.Device) : Except Err UInt32 × Lorawan.Device :=
  let r := settingRead cfg d.settings "netid" 4 (faults.read .netid)
  (storedNetId r.1, ⟨r.2, d.credentials⟩)

/-- The NetID of the session, where `rzi_lorawan_get_net_id` finds one. -/
def sessionNetId : Option UInt32 :=
  match session.started, session.isJoined, session.getNetId with
  | true, .ok true, some (.ok netId) => some netId
  | _, _, _ => none

def getNetId (faults : CallFaults) (d : Lorawan.Device) : Except Err UInt32 × Lorawan.Device :=
  match sessionNetId session with
  | some netId => (.ok netId, d)
  | none => configGetNetId cfg faults d

/-- `rzi_lorawan_set_net_id`. -/
def setNetId (netId : UInt32) (faults : CallFaults) (d : Lorawan.Device) :
    Except Err Unit × Lorawan.Device :=
  let r := settingWrite cfg d.settings "netid" (putLe 4 netId.toNat) faults.write
  (r.1, ⟨r.2, d.credentials⟩)

/-! ### The commands -/

/-- `struct key_command`. -/
structure KeyCommand where
  responseName : List UInt8
  size : Nat
  get : Nat → CallFaults → Lorawan.Device → Except Err Bytes × Lorawan.Device
  set : Bytes → CallFaults → Lorawan.Device → Except Err Unit × Lorawan.Device

/-- A getter that fills the caller's array. -/
def bytesOf {n : Nat}
    (get : Nat → CallFaults → Lorawan.Device → Except Err (Vector UInt8 n) × Lorawan.Device)
    (len : Nat) (faults : CallFaults) (d : Lorawan.Device) : Except Err Bytes × Lorawan.Device :=
  ((get len faults d).1.map (·.toList), (get len faults d).2)

def devEui : KeyCommand where
  responseName := ascii "AT+DEVEUI"
  size := 8
  get := bytesOf fun len => Lorawan.Device.getDevEui cfg (some len)
  set value := Lorawan.Device.set cfg build (.devEui (some value))

def joinEui : KeyCommand where
  responseName := ascii "AT+APPEUI"
  size := 8
  get := bytesOf fun len => Lorawan.Device.getAppEui cfg (some len)
  set value := Lorawan.Device.set cfg build (.appEui (some value))

def appKey : KeyCommand where
  responseName := ascii "AT+APPKEY"
  size := 16
  get := bytesOf fun len => Lorawan.Device.getAppKey cfg (some len)
  set value := Lorawan.Device.set cfg build (.appKey (some value))

def nwkSkey : KeyCommand where
  responseName := ascii "AT+NWKSKEY"
  size := 16
  get := bytesOf (getNwkSkey cfg session)
  set value := Lorawan.Device.set cfg build (.nwkSkey (some value))

def appSkey : KeyCommand where
  responseName := ascii "AT+APPSKEY"
  size := 16
  get := bytesOf (getAppSkey cfg session)
  set value := Lorawan.Device.set cfg build (.appSkey (some value))

/-- The reply to a write. -/
def replied (x : Except Err Unit × Lorawan.Device) : Except Err Answer × Lorawan.Device :=
  (x.1.map fun _ => .ok, x.2)

def valueReply (name : List UInt8) (bytes : Bytes) : Answer :=
  .value (name ++ ascii "=" ++ Recv.binToHex bytes)

def handleKey (command : KeyCommand) (operation : Operation) (argument : List UInt8)
    (faults : CallFaults) (d : Lorawan.Device) : Except Err Answer × Lorawan.Device :=
  if operation = .read then
    match command.get command.size faults d with
    | (.error e, d) =>
      if e = .noData then (.ok (valueReply command.responseName (List.replicate command.size 0)), d)
      else (.error e, d)
    | (.ok value, d) => (.ok (valueReply command.responseName value), d)
  else
    match Send.hexToBin argument command.size with
    | .error e => (.error e, d)
    | .ok value => replied (command.set value faults d)

def handleDevaddr (operation : Operation) (argument : List UInt8) (faults : CallFaults) (d : Lorawan.Device) :
    Except Err Answer × Lorawan.Device :=
  if operation = .read then
    match getDevAddr cfg session faults d with
    | (.error e, d) =>
      if e = .noData then (.ok (valueReply (ascii "AT+DEVADDR") (putBe32 0)), d) else (.error e, d)
    | (.ok devAddr, d) => (.ok (valueReply (ascii "AT+DEVADDR") (putBe32 devAddr)), d)
  else
    match Send.hexToBin argument 4 with
    | .error e => (.error e, d)
    | .ok bytes => replied (d.set cfg build (.devAddr (getBe32 bytes)) faults)

/-- The three bytes that `handle_netid` prints. -/
def netIdBytes (netId : UInt32) : Bytes :=
  [(netId >>> 16 &&& 0xff).toUInt8, (netId >>> 8 &&& 0xff).toUInt8, (netId &&& 0xff).toUInt8]

/-- The NetID that `handle_netid` makes of three bytes. -/
def netIdOf (bytes : Bytes) : UInt32 :=
  (bytes.getD 0 0).toUInt32 <<< 16 ||| (bytes.getD 1 0).toUInt32 <<< 8 ||| (bytes.getD 2 0).toUInt32

def handleNetid (operation : Operation) (argument : List UInt8) (faults : CallFaults) (d : Lorawan.Device) :
    Except Err Answer × Lorawan.Device :=
  if operation = .read then
    match getNetId cfg session faults d with
    | (.error e, d) => (.error e, d)
    | (.ok netId, d) => (.ok (valueReply (ascii "AT+NETID") (netIdBytes netId)), d)
  else
    match Send.hexToBin argument 3 with
    | .error e => (.error e, d)
    | .ok bytes => replied (setNetId cfg (netIdOf bytes) faults d)

def handleMcrootkey (faults : CallFaults) (d : Lorawan.Device) : Except Err Answer × Lorawan.Device :=
  match d.getAppKey cfg (some 16) faults with
  | (.error e, d) =>
    if e = .noData then (.ok (valueReply (ascii "AT+MCROOTKEY") (List.replicate 16 0)), d)
    else (.error e, d)
  | (.ok key, d) => (.ok (valueReply (ascii "AT+MCROOTKEY") key.toList), d)

/-- The commands that can be written. -/
inductive Ident where
  | devEui | appEui | appKey | devAddr | nwkSkey | appSkey | netId
deriving DecidableEq, Repr

/-- The `commands` table. -/
def handle : Ident → Operation → List UInt8 → CallFaults → Lorawan.Device →
    Except Err Answer × Lorawan.Device
  | .devEui => handleKey (devEui cfg build)
  | .appEui => handleKey (joinEui cfg build)
  | .appKey => handleKey (appKey cfg build)
  | .devAddr => handleDevaddr cfg build session
  | .nwkSkey => handleKey (nwkSkey cfg build session)
  | .appSkey => handleKey (appSkey cfg build session)
  | .netId => handleNetid cfg session

end Model

/-! ### Bytes and values -/

theorem putBe32_getBe32 {bytes : Bytes} (h : bytes.length = 4) :
    putBe32 (getBe32 bytes) = bytes := by
  have htake : bytes.take 4 = bytes := List.take_of_length_le (by omega)
  have hlen : bytes.reverse.length = 4 := by rw [List.length_reverse, h]
  have hlt := getLe_lt bytes.reverse
  rw [hlen] at hlt
  have hnat : (UInt32.ofNat (getLe bytes.reverse)).toNat = getLe bytes.reverse := by
    rw [UInt32.toNat_ofNat']
    exact Nat.mod_eq_of_lt hlt
  have hput := putLe_getLe bytes.reverse
  rw [hlen] at hput
  rw [putBe32, getBe32, htake, hnat, hput, List.reverse_reverse]

theorem netIdOf_toNat (a b c : UInt8) :
    (netIdOf [a, b, c]).toNat = a.toNat * 65536 + b.toNat * 256 + c.toNat := by
  have ha := a.toNat_lt
  have hb := b.toNat_lt
  have hc := c.toNat_lt
  have hab : a.toNat <<< 16 ||| b.toNat <<< 8 = (a.toNat * 256 + b.toNat) * 256 := by
    rw [show a.toNat <<< 16 = a.toNat <<< 8 <<< 8 by rw [← Nat.shiftLeft_add], ← Nat.shiftLeft_or_distrib,
      ← Nat.shiftLeft_add_eq_or_of_lt (by omega : b.toNat < 2 ^ 8), Nat.shiftLeft_eq, Nat.shiftLeft_eq]
  have habc : (a.toNat * 256 + b.toNat) * 256 ||| c.toNat =
      (a.toNat * 256 + b.toNat) * 256 + c.toNat := by
    rw [show (a.toNat * 256 + b.toNat) * 256 = (a.toNat * 256 + b.toNat) <<< 8 by
      rw [Nat.shiftLeft_eq], Nat.shiftLeft_add_eq_or_of_lt (by omega : c.toNat < 2 ^ 8)]
  have h16 : a.toNat <<< 16 % 2 ^ 32 = a.toNat <<< 16 := by
    rw [Nat.shiftLeft_eq]
    exact Nat.mod_eq_of_lt (by omega)
  have h8 : b.toNat <<< 8 % 2 ^ 32 = b.toNat <<< 8 := by
    rw [Nat.shiftLeft_eq]
    exact Nat.mod_eq_of_lt (by omega)
  show (a.toUInt32 <<< 16 ||| b.toUInt32 <<< 8 ||| c.toUInt32).toNat = _
  simp only [UInt32.toNat_or, UInt32.toNat_shiftLeft, UInt8.toNat_toUInt32]
  show (a.toNat <<< 16 % 2 ^ 32 ||| b.toNat <<< 8 % 2 ^ 32) ||| c.toNat = _
  rw [h16, h8, hab, habc]
  omega

theorem netIdBytes_netIdOf {bytes : Bytes} (h : bytes.length = 3) : netIdBytes (netIdOf bytes) = bytes := by
  obtain ⟨a, b, c, rfl⟩ : ∃ a b c, bytes = [a, b, c] := List.length_eq_three.1 h
  have ha := a.toNat_lt
  have hb := b.toNat_lt
  have hc := c.toNat_lt
  have hnat := netIdOf_toNat a b c
  have hmask (x : UInt32) : (x &&& 0xff).toUInt8.toNat = x.toNat % 256 := by
    rw [UInt32.toNat_toUInt8, UInt32.toNat_and]
    show (x.toNat &&& 2 ^ 8 - 1) % 256 = _
    rw [Nat.and_two_pow_sub_one_eq_mod]
    omega
  have hshift (k : UInt32) (n : Nat) (hk : k.toNat % 32 = n) :
      (netIdOf [a, b, c] >>> k).toNat = (a.toNat * 65536 + b.toNat * 256 + c.toNat) / 2 ^ n := by
    rw [UInt32.toNat_shiftRight, hk, hnat, Nat.shiftRight_eq_div_pow]
  simp only [netIdBytes, List.cons.injEq, and_true, ← UInt8.toNat_inj, hmask, hshift 16 16 rfl,
    hshift 8 8 rfl, hnat]
  refine ⟨?_, ?_, ?_⟩ <;> omega

theorem netIdOf_lt {bytes : Bytes} (h : bytes.length = 3) : (netIdOf bytes).toNat ≤ 0xffffff := by
  obtain ⟨a, b, c, rfl⟩ : ∃ a b c, bytes = [a, b, c] := List.length_eq_three.1 h
  have ha := a.toNat_lt
  have hb := b.toNat_lt
  have hc := c.toNat_lt
  rw [netIdOf_toNat]
  omega

theorem fill_toList {n : Nat} {value : Bytes} (h : value.length = n) :
    (Lorawan.fill n value).toList = value := by
  refine List.ext_getElem (by simp [h]) fun i hi hi' => ?_
  simp [Lorawan.fill, hi']

/-! ### What an identifier is stored as -/

namespace Ident

def name : Ident → List UInt8
  | .devEui => ascii "AT+DEVEUI"
  | .appEui => ascii "AT+APPEUI"
  | .appKey => ascii "AT+APPKEY"
  | .devAddr => ascii "AT+DEVADDR"
  | .nwkSkey => ascii "AT+NWKSKEY"
  | .appSkey => ascii "AT+APPSKEY"
  | .netId => ascii "AT+NETID"

def size : Ident → Nat
  | .devEui | .appEui => 8
  | .appKey | .nwkSkey | .appSkey => 16
  | .devAddr => 4
  | .netId => 3

/-- The setting of an identifier. -/
def key : Ident → Key
  | .devEui => .deveui
  | .appEui => .joineui
  | .appKey => .appkey
  | .devAddr => .devaddr
  | .nwkSkey => .nwkskey
  | .appSkey => .appskey
  | .netId => .netid

/-- The bytes of the setting, for the bytes of the text. -/
def wire (ident : Ident) (bytes : Bytes) : Bytes :=
  match ident with
  | .devAddr => putLe 4 (getBe32 bytes).toNat
  | .netId => putLe 4 (netIdOf bytes).toNat
  | _ => bytes

/-- The setter behind a command, `none` for that of `lorawan_config.c`. -/
def setter (ident : Ident) (bytes : Bytes) : Option Setter :=
  match ident with
  | .devEui => some (.devEui (some bytes))
  | .appEui => some (.appEui (some bytes))
  | .appKey => some (.appKey (some bytes))
  | .devAddr => some (.devAddr (getBe32 bytes))
  | .nwkSkey => some (.nwkSkey (some bytes))
  | .appSkey => some (.appSkey (some bytes))
  | .netId => none

end Ident

section Calls
variable {cfg : Config} {build : Build} {session : Session} {d : Lorawan.Device} {ident : Ident}
  {faults : CallFaults} {argument : List UInt8} {bytes : Bytes}

/-- The set function of a command. -/
def store (cfg : Config) (build : Build) (ident : Ident) (bytes : Bytes) (faults : CallFaults)
    (d : Lorawan.Device) : Except Err Unit × Lorawan.Device :=
  match ident.setter bytes with
  | some setter => d.set cfg build setter faults
  | none => setNetId cfg (netIdOf bytes) faults d

/-- A write hands the bytes of its text to the set function. -/
theorem handle_write (ident : Ident) (argument : List UInt8) (faults : CallFaults) (d : Lorawan.Device) :
    handle cfg build session ident .write argument faults d =
      match Send.hexToBin argument ident.size with
      | .error e => (.error e, d)
      | .ok bytes => replied (store cfg build ident bytes faults d) := by
  cases ident <;> rfl

theorem handle_write_ok (h : (handle cfg build session ident .write argument faults d).1 = .ok .ok) :
    ∃ bytes, Send.hexToBin argument ident.size = .ok bytes ∧
      (store cfg build ident bytes faults d).1 = .ok () ∧
      (handle cfg build session ident .write argument faults d).2 =
        (store cfg build ident bytes faults d).2 := by
  rw [handle_write] at h ⊢
  cases hbytes : Send.hexToBin argument ident.size with
  | error e =>
    rw [hbytes] at h
    cases h
  | ok bytes =>
    rw [hbytes] at h
    refine ⟨bytes, rfl, ?_, rfl⟩
    simp only [replied] at h
    cases hrc : (store cfg build ident bytes faults d).1 with
    | error e =>
      rw [hrc] at h
      cases h
    | ok u => rfl

variable (build) in
/-- The section of a setter of bytes. -/
theorem setter_section {setter : Setter} (hsetter : ident.setter bytes = some setter)
    (hlen : bytes.length = ident.size) :
    ∃ p, setter.section build = .ok p ∧ p.key = ident.key ∧ p.guarded = true ∧
      ∀ c, p.value c = ident.wire bytes := by
  cases ident with
  | netId => cases hsetter
  | devAddr =>
    cases hsetter
    exact ⟨_, rfl, rfl, rfl, fun _ => rfl⟩
  | _ =>
    cases hsetter
    simp only [Setter.section, Lorawan.bytesSection]
    exact ⟨_, if_neg (not_not.2 hlen), rfl, rfl, fun _ => rfl⟩

/-! ### Reading -/

/-- The reply to a read, from what the getter answers. -/
def keyAnswer (name : List UInt8) (size : Nat) : Except Err Bytes → Except Err Answer
  | .error e => if e = .noData then .ok (valueReply name (List.replicate size 0)) else .error e
  | .ok value => .ok (valueReply name value)

theorem handleKey_read (command : KeyCommand) (argument : List UInt8) (faults : CallFaults)
    (d : Lorawan.Device) :
    (handleKey command .read argument faults d).1 =
      keyAnswer command.responseName command.size (command.get command.size faults d).1 := by
  simp only [handleKey, if_true]
  rcases command.get command.size faults d with ⟨e | value, d'⟩
  · by_cases he : e = .noData <;> simp [keyAnswer, he]
  · rfl

theorem putBe32_zero : putBe32 0 = List.replicate 4 0 := by decide

theorem handleDevaddr_read (argument : List UInt8) (faults : CallFaults) (d : Lorawan.Device) :
    (handleDevaddr cfg build session .read argument faults d).1 =
      keyAnswer (ascii "AT+DEVADDR") 4 ((getDevAddr cfg session faults d).1.map putBe32) := by
  simp only [handleDevaddr, if_true]
  rcases getDevAddr cfg session faults d with ⟨e | value, d'⟩
  · by_cases he : e = .noData <;> simp [keyAnswer, he, putBe32_zero, Except.map]
  · rfl

/-- With working storage a getter that may ask the session answers from the stored fields. -/
theorem getSession_fields {α : Type} (src : CredentialStore → α) (valid : CredentialStore → Bool)
    (get : Option (Except Err α)) (zero : α) (hsrc : ∀ c, src { c with joinActive := false } = src c)
    (hvalid : ∀ c, valid { c with joinActive := false } = valid c) (d : Lorawan.Device) :
    (getSession cfg session src valid get zero .none d).1 = (d.fields cfg).bind fun c =>
      match c.njm with
      | .abp => if valid c then .ok (src c) else .error .noData
      | .otaa => readOtaa session get zero := by
  have hread : (getAbp cfg src valid .none d).1 = (d.fields cfg).bind fun c =>
      match c.njm with
      | .abp => if valid c then .ok (some (src c)) else .error .noData
      | .otaa => .ok none :=
    Lorawan.readLocked_fields (fun c => by rw [hsrc, hvalid]) d
  unfold getSession
  generalize getAbp cfg src valid .none d = x at hread
  obtain ⟨r, d'⟩ := x
  dsimp only at hread
  subst hread
  rcases d.fields cfg with e | c
  · rfl
  · simp only [Except.bind]
    rcases c.njm with - | -
    · rfl
    · by_cases hv : valid c = true <;> simp [hv]

theorem handleNetid_read (argument : List UInt8) (faults : CallFaults) (d : Lorawan.Device) :
    (handleNetid cfg session .read argument faults d).1 =
      match sessionNetId session with
      | some netId => .ok (valueReply (ascii "AT+NETID") (netIdBytes netId))
      | none => (configGetNetId cfg faults d).1.map fun netId =>
        valueReply (ascii "AT+NETID") (netIdBytes netId) := by
  simp only [handleNetid, if_true, getNetId]
  cases sessionNetId session with
  | some netId => rfl
  | none =>
    rcases configGetNetId cfg faults d with ⟨e | netId, d'⟩
    · rfl
    · rfl

theorem configGetNetId_clean (h : Lorawan.InSync cfg d) :
    (configGetNetId cfg .none d).1 = storedNetId (lookup cfg d.settings.store .netid) := by
  rw [← settingRead_clean h.coherent .netid]
  rfl

/-- What is printed for an identifier that is not read from the settings. -/
def fromSession (session : Session) (mode : Mode) : Ident → Option (Except Err Answer)
  | .devAddr => if mode = .abp then none else
      some (keyAnswer (ascii "AT+DEVADDR") 4 ((readOtaa session session.getDevAddr 0).map putBe32))
  | .nwkSkey => if mode = .abp then none else
      some (keyAnswer (ascii "AT+NWKSKEY") 16
        ((readOtaa session session.getNwkSkey (.replicate 16 0)).map (·.toList)))
  | .appSkey => if mode = .abp then none else
      some (keyAnswer (ascii "AT+APPSKEY") 16
        ((readOtaa session session.getAppSkey (.replicate 16 0)).map (·.toList)))
  | .netId => (sessionNetId session).map fun netId => .ok (valueReply (ascii "AT+NETID") (netIdBytes netId))
  | _ => none

/-- Every setting that the credential store loads can be read. -/
def Loadable (cfg : Config) (d : Lorawan.Device) : Prop :=
  ∀ k ∈ Lorawan.loadKeys, ∃ r, lookup cfg d.settings.store k = .ok r

theorem Loadable.fields (h : Lorawan.InSync cfg d) (hl : Loadable cfg d) :
    d.fields cfg = .ok (Lorawan.holding (Lorawan.valueOf (lookup cfg d.settings.store)) false) := by
  rw [Lorawan.fields_eq h, Lorawan.fieldsOf, Lorawan.firstError_eq_none.2 hl]
  rfl

theorem getBytes_fields {n : Nat} (src : CredentialStore → Vector UInt8 n)
    (valid : CredentialStore → Bool) (hsrc : ∀ c, src { c with joinActive := false } = src c)
    (hvalid : ∀ c, valid { c with joinActive := false } = valid c) (d : Lorawan.Device) :
    (d.getBytes cfg src valid (some n) .none).1 = (d.fields cfg).bind fun c =>
      if valid c then .ok (src c) else .error .noData := by
  unfold Lorawan.Device.getBytes
  rw [if_neg (not_not.2 rfl)]
  exact Lorawan.readLocked_fields (fun c => by rw [hsrc, hvalid]) d

/-- The reply of a command that prints the store. -/
theorem stored_key {n : Nat} {c : CredentialStore} {name : List UInt8}
    (src : CredentialStore → Vector UInt8 n) (valid : CredentialStore → Bool)
    (hsrc : ∀ c, src { c with joinActive := false } = src c)
    (hvalid : ∀ c, valid { c with joinActive := false } = valid c) (hfields : d.fields cfg = .ok c)
    (hc : (src c).toList = bytes) (hv : valid c = true) :
    keyAnswer name n ((d.getBytes cfg src valid (some n) .none).1.map (·.toList)) =
      .ok (valueReply name bytes) := by
  rw [getBytes_fields src valid hsrc hvalid, hfields]
  simp only [Except.bind, hv, if_true, Except.map, keyAnswer, hc]

/-- The reply of a command that prints the store in ABP mode and the session in OTAA mode. -/
theorem stored_session {α : Type} {c : CredentialStore} {name : List UInt8} {size : Nat}
    (toBytes : α → Bytes) (src : CredentialStore → α) (valid : CredentialStore → Bool)
    (get : Option (Except Err α)) (zero : α) (hsrc : ∀ c, src { c with joinActive := false } = src c)
    (hvalid : ∀ c, valid { c with joinActive := false } = valid c) (hfields : d.fields cfg = .ok c)
    (hc : toBytes (src c) = bytes) (hv : valid c = true) :
    keyAnswer name size ((getSession cfg session src valid get zero .none d).1.map toBytes) =
      (if c.njm = .abp then none
        else some (keyAnswer name size ((readOtaa session get zero).map toBytes))).getD
        (.ok (valueReply name bytes)) := by
  rw [getSession_fields src valid get zero hsrc hvalid, hfields]
  cases hmode : c.njm with
  | abp => simp [Except.bind, hmode, hv, Except.map, keyAnswer, hc]
  | otaa => simp [Except.bind, hmode]

/-- The activation that the store holds. -/
def activation (cfg : Config) (d : Lorawan.Device) : Mode :=
  match d.fields cfg with
  | .ok c => c.njm
  | .error _ => .otaa

/-- An identifier that is stored is printed, unless the session has its own. -/
theorem read_stored (hsync : Lorawan.InSync cfg d) (hload : ident ≠ .netId → Loadable cfg d)
    (hlen : bytes.length = ident.size)
    (hstored : lookup cfg d.settings.store ident.key = .ok (ident.wire bytes, true)) :
    (handle cfg build session ident .read argument .none d).1 =
      (fromSession session (activation cfg d) ident).getD (.ok (valueReply ident.name bytes)) := by
  have hfields (hne : ident ≠ .netId) := (hload hne).fields hsync
  have hmode (hne : ident ≠ .netId) : activation cfg d =
      (Lorawan.holding (Lorawan.valueOf (lookup cfg d.settings.store)) false).njm := by
    rw [activation, hfields hne]
  have hvalue : Lorawan.valueOf (lookup cfg d.settings.store) ident.key = (ident.wire bytes, true) := by
    rw [Lorawan.valueOf, hstored]
  have hkey {n : Nat} {k : Key} (hk : ident.key = k) (hn : ident.size = n) (hw : ident.wire bytes = bytes) :
      (Lorawan.fill n (Lorawan.valueOf (lookup cfg d.settings.store) k).1).toList = bytes ∧
        (Lorawan.valueOf (lookup cfg d.settings.store) k).2 = true := by
    rw [← hk, hvalue, hw]
    exact ⟨fill_toList (hlen.trans hn), rfl⟩
  cases ident with
  | devEui =>
    obtain ⟨hc, hv⟩ := hkey rfl rfl rfl
    exact (handleKey_read _ _ _ _).trans
      (stored_key (·.devEui) (·.devEuiSet) (fun _ => rfl) (fun _ => rfl) (hfields (by simp)) hc hv)
  | appEui =>
    obtain ⟨hc, hv⟩ := hkey rfl rfl rfl
    exact (handleKey_read _ _ _ _).trans
      (stored_key (·.appEui) (·.appEuiSet) (fun _ => rfl) (fun _ => rfl) (hfields (by simp)) hc hv)
  | appKey =>
    obtain ⟨hc, hv⟩ := hkey rfl rfl rfl
    exact (handleKey_read _ _ _ _).trans
      (stored_key (·.appKey) (·.appKeySet) (fun _ => rfl) (fun _ => rfl) (hfields (by simp)) hc hv)
  | nwkSkey =>
    obtain ⟨hc, hv⟩ := hkey rfl rfl rfl
    rw [hmode (by simp)]
    exact (handleKey_read _ _ _ _).trans (stored_session (·.toList) (·.nwkSkey) (·.nwkSkeySet)
      session.getNwkSkey _ (fun _ => rfl) (fun _ => rfl) (hfields (by simp)) hc hv)
  | appSkey =>
    obtain ⟨hc, hv⟩ := hkey rfl rfl rfl
    rw [hmode (by simp)]
    exact (handleKey_read _ _ _ _).trans (stored_session (·.toList) (·.appSkey) (·.appSkeySet)
      session.getAppSkey _ (fun _ => rfl) (fun _ => rfl) (hfields (by simp)) hc hv)
  | devAddr =>
    have hc : putBe32 (Lorawan.holding (Lorawan.valueOf (lookup cfg d.settings.store)) false).devAddr =
        bytes := by
      show putBe32 (UInt32.ofNat (getLe ((Lorawan.valueOf (lookup cfg d.settings.store)
        .devaddr).1.take 4))) = bytes
      rw [show Lorawan.valueOf (lookup cfg d.settings.store) .devaddr = _ from hvalue]
      simp only [Ident.wire, Lorawan.ofNat_getLe_putLe]
      exact putBe32_getBe32 hlen
    have hv : (Lorawan.valueOf (lookup cfg d.settings.store) .devaddr).2 = true := by
      rw [show Lorawan.valueOf (lookup cfg d.settings.store) .devaddr = _ from hvalue]
    rw [hmode (by simp)]
    exact (handleDevaddr_read _ _ _).trans (stored_session putBe32 (·.devAddr) (·.devAddrSet)
      session.getDevAddr _ (fun _ => rfl) (fun _ => rfl) (hfields (by simp)) hc hv)
  | netId =>
    have hget : (configGetNetId cfg .none d).1 = .ok (netIdOf bytes) := by
      rw [configGetNetId_clean hsync, show lookup cfg d.settings.store .netid = _ from hstored]
      simp only [storedNetId, Ident.wire, Lorawan.ofNat_getLe_putLe]
    refine (handleNetid_read _ _ _).trans ?_
    rw [hget]
    cases hs : sessionNetId session with
    | some netId => simp [fromSession, hs]
    | none => simp [fromSession, hs, Except.map, netIdBytes_netIdOf hlen, Ident.name]

/-! ### Writing -/

/-- A section writes no key but its own. -/
theorem write_same {p : Lorawan.Section} {j : Key} (h : Lorawan.InSync cfg d) (hp : p.InStep)
    (faults : CallFaults) (hj : j ≠ p.key) :
    lookup cfg (d.write cfg p faults).2.settings.store j = lookup cfg d.settings.store j := by
  have hload := Lorawan.ensureLoaded_spec h faults
  unfold Lorawan.Device.write
  generalize d.ensureLoaded cfg faults = x at hload ⊢
  obtain ⟨e | _, d'⟩ := x
  · exact hload.same j
  dsimp only
  split_ifs with hbusy
  · exact hload.same j
  have hwrite := settingWrite_keeps hload.held.coherent hp.own (p.value d'.credentials) faults.write
  generalize settingWrite cfg d'.settings p.key.name (p.value d'.credentials) faults.write = y at hwrite ⊢
  obtain ⟨e | _, s⟩ := y
  · exact (hwrite.same j hj).trans (hload.same j)
  · exact (hwrite.same j hj).trans (hload.same j)

/-- What the set function of a command does to what the store says. -/
structure Stores (cfg : Config) (ident : Ident) (bytes : Bytes) (d : Lorawan.Device)
    (x : Except Err Unit × Lorawan.Device) : Prop where
  inSync : Lorawan.InSync cfg x.2
  same : ∀ j, j ≠ ident.key → lookup cfg x.2.settings.store j = lookup cfg d.settings.store j
  failed : ∀ e, x.1 = .error e →
    ∀ j, lookup cfg x.2.settings.store j = lookup cfg d.settings.store j
  stored : x.1 = .ok () → lookup cfg x.2.settings.store ident.key = .ok (ident.wire bytes, true)
  loadable : x.1 = .ok () → ident ≠ .netId → Loadable cfg x.2

theorem netid_not_mem : Key.netid ∉ Lorawan.loadKeys := by decide

variable (build) in
theorem store_spec (h : Lorawan.InSync cfg d) (hlen : bytes.length = ident.size) (faults : CallFaults) :
    Stores cfg ident bytes d (store cfg build ident bytes faults d) := by
  unfold store
  cases hsetter : ident.setter bytes with
  | none =>
    obtain rfl : ident = .netId := by cases ident <;> first | rfl | cases hsetter
    have hwrite := settingWrite_keeps (k := .netid) h.coherent (by decide)
      (putLe 4 (netIdOf bytes).toNat) faults.write
    refine ⟨h.of_settings hwrite.coherent fun j hj => hwrite.same j ?_, hwrite.same, fun e he j => ?_,
      hwrite.stored, fun _ hne => absurd rfl hne⟩
    · rintro rfl
      exact netid_not_mem hj
    · show lookup cfg (settingWrite cfg d.settings Key.netid.name _ faults.write).2.store j = _
      rw [hwrite.failed e he]
  | some setter =>
    obtain ⟨p, hp, hkey, -, hvalue⟩ := setter_section build hsetter hlen
    have hset : d.set cfg build setter faults = d.write cfg p faults := by rw [Lorawan.Device.set, hp]
    have hwrote := Lorawan.write_spec h (Lorawan.section_inStep hp) faults
    simp only [hset]
    refine ⟨hwrote.inSync, fun j hj => ?_, hwrote.failed, fun hok => ?_, fun hok _ k hk => ?_⟩
    · exact write_same h (Lorawan.section_inStep hp) faults (by rw [hkey]; exact hj)
    · obtain ⟨f, -, hafter⟩ := hwrote.stored hok
      rw [← hkey, ← hvalue (Lorawan.holding f false)]
      refine (hafter p.key (Lorawan.section_inStep hp).mem).trans ?_
      rw [Function.update_self]
    · obtain ⟨f, -, hafter⟩ := hwrote.stored hok
      exact ⟨_, hafter k hk⟩

/-! ### Histories -/

/-- The call stores a value for the key. -/
def Writes (cfg : Config) (build : Build) (d : Lorawan.Device) (key : Key) : Lorawan.Call → Prop
  | .set setter faults => setter.field.key = key ∧ (d.set cfg build setter faults).1 = .ok ()
  | .config k value faults =>
    k.key = key ∧ (settingWrite cfg d.settings k.key.name value faults).1 = .ok ()
  | _ => False

/-- The call is no factory reset and stores nothing for the key. -/
def Spares (cfg : Config) (build : Build) (key : Key) (d : Lorawan.Device) (call : Lorawan.Call) : Prop :=
  (∀ faults, call ≠ .clear faults) ∧ ¬ Writes cfg build d key call

theorem Spares.noFailedClear {key : Key} {call : Lorawan.Call} (h : Spares cfg build key d call) :
    Lorawan.NoFailedClear d call := by
  cases call with
  | clear faults => exact absurd rfl (h.1 faults)
  | _ => trivial

/-- What the store says about a key changes with a call that stores it, and with a reset. -/
theorem lookup_next {key : Key} {call : Lorawan.Call} (h : Lorawan.InSync cfg d)
    (hspares : Spares cfg build key d call) :
    lookup cfg (d.next cfg build call).settings.store key = lookup cfg d.settings.store key := by
  obtain ⟨hclear, hwrites⟩ := hspares
  by_cases hquery : call.isQuery = true
  · exact (Lorawan.steady_query h hquery).2 key
  cases call with
  | set setter faults =>
    show lookup cfg (d.set cfg build setter faults).2.settings.store key = _
    simp only [Writes, not_and] at hwrites
    unfold Lorawan.Device.set at hwrites ⊢
    rcases hp : setter.section build with e | p
    · rfl
    simp only [hp] at hwrites ⊢
    have hstep := Lorawan.section_inStep hp
    by_cases hkey : setter.field.key = key
    · cases hrc : (d.write cfg p faults).1 with
      | error e => exact (Lorawan.write_spec h hstep faults).failed e hrc key
      | ok u => exact absurd hrc (hwrites hkey)
    · refine write_same h hstep faults fun heq => hkey ?_
      rw [heq, Lorawan.section_key hp]
  | config k value faults =>
    simp only [Writes, not_and] at hwrites
    have hown : k.key ∉ policyKeys := by cases k <;> decide
    have hwrite := settingWrite_keeps h.coherent hown value faults
    show lookup cfg (settingWrite cfg d.settings k.key.name value faults).2.store key = _
    by_cases hkey : k.key = key
    · cases hrc : (settingWrite cfg d.settings k.key.name value faults).1 with
      | error e => rw [hwrite.failed e hrc]
      | ok u => exact absurd hrc (hwrites hkey)
    · exact hwrite.same key fun heq => hkey heq.symm
  | clear faults => exact absurd rfl (hclear faults)
  | _ => exact absurd rfl hquery

/-- A store that can be loaded can be loaded after every call but a reset. -/
theorem loadable_next {call : Lorawan.Call} (h : Lorawan.InSync cfg d) (hl : Loadable cfg d)
    (hclear : ∀ faults, call ≠ .clear faults) : Loadable cfg (d.next cfg build call) := by
  intro k hk
  by_cases hw : Writes cfg build d k call
  · cases call with
    | set setter faults =>
      obtain ⟨rfl, hok⟩ := hw
      show ∃ r, lookup cfg (d.set cfg build setter faults).2.settings.store _ = .ok r
      unfold Lorawan.Device.set at hok ⊢
      rcases hp : setter.section build with e | p
      · rw [hp] at hok
        cases hok
      simp only [hp] at hok ⊢
      obtain ⟨f, -, hafter⟩ := (Lorawan.write_spec h (Lorawan.section_inStep hp) faults).stored hok
      exact ⟨_, hafter _ hk⟩
    | config key value faults =>
      obtain ⟨rfl, hok⟩ := hw
      have hown : key.key ∉ policyKeys := by cases key <;> decide
      exact ⟨_, (settingWrite_keeps h.coherent hown value faults).stored hok⟩
    | _ => cases hw
  · obtain ⟨r, hr⟩ := hl k hk
    exact ⟨r, (lookup_next h ⟨hclear, hw⟩).trans hr⟩

/-- An identifier that is stored, in a store that the command can read. -/
structure Kept (cfg : Config) (ident : Ident) (bytes : Bytes) (d : Lorawan.Device) : Prop where
  inSync : Lorawan.InSync cfg d
  loadable : ident ≠ .netId → Loadable cfg d
  stored : lookup cfg d.settings.store ident.key = .ok (ident.wire bytes, true)

theorem Kept.after {calls : List Lorawan.Call} (h : Kept cfg ident bytes d)
    (hcalls : Lts.Along (Lorawan.Device.next cfg build) (Spares cfg build ident.key) d calls) :
    Kept cfg ident bytes (d.after cfg build calls) := by
  induction calls generalizing d with
  | nil => exact h
  | cons call calls ih =>
    obtain ⟨hspares, hcalls⟩ := hcalls
    exact ih ⟨Lorawan.inSync_next h.inSync hspares.noFailedClear,
      fun hne => loadable_next h.inSync (h.loadable hne) hspares.1,
      (lookup_next h.inSync hspares).trans h.stored⟩ hcalls

theorem mcrootkey_stored (h : Kept cfg .appKey bytes d) (hlen : bytes.length = 16) :
    (handleMcrootkey cfg .none d).1 = .ok (valueReply (ascii "AT+MCROOTKEY") bytes) := by
  have hfields := (h.loadable (by simp)).fields h.inSync
  have hvalue : Lorawan.valueOf (lookup cfg d.settings.store) .appkey = (bytes, true) := by
    rw [Lorawan.valueOf, show lookup cfg d.settings.store .appkey = _ from h.stored]
    rfl
  have hget : (d.getAppKey cfg (some 16) .none).1 = .ok (Lorawan.fill 16 bytes) := by
    refine (getBytes_fields (·.appKey) (·.appKeySet) (fun _ => rfl) (fun _ => rfl) d).trans ?_
    rw [hfields]
    simp only [Except.bind, Lorawan.holding, Lorawan.candidate, hvalue, if_true]
  simp only [handleMcrootkey]
  generalize d.getAppKey cfg (some 16) .none = x at hget ⊢
  obtain ⟨r, d'⟩ := x
  dsimp only at hget
  subst hget
  simp only [fill_toList hlen]

/-! ### Acceptance -/

/-- The value of an identifier is valid. -/
theorem wire_valid (hlen : bytes.length = ident.size) :
    (ident.wire bytes).length = ident.key.size ∧ validValue ident.key (ident.wire bytes) = true := by
  cases ident with
  | devAddr => exact ⟨rfl, rfl⟩
  | netId =>
    refine ⟨rfl, ?_⟩
    have hlt : (netIdOf bytes).toNat < 256 ^ 4 := (netIdOf bytes).toNat_lt
    have hle := netIdOf_lt hlen
    show decide (getLe ((putLe 4 (netIdOf bytes).toNat).take 4) ≤ 0xffffff) = true
    rw [show (putLe 4 (netIdOf bytes).toNat).take 4 = putLe 4 (netIdOf bytes).toNat from rfl,
      getLe_putLe_of_lt hlt]
    exact decide_eq_true hle
  | _ => exact ⟨hlen, rfl⟩

/-- The state lets a command store its value: the credential store can be loaded and no join is active;
the NetID does not depend on it. -/
def Storable (cfg : Config) (ident : Ident) (d : Lorawan.Device) : Prop :=
  ident = .netId ∨ Loadable cfg d ∧ d.credentials.joinActive = false

theorem loadable_iff (h : Lorawan.InSync cfg d) :
    Loadable cfg d ↔ (d.ensureLoaded cfg .none).1 = .ok () := by
  have hfields := Lorawan.fields_eq h
  constructor
  · intro hl
    have hok := hl.fields h
    unfold Lorawan.Device.fields at hok
    rcases hx : d.ensureLoaded cfg .none with ⟨e | u, d'⟩
    · rw [hx] at hok
      cases hok
    · rfl
  · intro hok
    rw [Lorawan.Device.fields] at hfields
    rcases hx : d.ensureLoaded cfg .none with ⟨e | u, d'⟩
    · rw [hx] at hok
      cases hok
    · simp only [hx, Lorawan.fieldsOf] at hfields
      cases hfirst : Lorawan.firstError (lookup cfg d.settings.store) Lorawan.loadKeys with
      | some e =>
        rw [hfirst] at hfields
        cases hfields
      | none => exact Lorawan.firstError_eq_none.1 hfirst

variable (build) in
/-- With working storage the set function of a command succeeds exactly where the state lets it. -/
theorem store_clean_iff (h : Lorawan.InSync cfg d) (hlen : bytes.length = ident.size) :
    (store cfg build ident bytes .none d).1 = .ok () ↔ Storable cfg ident d := by
  obtain ⟨hsize, hvalid⟩ := wire_valid hlen
  unfold store
  cases hsetter : ident.setter bytes with
  | none =>
    obtain rfl : ident = .netId := by cases ident <;> first | rfl | cases hsetter
    exact ⟨fun _ => .inl rfl, fun _ => settingWrite_clean (k := .netid) d.settings hsize hvalid⟩
  | some setter =>
    have hne : ident ≠ .netId := by
      rintro rfl
      cases hsetter
    obtain ⟨p, hp, hkey, hguarded, hvalue⟩ := setter_section build hsetter hlen
    have hset : d.set cfg build setter .none = d.write cfg p .none := by rw [Lorawan.Device.set, hp]
    have hload := Lorawan.ensureLoaded_spec h .none
    rw [Storable, or_iff_right hne, loadable_iff h]
    simp only [hset, Lorawan.Device.write]
    rcases hx : d.ensureLoaded cfg .none with ⟨e | u, d'⟩
    · simp
    · have hjoin : d'.credentials.joinActive = d.credentials.joinActive := by
        have := hload.joinActive
        rwa [hx] at this
      simp only [hguarded, hjoin, Bool.true_and, true_and]
      cases hactive : d.credentials.joinActive with
      | true => simp
      | false =>
        have hwrite : (settingWrite cfg d'.settings p.key.name (p.value d'.credentials) []).1 = .ok () := by
          rw [hkey, hvalue]
          exact settingWrite_clean d'.settings hsize hvalid
        rcases hy : settingWrite cfg d'.settings p.key.name (p.value d'.credentials) [] with ⟨e | u, s⟩
        · rw [hy] at hwrite
          cases hwrite
        · simp only [CallFaults.none, Bool.false_eq_true, if_false, hy]

/-- What is printed is a function of what the store says. -/
theorem read_congr {d' : Lorawan.Device} (h : Lorawan.InSync cfg d) (h' : Lorawan.InSync cfg d')
    (hsame : ∀ j, lookup cfg d'.settings.store j = lookup cfg d.settings.store j) (ident : Ident) :
    (handle cfg build session ident .read argument .none d').1 =
      (handle cfg build session ident .read argument .none d).1 := by
  have hfields : d'.fields cfg = d.fields cfg := by
    rw [Lorawan.fields_eq h', Lorawan.fields_eq h, funext hsame]
  have hbytes {n : Nat} (src : CredentialStore → Vector UInt8 n) (valid : CredentialStore → Bool)
      (hsrc : ∀ c, src { c with joinActive := false } = src c)
      (hvalid : ∀ c, valid { c with joinActive := false } = valid c) :
      (d'.getBytes cfg src valid (some n) .none).1 = (d.getBytes cfg src valid (some n) .none).1 := by
    rw [getBytes_fields src valid hsrc hvalid, getBytes_fields src valid hsrc hvalid, hfields]
  have hsession {α : Type} (src : CredentialStore → α) (valid : CredentialStore → Bool)
      (get : Option (Except Err α)) (zero : α) (hsrc : ∀ c, src { c with joinActive := false } = src c)
      (hvalid : ∀ c, valid { c with joinActive := false } = valid c) :
      (getSession cfg session src valid get zero .none d').1 =
        (getSession cfg session src valid get zero .none d).1 := by
    rw [getSession_fields src valid get zero hsrc hvalid, getSession_fields src valid get zero hsrc hvalid,
      hfields]
  have hkey {command : KeyCommand} (hget : (command.get command.size .none d').1 =
      (command.get command.size .none d).1) : (handleKey command .read argument .none d').1 =
        (handleKey command .read argument .none d).1 := by
    rw [handleKey_read, handleKey_read, hget]
  cases ident with
  | devEui =>
    exact hkey <| congrArg (Except.map Vector.toList) <|
      hbytes (·.devEui) (·.devEuiSet) (fun _ => rfl) fun _ => rfl
  | appEui =>
    exact hkey <| congrArg (Except.map Vector.toList) <|
      hbytes (·.appEui) (·.appEuiSet) (fun _ => rfl) fun _ => rfl
  | appKey =>
    exact hkey <| congrArg (Except.map Vector.toList) <|
      hbytes (·.appKey) (·.appKeySet) (fun _ => rfl) fun _ => rfl
  | nwkSkey =>
    exact hkey <| congrArg (Except.map Vector.toList) <|
      hsession (·.nwkSkey) (·.nwkSkeySet) _ _ (fun _ => rfl) fun _ => rfl
  | appSkey =>
    exact hkey <| congrArg (Except.map Vector.toList) <|
      hsession (·.appSkey) (·.appSkeySet) _ _ (fun _ => rfl) fun _ => rfl
  | devAddr =>
    have hget : (getDevAddr cfg session .none d').1 = (getDevAddr cfg session .none d).1 :=
      hsession (·.devAddr) (·.devAddrSet) _ _ (fun _ => rfl) fun _ => rfl
    exact (handleDevaddr_read _ _ _).trans (by rw [hget, ← handleDevaddr_read]; rfl)
  | netId =>
    have hget : (configGetNetId cfg .none d').1 = (configGetNetId cfg .none d).1 := by
      rw [configGetNetId_clean h, configGetNetId_clean h', hsame]
    exact (handleNetid_read _ _ _).trans (by rw [hget, ← handleNetid_read]; rfl)

end Calls

/-- **What AT wrote is what AT prints.** In every state reached from any store contents without a failed
reset, an identifier that was accepted is printed in upper case after any further calls, failing ones
and reboots among them, that neither reset the device nor store another value for it, unless the session
has an identifier of its own; the application key is also the multicast root key. -/
theorem identifier_printed (cfg : Config) (build : Build) (session : Session) (σ : Store)
    (before after : List Lorawan.Call)
    (hbefore : Lts.Along (Lorawan.Device.next cfg build) Lorawan.NoFailedClear (.boot σ) before)
    (ident : Ident) (argument : List UInt8) (faults : CallFaults) :
    let x := handle cfg build session ident .write argument faults
      (Lorawan.Device.after cfg build (.boot σ) before)
    x.1 = .ok .ok → Lts.Along (Lorawan.Device.next cfg build) (Spares cfg build ident.key) x.2 after →
    (handle cfg build session ident .read [] .none (x.2.after cfg build after)).1 =
        (fromSession session (activation cfg (x.2.after cfg build after)) ident).getD
          (.ok (.value (ident.name ++ ascii "=" ++ argument.map upper))) ∧
      (ident = .appKey → (handleMcrootkey cfg .none (x.2.after cfg build after)).1 =
        .ok (.value (ascii "AT+MCROOTKEY=" ++ argument.map upper))) := by
  intro x hok hafter
  have hsync : Lorawan.InSync cfg (Lorawan.Device.after cfg build (.boot σ) before) :=
    Lorawan.inSync_after (Lorawan.inSync_boot cfg σ) hbefore
  obtain ⟨bytes, hbytes, hstore, hx⟩ := handle_write_ok hok
  obtain ⟨hlen, htext⟩ := Hex.binToHex_of_hexToBin hbytes
  have hspec := store_spec build hsync hlen faults
  have hkept : Kept cfg ident bytes x.2 := by
    rw [show x.2 = _ from hx]
    exact ⟨hspec.inSync, hspec.loadable hstore, hspec.stored hstore⟩
  have hkept' := hkept.after hafter
  rw [← htext]
  refine ⟨read_stored hkept'.inSync hkept'.loadable hlen hkept'.stored, ?_⟩
  rintro rfl
  exact mcrootkey_stored hkept' hlen

/-- A device on its way: not joined, and the backend has no session to ask. -/
def notJoined : Session := ⟨true, .ok false, none, none, none, none⟩

def usBuild : Build := ⟨true, true, true, .us915⟩

/-- A DevEUI is accepted; the next one fails in storage, and the device reboots. -/
theorem identifier_printed_deveui :
    (handle defaultConfig usBuild notJoined .devEui .read [] .none
      (((handle defaultConfig usBuild notJoined .devEui .write
        (ascii "a1B2c3d4e5f60718") .none (Lorawan.Device.after defaultConfig usBuild
          (.boot fun _ => []) [.load .none])).2).after defaultConfig usBuild
        [.set (.devEui (some [1, 2, 3, 4, 5, 6, 7, 8])) ⟨fun _ => [], [some ioFault]⟩,
          .reboot])).1 = .ok (.value (ascii "AT+DEVEUI=A1B2C3D4E5F60718")) := by
  have hprinted := (identifier_printed defaultConfig usBuild notJoined
    (fun _ => []) [.load .none]
    [.set (.devEui (some [1, 2, 3, 4, 5, 6, 7, 8])) ⟨fun _ => [], [some ioFault]⟩, .reboot]
    ⟨trivial, trivial⟩ .devEui (ascii "a1B2c3d4e5f60718") .none rfl ?_).1
  · exact hprinted
  · refine ⟨⟨fun _ h => (by cases h), fun h => ?_⟩, ⟨fun _ h => (by cases h), fun h => h⟩, trivial⟩
    cases h.2

/-- **Which texts AT takes.** In every state reached from any store contents without a failed reset: with
working storage an identifier is accepted exactly if its text has two hexadecimal digits for each byte
and the state lets it be stored; and whatever the storage does, a refused text changes nothing that is
printed and nothing that a join is configured with. -/
theorem identifier_accepted_iff (cfg : Config) (build : Build) (session : Session) (σ : Store)
    (before : List Lorawan.Call)
    (hbefore : Lts.Along (Lorawan.Device.next cfg build) Lorawan.NoFailedClear (.boot σ) before)
    (ident : Ident) (argument : List UInt8) :
    let d := Lorawan.Device.after cfg build (.boot σ) before
    ((handle cfg build session ident .write argument .none d).1 = .ok .ok ↔
      (argument.length = 2 * ident.size ∧ ∀ c ∈ argument, Strtol.isDigit 16 c = true) ∧
        Storable cfg ident d) ∧
    ∀ faults, let x := handle cfg build session ident .write argument faults d
      x.1 ≠ .ok .ok →
        (∀ other, (handle cfg build session other .read [] .none x.2).1 =
          (handle cfg build session other .read [] .none d).1) ∧
        ∀ build', (x.2.buildConfig cfg build' .none).1 = (d.buildConfig cfg build' .none).1 := by
  intro d
  have hsync : Lorawan.InSync cfg d := Lorawan.inSync_after (Lorawan.inSync_boot cfg σ) hbefore
  refine ⟨?_, fun faults => ?_⟩
  · rw [← Hex.sendHexToBin_succeeds_iff, handle_write]
    cases hbytes : Send.hexToBin argument ident.size with
    | error e => simp
    | ok bytes =>
      have hlen := (Hex.binToHex_of_hexToBin hbytes).1
      rw [← store_clean_iff build hsync hlen]
      cases hstore : (store cfg build ident bytes .none d).1 <;> simp [replied, hstore, Except.map]
  · intro x hx
    suffices hsame : Lorawan.InSync cfg x.2 ∧
        ∀ j, lookup cfg x.2.settings.store j = lookup cfg d.settings.store j by
      refine ⟨fun other => read_congr hsync hsame.1 hsame.2 other, fun build' => ?_⟩
      rw [Lorawan.Device.buildConfig, Lorawan.Device.buildConfig, Lorawan.readLocked_fields fun _ => rfl,
        Lorawan.readLocked_fields fun _ => rfl, Lorawan.fields_eq hsync, Lorawan.fields_eq hsame.1,
        funext hsame.2]
    have hx' : handle cfg build session ident .write argument faults d = x := rfl
    rw [handle_write] at hx'
    cases hbytes : Send.hexToBin argument ident.size with
    | error e =>
      rw [hbytes] at hx'
      rw [← hx']
      exact ⟨hsync, fun _ => rfl⟩
    | ok bytes =>
      rw [hbytes] at hx'
      have hspec := store_spec build hsync (Hex.binToHex_of_hexToBin hbytes).1 faults
      rw [← hx'] at hx ⊢
      refine ⟨hspec.inSync, ?_⟩
      cases hstore : (store cfg build ident bytes faults d).1 with
      | error e => exact hspec.failed e hstore
      | ok u =>
        refine absurd ?_ hx
        simp [replied, hstore, Except.map]

/-- The NetID is taken while a join is active. -/
theorem identifier_accepted_netid :
    (handle defaultConfig usBuild notJoined .netId .write (ascii "00000a")
      .none (Lorawan.Device.after defaultConfig usBuild (.boot fun _ => [])
        [.setJoinActive true])).1 = .ok .ok := by
  refine (identifier_accepted_iff defaultConfig usBuild notJoined
    (fun _ => []) [.setJoinActive true] ⟨trivial, trivial⟩ .netId (ascii "00000a")).1.2
    ⟨⟨rfl, List.all_eq_true.1 ?_⟩, .inl rfl⟩
  decide

end Rzi.At.Identifiers
