import Rzi.Storage

/-!
# The settings schema, cache and persistence (`src/lorawan/lorawan_settings.c`)

The build with `CONFIG_RZI_STORAGE`. Every entry point holds `schema_lock` for its whole body, so a
call is one step; `Sys` is the store together with the cache part of the `settings` table. A byte
array is the list of its `size` bytes, multi-byte values are little-endian as on the targets.
-/

namespace Rzi.Settings
open Storage LittleEndian

inductive ValueKind where
  | bytes | boolean | retries | region | activation | netId | channelMask | interval | joinPolicy
deriving DecidableEq, Repr

inductive Key where
  | deveui | joineui | appkey | genappkey | devaddr | nwkskey | appskey | njm | chmask | region
  | cfm | rety | netid | joinPolicy | autojoin | joinInterval | joinAttempts | band
deriving DecidableEq, Repr

structure Row where
  key : String
  size : Nat
  kind : ValueKind
  defaultFirst : UInt8

def channelMaskWords : Nat := 6

def joinIntervalMin : UInt8 := 7

def joinIntervalDefault : UInt8 := 8

def joinPolicyVersion : UInt16 := 1

/-- `enum rzi_lorawan_region`, as the stored byte. -/
inductive Region where
  | eu868 | us915 | au915 | cn470 | as923Grp1 | as923Grp2 | as923Grp3 | as923Grp4 | in865 | kr920
  | ru864
deriving DecidableEq, Repr

def Region.byte : Region → UInt8
  | .eu868 => 0
  | .us915 => 1
  | .au915 => 2
  | .cn470 => 3
  | .as923Grp1 => 4
  | .as923Grp2 => 5
  | .as923Grp3 => 6
  | .as923Grp4 => 7
  | .in865 => 8
  | .kr920 => 9
  | .ru864 => 10

def Key.row : Key → Row
  | .deveui => ⟨"deveui", 8, .bytes, 0⟩
  | .joineui => ⟨"joineui", 8, .bytes, 0⟩
  | .appkey => ⟨"appkey", 16, .bytes, 0⟩
  | .genappkey => ⟨"genappkey", 16, .bytes, 0⟩
  | .devaddr => ⟨"devaddr", 4, .bytes, 0⟩
  | .nwkskey => ⟨"nwkskey", 16, .bytes, 0⟩
  | .appskey => ⟨"appskey", 16, .bytes, 0⟩
  | .njm => ⟨"njm", 1, .activation, 1⟩
  | .chmask => ⟨"chmask", channelMaskWords * 2, .channelMask, 0⟩
  | .region => ⟨"region", 1, .region, Region.eu868.byte⟩
  | .cfm => ⟨"cfm", 1, .boolean, 0⟩
  | .rety => ⟨"rety", 1, .retries, 0⟩
  | .netid => ⟨"netid", 4, .netId, 0⟩
  | .joinPolicy => ⟨"join_policy", 3, .joinPolicy, 0⟩
  | .autojoin => ⟨"autojoin", 1, .boolean, 0⟩
  | .joinInterval => ⟨"join_interval", 1, .interval, joinIntervalDefault⟩
  | .joinAttempts => ⟨"join_attempts", 1, .bytes, 0⟩
  | .band => ⟨"band", 1, .bytes, 0⟩

def Key.name (k : Key) : String := k.row.key
def Key.size (k : Key) : Nat := k.row.size
def Key.kind (k : Key) : ValueKind := k.row.kind

/-- The table in its order, which is also the order of the factory reset. -/
def settings : List Key :=
  [.deveui, .joineui, .appkey, .genappkey, .devaddr, .nwkskey, .appskey, .njm, .chmask, .region,
    .cfm, .rety, .netid, .joinPolicy, .autojoin, .joinInterval, .joinAttempts, .band]

def findSetting (key : String) : Option Key :=
  settings.find? fun k => k.name == key

/-- No bit of a channel from 72 on is set. -/
def channelsBelow72 (value : Bytes) : Bool :=
  (List.range' 72 (channelMaskWords * 16 - 72)).all fun channel =>
    !(getLe ((value.drop (2 * (channel / 16))).take 2)).testBit (channel % 16)

def validValue (k : Key) (value : Bytes) : Bool :=
  match k.kind with
  | .boolean | .activation => value.getD 0 0 ≤ 1
  | .retries => value.getD 0 0 ≤ 7
  | .region => value.getD 0 0 ≤ Region.ru864.byte
  | .interval => joinIntervalMin ≤ value.getD 0 0
  | .netId => getLe (value.take 4) ≤ 0xffffff
  | .channelMask => channelsBelow72 value
  | .joinPolicy => value.getD 0 0 ≤ 1 && joinIntervalMin ≤ value.getD 1 0
  | .bytes => true

def defaultValue (k : Key) : Bytes :=
  let value := (List.replicate k.size 0).set 0 k.row.defaultFirst
  if k.kind = .joinPolicy then value.set 1 joinIntervalDefault else value

def nsLorawan : String := "lorawan"

def nsRzi : String := "rzi"

variable (cfg : Config)

def saveValue (k : Key) (value : Bytes) : StateM Dev (Except Err Unit) :=
  if k.kind = .joinPolicy then writeRecord cfg nsLorawan k.name joinPolicyVersion value
  else write nsLorawan k.name value

/-- What `read_legacy` makes of the last read. -/
def legacyResult (k : Key) : Except Err Bytes → Except Err (Bytes × Bool)
  | .error .notFound => .ok (defaultValue k, false)
  | .error e => .error e
  | .ok value => if validValue k value then .ok (value, true) else .error .badMessage

def readLegacy (k : Key) : StateM Dev (Except Err (Bytes × Bool)) := do
  let rc ← read nsLorawan k.name k.size
  let rc ← if rc = .error .notFound then read nsRzi k.name k.size else pure rc
  pure (legacyResult k rc)

/-- RUI3 band numbers; the first row stands for band 0, which is rejected. -/
def bands : List Region :=
  [.eu868, .cn470, .ru864, .in865, .eu868, .us915, .au915, .kr920, .as923Grp1, .as923Grp2,
    .as923Grp3, .as923Grp4]

/-- The region byte of a band number, for the bands that have one. -/
def bandRegion (band : UInt8) : Option UInt8 :=
  if band = 0 then none else (bands[band.toNat]?).map Region.byte

def migrateRegion (value : Bytes) : StateM Dev (Except Err (Bytes × Bool)) := do
  match ← read nsRzi Key.band.name 1 with
  | .error .notFound => pure (.ok (value, false))
  | .error e => pure (.error e)
  | .ok band =>
    match bandRegion (band.getD 0 0) with
    | none => pure (.error .badMessage)
    | some r => pure (.ok (value.set 0 r, true))

/-- The individual keys the join policy replaces, in the order of its bytes. -/
def policyKeys : List Key := [.autojoin, .joinInterval, .joinAttempts]

/-- The loop over the individual policy keys: one byte each, found if one of them is. -/
def readPolicyKeys : List Key → StateM Dev (Except Err (Bytes × Bool))
  | [] => pure (.ok ([], false))
  | k :: ks => do
    match ← readLegacy k with
    | .error e => pure (.error e)
    | .ok (v, present) =>
      match ← readPolicyKeys ks with
      | .error e => pure (.error e)
      | .ok (vs, found) => pure (.ok (v ++ vs, present || found))

/-- The last step of `load_value`: a migrated value is saved under the new key. -/
def finishLoad (k : Key) (r : Bytes × Bool) : StateM Dev (Except Err (Bytes × Bool)) := do
  if r.2 then
    match ← saveValue cfg k r.1 with
    | .error e => pure (.error e)
    | .ok () => pure (.ok r)
  else pure (.ok r)

/-- The checks of `load_value` on a record it read. -/
def checkPolicy (k : Key) (version : UInt16) (value : Bytes) : Except Err (Bytes × Bool) :=
  if version ≠ joinPolicyVersion then .error .notSupported
  else if value.length ≠ k.size || !validValue k value then .error .badMessage
  else .ok (value, true)

/-- The branch of `load_value` for the join policy record. -/
def loadPolicy (k : Key) : StateM Dev (Except Err (Bytes × Bool)) := do
  match ← readRecord cfg nsLorawan k.name k.size with
  | .ok (version, value) => pure (checkPolicy k version value)
  | .error .notFound =>
    match ← readPolicyKeys policyKeys with
    | .error e => pure (.error e)
    | .ok r => finishLoad cfg k r
  | .error e => pure (.error e)

/-- The branch of `load_value` for the other keys. -/
def loadPlain (k : Key) : StateM Dev (Except Err (Bytes × Bool)) := do
  match ← read nsLorawan k.name k.size with
  | .ok value => pure (if validValue k value then .ok (value, true) else .error .badMessage)
  | .error .notFound =>
    match ← readLegacy k with
    | .error e => pure (.error e)
    | .ok (value, found) =>
      if !found && k.kind = .region then
        match ← migrateRegion value with
        | .error e => pure (.error e)
        | .ok r => finishLoad cfg k r
      else finishLoad cfg k (value, found)
  | .error e => pure (.error e)

def loadValue (k : Key) : StateM Dev (Except Err (Bytes × Bool)) :=
  if k.kind = .joinPolicy then loadPolicy cfg k else loadPlain cfg k

structure Entry where
  loaded : Bool
  present : Bool
  value : Bytes
deriving DecidableEq, Repr

/-- A row as the program starts with it, and as `rzi_lorawan_settings_clear` leaves it. -/
def Entry.empty : Entry := ⟨false, false, []⟩

structure Sys where
  store : Store
  cache : Key → Entry

def settingRead (s : Sys) (key : String) (size : Nat) (faults : List (Option Fault)) :
    Except Err (Bytes × Bool) × Sys :=
  match findSetting key with
  | none => (.error .invalid, s)
  | some k =>
    if size ≠ k.size then (.error .invalid, s)
    else if (s.cache k).loaded then (.ok ((s.cache k).value, (s.cache k).present), s)
    else
      match loadValue cfg k ⟨s.store, faults⟩ with
      | (.error e, d) => (.error e, { s with store := d.store })
      | (.ok (value, present), d) =>
        (.ok (value, present), ⟨d.store, Function.update s.cache k ⟨true, present, value⟩⟩)

def settingWrite (s : Sys) (key : String) (value : Bytes) (faults : List (Option Fault)) :
    Except Err Unit × Sys :=
  match findSetting key with
  | none => (.error .invalid, s)
  | some k =>
    if value.length ≠ k.size || !validValue k value then (.error .invalid, s)
    else if !(s.cache k).loaded || !(s.cache k).present || (s.cache k).value != value then
      match saveValue cfg k value ⟨s.store, faults⟩ with
      | (.error e, d) => (.error e, { s with store := d.store })
      | (.ok (), d) => (.ok (), ⟨d.store, Function.update s.cache k ⟨true, true, value⟩⟩)
    else (.ok (), { s with cache := Function.update s.cache k ⟨true, true, value⟩ })

/-- The names the reset walks: the whole new namespace, then the whole old one. -/
def manifest : List (String × Key) :=
  settings.map (Prod.mk nsLorawan) ++ settings.map (Prod.mk nsRzi)

def keepError (rc one : Except Err Unit) : Except Err Unit :=
  match one with
  | .error e => if e ≠ .notFound ∧ rc = .ok () then .error e else rc
  | .ok () => rc

def deleteAll : List (String × Key) → Except Err Unit → Dev → Except Err Unit × Dev
  | [], rc, d => (rc, d)
  | (ns, k) :: rest, rc, d =>
    deleteAll rest (keepError rc (delete ns k.name d).1) (delete ns k.name d).2

def settingsClear (s : Sys) (faults : List (Option Fault)) : Except Err Unit × Sys :=
  match deleteAll manifest (.ok ()) ⟨s.store, faults⟩ with
  | (.error e, d) => (.error e, { s with store := d.store })
  | (.ok (), d) => (.ok (), ⟨d.store, fun _ => Entry.empty⟩)

def reboot (s : Sys) : Sys := ⟨s.store, fun _ => Entry.empty⟩

inductive Op where
  | read (key : String) (size : Nat) (faults : List (Option Fault))
  | write (key : String) (value : Bytes) (faults : List (Option Fault))
  | clear (faults : List (Option Fault))
  | reboot

def next (s : Sys) : Op → Sys
  | .read key size faults => (settingRead cfg s key size faults).2
  | .write key value faults => (settingWrite cfg s key value faults).2
  | .clear faults => (settingsClear s faults).2
  | .reboot => Settings.reboot s

def after (s : Sys) (ops : List Op) : Sys := ops.foldl (next cfg) s

end Rzi.Settings
