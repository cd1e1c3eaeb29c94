import Mathlib.Logic.Function.Iterate
import Rzi.Err
import Rzi.Lib.LittleEndian

/-!
# The storage service (`src/storage/storage_settings.c`)

`Storage.Store` is what the Zephyr settings backend holds: a value for every settings name, empty
when the name is not stored. A save or a delete of one name is atomic and durable. Each operation
that reaches the backend may fail there with any error but NOT_FOUND; it then leaves the store as it
is. Which operations fail is the `faults` list, one entry per operation in the order they are made.

All entry points here run in thread context and get no null pointer; the calls with these checks are in
`Rzi.StorageRecord`.
-/

namespace Rzi

abbrev Bytes := List UInt8

namespace Storage
open LittleEndian

abbrev Store := String → Bytes

/-- A backend failure. The backend reports NOT_FOUND only for a name that is not stored. -/
abbrev Fault := { e : Err // e ≠ .notFound }

structure Dev where
  store : Store
  faults : List (Option Fault)

/-- `CONFIG_RZI_STORAGE_RECORD_MAX_SIZE` with its Kconfig range. -/
structure Config where
  recordMax : Nat
  le_recordMax : 16 ≤ recordMax
  recordMax_le : recordMax ≤ 2048

/-- One operation on the backend: the next fault, if there is one, replaces it. -/
def onBackend {β : Type} (f : Store → Except Err β × Store) : StateM Dev (Except Err β) := fun d =>
  match d.faults with
  | some e :: rest => (.error e.1, ⟨d.store, rest⟩)
  | none :: rest => ((f d.store).1, ⟨(f d.store).2, rest⟩)
  | [] => ((f d.store).1, ⟨(f d.store).2, []⟩)

/-- `strstr(component, "//") != NULL` -/
def hasDoubleSlash : List Char → Bool
  | '/' :: '/' :: _ => true
  | _ :: cs => hasDoubleSlash cs
  | [] => false

def validComponent (component : String) : Bool :=
  let cs := component.toList
  !cs.isEmpty && cs.head? != some '/' && cs.getLast? != some '/' && !hasDoubleSlash cs

def nameMax : Nat := 64

def buildName (ns key : String) : Except Err String :=
  if !validComponent ns || !validComponent key then .error .invalid
  else if nameMax ≤ (ns ++ "/" ++ key).utf8ByteSize then .error .tooLarge
  else .ok (ns ++ "/" ++ key)

def read (ns key : String) (size : Nat) : StateM Dev (Except Err Bytes) :=
  if size = 0 then pure (.error .invalid)
  else match buildName ns key with
    | .error e => pure (.error e)
    | .ok name => onBackend fun s =>
      (if s name = [] then .error .notFound
        else if (s name).length = size then .ok (s name)
        else .error .tooLarge, s)

def write (ns key : String) (value : Bytes) : StateM Dev (Except Err Unit) :=
  if value = [] then pure (.error .invalid)
  else match buildName ns key with
    | .error e => pure (.error e)
    | .ok name => onBackend fun s => (.ok (), Function.update s name value)

def delete (ns key : String) : StateM Dev (Except Err Unit) :=
  match buildName ns key with
  | .error e => pure (.error e)
  | .ok name => onBackend fun s =>
    if s name = [] then (.error .notFound, s) else (.ok (), Function.update s name [])

/-! ### Versioned records -/

def recordHeaderSize : Nat := 12

def recordMagic : Nat := 0x31525a52

/-- One byte of the reflected CRC-32 with polynomial `0xedb88320`. -/
def crcByte (crc : UInt32) (b : UInt8) : UInt32 :=
  (fun c : UInt32 => if c &&& 1 = 1 then (c >>> 1) ^^^ 0xedb88320 else c >>> 1)^[8] (crc ^^^ b.toUInt32)

/-- `crc32_ieee_update`: the initial and final inversions are part of every call. -/
def crc32IeeeUpdate (crc : UInt32) (data : Bytes) : UInt32 :=
  ~~~ data.foldl crcByte (~~~ crc)

def crc32Ieee (data : Bytes) : UInt32 := crc32IeeeUpdate 0 data

/-- `record_crc`: the first eight header bytes, then the payload. -/
def recordCrc (header payload : Bytes) : UInt32 :=
  crc32IeeeUpdate (crc32Ieee (header.take 8)) payload

def recordHead (version : UInt16) (payload : Bytes) : Bytes :=
  putLe 4 recordMagic ++ putLe 2 version.toNat ++ putLe 2 payload.length

def encodeRecord (version : UInt16) (payload : Bytes) : Bytes :=
  recordHead version payload ++
    putLe 4 (recordCrc (recordHead version payload) payload).toNat ++ payload

def writeRecord (cfg : Config) (ns key : String) (version : UInt16) (value : Bytes) :
    StateM Dev (Except Err Unit) :=
  if version = 0 ∨ value = [] then pure (.error .invalid)
  else if cfg.recordMax < value.length then pure (.error .tooLarge)
  else write ns key (encodeRecord version value)

/-- The checks `rzi_storage_read_record` makes on the bytes it read. -/
def decodeRecord (capacity : Nat) (record : Bytes) : Except Err (UInt16 × Bytes) :=
  let payload := record.drop recordHeaderSize
  let version := getLe ((record.drop 4).take 2)
  if record.length ≤ recordHeaderSize ∨ getLe (record.take 4) ≠ recordMagic ∨ version = 0 then
    .error .badMessage
  else if getLe ((record.drop 6).take 2) ≠ payload.length ∨
      getLe ((record.drop 8).take 4) ≠ (recordCrc record payload).toNat then
    .error .badMessage
  else if capacity < payload.length then .error .tooLarge
  else .ok (UInt16.ofNat version, payload)

def readRecord (cfg : Config) (ns key : String) (capacity : Nat) :
    StateM Dev (Except Err (UInt16 × Bytes)) :=
  if capacity = 0 then pure (.error .invalid)
  else match buildName ns key with
    | .error e => pure (.error e)
    | .ok name => onBackend fun s =>
      (if recordHeaderSize + cfg.recordMax < (s name).length then .error .tooLarge
        else if s name = [] then .error .notFound
        else decodeRecord capacity (s name), s)

/-! ### What the operations do -/

theorem bind_apply {β γ : Type} (x : StateM Dev β) (f : β → StateM Dev γ) (d : Dev) :
    (x >>= f) d = f (x d).1 (x d).2 := rfl

theorem pure_apply {β : Type} (b : β) (d : Dev) : (pure b : StateM Dev β) d = (b, d) := rfl

section Specs
variable {β : Type} {ns key name : String} {d d' : Dev}

/-- A backend operation either meets a fault and leaves the store, or takes place. -/
theorem onBackend_cases (f : Store → Except Err β × Store) (d : Dev) :
    ((∃ e : Fault, (onBackend f d).1 = .error e.1) ∧ (onBackend f d).2.store = d.store ∧
        (d.faults.headD none).isSome) ∨
      ((onBackend f d).1 = (f d.store).1 ∧ (onBackend f d).2.store = (f d.store).2 ∧
        d.faults.headD none = none) := by
  unfold onBackend
  split
  next e rest he => exact .inl ⟨⟨e, rfl⟩, rfl, by simp [he]⟩
  next rest he => exact .inr ⟨rfl, rfl, by simp [he]⟩
  next he => exact .inr ⟨rfl, rfl, by simp [he]⟩

theorem onBackend_faults (f : Store → Except Err β × Store) (d : Dev) :
    (onBackend f d).2.faults = d.faults.tail := by
  unfold onBackend
  split <;> simp_all

/-- What a read of a stored name's bytes can answer. -/
inductive ReadOutcome (value : Bytes) (size : Nat) : Except Err Bytes → Prop
  | failed (e : Err) (he : e ≠ .notFound) : ReadOutcome value size (.error e)
  | absent (h : value = []) : ReadOutcome value size (.error .notFound)
  | found (h : value ≠ []) (hs : value.length = size) : ReadOutcome value size (.ok value)

theorem read_store (hn : buildName ns key = .ok name) (size : Nat) (d : Dev) :
    (read ns key size d).2.store = d.store := by
  unfold read
  split
  · rfl
  · simp only [hn]
    rcases onBackend_cases _ d with ⟨-, h, -⟩ | ⟨-, h, -⟩ <;> exact h

theorem read_outcome (hn : buildName ns key = .ok name) (size : Nat) (d : Dev) :
    ReadOutcome (d.store name) size (read ns key size d).1 := by
  unfold read
  split
  · exact .failed _ (by decide)
  simp only [hn]
  rcases onBackend_cases (β := Bytes) _ d with ⟨⟨e, h⟩, -⟩ | ⟨h, -⟩ <;> rw [h]
  · exact .failed _ e.2
  · dsimp only
    split_ifs with h1 h2
    · exact .absent h1
    · exact .found h1 h2
    · exact .failed _ (by decide)

theorem read_spec (hn : buildName ns key = .ok name) (size : Nat) (d : Dev) :
    ∃ rc d', read ns key size d = (rc, d') ∧ d'.store = d.store ∧ ReadOutcome (d.store name) size rc :=
  ⟨_, _, rfl, read_store hn size d, read_outcome hn size d⟩

theorem write_outcome (hn : buildName ns key = .ok name) (value : Bytes) (d : Dev) :
    ((write ns key value d).1 = .ok () ∧ value ≠ [] ∧
        (write ns key value d).2.store = Function.update d.store name value) ∨
      (∃ e, (write ns key value d).1 = .error e) ∧ (write ns key value d).2.store = d.store := by
  unfold write
  split
  · exact .inr ⟨⟨_, rfl⟩, rfl⟩
  next hv =>
    simp only [hn]
    rcases onBackend_cases (β := Unit) _ d with ⟨⟨e, h⟩, hs, -⟩ | ⟨h, hs, -⟩
    · exact .inr ⟨⟨_, h⟩, hs⟩
    · exact .inl ⟨h, hv, hs⟩

theorem delete_outcome (hn : buildName ns key = .ok name) (d : Dev) :
    (∃ e : Fault, (delete ns key d).1 = .error e.1) ∧ (delete ns key d).2.store = d.store ∧
        (d.faults.headD none).isSome ∨
      ((delete ns key d).1 = .ok () ∨ (delete ns key d).1 = .error .notFound) ∧
        (delete ns key d).2.store = Function.update d.store name [] ∧
        d.faults.headD none = none := by
  unfold delete
  simp only [hn]
  rcases onBackend_cases (β := Unit) _ d with ⟨⟨e, h⟩, hs, hf⟩ | ⟨h, hs, hf⟩
  · exact .inl ⟨⟨e, h⟩, hs, hf⟩
  · refine .inr ⟨?_, ?_, hf⟩ <;> simp only [h, hs]
    · split <;> simp
    · split
      next he => rw [← he, Function.update_eq_self]
      next => rfl

theorem delete_faults (hn : buildName ns key = .ok name) (d : Dev) :
    (delete ns key d).2.faults = d.faults.tail := by
  unfold delete
  simp only [hn, onBackend_faults]

theorem length_recordHead (version : UInt16) (payload : Bytes) :
    (recordHead version payload).length = 8 := by
  simp [recordHead]

theorem decodeRecord_encodeRecord {version : UInt16} {payload : Bytes} {capacity : Nat}
    (hv : version ≠ 0) (hp : payload ≠ []) (hl : payload.length < 65536)
    (hc : payload.length ≤ capacity) :
    decodeRecord capacity (encodeRecord version payload) = .ok (version, payload) := by
  set crc := putLe 4 (recordCrc (recordHead version payload) payload).toNat with hcrc
  have hlc : crc.length = 4 := by simp [hcrc]
  have hh := length_recordHead version payload
  have henc : encodeRecord version payload = recordHead version payload ++ (crc ++ payload) := by
    simp [encodeRecord, hcrc]
  have hpay : (encodeRecord version payload).drop recordHeaderSize = payload := by
    rw [henc, ← List.append_assoc, List.drop_left' (by simp [hh, hlc, recordHeaderSize])]
  have hhead : (encodeRecord version payload).take 8 = recordHead version payload := by
    rw [henc, List.take_left' hh]
  -- the header fields, read off the first eight bytes
  have hmagic : getLe ((encodeRecord version payload).take 4) = recordMagic := by
    have : (encodeRecord version payload).take 4 = putLe 4 recordMagic := by
      simp only [encodeRecord, recordHead, List.append_assoc]
      exact List.take_left' (length_putLe _ _)
    rw [this, getLe_putLe_of_lt (by decide)]
  have hvers : getLe (((encodeRecord version payload).drop 4).take 2) = version.toNat := by
    have : ((encodeRecord version payload).drop 4).take 2 = putLe 2 version.toNat := by
      simp only [encodeRecord, recordHead, List.append_assoc]
      rw [List.drop_left' (length_putLe _ _), List.take_left' (length_putLe _ _)]
    rw [this, getLe_putLe_of_lt version.toNat_lt]
  have hlen : getLe (((encodeRecord version payload).drop 6).take 2) = payload.length := by
    have : ((encodeRecord version payload).drop 6).take 2 = putLe 2 payload.length := by
      simp only [encodeRecord, recordHead, List.append_assoc]
      rw [show (6 : Nat) = 4 + 2 from rfl, ← List.drop_drop, List.drop_left' (length_putLe _ _),
        List.drop_left' (length_putLe _ _), List.take_left' (length_putLe _ _)]
    rw [this, getLe_putLe_of_lt hl]
  have hsum : getLe (((encodeRecord version payload).drop 8).take 4) =
      (recordCrc (encodeRecord version payload) payload).toNat := by
    have : ((encodeRecord version payload).drop 8).take 4 = crc := by
      rw [henc, List.drop_left' hh, List.take_left' hlc]
    rw [this, hcrc, getLe_putLe_of_lt (UInt32.toNat_lt _)]
    simp only [recordCrc, hhead]
    rw [List.take_of_length_le (Nat.le_of_eq hh)]
  have hv0 : version.toNat ≠ 0 := fun h => hv (UInt16.toNat_inj.1 h)
  have hpl : 0 < payload.length := List.length_pos_iff.2 hp
  have htot : (encodeRecord version payload).length = 12 + payload.length := by
    rw [henc]; simp only [List.length_append, hh, hlc]; omega
  simp only [decodeRecord, hpay, hmagic, hvers, hlen, hsum, htot]
  rw [if_neg (by simp [recordHeaderSize, hv0, hp]), if_neg (by simp), if_neg (by omega)]
  simp

theorem decodeRecord_ne_notFound (capacity : Nat) (record : Bytes) :
    decodeRecord capacity record ≠ .error .notFound := by
  unfold decodeRecord
  dsimp only
  split_ifs <;> simp

/-- What reading a record under a stored name's bytes can answer. -/
inductive RecordOutcome (value : Bytes) (capacity : Nat) : Except Err (UInt16 × Bytes) → Prop
  | failed (e : Err) (he : e ≠ .notFound) : RecordOutcome value capacity (.error e)
  | absent (h : value = []) : RecordOutcome value capacity (.error .notFound)
  | found (r : UInt16 × Bytes) (h : value ≠ []) (hd : decodeRecord capacity value = .ok r) :
      RecordOutcome value capacity (.ok r)

theorem readRecord_store (cfg : Config) (hn : buildName ns key = .ok name) (capacity : Nat)
    (d : Dev) : (readRecord cfg ns key capacity d).2.store = d.store := by
  unfold readRecord
  split
  · rfl
  · simp only [hn]
    rcases onBackend_cases (β := UInt16 × Bytes) _ d with ⟨-, h, -⟩ | ⟨-, h, -⟩ <;> exact h

theorem readRecord_outcome (cfg : Config) (hn : buildName ns key = .ok name) (capacity : Nat)
    (d : Dev) : RecordOutcome (d.store name) capacity (readRecord cfg ns key capacity d).1 := by
  unfold readRecord
  split
  · exact .failed _ (by decide)
  simp only [hn]
  rcases onBackend_cases (β := UInt16 × Bytes) _ d with ⟨⟨e, h⟩, -⟩ | ⟨h, -⟩ <;> rw [h]
  · exact .failed _ e.2
  · dsimp only
    split_ifs with h1 h2
    · exact .failed _ (by decide)
    · exact .absent h2
    · rcases hr : decodeRecord capacity (d.store name) with e | r
      · exact .failed _ fun he => decodeRecord_ne_notFound _ _ (he ▸ hr)
      · exact .found r h2 hr

end Specs

end Storage

end Rzi
