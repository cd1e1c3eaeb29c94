import Rzi.Storage
import Rzi.Lib.Crc

/-!
# Versioned records as their callers see them (`rzi_storage_write_record`, `rzi_storage_read_record`)

`record_codec`: a record can be read back as it was written, what can be read is an encoding that a
write produces, and a read that fails leaves its outputs alone. `corruption_detected`: a record that was
cut short, extended, or changed within four bytes of the header, of the CRC or of the payload is not
read. The CRC is taken over header and payload as one byte string (`recordCrc_eq`), and its polynomial
has the top bit set, so a burst of four bytes always shows.
-/

namespace Rzi.Storage.Record
open LittleEndian

/-! ### The calls -/

/-- The caller's version, value and size variables, `none` for a null pointer. -/
structure Outputs where
  version : Option UInt16
  value : Option Bytes
  size : Option Nat
deriving DecidableEq

/-- `rzi_storage_write_record`. `valid_component` refuses a null pointer as it does an empty string. -/
def rziStorageWriteRecord (cfg : Config) (inIsr : Bool) (ns key : Option String) (version : UInt16)
    (value : Option Bytes) : StateM Dev (Except Err Unit) :=
  if inIsr then pure (.error .isr)
  else match value with
    | none => pure (.error .invalid)
    | some value => writeRecord cfg (ns.getD "") (key.getD "") version value

/-- `rzi_storage_read_record`; the payload is copied over the start of the caller's buffer. -/
def rziStorageReadRecord (cfg : Config) (inIsr : Bool) (ns key : Option String) (capacity : Nat)
    (out : Outputs) : StateM Dev (Except Err Unit × Outputs) :=
  if inIsr then pure (.error .isr, out)
  else match out with
    | ⟨some _, some buffer, some _⟩ => do
      match ← readRecord cfg (ns.getD "") (key.getD "") capacity with
      | .error e => pure (.error e, out)
      | .ok (version, payload) =>
        pure (.ok (), ⟨some version, some (payload ++ buffer.drop payload.length),
          some payload.length⟩)
    | _ => pure (.error .invalid, out)

/-- No output is a null pointer. -/
def Outputs.Complete (out : Outputs) : Prop :=
  out.version.isSome = true ∧ out.value.isSome = true ∧ out.size.isSome = true

/-- The outputs after a record was read. -/
def Outputs.filled (out : Outputs) (version : UInt16) (payload : Bytes) : Outputs :=
  ⟨some version, some (payload ++ (out.value.getD []).drop payload.length), some payload.length⟩

/-- The backend does not fail the next operation. -/
def Answers (d : Dev) : Prop := d.faults.headD none = none

/-- `bytes` are what a successful write of the version and the payload leaves under the name. -/
def Written (cfg : Config) (ns key : Option String) (version : UInt16) (payload bytes : Bytes) : Prop :=
  ∃ name d, buildName (ns.getD "") (key.getD "") = .ok name ∧
    (rziStorageWriteRecord cfg false ns key version (some payload) d).1 = .ok () ∧
    (rziStorageWriteRecord cfg false ns key version (some payload) d).2.store name = bytes

/-! ### The encoding -/

section Encoding
variable {version : UInt16} {payload record : Bytes} {capacity : Nat}

theorem encodeRecord_eq (version : UInt16) (payload : Bytes) : encodeRecord version payload =
    recordHead version payload ++ (putLe 4 (recordCrc (recordHead version payload) payload).toNat ++
      payload) := List.append_assoc _ _ _

theorem length_encodeRecord (version : UInt16) (payload : Bytes) :
    (encodeRecord version payload).length = 12 + payload.length := by
  simp only [encodeRecord_eq, List.length_append, length_recordHead, length_putLe]
  omega

theorem take_encodeRecord (version : UInt16) (payload : Bytes) :
    (encodeRecord version payload).take 8 = recordHead version payload := by
  rw [encodeRecord_eq, List.take_left' (length_recordHead _ _)]

theorem drop_encodeRecord (version : UInt16) (payload : Bytes) :
    (encodeRecord version payload).drop 12 = payload := by
  rw [encodeRecord, List.drop_left']
  simp [length_recordHead]

/-- The bytes under the CRC. -/
def covered (record : Bytes) : Bytes := record.take 8 ++ record.drop 12

/-- The four bytes of the CRC. -/
def crcField (record : Bytes) : Bytes := (record.drop 8).take 4

/-- `crc32_ieee_update` continues `crc32_ieee`. -/
theorem crc32IeeeUpdate_crc32Ieee (xs ys : Bytes) :
    crc32IeeeUpdate (crc32Ieee xs) ys = crc32Ieee (xs ++ ys) := by
  simp only [crc32Ieee, crc32IeeeUpdate, List.foldl_append, UInt32.not_not]

theorem recordCrc_eq (record : Bytes) : recordCrc record (record.drop 12) = crc32Ieee (covered record) :=
  crc32IeeeUpdate_crc32Ieee _ _

/-- The field holds the CRC of the covered bytes. -/
def CrcHolds (record : Bytes) : Prop :=
  crcField record = putLe 4 (crc32Ieee (covered record)).toNat

theorem crcHolds_encodeRecord (version : UInt16) (payload : Bytes) :
    CrcHolds (encodeRecord version payload) := by
  have hcrc : recordCrc (recordHead version payload) payload =
      crc32Ieee (covered (encodeRecord version payload)) := by
    rw [← recordCrc_eq, drop_encodeRecord]
    unfold recordCrc
    rw [take_encodeRecord, List.take_of_length_le (Nat.le_of_eq (length_recordHead _ _))]
  rw [CrcHolds, ← hcrc, crcField, encodeRecord_eq, List.drop_left' (length_recordHead _ _),
    List.take_left' (length_putLe _ _)]

theorem lengthField_encodeRecord (version : UInt16) (payload : Bytes) :
    ((encodeRecord version payload).drop 6).take 2 = putLe 2 payload.length := by
  have hfront : (putLe 4 recordMagic ++ putLe 2 version.toNat).length = 6 := by simp
  simp only [encodeRecord_eq, recordHead]
  rw [List.append_assoc (putLe 4 recordMagic ++ putLe 2 version.toNat), List.drop_left' hfront,
    List.take_left' (length_putLe _ _)]

/-- A field of `k` bytes is the bytes of its value. -/
theorem field_eq {bs : Bytes} {k n : Nat} (hlen : bs.length = k) (h : getLe bs = n) : bs = putLe k n := by
  rw [← hlen, ← h, putLe_getLe]

/-- The checked fields are the head of a record. -/
theorem take_eight (hlong : 8 ≤ record.length) (hmagic : getLe (record.take 4) = recordMagic)
    (hversion : getLe ((record.drop 4).take 2) = version.toNat)
    (hsize : getLe ((record.drop 6).take 2) = payload.length) :
    record.take 8 = recordHead version payload := by
  have hsplit : record.take 8 = record.take 4 ++ (record.drop 4).take 2 ++ (record.drop 6).take 2 := by
    rw [← List.take_add, ← List.take_add]
  have hmlen : (record.take 4).length = 4 := by
    rw [List.length_take]
    omega
  have hvlen : ((record.drop 4).take 2).length = 2 := by
    rw [List.length_take, List.length_drop]
    omega
  have hslen : ((record.drop 6).take 2).length = 2 := by
    rw [List.length_take, List.length_drop]
    omega
  rw [hsplit, recordHead, field_eq hmlen hmagic, field_eq hvlen hversion, field_eq hslen hsize]

/-- A record with the head of its payload and the CRC of both is an encoding. -/
theorem encodeRecord_of_head (hlong : 12 ≤ record.length)
    (hhead : record.take 8 = recordHead version (record.drop 12))
    (hcrc : getLe ((record.drop 8).take 4) = (recordCrc record (record.drop 12)).toNat) :
    record = encodeRecord version (record.drop 12) := by
  have hcrc' : recordCrc (record.take 8) (record.drop 12) = recordCrc record (record.drop 12) := by
    rw [recordCrc, recordCrc, List.take_take, Nat.min_self]
  have hfield : ((record.drop 8).take 4).length = 4 := by
    rw [List.length_take, List.length_drop]
    omega
  rw [encodeRecord, ← hhead, hcrc', ← field_eq hfield hcrc, ← List.take_add]
  exact (List.take_append_drop 12 record).symm

/-- What the decoder has checked when it accepts. -/
theorem decodeRecord_checks (h : decodeRecord capacity record = .ok (version, payload)) :
    12 < record.length ∧ getLe (record.take 4) = recordMagic ∧
      getLe ((record.drop 4).take 2) ≠ 0 ∧ version = UInt16.ofNat (getLe ((record.drop 4).take 2)) ∧
      payload = record.drop 12 ∧ getLe ((record.drop 6).take 2) = payload.length ∧
      getLe ((record.drop 8).take 4) = (recordCrc record payload).toNat ∧
      payload.length ≤ capacity := by
  unfold decodeRecord at h
  dsimp only at h
  split at h
  · cases h
  rename_i hhead
  split at h
  · cases h
  rename_i hbody
  split at h
  · cases h
  rename_i hcap
  cases h
  simp only [recordHeaderSize, not_or, Nat.not_le, Classical.not_not] at hhead hbody hcap
  exact ⟨hhead.1, hhead.2.1, hhead.2.2, rfl, rfl, hbody.1, hbody.2, Nat.not_lt.1 hcap⟩

/-- The decoder accepts exactly the encodings. -/
theorem decodeRecord_eq_ok_iff : decodeRecord capacity record = .ok (version, payload) ↔
    version ≠ 0 ∧ payload ≠ [] ∧ payload.length < 65536 ∧ payload.length ≤ capacity ∧
      record = encodeRecord version payload := by
  constructor
  · intro h
    obtain ⟨hlong, hmagic, hversion, rfl, rfl, hsize, hcrc, hcap⟩ := decodeRecord_checks h
    have hbound (start : Nat) : getLe ((record.drop start).take 2) < 256 ^ 2 := by
      refine Nat.lt_of_lt_of_le (getLe_lt _) (Nat.pow_le_pow_right (by decide) ?_)
      rw [List.length_take]
      exact Nat.min_le_left _ _
    have hvnat : (UInt16.ofNat (getLe ((record.drop 4).take 2))).toNat =
        getLe ((record.drop 4).take 2) := by
      rw [UInt16.toNat_ofNat']
      exact Nat.mod_eq_of_lt (hbound 4)
    have hhead := take_eight (by omega) hmagic hvnat.symm hsize
    refine ⟨?_, ?_, hsize ▸ hbound 6, hcap, encodeRecord_of_head (by omega) hhead hcrc⟩
    · intro h0
      rw [h0] at hvnat
      exact hversion hvnat.symm
    · intro hnil
      have := congrArg List.length hnil
      rw [List.length_drop, List.length_nil] at this
      omega
  · rintro ⟨hversion, hpayload, hlen, hcap, rfl⟩
    exact decodeRecord_encodeRecord hversion hpayload hlen hcap

end Encoding

/-! ### Reading and writing -/

section Calls
variable {cfg : Config} {ns key : Option String} {name : String} {version : UInt16}
  {payload bytes : Bytes} {capacity : Nat} {out out' : Outputs} {d : Dev}

theorem onBackend_fst {β : Type} {f : Store → Except Err β × Store} {d : Dev} (h : Answers d) :
    (onBackend f d).1 = (f d.store).1 := by
  rcases onBackend_cases f d with ⟨-, -, hfault⟩ | ⟨h1, -, -⟩
  · rw [h] at hfault
    cases hfault
  · exact h1

theorem writeRecord_ok (h : (writeRecord cfg (ns.getD "") (key.getD "") version payload d).1 = .ok ()) :
    version ≠ 0 ∧ payload ≠ [] ∧ payload.length ≤ cfg.recordMax ∧
      ∃ name, buildName (ns.getD "") (key.getD "") = .ok name ∧
        (writeRecord cfg (ns.getD "") (key.getD "") version payload d).2.store =
          Function.update d.store name (encodeRecord version payload) := by
  unfold writeRecord at h ⊢
  split at h
  · cases h
  rename_i hargs
  split at h
  · cases h
  rename_i hmax
  rw [not_or] at hargs
  rw [if_neg (by rw [not_or]; exact hargs), if_neg hmax]
  refine ⟨hargs.1, hargs.2, Nat.not_lt.1 hmax, ?_⟩
  cases hname : buildName (ns.getD "") (key.getD "") with
  | error e =>
    rw [write, hname] at h
    split at h
    · cases h
    · cases h
  | ok name =>
    refine ⟨name, rfl, ?_⟩
    rcases write_outcome hname (encodeRecord version payload) d with ⟨-, -, hstore⟩ | ⟨⟨e, he⟩, -⟩
    · exact hstore
    · rw [he] at h
      cases h

/-- Every record of an accepted version and size can be written. -/
theorem writeRecord_of_args (hversion : version ≠ 0) (hpayload : payload ≠ [])
    (hmax : payload.length ≤ cfg.recordMax) (hname : buildName (ns.getD "") (key.getD "") = .ok name)
    (hd : Answers d) :
    (writeRecord cfg (ns.getD "") (key.getD "") version payload d).1 = .ok () := by
  have hne : encodeRecord version payload ≠ [] := by
    intro h
    have := congrArg List.length h
    rw [length_encodeRecord, List.length_nil] at this
    omega
  rw [writeRecord, if_neg (by rw [not_or]; exact ⟨hversion, hpayload⟩), if_neg (Nat.not_lt.2 hmax),
    write, if_neg hne, hname]
  exact onBackend_fst hd

/-- The written bytes are the encodings of the accepted versions and payloads. -/
theorem written_iff (hname : buildName (ns.getD "") (key.getD "") = .ok name) :
    Written cfg ns key version payload bytes ↔ version ≠ 0 ∧ payload ≠ [] ∧
      payload.length ≤ cfg.recordMax ∧ bytes = encodeRecord version payload := by
  constructor
  · rintro ⟨name', d, hname', hok, rfl⟩
    cases hname.symm.trans hname'
    obtain ⟨hversion, hpayload, hmax, name', hname', hstore⟩ := writeRecord_ok hok
    cases hname.symm.trans hname'
    refine ⟨hversion, hpayload, hmax, ?_⟩
    have := congrFun hstore name
    rwa [Function.update_self] at this
  · rintro ⟨hversion, hpayload, hmax, rfl⟩
    have hok := writeRecord_of_args (d := ⟨fun _ => [], []⟩) hversion hpayload hmax hname rfl
    obtain ⟨-, -, -, name', hname', hstore⟩ := writeRecord_ok hok
    cases hname.symm.trans hname'
    refine ⟨name, ⟨fun _ => [], []⟩, hname, hok, ?_⟩
    have := congrFun hstore name
    rwa [Function.update_self] at this

/-- `rzi_storage_read_record` hands back what it read, or an error with the outputs as they were. -/
theorem readRecord_cases (inIsr : Bool) (capacity : Nat) (out : Outputs) (d : Dev) :
    (∃ e, (rziStorageReadRecord cfg inIsr ns key capacity out d).1 = (.error e, out)) ∨
      inIsr = false ∧ out.Complete ∧ ∃ version payload,
        (readRecord cfg (ns.getD "") (key.getD "") capacity d).1 = .ok (version, payload) ∧
        (rziStorageReadRecord cfg inIsr ns key capacity out d).1 =
          (.ok (), out.filled version payload) := by
  unfold rziStorageReadRecord
  split
  · exact .inl ⟨_, rfl⟩
  rename_i hisr
  split
  · rename_i version buffer size
    rw [bind_apply]
    cases hread : (readRecord cfg (ns.getD "") (key.getD "") capacity d).1 with
    | error e => exact .inl ⟨e, rfl⟩
    | ok r =>
      obtain ⟨version', payload⟩ := r
      exact .inr ⟨Bool.eq_false_of_not_eq_true hisr, ⟨rfl, rfl, rfl⟩, version', payload, rfl, rfl⟩
  · exact .inl ⟨_, rfl⟩

theorem read_of_complete (hout : out.Complete)
    (hread : (readRecord cfg (ns.getD "") (key.getD "") capacity d).1 = .ok (version, payload)) :
    (rziStorageReadRecord cfg false ns key capacity out d).1 = (.ok (), out.filled version payload) := by
  obtain ⟨ver, val, siz⟩ := out
  obtain ⟨hver, hval, hsiz⟩ := hout
  obtain ⟨v, rfl⟩ := Option.isSome_iff_exists.1 hver
  obtain ⟨b, rfl⟩ := Option.isSome_iff_exists.1 hval
  obtain ⟨n, rfl⟩ := Option.isSome_iff_exists.1 hsiz
  simp only [rziStorageReadRecord, Bool.false_eq_true, if_false]
  rw [bind_apply, hread]
  rfl

/-- What the inner read accepts. -/
theorem readRecord_ok_iff (hname : buildName (ns.getD "") (key.getD "") = .ok name) :
    (readRecord cfg (ns.getD "") (key.getD "") capacity d).1 = .ok (version, payload) ↔
      Answers d ∧ Written cfg ns key version payload (d.store name) ∧ payload.length ≤ capacity := by
  rw [written_iff hname]
  have hbound := cfg.recordMax_le
  constructor
  · intro h
    unfold readRecord at h
    split at h
    · cases h
    simp only [hname] at h
    rcases onBackend_cases (β := UInt16 × Bytes) _ d with ⟨⟨e, he⟩, -, -⟩ | ⟨hok, -, hanswers⟩
    · rw [he] at h
      cases h
    rw [hok] at h
    dsimp only at h
    split_ifs at h with hlong hempty
    obtain ⟨hversion, hpayload, hlen, hcap, henc⟩ := decodeRecord_eq_ok_iff.1 h
    rw [henc, length_encodeRecord, recordHeaderSize] at hlong
    exact ⟨hanswers, ⟨hversion, hpayload, by omega, henc⟩, hcap⟩
  · rintro ⟨hanswers, ⟨hversion, hpayload, hmax, henc⟩, hcap⟩
    have hpos := List.length_pos_iff.2 hpayload
    have hlen := length_encodeRecord version payload
    unfold readRecord
    rw [if_neg (by omega)]
    simp only [hname]
    rw [onBackend_fst hanswers]
    simp only [henc]
    rw [if_neg (by rw [hlen, recordHeaderSize]; omega),
      if_neg (fun hnil => by rw [hnil, List.length_nil] at hlen; omega)]
    exact decodeRecord_encodeRecord hversion hpayload (by omega) hcap

/-- **Record codec.** A read after a successful write of the same name returns the version and the
payload written, for every capacity that holds it. A read of any stored bytes succeeds exactly if a
write leaves these bytes for a version and a payload within the capacity, and fills the outputs with
them. A read that fails leaves the outputs as they were. -/
theorem record_codec (cfg : Config) (ns key : Option String) :
    (∀ version payload capacity out d,
      (rziStorageWriteRecord cfg false ns key version (some payload) d).1 = .ok () →
      payload.length ≤ capacity → out.Complete →
      Answers (rziStorageWriteRecord cfg false ns key version (some payload) d).2 →
      (rziStorageReadRecord cfg false ns key capacity out
        (rziStorageWriteRecord cfg false ns key version (some payload) d).2).1 =
          (.ok (), out.filled version payload)) ∧
    (∀ name, buildName (ns.getD "") (key.getD "") = .ok name → ∀ inIsr capacity out out' d,
      (rziStorageReadRecord cfg inIsr ns key capacity out d).1 = (.ok (), out') ↔
        inIsr = false ∧ out.Complete ∧ Answers d ∧ ∃ version payload,
          Written cfg ns key version payload (d.store name) ∧ payload.length ≤ capacity ∧
          out' = out.filled version payload) ∧
    (∀ inIsr capacity out out' d e,
      (rziStorageReadRecord cfg inIsr ns key capacity out d).1 = (.error e, out') → out' = out) := by
  refine ⟨?_, ?_, ?_⟩
  · intro version payload capacity out d hok hcap hout hanswers
    obtain ⟨-, -, -, name, hname, hstore⟩ := writeRecord_ok hok
    refine read_of_complete hout ((readRecord_ok_iff hname).2 ⟨hanswers, ?_, hcap⟩)
    exact ⟨name, d, hname, hok, rfl⟩
  · intro name hname inIsr capacity out out' d
    constructor
    · intro h
      rcases readRecord_cases inIsr capacity out d with ⟨e, he⟩ | ⟨hisr, hout, version, payload, hread, hok⟩
      · rw [he] at h
        cases h
      · obtain ⟨hanswers, hwritten, hcap⟩ := (readRecord_ok_iff hname).1 hread
        rw [hok, Prod.mk.injEq] at h
        exact ⟨hisr, hout, hanswers, version, payload, hwritten, hcap, h.2.symm⟩
    · rintro ⟨rfl, hout, hanswers, version, payload, hwritten, hcap, rfl⟩
      exact read_of_complete hout ((readRecord_ok_iff hname).2 ⟨hanswers, hwritten, hcap⟩)
  · intro inIsr capacity out out' d e h
    rcases readRecord_cases inIsr capacity out d with ⟨e', he⟩ | ⟨-, -, version, payload, -, hok⟩
    · rw [he, Prod.mk.injEq] at h
      exact h.2.symm
    · rw [hok] at h
      cases h

/-- A four-byte configuration, written as version 1 and read into a buffer of eight bytes. -/
theorem record_codec_config :
    (rziStorageReadRecord ⟨256, by decide, by decide⟩ false (some "app") (some "config") 8
      ⟨some 99, some (List.replicate 8 0xa5), some 99⟩
      (rziStorageWriteRecord ⟨256, by decide, by decide⟩ false (some "app") (some "config") 1
        (some [80, 0, 0, 0]) ⟨fun _ => [], []⟩).2).1 =
      (.ok (), ⟨some 1, some [80, 0, 0, 0, 0xa5, 0xa5, 0xa5, 0xa5], some 4⟩) :=
  (record_codec ⟨256, by decide, by decide⟩ (some "app") (some "config")).1 1 [80, 0, 0, 0] 8
    ⟨some 99, some (List.replicate 8 0xa5), some 99⟩ ⟨fun _ => [], []⟩ (by decide) (by decide)
    ⟨rfl, rfl, rfl⟩ rfl

end Calls

/-! ### Corruption -/

/-- A stretch of `len` bytes from `start` in the magic, version and length, in the CRC, or in the
payload. -/
def InOneField (start len : Nat) : Prop :=
  start + len ≤ 8 ∨ 8 ≤ start ∧ start + len ≤ 12 ∨ 12 ≤ start

/-- The ways in which a stored record gets damaged. -/
inductive Corrupted (record : Bytes) : Bytes → Prop
  | truncated (n : Nat) (hn : n < record.length) : Corrupted record (record.take n)
  | extended (extra : Bytes) (hextra : extra ≠ []) : Corrupted record (record ++ extra)
  | changed (before old new after : Bytes) (hrecord : record = before ++ old ++ after)
      (hlen : new.length = old.length) (hburst : old.length ≤ 4) (hne : new ≠ old)
      (hfield : InOneField before.length old.length) : Corrupted record (before ++ new ++ after)

/-- The polynomial of `crc32_ieee`. -/
def poly : BitVec 32 := 0xedb88320#32

theorem low_bit (c : UInt32) : c &&& 1 = 1 ↔ c.toBitVec.getLsbD 0 = true := by
  rw [← UInt32.toBitVec_inj, UInt32.toBitVec_and]
  have hand : c.toBitVec &&& (1 : UInt32).toBitVec = BitVec.setWidth 32 (BitVec.ofBool (c.toBitVec.getLsbD 0)) :=
    BitVec.and_one_eq_setWidth_ofBool_getLsbD
  rw [hand]
  cases c.toBitVec.getLsbD 0 <;> decide

theorem crcByte_toBitVec (c : UInt32) (b : UInt8) :
    (crcByte c b).toBitVec = Crc.symbol poly c.toBitVec b.toBitVec := by
  have hstep : Function.Semiconj UInt32.toBitVec
      (fun c : UInt32 => if c &&& 1 = 1 then (c >>> 1) ^^^ 0xedb88320 else c >>> 1) (Crc.step poly) := by
    intro c
    unfold Crc.step
    simp only [low_bit]
    split
    · rfl
    · rfl
  exact hstep.iterate_right 8 (c ^^^ b.toUInt32)

theorem foldl_crcByte_toBitVec (c : UInt32) (xs : Bytes) :
    (xs.foldl crcByte c).toBitVec = Crc.feed poly c.toBitVec (xs.map UInt8.toBitVec) := by
  induction xs generalizing c with
  | nil => rfl
  | cons x xs ih =>
    rw [List.foldl_cons, ih, crcByte_toBitVec]
    rfl

/-- A change within four bytes changes the CRC. -/
theorem crc32Ieee_burst (before after : Bytes) {old new : Bytes} (hlen : new.length = old.length)
    (hburst : old.length ≤ 4) (hne : new ≠ old) :
    crc32Ieee (before ++ new ++ after) ≠ crc32Ieee (before ++ old ++ after) := by
  intro h
  have hfold := UInt32.not_inj.1 h
  rw [← UInt32.toBitVec_inj, foldl_crcByte_toBitVec, foldl_crcByte_toBitVec] at hfold
  simp only [List.map_append] at hfold
  refine Crc.feed_burst_ne (by decide) _ _ _ ?_ ?_ ?_ hfold
  · rw [List.length_map, List.length_map, hlen]
  · rw [List.length_map]
    omega
  · exact fun hmap => hne (List.map_injective_iff.2 (fun _ _ => UInt8.toBitVec_inj.1) hmap)

theorem putLe_toNat_inj {x y : UInt32} (h : putLe 4 x.toNat = putLe 4 y.toNat) : x = y := by
  have hget := congrArg getLe h
  rw [getLe_putLe_of_lt x.toNat_lt, getLe_putLe_of_lt y.toNat_lt] at hget
  exact UInt32.toNat_inj.1 hget

section Corruption
variable {version version' : UInt16} {payload payload' record : Bytes}

/-- A change before the CRC is one under the CRC. -/
theorem change_head (before after : Bytes) {x : Bytes} (hx : before.length + x.length ≤ 8) :
    covered (before ++ x ++ after) = before ++ x ++ (after.take (8 - (before.length + x.length)) ++
      after.drop (12 - (before.length + x.length))) ∧
    crcField (before ++ x ++ after) = (after.drop (8 - (before.length + x.length))).take 4 := by
  have hlen : (before ++ x).length = before.length + x.length := List.length_append
  refine ⟨?_, ?_⟩
  · rw [covered, List.take_append, List.drop_append, hlen, List.take_of_length_le (by omega),
      List.drop_of_length_le (by omega), List.nil_append, List.append_assoc]
  · rw [crcField, List.drop_append, hlen, List.drop_of_length_le (by omega), List.nil_append]

/-- A change of the CRC leaves what is under it. -/
theorem change_crc (before after : Bytes) {x : Bytes} (hstart : 8 ≤ before.length)
    (hx : before.length + x.length ≤ 12) :
    covered (before ++ x ++ after) =
      before.take 8 ++ after.drop (12 - (before.length + x.length)) ∧
    crcField (before ++ x ++ after) =
      before.drop 8 ++ x ++ after.take (12 - (before.length + x.length)) := by
  have hlen : (before ++ x).length = before.length + x.length := List.length_append
  refine ⟨?_, ?_⟩
  · rw [covered, List.append_assoc, List.take_append_of_le_length hstart, ← List.append_assoc,
      List.drop_append, hlen, List.drop_of_length_le (by omega), List.nil_append]
  · have hdrop : (before.drop 8 ++ x).length = before.length + x.length - 8 := by
      rw [List.length_append, List.length_drop]
      omega
    rw [crcField, List.append_assoc, List.drop_append_of_le_length hstart, ← List.append_assoc,
      List.take_append, hdrop, List.take_of_length_le (by omega)]
    congr 2
    omega

/-- A change after the CRC is one under the CRC. -/
theorem change_payload (before x after : Bytes) (hstart : 12 ≤ before.length) :
    covered (before ++ x ++ after) = before.take 8 ++ before.drop 12 ++ x ++ after ∧
    crcField (before ++ x ++ after) = (before.drop 8).take 4 := by
  refine ⟨?_, ?_⟩
  · rw [covered, List.append_assoc before, List.take_append_of_le_length (by omega),
      List.drop_append_of_le_length hstart]
    simp only [List.append_assoc]
  · rw [crcField, List.append_assoc, List.drop_append_of_le_length (by omega),
      List.take_append_of_le_length (by rw [List.length_drop]; omega)]

/-- Two encodings with the same first eight bytes have the same length. -/
theorem length_eq_of_head (version version' : UInt16) (hlen : payload.length < 65536) (hlen' : payload'.length < 65536)
    (h : (encodeRecord version payload).take 8 = (encodeRecord version' payload').take 8) :
    (encodeRecord version payload).length = (encodeRecord version' payload').length := by
  have hfield : putLe 2 payload.length = putLe 2 payload'.length := by
    have hslice (bs : Bytes) : (bs.drop 6).take 2 = (bs.take 8).drop 6 := by
      rw [List.drop_take]
    rw [← lengthField_encodeRecord version, ← lengthField_encodeRecord version', hslice, hslice, h]
  have hget := congrArg getLe hfield
  rw [getLe_putLe_of_lt hlen, getLe_putLe_of_lt hlen'] at hget
  rw [length_encodeRecord, length_encodeRecord, hget]

/-- A change within four bytes of one field is told by the CRC. -/
theorem not_crcHolds_of_change (before after : Bytes) {old new : Bytes}
    (hcrc : CrcHolds (before ++ old ++ after)) (hold : new.length = old.length)
    (hburst : old.length ≤ 4) (hne : new ≠ old) (hfield : InOneField before.length old.length) :
    ¬ CrcHolds (before ++ new ++ after) := by
  intro hcrc'
  rw [CrcHolds] at hcrc hcrc'
  have hfields (hsame : crcField (before ++ new ++ after) = crcField (before ++ old ++ after)) :
      crc32Ieee (covered (before ++ new ++ after)) = crc32Ieee (covered (before ++ old ++ after)) :=
    putLe_toNat_inj (hcrc'.symm.trans (hsame.trans hcrc))
  rcases hfield with hhead | ⟨hstart, hend⟩ | hstart
  · obtain ⟨hcov, hfld⟩ := change_head before after (x := new) (by rw [hold]; exact hhead)
    obtain ⟨hcov', hfld'⟩ := change_head before after hhead
    rw [hold, ← hfld'] at hfld
    have hcrcs := hfields hfld
    rw [hcov, hcov', hold] at hcrcs
    exact crc32Ieee_burst before _ hold hburst hne hcrcs
  · -- the bytes under the CRC are the same, so the field can only be
    obtain ⟨hcov, hfld⟩ := change_crc before after (x := new) hstart (by rw [hold]; exact hend)
    obtain ⟨hcov', hfld'⟩ := change_crc before after hstart hend
    rw [hold, ← hcov'] at hcov
    rw [hcov, ← hcrc, hfld, hfld', hold, List.append_assoc, List.append_assoc,
      List.append_cancel_left_eq, List.append_cancel_right_eq] at hcrc'
    exact hne hcrc'
  · obtain ⟨hcov, hfld⟩ := change_payload before new after hstart
    obtain ⟨hcov', hfld'⟩ := change_payload before old after hstart
    have hcrcs := hfields (hfld.trans hfld'.symm)
    rw [hcov, hcov'] at hcrcs
    exact crc32Ieee_burst _ after hold hburst hne hcrcs

/-- No damaged record is an encoding again. -/
theorem Corrupted.ne_encodeRecord (h : Corrupted (encodeRecord version payload) record)
    (hlen : payload.length < 65536) (hlen' : payload'.length < 65536) :
    record ≠ encodeRecord version' payload' := by
  intro henc
  have hlength := congrArg List.length henc
  have hlength₁ := length_encodeRecord version payload
  have hlength₂ := length_encodeRecord version' payload'
  cases h with
  | truncated n hn =>
    rw [List.length_take] at hlength
    have heq := length_eq_of_head version version' hlen hlen' (by
      rw [← henc, List.take_take, Nat.min_eq_left (by omega)])
    omega
  | extended extra hextra =>
    rw [List.length_append] at hlength
    have hpos := List.length_pos_iff.2 hextra
    have heq := length_eq_of_head version version' hlen hlen' (by
      rw [← henc, List.take_append_of_le_length (by omega)])
    omega
  | changed before old new after hrecord hold hburst hne hfield =>
    have hcrc := crcHolds_encodeRecord version payload
    rw [hrecord] at hcrc
    refine not_crcHolds_of_change before after hcrc hold hburst hne hfield ?_
    rw [henc]
    exact crcHolds_encodeRecord version' payload'

/-- **Corruption detection.** A record that a write can produce and that was truncated, extended, or
changed within four bytes of the header, of the CRC or of the payload is never read. -/
theorem corruption_detected (cfg : Config) (ns key : Option String) (version : UInt16)
    (payload record damaged : Bytes) (hrecord : Written cfg ns key version payload record)
    (hdamaged : Corrupted record damaged) (name : String)
    (hname : buildName (ns.getD "") (key.getD "") = .ok name) (d : Dev)
    (hd : d.store name = damaged) (inIsr : Bool) (capacity : Nat) (out : Outputs) :
    (rziStorageReadRecord cfg inIsr ns key capacity out d).1.1 ≠ .ok () := by
  intro hok
  have hbound := cfg.recordMax_le
  obtain ⟨-, -, hmax, rfl⟩ := (written_iff hname).1 hrecord
  rcases readRecord_cases inIsr capacity out d with ⟨e, he⟩ | ⟨-, -, version', payload', hread, -⟩
  · rw [he] at hok
    cases hok
  · obtain ⟨-, hwritten, -⟩ := (readRecord_ok_iff hname).1 hread
    obtain ⟨-, -, hmax', henc⟩ := (written_iff hname).1 hwritten
    rw [hd] at henc
    exact hdamaged.ne_encodeRecord (by omega) (by omega) henc

/-- The last payload byte of a stored record flips one bit. -/
theorem corruption_detected_payload :
    (rziStorageReadRecord ⟨256, by decide, by decide⟩ false (some "record") (some "config") 4
      ⟨some 99, some (List.replicate 4 0xa5), some 99⟩
      ⟨fun _ => (encodeRecord 2 [1, 2, 3, 4]).take 15 ++ [5] ++ [], []⟩).1.1 ≠ .ok () := by
  have hlast : (encodeRecord 2 [1, 2, 3, 4]).drop 15 = [4] := by
    rw [show 15 = 12 + 3 from rfl, ← List.drop_drop, drop_encodeRecord]
    rfl
  have hlen : ((encodeRecord 2 [1, 2, 3, 4]).take 15).length = 15 := by
    rw [List.length_take, length_encodeRecord]
    rfl
  have hrecord : encodeRecord 2 [1, 2, 3, 4] = (encodeRecord 2 [1, 2, 3, 4]).take 15 ++ [4] ++ [] := by
    have hsplit := List.take_append_drop 15 (encodeRecord 2 [1, 2, 3, 4])
    rw [hlast] at hsplit
    rw [List.append_nil, hsplit]
  refine corruption_detected ⟨256, by decide, by decide⟩ (some "record") (some "config") 2 [1, 2, 3, 4]
    (encodeRecord 2 [1, 2, 3, 4]) _ ⟨"record/config", ⟨fun _ => [], []⟩, by decide, by decide, rfl⟩
    (.changed _ [4] [5] [] hrecord rfl (by decide) (by decide) ?_) "record/config" (by decide) _ rfl
    _ _ _
  rw [hlen]
  exact .inr (.inr (by decide))

end Corruption

end Rzi.Storage.Record
