import Rzi.Fuota

/-!
# The size of a received image (`detect_image_size`)

With no size set, reported or measured, the size is read from the image: header size and payload size,
then the total length of the TLV area behind the payload. The protected TLV area that an image may have
there is not skipped, and the sums are taken in 32 bits: `detected_size_exact_iff`. If the size cannot be
determined at all, `image_size` is left with the size of an earlier image: `size_current_iff`.
-/

namespace Rzi.Fuota.Size
open Lts LittleEndian

/-! ### Reading the image -/

/-- A read of the image, with its offset and size put on record. -/
def recordedRead (read : UInt32 → Nat → Except Err (List UInt8)) (offset : UInt32) (size : Nat) :
    ExceptT Err (StateM (List (UInt32 × Nat))) (List UInt8) := do
  modify (· ++ [(offset, size)])
  liftExcept (read offset size)

/-- `headerImageSize` with its reads put on record. -/
def headerImageSizeRecorded (read : UInt32 → Nat → Except Err (List UInt8)) :
    ExceptT Err (StateM (List (UInt32 × Nat))) UInt32 := do
  let header ← recordedRead read 0 32
  if field header 0 4 ≠ imageMagic then throw .noData
  let payloadEnd := UInt32.ofNat (field header 8 2) + UInt32.ofNat (field header 12 4)
  let tlv ← recordedRead read payloadEnd 4
  if field tlv 0 2 ≠ imageTlvMagic then pure payloadEnd
  else pure (payloadEnd + UInt32.ofNat (field tlv 2 2))

variable {b : Build} {ans : Answers} {read : UInt32 → Nat → Except Err (List UInt8)}
  {header tlv image : List UInt8}

theorem recordedRead_bind_error {β : Type} {offset : UInt32} {size : Nat} {e : Err}
    (h : read offset size = .error e) (f : List UInt8 → ExceptT Err (StateM (List (UInt32 × Nat))) β)
    (log : List (UInt32 × Nat)) :
    (recordedRead read offset size >>= f).run log = (.error e, log ++ [(offset, size)]) := by
  unfold recordedRead
  rw [h]
  rfl

theorem recordedRead_bind_ok {β : Type} {offset : UInt32} {size : Nat} {bytes : List UInt8}
    (h : read offset size = .ok bytes)
    (f : List UInt8 → ExceptT Err (StateM (List (UInt32 × Nat))) β) (log : List (UInt32 × Nat)) :
    (recordedRead read offset size >>= f).run log = (f bytes).run (log ++ [(offset, size)]) := by
  unfold recordedRead
  rw [h]
  rfl

/-- The offset of the second read. -/
def payloadEnd (header : List UInt8) : UInt32 :=
  UInt32.ofNat (field header 8 2) + UInt32.ofNat (field header 12 4)

/-- The size that the header and the four bytes at the end of the payload give. -/
def headerSize (header tlv : List UInt8) : UInt32 :=
  if field tlv 0 2 ≠ imageTlvMagic then payloadEnd header
  else payloadEnd header + UInt32.ofNat (field tlv 2 2)

theorem headerImageSize_error {e : Err} (h : read 0 32 = .error e) : headerImageSize read = .error e := by
  unfold headerImageSize
  rw [h]
  rfl

theorem headerImageSize_noMagic (h : read 0 32 = .ok header) (hmagic : field header 0 4 ≠ imageMagic) :
    headerImageSize read = .error .noData := by
  unfold headerImageSize
  rw [h]
  exact if_pos hmagic

theorem headerImageSize_magic (h : read 0 32 = .ok header) (hmagic : field header 0 4 = imageMagic) :
    headerImageSize read = (read (payloadEnd header) 4).map (headerSize header) := by
  unfold headerImageSize
  rw [h]
  refine (if_neg (fun hne => hne hmagic)).trans ?_
  change (read (payloadEnd header) 4 >>= fun tlv => _) = _
  cases read (payloadEnd header) 4 with
  | error e => rfl
  | ok tlv =>
    rw [Except.map, headerSize]
    by_cases htlv : field tlv 0 2 ≠ imageTlvMagic
    · rw [if_pos htlv]
      exact if_pos htlv
    · rw [if_neg htlv]
      exact if_neg htlv

/-- The recorded function reads the header and then, if it has the magic, four bytes at the end of the
payload. -/
theorem headerImageSizeRecorded_magic (h : read 0 32 = .ok header)
    (hmagic : field header 0 4 = imageMagic) : (headerImageSizeRecorded read).run [] =
      ((read (payloadEnd header) 4).map (headerSize header), [(0, 32), (payloadEnd header, 4)]) := by
  rw [headerImageSizeRecorded, recordedRead_bind_ok h]
  have hnot : ¬ field header 0 4 ≠ imageMagic := fun hne => hne hmagic
  simp only [if_neg hnot]
  change (recordedRead read (payloadEnd header) 4 >>= fun tlv => _).run _ = _
  cases hread : read (payloadEnd header) 4 with
  | error e => exact recordedRead_bind_error hread _ _
  | ok tlv =>
    rw [recordedRead_bind_ok hread, Except.map, headerSize]
    by_cases htlv : field tlv 0 2 ≠ imageTlvMagic
    · rw [if_pos htlv, if_pos htlv]
      rfl
    · rw [if_neg htlv, if_neg htlv]
      rfl

/-- Recording changes nothing. -/
theorem headerImageSizeRecorded_fst :
    ((headerImageSizeRecorded read).run []).1 = headerImageSize read := by
  cases h : read 0 32 with
  | error e => rw [headerImageSize_error h, headerImageSizeRecorded, recordedRead_bind_error h]
  | ok header =>
    by_cases hmagic : field header 0 4 = imageMagic
    · rw [headerImageSizeRecorded_magic h hmagic, headerImageSize_magic h hmagic]
    · rw [headerImageSize_noMagic h hmagic, headerImageSizeRecorded, recordedRead_bind_ok h]
      simp only [if_pos hmagic]
      rfl

/-! ### The layout of an image -/

def protectedMagic : Nat := 0x6908

def hdrSize (image : List UInt8) : Nat := field image 8 2

def protectSize (image : List UInt8) : Nat := field image 10 2

def imgSize (image : List UInt8) : Nat := field image 12 4

/-- The total length in the header of the TLV area. -/
def tlvSize (image : List UInt8) : Nat :=
  field image (hdrSize image + imgSize image + protectSize image + 2) 2

/-- The size of everything up to the end of the TLV area. -/
def totalSize (image : List UInt8) : Nat :=
  hdrSize image + imgSize image + protectSize image + tlvSize image

/-- Header, payload, protected TLV area if there is one, TLV area. -/
structure WellFormed (image : List UInt8) : Prop where
  header : 32 ≤ image.length
  magic : field image 0 4 = imageMagic
  protectedArea : protectSize image ≠ 0 → field image (hdrSize image + imgSize image) 2 = protectedMagic
  tlvArea : field image (hdrSize image + imgSize image + protectSize image) 2 = imageTlvMagic
  tlvHeader : 4 ≤ tlvSize image
  stored : totalSize image ≤ image.length

/-- The backend reads the stored image. -/
def Serves (read : UInt32 → Nat → Except Err (List UInt8)) (image : List UInt8) : Prop :=
  ∀ offset size, offset.toNat + size ≤ image.length →
    read offset size = .ok ((image.drop offset.toNat).take size)

/-- `get_image_size` has no data. -/
def NoMeasure (b : Build) (ans : Answers) : Prop :=
  b.ops.any (·.getImageSize) = false ∨ ans.getImageSize = .ok 0 ∨ ∃ e, ans.getImageSize = .error e

theorem field_lt (bytes : List UInt8) (start size : Nat) : field bytes start size < 256 ^ size := by
  refine Nat.lt_of_lt_of_le (getLe_lt _) (Nat.pow_le_pow_right (by decide) ?_)
  rw [List.length_take]
  omega

/-- A field of a slice is one of the whole. -/
theorem field_slice (bytes : List UInt8) (offset : Nat) {len start size : Nat} (h : start + size ≤ len) :
    field ((bytes.drop offset).take len) start size = field bytes (offset + start) size := by
  unfold field
  rw [List.drop_take, List.take_take, List.drop_drop, Nat.min_eq_left (by omega)]

theorem payloadEnd_toNat (header : List UInt8) :
    (payloadEnd header).toNat = (hdrSize header + imgSize header) % 2 ^ 32 := by
  have hhdr : field header 8 2 < 2 ^ 32 := Nat.lt_trans (field_lt header 8 2) (by decide)
  have himg : field header 12 4 < 2 ^ 32 := field_lt header 12 4
  rw [payloadEnd, UInt32.toNat_add, UInt32.toNat_ofNat_of_lt' hhdr, UInt32.toNat_ofNat_of_lt' himg]
  rfl

/-- What the size should be: the end of the payload, and the TLV area if there is one. -/
def exactSize (header tlv : List UInt8) : Nat :=
  hdrSize header + imgSize header + if field tlv 0 2 = imageTlvMagic then field tlv 2 2 else 0

theorem headerSize_toNat (header tlv : List UInt8) :
    (headerSize header tlv).toNat = exactSize header tlv % 2 ^ 32 := by
  have hlen : field tlv 2 2 < 2 ^ 32 := Nat.lt_trans (field_lt tlv 2 2) (by decide)
  unfold headerSize exactSize
  by_cases htlv : field tlv 0 2 = imageTlvMagic
  · rw [if_neg (fun hne => hne htlv), if_pos htlv, UInt32.toNat_add, payloadEnd_toNat,
      UInt32.toNat_ofNat_of_lt' hlen, Nat.mod_add_mod]
  · rw [if_pos htlv, if_neg htlv, payloadEnd_toNat, Nat.add_zero]

theorem mod_eq_self_iff {n m : Nat} (hm : 0 < m) : n % m = n ↔ n < m :=
  ⟨fun h => h ▸ Nat.mod_lt n hm, Nat.mod_eq_of_lt⟩

theorem detectImageSize_header {s : Service} (hexp : s.expectedSize = 0) (hmeasure : NoMeasure b ans)
    (hread : b.hasReadImage = true) : detectImageSize b ans 0 s = headerImageSize ans.readImage := by
  unfold detectImageSize
  rw [if_neg (by simp [hexp]), if_neg (by simp)]
  simp only [hread, if_true]
  rcases hmeasure with hop | hzero | ⟨e, herr⟩
  · simp [hop]
  · cases b.ops.any (·.getImageSize) <;> simp [hzero]
  · cases b.ops.any (·.getImageSize) <;> simp [herr]

/-- The header of a stored image as the backend reads it. -/
theorem serves_header (hserves : Serves read image) (hlen : 32 ≤ image.length) :
    read 0 32 = .ok (image.take 32) := hserves 0 32 (by simpa using hlen)

theorem field_header {start size : Nat} (h : start + size ≤ 32) :
    field (image.take 32) start size = field image start size := by
  have hslice := field_slice image 0 h
  rwa [List.drop_zero, Nat.zero_add] at hslice

/-- The four bytes behind the payload. -/
def behindPayload (image : List UInt8) : List UInt8 := (image.drop (hdrSize image + imgSize image)).take 4

theorem headerImageSize_wellFormed (hwf : WellFormed image) (hserves : Serves read image)
    (hfit : hdrSize image + imgSize image < 2 ^ 32) :
    headerImageSize read = .ok (headerSize (image.take 32) (behindPayload image)) := by
  have hmagic : field (image.take 32) 0 4 = imageMagic := by
    rw [field_header (by decide)]
    exact hwf.magic
  have hoffset : (payloadEnd (image.take 32)).toNat = hdrSize image + imgSize image := by
    rw [payloadEnd_toNat, hdrSize, imgSize, field_header (by decide), field_header (by decide)]
    exact Nat.mod_eq_of_lt hfit
  have hstored : (payloadEnd (image.take 32)).toNat + 4 ≤ image.length := by
    have hlen := hwf.stored
    have htlv := hwf.tlvHeader
    rw [totalSize] at hlen
    omega
  rw [headerImageSize_magic (serves_header hserves hwf.header) hmagic, hserves _ _ hstored, hoffset]
  rfl

/-- What is computed there: the protected area hides the TLV area. -/
theorem exactSize_wellFormed (hwf : WellFormed image) :
    exactSize (image.take 32) (behindPayload image) =
      if protectSize image = 0 then totalSize image else hdrSize image + imgSize image := by
  have hmagic : field (behindPayload image) 0 2 = field image (hdrSize image + imgSize image) 2 :=
    field_slice image _ (by decide)
  have hlength : field (behindPayload image) 2 2 = field image (hdrSize image + imgSize image + 2) 2 :=
    field_slice image _ (by decide)
  have hhdr : hdrSize (image.take 32) = hdrSize image := field_header (by decide)
  have himg : imgSize (image.take 32) = imgSize image := field_header (by decide)
  rw [exactSize, hhdr, himg, hmagic, hlength]
  by_cases hprotect : protectSize image = 0
  · have htlv := hwf.tlvArea
    rw [hprotect, Nat.add_zero] at htlv
    rw [if_pos htlv, if_pos hprotect, totalSize, tlvSize, hprotect]
    rfl
  · rw [hwf.protectedArea hprotect, if_neg (by decide), if_neg hprotect, Nat.add_zero]

theorem wellFormed_exact_iff (hwf : WellFormed image) (hserves : Serves read image) :
    (∃ size, headerImageSize read = .ok size ∧ size.toNat = totalSize image) ↔
      protectSize image = 0 ∧ totalSize image < 2 ^ 32 := by
  have htotal : hdrSize image + imgSize image + protectSize image ≤ totalSize image :=
    Nat.le_add_right _ _
  have htlv := hwf.tlvHeader
  constructor
  · rintro ⟨size, hok, hsize⟩
    have hlt : totalSize image < 2 ^ 32 := hsize ▸ size.toNat_lt
    refine ⟨?_, hlt⟩
    by_contra hprotect
    rw [headerImageSize_wellFormed hwf hserves (by omega), Except.ok.injEq] at hok
    rw [← hok, headerSize_toNat, exactSize_wellFormed hwf, if_neg hprotect,
      Nat.mod_eq_of_lt (by omega)] at hsize
    omega
  · rintro ⟨hprotect, hlt⟩
    refine ⟨_, headerImageSize_wellFormed hwf hserves (by omega), ?_⟩
    rw [headerSize_toNat, exactSize_wellFormed hwf, if_pos hprotect, Nat.mod_eq_of_lt hlt]

/-- **Image size detection.** For a well-formed image whose size is not given otherwise, the detected size
is the size of the whole image exactly if the image has no protected TLV area and its size fits in 32
bits. For any header bytes with the magic, the offset of the second read and the size computed from it
are the exact sums exactly if those fit in 32 bits. -/
theorem detected_size_exact_iff (b : Build) (ans : Answers) (s : Service)
    (hread : b.hasReadImage = true) (hexp : s.expectedSize = 0) (hmeasure : NoMeasure b ans) :
    (∀ image, WellFormed image → Serves ans.readImage image →
      ((∃ size, detectImageSize b ans 0 s = .ok size ∧ size.toNat = totalSize image) ↔
        protectSize image = 0 ∧ totalSize image < 2 ^ 32)) ∧
    (∀ header, ans.readImage 0 32 = .ok header → field header 0 4 = imageMagic →
      ∃ offset, (headerImageSizeRecorded ans.readImage).run [] =
          (detectImageSize b ans 0 s, [(0, 32), (offset, 4)]) ∧
        (offset.toNat = hdrSize header + imgSize header ↔ hdrSize header + imgSize header < 2 ^ 32) ∧
        ∀ tlv, ans.readImage offset 4 = .ok tlv →
          ∃ size, detectImageSize b ans 0 s = .ok size ∧
            (size.toNat = exactSize header tlv ↔ exactSize header tlv < 2 ^ 32)) := by
  rw [detectImageSize_header hexp hmeasure hread]
  refine ⟨fun image hwf hserves => wellFormed_exact_iff hwf hserves, fun header hheader hmagic => ?_⟩
  refine ⟨payloadEnd header, ?_, ?_, fun tlv htlv => ⟨headerSize header tlv, ?_, ?_⟩⟩
  · rw [headerImageSizeRecorded_magic hheader hmagic, headerImageSize_magic hheader hmagic]
  · rw [payloadEnd_toNat]
    exact mod_eq_self_iff (by decide)
  · rw [headerImageSize_magic hheader hmagic, htlv]
    rfl
  · rw [headerSize_toNat]
    exact mod_eq_self_iff (by decide)

/-- A backend that reads the image and knows nothing else of it. -/
def serving (image : List UInt8) : Answers where
  startClockSync := .ok ()
  getImageSize := .error .noData
  readImage offset size :=
    if offset.toNat + size ≤ image.length then .ok ((image.drop offset.toNat).take size)
    else .error .io
  powerLockGet := true

theorem serves_serving (image : List UInt8) : Serves (serving image).readImage image :=
  fun _ _ h => if_pos h

/-- A header of 32 bytes, a payload of four, a protected area and an empty TLV area. -/
def smallImage (protectedArea : List UInt8) : List UInt8 :=
  [0x3d, 0xb8, 0xf3, 0x96, 0, 0, 0, 0, 32, 0, UInt8.ofNat protectedArea.length, 0, 4, 0, 0, 0] ++
    List.replicate 16 0 ++ [1, 2, 3, 4] ++ protectedArea ++ [0x07, 0x69, 4, 0]

theorem detected_size_exact_small :
    ∃ size, detectImageSize fullBuild (serving (smallImage [])) 0 Service.init = .ok size ∧
      size.toNat = totalSize (smallImage []) :=
  ((detected_size_exact_iff fullBuild (serving (smallImage [])) Service.init rfl rfl
    (.inr (.inr ⟨_, rfl⟩))).1 (smallImage []) ⟨by decide, by decide, by decide, by decide, by decide,
      by decide⟩ (serves_serving _)).2 (by decide)

/-- With a protected area of four bytes the detected size is 36, and the image has 44. -/
theorem detected_size_short : ¬ ∀ (b : Build) (ans : Answers) (s : Service) (image : List UInt8),
    b.hasReadImage = true → s.expectedSize = 0 → NoMeasure b ans → WellFormed image →
    Serves ans.readImage image →
    ∃ size, detectImageSize b ans 0 s = .ok size ∧ size.toNat = totalSize image := by
  intro h
  obtain ⟨size, hok, hsize⟩ := h fullBuild (serving (smallImage [0x08, 0x69, 4, 0])) Service.init
    (smallImage [0x08, 0x69, 4, 0]) rfl rfl (.inr (.inr ⟨_, rfl⟩))
    ⟨by decide, by decide, by decide, by decide, by decide, by decide⟩ (serves_serving _)
  have h36 : detectImageSize fullBuild (serving (smallImage [0x08, 0x69, 4, 0])) 0 Service.init =
      .ok 36 := by rfl
  rw [h36, Except.ok.injEq] at hok
  rw [← hok] at hsize
  exact absurd hsize (by decide)

/-! ### The size of the current image -/

/-- The size of the transferred image can be told: it is set, reported or measured, or the image can be
read and has the magic. -/
def Determinable (b : Build) (ans : Answers) (reported expected : UInt32) : Prop :=
  expected ≠ 0 ∨ reported ≠ 0 ∨
    (b.ops.any (·.getImageSize) = true ∧ ∃ size, ans.getImageSize = .ok size ∧ size ≠ 0) ∨
    (b.hasReadImage = true ∧ ∃ header tlv, ans.readImage 0 32 = .ok header ∧
      field header 0 4 = imageMagic ∧ ans.readImage (payloadEnd header) 4 = .ok tlv)

theorem headerImageSize_ok_iff : (∃ size, headerImageSize read = .ok size) ↔
    ∃ header tlv, read 0 32 = .ok header ∧ field header 0 4 = imageMagic ∧
      read (payloadEnd header) 4 = .ok tlv := by
  constructor
  · rintro ⟨size, h⟩
    cases hheader : read 0 32 with
    | error e =>
      rw [headerImageSize_error hheader] at h
      cases h
    | ok header =>
      by_cases hmagic : field header 0 4 = imageMagic
      · rw [headerImageSize_magic hheader hmagic] at h
        cases htlv : read (payloadEnd header) 4 with
        | error e =>
          rw [htlv] at h
          cases h
        | ok tlv => exact ⟨header, tlv, rfl, hmagic, htlv⟩
      · rw [headerImageSize_noMagic hheader hmagic] at h
        cases h
  · rintro ⟨header, tlv, hheader, hmagic, htlv⟩
    refine ⟨headerSize header tlv, ?_⟩
    rw [headerImageSize_magic hheader hmagic, htlv]
    rfl

theorem detectImageSize_ok_iff {reported : UInt32} {s : Service} :
    (∃ size, detectImageSize b ans reported s = .ok size) ↔
      Determinable b ans reported s.expectedSize := by
  unfold detectImageSize Determinable
  rw [← headerImageSize_ok_iff]
  by_cases hexp : s.expectedSize = 0
  · by_cases hrep : reported = 0
    · simp only [hexp, hrep, ne_eq, not_true_eq_false, if_false, false_or]
      cases hop : b.ops.any (·.getImageSize) with
      | false =>
        cases b.hasReadImage <;> simp
      | true =>
        cases hm : ans.getImageSize with
        | error e => cases b.hasReadImage <;> simp
        | ok size =>
          by_cases hsize : size = 0
          · cases b.hasReadImage <;> simp [hsize]
          · simp [hsize]
    · simp [hexp, hrep]
  · simp [hexp]

/-- The size depends on nothing but the answers, the report and the expected size. -/
theorem detectImageSize_congr {reported : UInt32} {s₁ s₂ : Service}
    (h : s₁.expectedSize = s₂.expectedSize) :
    detectImageSize b ans reported s₁ = detectImageSize b ans reported s₂ := by
  unfold detectImageSize
  rw [h]

theorem setState_imageSize (power : Bool) (next : FState) (s : Service) :
    (setState b power next s).1.imageSize = s.imageSize := by
  unfold setState
  split
  · rfl
  · rfl

/-- What a successful TRANSFER_DONE leaves: the detected size, or the one that was there. -/
theorem transferDone_imageSize (reported : UInt32) (s : Service) :
    (handleEvent b ans (.transferDone true reported) s).1.imageSize =
      match detectImageSize b ans reported s with
      | .ok size => size
      | .error _ => s.imageSize := by
  simp only [handleEvent, handleTransferDone, if_true, setState_imageSize]
  cases detectImageSize b ans reported s with
  | ok size => rfl
  | error e => rfl

variable {s t s₁ s₂ t₁ t₂ : Sys}

/-- A handled event is the first locked section of its handler. -/
theorem step_event_svc {e : Event} (hstarted : s.svc.started = true)
    (ht : step b s (.event e ans) = some t) : t.svc = (handleEvent b ans e s.svc).1 := by
  cases step_transition ht with
  | ignored _ _ _ hnot =>
    rw [hstarted] at hnot
    cases hnot
  | handled => rfl

/-- **The size is the one of the current image.** Take two runs that end with the same successful
TRANSFER_DONE, with the same answers of the backend and the same expected size. They leave the same
`image_size`, and 0 if the size of this image cannot be determined, exactly if it can be determined or
`image_size` was 0 before in both. -/
theorem size_current_iff (b : Build) (ans : Answers) (reported : UInt32) (as₁ as₂ : List Act)
    (h₁ : run (step b) Sys.init as₁ = some s₁) (h₂ : run (step b) Sys.init as₂ = some s₂)
    (hstarted₁ : s₁.svc.started = true) (hstarted₂ : s₂.svc.started = true)
    (hexp : s₁.svc.expectedSize = s₂.svc.expectedSize)
    (ht₁ : run (step b) Sys.init (as₁ ++ [.event (.transferDone true reported) ans]) = some t₁)
    (ht₂ : run (step b) Sys.init (as₂ ++ [.event (.transferDone true reported) ans]) = some t₂) :
    (t₁.svc.imageSize = t₂.svc.imageSize ∧
      (¬ Determinable b ans reported s₁.svc.expectedSize →
        t₁.svc.imageSize = 0 ∧ t₂.svc.imageSize = 0)) ↔
    Determinable b ans reported s₁.svc.expectedSize ∨
      s₁.svc.imageSize = 0 ∧ s₂.svc.imageSize = 0 := by
  rw [run_concat h₁] at ht₁
  rw [run_concat h₂] at ht₂
  rw [step_event_svc hstarted₁ ht₁, step_event_svc hstarted₂ ht₂, transferDone_imageSize,
    transferDone_imageSize, ← detectImageSize_congr hexp, ← detectImageSize_ok_iff]
  cases hsize : detectImageSize b ans reported s₁.svc with
  | ok size => simp
  | error e =>
    simp only [reduceCtorEq, exists_false, not_false_eq_true, forall_const, false_or]
    constructor
    · exact fun h => h.2
    · rintro ⟨hzero₁, hzero₂⟩
      exact ⟨hzero₁.trans hzero₂.symm, hzero₁, hzero₂⟩

/-- A second image of 512 bytes and the first one of another run. -/
theorem size_current_reported : ∃ t₁ t₂,
    run (step fullBuild) Sys.init (firstTransfer ++ [.event (.transferDone true 512) goodAnswers]) =
      some t₁ ∧
    run (step fullBuild) Sys.init ([.start] ++ [.event (.transferDone true 512) goodAnswers]) =
      some t₂ ∧ t₁.svc.imageSize = t₂.svc.imageSize := by
  refine ⟨_, _, rfl, rfl, ?_⟩
  exact ((size_current_iff fullBuild goodAnswers 512 firstTransfer [.start] rfl rfl rfl rfl rfl rfl
    rfl).2 (.inl (.inr (.inl (by decide))))).1

/-- After an image of 512 bytes the next one, whose size nobody knows, has 512 bytes too; without the
first its size is 0. -/
theorem size_of_earlier_image : ¬ ∀ (b : Build) (ans : Answers) (reported : UInt32) (as₁ as₂ : List Act)
    (s₁ s₂ t₁ t₂ : Sys), run (step b) Sys.init as₁ = some s₁ → run (step b) Sys.init as₂ = some s₂ →
    s₁.svc.started = true → s₂.svc.started = true → s₁.svc.expectedSize = s₂.svc.expectedSize →
    run (step b) Sys.init (as₁ ++ [.event (.transferDone true reported) ans]) = some t₁ →
    run (step b) Sys.init (as₂ ++ [.event (.transferDone true reported) ans]) = some t₂ →
    t₁.svc.imageSize = t₂.svc.imageSize := by
  intro h
  have hsizes := h fullBuild (serving []) 0 firstTransfer [.start] _ _ _ _ rfl rfl rfl rfl rfl rfl rfl
  revert hsizes
  decide

end Rzi.Fuota.Size
