import Rzi.Fuota
import Rzi.ZephyrBackend
import Rzi.Lib.StreamFlash

/-!
# Installing the reconstructed image

`copy_image_to_slot` (`services/fuota/lorawan_fuota.c`) as a whole: the image is read chunk by chunk
from the backend and handed to Zephyr's `flash_img`. Left alone, the copying steps of the service are
this loop (`run_copyActs`). On the Zephyr backend both ends are the same partition:
`zephyr_fuota_read_image` reads `slot1_partition`, into which `flash_img` writes. There
`install_preserves_iff` says which images survive: a byte does unless its page was erased, for an
earlier block, before the byte's own chunk was read.
-/

namespace Rzi.Fuota
open StreamFlash

def chunkSize : Nat := applyChunk.toNat

section Copy
variable {σ : Type*}

/-- What `copy_image_to_slot` calls: the backend's `read_image` (`none` for NULL) and Zephyr's image
manager, on a state they share. -/
structure Installer (σ : Type*) where
  readImage : Option (UInt32 → Nat → σ → Except Err (List UInt8))
  imgInit : σ → Except Errno Unit × σ
  bufferedWrite : List UInt8 → Bool → σ → Except Errno Unit × σ
  requestUpgrade : σ → Except Errno Unit × σ

/-- The loop of `copy_image_to_slot`, and the upgrade request after it. -/
def copyLoop (ins : Installer σ) (read : UInt32 → Nat → σ → Except Err (List UInt8))
    (offset remaining : Nat) (s : σ) : Except Err Unit × σ :=
  if 0 < remaining then
    let request := min remaining chunkSize
    let flush := decide (remaining ≤ chunkSize)
    match read (UInt32.ofNat offset) request s with
    | .error e => (.error e, s)
    | .ok chunk =>
      match ins.bufferedWrite chunk flush s with
      | (.error e, s') => (.error (errFromErrno e), s')
      | (.ok (), s') => copyLoop ins read (offset + request) (remaining - request) s'
  else
    match ins.requestUpgrade s with
    | (.error e, s') => (.error (errFromErrno e), s')
    | (.ok (), s') => (.ok (), s')
termination_by remaining
decreasing_by
  have : 0 < chunkSize := by decide
  omega

def copyImageToSlot (ins : Installer σ) (imageSize : UInt32) (s : σ) : Except Err Unit × σ :=
  match ins.readImage with
  | none => (.error .notSupported, s)
  | some read =>
    match ins.imgInit s with
    | (.error e, s') => (.error (errFromErrno e), s')
    | (.ok (), s') => copyLoop ins read 0 imageSize.toNat s'

/-- No call fails that a copy of up to `size` bytes makes. -/
structure Succeeds (ins : Installer σ) (size : Nat) : Prop where
  readImage : ∃ read, ins.readImage = some read ∧
    ∀ offset n s, offset.toNat + n ≤ size → ∃ chunk, read offset n s = .ok chunk
  imgInit : ∀ s, (ins.imgInit s).1 = .ok ()
  bufferedWrite : ∀ chunk flush s, (ins.bufferedWrite chunk flush s).1 = .ok ()
  requestUpgrade : ∀ s, (ins.requestUpgrade s).1 = .ok ()

theorem Succeeds.copyLoop {ins : Installer σ} {read : UInt32 → Nat → σ → Except Err (List UInt8)}
    {size offset remaining : Nat} (h : Succeeds ins size) (hread : ins.readImage = some read)
    (hfits : offset + remaining ≤ size) (hsize : size < 2 ^ 32) (s : σ) :
    (Fuota.copyLoop ins read offset remaining s).1 = .ok () := by
  induction remaining using Nat.strongRecOn generalizing offset s with
  | ind remaining ih =>
    rw [Fuota.copyLoop]
    split
    · rename_i hpos
      have hoffset : (UInt32.ofNat offset).toNat = offset :=
        UInt32.toNat_ofNat_of_lt' (show offset < 2 ^ 32 by omega)
      obtain ⟨read', hread', hreads⟩ := h.readImage
      obtain rfl : read' = read := Option.some.inj (hread'.symm.trans hread)
      obtain ⟨chunk, hchunk⟩ := hreads (UInt32.ofNat offset) (min remaining chunkSize) s (by omega)
      have hwrite := h.bufferedWrite chunk (decide (remaining ≤ chunkSize)) s
      have hchunkSize : 0 < chunkSize := by decide
      simp only [hchunk]
      rcases hres : ins.bufferedWrite chunk (decide (remaining ≤ chunkSize)) s with ⟨e | ⟨⟩, s'⟩
      · rw [hres] at hwrite
        cases hwrite
      · exact ih _ (by omega) (by omega) s'
    · have hupgrade := h.requestUpgrade s
      rcases hres : ins.requestUpgrade s with ⟨e | ⟨⟩, s'⟩
      · rw [hres] at hupgrade
        cases hupgrade
      · rfl

/-- A copy none of whose calls fails returns 0. -/
theorem Succeeds.copyImageToSlot {ins : Installer σ} {imageSize : UInt32}
    (h : Succeeds ins imageSize.toNat) (s : σ) : (Fuota.copyImageToSlot ins imageSize s).1 = .ok () := by
  obtain ⟨read, hread, -⟩ := h.readImage
  have hinit := h.imgInit s
  unfold Fuota.copyImageToSlot
  rw [hread]
  rcases hres : ins.imgInit s with ⟨e | ⟨⟩, s'⟩
  · rw [hres] at hinit
    cases hinit
  · exact h.copyLoop hread (Nat.le_of_eq (Nat.zero_add _)) imageSize.toNat_lt s'

/-- The steps of the service that make up the loop: what a thread's copy is answered. -/
def copyActs (ins : Installer σ) (read : UInt32 → Nat → σ → Except Err (List UInt8)) (tid : Tid)
    (offset remaining : Nat) (s : σ) : List Act :=
  if 0 < remaining then
    let request := min remaining chunkSize
    let flush := decide (remaining ≤ chunkSize)
    match read (UInt32.ofNat offset) request s with
    | .error e => [.copyChunk tid (.error e) none]
    | .ok chunk =>
      match ins.bufferedWrite chunk flush s with
      | (.error e, _) => [.copyChunk tid (.ok ()) (some e)]
      | (.ok (), s') =>
        .copyChunk tid (.ok ()) none ::
          copyActs ins read tid (offset + request) (remaining - request) s'
  else
    match ins.requestUpgrade s with
    | (.error e, _) => [.requestUpgrade tid (some e)]
    | (.ok (), _) => [.requestUpgrade tid none]
termination_by remaining
decreasing_by
  have : 0 < chunkSize := by decide
  omega

/-- Where a thread is when its copy has returned. -/
def copyReturn : Except Err Unit → Applier
  | .ok () => .copied
  | .error e => .copyFailed e

theorem chunkRequest_ofNat {remaining : Nat} (h : remaining < 2 ^ 32) :
    chunkRequest (UInt32.ofNat remaining) = UInt32.ofNat (min remaining chunkSize) := by
  rw [← UInt32.toNat_inj]
  have hsize : min remaining chunkSize < 2 ^ 32 := by omega
  rw [UInt32.toNat_ofNat_of_lt' hsize, chunkRequest, UInt32.toNat_min, UInt32.toNat_ofNat_of_lt' h,
    chunkSize]

theorem Sys.at_appliers (sys : Sys) (tid : Tid) (pc : Applier) : (sys.at tid pc).appliers tid = pc :=
  Function.update_self ..

theorem Sys.at_at (sys : Sys) (tid : Tid) (pc pc' : Applier) :
    (sys.at tid pc).at tid pc' = sys.at tid pc' := by
  simp [Sys.at]

/-- Where one iteration of the loop leaves the thread. -/
def chunkReturn (offset remaining : Nat) : Except Err Unit → Option Errno → Applier
  | .error e, _ => .copyFailed e
  | .ok (), some e => .copyFailed (errFromErrno e)
  | .ok (), none => .copying (UInt32.ofNat (offset + min remaining chunkSize))
      (UInt32.ofNat (remaining - min remaining chunkSize))

theorem step_copyChunk {b : Build} {sys : Sys} {tid : Tid} {offset remaining : Nat}
    (hrem : 0 < remaining) (hlt : remaining < 2 ^ 32) (read : Except Err Unit)
    (write : Option Errno) :
    step b (sys.at tid (.copying (UInt32.ofNat offset) (UInt32.ofNat remaining)))
        (.copyChunk tid read write) =
      some (sys.at tid (chunkReturn offset remaining read write)) := by
  have hne : UInt32.ofNat remaining ≠ 0 := by
    intro h0
    have h := congrArg UInt32.toNat h0
    rw [UInt32.toNat_ofNat_of_lt' hlt] at h
    exact hrem.ne' h
  rcases read with e | ⟨⟩
  · simp only [step, Sys.at_appliers, if_neg hne, Sys.at_at, chunkReturn]
  · cases write with
    | some e => simp only [step, Sys.at_appliers, if_neg hne, Sys.at_at, chunkReturn]
    | none =>
      simp only [step, Sys.at_appliers, if_neg hne, Sys.at_at, chunkReturn, chunkRequest_ofNat hlt,
        UInt32.ofNat_add, UInt32.ofNat_sub (Nat.min_le_left remaining chunkSize)]

/-- Undisturbed, the steps of a thread's copy do what `copyLoop` does. -/
theorem run_copyActs {b : Build} {sys : Sys} {tid : Tid} {ins : Installer σ}
    {read : UInt32 → Nat → σ → Except Err (List UInt8)} {offset remaining : Nat} {s : σ}
    (hlt : remaining < 2 ^ 32) :
    Lts.run (step b) (sys.at tid (.copying (UInt32.ofNat offset) (UInt32.ofNat remaining)))
        (copyActs ins read tid offset remaining s) =
      some (sys.at tid (copyReturn (copyLoop ins read offset remaining s).1)) := by
  induction remaining using Nat.strongRecOn generalizing offset s with
  | ind remaining ih =>
    unfold copyActs copyLoop
    by_cases hrem : 0 < remaining
    · simp only [if_pos hrem]
      cases read (UInt32.ofNat offset) (min remaining chunkSize) s with
      | error e =>
        rw [Lts.run_cons, step_copyChunk hrem hlt]
        rfl
      | ok chunk =>
        rcases hwrite : ins.bufferedWrite chunk (decide (remaining ≤ chunkSize)) s with ⟨e | ⟨⟩, s'⟩
        · simp only [hwrite]
          rw [Lts.run_cons, step_copyChunk hrem hlt]
          rfl
        · have hpos : 0 < chunkSize := by decide
          simp only [hwrite]
          rw [Lts.run_cons, step_copyChunk hrem hlt]
          exact ih _ (by omega) (by omega)
    · obtain rfl : remaining = 0 := by omega
      simp only [if_neg hrem]
      rcases ins.requestUpgrade s with ⟨e | ⟨⟩, s'⟩
      · simp [Lts.run, step, Sys.at_appliers, Sys.at_at, copyReturn]
      · simp [Lts.run, step, Sys.at_appliers, Sys.at_at, copyReturn]

end Copy

/-! ### The Zephyr backend -/

/-- The upload slot: its flash, the options of `flash_img`, and the return code of every call that
touches it (`none` for 0), by offset where the call has one. -/
structure Slot where
  flash : Flash
  /-- `CONFIG_IMG_ERASE_PROGRESSIVELY` -/
  progressive : Bool
  /-- `CONFIG_IMG_BLOCK_BUF_SIZE` -/
  blockBufSize : Nat
  blockBufSize_pos : 0 < blockBufSize
  faSize : Nat
  openRc : Option Errno
  readRc : UInt32 → Option Errno
  initRc : Option Errno
  writeRc : Nat → Option Errno
  upgradeRc : Option Errno

def ofRc {σ : Type*} (rc : Option Errno) (s : σ) : Except Errno Unit × σ :=
  match rc with
  | some e => (.error e, s)
  | none => (.ok (), s)

/-- The bytes of the slot from an offset on, as `flash_area_read` returns them. -/
def slotBytes (st : Stream) (offset size : Nat) : List UInt8 :=
  (List.range' offset size).map st.contents

def zephyrFuotaReadImage (slot : Slot) (offset : UInt32) (size : Nat) (st : Stream) :
    Except Err (List UInt8) :=
  match slot.openRc with
  | some e => .error (Zephyr.zephyrErr e)
  | none =>
    if offset.toNat + size > slot.faSize then .error .invalid
    else
      match slot.readRc offset with
      | some e => .error (Zephyr.zephyrErr e)
      | none => .ok (slotBytes st offset.toNat size)

/-- The Zephyr backend with `flash_img`, which streams into the slot from its start. -/
def zephyrInstaller (slot : Slot) : Installer Stream where
  readImage := some (zephyrFuotaReadImage slot)
  imgInit st := ofRc slot.initRc { st with written := 0, buf := [] }
  bufferedWrite chunk flush st :=
    StreamFlash.write slot.flash slot.progressive slot.blockBufSize slot.writeRc chunk flush st
  requestUpgrade st := ofRc slot.upgradeRc st

variable {slot : Slot} {orig : Nat → UInt8} {offset remaining : Nat} {st st' : Stream}

theorem slotBytes_inj {n : Nat} :
    slotBytes st' 0 n = slotBytes st 0 n ↔ ∀ i < n, st'.contents i = st.contents i := by
  rw [slotBytes, slotBytes, List.map_inj_left]
  constructor
  · intro h i hi
    exact h i (List.mem_range'_1.2 ⟨Nat.zero_le i, by omega⟩)
  · intro h i hi
    have := (List.mem_range'_1.1 hi).2
    exact h i (by omega)

theorem zephyrFuotaReadImage_eq {o : UInt32} {size : Nat} {chunk : List UInt8}
    (h : zephyrFuotaReadImage slot o size st = .ok chunk) : chunk = slotBytes st o.toNat size := by
  unfold zephyrFuotaReadImage at h
  split at h
  · cases h
  · split at h
    · cases h
    · split at h
      · cases h
      · exact (Except.ok.inj h).symm

/-- What the copy writes for the byte at `i`: what the slot held when the byte's chunk was read. At
that time the whole blocks before the chunk had been written. -/
def copiedByte (slot : Slot) (orig : Nat → UInt8) (i : Nat) : UInt8 :=
  beyond slot.flash slot.progressive orig
    (whole slot.blockBufSize (i / chunkSize * chunkSize)) i

theorem copiedByte_of_not_progressive (h : slot.progressive = false) (i : Nat) :
    copiedByte slot orig i = orig i := by
  rw [copiedByte, beyond, h, Bool.false_and, if_neg Bool.false_ne_true]

theorem slotBytes_of_holds {size : Nat} (hdvd : chunkSize ∣ offset) (hsize : size ≤ chunkSize)
    (h : Holds slot.flash slot.progressive orig (copiedByte slot orig)
      (whole slot.blockBufSize offset) offset st) :
    slotBytes st offset size = (List.range' offset size).map (copiedByte slot orig) := by
  refine List.map_congr_left fun i hi => ?_
  obtain ⟨hlo, hhi⟩ := List.mem_range'_1.1 hi
  have hstart : i / chunkSize * chunkSize = offset := by
    obtain ⟨c, rfl⟩ := hdvd
    have hdiv : i / chunkSize = c :=
      Nat.div_eq_of_lt_le (by rw [Nat.mul_comm]; exact hlo) (by rw [Nat.succ_mul, Nat.mul_comm c]; omega)
    rw [hdiv, Nat.mul_comm]
  have hwhole : whole slot.blockBufSize offset ≤ offset := whole_le
  rw [h.contents, if_neg (by omega), copiedByte, hstart]

theorem copyLoop_step {read : UInt32 → Nat → Stream → Except Err (List UInt8)}
    {ins : Installer Stream} (hrem : 0 < remaining)
    (hok : copyLoop ins read offset remaining st = (.ok (), st')) :
    ∃ chunk st₁, read (UInt32.ofNat offset) (min remaining chunkSize) st = .ok chunk ∧
      ins.bufferedWrite chunk (decide (remaining ≤ chunkSize)) st = (.ok (), st₁) ∧
      copyLoop ins read (offset + min remaining chunkSize) (remaining - min remaining chunkSize) st₁
        = (.ok (), st') := by
  rw [copyLoop, if_pos hrem] at hok
  simp only at hok
  split at hok
  · cases hok
  · rename_i chunk hread
    split at hok
    · cases hok
    · rename_i st₁ hwrite
      exact ⟨chunk, st₁, hread, hwrite, hok⟩

theorem copyLoop_done {read : UInt32 → Nat → Stream → Except Err (List UInt8)}
    (hok : copyLoop (zephyrInstaller slot) read offset 0 st = (.ok (), st')) : st' = st := by
  rw [copyLoop, if_neg (Nat.lt_irrefl 0)] at hok
  cases hrc : slot.upgradeRc <;> simp [zephyrInstaller, ofRc, hrc] at hok
  exact hok.symm

/-- A loop that ends well has written every byte as it was when its chunk was read. -/
theorem copyLoop_holds (hdvd : chunkSize ∣ offset) (hrem : 0 < remaining)
    (hlt : offset + remaining < 2 ^ 32)
    (h : Holds slot.flash slot.progressive orig (copiedByte slot orig)
      (whole slot.blockBufSize offset) offset st)
    (hok : copyLoop (zephyrInstaller slot) (zephyrFuotaReadImage slot) offset remaining st
      = (.ok (), st')) :
    Holds slot.flash slot.progressive orig (copiedByte slot orig)
      (offset + remaining) (offset + remaining) st' := by
  induction remaining using Nat.strongRecOn generalizing offset st with
  | ind remaining ih =>
    obtain ⟨chunk, st₁, hread, hwrite, hrest⟩ := copyLoop_step hrem hok
    have hoffset : (UInt32.ofNat offset).toNat = offset :=
      UInt32.toNat_ofNat_of_lt' (show offset < 2 ^ 32 by omega)
    have hchunk := zephyrFuotaReadImage_eq hread
    rw [hoffset, slotBytes_of_holds hdvd (Nat.min_le_right _ _) h] at hchunk
    subst hchunk
    have hsame : slot.progressive = false → ∀ k < offset + min remaining chunkSize,
        copiedByte slot orig k = orig k := fun hp k _ => copiedByte_of_not_progressive hp k
    by_cases hlast : remaining ≤ chunkSize
    · -- the last chunk is flushed
      rw [decide_eq_true hlast] at hwrite
      have h₁ := h.write_flush slot.blockBufSize_pos hsame hwrite
      rw [Nat.min_eq_left hlast] at h₁ hrest
      rw [Nat.sub_self] at hrest
      rw [copyLoop_done hrest]
      exact h₁
    · rw [decide_eq_false hlast] at hwrite
      have h₁ := h.write slot.blockBufSize_pos hsame hwrite
      rw [Nat.min_eq_right (by omega)] at h₁ hrest
      have hpos : 0 < chunkSize := by decide
      have h₂ := ih (remaining - chunkSize) (by omega) (Nat.dvd_add hdvd (Nat.dvd_refl _)) (by omega)
        (by omega) h₁ hrest
      have hsum : offset + chunkSize + (remaining - chunkSize) = offset + remaining := by omega
      rwa [hsum] at h₂

theorem holds_init : Holds slot.flash slot.progressive st.contents (copiedByte slot st.contents)
    (whole slot.blockBufSize 0) 0 { st with written := 0, buf := [] } := by
  have hwhole : whole slot.blockBufSize 0 = 0 := Nat.le_zero.1 whole_le
  rw [hwhole]
  refine ⟨rfl, Nat.le_refl 0, rfl, fun k => ?_⟩
  rw [if_neg (Nat.not_lt_zero k), beyond, Flash.reached]
  simp

/-- A copy that returns 0 leaves every byte of the image as it was when its chunk was read. -/
theorem contents_of_copy {imageSize : UInt32}
    (hok : copyImageToSlot (zephyrInstaller slot) imageSize st = (.ok (), st')) {i : Nat}
    (hi : i < imageSize.toNat) : st'.contents i = copiedByte slot st.contents i := by
  have hloop : copyLoop (zephyrInstaller slot) (zephyrFuotaReadImage slot) 0 imageSize.toNat
      { st with written := 0, buf := [] } = (.ok (), st') := by
    cases hrc : slot.initRc with
    | some e => simp [copyImageToSlot, zephyrInstaller, ofRc, hrc] at hok
    | none =>
      rw [← hok, copyImageToSlot]
      simp only [zephyrInstaller, ofRc, hrc]
  have hlt := imageSize.toNat_lt
  have h := copyLoop_holds (Nat.dvd_zero chunkSize) (by omega) (by omega) holds_init hloop
  rw [h.contents, if_pos (by omega)]

/-- Every byte of the image is still there when its chunk is read: no page is erased before its first
write, or the byte is not in a page that an earlier block reached, or erasing leaves it as it is. -/
def IntactWhenRead (slot : Slot) (image : List UInt8) : Prop :=
  slot.progressive = false ∨
    ∀ (i : Nat) (hi : i < image.length),
      (∃ j < whole slot.blockBufSize (i / chunkSize * chunkSize),
        slot.flash.page j = slot.flash.page i) →
      image[i] = slot.flash.erased

theorem copiedByte_eq_iff (i : Nat) :
    copiedByte slot orig i = orig i ↔
      slot.progressive = false ∨
        ((∃ j < whole slot.blockBufSize (i / chunkSize * chunkSize),
          slot.flash.page j = slot.flash.page i) → orig i = slot.flash.erased) := by
  have hreached : slot.flash.reached 0 (whole slot.blockBufSize (i / chunkSize * chunkSize)) i = true ↔
      ∃ j < whole slot.blockBufSize (i / chunkSize * chunkSize),
        slot.flash.page j = slot.flash.page i := by
    rw [reached_iff]
    simp only [Nat.zero_le, true_and]
  rw [← hreached, copiedByte, beyond]
  cases slot.progressive
  · simp
  · rw [Bool.true_and]
    split
    · rename_i hr
      simp only [hr, Bool.true_eq_false, false_or, forall_const]
      exact eq_comm
    · rename_i hr
      simp [hr]

/-- **Installing an image on the Zephyr backend.** When `copy_image_to_slot` returns 0, the slot
holds the image if and only if every byte of it was still there when it was read. -/
theorem install_preserves_iff (slot : Slot) (imageSize : UInt32) (image : List UInt8)
    (st st' : Stream) (himage : slotBytes st 0 imageSize.toNat = image)
    (hok : copyImageToSlot (zephyrInstaller slot) imageSize st = (.ok (), st')) :
    slotBytes st' 0 imageSize.toNat = image ↔ IntactWhenRead slot image := by
  subst himage
  have hbytes : slotBytes st' 0 imageSize.toNat = slotBytes st 0 imageSize.toNat ↔
      ∀ i < imageSize.toNat, copiedByte slot st.contents i = st.contents i := by
    rw [slotBytes_inj]
    refine forall₂_congr fun i hi => ?_
    rw [contents_of_copy hok hi]
  rw [hbytes]
  have hget (i : Nat) (hi : i < (slotBytes st 0 imageSize.toNat).length) :
      (slotBytes st 0 imageSize.toNat)[i] = st.contents i := by
    simp [slotBytes]
  have hlen : (slotBytes st 0 imageSize.toNat).length = imageSize.toNat := by simp [slotBytes]
  constructor
  · intro h
    cases hp : slot.progressive with
    | false => exact .inl hp
    | true =>
      refine .inr fun i hi hpage => ?_
      rw [hget]
      rw [hlen] at hi
      rcases (copiedByte_eq_iff i).1 (h i hi) with hfalse | herased
      · rw [hp] at hfalse
        cases hfalse
      · exact herased hpage
  · rintro (hp | h) i hi
    · exact copiedByte_of_not_progressive hp i
    · refine (copiedByte_eq_iff i).2 (.inr fun hpage => ?_)
      rw [← hget i (by omega)]
      exact h i (by omega) hpage

/-- A slot on NOR flash with 4096-byte pages and `flash_img`'s default 512-byte blocks, on which no
call fails. -/
def norSlot : Slot where
  flash :=
    { page := (· / 4096)
      erased := 0xff
      prog := fun old new => old &&& new
      prog_erased := fun d => by rw [UInt8.and_comm]; exact UInt8.and_neg_one
      prog_same := fun _ => UInt8.and_self }
  progressive := true
  blockBufSize := 512
  blockBufSize_pos := by decide
  faSize := 0x40000
  openRc := none
  readRc := fun _ => none
  initRc := none
  writeRc := fun _ => none
  upgradeRc := none

theorem norSlot_copy_ok (imageSize : UInt32) (hfits : imageSize.toNat ≤ 0x40000) (st : Stream) :
    ∃ st', copyImageToSlot (zephyrInstaller norSlot) imageSize st = (.ok (), st') := by
  have hsucceeds : Succeeds (zephyrInstaller norSlot) imageSize.toNat := by
    refine ⟨⟨_, rfl, fun offset n st h => ?_⟩, fun st => rfl, fun chunk flush st => ?_, fun st => rfl⟩
    · have hin : ¬ offset.toNat + n > norSlot.faSize := by
        show ¬ 0x40000 < offset.toNat + n
        omega
      exact ⟨_, if_neg hin⟩
    · obtain ⟨st₁, hst₁⟩ := @write_ok Errno norSlot.flash norSlot.progressive norSlot.blockBufSize chunk
        flush st
      exact congrArg Prod.fst hst₁
  exact ⟨_, Prod.ext (hsucceeds.copyImageToSlot st) rfl⟩

def zeros : Stream := ⟨fun _ => 0, 0, []⟩

/-- With progressive erase, the third chunk of an image of zeros is read back as erased flash. -/
theorem image_overwritten_by_its_copy : ∃ st',
    copyImageToSlot (zephyrInstaller norSlot) 768 zeros = (.ok (), st') ∧
    slotBytes st' 0 768 ≠ slotBytes zeros 0 768 := by
  obtain ⟨st', hok⟩ := norSlot_copy_ok 768 (by decide) zeros
  refine ⟨st', hok, fun heq => ?_⟩
  have hbyte := contents_of_copy hok (show 512 < UInt32.toNat 768 by decide)
  have herased : copiedByte norSlot zeros.contents 512 = 0xff := by
    have hreached : norSlot.flash.reached 0 512 512 = true := reached_iff.2 ⟨0, by decide⟩
    show (if true && norSlot.flash.reached 0 512 512 then (0xff : UInt8) else 0) = 0xff
    rw [hreached]
    rfl
  have hsame := slotBytes_inj.1 heq 512 (by decide)
  rw [hbyte, herased] at hsame
  cases hsame

/-- An image of up to one block is read whole before anything is erased. -/
theorem short_image_survives : ∃ st',
    copyImageToSlot (zephyrInstaller norSlot) 300 zeros = (.ok (), st') ∧
    slotBytes st' 0 300 = List.replicate 300 0 := by
  obtain ⟨st', hok⟩ := norSlot_copy_ok 300 (by decide) zeros
  refine ⟨st', hok, ?_⟩
  have himage : slotBytes zeros 0 (UInt32.toNat 300) = List.replicate 300 0 := by
    simp [slotBytes, zeros]
  refine (install_preserves_iff norSlot 300 _ _ st' himage hok).2 (.inr fun i hi hpage => ?_)
  obtain ⟨j, hj, -⟩ := hpage
  rw [List.length_replicate] at hi
  have hwhole : whole norSlot.blockBufSize (i / chunkSize * chunkSize) = 0 := by
    show i / 256 * 256 / 512 * 512 = 0
    omega
  omega

end Rzi.Fuota
