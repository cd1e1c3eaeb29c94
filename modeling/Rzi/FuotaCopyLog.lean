import Rzi.FuotaCopy

/-!
# What the copy loop writes

`copy_image_to_slot` with its calls of `flash_img_buffered_write` and `boot_request_upgrade` put on
record. From a source whose contents stay the same, whatever reads and writes fail, the chunks written
are a prefix of the image, and the upgrade is requested exactly after a copy of all of it
(`copy_recorded`).
-/

namespace Rzi.Fuota
variable {σ : Type*}

/-- A call of `flash_img_buffered_write`, with its result. -/
structure WriteCall where
  chunk : List UInt8
  flush : Bool
  rc : Except Errno Unit

/-- The calls of one copy in their order. -/
structure CopyLog where
  writes : List WriteCall
  upgrades : List (Except Errno Unit)

def CopyLog.empty : CopyLog := ⟨[], []⟩

/-- The bytes passed to `flash_img_buffered_write`. -/
def CopyLog.bytes (log : CopyLog) : List UInt8 := log.writes.flatMap (·.chunk)

/-- The same calls, with a record of them beside the state. -/
def recording (ins : Installer σ) : Installer (σ × CopyLog) where
  readImage := ins.readImage.map fun read offset size s => read offset size s.1
  imgInit s := ((ins.imgInit s.1).1, (ins.imgInit s.1).2, s.2)
  bufferedWrite chunk flush s :=
    let (rc, s') := ins.bufferedWrite chunk flush s.1
    (rc, s', { s.2 with writes := s.2.writes ++ [⟨chunk, flush, rc⟩] })
  requestUpgrade s :=
    let (rc, s') := ins.requestUpgrade s.1
    (rc, s', { s.2 with upgrades := s.2.upgrades ++ [rc] })

/-- The bytes of the image from an offset on. -/
def imageBytes (image : Nat → UInt8) (offset size : Nat) : List UInt8 :=
  (List.range' offset size).map image

/-- Every read that succeeds reads the image. -/
def ReadsFrom (image : Nat → UInt8) (read : UInt32 → Nat → σ → Except Err (List UInt8)) : Prop :=
  ∀ offset size s chunk, read offset size s = .ok chunk → chunk = imageBytes image offset.toNat size

/-! ### The loop -/

theorem imageBytes_add (image : Nat → UInt8) (offset m n : Nat) :
    imageBytes image offset (m + n) = imageBytes image offset m ++ imageBytes image (offset + m) n := by
  unfold imageBytes
  rw [← List.map_append, List.range'_append_1]

/-- What a run of the loop adds to the record: it stops with an error before it has written all of the
image, or it writes all of it and requests the upgrade. -/
inductive Copied (image : Nat → UInt8) (offset remaining : Nat) :
    Except Err Unit → List WriteCall → List (Except Errno Unit) → Prop
  | stopped (e : Err) (writes : List WriteCall)
      (hbytes : writes.flatMap (·.chunk) <+: imageBytes image offset remaining)
      (hincomplete : ¬ (writes.flatMap (·.chunk) = imageBytes image offset remaining ∧
        ∀ w ∈ writes, w.rc = .ok ()))
      (hcount : writes.length ≤ (remaining + (chunkSize - 1)) / chunkSize) :
      Copied image offset remaining (.error e) writes []
  | complete (rc : Except Err Unit) (upgrade : Except Errno Unit) (writes : List WriteCall)
      (hbytes : writes.flatMap (·.chunk) = imageBytes image offset remaining)
      (hok : ∀ w ∈ writes, w.rc = .ok ())
      (hflush : writes.map (·.flush) = List.replicate (writes.length - 1) false ++
        if 0 < remaining then [true] else [])
      (hcount : writes.length = (remaining + (chunkSize - 1)) / chunkSize)
      (hrc : rc = .ok () ↔ upgrade = .ok ()) : Copied image offset remaining rc writes [upgrade]

section Copied
variable {image : Nat → UInt8} {offset remaining : Nat} {rc : Except Err Unit}
  {writes : List WriteCall} {upgrades : List (Except Errno Unit)}

theorem imageBytes_ne_nil (hpos : 0 < remaining) : imageBytes image offset remaining ≠ [] := by
  intro h
  have hlen := congrArg List.length h
  simp only [imageBytes, List.length_map, List.length_range', List.length_nil] at hlen
  omega

theorem chunkSize_eq : chunkSize = 256 := rfl

/-- The image from an offset on starts with the next chunk. -/
theorem imageBytes_chunk (image : Nat → UInt8) (offset remaining : Nat) :
    imageBytes image offset remaining = imageBytes image offset (min remaining chunkSize) ++
      imageBytes image (offset + min remaining chunkSize) (remaining - min remaining chunkSize) := by
  rw [← imageBytes_add]
  congr 1
  omega

theorem Copied.readFailed (hpos : 0 < remaining) (e : Err) :
    Copied image offset remaining (.error e) [] [] := by
  refine .stopped e [] List.nil_prefix ?_ (Nat.zero_le _)
  rintro ⟨hbytes, -⟩
  exact imageBytes_ne_nil hpos hbytes.symm

theorem Copied.writeFailed (hpos : 0 < remaining) (e : Errno) (flush : Bool) :
    Copied image offset remaining (.error (errFromErrno e))
      [⟨imageBytes image offset (min remaining chunkSize), flush, .error e⟩] [] := by
  refine .stopped _ _ ?_ ?_ ?_
  · rw [imageBytes_chunk image offset remaining, List.flatMap_singleton]
    exact List.prefix_append _ _
  · rintro ⟨-, hok⟩
    cases hok _ List.mem_cons_self
  · rw [chunkSize_eq, List.length_singleton]
    omega

/-- After a chunk that was written the rest is copied. -/
theorem Copied.chunk (hpos : 0 < remaining)
    (h : Copied image (offset + min remaining chunkSize) (remaining - min remaining chunkSize)
      rc writes upgrades) :
    Copied image offset remaining rc
      (⟨imageBytes image offset (min remaining chunkSize), decide (remaining ≤ chunkSize), .ok ()⟩ ::
        writes) upgrades := by
  have hsplit := imageBytes_chunk image offset remaining
  cases h with
  | stopped e _ hbytes hincomplete hcount =>
    refine .stopped e _ ?_ ?_ ?_
    · rw [List.flatMap_cons, hsplit]
      exact (List.prefix_append_right_inj _).2 hbytes
    · rintro ⟨hall, hok⟩
      rw [List.flatMap_cons, hsplit, List.append_cancel_left_eq] at hall
      exact hincomplete ⟨hall, fun w hw => hok w (List.mem_cons_of_mem _ hw)⟩
    · rw [chunkSize_eq] at hcount ⊢
      rw [List.length_cons]
      omega
  | complete _ upgrade _ hbytes hok hflush hcount hrc =>
    refine .complete rc upgrade _ ?_ ?_ ?_ ?_ hrc
    · rw [List.flatMap_cons, hsplit, hbytes]
    · intro w hw
      rcases List.mem_cons.1 hw with rfl | hw
      · rfl
      · exact hok w hw
    · rw [List.map_cons, hflush, List.length_cons, if_pos hpos]
      by_cases hlast : remaining ≤ chunkSize
      · -- the last chunk
        have hzero : remaining - min remaining chunkSize = 0 := by omega
        have hnone : writes.length = 0 := by
          rw [hcount, hzero, chunkSize_eq]
        rw [hzero, hnone, decide_eq_true hlast]
        rfl
      · have hmore : 0 < remaining - min remaining chunkSize := by omega
        have hlen : writes.length - 1 + 1 = writes.length + 1 - 1 := by
          rw [chunkSize_eq] at hcount hmore
          omega
        rw [if_pos hmore, decide_eq_false hlast, ← hlen, List.replicate_succ, List.cons_append]
    · rw [chunkSize_eq] at hcount ⊢
      rw [List.length_cons, hcount]
      omega

theorem Copied.upgraded {upgrade : Except Errno Unit} (hrc : rc = .ok () ↔ upgrade = .ok ()) :
    Copied image offset 0 rc [] [upgrade] := by
  refine .complete rc upgrade [] rfl (fun w hw => (by cases hw)) rfl rfl hrc

end Copied

theorem copyLoop_recording {ins : Installer σ} {image : Nat → UInt8}
    {read : UInt32 → Nat → σ → Except Err (List UInt8)} (hread : ReadsFrom image read)
    (offset remaining : Nat) (hlt : offset + remaining < 2 ^ 32) (s : σ) (log : CopyLog) :
    ∃ writes upgrades,
      copyLoop (recording ins) (fun o n s => read o n s.1) offset remaining (s, log) =
        ((copyLoop ins read offset remaining s).1, (copyLoop ins read offset remaining s).2,
          ⟨log.writes ++ writes, log.upgrades ++ upgrades⟩) ∧
      Copied image offset remaining (copyLoop ins read offset remaining s).1 writes upgrades := by
  induction remaining using Nat.strongRecOn generalizing offset s log with
  | ind remaining ih =>
    rw [copyLoop, copyLoop]
    by_cases hpos : 0 < remaining
    · simp only [if_pos hpos]
      cases hchunk : read (UInt32.ofNat offset) (min remaining chunkSize) s with
      | error e =>
        refine ⟨[], [], ?_, .readFailed hpos e⟩
        simp only [List.append_nil]
      | ok chunk =>
        have hoffset : (UInt32.ofNat offset).toNat = offset :=
          UInt32.toNat_ofNat_of_lt' (show offset < 2 ^ 32 by omega)
        have hbytes := hread _ _ _ _ hchunk
        rw [hoffset] at hbytes
        subst hbytes
        simp only [recording]
        rcases hwrite : ins.bufferedWrite (imageBytes image offset (min remaining chunkSize))
          (decide (remaining ≤ chunkSize)) s with ⟨e | ⟨⟩, s'⟩
        · simp only [hwrite]
          refine ⟨_, [], ?_, .writeFailed hpos e (decide (remaining ≤ chunkSize))⟩
          simp only [List.append_nil]
        · have hsize : 0 < chunkSize := by decide
          simp only [hwrite]
          obtain ⟨writes, upgrades, hrest, hcopied⟩ := ih (remaining - min remaining chunkSize)
            (by omega) (offset + min remaining chunkSize) (by omega) s'
            { log with writes := log.writes ++ [⟨imageBytes image offset (min remaining chunkSize),
              decide (remaining ≤ chunkSize), .ok ()⟩] }
          refine ⟨_, upgrades, ?_, hcopied.chunk hpos⟩
          rw [List.append_assoc, List.singleton_append] at hrest
          exact hrest
    · obtain rfl : remaining = 0 := by omega
      simp only [if_neg hpos, recording]
      rcases hupgrade : ins.requestUpgrade s with ⟨e | ⟨⟩, s'⟩
      · refine ⟨[], [.error e], ?_, .upgraded ?_⟩
        · simp only [hupgrade, List.append_nil]
        · exact ⟨fun h => (by cases h), fun h => (by cases h)⟩
      · refine ⟨[], [.ok ()], ?_, .upgraded ⟨fun _ => rfl, fun _ => rfl⟩⟩
        simp only [hupgrade, List.append_nil]

/-- The whole copy, from the checks before the loop on. -/
theorem copyImageToSlot_recording {ins : Installer σ} {image : Nat → UInt8}
    (hsource : ∀ read, ins.readImage = some read → ReadsFrom image read) (imageSize : UInt32)
    (hsize : 0 < imageSize.toNat) (s : σ) :
    ∃ log, copyImageToSlot (recording ins) imageSize (s, .empty) =
        ((copyImageToSlot ins imageSize s).1, (copyImageToSlot ins imageSize s).2, log) ∧
      Copied image 0 imageSize.toNat (copyImageToSlot ins imageSize s).1 log.writes log.upgrades := by
  have hlt : 0 + imageSize.toNat < 2 ^ 32 := by
    rw [Nat.zero_add]
    exact imageSize.toNat_lt
  unfold copyImageToSlot
  cases hread : ins.readImage with
  | none =>
    refine ⟨.empty, ?_, .readFailed hsize _⟩
    simp only [recording, hread, Option.map_none]
  | some read =>
    rcases hinit : ins.imgInit s with ⟨e | ⟨⟩, s'⟩
    · refine ⟨.empty, ?_, .readFailed hsize _⟩
      simp only [recording, hread, hinit, Option.map_some]
    · obtain ⟨writes, upgrades, hrun, hcopied⟩ :=
        copyLoop_recording (hsource read hread) 0 imageSize.toNat hlt s' .empty
      refine ⟨⟨writes, upgrades⟩, ?_, hcopied⟩
      have hinit' : (recording ins).imgInit (s, .empty) = (.ok (), s', .empty) := by
        simp only [recording, hinit]
      have hread' : (recording ins).readImage = some fun o n s => read o n s.1 := by
        simp only [recording, hread, Option.map_some]
      simp only [hinit', hread']
      exact hrun

/-- **The copy loop.** The copy of an image of `imageSize` bytes returns after at most one write for
each started chunk. What it has passed to `flash_img_buffered_write` is a prefix of the image; the
upgrade is requested, once, exactly if every byte of the image was written without an error; the copy
returns 0 exactly if it was requested and that succeeded, as it is where no call fails; and then the whole
image was written, one write for each started chunk, flushed with the last and with no other. Recording
the calls changes nothing. -/
theorem copy_recorded (ins : Installer σ) (image : Nat → UInt8)
    (hsource : ∀ read, ins.readImage = some read → ReadsFrom image read)
    (imageSize : UInt32) (hsize : 0 < imageSize.toNat) (s : σ) :
    ∃ log, copyImageToSlot (recording ins) imageSize (s, .empty) =
        ((copyImageToSlot ins imageSize s).1, (copyImageToSlot ins imageSize s).2, log) ∧
      log.writes.length ≤ (imageSize.toNat + (chunkSize - 1)) / chunkSize ∧
      log.bytes <+: imageBytes image 0 imageSize.toNat ∧
      log.upgrades.length ≤ 1 ∧
      (log.upgrades ≠ [] ↔
        log.bytes = imageBytes image 0 imageSize.toNat ∧ ∀ w ∈ log.writes, w.rc = .ok ()) ∧
      ((copyImageToSlot ins imageSize s).1 = .ok () ↔ log.upgrades = [.ok ()]) ∧
      ((copyImageToSlot ins imageSize s).1 = .ok () →
        log.bytes = imageBytes image 0 imageSize.toNat ∧
        log.writes.length = (imageSize.toNat + (chunkSize - 1)) / chunkSize ∧
        log.writes.map (·.flush) = List.replicate (log.writes.length - 1) false ++ [true]) ∧
      (Succeeds ins imageSize.toNat → (copyImageToSlot ins imageSize s).1 = .ok ()) := by
  obtain ⟨⟨writes, upgrades⟩, hrun, hcopied⟩ := copyImageToSlot_recording hsource imageSize hsize s
  refine ⟨⟨writes, upgrades⟩, hrun, ?_⟩
  have hsucceeds : Succeeds ins imageSize.toNat → (copyImageToSlot ins imageSize s).1 = .ok () :=
    fun h => h.copyImageToSlot s
  generalize (copyImageToSlot ins imageSize s).1 = rc at hcopied hsucceeds ⊢
  cases hcopied with
  | stopped e _ hbytes hincomplete hcount =>
    refine ⟨hcount, hbytes, Nat.zero_le 1, ?_, ?_, fun h => (by cases h), hsucceeds⟩
    · exact ⟨fun h => absurd rfl h, fun h => absurd h hincomplete⟩
    · exact ⟨fun h => (by cases h), fun h => (by cases h)⟩
  | complete _ upgrade _ hbytes hok hflush hcount hrc =>
    rw [if_pos hsize] at hflush
    refine ⟨Nat.le_of_eq hcount, ⟨[], (List.append_nil _).trans hbytes⟩, Nat.le_refl 1, ?_, ?_,
      fun _ => ⟨hbytes, hcount, hflush⟩, hsucceeds⟩
    · exact ⟨fun _ => ⟨hbytes, hok⟩, fun _ => List.cons_ne_nil _ _⟩
    · rw [hrc, List.cons.injEq]
      exact ⟨fun h => ⟨h, rfl⟩, fun h => h.1⟩

/-- An installer that reads an image of zeros and writes without errors. -/
def zeroInstaller : Installer Unit where
  readImage := some fun _ size _ => .ok (List.replicate size 0)
  imgInit s := (.ok (), s)
  bufferedWrite _ _ s := (.ok (), s)
  requestUpgrade s := (.ok (), s)

/-- Two full chunks: two writes without an error, the second one flushed, and one upgrade. -/
theorem copy_recorded_zeros : ∃ log,
    copyImageToSlot (recording zeroInstaller) 512 ((), .empty) = (.ok (), (), log) ∧
      log.bytes = List.replicate 512 0 ∧ log.writes.map (·.flush) = [false, true] ∧
      (∀ w ∈ log.writes, w.rc = .ok ()) ∧ log.upgrades = [.ok ()] := by
  have hsource : ∀ read, zeroInstaller.readImage = some read → ReadsFrom (fun _ => 0) read := by
    intro read hread offset size s chunk hchunk
    cases hread
    cases hchunk
    rw [imageBytes, List.map_const', List.length_range']
  have hsucceeds : Succeeds zeroInstaller (UInt32.toNat 512) :=
    ⟨⟨_, rfl, fun _ _ _ _ => ⟨_, rfl⟩⟩, fun _ => rfl, fun _ _ _ => rfl, fun _ => rfl⟩
  obtain ⟨log, hrun, -, -, -, hupgrades, hrc, hall, hreturns⟩ :=
    copy_recorded zeroInstaller (fun _ => 0) hsource 512 (by decide) ()
  have hok := hreturns hsucceeds
  obtain ⟨hbytes, hlength, hflush⟩ := hall hok
  have hone := hrc.1 hok
  refine ⟨log, ?_, ?_, ?_, (hupgrades.1 (by rw [hone]; simp)).2, hone⟩
  · rw [hrun, hok]
  · rw [hbytes, imageBytes, List.map_const', List.length_range']
    rfl
  · rw [hflush, hlength]
    rfl

end Rzi.Fuota
