import Mathlib.Data.List.Basic

/-!
# Buffered streaming into paged flash

A stream writer collects bytes in a buffer and programs one block of flash whenever the buffer is
full. When it erases progressively, it erases each page right before the first block that reaches
into it. `Flash` says what programming does to a byte: over an erased byte it leaves the new byte,
and over an equal byte nothing changes.

`Holds D w o st`: the stream has been given the bytes `D 0, …, D (o - 1)` and has programmed the
first `w` of them. It fixes the whole state: the rest is in the buffer, and beyond `w` flash is as it
was, except that the pages reached so far are erased. Writing keeps it, with `w` the whole blocks
(`Holds.write`) or, after a flush, everything (`Holds.write_flush`).
-/

namespace StreamFlash

structure Flash where
  page : Nat → Nat
  erased : UInt8
  prog : UInt8 → UInt8 → UInt8
  prog_erased : ∀ d, prog erased d = d
  prog_same : ∀ d, prog d d = d

structure Stream where
  contents : Nat → UInt8
  written : Nat
  buf : List UInt8

/-- The page of `k` has a byte between `lo` and `hi`. -/
def Flash.reached (f : Flash) (lo hi k : Nat) : Bool :=
  (List.range' lo (hi - lo)).any fun j => f.page j == f.page k

section Write
variable {ε : Type*} (f : Flash) (progressive : Bool) (bufSize : Nat) (fault : Nat → Option ε)

def writeBlock (st : Stream) : Stream :=
  let hi := st.written + st.buf.length
  let fresh k :=
    if progressive && f.reached st.written hi k && !f.reached 0 st.written k then f.erased
    else st.contents k
  { contents := fun k =>
      if st.written ≤ k ∧ k < hi then f.prog (fresh k) (st.buf.getD (k - st.written) f.erased)
      else fresh k
    written := hi
    buf := [] }

/-- Program what the buffer holds; `fault` is the error of the block at an offset. -/
def sync (st : Stream) : Except ε Unit × Stream :=
  if st.buf = [] then (.ok (), st)
  else
    match fault st.written with
    | some e => (.error e, st)
    | none => (.ok (), writeBlock f progressive st)

def push (d : UInt8) (st : Stream) : Except ε Unit × Stream :=
  if st.buf.length + 1 < bufSize then (.ok (), { st with buf := st.buf ++ [d] })
  else sync f progressive fault { st with buf := st.buf ++ [d] }

/-- Take a byte string, and program the rest of the buffer if `flush`. -/
def write : List UInt8 → Bool → Stream → Except ε Unit × Stream
  | [], flush, st => if flush then sync f progressive fault st else (.ok (), st)
  | d :: ds, flush, st =>
    match push f progressive bufSize fault d st with
    | (.ok (), st') => write ds flush st'
    | (.error e, st') => (.error e, st')

end Write

variable {ε : Type*} {f : Flash} {progressive : Bool} {bufSize : Nat} {fault : Nat → Option ε}
  {orig D : Nat → UInt8} {o w : Nat} {st st' : Stream}

theorem reached_iff {lo hi k : Nat} :
    f.reached lo hi k = true ↔ ∃ j, lo ≤ j ∧ j < hi ∧ f.page j = f.page k := by
  simp only [Flash.reached, List.any_eq_true, List.mem_range'_1, beq_iff_eq]
  constructor
  · rintro ⟨j, ⟨h₁, h₂⟩, hp⟩
    exact ⟨j, h₁, by omega, hp⟩
  · rintro ⟨j, h₁, h₂, hp⟩
    exact ⟨j, ⟨h₁, by omega⟩, hp⟩

/-- Flash beyond the first `w` bytes, once these are written. -/
def beyond (f : Flash) (progressive : Bool) (orig : Nat → UInt8) (w k : Nat) : UInt8 :=
  if progressive && f.reached 0 w k then f.erased else orig k

/-- The stream was given `D 0, …, D (o - 1)` and has programmed the first `w` of them. -/
structure Holds (f : Flash) (progressive : Bool) (orig D : Nat → UInt8) (w o : Nat) (st : Stream) :
    Prop where
  written : st.written = w
  le : w ≤ o
  buf : st.buf = (List.range' w (o - w)).map D
  contents : ∀ k, st.contents k = if k < w then D k else beyond f progressive orig w k

theorem Holds.length_buf (h : Holds f progressive orig D w o st) : st.buf.length = o - w := by
  rw [h.buf]
  simp

/-- Erasing for the block `[w, o)` turns what lies beyond `w` into what lies beyond `o`. -/
theorem beyond_erase {k : Nat} (hw : w ≤ o) :
    (if progressive && f.reached w o k && !f.reached 0 w k then f.erased
      else beyond f progressive orig w k) = beyond f progressive orig o k := by
  have hsplit : f.reached 0 o k = (f.reached 0 w k || f.reached w o k) := by
    rw [Bool.eq_iff_iff, Bool.or_eq_true, reached_iff, reached_iff, reached_iff]
    constructor
    · rintro ⟨j, -, hj, hp⟩
      rcases Nat.lt_or_ge j w with hlt | hge
      · exact .inl ⟨j, Nat.zero_le j, hlt, hp⟩
      · exact .inr ⟨j, hge, hj, hp⟩
    · rintro (⟨j, -, hj, hp⟩ | ⟨j, -, hj, hp⟩)
      · exact ⟨j, Nat.zero_le j, by omega, hp⟩
      · exact ⟨j, Nat.zero_le j, hj, hp⟩
  unfold beyond
  rw [hsplit]
  cases progressive <;> cases f.reached w o k <;> cases f.reached 0 w k <;> rfl

theorem prog_block {k : Nat} (hsame : progressive = false → D k = orig k) (hko : k < o) :
    f.prog (beyond f progressive orig o k) (D k) = D k := by
  cases progressive
  · rw [beyond, Bool.false_and, if_neg Bool.false_ne_true, hsame rfl]
    exact f.prog_same _
  · have hreached : f.reached 0 o k = true := reached_iff.2 ⟨k, Nat.zero_le k, hko, rfl⟩
    rw [beyond, hreached, Bool.true_and, if_pos rfl]
    exact f.prog_erased _

theorem Holds.writeBlock (h : Holds f progressive orig D w o st)
    (hsame : progressive = false → ∀ k < o, D k = orig k) :
    Holds f progressive orig D o o (writeBlock f progressive st) := by
  have hle := h.le
  have hhi : w + st.buf.length = o := by
    rw [h.length_buf]
    omega
  refine ⟨by rw [← hhi, ← h.written]; rfl, Nat.le_refl o, by simp [StreamFlash.writeBlock], fun k => ?_⟩
  simp only [StreamFlash.writeBlock, h.written, hhi, h.contents]
  rcases Nat.lt_or_ge k w with hlt | hge
  · -- already written: its page was reached before, so it is not erased again
    have hreached : f.reached 0 w k = true := reached_iff.2 ⟨k, Nat.zero_le k, hlt, rfl⟩
    have hkw : ¬ w ≤ k := by omega
    have hko : k < o := by omega
    simp [hreached, hlt, hkw, hko]
  · simp only [if_neg (Nat.not_lt.2 hge), beyond_erase hle, hge, true_and]
    by_cases hko : k < o
    · have hget : st.buf.getD (k - w) f.erased = D k := by
        rw [h.buf, List.getD_eq_getElem?_getD, List.getElem?_map, List.getElem?_range' (by omega)]
        simp [Nat.add_sub_cancel' hge]
      rw [if_pos hko, if_pos hko, hget]
      exact prog_block (fun hp => hsame hp k hko) hko
    · rw [if_neg hko, if_neg hko]

theorem Holds.sync (h : Holds f progressive orig D w o st)
    (hsame : progressive = false → ∀ k < o, D k = orig k)
    (hok : StreamFlash.sync f progressive fault st = (.ok (), st')) :
    Holds f progressive orig D o o st' := by
  unfold StreamFlash.sync at hok
  split at hok
  · rename_i hbuf
    have hlen := h.length_buf
    have hle := h.le
    obtain rfl : w = o := by
      rw [hbuf, List.length_nil] at hlen
      omega
    obtain ⟨-, rfl⟩ := Prod.mk.inj hok
    exact h
  · split at hok
    · cases hok
    · obtain ⟨-, rfl⟩ := Prod.mk.inj hok
      exact h.writeBlock hsame

theorem Holds.buffer (h : Holds f progressive orig D w o st) :
    Holds f progressive orig D w (o + 1) { st with buf := st.buf ++ [D o] } := by
  have hle := h.le
  refine ⟨h.written, by omega, ?_, h.contents⟩
  have hsplit : o + 1 - w = o - w + 1 := by omega
  have hlast : w + (o - w) = o := by omega
  show st.buf ++ [D o] = _
  rw [h.buf, hsplit, List.range'_concat, List.map_append, Nat.one_mul, hlast]
  rfl

/-- The part of the first `o` bytes that is made of whole blocks. -/
def whole (bufSize o : Nat) : Nat := o / bufSize * bufSize

theorem whole_le : whole bufSize o ≤ o := Nat.div_mul_le_self o bufSize

theorem sub_whole : o - whole bufSize o = o % bufSize := by
  have := Nat.div_add_mod o bufSize
  rw [whole, Nat.mul_comm]
  omega

theorem whole_succ_of_lt (h : o % bufSize + 1 < bufSize) :
    whole bufSize (o + 1) = whole bufSize o := by
  unfold whole
  have hmod : (o + 1) % bufSize = o % bufSize + 1 := by
    rw [Nat.add_mod, Nat.mod_eq_of_lt (a := 1) (by omega), Nat.mod_eq_of_lt h]
  have h₁ := Nat.div_add_mod o bufSize
  have h₂ := Nat.div_add_mod (o + 1) bufSize
  rw [Nat.mul_comm] at h₁ h₂
  omega

theorem whole_succ_of_full (h : o % bufSize + 1 = bufSize) :
    whole bufSize (o + 1) = o + 1 := by
  have hdvd : bufSize ∣ o + 1 := by
    have h₁ := Nat.div_add_mod o bufSize
    refine ⟨o / bufSize + 1, ?_⟩
    rw [Nat.mul_add]
    omega
  exact Nat.div_mul_cancel hdvd

theorem Holds.push (hpos : 0 < bufSize) (h : Holds f progressive orig D (whole bufSize o) o st)
    (hsame : progressive = false → ∀ k ≤ o, D k = orig k)
    (hok : StreamFlash.push f progressive bufSize fault (D o) st = (.ok (), st')) :
    Holds f progressive orig D (whole bufSize (o + 1)) (o + 1) st' := by
  have hlen : st.buf.length = o % bufSize := by rw [h.length_buf, sub_whole]
  have hmod := Nat.mod_lt o hpos
  unfold StreamFlash.push at hok
  split at hok
  · obtain ⟨-, rfl⟩ := Prod.mk.inj hok
    rw [whole_succ_of_lt (by omega)]
    exact h.buffer
  · rw [whole_succ_of_full (by omega)]
    exact h.buffer.sync (fun hp k hk => hsame hp k (by omega)) hok

/-- A byte string, without a flush: after it, again only whole blocks are programmed. -/
theorem Holds.write (hpos : 0 < bufSize) {len : Nat}
    (h : Holds f progressive orig D (whole bufSize o) o st)
    (hsame : progressive = false → ∀ k < o + len, D k = orig k)
    (hok : StreamFlash.write f progressive bufSize fault ((List.range' o len).map D) false st
      = (.ok (), st')) :
    Holds f progressive orig D (whole bufSize (o + len)) (o + len) st' := by
  induction len generalizing o st with
  | zero =>
    obtain ⟨-, rfl⟩ := Prod.mk.inj hok
    exact h
  | succ len ih =>
    rw [List.range'_succ, List.map_cons, StreamFlash.write] at hok
    split at hok
    · rename_i st₁ hpush
      have h₁ := h.push hpos (fun hp k hk => hsame hp k (by omega)) hpush
      have h₂ := ih h₁ (fun hp k hk => hsame hp k (by omega)) hok
      rwa [Nat.add_right_comm] at h₂
    · cases hok

theorem write_flush (ds : List UInt8) (st : Stream) :
    write f progressive bufSize fault ds true st =
      match write f progressive bufSize fault ds false st with
      | (.ok (), st') => sync f progressive fault st'
      | (.error e, st') => (.error e, st') := by
  induction ds generalizing st with
  | nil => rfl
  | cons d ds ih =>
    rw [write, write]
    split
    · exact ih _
    · rfl

theorem Holds.write_flush (hpos : 0 < bufSize) {len : Nat}
    (h : Holds f progressive orig D (whole bufSize o) o st)
    (hsame : progressive = false → ∀ k < o + len, D k = orig k)
    (hok : StreamFlash.write f progressive bufSize fault ((List.range' o len).map D) true st
      = (.ok (), st')) :
    Holds f progressive orig D (o + len) (o + len) st' := by
  rw [StreamFlash.write_flush] at hok
  split at hok
  · rename_i st₁ hwrite
    exact (h.write hpos hsame hwrite).sync hsame hok
  · cases hok

/-! ### Writes that meet no fault succeed -/

theorem sync_ok (st : Stream) : ∃ st', sync f progressive (fun _ => (none : Option ε)) st = (.ok (), st') := by
  unfold sync
  split
  · exact ⟨st, rfl⟩
  · exact ⟨_, rfl⟩

theorem write_ok (ds : List UInt8) (flush : Bool) (st : Stream) :
    ∃ st', write f progressive bufSize (fun _ => (none : Option ε)) ds flush st = (.ok (), st') := by
  induction ds generalizing st with
  | nil =>
    cases flush
    · exact ⟨st, rfl⟩
    · exact sync_ok st
  | cons d ds ih =>
    have hpush : ∃ st₁, push f progressive bufSize (fun _ => (none : Option ε)) d st
        = (.ok (), st₁) := by
      unfold push
      split
      · exact ⟨_, rfl⟩
      · exact sync_ok _
    obtain ⟨st₁, hpush⟩ := hpush
    rw [write, hpush]
    exact ih st₁

end StreamFlash
