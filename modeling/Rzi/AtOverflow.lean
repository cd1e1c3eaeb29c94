import Rzi.AtReceive

/-!
# Lost input and the lines that are executed

A line is intact when no dropped byte was received between two of its characters, and when no
dropped byte belongs to the line that its terminator ends. The overflow flag is tested before the
ring is drained, so a reset forgets what was fed before the loss but not what the ring still holds,
and it comes before the bytes that follow the loss or not at all.

`pending` is the parser as it will be once everything queued has been fed: nothing but a receive
call changes it while the thread works through the queue, so every line that the queue will execute
is already determined when its last byte is stored. That makes the store after a loss the only
critical step, and `Resumes` the condition on it.
-/

namespace Rzi.At
open Lts

def Rx.queue {α : Type*} (s : Rx α) : List α :=
  match s.pc with
  | .draining buffer => buffer ++ s.ring
  | _ => s.ring

def Rx.start {α : Type*} (s : Rx α) : Parser α :=
  match s.pc with
  | .waiting => if s.rxOverflow then .reset else s.parser
  | .resetting => .reset
  | .draining _ => s.parser

/-- The parser after the queue, and the lines the queue will execute. -/
def Rx.pending (lineMax : Nat) (s : Rx Tok) : Parser Tok × List (List Tok × Tok) :=
  feedAll Tok.byte lineMax s.start s.queue

/-- No dropped byte belongs to the line that `c` is part of. -/
def Separated (s : Rx Tok) (c : Tok) : Prop :=
  ∀ d ∈ s.lost, isTerminator d.byte = false → d.index < c.index →
    ∃ e ∈ s.received, isTerminator e.byte = true ∧ d.index < e.index ∧ e.index < c.index

/-- The line has no dropped byte between its characters and none before its terminator. -/
structure Intact (s : Rx Tok) (l : List Tok × Tok) : Prop where
  whole : ∀ i ∈ l.1, ∀ j ∈ l.1, ∀ d ∈ s.lost, ¬ (i.index < d.index ∧ d.index < j.index)
  ended : Separated s l.2

/-- When a byte is stored right after a loss, it or the last dropped byte ends the line that bytes
are missing from, and the bytes stored before the loss leave no open line that could still be
executed. -/
def Resumes (ringSize lineMax : Nat) (s : Rx Tok) : Act UInt8 → Prop
  | .receive data => s.gap = true → data ≠ [] → s.ring.length < ringSize →
      ((s.received.getLast?.any fun z => isTerminator z.byte) = true ∨ data.head?.any isTerminator = true) ∧
      ((s.pending lineMax).1.lineOverflow = true ∨ (s.pending lineMax).1.line = [])
  | _ => True

instance (s : Rx Tok) (a : Act UInt8) : Decidable (Resumes ringSize lineMax s a) :=
  match a with
  | .receive _ => inferInstanceAs (Decidable (_ → _))
  | .test | .reset | .get | .feed => .isTrue trivial

/-- Every dropped byte that belongs to a line has been followed by the terminator of that line. -/
def Closed (s : Rx Tok) : Prop :=
  ∀ d ∈ s.lost, isTerminator d.byte = false →
    ∃ e ∈ s.received, isTerminator e.byte = true ∧ d.index < e.index

/-- The character was stored right after a loss. -/
def Follows (s : Rx Tok) (c : Tok) : Prop := ∃ d ∈ s.lost, d.index + 1 = c.index

structure RxInv (lineMax : Nat) (s : Rx Tok) : Prop where
  index : ∀ (i : Nat) (r : Tok), s.received[i]? = some r → r.index = i
  lost_received : ∀ d ∈ s.lost, d ∈ s.received
  gap_lost : s.gap = true → ∃ d ∈ s.lost, d.index + 1 = s.received.length
  queue_lt : ∀ c ∈ s.queue, c.index < s.received.length
  sorted : s.queue.Pairwise (·.index < ·.index)
  /-- a terminator lies between a loss and each later byte, but for the one that follows the loss -/
  separated : ∀ c ∈ s.queue, Separated s c ∨ Follows s c
  /-- a waiting thread with the flag clear has drained everything that preceded a loss -/
  calm : s.pc = .waiting → s.rxOverflow = false → ∀ c ∈ s.ring, ∀ d ∈ s.lost, d.index < c.index
  line_lt : (s.pending lineMax).1.Holds (·.index < s.received.length)
  line_after : s.gap = false →
    (s.pending lineMax).1.Holds fun c => ∀ d ∈ s.lost, d.index < c.index
  closed : s.gap = false → Closed s
  lines : ∀ l ∈ s.lines ++ (s.pending lineMax).2,
    Intact s l ∧ (∀ i ∈ l.1, i.index < s.received.length) ∧ l.2.index < s.received.length

variable {ringSize lineMax : Nat} {s t : Rx Tok}

theorem rxInv_init : RxInv lineMax Rx.init where
  index _ _ h := by cases h
  lost_received _ h := by cases h
  gap_lost h := by cases h
  queue_lt _ h := by cases h
  sorted := .nil
  separated _ h := by cases h
  calm _ _ _ h := by cases h
  line_lt := Parser.holds_reset
  line_after _ := Parser.holds_reset
  closed _ _ h := by cases h
  lines _ h := by cases h

theorem RxInv.getElem_index (h : RxInv lineMax s) {r : Tok} (hr : r ∈ s.received) :
    s.received[r.index]? = some r := by
  obtain ⟨i, hi⟩ := List.mem_iff_getElem?.1 hr
  rwa [h.index i r hi]

theorem RxInv.received_lt (h : RxInv lineMax s) {r : Tok} (hr : r ∈ s.received) :
    r.index < s.received.length :=
  (List.getElem?_eq_some_iff.1 (h.getElem_index hr)).1

theorem RxInv.lost_lt (h : RxInv lineMax s) {d : Tok} (hd : d ∈ s.lost) :
    d.index < s.received.length :=
  h.received_lt (h.lost_received d hd)

/-! ### The thread's own steps -/

/-- A step that only moves the thread along: what the queue will execute stays the same, and what
it leaves in the parser stays the same or is cleared. -/
theorem RxInv.move (h : RxInv lineMax s) (hrec : t.received = s.received) (hlost : t.lost = s.lost)
    (hgap : t.gap = s.gap) (hq : t.queue.Sublist s.queue)
    (hcalm : t.pc = .waiting → t.rxOverflow = false → t.ring = [])
    (hp : (t.pending lineMax).1 = (s.pending lineMax).1 ∨ (t.pending lineMax).1 = .reset)
    (hl : t.lines ++ (t.pending lineMax).2 = s.lines ++ (s.pending lineMax).2) :
    RxInv lineMax t := by
  have hsep : ∀ c, Separated s c → Separated t c := fun c hc => by
    unfold Separated
    rw [hlost, hrec]
    exact hc
  constructor
  · rw [hrec]; exact h.index
  · rw [hrec, hlost]; exact h.lost_received
  · rw [hgap, hlost, hrec]; exact h.gap_lost
  · rw [hrec]; exact fun c hc => h.queue_lt c (hq.subset hc)
  · exact h.sorted.sublist hq
  · intro c hc
    refine (h.separated c (hq.subset hc)).imp (hsep c) ?_
    unfold Follows
    rw [hlost]
    exact id
  · intro hpc ho c hc
    rw [hcalm hpc ho] at hc
    cases hc
  · rcases hp with hp | hp <;> rw [hp]
    · rw [hrec]; exact h.line_lt
    · exact Parser.holds_reset
  · rcases hp with hp | hp <;> rw [hp]
    · rw [hgap, hlost]; exact h.line_after
    · exact fun _ => Parser.holds_reset
  · unfold Closed
    rw [hgap, hlost, hrec]
    exact h.closed
  · rw [hl, hrec]
    intro l hmem
    obtain ⟨hi, hlt⟩ := h.lines l hmem
    refine ⟨⟨?_, hsep _ hi.ended⟩, hlt⟩
    rw [hlost]
    exact hi.whole

theorem RxInv.test (h : RxInv lineMax s) (hpc : s.pc = .waiting) :
    RxInv lineMax (if s.rxOverflow then { s with rxOverflow := false, pc := .resetting }
      else { s with pc := .draining [] }) := by
  split_ifs with ho
  · refine h.move rfl rfl rfl ?_ nofun (.inl ?_) ?_
    all_goals simp [Rx.pending, Rx.queue, Rx.start, hpc, ho]
  · refine h.move rfl rfl rfl ?_ nofun (.inl ?_) ?_
    all_goals simp [Rx.pending, Rx.queue, Rx.start, hpc, ho]

theorem RxInv.reset (h : RxInv lineMax s) (hpc : s.pc = .resetting) :
    RxInv lineMax { s with parser := .reset, pc := .draining [] } := by
  refine h.move rfl rfl rfl ?_ nofun (.inl ?_) ?_
  all_goals simp [Rx.pending, Rx.queue, Rx.start, hpc]

theorem RxInv.get (h : RxInv lineMax s) (hpc : s.pc = .draining []) :
    RxInv lineMax (if s.ring = [] then { s with pc := .waiting }
      else { s with ring := s.ring.drop 64, pc := .draining (s.ring.take 64) }) := by
  split_ifs with hr
  · refine h.move rfl rfl rfl (by simp [Rx.queue, hpc]) (fun _ _ => hr) ?_ ?_
    · cases ho : s.rxOverflow
      · exact .inl (by simp [Rx.pending, Rx.queue, Rx.start, hpc])
      · exact .inr (by simp [Rx.pending, Rx.queue, Rx.start, hr])
    · simp [Rx.pending, Rx.queue, hpc, hr]
  · refine h.move rfl rfl rfl ?_ nofun (.inl ?_) ?_
    all_goals simp [Rx.pending, Rx.queue, Rx.start, hpc]

theorem RxInv.feed (h : RxInv lineMax s) {c : Tok} {buffer : List Tok}
    (hpc : s.pc = .draining (c :: buffer)) :
    RxInv lineMax { s with
      parser := (At.feed Tok.byte lineMax s.parser c).1
      lines := s.lines ++ executed Tok.byte lineMax s.parser c
      pc := .draining buffer } := by
  refine h.move rfl rfl rfl ?_ nofun (.inl ?_) ?_
  · simp only [Rx.queue, hpc, List.cons_append]
    exact List.sublist_cons_self c _
  · simp [Rx.pending, Rx.queue, Rx.start, hpc, feedAll_cons]
  · simp [Rx.pending, Rx.queue, Rx.start, hpc, feedAll_cons]

/-! ### A receive call -/

theorem take_tagFrom (n k : Nat) (data : List UInt8) :
    (tagFrom n data).take k = tagFrom n (data.take k) := by
  induction data generalizing n k with
  | nil => simp [tagFrom]
  | cons b data ih => cases k <;> simp [tagFrom, ih]

theorem drop_tagFrom (n k : Nat) (data : List UInt8) :
    (tagFrom n data).drop k = tagFrom (n + k) (data.drop k) := by
  induction data generalizing n k with
  | nil => simp [tagFrom]
  | cons b data ih =>
    cases k with
    | zero => rfl
    | succ k => simpa [tagFrom, Nat.add_assoc, Nat.add_comm 1 k] using ih (n + 1) k

theorem index_tagFrom {n i : Nat} {data : List UInt8} {r : Tok} (h : (tagFrom n data)[i]? = some r) :
    r.index = n + i := by
  induction data generalizing n i with
  | nil => cases h
  | cons b data ih =>
    cases i with
    | zero => cases h; rfl
    | succ i =>
      have := ih (n := n + 1) (i := i) h
      omega

theorem mem_tagFrom {n : Nat} {data : List UInt8} {r : Tok} (h : r ∈ tagFrom n data) :
    n ≤ r.index ∧ r.index < n + data.length := by
  obtain ⟨i, hi⟩ := List.mem_iff_getElem?.1 h
  have hlt := (List.getElem?_eq_some_iff.1 hi).1
  rw [length_tagFrom] at hlt
  have := index_tagFrom hi
  omega

theorem head?_tagFrom {n : Nat} {data : List UInt8} {r : Tok} (h : r ∈ (tagFrom n data).head?) :
    r.byte ∈ data.head? := by
  cases data with
  | nil => cases h
  | cons b data =>
    cases h
    rfl

/-- A nonempty chunk, cut into the part that was stored and the part that was lost. -/
structure Received (s t : Rx Tok) (stored dropped : List Tok) : Prop where
  nonempty : dropped = [] → stored ≠ []
  ring : t.ring = s.ring ++ stored
  received : t.received = s.received ++ (stored ++ dropped)
  lost : t.lost = s.lost ++ dropped
  overflow : t.rxOverflow = (s.rxOverflow || !dropped.isEmpty)
  gap : t.gap = !dropped.isEmpty
  pc : t.pc = s.pc
  parser : t.parser = s.parser
  lines : t.lines = s.lines
  stored_index : ∀ c ∈ stored, s.received.length ≤ c.index ∧
    c.index < s.received.length + stored.length
  dropped_index : ∀ d ∈ dropped, s.received.length + stored.length ≤ d.index
  new_index : ∀ (i : Nat) (r : Tok), (stored ++ dropped)[i]? = some r →
    r.index = s.received.length + i

theorem receive_spec (ringSize : Nat) (s : Rx Tok) {data : List UInt8} (hne : data ≠ []) :
    ∃ stored dropped, Received s (receive ringSize (tagFrom s.received.length data) s) stored dropped ∧
      (stored ≠ [] → s.ring.length < ringSize) ∧ ∀ x ∈ stored.head?, x.byte ∈ data.head? := by
  set n := s.received.length with hn
  set w := min (ringSize - s.ring.length) data.length with hw
  have htake := take_tagFrom n w data
  have hdrop := drop_tagFrom n w data
  have hcut : tagFrom n data = tagFrom n (data.take w) ++ tagFrom (n + w) (data.drop w) := by
    rw [← htake, ← hdrop, List.take_append_drop]
  have hlen : (tagFrom n (data.take w)).length = w := by
    rw [length_tagFrom, List.length_take]
    omega
  have hlost : (w != data.length) = !(tagFrom (n + w) (data.drop w)).isEmpty := by
    have hz : tagFrom (n + w) (data.drop w) = [] ↔ w = data.length := by
      rw [tagFrom_eq_nil, List.drop_eq_nil_iff]
      omega
    by_cases hwd : w = data.length
    · rw [hz.2 hwd, hwd]
      simp
    · rw [List.isEmpty_eq_false_iff.2 (mt hz.1 hwd)]
      simpa using hwd
  have hnil : tagFrom n data ≠ [] := mt tagFrom_eq_nil.1 hne
  refine ⟨tagFrom n (data.take w), tagFrom (n + w) (data.drop w), ?_, ?_, ?_⟩
  · constructor
    · intro hd hs
      rw [hd, hs] at hcut
      exact hnil hcut
    · simp only [receive, length_tagFrom, ← hw, htake]
    · simp only [receive, hcut]
    · simp only [receive, length_tagFrom, ← hw, hdrop]
    · simp only [receive, length_tagFrom, ← hw, hlost]
    · simp only [receive, length_tagFrom, ← hw, hlost, if_neg hnil]
    · rfl
    · rfl
    · rfl
    · intro c hc
      rw [length_tagFrom]
      exact mem_tagFrom hc
    · intro d hd
      rw [hlen]
      exact (mem_tagFrom hd).1
    · intro i r hi
      rw [← hcut] at hi
      exact index_tagFrom hi
  · intro hst
    rw [← List.length_pos_iff, hlen] at hst
    omega
  · intro x hx
    rw [← htake, List.head?_take] at hx
    split at hx
    · cases hx
    · exact head?_tagFrom hx

theorem RxInv.resume_closed (h : RxInv lineMax s) {data : List UInt8} (hne : data ≠ [])
    (hroom : s.ring.length < ringSize) (hG : Resumes ringSize lineMax s (.receive data)) :
    Closed s ∨ data.head?.any isTerminator = true ∧ ∃ d ∈ s.lost, d.index + 1 = s.received.length := by
  cases hgap : s.gap
  · exact .inl (h.closed hgap)
  rcases (hG hgap hne hroom).1 with hlast | hfirst
  · refine .inl fun d hd hterm => ?_
    obtain ⟨z, hz, hzt⟩ := (Option.any_eq_true _ _).1 hlast
    have hzr := List.mem_of_getLast? hz
    refine ⟨z, hzr, hzt, ?_⟩
    -- the last byte received has the last position, and `d` is not it
    have hzi : z.index = s.received.length - 1 :=
      h.index _ z (by rw [← List.getLast?_eq_getElem?]; exact hz)
    have hdz : d.index ≠ z.index := by
      intro heq
      have hsame : some d = some z := by
        rw [← h.getElem_index (h.lost_received d hd), ← h.getElem_index hzr, heq]
      cases hsame
      rw [hzt] at hterm
      cases hterm
    have := h.lost_lt hd
    omega
  · exact .inr ⟨hfirst, h.gap_lost hgap⟩

theorem RxInv.resume_after (h : RxInv lineMax s) {data : List UInt8} (hne : data ≠ [])
    (hroom : s.ring.length < ringSize) (hG : Resumes ringSize lineMax s (.receive data)) :
    (s.pending lineMax).1.Holds fun c => ∀ d ∈ s.lost, d.index < c.index := by
  cases hgap : s.gap
  · exact h.line_after hgap
  intro ho c hc
  rcases (hG hgap hne hroom).2 with hover | hline
  · rw [ho] at hover
    cases hover
  · rw [hline] at hc
    cases hc

namespace Received
variable {stored dropped : List Tok}

theorem queue (hr : Received s t stored dropped) : t.queue = s.queue ++ stored := by
  unfold Rx.queue
  rw [hr.pc, hr.ring]
  cases s.pc <;> simp

theorem length_le (hr : Received s t stored dropped) :
    s.received.length + stored.length ≤ t.received.length := by
  rw [hr.received, List.length_append, List.length_append]
  omega

theorem dropped_after (hr : Received s t stored dropped) {c d : Tok} (hd : d ∈ dropped)
    (hc : c.index < s.received.length + stored.length) : c.index < d.index := by
  have := hr.dropped_index d hd
  omega

theorem mem_received (hr : Received s t stored dropped) {e : Tok} (he : e ∈ s.received ∨ e ∈ stored) :
    e ∈ t.received := by
  rw [hr.received, List.mem_append, List.mem_append]
  exact he.imp_right .inl

theorem separated (hr : Received s t stored dropped) {c : Tok}
    (hc : c.index < s.received.length + stored.length)
    (h : ∀ d ∈ s.lost, isTerminator d.byte = false → d.index < c.index →
      ∃ e ∈ t.received, isTerminator e.byte = true ∧ d.index < e.index ∧ e.index < c.index) :
    Separated t c := by
  intro d hd hterm hlt
  rw [hr.lost, List.mem_append] at hd
  rcases hd with hd | hd
  · exact h d hd hterm hlt
  · have := hr.dropped_after hd hc
    omega

theorem separated_old (hr : Received s t stored dropped) {c : Tok}
    (hc : c.index < s.received.length + stored.length) (h : Separated s c) : Separated t c :=
  hr.separated hc fun d hd hterm hlt =>
    let ⟨e, he, h'⟩ := h d hd hterm hlt
    ⟨e, hr.mem_received (.inl he), h'⟩

theorem follows_old (hr : Received s t stored dropped) {c : Tok} : Follows s c → Follows t c := by
  rintro ⟨d, hd, hdc⟩
  exact ⟨d, by rw [hr.lost]; exact List.mem_append_left _ hd, hdc⟩

theorem intact (hr : Received s t stored dropped) {l : List Tok × Tok} (hl : Intact s l)
    (hlt : ∀ i ∈ l.1, i.index < s.received.length) (hend : l.2.index < s.received.length) :
    Intact t l := by
  refine ⟨fun i hi j hj d hd hbetween => ?_, hr.separated_old (by omega) hl.ended⟩
  rw [hr.lost, List.mem_append] at hd
  rcases hd with hd | hd
  · exact hl.whole i hi j hj d hd hbetween
  · have := hr.dropped_after hd (c := j) (by have := hlt j hj; omega)
    omega

/-- Lines made of characters that lie after the old losses are intact. -/
theorem intact_of_after (hr : Received s t stored dropped) {l : List Tok × Tok}
    (hafter : ∀ c ∈ l.1, ∀ d ∈ s.lost, d.index < c.index)
    (hlt : ∀ c ∈ l.1, c.index < s.received.length + stored.length) (hsep : Separated t l.2) :
    Intact t l := by
  refine ⟨fun i hi j hj d hd hbetween => ?_, hsep⟩
  rw [hr.lost, List.mem_append] at hd
  rcases hd with hd | hd
  · have := hafter i hi d hd
    omega
  · have := hr.dropped_after hd (hlt j hj)
    omega

theorem queue_lt (hr : Received s t stored dropped) (h : RxInv lineMax s) :
    ∀ c ∈ t.queue, c.index < s.received.length + stored.length := by
  intro c hc
  rw [hr.queue, List.mem_append] at hc
  rcases hc with hc | hc
  · have := h.queue_lt c hc
    omega
  · exact (hr.stored_index c hc).2

theorem queue_sorted (hr : Received s t stored dropped) (h : RxInv lineMax s) :
    t.queue.Pairwise (·.index < ·.index) := by
  rw [hr.queue, List.pairwise_append]
  refine ⟨h.sorted, ?_, fun c hc d hd => ?_⟩
  · rw [List.pairwise_iff_getElem]
    intro i j hi hj hij
    have hat : ∀ k (hk : k < stored.length), (stored.get ⟨k, hk⟩).index = s.received.length + k :=
      fun k hk => hr.new_index k _ (by simp [List.getElem?_append_left hk])
    have := hat i hi
    have := hat j hj
    simp only [List.get_eq_getElem] at *
    omega
  · have := h.queue_lt c hc
    have := (hr.stored_index d hd).1
    omega

/-- What is stored after a loss that is still open starts with the terminator of the line. -/
theorem queue_separated (hr : Received s t stored dropped) (h : RxInv lineMax s)
    (hclosed : ∀ x ∈ stored.head?, Closed s ∨ isTerminator x.byte = true ∧ Follows s x) :
    ∀ c ∈ t.queue, Separated t c ∨ Follows t c := by
  intro c hc
  have hlt := hr.queue_lt h c hc
  have hsorted := hr.queue_sorted h
  rw [hr.queue] at hsorted hc
  rcases List.mem_append.1 hc with hc | hc
  · exact (h.separated c hc).imp (hr.separated_old hlt) hr.follows_old
  have hge := (hr.stored_index c hc).1
  cases stored with
  | nil => cases hc
  | cons x rest =>
    rcases hclosed x rfl with hclosed | ⟨hterm, hfollows⟩
    · refine .inl (hr.separated hlt fun d hd hdterm _ => ?_)
      obtain ⟨e, he, het, hde⟩ := hclosed d hd hdterm
      have := h.received_lt he
      exact ⟨e, hr.mem_received (.inl he), het, hde, by omega⟩
    · rcases List.mem_cons.1 hc with rfl | hrest
      · exact .inr (hr.follows_old hfollows)
      · refine .inl (hr.separated hlt fun d hd _ _ => ?_)
        have := h.lost_lt hd
        have := (hr.stored_index x List.mem_cons_self).1
        have hx : x.index < c.index :=
          (List.pairwise_cons.1 (List.pairwise_append.1 hsorted).2.1).1 c hrest
        exact ⟨x, hr.mem_received (.inr List.mem_cons_self), hterm, by omega, hx⟩

theorem closed (hr : Received s t stored dropped) (h : RxInv lineMax s) (hdropped : dropped = [])
    (hclosed : ∀ x ∈ stored.head?, Closed s ∨ isTerminator x.byte = true ∧ Follows s x) : Closed t := by
  intro d hd hdterm
  rw [hr.lost, hdropped, List.append_nil] at hd
  cases stored with
  | nil => exact absurd rfl (hr.nonempty hdropped)
  | cons x rest =>
    rcases hclosed x rfl with hclosed | ⟨hterm, -⟩
    · obtain ⟨e, he, h'⟩ := hclosed d hd hdterm
      exact ⟨e, hr.mem_received (.inl he), h'⟩
    · have := h.lost_lt hd
      have := (hr.stored_index x List.mem_cons_self).1
      exact ⟨x, hr.mem_received (.inr List.mem_cons_self), hterm, by omega⟩

theorem lost_received (hr : Received s t stored dropped) (h : RxInv lineMax s) :
    ∀ d ∈ t.lost, d ∈ t.received := by
  intro d hd
  rw [hr.lost, List.mem_append] at hd
  rw [hr.received]
  rcases hd with hd | hd
  · exact List.mem_append_left _ (h.lost_received d hd)
  · exact List.mem_append_right _ (List.mem_append_right _ hd)

theorem calm (hr : Received s t stored dropped) (h : RxInv lineMax s) (hpc : t.pc = .waiting)
    (ho : t.rxOverflow = false) : ∀ c ∈ t.ring, ∀ d ∈ t.lost, d.index < c.index := by
  intro c hc d hd
  rw [hr.overflow, Bool.or_eq_false_iff] at ho
  have hdrop : dropped = [] := by simpa using ho.2
  rw [hr.lost, hdrop, List.append_nil] at hd
  rw [hr.ring, List.mem_append] at hc
  rcases hc with hc | hc
  · exact h.calm (hr.pc ▸ hpc) ho.1 c hc d hd
  · have := h.lost_lt hd
    have := (hr.stored_index c hc).1
    omega

/-- A line with a character in it does not end right after a loss: no character fits in between. -/
theorem separated_end (hr : Received s t stored dropped) (h : RxInv lineMax s) {l : List Tok × Tok}
    (hchars : l.1 ≠ []) (hafter : ∀ c ∈ l.1, ∀ d ∈ s.lost, d.index < c.index)
    (hbetween : ∀ c ∈ l.1, c.index < l.2.index) (hend : l.2 ∈ t.queue)
    (hsep : Separated t l.2 ∨ Follows t l.2) : Separated t l.2 := by
  refine hsep.resolve_right ?_
  rintro ⟨d, hd, hdc⟩
  obtain ⟨c, hc⟩ := List.exists_mem_of_ne_nil _ hchars
  have := hbetween c hc
  rw [hr.lost, List.mem_append] at hd
  rcases hd with hd | hd
  · have := hafter c hc d hd
    omega
  · have := hr.dropped_after hd (hr.queue_lt h _ hend)
    omega

theorem gap_lost (hr : Received s t stored dropped) (hgap : t.gap = true) :
    ∃ d ∈ t.lost, d.index + 1 = t.received.length := by
  have hne : dropped ≠ [] := by
    rw [hr.gap] at hgap
    simpa using hgap
  have hlast := hr.new_index ((stored ++ dropped).length - 1) (dropped.getLast hne) (by
    rw [← List.getLast?_eq_getElem?, List.getLast?_append_of_ne_nil _ hne, List.getLast?_eq_some_getLast hne])
  have hpos := List.length_pos_iff.2 hne
  refine ⟨dropped.getLast hne, by rw [hr.lost]; exact List.mem_append_right _ (List.getLast_mem hne), ?_⟩
  rw [hr.received, hlast]
  simp only [List.length_append]
  omega

theorem index (hr : Received s t stored dropped) (h : RxInv lineMax s) (i : Nat) (r : Tok)
    (hi : t.received[i]? = some r) : r.index = i := by
  rw [hr.received] at hi
  rcases Nat.lt_or_ge i s.received.length with hlt | hge
  · rw [List.getElem?_append_left hlt] at hi
    exact h.index i r hi
  · rw [List.getElem?_append_right hge] at hi
    have := hr.new_index _ r hi
    omega

end Received

/-- The state after a receive call, from what the queue is fed to (`p`) and what is still to be fed
to it (`cs`): the pending parser with the stored bytes, or a reset parser with the whole ring. -/
theorem RxInv.received {stored dropped : List Tok} (h : RxInv lineMax s)
    (hr : Received s t stored dropped)
    (hclosed : ∀ x ∈ stored.head?, Closed s ∨ isTerminator x.byte = true ∧ Follows s x)
    {p : Parser Tok} {cs : List Tok} {old : List (List Tok × Tok)}
    (hpend : t.pending lineMax =
      ((feedAll Tok.byte lineMax p cs).1, old ++ (feedAll Tok.byte lineMax p cs).2))
    (hold : ∀ l ∈ old, l ∈ (s.pending lineMax).2)
    (hlt : p.Holds (·.index < s.received.length + stored.length))
    (hafter : cs ≠ [] ∨ dropped = [] → p.Holds fun c => ∀ d ∈ s.lost, d.index < c.index)
    (hbefore : ∀ c ∈ cs, p.Holds (·.index < c.index))
    (hcs : cs.Sublist t.queue) (hnew : ∀ c ∈ cs, ∀ d ∈ s.lost, d.index < c.index) :
    RxInv lineMax t := by
  have hle := hr.length_le
  have hq := hr.queue_lt h
  have hsep := hr.queue_separated h hclosed
  have hsorted := hr.queue_sorted h
  have hgap : t.gap = false → dropped = [] := by
    rw [hr.gap]
    simp
  constructor
  · exact hr.index h
  · exact hr.lost_received h
  · exact hr.gap_lost
  · intro c hc
    have := hq c hc
    omega
  · exact hsorted
  · exact hsep
  · exact hr.calm h
  · have hbound : (feedAll Tok.byte lineMax p cs).1.Holds _ :=
      (feedAll_holds hlt fun c hc => hq c (hcs.subset hc)).1
    rw [hpend]
    intro ho c hc
    have := hbound ho c hc
    omega
  · intro hg
    rw [hpend, hr.lost, hgap hg, List.append_nil]
    exact (feedAll_holds (hafter (.inr (hgap hg))) hnew).1
  · exact fun hg => hr.closed h (hgap hg) hclosed
  · intro l hl
    rw [hpend, hr.lines, ← List.append_assoc, List.mem_append, List.mem_append] at hl
    rcases hl with hl | hl
    · have hl' : l ∈ s.lines ++ (s.pending lineMax).2 :=
        List.mem_append.2 (hl.imp_right (hold l))
      obtain ⟨hi, hlt', hend⟩ := h.lines l hl'
      exact ⟨hr.intact hi hlt' hend, fun i hi => by have := hlt' i hi; omega, by omega⟩
    · have hne : cs ≠ [] := by
        rintro rfl
        cases hl
      have hall : p.Holds fun c => (∀ d ∈ s.lost, d.index < c.index) ∧
          c.index < s.received.length + stored.length :=
        fun ho c hc => ⟨hafter (.inl hne) ho c hc, hlt ho c hc⟩
      obtain ⟨hline, hend⟩ := (feedAll_holds hall fun c hc =>
        ⟨hnew c hc, hq c (hcs.subset hc)⟩).2 l hl
      have hfirst : ∀ c ∈ l.1, ∀ d ∈ s.lost, d.index < c.index := fun c hc => (hline c hc).1
      obtain ⟨hchars, hbetween⟩ := feedAll_ordered hbefore (hsorted.sublist hcs) l hl
      have hended := hr.separated_end h hchars hfirst hbetween (hcs.subset hend) (hsep _ (hcs.subset hend))
      have hlast := hq _ (hcs.subset hend)
      refine ⟨hr.intact_of_after hfirst (fun c hc => (hline c hc).2) hended, fun i hi => ?_, by omega⟩
      have := (hline i hi).2
      omega

namespace Received
variable {stored dropped : List Tok}

/-- Unless the loss makes a reset due, the stored bytes are fed after the queue. -/
theorem pending_append (hr : Received s t stored dropped)
    (h : s.pc = .waiting → s.rxOverflow = false → dropped = []) :
    t.pending lineMax = ((feedAll Tok.byte lineMax (s.pending lineMax).1 stored).1,
      (s.pending lineMax).2 ++ (feedAll Tok.byte lineMax (s.pending lineMax).1 stored).2) := by
  have hstart : t.start = s.start := by
    unfold Rx.start
    rw [hr.pc, hr.parser, hr.overflow]
    cases hpc : s.pc with
    | waiting =>
      cases ho : s.rxOverflow
      · simp [h hpc ho]
      · simp
    | _ => rfl
  rw [Rx.pending, hstart, hr.queue, feedAll_append]
  rfl

/-- A loss that makes a reset due: the whole ring is fed to the reset parser. -/
theorem pending_reset (hr : Received s t stored dropped) (hpc : s.pc = .waiting)
    (hd : dropped ≠ []) : t.pending lineMax =
      ((feedAll Tok.byte lineMax .reset t.queue).1, [] ++ (feedAll Tok.byte lineMax .reset t.queue).2) := by
  have hstart : t.start = .reset := by
    unfold Rx.start
    rw [hr.pc, hpc, hr.overflow]
    simp [hd]
  rw [Rx.pending, hstart]
  rfl

theorem stored_after (hr : Received s t stored dropped) (h : RxInv lineMax s) {c : Tok}
    (hc : c ∈ stored) : ∀ d ∈ s.lost, d.index < c.index := by
  intro d hd
  have := h.lost_lt hd
  have := (hr.stored_index c hc).1
  omega

end Received

theorem receive_nil (s : Rx Tok) : At.receive ringSize [] s = s := by
  simp [At.receive]

theorem RxInv.receive (h : RxInv lineMax s) {data : List UInt8}
    (hG : Resumes ringSize lineMax s (.receive data)) :
    RxInv lineMax (At.receive ringSize (tagFrom s.received.length data) s) := by
  by_cases hne : data = []
  · rw [hne, tagFrom, receive_nil]
    exact h
  obtain ⟨stored, dropped, hr, hroom, hhead⟩ := receive_spec ringSize s hne
  have hclosed : ∀ x ∈ stored.head?, Closed s ∨ isTerminator x.byte = true ∧ Follows s x := by
    intro x hx
    have hx' := List.mem_of_head? hx
    refine (h.resume_closed hne (hroom (List.ne_nil_of_mem hx')) hG).imp_right ?_
    rintro ⟨hfirst, d, hd, hdlen⟩
    refine ⟨?_, d, hd, ?_⟩
    · rw [hhead x hx] at hfirst
      exact hfirst
    · rw [hdlen, hr.new_index 0 x]
      · rfl
      · rw [← List.head?_eq_getElem?, List.head?_append, hx]
        rfl
  by_cases hreset : s.pc = .waiting ∧ s.rxOverflow = false ∧ dropped ≠ []
  · obtain ⟨hpc, ho, hd⟩ := hreset
    refine h.received hr hclosed (hr.pending_reset hpc hd) (fun l hl => absurd hl List.not_mem_nil)
      Parser.holds_reset (fun _ => Parser.holds_reset) (fun _ _ => Parser.holds_reset)
      (List.Sublist.refl _) fun c hc => ?_
    rw [hr.queue, List.mem_append] at hc
    rcases hc with hc | hc
    · rw [Rx.queue, hpc] at hc
      exact h.calm hpc ho c hc
    · exact hr.stored_after h hc
  · have hkeep : s.pc = .waiting → s.rxOverflow = false → dropped = [] := by
      intro hpc ho
      by_contra hd
      exact hreset ⟨hpc, ho, hd⟩
    refine h.received hr hclosed (hr.pending_append hkeep) (fun _ hl => hl) ?_ ?_ ?_ ?_
      fun c hc => hr.stored_after h hc
    · intro ho c hc
      have := h.line_lt ho c hc
      omega
    · intro hst
      refine h.resume_after hne (hroom ?_) hG
      exact hst.elim id hr.nonempty
    · intro c hc ho i hi
      have := h.line_lt ho i hi
      have := (hr.stored_index c hc).1
      omega
    · rw [hr.queue]
      exact List.sublist_append_right _ _

theorem RxInv.step (h : RxInv lineMax s) {a : Act UInt8} (hG : Resumes ringSize lineMax s a)
    (ht : tagStep ringSize lineMax s a = some t) : RxInv lineMax t := by
  cases a with
  | receive data =>
    cases ht
    exact h.receive hG
  | test =>
    simp only [tagStep, Act.tag, At.step] at ht
    split at ht
    · next hpc =>
      have := h.test hpc
      split_ifs at ht this <;> cases ht <;> exact this
    · cases ht
  | reset =>
    simp only [tagStep, Act.tag, At.step] at ht
    split at ht <;> cases ht
    next hpc => exact h.reset hpc
  | get =>
    simp only [tagStep, Act.tag, At.step] at ht
    split at ht
    · next hpc =>
      have := h.get hpc
      split_ifs at ht this <;> cases ht <;> exact this
    · cases ht
  | feed =>
    simp only [tagStep, Act.tag, At.step] at ht
    split at ht <;> cases ht
    next hpc => exact h.feed hpc

def LinesIntact (ringSize lineMax : Nat) (as : List (Act UInt8)) (u : Rx UInt8) : Prop :=
  ∃ t, run (tagStep ringSize lineMax) .init as = some t ∧ t.erase = u ∧ ∀ l ∈ t.lines, Intact t l

/-- In every run in which input resumes only where a loss has left nothing open, every executed line
is intact. -/
theorem executed_lines_intact (ringSize lineMax : Nat) (as : List (Act UInt8)) (u : Rx UInt8)
    (hr : run (step id ringSize lineMax) .init as = some u)
    (hG : Meets (tagStep ringSize lineMax) (Resumes ringSize lineMax) .init as) :
    LinesIntact ringSize lineMax as u := by
  have hrun : (run (tagStep ringSize lineMax) .init as).map Rx.erase = some u := by
    rw [← erase_run]
    exact hr
  obtain ⟨t, ht, hu⟩ := Option.map_eq_some_iff.1 hrun
  have h : RxInv lineMax t :=
    run_invariant (fun _ _ _ h hG ht => h.step hG ht) rxInv_init hG ht
  exact ⟨t, ht, hu, fun l hl => (h.lines l (List.mem_append_left _ hl)).1⟩

/-- With the smallest ring: 126 CRs, `AT` and two bytes that no longer fit; the thread resets the
parser and drains the ring; then `E` and a CR arrive. -/
def truncatedInput : List (Act UInt8) :=
  [.receive (List.replicate 126 0x0d ++ [0x41, 0x54, 0x78, 0x78]), .test, .reset, .get] ++
    List.replicate 64 .feed ++ [.get] ++ List.replicate 64 .feed ++
    [.get, .receive [0x45, 0x0d], .test, .get, .feed, .feed]

theorem damaged_line_executed : ¬ ∀ (ringSize lineMax : Nat) (as : List (Act UInt8)) (u : Rx UInt8),
    run (step id ringSize lineMax) .init as = some u → LinesIntact ringSize lineMax as u := by
  intro h
  have heval : (run (tagStep 128 600) Rx.init truncatedInput).map (fun t => (t.lines, t.lost)) =
      some ([([⟨126, 0x41⟩, ⟨127, 0x54⟩, ⟨130, 0x45⟩], ⟨131, 0x0d⟩)],
        [⟨128, 0x78⟩, ⟨129, 0x78⟩]) := by decide +kernel
  obtain ⟨t, ht, heq⟩ := Option.map_eq_some_iff.1 heval
  obtain ⟨hlines, hlost⟩ := Prod.mk.inj heq
  have hbytes : run (step id 128 600) Rx.init truncatedInput = some t.erase := by
    have herase := @erase_run 128 600 Rx.init truncatedInput
    rw [ht] at herase
    exact herase
  obtain ⟨t', ht', -, hintact⟩ := h 128 600 truncatedInput t.erase hbytes
  cases ht.symm.trans ht'
  refine (hintact _ (by rw [hlines]; exact List.mem_singleton.2 rfl)).whole ⟨126, 0x41⟩ (by simp)
    ⟨130, 0x45⟩ (by simp) ⟨128, 0x78⟩ (by rw [hlost]; simp) (by decide)

/-- An `x` is dropped; the next call starts with a CR, and an `A` and a CR follow. -/
def resumedInput : List (Act UInt8) :=
  [.receive [0x0d, 0x0d, 0x78], .test, .reset, .get, .feed, .feed, .get, .receive [0x0d, 0x41],
    .test, .get, .feed, .feed, .get, .receive [0x0d], .test, .get, .feed]

theorem resumed_line_intact :
    ∃ u, run (step id 2 600) .init resumedInput = some u ∧ u.lines = [([0x41], 0x0d)] ∧
      LinesIntact 2 600 resumedInput u :=
  ⟨_, rfl, rfl, executed_lines_intact 2 600 resumedInput _ rfl (by decide)⟩

end Rzi.At
