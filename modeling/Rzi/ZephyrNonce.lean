import Rzi.ZephyrBackend

/-!
# The DevNonces of the Zephyr backend

An OTAA join whose configured nonce is zero takes its nonce from `next_dev_nonce`, one for each
attempt. The setter never stores zero; the increment wraps to it. `joinCalls` are the calls of
`lorawan_join` in a run, and `nonces_increase_iff` says how many attempts a counter lasts for.
-/

namespace Rzi.Zephyr
open Lts

/-- `rzi_lorawan_zephyr_dev_nonce`. -/
def lorawanZephyrDevNonce (s : State) : UInt16 := s.nextDevNonce

/-- `rzi_lorawan_zephyr_set_dev_nonce`. -/
def lorawanZephyrSetDevNonce (nonce : UInt16) (s : State) : State :=
  { s with nextDevNonce := if nonce = 0 then 1 else nonce }

/-- The nonce that an OTAA join is made with. -/
def MacJoin.devNonce : MacJoin → Option UInt16
  | .otaa _ _ _ _ devNonce => some devNonce
  | .abp _ _ _ => none

def MacJoin.isOtaa : MacJoin → Bool
  | .otaa .. => true
  | .abp .. => false

/-- The call of `lorawan_join` in a step that leads to `t`. -/
def called (a : Act) (t : State) : Option MacJoin :=
  match a, t.worker with
  | .enter, .joining config => some config
  | _, _ => none

section Runs
variable (rejects : Bool)

/-- The calls of `lorawan_join` in a run, oldest first. -/
def joinCalls : State → List Act → List MacJoin
  | _, [] => []
  | s, a :: as =>
    match step rejects s a with
    | none => []
    | some t => (called a t).toList ++ joinCalls t as

/-- The nonces passed to `lorawan_join`. -/
def devNonces (s : State) (as : List Act) : List UInt16 := (joinCalls rejects s as).filterMap (·.devNonce)

/-- The number of OTAA attempts. -/
def otaaAttempts (s : State) (as : List Act) : Nat := (joinCalls rejects s as).countP (·.isOtaa)

end Runs

/-- The nonce of an OTAA join is left to the backend. -/
def JoinConfig.Draws (config : JoinConfig) : Prop :=
  match config.activation with
  | .otaa params => params.devNonce = 0
  | .abp _ => True

instance (config : JoinConfig) : Decidable config.Draws := by
  unfold JoinConfig.Draws
  split <;> infer_instance

/-- The step sets no nonce, neither in the counter nor in a configuration. -/
def Act.Draws : Act → Prop
  | .join config _ => config.Draws
  | .setDevNonce _ => False
  | _ => True

/-- The boot, or a call of the setter. -/
inductive Begins : State → Prop
  | boot : Begins init
  | set (nonce : UInt16) (s : State) (hs : s.joinSettings.Draws) :
    Begins (lorawanZephyrSetDevNonce nonce s)

/-- What is asked of the nonces of a run. -/
structure NoncesIncrease (rejects : Bool) (s : State) (as : List Act) : Prop where
  nonzero : ∀ nonce ∈ devNonces rejects s as, nonce ≠ 0
  increasing : (devNonces rejects s as).Pairwise (· < ·)
  once : (devNonces rejects s as).Nodup
  next_nonzero : Always (step rejects) (fun t => lorawanZephyrDevNonce t ≠ 0) s as

variable {rejects : Bool} {s t : State} {a : Act} {as : List Act}

theorem Begins.draws (h : Begins s) : s.joinSettings.Draws := by
  rcases h with - | ⟨nonce, s, hs⟩
  · decide
  · exact hs

theorem Begins.nonzero (h : Begins s) : s.nextDevNonce ≠ 0 := by
  rcases h with - | ⟨nonce, s, hs⟩
  · decide
  · unfold lorawanZephyrSetDevNonce
    dsimp only
    split
    · decide
    · assumption

/-! ### One step -/

/-- What `fill_zephyr_join` does with the counter. -/
theorem fillZephyrJoin_nonce {config : JoinConfig} (h : config.Draws) (next : UInt16) :
    (fillZephyrJoin config next).1.devNonce = some next ∧ (fillZephyrJoin config next).2 = next + 1 ∨
      (fillZephyrJoin config next).1.devNonce = none ∧ (fillZephyrJoin config next).2 = next := by
  unfold JoinConfig.Draws at h
  unfold fillZephyrJoin
  rcases hact : config.activation with params | params
  · rw [hact] at h
    dsimp only at h ⊢
    rw [if_neg (not_not.2 h)]
    exact .inl ⟨rfl, rfl⟩
  · exact .inr ⟨rfl, rfl⟩

theorem called_eq_none (h : a ≠ .enter) : called a t = none := by
  unfold called
  split
  · exact absurd rfl h
  · rfl

theorem joinHandlerEntry_nonce (hs : s.joinSettings.Draws) :
    (joinHandlerEntry s).joinSettings = s.joinSettings ∧
      ((called .enter (joinHandlerEntry s)).bind (·.devNonce) = some s.nextDevNonce ∧
          (joinHandlerEntry s).nextDevNonce = s.nextDevNonce + 1 ∨
        (called .enter (joinHandlerEntry s)).bind (·.devNonce) = none ∧
          (joinHandlerEntry s).nextDevNonce = s.nextDevNonce) := by
  unfold joinHandlerEntry
  split
  · exact ⟨rfl, .inr ⟨rfl, rfl⟩⟩
  · exact ⟨rfl, fillZephyrJoin_nonce hs s.nextDevNonce⟩

theorem joinHandlerEnded_frame (rc : Option Errno) :
    (joinHandlerEnded rejects rc s).joinSettings = s.joinSettings ∧
      (joinHandlerEnded rejects rc s).nextDevNonce = s.nextDevNonce := by
  unfold joinHandlerEnded
  split <;> split <;> exact ⟨rfl, rfl⟩

/-- A step passes the counter to `lorawan_join` and counts up, or leaves it alone. -/
theorem step_nonce (h : step rejects s a = some t) (ha : a.Draws) (hs : s.joinSettings.Draws) :
    t.joinSettings.Draws ∧
      ((called a t).bind (·.devNonce) = some s.nextDevNonce ∧ t.nextDevNonce = s.nextDevNonce + 1 ∨
        (called a t).bind (·.devNonce) = none ∧ t.nextDevNonce = s.nextDevNonce) := by
  by_cases henter : a = .enter
  · subst henter
    simp only [step] at h
    split at h <;> cases h
    · obtain ⟨hsettings, hnonce⟩ := joinHandlerEntry_nonce hs
      exact ⟨hsettings ▸ hs, hnonce⟩
    · exact ⟨hs, .inr ⟨rfl, rfl⟩⟩
  · rw [called_eq_none henter]
    have hkept (hsettings : t.joinSettings = s.joinSettings) (hnext : t.nextDevNonce = s.nextDevNonce) :
        t.joinSettings.Draws ∧
          ((none : Option MacJoin).bind (·.devNonce) = some s.nextDevNonce ∧
              t.nextDevNonce = s.nextDevNonce + 1 ∨
            (none : Option MacJoin).bind (·.devNonce) = none ∧ t.nextDevNonce = s.nextDevNonce) :=
      ⟨hsettings ▸ hs, .inr ⟨rfl, hnext⟩⟩
    cases step_transition h with
    | joinAccepted config mib hj => exact ⟨ha, .inr ⟨rfl, rfl⟩⟩
    | devNonceSet => exact ha.elim
    | joinDropped | joinCalled | sendCalled => exact absurd rfl henter
    | joinEnded rc hw =>
      obtain ⟨hsettings, hnext⟩ := @joinHandlerEnded_frame rejects s rc
      exact hkept hsettings hnext
    | _ => exact hkept rfl rfl

/-! ### Runs -/

theorem devNonces_cons (ht : step rejects s a = some t) : devNonces rejects s (a :: as) =
    ((called a t).bind (·.devNonce)).toList ++ devNonces rejects t as := by
  rw [devNonces, joinCalls, ht, List.filterMap_append]
  rcases called a t with _ | config
  · rfl
  · rw [Option.toList_some, List.filterMap_cons]
    rcases config with _ | _ <;> rfl

theorem devNonces_stuck (h : step rejects s a = none) : devNonces rejects s (a :: as) = [] := by
  rw [devNonces, joinCalls, h]
  rfl

/-- Each OTAA attempt has a nonce. -/
theorem otaaAttempts_eq (rejects : Bool) (s : State) (as : List Act) :
    otaaAttempts rejects s as = (devNonces rejects s as).length := by
  rw [otaaAttempts, devNonces, List.length_filterMap_eq_countP]
  congr 1
  funext config
  rcases config with _ | _ <;> rfl

/-- As long as the counter does not wrap, the attempts take it one by one. -/
theorem devNonces_eq_range (hs : s.joinSettings.Draws) (ha : ∀ a ∈ as, a.Draws)
    (hlt : s.nextDevNonce.toNat + otaaAttempts rejects s as ≤ 65535) :
    (devNonces rejects s as).map (·.toNat) =
      List.range' s.nextDevNonce.toNat (otaaAttempts rejects s as) := by
  rw [otaaAttempts_eq] at hlt ⊢
  induction as generalizing s with
  | nil => rfl
  | cons a as ih =>
    rcases ht : step rejects s a with _ | t
    · rw [devNonces_stuck ht]
      rfl
    · have ha' := fun b hb => ha b (List.mem_cons_of_mem a hb)
      rw [devNonces_cons ht] at hlt ⊢
      obtain ⟨hdraws, ⟨hcall, hnext⟩ | ⟨hcall, hnext⟩⟩ := step_nonce ht (ha a List.mem_cons_self) hs
      · rw [hcall, Option.toList_some, List.singleton_append, List.length_cons] at hlt ⊢
        have hstep : t.nextDevNonce.toNat = s.nextDevNonce.toNat + 1 := by
          rw [hnext, UInt16.toNat_add, UInt16.toNat_one]
          omega
        rw [List.map_cons, ih hdraws ha' (by omega), hstep, List.range'_succ]
      · rw [hcall, Option.toList_none, List.nil_append] at hlt ⊢
        rw [← hnext] at hlt ⊢
        exact ih hdraws ha' hlt

theorem next_nonzero_iff (hs : s.joinSettings.Draws) (ha : ∀ a ∈ as, a.Draws) (h0 : s.nextDevNonce ≠ 0) :
    Always (step rejects) (fun t => lorawanZephyrDevNonce t ≠ 0) s as ↔
      s.nextDevNonce.toNat + otaaAttempts rejects s as ≤ 65535 := by
  rw [otaaAttempts_eq]
  induction as generalizing s with
  | nil =>
    rw [always_nil]
    have hlt := s.nextDevNonce.toNat_lt
    exact ⟨fun _ => Nat.le_of_lt_succ hlt, fun _ => h0⟩
  | cons a as ih =>
    rw [always_cons, and_iff_right (show lorawanZephyrDevNonce s ≠ 0 from h0)]
    rcases ht : step rejects s a with _ | t
    · have hlt := s.nextDevNonce.toNat_lt
      rw [devNonces_stuck ht]
      exact ⟨fun _ => Nat.le_of_lt_succ hlt, fun _ t ht' => (by cases ht')⟩
    · have ha' := fun b hb => ha b (List.mem_cons_of_mem a hb)
      have hone : (∀ u, some t = some u →
          Always (step rejects) (fun t => lorawanZephyrDevNonce t ≠ 0) u as) ↔
          Always (step rejects) (fun t => lorawanZephyrDevNonce t ≠ 0) t as := by
        constructor
        · exact fun h => h t rfl
        · rintro h u ⟨rfl⟩
          exact h
      rw [devNonces_cons ht, hone]
      obtain ⟨hdraws, ⟨hcall, hnext⟩ | ⟨hcall, hnext⟩⟩ := step_nonce ht (ha a List.mem_cons_self) hs
      · rw [hcall, Option.toList_some, List.singleton_append, List.length_cons]
        have hwrap : t.nextDevNonce.toNat = (s.nextDevNonce.toNat + 1) % 65536 := by
          rw [hnext, UInt16.toNat_add, UInt16.toNat_one]
        have hlt := s.nextDevNonce.toNat_lt
        by_cases hlast : s.nextDevNonce.toNat = 65535
        · -- the attempt that takes the last nonce leaves the counter at zero
          have hzero : t.nextDevNonce = 0 := UInt16.toNat_inj.1 (by rw [hwrap, hlast]; rfl)
          refine ⟨fun h => absurd hzero (h [] t List.nil_prefix rfl), fun h => ?_⟩
          omega
        · have hnonzero : t.nextDevNonce ≠ 0 := by
            intro hzero
            rw [hzero] at hwrap
            have hz : (0 : UInt16).toNat = 0 := rfl
            omega
          rw [ih hdraws ha' hnonzero]
          omega
      · rw [hcall, Option.toList_none, List.nil_append, ih hdraws ha' (hnext ▸ h0), hnext]

/-- The nonces that follow the boot or a call of the setter are nonzero and increase, and the counter is
never zero, exactly as long as the counter has enough left. -/
theorem nonces_increase_iff (rejects : Bool) (hs : Begins s) (ha : ∀ a ∈ as, a.Draws) :
    NoncesIncrease rejects s as ↔
      (lorawanZephyrDevNonce s).toNat + otaaAttempts rejects s as ≤ 65535 := by
  have hiff := @next_nonzero_iff rejects s as hs.draws ha hs.nonzero
  refine ⟨fun h => hiff.1 h.next_nonzero, fun hlt => ?_⟩
  have hrange := devNonces_eq_range hs.draws ha hlt
  have hpos : 0 < s.nextDevNonce.toNat :=
    Nat.pos_of_ne_zero fun hzero => hs.nonzero (UInt16.toNat_inj.1 hzero)
  have hincreasing : (devNonces rejects s as).Pairwise (· < ·) := by
    have hnat : ((devNonces rejects s as).map (·.toNat)).Pairwise (· < ·) := by
      rw [hrange]
      exact List.pairwise_lt_range'
    exact (List.pairwise_map.1 hnat).imp UInt16.lt_iff_toNat_lt.2
  refine ⟨?_, hincreasing, ?_, hiff.2 hlt⟩
  · rintro nonce hmem rfl
    have hmem' : (0 : UInt16).toNat ∈ (devNonces rejects s as).map (·.toNat) :=
      List.mem_map_of_mem hmem
    rw [hrange, List.mem_range'_1] at hmem'
    have hz : (0 : UInt16).toNat = 0 := rfl
    omega
  · exact hincreasing.imp fun hlt => UInt16.ne_of_lt hlt

/-- A join that fails once and is tried again. -/
def failedAttempt : List Act :=
  [.start .eu868 true none none, .publishReady, .join otaaConfig fun _ => none, .takeJoin, .enter,
    .joinReturns (some .timedout), .relock, .publish, .handlerReturn, .expire, .takeJoin, .enter]

theorem nonces_increase_iff_boot : NoncesIncrease false init failedAttempt ↔
    (lorawanZephyrDevNonce init).toNat + otaaAttempts false init failedAttempt ≤ 65535 := by
  refine nonces_increase_iff false .boot ?_
  simp only [failedAttempt, List.forall_mem_cons]
  have hconfig : otaaConfig.Draws := by decide
  exact ⟨trivial, trivial, hconfig, trivial, trivial, trivial, trivial, trivial, trivial, trivial,
    trivial, trivial, fun _ h => (by cases h)⟩

/-- After the setter has stored 65535, the second attempt of a join is made with nonce 0. -/
theorem nonce_wraps :
    ¬ NoncesIncrease false (lorawanZephyrSetDevNonce 65535 init) failedAttempt := by
  intro h
  have hnonces : devNonces false (lorawanZephyrSetDevNonce 65535 init) failedAttempt = [65535, 0] := by
    decide
  exact h.nonzero 0 (by rw [hnonces]; decide) rfl

end Rzi.Zephyr
