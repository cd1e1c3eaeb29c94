import Mathlib.Logic.Basic
import Mathlib.Data.List.Basic

/-!
# Runs of a step function

`Lts.run step s as` is the state a partial step function reaches from `s` by the actions `as`, and
`none` as soon as one of them is not enabled. `Lts.Meets step G s as` says that every action of that
run is taken in a state in which `G` allows it. The rules below carry an invariant, or a relation to
the first state, from one step to a whole run.
-/

namespace Lts

variable {σ α : Type*}

/-- The state after the actions `as`, if each of them is enabled when its turn comes. -/
def run (step : σ → α → Option σ) : σ → List α → Option σ
  | s, [] => some s
  | s, a :: as => (step s a).bind fun t => run step t as

/-- Every action of the run from `s` is taken in a state where `G` allows it. -/
def Meets (step : σ → α → Option σ) (G : σ → α → Prop) : σ → List α → Prop
  | _, [] => True
  | s, a :: as => G s a ∧ ∀ t, step s a = some t → Meets step G t as

variable {step : σ → α → Option σ} {G : σ → α → Prop} {s t u : σ} {a : α} {as bs : List α}

theorem run_cons : run step s (a :: as) = (step s a).bind fun t => run step t as := rfl

theorem run_cons_eq_some :
    run step s (a :: as) = some u ↔ ∃ t, step s a = some t ∧ run step t as = some u := by
  simp [run_cons, Option.bind_eq_some_iff]

theorem run_concat (h : run step s as = some t) : run step s (as ++ [a]) = step t a := by
  induction as generalizing s with
  | nil =>
    cases h
    exact Option.bind_fun_some _
  | cons b as ih =>
    obtain ⟨r, hr, ht⟩ := run_cons_eq_some.1 h
    rw [List.cons_append, run_cons, hr]
    exact ih ht

theorem run_append_eq_some :
    run step s (as ++ bs) = some u ↔ ∃ t, run step s as = some t ∧ run step t bs = some u := by
  induction as generalizing s with
  | nil => simp [run]
  | cons a as ih =>
    rw [List.cons_append, run_cons_eq_some]
    constructor
    · rintro ⟨r, hr, hru⟩
      obtain ⟨t, ht, htu⟩ := ih.1 hru
      exact ⟨t, run_cons_eq_some.2 ⟨r, hr, ht⟩, htu⟩
    · rintro ⟨t, ht, htu⟩
      obtain ⟨r, hr, hrt⟩ := run_cons_eq_some.1 ht
      exact ⟨r, hr, ih.2 ⟨t, hrt, htu⟩⟩

theorem run_concat_eq_some :
    run step s (as ++ [a]) = some u ↔ ∃ t, run step s as = some t ∧ step t a = some u := by
  rw [run_append_eq_some]
  simp [run]

theorem Meets.cons (ht : step s a = some t) (hG : G s a) (h : Meets step G t as) :
    Meets step G s (a :: as) := by
  refine ⟨hG, fun t' ht' => ?_⟩
  cases ht.symm.trans ht'
  exact h

theorem Meets.mono_run {H : σ → α → Prop} (hGH : ∀ s a t, step s a = some t → G s a → H s a)
    (hr : run step s as = some u) (h : Meets step G s as) : Meets step H s as := by
  induction as generalizing s with
  | nil => trivial
  | cons a as ih =>
    obtain ⟨r, hr', hru⟩ := run_cons_eq_some.1 hr
    refine .cons hr' (hGH s a r hr' h.1) (ih hru (h.2 r hr'))

theorem meets_and {H : σ → α → Prop} : Meets step (fun s a => G s a ∧ H s a) s as ↔
    Meets step G s as ∧ Meets step H s as := by
  induction as generalizing s with
  | nil => exact ⟨fun _ => ⟨trivial, trivial⟩, fun _ => trivial⟩
  | cons a as ih =>
    constructor
    · rintro ⟨⟨hG, hH⟩, h⟩
      exact ⟨⟨hG, fun t ht => (ih.1 (h t ht)).1⟩, hH, fun t ht => (ih.1 (h t ht)).2⟩
    · rintro ⟨⟨hG, hGs⟩, hH, hHs⟩
      exact ⟨⟨hG, hH⟩, fun t ht => ih.2 ⟨hGs t ht, hHs t ht⟩⟩

theorem Meets.last (h : Meets step G s (as ++ [a])) (hr : run step s as = some t) : G t a := by
  induction as generalizing s with
  | nil =>
    cases hr
    exact h.1
  | cons b as ih =>
    obtain ⟨r, hsr, hrt⟩ := run_cons_eq_some.1 hr
    exact ih (h.2 r hsr) hrt

/-- What `G` allows, at each place of the run. -/
theorem meets_iff_each :
    Meets step G s as ↔ ∀ pre a t, pre ++ [a] <+: as → run step s pre = some t → G t a := by
  induction as generalizing s with
  | nil => exact ⟨fun _ pre a t hpre _ => by simp at hpre, fun _ => trivial⟩
  | cons b as ih =>
    constructor
    · rintro ⟨hG, h⟩ pre a t hpre ht
      cases pre with
      | nil =>
        obtain ⟨rfl, -⟩ := List.cons_prefix_cons.1 hpre
        cases ht
        exact hG
      | cons c pre =>
        obtain ⟨rfl, htail⟩ := List.cons_prefix_cons.1 hpre
        obtain ⟨r, hr, hrt⟩ := run_cons_eq_some.1 ht
        exact ih.1 (h r hr) pre a t htail hrt
    · intro h
      refine ⟨h [] b s (List.cons_prefix_cons.2 ⟨rfl, List.nil_prefix⟩) rfl, fun r hr => ih.2 ?_⟩
      exact fun pre a t hpre ht =>
        h (b :: pre) a t (List.cons_prefix_cons.2 ⟨rfl, hpre⟩) (run_cons_eq_some.2 ⟨r, hr, ht⟩)

theorem Meets.concat (h : Meets step G s as) (hr : run step s as = some t) (hG : G t a) :
    Meets step G s (as ++ [a]) := by
  refine meets_iff_each.2 fun pre c u hpre hu => ?_
  rcases List.prefix_concat_iff.1 hpre with heq | hpre
  · obtain ⟨rfl, hc⟩ := List.append_inj' heq rfl
    cases hc
    cases hr.symm.trans hu
    exact hG
  · exact meets_iff_each.1 h pre c u hpre hu

theorem Meets.of_forall (h : ∀ a ∈ as, ∀ s, G s a) : Meets step G s as := by
  induction as generalizing s with
  | nil => trivial
  | cons a as ih =>
    exact ⟨h a List.mem_cons_self s, fun t _ => ih fun b hb => h b (List.mem_cons_of_mem a hb)⟩

instance decidableMeets [∀ s a, Decidable (G s a)] : ∀ s as, Decidable (Meets step G s as)
  | _, [] => .isTrue trivial
  | s, a :: as =>
    match h : step s a with
    | none => decidable_of_iff (G s a) (by simp [Meets, h])
    | some t =>
      have := decidableMeets t as
      decidable_of_iff (G s a ∧ Meets step G t as) (by simp [Meets, h])

/-- An invariant that every allowed step keeps holds at the end of a run of allowed steps. -/
theorem run_invariant {I : σ → Prop}
    (hstep : ∀ s a t, I s → G s a → step s a = some t → I t)
    (hs : I s) (hG : Meets step G s as) (hr : run step s as = some t) : I t := by
  induction as generalizing s with
  | nil => cases hr; exact hs
  | cons a as ih =>
    obtain ⟨r, hsr, hrt⟩ := run_cons_eq_some.1 hr
    exact ih (hstep s a r hs hG.1 hsr) (hG.2 r hsr) hrt

theorem run_invariant' {I : σ → Prop} (hstep : ∀ s a t, I s → step s a = some t → I t)
    (hs : I s) (hr : run step s as = some t) : I t := by
  induction as generalizing s with
  | nil => cases hr; exact hs
  | cons a as ih =>
    obtain ⟨r, hsr, hrt⟩ := run_cons_eq_some.1 hr
    exact ih (hstep s a r hs hsr) hrt

/-- `P` holds in every state of the run from `s`. -/
def Always (step : σ → α → Option σ) (P : σ → Prop) (s : σ) (as : List α) : Prop :=
  ∀ pre t, pre <+: as → run step s pre = some t → P t

theorem always_congr {P Q : σ → Prop} (h : Always step (fun s => P s ↔ Q s) s as) :
    Always step P s as ↔ Always step Q s as :=
  ⟨fun hP pre t hpre ht => (h pre t hpre ht).1 (hP pre t hpre ht),
    fun hQ pre t hpre ht => (h pre t hpre ht).2 (hQ pre t hpre ht)⟩

theorem always_nil {P : σ → Prop} : Always step P s [] ↔ P s := by
  refine ⟨fun h => h [] s List.nil_prefix rfl, fun h pre t hpre ht => ?_⟩
  rw [List.prefix_nil.1 hpre] at ht
  cases ht
  exact h

theorem always_cons {P : σ → Prop} :
    Always step P s (a :: as) ↔ P s ∧ ∀ t, step s a = some t → Always step P t as := by
  constructor
  · intro h
    refine ⟨h [] s List.nil_prefix rfl, fun t ht pre u hpre hu => ?_⟩
    exact h (a :: pre) u ((List.prefix_cons_inj a).2 hpre) (run_cons_eq_some.2 ⟨t, ht, hu⟩)
  · rintro ⟨hs, h⟩ pre u hpre hu
    rcases List.prefix_cons_iff.1 hpre with rfl | ⟨pre', rfl, hpre'⟩
    · cases hu
      exact hs
    · obtain ⟨t, ht, hu⟩ := run_cons_eq_some.1 hu
      exact h t ht pre' u hpre' hu

/-- What the invariant gives in each state holds along a run of allowed steps. -/
theorem always_of_invariant {I P : σ → Prop} (hI : ∀ s, I s → P s)
    (hstep : ∀ s a t, I s → G s a → step s a = some t → I t)
    (hs : I s) (hG : Meets step G s as) : Always step P s as := by
  induction as generalizing s with
  | nil => exact always_nil.2 (hI s hs)
  | cons a as ih =>
    exact always_cons.2 ⟨hI s hs, fun t ht => ih (hstep s a t hs hG.1 ht) (hG.2 t ht)⟩

/-- The same for an invariant that every step keeps. -/
theorem always_of_invariant' {I P : σ → Prop} (hI : ∀ s, I s → P s)
    (hstep : ∀ s a t, I s → step s a = some t → I t) (hs : I s) : Always step P s as :=
  fun _ t _ ht => hI t (run_invariant' hstep hs ht)

theorem Meets.of_invariant {I : σ → Prop} {H : σ → α → Prop} (hI : ∀ s a, I s → G s a → H s a)
    (hstep : ∀ s a t, I s → G s a → step s a = some t → I t)
    (hs : I s) (hG : Meets step G s as) : Meets step H s as := by
  induction as generalizing s with
  | nil => trivial
  | cons a as ih => exact ⟨hI s a hs hG.1, fun t ht => ih (hstep s a t hs hG.1 ht) (hG.2 t ht)⟩

/-- Where the invariant survives every allowed step, and a step that is not allowed breaks `P` at
once, `P` holds along a run exactly when all its steps are allowed. -/
theorem always_iff_meets {I P : σ → Prop} (hI : ∀ s, I s → P s)
    (hstep : ∀ s a t, I s → G s a → step s a = some t → I t)
    (hbad : ∀ s a t, I s → ¬ G s a → step s a = some t → ¬ P t)
    (hs : I s) (hr : run step s as = some u) : Always step P s as ↔ Meets step G s as := by
  induction as generalizing s with
  | nil => exact ⟨fun _ => trivial, fun _ => always_nil.2 (hI s hs)⟩
  | cons a as ih =>
    obtain ⟨t, ht, hu⟩ := run_cons_eq_some.1 hr
    rw [always_cons]
    constructor
    · rintro ⟨-, h⟩
      have hPt : P t := (h t ht) [] t List.nil_prefix rfl
      have hG : G s a := by
        by_contra hG
        exact hbad s a t hs hG ht hPt
      refine ⟨hG, fun t' ht' => ?_⟩
      cases ht.symm.trans ht'
      exact (ih (hstep s a t hs hG ht) hu).1 (h t ht)
    · rintro ⟨hG, h⟩
      refine ⟨hI s hs, fun t' ht' => ?_⟩
      cases ht.symm.trans ht'
      exact (ih (hstep s a t hs hG ht) hu).2 (h t ht)

/-- Where a step is allowed exactly if it does what `T` says and ends in a state of `P`, all steps of a run
are allowed exactly if all of them do and all its states are. -/
theorem always_meets_iff {I P : σ → Prop} {T : σ → α → Prop}
    (hI : ∀ s a t, I s → step s a = some t → I t)
    (hG : ∀ s a t, I s → P s → step s a = some t → (G s a ↔ T s a ∧ P t))
    (hs : I s) (hP : P s) (hr : run step s as = some u) :
    Always step P s as ∧ Meets step T s as ↔ Meets step G s as := by
  induction as generalizing s with
  | nil => exact ⟨fun _ => trivial, fun _ => ⟨always_nil.2 hP, trivial⟩⟩
  | cons a as ih =>
    obtain ⟨t, ht, hu⟩ := run_cons_eq_some.1 hr
    rw [always_cons]
    constructor
    · rintro ⟨⟨-, h⟩, hT, hTs⟩
      have hPt : P t := h t ht [] t List.nil_prefix rfl
      have hrest := (ih (hI s a t hs ht) hPt hu).1 ⟨h t ht, hTs t ht⟩
      exact .cons ht ((hG s a t hs hP ht).2 ⟨hT, hPt⟩) hrest
    · rintro ⟨hGs, h⟩
      obtain ⟨hT, hPt⟩ := (hG s a t hs hP ht).1 hGs
      obtain ⟨hrest, hTs⟩ := (ih (hI s a t hs ht) hPt hu).2 (h t ht)
      refine ⟨⟨hP, fun t' ht' => ?_⟩, .cons ht hT hTs⟩
      cases ht.symm.trans ht'
      exact hrest

/-- Where no step raises the measure before the goal is reached and every counted step lowers it, a
run with more counted steps than the measure reaches the goal. -/
theorem run_reaches {I goal : σ → Prop} {counted : α → Bool} {μ : σ → Nat}
    (hI : ∀ s a t, I s → step s a = some t → I t)
    (hgoal : ∀ s a t, I s → goal s → step s a = some t → goal t)
    (hμ : ∀ s a t, I s → ¬ goal s → step s a = some t → μ t + (counted a).toNat ≤ μ s)
    (hs : I s) (hr : run step s as = some t) (hn : μ s < as.countP counted) : goal t := by
  induction as generalizing s with
  | nil => exact absurd hn (Nat.not_lt_zero _)
  | cons a as ih =>
    obtain ⟨r, hsr, hrt⟩ := run_cons_eq_some.1 hr
    by_cases hg : goal s
    · have hkeep : ∀ s a t, I s ∧ goal s → step s a = some t → I t ∧ goal t :=
        fun s a t h ht => ⟨hI s a t h.1 ht, hgoal s a t h.1 h.2 ht⟩
      exact (run_invariant' hkeep ⟨hI s a r hs hsr, hgoal s a r hs hg hsr⟩ hrt).2
    · refine ih (hI s a r hs hsr) hrt ?_
      have hlower := hμ s a r hs hg hsr
      rw [List.countP_cons] at hn
      cases hc : counted a with
      | false =>
        simp only [hc, Bool.toNat_false, Bool.false_eq_true, if_false] at hlower hn
        omega
      | true =>
        simp only [hc, Bool.toNat_true, if_true] at hlower hn
        omega

/-! ### Total step functions -/

section Total
variable {next : σ → α → σ}

/-- Every action of the run of a total step function is taken in a state where `G` allows it. -/
def Along (next : σ → α → σ) (G : σ → α → Prop) : σ → List α → Prop
  | _, [] => True
  | s, a :: as => G s a ∧ Along next G (next s a) as

theorem run_total (next : σ → α → σ) (s : σ) (as : List α) :
    run (fun s a => some (next s a)) s as = some (as.foldl next s) := by
  induction as generalizing s with
  | nil => rfl
  | cons a as ih => exact ih (next s a)

end Total

end Lts
