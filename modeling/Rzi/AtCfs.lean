import Rzi.AtSend

/-!
# The confirmation status (`handle_cfs`)

AT+CFS=? reports `confirmation_status`, which `on_event` sets when a confirmed uplink was
acknowledged and clears when one was not sent. A confirmed uplink that was sent and never
acknowledged completes as SENT and leaves the status of the confirmed uplink before it.
`cfs_truthful_iff` says when the report is that of the last confirmed uplink, over the histories in
which no line is executed while an uplink is outstanding (`serialStep`).
-/

namespace Rzi.At.Send
open Lts
open Zephyr (TxStatus)

/-- The value `handle_cfs` answers with. -/
def cfsText (context : Context) : List UInt8 :=
  if context.confirmationStatus then ascii "AT+CFS=1" else ascii "AT+CFS=0"

def handleCfs {ω : Type*} (port : Port ω) (context : Context) (s : At.State ω) :
    Int × At.State ω := respondValue port (cfsText context) s

/-- The status with which the last confirmed uplink completed. -/
def lastConfirmed (printed : List Printed) : Option TxStatus :=
  (printed.filter (·.uplink.confirmed)).getLast?.map (·.status)

/-- AT+CFS=? reports 1 exactly if a confirmed uplink has completed and the last one was
acknowledged. -/
def CfsTruthful (s : State) : Prop :=
  cfsText s.context = ascii "AT+CFS=1" ↔ lastConfirmed s.printed = some .confirmed

/-- The steps of a history in which each accepted uplink completes before the next line. -/
def serialStep (s : State) (a : Act) : Option State :=
  match a with
  | .line _ => if s.outstanding.isEmpty then step s a else none
  | _ => step s a

/-- A confirmed uplink completes as SENT only if the confirmed uplink before it was not
acknowledged. -/
def NotAfterAck (s : State) : Act → Prop
  | .txDone .sent => ∀ u, s.outstanding.head? = some u → u.confirmed = true →
      lastConfirmed s.printed ≠ some .confirmed
  | _ => True

/-- The flag is the mode of the uplink that is being sent or is outstanding. -/
structure FlagCurrent (s : State) : Prop where
  handler : ∀ u, s.handler = some u → s.context.txConfirmed = u.confirmed ∧ s.outstanding = []
  outstanding : ∀ u ∈ s.outstanding, s.context.txConfirmed = u.confirmed

variable {s t : State} {a : Act}

/-- What AT+CFS=? writes, with a buffer of the size the build allows. -/
theorem handleCfs_out {ω : Type*} (port : Port ω) (context : Context) (s : At.State ω)
    (hsize : 128 ≤ port.txBufferSize) : (handleCfs port context s).2.out =
      s.out ++ [crlf ++ cfsText context ++ (crlf ++ ascii "OK" ++ crlf)] := by
  have hlen : (cfsText context).length = 8 := by
    unfold cfsText
    split <;> decide
  have hcrlf : crlf.length = 2 := rfl
  have hsuffix : (crlf ++ ascii "OK" ++ crlf).length = 6 := by decide
  unfold handleCfs respondValue writeFormatted
  rw [if_neg (by omega), if_neg (by omega), if_neg (by omega)]
  rfl

theorem cfsText_eq_iff (context : Context) :
    cfsText context = ascii "AT+CFS=1" ↔ context.confirmationStatus = true := by
  unfold cfsText
  cases context.confirmationStatus with
  | false => exact ⟨fun h => absurd h (by decide), fun h => by cases h⟩
  | true => exact ⟨fun _ => rfl, fun _ => rfl⟩

theorem lastConfirmed_append (printed : List Printed) (p : Printed) :
    lastConfirmed (printed ++ [p]) =
      if p.uplink.confirmed then some p.status else lastConfirmed printed := by
  unfold lastConfirmed
  rw [List.filter_append]
  cases hc : p.uplink.confirmed with
  | false => simp [hc]
  | true => simp [hc]

/-- A step of a serial history is a step, and a line finds no uplink outstanding. -/
theorem serialStep_eq (h : serialStep s a = some t) :
    step s a = some t ∧ ∀ l, a = .line l → s.outstanding = [] := by
  cases a with
  | line l =>
    simp only [serialStep] at h
    split at h
    · rename_i hempty
      exact ⟨h, fun _ _ => List.isEmpty_iff.1 hempty⟩
    · cases h
  | answer rc => exact ⟨h, nofun⟩
  | txDone status => exact ⟨h, nofun⟩

theorem FlagCurrent.step (h : FlagCurrent s) (ht : serialStep s a = some t) : FlagCurrent t := by
  obtain ⟨ht, hempty⟩ := serialStep_eq ht
  cases a with
  | line l =>
    have hout := hempty l rfl
    simp only [Send.step] at ht
    split at ht
    · cases ht
    · rename_i hidle
      split at ht
      · cases ht
        exact ⟨h.handler, h.outstanding⟩
      · rename_i u _
        cases ht
        refine ⟨fun v hv => ?_, fun v hv => ?_⟩
        · cases hv
          exact ⟨rfl, hout⟩
        · rw [hout] at hv
          cases hv
  | answer rc =>
    simp only [Send.step] at ht
    split at ht
    · cases ht
    · rename_i u hu
      obtain ⟨hflag, hout⟩ := h.handler u hu
      cases ht
      refine ⟨fun v hv => (by cases hv), fun v hv => ?_⟩
      rw [hout] at hv
      split at hv
      · obtain rfl := List.mem_singleton.1 hv
        exact hflag
      · cases hv
  | txDone status =>
    simp only [Send.step] at ht
    split at ht
    · cases ht
    · rename_i u outstanding hu
      cases ht
      have hflag := (onTxDone_eq status s.context).2
      refine ⟨fun v hv => ?_, fun v hv => ?_⟩
      · have hnil := (h.handler v hv).2
        rw [hu] at hnil
        cases hnil
      · show (onTxDone status s.context).1.txConfirmed = v.confirmed
        rw [hflag]
        exact h.outstanding v (by rw [hu]; exact List.mem_cons_of_mem _ hv)

/-- What a TXDONE makes of the status. -/
theorem onTxDone_confirmationStatus (status : TxStatus) (context : Context) :
    (onTxDone status context).1.confirmationStatus =
      if context.txConfirmed = true ∧ status = .confirmed then true
      else if context.txConfirmed = true ∧ status = .notSent then false
      else context.confirmationStatus := by
  obtain ⟨confirmation, flag⟩ := context
  cases flag <;> cases status <;> rfl

/-- The report stays truthful in one step exactly if the step is no SENT after an acknowledgement. -/
theorem cfsTruthful_step (h : FlagCurrent s) (hs : CfsTruthful s) (ht : step s a = some t) :
    CfsTruthful t ↔ NotAfterAck s a := by
  unfold CfsTruthful at hs ⊢
  rw [cfsText_eq_iff] at hs ⊢
  cases a with
  | line l =>
    obtain ⟨hprinted, hstatus⟩ := step_unpublished ht nofun
    rw [hstatus, hprinted]
    exact ⟨fun _ => trivial, fun _ => hs⟩
  | answer rc =>
    obtain ⟨hprinted, hstatus⟩ := step_unpublished ht nofun
    rw [hstatus, hprinted]
    exact ⟨fun _ => trivial, fun _ => hs⟩
  | txDone status =>
    simp only [step] at ht
    split at ht
    · cases ht
    rename_i u outstanding hu
    cases ht
    have hflag : s.context.txConfirmed = u.confirmed := h.outstanding u (by rw [hu]; simp)
    rw [lastConfirmed_append, onTxDone_confirmationStatus, hflag]
    cases hc : u.confirmed with
    | false =>
      have hmeets : NotAfterAck s (.txDone status) := by
        cases status with
        | sent =>
          intro v hv hconfirmed
          rw [hu] at hv
          cases hv
          rw [hc] at hconfirmed
          cases hconfirmed
        | confirmed => trivial
        | notSent => trivial
      simpa using iff_of_true hs hmeets
    | true =>
      cases status with
      | confirmed => exact iff_of_true (by simp) trivial
      | notSent => exact iff_of_true (by simp) trivial
      | sent =>
        have hmeets : NotAfterAck s (.txDone .sent) ↔ lastConfirmed s.printed ≠ some .confirmed := by
          exact ⟨fun hG => hG u (by rw [hu]; rfl) hc, fun hne _ _ _ => hne⟩
        rw [hmeets, ne_eq, ← hs]
        simp

/-- **AT+CFS tells the truth.** In a history in which each accepted uplink completes before the next
line, AT+CFS=? always reports 1 exactly if the last confirmed uplink was acknowledged, if and only if
no confirmed uplink completes as SENT right after an acknowledged one. -/
theorem cfs_truthful_iff (as : List Act) (hr : run serialStep State.init as = some t) :
    Always serialStep CfsTruthful State.init as ↔ Meets serialStep NotAfterAck State.init as := by
  have hinit : FlagCurrent State.init ∧ CfsTruthful State.init := by
    refine ⟨⟨nofun, nofun⟩, ?_⟩
    unfold CfsTruthful
    rw [cfsText_eq_iff]
    exact ⟨nofun, nofun⟩
  refine always_iff_meets (I := fun s => FlagCurrent s ∧ CfsTruthful s) (fun _ h => h.2)
    (fun _ _ _ h hG ht => ?_) (fun _ _ _ h hG ht => ?_) hinit hr
  · exact ⟨h.1.step ht, (cfsTruthful_step h.1 h.2 (serialStep_eq ht).1).2 hG⟩
  · exact fun hp => hG ((cfsTruthful_step h.1 h.2 (serialStep_eq ht).1).1 hp)

/-- A confirmed uplink is acknowledged, and a second one is not sent. -/
def acknowledgedThenNotSent : List Act :=
  [.line (.lpsend (ascii "2:1:48")), .answer (.ok ()), .txDone .confirmed,
    .line (.lpsend (ascii "2:1:49")), .answer (.ok ()), .txDone .notSent]

theorem cfs_truthful_not_sent :
    Always serialStep CfsTruthful State.init acknowledgedThenNotSent := by
  refine (cfs_truthful_iff acknowledgedThenNotSent (t :=
    (run serialStep State.init acknowledgedThenNotSent).getD State.init) rfl).2 ?_
  exact .cons rfl trivial <| .cons rfl trivial <| .cons rfl trivial <| .cons rfl trivial <|
    .cons rfl trivial <| .cons rfl trivial trivial

/-- The second one is sent and never acknowledged. -/
def acknowledgedThenSent : List Act :=
  [.line (.lpsend (ascii "2:1:48")), .answer (.ok ()), .txDone .confirmed,
    .line (.lpsend (ascii "2:1:49")), .answer (.ok ()), .txDone .sent]

theorem cfs_stale_after_sent : ¬ ∀ as t, run serialStep State.init as = some t →
    Always serialStep CfsTruthful State.init as := by
  intro h
  have hlast : ((run serialStep State.init acknowledgedThenSent).map fun s =>
      (s.context.confirmationStatus, lastConfirmed s.printed)) = some (true, some .sent) := by
    decide
  obtain ⟨t, ht, hstate⟩ := Option.map_eq_some_iff.1 hlast
  have htruthful := h acknowledgedThenSent t ht acknowledgedThenSent t (List.prefix_refl _) ht
  unfold CfsTruthful at htruthful
  rw [cfsText_eq_iff, (Prod.mk.inj hstate).1, (Prod.mk.inj hstate).2] at htruthful
  exact absurd (htruthful.1 rfl) (by decide)

end Rzi.At.Send
