import Mathlib.Tactic.IntervalCases
import Rzi.AtArguments
import Rzi.ServiceStart

/-!
# The region from the AT interface (`at_lorawan.c`, `at_lorawan_network_management.c`)

AT+BAND numbers the regions as RUI3 does. A number that is accepted goes into the settings, comes back as
the same number, and is the region that the service is started in, by whatever thread and after whatever
reboots. The table is that of the migration of the old `band` setting.
-/

namespace Rzi.At.Band
open Strtol Settings Storage Lts
open Lorawan.Start (Held Phase getRegion initCall setRegion)

/-- `rzi_at_lorawan_band_to_region`. -/
def bandToRegion : Int → Except Err UInt8
  | 1 => .ok (Region.byte .cn470)
  | 2 => .ok (Region.byte .ru864)
  | 3 => .ok (Region.byte .in865)
  | 4 => .ok (Region.byte .eu868)
  | 5 => .ok (Region.byte .us915)
  | 6 => .ok (Region.byte .au915)
  | 7 => .ok (Region.byte .kr920)
  | 8 => .ok (Region.byte .as923Grp1)
  | 9 => .ok (Region.byte .as923Grp2)
  | 10 => .ok (Region.byte .as923Grp3)
  | 11 => .ok (Region.byte .as923Grp4)
  | _ => .error .invalid

/-- `rzi_at_lorawan_region_to_band`. -/
def regionToBand (region : UInt8) : Int :=
  if region = Region.byte .cn470 then 1
  else if region = Region.byte .ru864 then 2
  else if region = Region.byte .in865 then 3
  else if region = Region.byte .eu868 then 4
  else if region = Region.byte .us915 then 5
  else if region = Region.byte .au915 then 6
  else if region = Region.byte .kr920 then 7
  else if region = Region.byte .as923Grp1 then 8
  else if region = Region.byte .as923Grp2 then 9
  else if region = Region.byte .as923Grp3 then 10
  else if region = Region.byte .as923Grp4 then 11
  else 4

section Model
variable (cfg : Config)

/-- `handle_band`; its check of the number is that of `rzi_at_lorawan_parse_long`. -/
def handleBand (serviceStarted : Bool) (operation : Operation) (argument : List UInt8)
    (faults : List (Option Fault)) (s : Lorawan.Start.State) : Except Err Answer × Lorawan.Start.State :=
  if operation = .read then
    match getRegion cfg faults s with
    | (.error e, s) => (.error e, s)
    | (.ok region, s) => (.ok (.value (ascii "AT+BAND=" ++ signedDecimal (regionToBand region))), s)
  else if serviceStarted then (.error .busy, s)
  else
    match parseLong 32 argument with
    | .error e => (.error e, s)
    | .ok band =>
      match bandToRegion band with
      | .error e => (.error e, s)
      | .ok region => respondOk (setRegion cfg region.toUInt32 faults s)

end Model

/-! ### Bands and regions -/

section Bands
variable {band : Int} {region : UInt8}

theorem bandToRegion_range (h : bandToRegion band = .ok region) : 1 ≤ band ∧ band ≤ 11 := by
  unfold bandToRegion at h
  split at h <;> first | decide | cases h

theorem regionToBand_of_ok (h : bandToRegion band = .ok region) :
    regionToBand region = band ∧ region.toUInt32 ≤ Lorawan.Start.lastRegion := by
  obtain ⟨hlow, hhigh⟩ := bandToRegion_range h
  interval_cases band <;> cases h <;> decide

/-- A band that the migration moves to a region is the band of that region. -/
theorem bandRegion_eq (band : UInt8) : bandRegion band = (bandToRegion band.toNat).toOption := by
  by_cases hband : band.toNat < 12
  · obtain ⟨n, hn⟩ : ∃ n, band.toNat = n := ⟨_, rfl⟩
    rw [hn] at hband
    obtain rfl : band = UInt8.ofNat n := by rw [← hn, UInt8.ofNat_toNat]
    interval_cases n <;> rfl
  · have hlen : bands.length = 12 := rfl
    rw [bandRegion, List.getElem?_eq_none (by omega)]
    cases hr : bandToRegion band.toNat with
    | ok r =>
      have hhigh := (bandToRegion_range hr).2
      omega
    | error e => simp [Except.toOption]

end Bands

/-! ### The command -/

section Command
variable {cfg : Config} {σ : Store} {s u : Lorawan.Start.State} {serviceStarted : Bool}
  {argument : List UInt8} {faults : List (Option Fault)} {band : Int} {region : UInt8}

/-- The number that AT+BAND takes, and its region. -/
def Denotes (argument : List UInt8) (band : Int) (region : UInt8) : Prop :=
  ∃ x, Numeral argument x ∧ x.toInt = band ∧ bandToRegion band = .ok region

/-- The argument of an accepted command is a band. -/
theorem denotes_iff : (∃ value, parseLong 32 argument = .ok value ∧ value = band) ∧
    bandToRegion band = .ok region ↔ Denotes argument band region := by
  constructor
  · rintro ⟨⟨value, hvalue, rfl⟩, hregion⟩
    obtain ⟨x, hx, rfl⟩ := parseLong_ok.1 hvalue
    obtain ⟨hlow, hhigh⟩ := bandToRegion_range hregion
    have hlong : x.long 32 = x.toInt := long_eq_of_mem (by omega) (by omega)
    exact ⟨x, hx, hlong.symm, hregion⟩
  · rintro ⟨x, hx, rfl, hregion⟩
    obtain ⟨hlow, hhigh⟩ := bandToRegion_range hregion
    exact ⟨⟨_, parseLong_ok.2 ⟨x, hx, rfl⟩, long_eq (by omega) (by omega)⟩, hregion⟩

theorem handleBand_write (hok : (handleBand cfg serviceStarted .write argument faults s).1 = .ok .ok) :
    serviceStarted = false ∧ ∃ band region, Denotes argument band region ∧
      (setRegion cfg region.toUInt32 faults s).1 = .ok () ∧
      (handleBand cfg serviceStarted .write argument faults s).2 =
        (setRegion cfg region.toUInt32 faults s).2 := by
  unfold handleBand at hok ⊢
  rw [if_neg (by simp)] at hok ⊢
  cases serviceStarted with
  | true => cases hok
  | false =>
    rw [if_neg (by simp)] at hok ⊢
    cases hparse : parseLong 32 argument with
    | error e =>
      rw [hparse] at hok
      cases hok
    | ok value =>
      simp only [hparse] at hok ⊢
      cases hregion : bandToRegion value with
      | error e =>
        rw [hregion] at hok
        cases hok
      | ok region =>
        simp only [hregion] at hok ⊢
        refine ⟨trivial, value, region, denotes_iff.1 ⟨⟨value, hparse, rfl⟩, hregion⟩, ?_⟩
        rcases hset : setRegion cfg region.toUInt32 faults s with ⟨e | _, t⟩
        · rw [hset] at hok
          cases hok
        · exact ⟨rfl, rfl⟩

theorem handleBand_of_denotes (hband : Denotes argument band region) :
    handleBand cfg false .write argument faults s = respondOk (setRegion cfg region.toUInt32 faults s) := by
  obtain ⟨⟨value, hparse, rfl⟩, hregion⟩ := denotes_iff.2 hband
  simp [handleBand, hparse, hregion]

theorem setRegion_clean (hs : s.started = false) (hrange : region.toUInt32 ≤ Lorawan.Start.lastRegion) :
    (setRegion cfg region.toUInt32 [] s).1 = .ok () := by
  have hvalid : validValue .region [region] = true := by
    have hle : region ≤ 10 := by
      rw [UInt8.le_iff_toNat_le]
      rw [UInt32.le_iff_toNat_le, UInt8.toNat_toUInt32] at hrange
      exact hrange
    exact decide_eq_true hle
  have hwrite : (settingWrite cfg s.settings "region" [region] []).1 = .ok () :=
    settingWrite_clean s.settings (k := .region) rfl hvalid
  simp only [setRegion, UInt32.not_lt.2 hrange, hs, Lorawan.Start.configSetRegion]
  rw [UInt8.toUInt8_toUInt32]
  rcases hw : settingWrite cfg s.settings "region" [region] [] with ⟨e | _, sys⟩
  · rw [hw] at hwrite
    cases hwrite
  · rfl

/-- With working storage AT+BAND takes the numbers from 1 to 11, until the service is started. -/
theorem band_accepted_iff (s : Lorawan.Start.State) :
    (handleBand cfg serviceStarted .write argument [] s).1 = .ok .ok ↔
      serviceStarted = false ∧ s.started = false ∧ ∃ band region, Denotes argument band region := by
  constructor
  · intro hok
    obtain ⟨hstarted, band, region, hband, hset, -⟩ := handleBand_write hok
    refine ⟨hstarted, ?_, band, region, hband⟩
    rcases Lorawan.Start.setRegion_cases cfg region.toUInt32 [] s with ⟨e, he⟩ | ⟨hs, -⟩
    · rw [he] at hset
      cases hset
    · exact hs
  · rintro ⟨rfl, hs, band, region, hband⟩
    have hrange := (regionToBand_of_ok hband.choose_spec.2.2).2
    rw [handleBand_of_denotes hband]
    have hset : (setRegion cfg region.toUInt32 [] s).1 = .ok () := setRegion_clean hs hrange
    rcases hx : setRegion cfg region.toUInt32 [] s with ⟨e | _, t⟩
    · rw [hx] at hset
      cases hset
    · rfl

/-! ### Until another region is accepted -/

/-- The step neither accepts a region nor resets the device, except with the region that is accepted. -/
def Spares (cfg : Config) (s : Lorawan.Start.State) (a : Lorawan.Start.Act) : Prop :=
  ∀ t, Lorawan.Start.step cfg s a = some t → t.accepted = s.accepted

/-- A run in which the resets are complete and no `start_service` stores a region that it had read before
another was accepted. -/
def Orderly (cfg : Config) (s : Lorawan.Start.State) (a : Lorawan.Start.Act) : Prop :=
  Lorawan.Start.Complete s a ∧ Lorawan.Start.Fresh cfg s a

/-- What an orderly run keeps. -/
structure InForce (cfg : Config) (s : Lorawan.Start.State) : Prop where
  phase : Phase s
  coherent : Coherent cfg s.settings
  held : Held cfg s

theorem InForce.step {a : Lorawan.Start.Act} (h : InForce cfg s) (ha : Orderly cfg s a)
    (hstep : Lorawan.Start.step cfg s a = some u) : InForce cfg u := by
  have hmoves := Lorawan.Start.moves_of_step hstep
  exact ⟨h.phase.moves hmoves, Lorawan.Start.coherent_moves h.coherent hmoves ha.1,
    h.held.moves h.coherent hmoves ha.2⟩

theorem inForce_boot (cfg : Config) (σ : Store) : InForce cfg (.boot σ none) :=
  ⟨Lorawan.Start.phase_boot σ none, coherent_boot cfg σ, fun _ h => (by cases h)⟩

/-- An accepted command is a step in which its region is accepted. -/
theorem InForce.set (h : InForce cfg s) (hset : (setRegion cfg region.toUInt32 faults s).1 = .ok ()) :
    InForce cfg (setRegion cfg region.toUInt32 faults s).2 ∧
      (setRegion cfg region.toUInt32 faults s).2.accepted = some region := by
  refine ⟨h.step (a := .setRegion region.toUInt32 faults)
    ⟨trivial, fun _ _ _ _ _ _ hact => (by cases hact)⟩ rfl, ?_⟩
  rcases Lorawan.Start.setRegion_cases cfg region.toUInt32 faults s with ⟨e, he⟩ | ⟨-, sys, hsys, -⟩
  · rw [he] at hset
    cases hset
  · rw [hsys, UInt8.toUInt8_toUInt32]

variable (cfg) in
theorem handleBand_read (serviceStarted : Bool) (argument : List UInt8) (faults : List (Option Fault))
    (s : Lorawan.Start.State) : (handleBand cfg serviceStarted .read argument faults s).1 =
      (getRegion cfg faults s).1.map fun region =>
        .value (ascii "AT+BAND=" ++ signedDecimal (regionToBand region)) := by
  rw [handleBand, if_pos rfl]
  rcases getRegion cfg faults s with ⟨e | region, t⟩
  · rfl
  · rfl

theorem read_answer (h : InForce cfg s) (haccepted : s.accepted = some region)
    (hregion : bandToRegion band = .ok region) {answer : Answer}
    (hread : (handleBand cfg serviceStarted .read argument faults s).1 = .ok answer) :
    answer = .value (ascii "AT+BAND=" ++ signedDecimal band) := by
  have hreported := ((h.held.follows h.phase h.coherent) region haccepted).reported faults
  rw [handleBand_read] at hread
  cases hget : (getRegion cfg faults s).1 with
  | error e =>
    rw [hget] at hread
    cases hread
  | ok value =>
    obtain rfl := hreported value hget
    rw [hget, Except.map, (regionToBand_of_ok hregion).1] at hread
    cases hread
    rfl

/-- With working storage the region is reported. -/
theorem getRegion_clean (h : InForce cfg s) (haccepted : s.accepted = some region) :
    (getRegion cfg [] s).1 = .ok region := by
  obtain ⟨hstored, hconfigured⟩ := h.held region haccepted
  unfold Lorawan.Start.getRegion
  split_ifs with hs
  · rw [hconfigured hs]
  · have hread := settingRead_clean h.coherent .region
    rw [hstored] at hread
    rw [Lorawan.Start.configGetRegion, show settingRead cfg s.settings "region" 1 [] =
      settingRead cfg s.settings Key.region.name Key.region.size [] from rfl]
    rw [hread]
    rfl

/-- **The region of AT+BAND.** In every orderly run of threads, failing starts, storage faults and reboots
from any store contents: with working storage AT+BAND takes exactly the numbers from 1 to 11, and only until
the service is started; and once it has taken one, then until another region is accepted or the device is
reset it prints that number, after reboots too, and the backend is started in no other region. -/
theorem band_printed (cfg : Config) (σ : Store) (before : List Lorawan.Start.Act)
    (hbefore : run (Lorawan.Start.step cfg) (.boot σ none) before = some s)
    (horderly : Meets (Lorawan.Start.step cfg) (Orderly cfg) (.boot σ none) before) (serviceStarted : Bool)
    (argument : List UInt8) :
    ((handleBand cfg serviceStarted .write argument [] s).1 = .ok .ok ↔
      serviceStarted = false ∧ s.started = false ∧ ∃ band region, Denotes argument band region) ∧
    ∀ faults, let x := handleBand cfg serviceStarted .write argument faults s
      x.1 = .ok .ok → ∃ band region, Denotes argument band region ∧ ∀ later u,
        run (Lorawan.Start.step cfg) x.2 later = some u →
          Meets (Lorawan.Start.step cfg) (fun y a => Orderly cfg y a ∧ Spares cfg y a) x.2 later →
          (∀ other, (handleBand cfg other .read [] [] u).1 =
            .ok (.value (ascii "AT+BAND=" ++ signedDecimal band))) ∧
          (∀ other faults answer, (handleBand cfg other .read [] faults u).1 = .ok answer →
            answer = .value (ascii "AT+BAND=" ++ signedDecimal band)) ∧
          ∀ value bypass, u.backend = some (value, bypass) → value = region := by
  refine ⟨band_accepted_iff s, ?_⟩
  intro faults x hok
  have hforce : InForce cfg s :=
    run_invariant (fun _ _ _ h ha hstep => h.step ha hstep) (inForce_boot cfg σ) horderly hbefore
  obtain ⟨-, band, region, hband, hset, hx⟩ := handleBand_write hok
  obtain ⟨hwritten, haccepted⟩ := hforce.set hset
  rw [← hx] at hwritten haccepted
  refine ⟨band, region, hband, fun later u hlater hspares => ?_⟩
  have hkeep : ∀ y a z, InForce cfg y ∧ y.accepted = some region → Orderly cfg y a ∧ Spares cfg y a →
      Lorawan.Start.step cfg y a = some z → InForce cfg z ∧ z.accepted = some region :=
    fun y a z hy ha hstep => ⟨hy.1.step ha.1 hstep, (ha.2 z hstep).trans hy.2⟩
  obtain ⟨hu, hregion⟩ := run_invariant hkeep ⟨hwritten, haccepted⟩ hspares hlater
  have hdenotes := hband.choose_spec.2.2
  refine ⟨fun other => ?_, fun other faults answer => read_answer hu hregion hdenotes,
    ((hu.held.follows hu.phase hu.coherent) region hregion).started⟩
  rw [handleBand_read, getRegion_clean hu hregion, Except.map, (regionToBand_of_ok hdenotes).1]

/-- A later region fails in storage, and the device reboots and starts in the region of the number. -/
def usStart : List Lorawan.Start.Act :=
  [.setRegion 4 [some ioFault], .reboot, .init 0 1 [], .advance 0 (.ok ()) [], .advance 0 (.ok ()) []]

theorem band_printed_us915 :
    ∃ u, run (Lorawan.Start.step defaultConfig) (handleBand defaultConfig false .write (ascii " 5") []
        (.boot (fun _ => []) none)).2 usStart = some u ∧
      (handleBand defaultConfig true .read [] [] u).1 = .ok (.value (ascii "AT+BAND=5")) := by
  obtain ⟨band, region, ⟨x, hx, rfl, hregion⟩, hlater⟩ :=
    (band_printed defaultConfig (fun _ => []) [] rfl trivial false (ascii " 5")).2 [] rfl
  obtain rfl : x = ⟨false, 5⟩ := hx.unique (numeral_iff.2 rfl)
  obtain ⟨u, hu⟩ : ∃ u, run (Lorawan.Start.step defaultConfig)
      (handleBand defaultConfig false .write (ascii " 5") [] (.boot (fun _ => []) none)).2 usStart = some u :=
    ⟨_, rfl⟩
  refine ⟨u, hu, (hlater usStart u hu ?_).1 true⟩
  refine .cons rfl ⟨⟨trivial, ?_⟩, ?_⟩ (.cons rfl ⟨⟨trivial, ?_⟩, ?_⟩ (.cons rfl ⟨⟨trivial, ?_⟩, ?_⟩
    (.cons rfl ⟨⟨trivial, ?_⟩, ?_⟩ (.cons rfl ⟨⟨trivial, ?_⟩, ?_⟩ trivial))))
  any_goals
    intro t ht
    cases ht
    rfl
  -- the only thread that moves is inside `rzi_lorawan_init`
  all_goals
    intro t answer faults region bypass accepted hact hgot
    cases hact
  all_goals cases hgot

end Command

end Rzi.At.Band
