import Rzi.AtP2pParameters
import Rzi.UspBackend
import Rzi.Lib.Run

/-!
# Link parameters as text (`at_lorawan_network_management.c`, `api/lorawan_network.c`, USP backend)

AT+ADR, AT+DR, AT+PNM, AT+LBT, AT+LBTRSSI and AT+LBTSCANTIME go through `lorawan_network.c` and the network
table of the USP backend to LoRa Basics Modem, where the parameters are kept. The modem is the parameter
`Lbm`: what its getters answer is its `View`, and `Lawful` what its setters document. The other parameters of
the file are those that no backend has. `control_printed` says what is printed, across the commands that
share a parameter.
-/

namespace Rzi.At.LinkControl
open Strtol Lts
open Usp (ModemRc uspResult)
open P2p (parseBool)

/-- `smtc_modem_adr_profile_t`. -/
inductive AdrProfile where
  | networkControlled | mobileLongRange | mobileLowPower | custom
deriving DecidableEq, Repr

/-- The parameters of `smtc_modem_lbt_set_parameters`. -/
structure LbtParameters where
  durationMs : UInt32
  thresholdDbm : Int16
  bwHz : UInt32
deriving DecidableEq

/-- What the getters answer. -/
structure View where
  profile : ModemRc × AdrProfile
  networkType : ModemRc × Bool
  lbtState : ModemRc × Bool
  lbtParameters : ModemRc × LbtParameters

/-- The functions of LoRa Basics Modem, on its states. -/
structure Lbm (μ : Type) where
  /-- `smtc_modem_get_status`: whether the joined bit is set -/
  status : μ → ModemRc × Bool
  view : μ → View
  /-- `lorawan_api_next_dr_get` -/
  nextDr : μ → UInt8
  enabledDatarates : μ → ModemRc × UInt16
  adrSetProfile : AdrProfile → Vector UInt8 16 → μ → ModemRc × μ
  setNetworkType : Bool → μ → ModemRc × μ
  lbtSetState : Bool → μ → ModemRc × μ
  lbtSetParameters : LbtParameters → μ → ModemRc × μ

structure State (μ : Type) where
  /-- what `rzi_lorawan_check_started` answers -/
  started : Except Err Unit
  /-- the backend is ready -/
  ready : Bool
  modem : μ

section Model
variable {μ : Type} (lbm : Lbm μ)

/-! ### The backend (`lorawan_backend_usp_network.c`) -/

def lbtDefault : LbtParameters := ⟨5, -80, 200000⟩

/-- The answer of a getter. -/
def result {α : Type} (x : ModemRc × α) : Except Err α := (uspResult x.1).map fun _ => x.2

/-- The answer of a setter. -/
def changed (x : ModemRc × μ) : Except Err Unit × μ := (uspResult x.1, x.2)

/-- `rzi_lorawan_usp_require_joined`. -/
def requireJoined (m : μ) : Except Err Unit :=
  match result (lbm.status m) with
  | .error e => .error e
  | .ok joined => if joined then .ok () else .error .notJoined

def setProfile (profile : AdrProfile) (distribution : Option (Vector UInt8 16)) (m : μ) :
    Except Err Unit × μ :=
  match requireJoined lbm m with
  | .error e => (.error e, m)
  | .ok () => changed (lbm.adrSetProfile profile (distribution.getD (.replicate 16 0)) m)

def pinDataRate (dataRate : UInt8) : μ → Except Err Unit × μ :=
  setProfile lbm .custom (some (.replicate 16 dataRate))

def uspGetAdr (m : μ) : Except Err Bool :=
  (result (lbm.view m).profile).map fun profile => profile = .networkControlled

def uspSetAdr (enabled : Bool) (m : μ) : Except Err Unit × μ :=
  if enabled then setProfile lbm .networkControlled none m else pinDataRate lbm (lbm.nextDr m) m

def uspSetAdrProfile (profile : AdrProfile) (distribution : Option (Vector UInt8 16)) :
    μ → Except Err Unit × μ :=
  setProfile lbm profile (if profile = .custom then distribution else none)

def uspGetPublicNetwork (m : μ) : Except Err Bool := result (lbm.view m).networkType

def uspSetPublicNetwork (enabled : Bool) (m : μ) : Except Err Unit × μ :=
  changed (lbm.setNetworkType enabled m)

def uspGetLbt (m : μ) : Except Err Bool := result (lbm.view m).lbtState

def uspSetLbt (enabled : Bool) (m : μ) : Except Err Unit × μ :=
  if enabled then
    match changed (lbm.lbtSetParameters lbtDefault m) with
    | (.error e, m) => (.error e, m)
    | (.ok (), m) => changed (lbm.lbtSetState enabled m)
  else changed (lbm.lbtSetState enabled m)

/-- The parameters that a setter of one of them starts from. -/
def lbtCurrent (m : μ) : LbtParameters :=
  match result (lbm.view m).lbtParameters with
  | .error _ => lbtDefault
  | .ok parameters => parameters

def uspGetLbtRssi (m : μ) : Except Err Int16 := (result (lbm.view m).lbtParameters).map (·.thresholdDbm)

def uspSetLbtRssi (rssiDbm : Int16) (m : μ) : Except Err Unit × μ :=
  changed (lbm.lbtSetParameters { lbtCurrent lbm m with thresholdDbm := rssiDbm } m)

def uspGetLbtScanTime (m : μ) : Except Err UInt32 := (result (lbm.view m).lbtParameters).map (·.durationMs)

def uspSetLbtScanTime (timeMs : UInt32) (m : μ) : Except Err Unit × μ :=
  changed (lbm.lbtSetParameters { lbtCurrent lbm m with durationMs := timeMs } m)

/-! ### The service (`api/lorawan_network.c`) -/

/-- `CALL_NETWORK_OP` with a getter, and `rzi_lorawan_usp_enter`. -/
def query {α : Type} (s : State μ) (get : μ → Except Err α) : Except Err α :=
  match s.started with
  | .error e => .error e
  | .ok () => if s.ready then get s.modem else .error .notReady

/-- `CALL_NETWORK_OP` with a setter, and `rzi_lorawan_usp_enter`. -/
def change (set : μ → Except Err Unit × μ) (s : State μ) : Except Err Unit × State μ :=
  match s.started with
  | .error e => (.error e, s)
  | .ok () =>
    if s.ready then ((set s.modem).1, { s with modem := (set s.modem).2 }) else (.error .notReady, s)

/-- `unsupported`. -/
def unsupported {α : Type} (s : State μ) : Except Err α :=
  match s.started with
  | .error e => .error e
  | .ok () => .error .notSupported

/-- `check_uplink_data_rate`. -/
def checkUplinkDataRate (dataRate : UInt8) (s : State μ) : Except Err Unit :=
  if 15 < dataRate then .error .invalid
  else
    match if s.ready then result (lbm.enabledDatarates s.modem) else .error .notReady with
    | .error e => .error e
    | .ok mask => if mask &&& (1 <<< dataRate.toUInt16) ≠ 0 then .ok () else .error .invalid

/-- `distribution_valid`. -/
def distributionValid (distribution : Option (Vector UInt8 16)) : Bool :=
  match distribution with
  | none => false
  | some distribution => distribution.all fun slot => slot ≤ 15

/-- The calls of the service that change a parameter. -/
inductive Call (μ : Type) where
  | setAdr (enabled : Bool)
  /-- the data rate is checked in a section of its own, in the state `checked` -/
  | setDataRate (checked : State μ) (dataRate : UInt8)
  | setAdrProfile (profile : AdrProfile) (distribution : Option (Vector UInt8 16))
  | setPublicNetwork (enabled : Bool)
  | setLbt (enabled : Bool)
  | setLbtRssi (rssiDbm : Int16)
  | setLbtScanTime (timeMs : UInt32)

def Call.run (s : State μ) : Call μ → Except Err Unit × State μ
  | .setAdr enabled => change (uspSetAdr lbm enabled) s
  | .setDataRate checked dataRate =>
    match checked.started with
    | .error e => (.error e, s)
    | .ok () =>
      match checkUplinkDataRate lbm dataRate checked with
      | .error e => (.error e, s)
      | .ok () =>
        if s.ready then
          ((pinDataRate lbm dataRate s.modem).1, { s with modem := (pinDataRate lbm dataRate s.modem).2 })
        else (.error .notReady, s)
  | .setAdrProfile profile distribution =>
    if profile = .custom ∧ !distributionValid distribution then (.error .invalid, s)
    else change (uspSetAdrProfile lbm profile distribution) s
  | .setPublicNetwork enabled => change (uspSetPublicNetwork lbm enabled) s
  | .setLbt enabled => change (uspSetLbt lbm enabled) s
  | .setLbtRssi rssiDbm => change (uspSetLbtRssi lbm rssiDbm) s
  | .setLbtScanTime timeMs =>
    if timeMs = 0 then (.error .invalid, s) else change (uspSetLbtScanTime lbm timeMs) s

/-! ### The commands -/

/-- The reply to a read. -/
def printed (name text : List UInt8) : Answer := .value (ascii "AT+" ++ name ++ ascii "=" ++ text)

def handleBool (name : List UInt8) (get : State μ → Except Err Bool)
    (set : Bool → State μ → Except Err Unit × State μ)
    (operation : Operation) (argument : List UInt8) (s : State μ) : Except Err Answer × State μ :=
  if operation = .read then ((get s).map fun enabled => printed name (P2p.flagText enabled), s)
  else
    match parseBool argument with
    | .error e => (.error e, s)
    | .ok enabled => respondOk (set enabled s)

def handleU32 (name : List UInt8) (get : State μ → Except Err UInt32)
    (set : UInt32 → State μ → Except Err Unit × State μ) (scale : UInt32)
    (operation : Operation) (argument : List UInt8) (s : State μ) : Except Err Answer × State μ :=
  if operation = .read then ((get s).map fun value => printed name (decimal (value / scale).toNat), s)
  else
    match parseLong 32 argument with
    | .error _ => (.error .invalid, s)
    | .ok parsed =>
      if parsed ≤ 0 then (.error .invalid, s) else respondOk (set (UInt32.ofNat parsed.toNat * scale) s)

/-- `handle_dr`, `handle_txp` and `handle_rx2dr`. -/
def handleUpTo15 (name : List UInt8) (get : State μ → Except Err UInt8)
    (set : UInt8 → State μ → Except Err Unit × State μ)
    (operation : Operation) (argument : List UInt8) (s : State μ) : Except Err Answer × State μ :=
  if operation = .read then ((get s).map fun value => printed name (decimal value.toNat), s)
  else
    match parseLong 32 argument with
    | .error _ => (.error .invalid, s)
    | .ok parsed =>
      if parsed < 0 ∨ 15 < parsed then (.error .invalid, s) else respondOk (set (UInt8.ofNat parsed.toNat) s)

def handleAdr : Operation → List UInt8 → State μ → Except Err Answer × State μ :=
  handleBool (ascii "ADR") (query · (uspGetAdr lbm)) fun enabled s => (Call.setAdr enabled).run lbm s

def handlePnm : Operation → List UInt8 → State μ → Except Err Answer × State μ :=
  handleBool (ascii "PNM") (query · (uspGetPublicNetwork lbm)) fun enabled s =>
    (Call.setPublicNetwork enabled).run lbm s

def handleLbt : Operation → List UInt8 → State μ → Except Err Answer × State μ :=
  handleBool (ascii "LBT") (query · (uspGetLbt lbm)) fun enabled s => (Call.setLbt enabled).run lbm s

/-- `checked` is the state in which the data rate is checked. -/
def handleDr (checked : State μ) : Operation → List UInt8 → State μ → Except Err Answer × State μ :=
  handleUpTo15 (ascii "DR") (query · fun m => .ok (lbm.nextDr m)) fun dataRate s =>
    (Call.setDataRate checked dataRate).run lbm s

def handleLbtRssi (operation : Operation) (argument : List UInt8) (s : State μ) :
    Except Err Answer × State μ :=
  if operation = .read then
    ((query s (uspGetLbtRssi lbm)).map fun rssi => printed (ascii "LBTRSSI") (signedDecimal rssi.toInt), s)
  else
    match parseLong 32 argument with
    | .error e => (.error e, s)
    | .ok parsed => respondOk ((Call.setLbtRssi (Int16.ofInt parsed)).run lbm s)

def handleLbtScan : Operation → List UInt8 → State μ → Except Err Answer × State μ :=
  handleU32 (ascii "LBTSCANTIME") (query · (uspGetLbtScanTime lbm))
    (fun timeMs s => (Call.setLbtScanTime timeMs).run lbm s) 1

/-! The parameters that no backend has. -/

def refuse (s : State μ) : Except Err Unit × State μ := (unsupported s, s)

def handleDcs : Operation → List UInt8 → State μ → Except Err Answer × State μ :=
  handleBool (ascii "DCS") unsupported fun _ => refuse

def handleTxp : Operation → List UInt8 → State μ → Except Err Answer × State μ :=
  handleUpTo15 (ascii "TXP") unsupported fun _ => refuse

def handleRx2dr : Operation → List UInt8 → State μ → Except Err Answer × State μ :=
  handleUpTo15 (ascii "RX2DR") unsupported fun _ => refuse

def handleRx1dl : Operation → List UInt8 → State μ → Except Err Answer × State μ :=
  handleU32 (ascii "RX1DL") unsupported (fun _ => refuse) 1000

def handleRx2dl : Operation → List UInt8 → State μ → Except Err Answer × State μ :=
  handleU32 (ascii "RX2DL") unsupported (fun _ => refuse) 1000

def handleJn1dl : Operation → List UInt8 → State μ → Except Err Answer × State μ :=
  handleU32 (ascii "JN1DL") unsupported (fun _ => refuse) 1000

def handleJn2dl : Operation → List UInt8 → State μ → Except Err Answer × State μ :=
  handleU32 (ascii "JN2DL") unsupported (fun _ => refuse) 1000

def handleRx2fq : Operation → List UInt8 → State μ → Except Err Answer × State μ :=
  handleU32 (ascii "RX2FQ") unsupported (fun _ => refuse) 1

/-- The handlers of the `commands` table for them. -/
def absentHandlers : List (Operation → List UInt8 → State μ → Except Err Answer × State μ) :=
  [handleDcs, handleTxp, handleRx2dr, handleRx1dl, handleRx2dl, handleJn1dl, handleJn2dl, handleRx2fq]

/-- The commands of the `commands` table that a backend has. -/
inductive Command where
  | adr | dr | pnm | lbt | lbtRssi | lbtScanTime
deriving DecidableEq, Repr

/-- `checked` is for AT+DR. -/
def Command.handle (checked : State μ) : Command → Operation → List UInt8 → State μ →
    Except Err Answer × State μ
  | .adr => handleAdr lbm
  | .dr => handleDr lbm checked
  | .pnm => handlePnm lbm
  | .lbt => handleLbt lbm
  | .lbtRssi => handleLbtRssi lbm
  | .lbtScanTime => handleLbtScan lbm

/-! ### Histories -/

inductive Act (μ : Type) where
  /-- a call of any thread; a command is one -/
  | call (c : Call μ)
  /-- the modem changes its state -/
  | modem (m : μ)
  /-- the service or the backend starts or stops -/
  | service (started : Except Err Unit) (ready : Bool)

def next (s : State μ) : Act μ → State μ
  | .call c => (c.run lbm s).2
  | .modem m => { s with modem := m }
  | .service started ready => { s with started := started, ready := ready }

end Model

/-- What the modem documents of its setters: one that returns OK is answered by its getter, and one that does
not changes nothing. -/
structure Lawful {μ : Type} (lbm : Lbm μ) : Prop where
  adrSetProfile : ∀ p d m, lbm.view (lbm.adrSetProfile p d m).2 =
    if (lbm.adrSetProfile p d m).1 = .ok then { lbm.view m with profile := (.ok, p) } else lbm.view m
  setNetworkType : ∀ e m, lbm.view (lbm.setNetworkType e m).2 =
    if (lbm.setNetworkType e m).1 = .ok then { lbm.view m with networkType := (.ok, e) } else lbm.view m
  lbtSetState : ∀ e m, lbm.view (lbm.lbtSetState e m).2 =
    if (lbm.lbtSetState e m).1 = .ok then { lbm.view m with lbtState := (.ok, e) } else lbm.view m
  lbtSetParameters : ∀ p m, lbm.view (lbm.lbtSetParameters p m).2 =
    if (lbm.lbtSetParameters p m).1 = .ok then { lbm.view m with lbtParameters := (.ok, p) } else lbm.view m

/-- The parameters that are printed as they were set. -/
inductive Param where
  | adr | pnm | lbt | lbtRssi | lbtScanTime
deriving DecidableEq, Repr

namespace Param

def command : Param → Command
  | .adr => .adr
  | .pnm => .pnm
  | .lbt => .lbt
  | .lbtRssi => .lbtRssi
  | .lbtScanTime => .lbtScanTime

def name : Param → List UInt8
  | .adr => ascii "ADR"
  | .pnm => ascii "PNM"
  | .lbt => ascii "LBT"
  | .lbtRssi => ascii "LBTRSSI"
  | .lbtScanTime => ascii "LBTSCANTIME"

/-- The text of a parameter. -/
def text (v : View) : Param → Except Err (List UInt8)
  | .adr => (result v.profile).map fun profile => P2p.flagText (profile = .networkControlled)
  | .pnm => (result v.networkType).map P2p.flagText
  | .lbt => (result v.lbtState).map P2p.flagText
  | .lbtRssi => (result v.lbtParameters).map fun parameters => signedDecimal parameters.thresholdDbm.toInt
  | .lbtScanTime => (result v.lbtParameters).map fun parameters => decimal parameters.durationMs.toNat

end Param

section Setters
variable {μ : Type} {lbm : Lbm μ} {s : State μ} {c : Call μ} {p : Param} {text : List UInt8}

/-- What a call sets a parameter to: a data rate switches ADR off, and LBT is enabled with default
parameters. -/
def Call.gives : Call μ → Param → Option (List UInt8)
  | .setAdr enabled, .adr => some (P2p.flagText enabled)
  | .setDataRate _ _, .adr => some (P2p.flagText false)
  | .setAdrProfile profile _, .adr => some (P2p.flagText (profile = .networkControlled))
  | .setPublicNetwork enabled, .pnm => some (P2p.flagText enabled)
  | .setLbt enabled, .lbt => some (P2p.flagText enabled)
  | .setLbt true, .lbtRssi => some (signedDecimal (-80))
  | .setLbt true, .lbtScanTime => some (decimal 5)
  | .setLbtRssi rssiDbm, .lbtRssi => some (signedDecimal rssiDbm.toInt)
  | .setLbtScanTime timeMs, .lbtScanTime => some (decimal timeMs.toNat)
  | _, _ => none

theorem uspResult_ok {rc : ModemRc} : uspResult rc = .ok () ↔ rc = .ok := by
  cases rc <;> simp [uspResult]

/-- What a call does to the view of the modem: nothing where it is refused, but for AT+LBT=1. -/
inductive Effect (v : View) : Call μ → Except Err Unit → View → Prop
  | refused (c : Call μ) (e : Err) : Effect v c (.error e) v
  | defaults (e : Err) : Effect v (.setLbt true) (.error e) { v with lbtParameters := (.ok, lbtDefault) }
  | setAdr (enabled : Bool) (profile : AdrProfile)
      (hprofile : (profile = .networkControlled) ↔ enabled = true) :
      Effect v (.setAdr enabled) (.ok ()) { v with profile := (.ok, profile) }
  | setDataRate (checked : State μ) (dataRate : UInt8) :
      Effect v (.setDataRate checked dataRate) (.ok ()) { v with profile := (.ok, .custom) }
  | setAdrProfile (profile : AdrProfile) (distribution : Option (Vector UInt8 16)) :
      Effect v (.setAdrProfile profile distribution) (.ok ()) { v with profile := (.ok, profile) }
  | setPublicNetwork (enabled : Bool) :
      Effect v (.setPublicNetwork enabled) (.ok ()) { v with networkType := (.ok, enabled) }
  | setLbt :
      Effect v (.setLbt true) (.ok ()) { v with lbtParameters := (.ok, lbtDefault), lbtState := (.ok, true) }
  | clearLbt : Effect v (.setLbt false) (.ok ()) { v with lbtState := (.ok, false) }
  | setLbtRssi (rssiDbm : Int16) (q : LbtParameters)
      (hq : ∀ q', result v.lbtParameters = .ok q' → q.durationMs = q'.durationMs) :
      Effect v (.setLbtRssi rssiDbm) (.ok ())
        { v with lbtParameters := (.ok, { q with thresholdDbm := rssiDbm }) }
  | setLbtScanTime (timeMs : UInt32) (q : LbtParameters)
      (hq : ∀ q', result v.lbtParameters = .ok q' → q.thresholdDbm = q'.thresholdDbm) :
      Effect v (.setLbtScanTime timeMs) (.ok ())
        { v with lbtParameters := (.ok, { q with durationMs := timeMs }) }

/-- A setter of one parameter is refused, or sets it. -/
theorem changed_cases {x : ModemRc × μ} {v w : View} (h : lbm.view x.2 = if x.1 = .ok then w else v) :
    (∃ e, (changed x).1 = .error e ∧ lbm.view (changed x).2 = v) ∨
      (changed x).1 = .ok () ∧ lbm.view (changed x).2 = w := by
  obtain ⟨rc, m⟩ := x
  unfold changed
  cases hrc : uspResult rc with
  | error e =>
    refine .inl ⟨e, rfl, h.trans (if_neg fun hok => ?_)⟩
    rw [uspResult_ok.2 hok] at hrc
    cases hrc
  | ok u => exact .inr ⟨rfl, h.trans (if_pos (uspResult_ok.1 hrc))⟩

theorem setProfile_cases (h : Lawful lbm) (profile : AdrProfile) (distribution : Option (Vector UInt8 16))
    (m : μ) : (∃ e, (setProfile lbm profile distribution m).1 = .error e ∧
        lbm.view (setProfile lbm profile distribution m).2 = lbm.view m) ∨
      (setProfile lbm profile distribution m).1 = .ok () ∧
        lbm.view (setProfile lbm profile distribution m).2 =
          { lbm.view m with profile := (.ok, profile) } := by
  unfold setProfile
  cases requireJoined lbm m with
  | error e => exact .inl ⟨e, rfl, rfl⟩
  | ok u => exact changed_cases (h.adrSetProfile profile _ m)

/-- A call that is passed on does what its setter does. -/
theorem change_effect {set : μ → Except Err Unit × μ}
    (h : Effect (lbm.view s.modem) c (set s.modem).1 (lbm.view (set s.modem).2)) :
    Effect (lbm.view s.modem) c (change set s).1 (lbm.view (change set s).2.modem) := by
  unfold change
  split
  · exact .refused c _
  · split
    · exact h
    · exact .refused c _

/-- What a setter of one parameter does, in terms of its two cases. -/
theorem effect_of_cases {x : Except Err Unit × μ} {v w : View}
    (hx : (∃ e, x.1 = .error e ∧ lbm.view x.2 = v) ∨ x.1 = .ok () ∧ lbm.view x.2 = w)
    (hok : Effect v c (.ok ()) w) : Effect v c x.1 (lbm.view x.2) := by
  rcases hx with ⟨e, hrc, hview⟩ | ⟨hrc, hview⟩
  · rw [hrc, hview]
    exact .refused c e
  · rw [hrc, hview]
    exact hok

theorem uspSetLbt_effect (h : Lawful lbm) (enabled : Bool) (m : μ) :
    Effect (lbm.view m) (Call.setLbt enabled : Call μ) (uspSetLbt lbm enabled m).1
      (lbm.view (uspSetLbt lbm enabled m).2) := by
  unfold uspSetLbt
  cases enabled with
  | false => exact effect_of_cases (changed_cases (h.lbtSetState false m)) .clearLbt
  | true =>
    simp only [if_true]
    rcases changed_cases (h.lbtSetParameters lbtDefault m) with ⟨e, hrc, hview⟩ | ⟨hrc, hview⟩
    · generalize changed (lbm.lbtSetParameters lbtDefault m) = x at hrc hview ⊢
      obtain ⟨rc, m'⟩ := x
      subst hrc
      show Effect _ _ (.error e) (lbm.view m')
      rw [hview]
      exact .refused _ e
    · generalize changed (lbm.lbtSetParameters lbtDefault m) = x at hrc hview ⊢
      obtain ⟨rc, m'⟩ := x
      subst hrc
      show Effect _ _ (changed (lbm.lbtSetState true m')).1 (lbm.view (changed (lbm.lbtSetState true m')).2)
      rcases changed_cases (h.lbtSetState true m') with ⟨e, hrc, hview'⟩ | ⟨hrc, hview'⟩
      · rw [hrc, hview', hview]
        exact .defaults e
      · rw [hrc, hview', hview]
        exact .setLbt

/-- What a call of the service does. -/
theorem run_effect (h : Lawful lbm) (c : Call μ) (s : State μ) :
    Effect (lbm.view s.modem) c (c.run lbm s).1 (lbm.view (c.run lbm s).2.modem) := by
  rcases c with enabled | ⟨checked, dataRate⟩ | ⟨profile, distribution⟩ | enabled | enabled | rssiDbm | timeMs
  · refine change_effect ?_
    unfold uspSetAdr
    split
    · rename_i henabled
      exact effect_of_cases (setProfile_cases h .networkControlled none s.modem)
        (.setAdr enabled _ (by simp [henabled]))
    · rename_i henabled
      exact effect_of_cases (setProfile_cases h .custom _ s.modem) (.setAdr enabled _ (by simp [henabled]))
  · simp only [Call.run]
    split
    · exact .refused _ _
    · split
      · exact .refused _ _
      · split
        · exact effect_of_cases (setProfile_cases h .custom _ s.modem) (.setDataRate checked dataRate)
        · exact .refused _ _
  · simp only [Call.run]
    split
    · exact .refused _ _
    · exact change_effect
        (effect_of_cases (setProfile_cases h profile _ s.modem) (.setAdrProfile profile distribution))
  · exact change_effect (effect_of_cases (changed_cases (h.setNetworkType enabled s.modem))
      (.setPublicNetwork enabled))
  · exact change_effect (uspSetLbt_effect h enabled s.modem)
  · refine change_effect (effect_of_cases (changed_cases (h.lbtSetParameters _ s.modem))
      (.setLbtRssi rssiDbm (lbtCurrent lbm s.modem) fun q hq => ?_))
    simp only [lbtCurrent, hq]
  · simp only [Call.run]
    split
    · exact .refused _ _
    · refine change_effect (effect_of_cases (changed_cases (h.lbtSetParameters _ s.modem))
        (.setLbtScanTime timeMs (lbtCurrent lbm s.modem) fun q hq => ?_))
      simp only [lbtCurrent, hq]

variable {v w : View} {rc : Except Err Unit}

/-- A call that is accepted sets what it gives. -/
theorem Effect.text_given (h : Effect v c (.ok ()) w) (hgives : c.gives p = some text) :
    p.text w = .ok text := by
  cases h with
  | setAdr enabled profile hprofile =>
    cases p <;> cases hgives
    simp only [Param.text, result, uspResult, Except.map, hprofile]
    cases enabled <;> rfl
  | _ => cases p <;> cases hgives <;> rfl

/-- A field of the LBT parameters that is as it was is read as it was. -/
theorem field_kept {q : LbtParameters} (f : LbtParameters → List UInt8)
    (hq : ∀ q', result v.lbtParameters = .ok q' → f q = f q')
    (htext : (result v.lbtParameters).map f = .ok text) :
    (result (ModemRc.ok, q)).map f = .ok text := by
  cases hresult : result v.lbtParameters with
  | error e =>
    rw [hresult] at htext
    cases htext
  | ok q' =>
    rw [hresult] at htext
    rw [← htext]
    exact congrArg Except.ok (hq q' hresult)

/-- A call leaves a parameter that it does not set. -/
theorem Effect.text_kept (h : Effect v c rc w) (hgives : c.gives p = none) (htext : p.text v = .ok text) :
    p.text w = .ok text := by
  cases h with
  | setLbtRssi rssiDbm q hq =>
    cases p with
    | lbtRssi => cases hgives
    | lbtScanTime => exact field_kept _ (fun q' hq' => by rw [hq q' hq']) htext
    | _ => exact htext
  | setLbtScanTime timeMs q hq =>
    cases p with
    | lbtScanTime => cases hgives
    | lbtRssi => exact field_kept _ (fun q' hq' => by rw [hq q' hq']) htext
    | _ => exact htext
  | _ => cases p <;> first | exact htext | cases hgives

end Setters

/-! ### The commands -/

section Commands
variable {μ : Type} {lbm : Lbm μ} {checked s : State μ} {p : Param} {text argument : List UInt8}
  {command : Command} {c : Call μ}

/-- The parameters that no backend has are neither printed nor changed. -/
theorem refused {handle : Operation → List UInt8 → State μ → Except Err Answer × State μ}
    (hhandle : handle ∈ absentHandlers) (operation : Operation) (argument : List UInt8) (s : State μ) :
    ∃ e, handle operation argument s = (.error e, s) := by
  have hquery : ∀ {α : Type}, ∃ e, (unsupported s : Except Err α) = .error e := fun {α} => by
    unfold unsupported
    cases s.started with
    | error e => exact ⟨e, rfl⟩
    | ok u => exact ⟨_, rfl⟩
  have hset : ∃ e, respondOk (refuse s) = (.error e, s) := by
    obtain ⟨e, he⟩ := hquery
    exact ⟨e, by rw [refuse, he, respondOk]⟩
  have hbool : ∀ name, ∃ e,
      handleBool name unsupported (fun _ => refuse) operation argument s = (.error e, s) := by
    intro name
    unfold handleBool
    split
    · obtain ⟨e, he⟩ := hquery
      exact ⟨e, by rw [he, Except.map]⟩
    · split
      · exact ⟨_, rfl⟩
      · exact hset
  have hup : ∀ name, ∃ e,
      handleUpTo15 name unsupported (fun _ => refuse) operation argument s = (.error e, s) := by
    intro name
    unfold handleUpTo15
    split
    · obtain ⟨e, he⟩ := hquery
      exact ⟨e, by rw [he, Except.map]⟩
    · split
      · exact ⟨_, rfl⟩
      · split
        · exact ⟨_, rfl⟩
        · exact hset
  have hu32 : ∀ name scale, ∃ e,
      handleU32 name unsupported (fun _ => refuse) scale operation argument s = (.error e, s) := by
    intro name scale
    unfold handleU32
    split
    · obtain ⟨e, he⟩ := hquery
      exact ⟨e, by rw [he, Except.map]⟩
    · split
      · exact ⟨_, rfl⟩
      · split
        · exact ⟨_, rfl⟩
        · exact hset
  simp only [absentHandlers, List.mem_cons, List.not_mem_nil, or_false] at hhandle
  rcases hhandle with rfl | rfl | rfl | rfl | rfl | rfl | rfl | rfl
  · exact hbool _
  · exact hup _
  · exact hup _
  all_goals exact hu32 _ _

/-- The call that a write makes, if its argument is one. -/
def Command.call (checked : State μ) (argument : List UInt8) : Command → Except Err (Call μ)
  | .adr => (parseBool argument).map .setAdr
  | .pnm => (parseBool argument).map .setPublicNetwork
  | .lbt => (parseBool argument).map .setLbt
  | .lbtRssi => (parseLong 32 argument).map fun parsed => .setLbtRssi (Int16.ofInt parsed)
  | .lbtScanTime =>
    match parseLong 32 argument with
    | .error _ => .error .invalid
    | .ok parsed => if parsed ≤ 0 then .error .invalid else .ok (.setLbtScanTime (UInt32.ofNat parsed.toNat))
  | .dr =>
    match parseLong 32 argument with
    | .error _ => .error .invalid
    | .ok parsed =>
      if parsed < 0 ∨ 15 < parsed then .error .invalid
      else .ok (.setDataRate checked (UInt8.ofNat parsed.toNat))

theorem handle_write (command : Command) (checked : State μ) (argument : List UInt8) (s : State μ) :
    command.handle lbm checked .write argument s =
      match command.call checked argument with
      | .error e => (.error e, s)
      | .ok c => respondOk (c.run lbm s) := by
  have hwrite : ¬ Operation.write = .read := by simp
  cases command with
  | adr => simp only [Command.handle, handleAdr, handleBool, Command.call]; cases parseBool argument <;> rfl
  | pnm => simp only [Command.handle, handlePnm, handleBool, Command.call]; cases parseBool argument <;> rfl
  | lbt => simp only [Command.handle, handleLbt, handleBool, Command.call]; cases parseBool argument <;> rfl
  | lbtRssi =>
    simp only [Command.handle, handleLbtRssi, Command.call]
    cases parseLong 32 argument <;> rfl
  | lbtScanTime =>
    simp only [Command.handle, handleLbtScan, handleU32, Command.call, if_neg hwrite]
    cases parseLong 32 argument with
    | error e => rfl
    | ok parsed =>
      simp only [UInt32.mul_one]
      split_ifs <;> rfl
  | dr =>
    simp only [Command.handle, handleDr, handleUpTo15, Command.call, if_neg hwrite]
    cases parseLong 32 argument with
    | error e => rfl
    | ok parsed =>
      dsimp only
      split_ifs <;> rfl

/-- What is printed for a parameter. -/
theorem handle_read (p : Param) (argument : List UInt8) (hstarted : s.started = .ok ())
    (hready : s.ready = true) :
    (p.command.handle lbm checked .read argument s).1 = (p.text (lbm.view s.modem)).map (printed p.name) := by
  have hquery : ∀ {α : Type} (get : μ → Except Err α), query s get = get s.modem := fun get => by
    simp [query, hstarted, hready]
  cases p with
  | adr =>
    simp only [Param.command, Command.handle, handleAdr, handleBool, if_true, hquery, uspGetAdr, Param.text]
    cases result (lbm.view s.modem).profile <;> rfl
  | pnm =>
    simp only [Param.command, Command.handle, handlePnm, handleBool, if_true, hquery, uspGetPublicNetwork,
      Param.text]
    cases result (lbm.view s.modem).networkType <;> rfl
  | lbt =>
    simp only [Param.command, Command.handle, handleLbt, handleBool, if_true, hquery, uspGetLbt, Param.text]
    cases result (lbm.view s.modem).lbtState <;> rfl
  | lbtRssi =>
    simp only [Param.command, Command.handle, handleLbtRssi, if_true, hquery, uspGetLbtRssi, Param.text]
    cases result (lbm.view s.modem).lbtParameters <;> rfl
  | lbtScanTime =>
    simp only [Param.command, Command.handle, handleLbtScan, handleU32, if_true, hquery, uspGetLbtScanTime,
      Param.text]
    cases result (lbm.view s.modem).lbtParameters with
    | error e => rfl
    | ok q => simp [Except.map, Param.name]

/-- What an accepted write leaves a parameter as: a flag as it was written; the scan time as a `long` holds
the number; of that `long` only the lower 16 bits for the RSSI, which is not range checked. AT+DR switches ADR
off, and AT+LBT=1 brings the default RSSI and scan time. -/
def Command.Wrote (argument : List UInt8) : Command → Param → List UInt8 → Prop
  | .adr, .adr, text | .pnm, .pnm, text | .lbt, .lbt, text => text = argument
  | .dr, .adr, text => text = ascii "0"
  | .lbt, .lbtRssi, text => argument = ascii "1" ∧ text = ascii "-80"
  | .lbt, .lbtScanTime, text => argument = ascii "1" ∧ text = ascii "5"
  | .lbtRssi, .lbtRssi, text => ∃ x, Numeral argument x ∧ text = signedDecimal (Int16.ofInt (x.long 32)).toInt
  | .lbtScanTime, .lbtScanTime, text => ∃ x, Numeral argument x ∧ text = decimal (x.long 32).toNat
  | _, _, _ => False

theorem parseBool_ok {enabled : Bool} (h : parseBool argument = .ok enabled) :
    P2p.flagText enabled = argument ∧ (argument = ascii "1" → enabled = true) := by
  unfold parseBool at h
  split at h
  · rename_i hzero
    cases h
    exact ⟨hzero ▸ by decide, fun hone => absurd (hzero.symm.trans hone) (by decide)⟩
  · split at h
    · rename_i hone
      cases h
      exact ⟨hone ▸ by decide, fun _ => rfl⟩
    · cases h

/-- The call of a write gives what the write leaves. -/
theorem wrote_gives (hcall : command.call checked argument = .ok c) (hwrote : command.Wrote argument p text) :
    c.gives p = some text := by
  have hbool : ∀ {make : Bool → Call μ}, (parseBool argument).map make = .ok c →
      ∃ enabled, c = make enabled ∧ P2p.flagText enabled = argument ∧
        (argument = ascii "1" → enabled = true) := fun {make} hmake => by
    cases hparse : parseBool argument with
    | error e =>
      rw [hparse] at hmake
      cases hmake
    | ok enabled =>
      rw [hparse] at hmake
      cases hmake
      obtain ⟨htext, hone⟩ := parseBool_ok hparse
      exact ⟨enabled, rfl, htext, hone⟩
  cases command with
  | adr =>
    obtain ⟨enabled, rfl, htext, -⟩ := hbool hcall
    cases p with
    | adr => exact congrArg some (htext.trans (Eq.symm hwrote))
    | _ => exact absurd hwrote id
  | pnm =>
    obtain ⟨enabled, rfl, htext, -⟩ := hbool hcall
    cases p with
    | pnm => exact congrArg some (htext.trans (Eq.symm hwrote))
    | _ => exact absurd hwrote id
  | lbt =>
    obtain ⟨enabled, rfl, htext, hone⟩ := hbool hcall
    cases p with
    | lbt => exact congrArg some (htext.trans (Eq.symm hwrote))
    | lbtRssi =>
      obtain ⟨hargument, rfl⟩ := hwrote
      rw [hone hargument]
      exact congrArg some (show signedDecimal (-80) = ascii "-80" by decide)
    | lbtScanTime =>
      obtain ⟨hargument, rfl⟩ := hwrote
      rw [hone hargument]
      exact congrArg some (show decimal 5 = ascii "5" by decide)
    | _ => exact absurd hwrote id
  | dr =>
    cases p with
    | adr =>
      obtain rfl : text = ascii "0" := hwrote
      simp only [Command.call] at hcall
      split at hcall
      · cases hcall
      · split at hcall <;> cases hcall
        exact congrArg some (show P2p.flagText false = ascii "0" by decide)
    | _ => exact absurd hwrote id
  | lbtRssi =>
    cases p with
    | lbtRssi =>
      obtain ⟨x, hx, rfl⟩ := hwrote
      simp only [Command.call, parseLong_ok.2 ⟨x, hx, rfl⟩] at hcall
      cases hcall
      rfl
    | _ => exact absurd hwrote id
  | lbtScanTime =>
    cases p with
    | lbtScanTime =>
      obtain ⟨x, hx, rfl⟩ := hwrote
      simp only [Command.call, parseLong_ok.2 ⟨x, hx, rfl⟩] at hcall
      have hlong : x.long 32 ≤ 2 ^ 31 - 1 := by
        rw [long_eq_clamp]
        omega
      split at hcall <;> cases hcall
      simp only [Call.gives, Option.some.injEq]
      rw [UInt32.toNat_ofNat_of_lt' (by simp [UInt32.size]; omega)]
    | _ => exact absurd hwrote id

/-- The action sets no other value of the parameter: a call of the service that does not concern it, or that
is refused and is not one to enable LBT, and no change of the parameter by the modem itself. -/
def Spares (lbm : Lbm μ) (p : Param) (s : State μ) : Act μ → Prop
  | .call c => c.gives p = none ∨ c ≠ .setLbt true ∧ (c.run lbm s).1 ≠ .ok ()
  | .modem m => p.text (lbm.view m) = p.text (lbm.view s.modem)
  | .service _ _ => True

theorem text_next (h : Lawful lbm) {a : Act μ} (hspares : Spares lbm p s a)
    (htext : p.text (lbm.view s.modem) = .ok text) : p.text (lbm.view (next lbm s a).modem) = .ok text := by
  rcases a with c | m | ⟨started, ready⟩
  · have heffect := run_effect h c s
    change p.text (lbm.view (c.run lbm s).2.modem) = .ok text
    rcases hspares with hgives | ⟨hlbt, hrefused⟩
    · exact heffect.text_kept hgives htext
    · generalize (c.run lbm s).1 = rc at heffect hrefused
      generalize lbm.view (c.run lbm s).2.modem = w at heffect ⊢
      cases heffect with
      | refused c e => exact htext
      | defaults e => exact absurd rfl hlbt
      | _ => exact absurd rfl hrefused
  · exact hspares.trans htext
  · exact htext

end Commands

/-- A modem that keeps the view itself and accepts everything, with data rates 0 to 5. -/
def keeping : Lbm View where
  status _ := (.ok, true)
  view v := v
  nextDr _ := 3
  enabledDatarates _ := (.ok, 0x3f)
  adrSetProfile profile _ v := (.ok, { v with profile := (.ok, profile) })
  setNetworkType enabled v := (.ok, { v with networkType := (.ok, enabled) })
  lbtSetState enabled v := (.ok, { v with lbtState := (.ok, enabled) })
  lbtSetParameters parameters v := (.ok, { v with lbtParameters := (.ok, parameters) })

theorem lawful_keeping : Lawful keeping :=
  ⟨fun _ _ _ => rfl, fun _ _ => rfl, fun _ _ => rfl, fun _ _ => rfl⟩

/-- Joined, with the parameters of a modem that has just started. -/
def joined : State View :=
  ⟨.ok (), true, ⟨(.ok, .networkControlled), (.ok, true), (.ok, false), (.fail, lbtDefault)⟩⟩

section Accepted
variable {μ : Type} {lbm : Lbm μ} {checked s : State μ} {argument : List UInt8} {command : Command}

/-- The modem accepts what it is asked for, and knows whether the device is joined. -/
structure Obliging (lbm : Lbm μ) : Prop where
  status : ∀ m, (lbm.status m).1 = .ok
  enabledDatarates : ∀ m, (lbm.enabledDatarates m).1 = .ok
  adrSetProfile : ∀ p d m, (lbm.adrSetProfile p d m).1 = .ok
  setNetworkType : ∀ e m, (lbm.setNetworkType e m).1 = .ok
  lbtSetState : ∀ e m, (lbm.lbtSetState e m).1 = .ok
  lbtSetParameters : ∀ p m, (lbm.lbtSetParameters p m).1 = .ok

/-- The arguments that a command takes; AT+DR takes the data rates that were enabled when it checked. -/
def Command.Takes (lbm : Lbm μ) (checked : State μ) (argument : List UInt8) : Command → Prop
  | .adr | .pnm | .lbt => argument = ascii "0" ∨ argument = ascii "1"
  | .lbtRssi => ∃ x, Numeral argument x
  | .lbtScanTime => ∃ x, Numeral argument x ∧ 0 < x.toInt
  | .dr => ∃ x, ∃ n : Nat, Numeral argument x ∧ x.toInt = n ∧ n ≤ 15 ∧ checked.started = .ok () ∧
      checked.ready = true ∧
      (lbm.enabledDatarates checked.modem).2 &&& (1 <<< (UInt8.ofNat n).toUInt16) ≠ 0

/-- The service and the backend are up, and the device is joined where the modem asks for it. -/
def Command.Up (lbm : Lbm μ) (s : State μ) : Command → Prop
  | .adr => s.started = .ok () ∧ s.ready = true ∧ (lbm.status s.modem).2 = true
  | .dr => s.ready = true ∧ (lbm.status s.modem).2 = true
  | _ => s.started = .ok () ∧ s.ready = true

theorem change_ok {set : μ → Except Err Unit × μ} : (change set s).1 = .ok () ↔
    s.started = .ok () ∧ s.ready = true ∧ (set s.modem).1 = .ok () := by
  unfold change
  cases hstarted : s.started with
  | error e => simp
  | ok u =>
    cases hready : s.ready with
    | true => simp
    | false => simp

theorem setProfile_ok (h : Obliging lbm) (profile : AdrProfile) (distribution : Option (Vector UInt8 16))
    (m : μ) : (setProfile lbm profile distribution m).1 = .ok () ↔ (lbm.status m).2 = true := by
  have hresult : result (lbm.status m) = .ok (lbm.status m).2 := by
    simp [result, h.status, uspResult, Except.map]
  unfold setProfile requireJoined
  rw [hresult]
  cases (lbm.status m).2 with
  | true => simp [changed, uspResult_ok, h.adrSetProfile]
  | false => simp

theorem handle_ok : (command.handle lbm checked .write argument s).1 = .ok .ok ↔
    ∃ c, command.call checked argument = .ok c ∧ (c.run lbm s).1 = .ok () := by
  have hrespond : ∀ r : Except Err Unit × State μ, (respondOk r).1 = .ok .ok ↔ r.1 = .ok () := by
    rintro ⟨e | u, s'⟩ <;> simp [respondOk]
  rw [handle_write]
  cases command.call checked argument with
  | error e => simp
  | ok c => simp [hrespond]

theorem parseBool_takes : (∃ enabled, parseBool argument = .ok enabled) ↔
    argument = ascii "0" ∨ argument = ascii "1" := by
  constructor
  · rintro ⟨enabled, henabled⟩
    rw [← (parseBool_ok henabled).1]
    cases enabled with
    | false => exact .inl (by decide)
    | true => exact .inr (by decide)
  · rintro (rfl | rfl)
    · exact ⟨false, by decide⟩
    · exact ⟨true, by decide⟩

/-- A flag is accepted exactly where its setter accepts either value. -/
theorem flag_ok (make : Bool → Call μ) {P : Prop}
    (hcall : command.call checked argument = (parseBool argument).map make)
    (hrun : ∀ enabled, ((make enabled).run lbm s).1 = .ok () ↔ P) :
    (command.handle lbm checked .write argument s).1 = .ok .ok ↔
      (argument = ascii "0" ∨ argument = ascii "1") ∧ P := by
  rw [handle_ok, hcall, ← parseBool_takes]
  cases parseBool argument with
  | error e => simp [Except.map]
  | ok enabled => simp [Except.map, hrun]

theorem uspSetLbt_ok (h : Obliging lbm) (enabled : Bool) (m : μ) : (uspSetLbt lbm enabled m).1 = .ok () := by
  have hstate : ∀ m, (changed (lbm.lbtSetState enabled m)).1 = .ok () := fun m =>
    uspResult_ok.2 (h.lbtSetState enabled m)
  have hparameters : changed (lbm.lbtSetParameters lbtDefault m) =
      (.ok (), (lbm.lbtSetParameters lbtDefault m).2) :=
    Prod.ext (uspResult_ok.2 (h.lbtSetParameters lbtDefault m)) rfl
  unfold uspSetLbt
  split
  · rw [hparameters]
    exact hstate _
  · exact hstate m

theorem lbtRssi_ok (h : Obliging lbm) : (Command.lbtRssi.handle lbm checked .write argument s).1 = .ok .ok ↔
    Command.lbtRssi.Takes lbm checked argument ∧ Command.lbtRssi.Up lbm s := by
  have hrun : ∀ rssiDbm, ((Call.setLbtRssi rssiDbm).run lbm s).1 = .ok () ↔ Command.lbtRssi.Up lbm s :=
    fun rssiDbm => change_ok.trans (by
      simp [uspSetLbtRssi, changed, uspResult_ok, h.lbtSetParameters, Command.Up])
  rw [handle_ok]
  simp only [Command.call, Command.Takes]
  rcases parseLong_cases 32 argument with ⟨x, hx, -, hparse⟩ | ⟨hnone, herror⟩
  · rw [hparse]
    simp [Except.map, hrun, show ∃ x, Numeral argument x from ⟨x, hx⟩]
  · rw [herror]
    simp [Except.map, hnone]

/-- A time is positive after it has been cut to a `long`, and to 32 bits, exactly if the number is. -/
theorem long_pos {x : Number} : 0 < x.long 32 ↔ 0 < x.toInt := by
  rw [long_eq_clamp]
  omega

theorem lbtScanTime_ok (h : Obliging lbm) :
    (Command.lbtScanTime.handle lbm checked .write argument s).1 = .ok .ok ↔
      Command.lbtScanTime.Takes lbm checked argument ∧ Command.lbtScanTime.Up lbm s := by
  have hrun : ∀ timeMs, timeMs ≠ 0 →
      (((Call.setLbtScanTime timeMs).run lbm s).1 = .ok () ↔ Command.lbtScanTime.Up lbm s) := by
    intro timeMs hne
    simp only [Call.run, if_neg hne]
    exact change_ok.trans (by
      simp [uspSetLbtScanTime, changed, uspResult_ok, h.lbtSetParameters, Command.Up])
  rw [handle_ok]
  simp only [Command.call, Command.Takes]
  rcases parseLong_cases 32 argument with ⟨x, hx, hunique, hparse⟩ | ⟨hnone, herror⟩
  · have htakes : (∃ y, Numeral argument y ∧ 0 < y.toInt) ↔ 0 < x.toInt :=
      ⟨fun ⟨y, hy, hpos⟩ => hunique y hy ▸ hpos, fun hpos => ⟨x, hx, hpos⟩⟩
    have hlong : x.long 32 ≤ 2 ^ 31 - 1 := by
      rw [long_eq_clamp]
      omega
    rw [hparse, htakes, ← long_pos]
    dsimp only
    split
    · rename_i hle
      simp [hle]
    · rename_i hpos
      have hne : UInt32.ofNat (x.long 32).toNat ≠ 0 := fun hzero => by
        have hnat := congrArg UInt32.toNat hzero
        rw [UInt32.toNat_ofNat_of_lt' (by simp [UInt32.size]; omega)] at hnat
        simp at hnat
        omega
      simp [hrun _ hne, not_le.1 hpos]
  · rw [herror]
    simp [hnone]

theorem dr_ok (h : Obliging lbm) : (Command.dr.handle lbm checked .write argument s).1 = .ok .ok ↔
    Command.dr.Takes lbm checked argument ∧ Command.dr.Up lbm s := by
  have hcheck : ∀ n : Nat, n ≤ 15 → (checkUplinkDataRate lbm (UInt8.ofNat n) checked = .ok () ↔
      checked.ready = true ∧
        (lbm.enabledDatarates checked.modem).2 &&& (1 <<< (UInt8.ofNat n).toUInt16) ≠ 0) := by
    intro n hn
    have hdataRate : ¬ 15 < UInt8.ofNat n := by
      rw [UInt8.lt_iff_toNat_lt, UInt8.toNat_ofNat_of_lt' (by simp [UInt8.size]; omega)]
      simp only [UInt8.toNat_ofNat]
      omega
    have hresult : result (lbm.enabledDatarates checked.modem) =
        .ok (lbm.enabledDatarates checked.modem).2 := by
      simp [result, h.enabledDatarates, uspResult, Except.map]
    unfold checkUplinkDataRate
    rw [if_neg hdataRate, hresult]
    cases checked.ready with
    | true => simp
    | false => simp
  have hrun : ∀ dataRate, ((Call.setDataRate checked dataRate).run lbm s).1 = .ok () ↔
      (checked.started = .ok () ∧ checkUplinkDataRate lbm dataRate checked = .ok ()) ∧
        Command.dr.Up lbm s := by
    intro dataRate
    simp only [Call.run, Command.Up, ← setProfile_ok h .custom (some (.replicate 16 dataRate))]
    cases checked.started with
    | error e => simp
    | ok u =>
      cases checkUplinkDataRate lbm dataRate checked with
      | error e => simp
      | ok u =>
        cases s.ready with
        | true => simp [pinDataRate]
        | false => simp
  rw [handle_ok]
  simp only [Command.call, Command.Takes]
  rcases parseLong_cases 32 argument with ⟨x, hx, hunique, hparse⟩ | ⟨hnone, herror⟩
  · rw [hparse]
    dsimp only
    split
    · rename_i hout
      constructor
      · rintro ⟨c, hc, -⟩
        cases hc
      · rintro ⟨⟨y, n, hy, hn, hle, -⟩, -⟩
        obtain rfl := hunique y hy
        rw [long_eq (by omega) (by omega)] at hout
        omega
    · rename_i hin
      obtain ⟨n, hn⟩ : ∃ n : Nat, x.long 32 = n := ⟨(x.long 32).toNat, by omega⟩
      have hint : x.toInt = n := by
        rw [← long_eq_of_mem (x := x) (w := 32) (by omega) (by omega)]
        exact hn
      rw [hn, Int.toNat_natCast]
      constructor
      · rintro ⟨c, hc, hok⟩
        cases hc
        obtain ⟨⟨hstarted, hchecked⟩, hup⟩ := (hrun _).1 hok
        obtain ⟨hready, hmask⟩ := (hcheck n (by omega)).1 hchecked
        exact ⟨⟨x, n, hx, hint, by omega, hstarted, hready, hmask⟩, hup⟩
      · rintro ⟨⟨y, n', hy, hn', hle, hstarted, hready, hmask⟩, hup⟩
        obtain rfl := hunique y hy
        obtain rfl : n' = n := by omega
        exact ⟨_, rfl, (hrun _).2 ⟨⟨hstarted, (hcheck n' hle).2 ⟨hready, hmask⟩⟩, hup⟩⟩
  · rw [herror]
    simp [hnone]

/-- LBT is enabled by AT+LBT=1 only. -/
theorem call_setLbt (hcall : command.call checked argument = .ok (.setLbt true)) :
    command = .lbt ∧ argument = ascii "1" := by
  cases command with
  | lbt =>
    simp only [Command.call] at hcall
    cases hparse : parseBool argument with
    | error e =>
      rw [hparse] at hcall
      cases hcall
    | ok enabled =>
      rw [hparse] at hcall
      cases hcall
      exact ⟨rfl, (parseBool_ok hparse).1.symm⟩
  | adr | pnm =>
    simp only [Command.call] at hcall
    cases hparse : parseBool argument <;> rw [hparse] at hcall <;> cases hcall
  | lbtRssi =>
    simp only [Command.call] at hcall
    cases hparse : parseLong 32 argument <;> rw [hparse] at hcall <;> cases hcall
  | lbtScanTime | dr =>
    simp only [Command.call] at hcall
    split at hcall
    · cases hcall
    · split at hcall <;> cases hcall

/-- **Which arguments AT takes.** With a modem that accepts what it is asked for, a write is accepted exactly
if its argument is a flag, a number that the command takes or, for AT+DR, a data rate that was enabled when it
was checked, the service and the backend are up and, for AT+ADR and AT+DR, the device is joined; with any
modem a refused write changes none of the parameters, but for an AT+LBT=1 whose default RSSI and scan time the
modem took before it refused the rest; and the commands for parameters that no backend has answer an error to
everything and change nothing. -/
theorem control_accepted_iff (h : Lawful lbm) (command : Command) (checked s : State μ)
    (argument : List UInt8) :
    (Obliging lbm → ((command.handle lbm checked .write argument s).1 = .ok .ok ↔
      command.Takes lbm checked argument ∧ command.Up lbm s)) ∧
    ((command.handle lbm checked .write argument s).1 ≠ .ok .ok →
      lbm.view (command.handle lbm checked .write argument s).2.modem = lbm.view s.modem ∨
      command = .lbt ∧ argument = ascii "1" ∧
        lbm.view (command.handle lbm checked .write argument s).2.modem =
          { lbm.view s.modem with lbtParameters := (.ok, lbtDefault) }) ∧
    ∀ handle ∈ absentHandlers, ∀ operation, ∃ e, handle operation argument s = (.error e, s) := by
  refine ⟨?_, ?_, fun handle hhandle operation => refused hhandle operation argument s⟩
  · intro hmodem
    cases command with
    | adr =>
      refine flag_ok .setAdr rfl fun enabled => change_ok.trans ?_
      unfold uspSetAdr pinDataRate Command.Up
      split <;> rw [setProfile_ok hmodem]
    | pnm =>
      refine flag_ok .setPublicNetwork rfl fun enabled => change_ok.trans ?_
      simp [uspSetPublicNetwork, changed, uspResult_ok, hmodem.setNetworkType, Command.Up]
    | lbt =>
      refine flag_ok .setLbt rfl fun enabled => change_ok.trans ?_
      simp [uspSetLbt_ok hmodem, Command.Up]
    | lbtRssi => exact lbtRssi_ok hmodem
    | lbtScanTime => exact lbtScanTime_ok hmodem
    | dr => exact dr_ok hmodem
  · intro hrefused
    rw [Ne, handle_ok, not_exists] at hrefused
    rw [handle_write]
    cases hcall : command.call checked argument with
    | error e => exact .inl rfl
    | ok c =>
      have hstate : (respondOk (c.run lbm s)).2 = (c.run lbm s).2 := by
        rcases c.run lbm s with ⟨e | u, s'⟩ <;> rfl
      have hrun : (c.run lbm s).1 ≠ .ok () := fun hok => hrefused c ⟨hcall, hok⟩
      have heffect := run_effect h c s
      dsimp only
      rw [hstate]
      generalize (c.run lbm s).1 = rc at hrun heffect
      generalize lbm.view (c.run lbm s).2.modem = w at heffect ⊢
      cases heffect with
      | refused c e => exact .inl rfl
      | defaults e => exact .inr ⟨(call_setLbt hcall).1, (call_setLbt hcall).2, rfl⟩
      | _ => exact absurd rfl hrun

end Accepted

theorem obliging_keeping : Obliging keeping :=
  ⟨fun _ => rfl, fun _ => rfl, fun _ _ _ => rfl, fun _ _ => rfl, fun _ _ => rfl, fun _ _ => rfl⟩

/-- AT+DR=6 is refused where the data rates 0 to 5 are enabled, and AT+DR=5 is accepted. -/
theorem control_accepted_iff_dr :
    (Command.dr.handle keeping joined .write (ascii "5") joined).1 = .ok .ok ∧
      (Command.dr.handle keeping joined .write (ascii "6") joined).1 ≠ .ok .ok :=
  ⟨((control_accepted_iff lawful_keeping .dr joined joined (ascii "5")).1 obliging_keeping).2
      ⟨⟨⟨false, 5⟩, 5, numeral_iff.2 rfl, rfl, by decide, rfl, rfl, by decide⟩, rfl, rfl⟩, by decide⟩

end Rzi.At.LinkControl
