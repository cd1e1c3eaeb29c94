import Rzi.CredentialReset

/-!
# The credential store is all-or-nothing and framed

A setter loads the store, writes one setting and updates one field. `section_inStep` says that the
field it updates is the one that the written setting is loaded into, so that the store, the cache and
what a reboot would load stay the same (`inSync_next`). A failed reset is the one call that can take them
apart, and the histories here are those without one.
-/

namespace Rzi.Lorawan
open Settings Storage LittleEndian Lts

/-! ### Fields -/

/-- What a setter can change; the three values of the policy are one field. -/
inductive Field where
  | devEui | appEui | appKey | genAppKey | devAddr | nwkSkey | appSkey | activation | policy
  | channelMask
deriving DecidableEq, Repr

def Field.Value : Field → Type
  | .devEui | .appEui => Vector UInt8 8 × Bool
  | .appKey | .genAppKey | .nwkSkey | .appSkey => Vector UInt8 16 × Bool
  | .devAddr => UInt32 × Bool
  | .activation => Mode
  | .policy => Bool × UInt8 × UInt8
  | .channelMask => Vector UInt16 6 × Bool

/-- A field with its validity flag. -/
def Field.get : (field : Field) → CredentialStore → field.Value
  | .devEui, c => (c.devEui, c.devEuiSet)
  | .appEui, c => (c.appEui, c.appEuiSet)
  | .appKey, c => (c.appKey, c.appKeySet)
  | .genAppKey, c => (c.genAppKey, c.genAppKeySet)
  | .devAddr, c => (c.devAddr, c.devAddrSet)
  | .nwkSkey, c => (c.nwkSkey, c.nwkSkeySet)
  | .appSkey, c => (c.appSkey, c.appSkeySet)
  | .activation, c => c.njm
  | .policy, c => (c.autoJoin, c.joinInterval, c.joinAttempts)
  | .channelMask, c => (c.channelMask, c.channelMaskSet)

def Setter.field : Setter → Field
  | .devEui _ => .devEui
  | .appEui _ => .appEui
  | .appKey _ => .appKey
  | .genAppKey _ => .genAppKey
  | .nwkSkey _ => .nwkSkey
  | .appSkey _ => .appSkey
  | .devAddr _ => .devAddr
  | .activation _ => .activation
  | .channelMask _ => .channelMask
  | .policy _ => .policy

/-- The key that a field is loaded from. -/
def Field.key : Field → Key
  | .devEui => .deveui
  | .appEui => .joineui
  | .appKey => .appkey
  | .genAppKey => .genappkey
  | .devAddr => .devaddr
  | .nwkSkey => .nwkskey
  | .appSkey => .appskey
  | .activation => .njm
  | .policy => .joinPolicy
  | .channelMask => .chmask

theorem Field.key_injective : Function.Injective Field.key := by
  intro i j h
  cases i <;> cases j <;> first | rfl | cases h

/-! ### What is written is what is loaded -/

theorem take_drop_flatMap_putLe (words : List UInt16) (i : Nat) (h : i < words.length) :
    ((words.flatMap fun word => putLe 2 word.toNat).drop (2 * i)).take 2 =
      putLe 2 (words.getD i 0).toNat := by
  induction words generalizing i with
  | nil => exact absurd h (Nat.not_lt_zero _)
  | cons word words ih =>
    cases i with
    | zero =>
      show ((word :: words).flatMap fun word => putLe 2 word.toNat).take 2 = putLe 2 word.toNat
      rw [List.flatMap_cons]
      exact List.take_left' (length_putLe _ _)
    | succ i =>
      rw [List.flatMap_cons, Nat.mul_succ, Nat.add_comm, ← List.drop_drop,
        List.drop_left' (length_putLe _ _), ih i (by simpa using h)]
      rfl

theorem fillMask_maskBytes (mask : Vector UInt16 6) : fillMask (maskBytes mask) = mask := by
  refine Vector.ext fun i hi => ?_
  have hlen : i < mask.toList.length := by simpa using hi
  have hword : mask.toList.getD i 0 = mask[i] := by
    simp [List.getD_eq_getElem?_getD, hi]
  rw [fillMask, Vector.getElem_ofFn, maskBytes, take_drop_flatMap_putLe _ i hlen, hword,
    getLe_putLe_of_lt (by have := mask[i].toNat_lt; omega)]
  simp

theorem ofNat_getLe_putLe (x : UInt32) : UInt32.ofNat (getLe ((putLe 4 x.toNat).take 4)) = x := by
  have hlt : x.toNat < 256 ^ 4 := x.toNat_lt
  rw [List.take_of_length_le (by simp), getLe_putLe_of_lt hlt]
  simp

theorem njm_of_wire (mode : Mode) : (if njmWire mode = 0 then Mode.abp else .otaa) = mode := by
  cases mode <;> rfl

/-- The mask that stands for no restriction is not a valid mask. -/
theorem channelMaskValid_getD (mask : Option (Vector UInt16 6))
    (h : ¬ mask.any (!channelMaskValid ·) = true) :
    channelMaskValid (mask.getD (.replicate 6 0)) = mask.isSome := by
  cases mask with
  | none => decide
  | some m => simpa using h

/-- The store with the fields of `f` loaded. -/
def holding (f : Key → Bytes × Bool) (joinActive : Bool) : CredentialStore :=
  { candidate f with loaded := true, joinActive := joinActive }

/-- What a setter must do to stay in step: its key is one that is loaded and that no other key falls
back to, and it updates the field that the key is loaded into. -/
structure Section.InStep (p : Section) : Prop where
  mem : p.key ∈ loadKeys
  own : p.key ∉ policyKeys
  value : ∀ f joinActive joinActive', p.value (holding f joinActive) = p.value (holding f joinActive')
  update : ∀ f joinActive, p.update (holding f joinActive) =
    holding (Function.update f p.key (p.value (holding f joinActive), true)) joinActive

theorem bytesSection_inStep {key : Key} {store : Bytes → CredentialStore → CredentialStore}
    {src : Option Bytes} {p : Section} (h : bytesSection key store src = .ok p)
    (hmem : key ∈ loadKeys) (hown : key ∉ policyKeys)
    (hstore : ∀ v f joinActive, store v (holding f joinActive) =
      holding (Function.update f key (v, true)) joinActive) : p.InStep := by
  unfold bytesSection at h
  split at h
  · cases h
  · split_ifs at h
    cases h
    exact ⟨hmem, hown, fun _ _ _ => rfl, fun f joinActive => hstore _ f joinActive⟩

theorem section_inStep {build : Build} {setter : Setter} {p : Section}
    (h : setter.section build = .ok p) : p.InStep := by
  cases setter with
  | devEui src => exact bytesSection_inStep h (by decide) (by decide) fun _ _ _ => rfl
  | appEui src => exact bytesSection_inStep h (by decide) (by decide) fun _ _ _ => rfl
  | appKey src => exact bytesSection_inStep h (by decide) (by decide) fun _ _ _ => rfl
  | genAppKey src => exact bytesSection_inStep h (by decide) (by decide) fun _ _ _ => rfl
  | nwkSkey src => exact bytesSection_inStep h (by decide) (by decide) fun _ _ _ => rfl
  | appSkey src => exact bytesSection_inStep h (by decide) (by decide) fun _ _ _ => rfl
  | devAddr value =>
    cases h
    refine ⟨show Key.devaddr ∈ loadKeys by decide, show Key.devaddr ∉ policyKeys by decide,
      fun _ _ _ => rfl, fun f joinActive => ?_⟩
    simp [holding, candidate, ofNat_getLe_putLe]
  | activation mode =>
    simp only [Setter.section] at h
    split_ifs at h
    cases h
    refine ⟨show Key.njm ∈ loadKeys by decide, show Key.njm ∉ policyKeys by decide,
      fun _ _ _ => rfl, fun f joinActive => ?_⟩
    simp [holding, candidate, njm_of_wire]
  | channelMask mask =>
    simp only [Setter.section] at h
    split_ifs at h with hmask
    cases h
    refine ⟨show Key.chmask ∈ loadKeys by decide, show Key.chmask ∉ policyKeys by decide,
      fun _ _ _ => rfl, fun f joinActive => ?_⟩
    simp [holding, candidate, fillMask_maskBytes, channelMaskValid_getD mask hmask]
  | policy p =>
    simp only [Setter.section] at h
    split_ifs at h
    cases h
    exact ⟨show Key.joinPolicy ∈ loadKeys by decide, show Key.joinPolicy ∉ policyKeys by decide,
      fun _ _ _ => rfl, fun _ _ => rfl⟩

/-- A field of the loaded store is what was loaded from its key. -/
theorem Field.get_holding (field : Field) {f g : Key → Bytes × Bool} (h : f field.key = g field.key)
    (joinActive : Bool) : field.get (holding f joinActive) = field.get (holding g joinActive) := by
  cases field <;> simp only [Field.key] at h <;> simp only [Field.get, holding, candidate, h] <;> rfl

theorem bytesSection_key {key : Key} {store : Bytes → CredentialStore → CredentialStore}
    {src : Option Bytes} {p : Section} (h : bytesSection key store src = .ok p) : p.key = key := by
  unfold bytesSection at h
  split at h
  · cases h
  · split_ifs at h
    cases h
    rfl

theorem section_key {build : Build} {setter : Setter} {p : Section}
    (h : setter.section build = .ok p) : p.key = setter.field.key := by
  cases setter with
  | devAddr value =>
    cases h
    rfl
  | activation _ | channelMask _ | policy _ =>
    simp only [Setter.section] at h
    split_ifs at h
    cases h
    rfl
  | _ => exact bytesSection_key h

/-- A setter updates no field but its own. -/
theorem section_frame {build : Build} {setter : Setter} {p : Section}
    (h : setter.section build = .ok p) (f : Key → Bytes × Bool) (joinActive : Bool) {field : Field}
    (hfield : field ≠ setter.field) :
    field.get (p.update (holding f joinActive)) = field.get (holding f joinActive) := by
  have hkey : field.key ≠ p.key := by
    rw [section_key h]
    exact Field.key_injective.ne hfield
  rw [(section_inStep h).update]
  exact field.get_holding (Function.update_of_ne hkey _ _) joinActive

/-! ### Calls -/

section Calls
variable {cfg : Config} {build : Build} {d : Device} {p : Section}

/-- What a setter does to a device in step: it stays in step; on an error the store says what it said,
on success the key of the setter alone says something new. -/
structure Wrote (cfg : Config) (p : Section) (d : Device) (x : Except Err Unit × Device) : Prop where
  inSync : InSync cfg x.2
  failed : ∀ e, x.1 = .error e →
    ∀ j, lookup cfg x.2.settings.store j = lookup cfg d.settings.store j
  stored : x.1 = .ok () → ∃ f, Says cfg d f ∧
    Says cfg x.2 (Function.update f p.key (p.value (holding f false), true))

theorem write_spec (h : InSync cfg d) (hp : p.InStep) (faults : CallFaults) :
    Wrote cfg p d (d.write cfg p faults) := by
  have hload := ensureLoaded_spec h faults
  unfold Device.write
  generalize d.ensureLoaded cfg faults = x at hload ⊢
  rcases x with ⟨e | _, d'⟩
  · exact ⟨hload.held, fun _ _ => hload.same, nofun⟩
  obtain ⟨f, hstore, hcredentials⟩ := hload.held.held (hload.loaded rfl)
  have hbefore : Says cfg d f := fun k hk => (hload.same k).symm.trans (hstore k hk)
  dsimp only
  split_ifs with hbusy
  · exact ⟨hload.held, fun _ _ => hload.same, nofun⟩
  have hwrite := settingWrite_keeps hload.held.coherent hp.own (p.value d'.credentials) faults.write
  generalize settingWrite cfg d'.settings p.key.name (p.value d'.credentials) faults.write = y at hwrite ⊢
  rcases y with ⟨e | _, s⟩
  · obtain rfl : s = d'.settings := hwrite.failed e rfl
    exact ⟨hload.held, fun _ _ => hload.same, nofun⟩
  · have hvalue : p.value d'.credentials = p.value (holding f false) := by
      rw [hcredentials]
      exact hp.value f _ false
    have hafter : Says cfg ⟨s, p.update d'.credentials⟩
        (Function.update f p.key (p.value (holding f false), true)) := by
      intro k hk
      by_cases hkey : k = p.key
      · rw [hkey, Function.update_self, ← hvalue]
        exact hwrite.stored rfl
      · rw [Function.update_of_ne hkey]
        exact (hwrite.same k hkey).trans (hstore k hk)
    refine ⟨⟨hwrite.coherent, fun _ => ⟨_, hafter, ?_⟩⟩, nofun, fun _ => ⟨f, hbefore, hafter⟩⟩
    show p.update d'.credentials = _
    have hupdate := hp.update f d'.credentials.joinActive
    rw [hp.value f _ false] at hupdate
    rw [show d'.credentials = holding f d'.credentials.joinActive from hcredentials, hupdate]
    rfl

theorem set_spec (h : InSync cfg d) (setter : Setter) (faults : CallFaults) :
    InSync cfg (d.set cfg build setter faults).2 := by
  unfold Device.set
  rcases hp : setter.section build with e | p
  · exact h
  · exact (write_spec h (section_inStep hp) faults).inSync

/-- The call is no reset that fails. -/
def NoFailedClear (d : Device) : Call → Prop
  | .clear faults => (d.clear faults).1 = .ok ()
  | _ => True

theorem inSync_next (h : InSync cfg d) {call : Call} (hcall : NoFailedClear d call) :
    InSync cfg (d.next cfg build call) := by
  by_cases hquery : call.isQuery = true
  · exact (steady_query h hquery).1
  rcases call with ⟨setter, faults⟩ | ⟨faults⟩ | ⟨active⟩ | ⟨key, size, faults⟩ | ⟨key, v, faults⟩ |
    ⟨faults⟩ | _
  · exact set_spec h setter faults
  · exact absurd rfl hquery
  · exact absurd rfl hquery
  · exact absurd rfl hquery
  · have hown : key.key ∉ policyKeys := by cases key <;> decide
    have hother : ∀ j ∈ loadKeys, j ≠ key.key := by cases key <;> decide
    have hwrite := settingWrite_keeps h.coherent hown v faults
    exact h.of_settings hwrite.coherent fun j hj => hwrite.same j (hother j hj)
  · exact (blank_clear hcall).1
  · exact absurd rfl hquery

theorem inSync_after (h : InSync cfg d) {calls : List Call}
    (hcalls : Along (Device.next cfg build) NoFailedClear d calls) :
    InSync cfg (d.after cfg build calls) := by
  induction calls generalizing d with
  | nil => exact h
  | cons call calls ih => exact ih (inSync_next h hcalls.1) hcalls.2

/-- What a setter does to the stored fields: nothing on an error, and on success its own field alone is
updated. What a join would be configured with, in any build and region, follows the fields. -/
structure Transactional (cfg : Config) (build : Build) (setter : Setter) (d : Device)
    (x : Except Err Unit × Device) : Prop where
  failed : ∀ e, x.1 = .error e → x.2.fields cfg = d.fields cfg ∧
    ∀ build', (x.2.buildConfig cfg build' .none).1 = (d.buildConfig cfg build' .none).1
  succeeded : x.1 = .ok () → ∃ p c, setter.section build = .ok p ∧ d.fields cfg = .ok c ∧
    x.2.fields cfg = .ok (p.update c) ∧
      ∀ field : Field, field ≠ setter.field → field.get (p.update c) = field.get c

theorem set_transactional (h : InSync cfg d) (build : Build) (setter : Setter) (faults : CallFaults) :
    Transactional cfg build setter d (d.set cfg build setter faults) := by
  have hconfig : ∀ {d' : Device}, d'.fields cfg = d.fields cfg →
      ∀ build', (d'.buildConfig cfg build' .none).1 = (d.buildConfig cfg build' .none).1 := by
    intro d' hfields build'
    rw [Device.buildConfig, Device.buildConfig, readLocked_fields fun _ => rfl,
      readLocked_fields fun _ => rfl, hfields]
  unfold Device.set
  rcases hp : setter.section build with e | p
  · exact ⟨fun _ _ => ⟨rfl, fun _ => rfl⟩, nofun⟩
  have hwrote := write_spec h (section_inStep hp) faults
  constructor
  · intro e he
    have hfields : (d.write cfg p faults).2.fields cfg = d.fields cfg := by
      rw [fields_eq hwrote.inSync, fields_eq h, funext (hwrote.failed e he)]
    exact ⟨hfields, hconfig hfields⟩
  · intro hok
    obtain ⟨f, hbefore, hafter⟩ := hwrote.stored hok
    refine ⟨p, holding f false, hp, ?_, ?_, fun field hfield => section_frame hp f false hfield⟩
    · rw [fields_eq h, fieldsOf_of_store hbefore]
      rfl
    · rw [fields_eq hwrote.inSync, fieldsOf_of_store hafter, (section_inStep hp).update]
      rfl

/-- **The credential store is all-or-nothing and framed.** In every state that is reached from any store
contents without a failed reset, any setter with any arguments and storage failures changes nothing on
an error and its own field alone on success, and a reboot gives back the fields held before it. -/
theorem credentials_transactional (cfg : Config) (build : Build) (σ : Store) (calls : List Call)
    (hcalls : Along (Device.next cfg build) NoFailedClear (.boot σ) calls) (setter : Setter)
    (faults : CallFaults) :
    Transactional cfg build setter (Device.after cfg build (.boot σ) calls)
        ((Device.after cfg build (.boot σ) calls).set cfg build setter faults) ∧
      (Device.after cfg build (.boot σ) calls).reboot.fields cfg =
        (Device.after cfg build (.boot σ) calls).fields cfg := by
  have hsync : InSync cfg (Device.after cfg build (.boot σ) calls) :=
    inSync_after (inSync_boot cfg σ) hcalls
  refine ⟨set_transactional hsync build setter faults, ?_⟩
  rw [fields_eq hsync]
  exact fields_eq (inSync_boot cfg _)

/-- A join policy is stored, a reset succeeds, and the storage fails under a setter of the DevEUI. -/
theorem credentials_transactional_policy :
    Along (Device.next defaultConfig ⟨true, true, true, .us915⟩) NoFailedClear (.boot fun _ => [])
        [.set (.policy ⟨1, 10, 3⟩) .none, .clear [], .load .none] ∧
      Transactional defaultConfig ⟨true, true, true, .us915⟩ (.devEui (some [1, 2, 3, 4, 5, 6, 7, 8]))
        (Device.after defaultConfig ⟨true, true, true, .us915⟩ (.boot fun _ => [])
          [.set (.policy ⟨1, 10, 3⟩) .none, .clear [], .load .none])
        (Device.set defaultConfig ⟨true, true, true, .us915⟩
          (.devEui (some [1, 2, 3, 4, 5, 6, 7, 8])) ⟨fun _ => [], [some ioFault]⟩
          (Device.after defaultConfig ⟨true, true, true, .us915⟩ (.boot fun _ => [])
            [.set (.policy ⟨1, 10, 3⟩) .none, .clear [], .load .none])) := by
  have h : Along (Device.next defaultConfig ⟨true, true, true, .us915⟩) NoFailedClear
      (.boot fun _ => []) [.set (.policy ⟨1, 10, 3⟩) .none, .clear [], .load .none] :=
    ⟨trivial, show (Device.clear [] _).1 = .ok () by decide, trivial, trivial⟩
  exact ⟨h, (credentials_transactional defaultConfig _ _ _ h _ _).1⟩

end Calls

end Rzi.Lorawan
