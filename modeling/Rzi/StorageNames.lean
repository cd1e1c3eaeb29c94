import Rzi.Storage

/-!
# Namespaces and keys (`valid_component`, `build_name`)

A settings name is the namespace, a slash and the key, and both parts may have slashes inside. So a key
below a namespace and a key of the namespace below it can be the same name: `("app", "a/b")` and
`("app/a", "b")`. `names_isolated_iff`: two accepted pairs share their name, and can see each other's
values, exactly if one namespace lies below the other and the key spells out the rest of its path.
-/

namespace Rzi.Storage.Names

/-- The calls that change what is stored under a pair. -/
inductive Change where
  | write (value : Bytes)
  | writeRecord (version : UInt16) (value : Bytes)
  | delete

def Change.run (cfg : Config) (ns key : String) (d : Dev) : Change → Dev
  | .write value => (Storage.write ns key value d).2
  | .writeRecord version value => (Storage.writeRecord cfg ns key version value d).2
  | .delete => (Storage.delete ns key d).2

/-- No change of the first pair changes what a read of the second returns, whatever fails. -/
def Isolated (cfg : Config) (ns key ns' key' : String) : Prop :=
  ∀ (change : Change) (d : Dev) (faults : List (Option Fault)),
    (∀ size, (read ns' key' size ⟨(change.run cfg ns key d).store, faults⟩).1 =
      (read ns' key' size ⟨d.store, faults⟩).1) ∧
    ∀ capacity, (readRecord cfg ns' key' capacity ⟨(change.run cfg ns key d).store, faults⟩).1 =
      (readRecord cfg ns' key' capacity ⟨d.store, faults⟩).1

/-- The second namespace lies below the first, and the rest of its path leads the first key. -/
def Below (ns key ns' key' : String) : Prop :=
  ∃ path, ns' = ns ++ "/" ++ path ∧ key = path ++ "/" ++ key'

variable {cfg : Config} {ns key ns' key' name name' : String}

/-! ### Names -/

theorem buildName_eq (h : buildName ns key = .ok name) : name = ns ++ "/" ++ key := by
  unfold buildName at h
  split at h
  · cases h
  · split at h
    · cases h
    · exact (Except.ok.inj h).symm

theorem joined_toList (ns key : String) : (ns ++ "/" ++ key).toList = ns.toList ++ '/' :: key.toList := by
  rw [String.toList_append, String.toList_append, List.append_assoc]
  rfl

theorem below_toList : Below ns key ns' key' ↔ ∃ path : List Char,
    ns'.toList = ns.toList ++ '/' :: path ∧ key.toList = path ++ '/' :: key'.toList := by
  constructor
  · rintro ⟨path, rfl, rfl⟩
    exact ⟨path.toList, joined_toList _ _, joined_toList _ _⟩
  · rintro ⟨path, hns, hkey⟩
    refine ⟨String.ofList path, ?_, ?_⟩
    · rw [← String.toList_inj, joined_toList, String.toList_ofList]
      exact hns
    · rw [← String.toList_inj, joined_toList, String.toList_ofList]
      exact hkey

/-- Where the separator falls in two equal names. -/
theorem joined_eq_iff (hne : (ns, key) ≠ (ns', key')) :
    ns ++ "/" ++ key = ns' ++ "/" ++ key' ↔ Below ns key ns' key' ∨ Below ns' key' ns key := by
  rw [below_toList, below_toList, ← String.toList_inj, joined_toList, joined_toList]
  constructor
  · intro h
    -- one namespace is a prefix of the other; the rest starts with the separator
    rcases List.append_eq_append_iff.1 h with ⟨rest, hns, hkey⟩ | ⟨rest, hns, hkey⟩
    · cases rest with
      | nil =>
        rw [List.append_nil, String.toList_inj] at hns
        rw [List.nil_append, List.cons.injEq, String.toList_inj] at hkey
        exact absurd (Prod.ext hns.symm hkey.2) hne
      | cons c path =>
        rw [List.cons_append, List.cons.injEq] at hkey
        obtain ⟨rfl, hkey⟩ := hkey
        exact .inl ⟨path, hns, hkey⟩
    · cases rest with
      | nil =>
        rw [List.append_nil, String.toList_inj] at hns
        rw [List.nil_append, List.cons.injEq, String.toList_inj] at hkey
        exact absurd (Prod.ext hns hkey.2.symm) hne
      | cons c path =>
        rw [List.cons_append, List.cons.injEq] at hkey
        obtain ⟨rfl, hkey⟩ := hkey
        exact .inr ⟨path, hns, hkey⟩
  · rintro (⟨path, hns, hkey⟩ | ⟨path, hns, hkey⟩)
    · rw [hns, hkey, List.append_assoc, List.cons_append]
    · rw [hns, hkey, List.append_assoc, List.cons_append]

/-! ### Values -/

theorem onBackend_congr {β : Type} {f : Store → Except Err β × Store} {s t : Store}
    (faults : List (Option Fault)) (h : (f s).1 = (f t).1) :
    (onBackend f ⟨s, faults⟩).1 = (onBackend f ⟨t, faults⟩).1 := by
  cases faults with
  | nil => exact h
  | cons fault rest =>
    cases fault with
    | none => exact h
    | some e => rfl

/-- A read looks at the value of its own name only. -/
theorem read_congr (hn : buildName ns key = .ok name) {s t : Store} (h : s name = t name) (size : Nat)
    (faults : List (Option Fault)) : (read ns key size ⟨s, faults⟩).1 = (read ns key size ⟨t, faults⟩).1 := by
  unfold read
  split
  · rfl
  · simp only [hn]
    exact onBackend_congr faults (by simp only [h])

theorem readRecord_congr (hn : buildName ns key = .ok name) {s t : Store} (h : s name = t name)
    (capacity : Nat) (faults : List (Option Fault)) :
    (readRecord cfg ns key capacity ⟨s, faults⟩).1 = (readRecord cfg ns key capacity ⟨t, faults⟩).1 := by
  unfold readRecord
  split
  · rfl
  · simp only [hn]
    exact onBackend_congr faults (by simp only [h])

/-- A change writes to its own name only. -/
theorem Change.run_frame (hn : buildName ns key = .ok name) (change : Change) (d : Dev)
    (hne : name' ≠ name) : (change.run cfg ns key d).store name' = d.store name' := by
  have hwrite (value : Bytes) : (Storage.write ns key value d).2.store name' = d.store name' := by
    rcases write_outcome hn value d with ⟨-, -, h⟩ | ⟨-, h⟩
    · rw [h, Function.update_of_ne hne]
    · rw [h]
  cases change with
  | write value => exact hwrite value
  | writeRecord version value =>
    simp only [Change.run, Storage.writeRecord]
    split
    · rfl
    · split
      · rfl
      · exact hwrite _
  | delete =>
    simp only [Change.run]
    rcases delete_outcome hn d with ⟨-, h, -⟩ | ⟨-, h, -⟩
    · rw [h]
    · rw [h, Function.update_of_ne hne]

theorem isolated_of_ne (hn : buildName ns key = .ok name) (hn' : buildName ns' key' = .ok name')
    (hne : name' ≠ name) : Isolated cfg ns key ns' key' := by
  intro change d faults
  have hsame : (change.run cfg ns key d).store name' = d.store name' := change.run_frame hn d hne
  exact ⟨fun size => read_congr hn' hsame size faults,
    fun capacity => readRecord_congr hn' hsame capacity faults⟩

/-- A first write under a shared name is seen through the other pair. -/
theorem not_isolated_of_eq (hn : buildName ns key = .ok name) (hn' : buildName ns' key' = .ok name) :
    ¬ Isolated cfg ns key ns' key' := by
  intro h
  have hread := (h (.write [1]) ⟨fun _ => [], []⟩ []).1 1
  have hstore : ((Change.write [1]).run cfg ns key ⟨fun _ => [], []⟩).store name = [1] := by
    simp [Change.run, Storage.write, hn, onBackend]
  simp [Storage.read, hn', onBackend, hstore] at hread

/-- **Isolation.** Two distinct accepted pairs have distinct settings names, and a write, a record
write or a delete on either never changes a read of the other, exactly if neither pair lies below the
other. -/
theorem names_isolated_iff (cfg : Config) (ns key ns' key' name name' : String)
    (hn : buildName ns key = .ok name) (hn' : buildName ns' key' = .ok name')
    (hne : (ns, key) ≠ (ns', key')) :
    (name ≠ name' ↔ ¬ (Below ns key ns' key' ∨ Below ns' key' ns key)) ∧
    (Isolated cfg ns key ns' key' ↔ ¬ (Below ns key ns' key' ∨ Below ns' key' ns key)) ∧
    (Isolated cfg ns' key' ns key ↔ ¬ (Below ns key ns' key' ∨ Below ns' key' ns key)) := by
  rw [← joined_eq_iff hne, ← buildName_eq hn, ← buildName_eq hn']
  refine ⟨Iff.rfl, ⟨?_, ?_⟩, ⟨?_, ?_⟩⟩
  · rintro h rfl
    exact not_isolated_of_eq hn hn' h
  · exact fun hname => isolated_of_ne hn hn' fun heq => hname heq.symm
  · rintro h rfl
    exact not_isolated_of_eq hn' hn h
  · exact fun hname => isolated_of_ne hn' hn hname

/-- The settings of two services, and two keys of one. -/
theorem names_isolated_services :
    Isolated ⟨256, by decide, by decide⟩ "lorawan" "region" "app" "config" ∧
    Isolated ⟨256, by decide, by decide⟩ "app" "a/b" "app/a" "c" := by
  have hbelow (ns key ns' key' : String) (h : ¬ ns.toList <+: ns'.toList ∨ ¬ key'.toList <:+ key.toList)
      : ¬ Below ns key ns' key' := by
    rw [below_toList]
    rintro ⟨path, hns, hkey⟩
    rcases h with h | h
    · exact h ⟨_, hns.symm⟩
    · exact h ⟨path ++ ['/'], by rw [hkey, List.append_assoc]; rfl⟩
  constructor
  · refine (names_isolated_iff _ "lorawan" "region" "app" "config" _ _ rfl rfl (by decide)).2.1.2 ?_
    rintro (h | h)
    · exact hbelow _ _ _ _ (.inl (by decide)) h
    · exact hbelow _ _ _ _ (.inl (by decide)) h
  · refine (names_isolated_iff _ "app" "a/b" "app/a" "c" _ _ rfl rfl (by decide)).2.1.2 ?_
    rintro (h | h)
    · exact hbelow _ _ _ _ (.inr (by decide)) h
    · exact hbelow _ _ _ _ (.inl (by decide)) h

/-- The key `a/b` of the namespace `app` and the key `b` of `app/a` have one settings name. -/
theorem names_collide : ¬ ∀ (cfg : Config) (ns key ns' key' name name' : String),
    buildName ns key = .ok name → buildName ns' key' = .ok name' → (ns, key) ≠ (ns', key') →
    name ≠ name' ∧ Isolated cfg ns key ns' key' := by
  intro h
  exact (h ⟨256, by decide, by decide⟩ "app" "a/b" "app/a" "b" "app/a/b" "app/a/b" (by decide)
    (by decide) (by decide)).1 rfl

end Rzi.Storage.Names
