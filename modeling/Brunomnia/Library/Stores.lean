import Mathlib.Data.List.Nodup
import Mathlib.Data.List.Perm.Basic
import Mathlib.Data.List.Perm.Lattice

/-!
# Stores

A store has at most one value for a key. It is changed by writes and removals, one after the
other; what a list of them leaves is said by the entries that the store has afterwards.
-/

namespace Brunomnia.Library

universe u v

variable {Key : Type u} {Value : Type v}

structure Store (Key : Type u) (Value : Type v) where
  entries : List (Key × Value)
  nodup : (entries.map Prod.fst).Nodup

namespace Store

def empty : Store Key Value := ⟨[], List.nodup_nil⟩

theorem entries_nodup (store : Store Key Value) : store.entries.Nodup :=
  store.nodup.of_map

variable [DecidableEq Key]

def read (store : Store Key Value) (key : Key) : Option Value :=
  (store.entries.find? fun entry => entry.1 = key).map Prod.snd

def remove (store : Store Key Value) (key : Key) : Store Key Value where
  entries := store.entries.filter fun entry => entry.1 ≠ key
  nodup := store.nodup.sublist (List.filter_sublist.map Prod.fst)

def write (store : Store Key Value) (key : Key) (value : Value) : Store Key Value where
  entries := (key, value) :: (store.remove key).entries
  nodup := by
    rw [List.map_cons, List.nodup_cons]
    refine ⟨?_, (store.remove key).nodup⟩
    simp [remove]

@[simp]
theorem mem_remove {store : Store Key Value} {key : Key} {entry : Key × Value} :
    entry ∈ (store.remove key).entries ↔ entry ∈ store.entries ∧ entry.1 ≠ key := by
  simp [remove]

@[simp]
theorem mem_write {store : Store Key Value} {key : Key} {value : Value} {entry : Key × Value} :
    entry ∈ (store.write key value).entries ↔
      entry = (key, value) ∨ entry ∈ store.entries ∧ entry.1 ≠ key := by
  simp [write]

theorem read_eq_some_iff {store : Store Key Value} {key : Key} {value : Value} :
    store.read key = some value ↔ (key, value) ∈ store.entries := by
  constructor
  · intro found
    rcases Option.map_eq_some_iff.mp found with ⟨entry, entryFound, rfl⟩
    have isKey : entry.1 = key := by simpa using List.find?_some entryFound
    rw [← isKey]
    exact List.mem_of_find?_eq_some entryFound
  · intro entryMem
    have isSome : (store.entries.find? fun entry => entry.1 = key).isSome := by
      rw [List.find?_isSome]
      exact ⟨_, entryMem, by simp⟩
    rcases Option.isSome_iff_exists.mp isSome with ⟨entry, entryFound⟩
    have isKey : entry.1 = key := by simpa using List.find?_some entryFound
    have same : entry = (key, value) :=
      List.inj_on_of_nodup_map store.nodup (List.mem_of_find?_eq_some entryFound) entryMem isKey
    rw [read, entryFound, same, Option.map_some]

theorem entries_perm_of_read {store : Store Key Value} {key : Key} {value : Value}
    (found : store.read key = some value) :
    store.entries.Perm ((key, value) :: (store.remove key).entries) := by
  apply (List.perm_ext_iff_of_nodup store.entries_nodup _).mpr
  · intro entry
    simp only [List.mem_cons, mem_remove]
    constructor
    · intro entryMem
      by_cases isKey : entry.1 = key
      · apply Or.inl
        have same : store.read key = some entry.2 := by
          rw [read_eq_some_iff, ← isKey]
          exact entryMem
        rw [found, Option.some.injEq] at same
        rw [← isKey, same]
      · exact .inr ⟨entryMem, isKey⟩
    · rintro (rfl | ⟨entryMem, _⟩)
      · exact read_eq_some_iff.mp found
      · exact entryMem
  · exact (store.write key value).entries_nodup

theorem remove_of_read_eq_none {store : Store Key Value} {key : Key}
    (missing : store.read key = none) : store.remove key = store := by
  have unchanged : (store.remove key).entries = store.entries := by
    apply List.filter_eq_self.mpr
    intro entry entryMem
    have different : entry.1 ≠ key := by
      rintro rfl
      rw [read_eq_some_iff.mpr entryMem] at missing
      exact absurd missing (by simp)
    simp [different]
  cases store
  simpa [remove] using unchanged

@[simp]
theorem read_write_self (store : Store Key Value) (key : Key) (value : Value) :
    (store.write key value).read key = some value := by
  simp [read_eq_some_iff]

theorem read_write_of_ne {store : Store Key Value} {key other : Key} {value : Value}
    (different : other ≠ key) : (store.write key value).read other = store.read other := by
  ext found
  simp [read_eq_some_iff, different]

@[simp]
theorem read_remove_self (store : Store Key Value) (key : Key) :
    (store.remove key).read key = none := by
  cases found : (store.remove key).read key with
  | none => rfl
  | some value => simp [read_eq_some_iff] at found

theorem read_remove_of_ne {store : Store Key Value} {key other : Key} (different : other ≠ key) :
    (store.remove key).read other = store.read other := by
  ext found
  simp [read_eq_some_iff, different]

/-! ## Changes that keep the order -/

def keys (store : Store Key Value) : List Key :=
  store.entries.map Prod.fst

omit [DecidableEq Key] in
theorem keys_nodup (store : Store Key Value) : store.keys.Nodup :=
  store.nodup

theorem read_isSome_iff {store : Store Key Value} {key : Key} :
    (store.read key).isSome ↔ key ∈ store.keys := by
  simp [Option.isSome_iff_exists, read_eq_some_iff, keys]

/-- Put another value in the place of the one under a key. -/
def replace (store : Store Key Value) (key : Key) (value : Value) : Store Key Value where
  entries := store.entries.map fun entry => if entry.1 = key then (key, value) else entry
  nodup := by
    have sameKeys : (store.entries.map fun entry =>
        if entry.1 = key then (key, value) else entry).map Prod.fst =
          store.entries.map Prod.fst := by
      rw [List.map_map]
      apply List.map_congr_left
      intro entry _
      by_cases isKey : entry.1 = key <;> simp [isKey]
    rw [sameKeys]
    exact store.nodup

@[simp]
theorem keys_replace (store : Store Key Value) (key : Key) (value : Value) :
    (store.replace key value).keys = store.keys := by
  simp only [keys, replace, List.map_map]
  apply List.map_congr_left
  intro entry _
  by_cases isKey : entry.1 = key <;> simp [isKey]

theorem read_replace_self {store : Store Key Value} {key : Key} (value : Value)
    (present : key ∈ store.keys) : (store.replace key value).read key = some value := by
  rcases List.mem_map.mp present with ⟨entry, entryMem, rfl⟩
  rw [read_eq_some_iff]
  exact List.mem_map.mpr ⟨entry, entryMem, by simp⟩

theorem read_replace_of_ne {store : Store Key Value} {key other : Key} (value : Value)
    (different : other ≠ key) : (store.replace key value).read other = store.read other := by
  ext found
  simp only [read_eq_some_iff, replace, List.mem_map]
  constructor
  · rintro ⟨entry, entryMem, isEntry⟩
    by_cases isKey : entry.1 = key
    · rw [if_pos isKey, Prod.mk.injEq] at isEntry
      exact absurd isEntry.1.symm different
    · rw [if_neg isKey] at isEntry
      rwa [← isEntry]
  · intro found
    exact ⟨_, found, if_neg different⟩

/-- Put a value under a new key, after the others. -/
def append (store : Store Key Value) (key : Key) (value : Value) (fresh : key ∉ store.keys) :
    Store Key Value where
  entries := store.entries ++ [(key, value)]
  nodup := by
    rw [List.map_append, List.nodup_append]
    refine ⟨store.nodup, by simp, ?_⟩
    rintro other otherMem _ keyMem rfl
    rw [List.map_singleton, List.mem_singleton] at keyMem
    have isKey : other = key := keyMem
    exact fresh (isKey ▸ otherMem)

section Append

variable {store : Store Key Value} {key : Key} {value : Value} (fresh : key ∉ store.keys)

omit [DecidableEq Key] in
@[simp]
theorem keys_append : (store.append key value fresh).keys = store.keys ++ [key] := by
  simp [keys, append]

theorem read_append_self : (store.append key value fresh).read key = some value := by
  simp [read_eq_some_iff, append]

theorem read_append_of_ne {other : Key} (different : other ≠ key) :
    (store.append key value fresh).read other = store.read other := by
  ext found
  simp [read_eq_some_iff, append, different]

end Append

theorem keys_remove (store : Store Key Value) (key : Key) :
    (store.remove key).keys = store.keys.filter fun other => other ≠ key := by
  simp only [keys, remove, List.filter_map]
  rfl

/-- A key under which a value is kept. -/
def keyOf [DecidableEq Value] (store : Store Key Value) (value : Value) : Option Key :=
  (store.entries.find? fun entry => entry.2 = value).map Prod.fst

theorem read_of_keyOf [DecidableEq Value] {store : Store Key Value} {value : Value} {key : Key}
    (kept : store.keyOf value = some key) : store.read key = some value := by
  rcases Option.map_eq_some_iff.mp kept with ⟨entry, found, rfl⟩
  have isValue : entry.2 = value := by simpa using List.find?_some found
  rw [read_eq_some_iff, ← isValue]
  exact List.mem_of_find?_eq_some found

/-! ## Changes -/

inductive Change (Key : Type u) (Value : Type v) where
  | remove (key : Key)
  | write (key : Key) (value : Value)

def apply (store : Store Key Value) : Change Key Value → Store Key Value
  | .remove key => store.remove key
  | .write key value => store.write key value

/-- An invariant of entries that holds at first and of everything written holds after. -/
theorem forall_mem_applied {holds : Key × Value → Prop} (changes : List (Change Key Value))
    {store : Store Key Value} (start : ∀ entry ∈ store.entries, holds entry)
    (written : ∀ key value, .write key value ∈ changes → holds (key, value)) :
    ∀ entry ∈ (changes.foldl apply store).entries, holds entry := by
  induction changes generalizing store with
  | nil => exact start
  | cons change changes ih =>
      rw [List.foldl_cons]
      apply ih
      · intro entry entryMem
        cases change with
        | remove key => exact start entry (mem_remove.mp entryMem).1
        | write key value =>
            rcases mem_write.mp entryMem with rfl | ⟨entryMem, _⟩
            · exact written key value List.mem_cons_self
            · exact start entry entryMem
      · exact fun key value mem => written key value (List.mem_cons_of_mem _ mem)

theorem mem_removed (keys : List Key) {store : Store Key Value} {entry : Key × Value} :
    entry ∈ ((keys.map Change.remove).foldl apply store).entries ↔
      entry ∈ store.entries ∧ entry.1 ∉ keys := by
  induction keys generalizing store with
  | nil => simp
  | cons key keys ih =>
      rw [List.map_cons, List.foldl_cons, ih]
      simp only [apply, mem_remove, List.mem_cons, not_or]
      tauto

theorem mem_written {files : List (Key × Value)} (nodup : (files.map Prod.fst).Nodup)
    {store : Store Key Value} {entry : Key × Value} :
    entry ∈ ((files.map fun file => Change.write file.1 file.2).foldl apply store).entries ↔
      entry ∈ files ∨ entry ∈ store.entries ∧ entry.1 ∉ files.map Prod.fst := by
  induction files generalizing store with
  | nil => simp
  | cons file files ih =>
      rw [List.map_cons, List.nodup_cons] at nodup
      rw [List.map_cons, List.foldl_cons, ih nodup.2]
      simp only [apply, mem_write, List.map_cons, List.mem_cons, not_or]
      constructor
      · rintro (later | ⟨rfl | ⟨before, different⟩, notLater⟩)
        · exact .inl (.inr later)
        · exact .inl (.inl rfl)
        · exact .inr ⟨before, different, notLater⟩
      · rintro ((rfl | later) | ⟨before, different, notLater⟩)
        · exact .inr ⟨.inl rfl, nodup.1⟩
        · exact .inl later
        · exact .inr ⟨.inr ⟨before, different⟩, notLater⟩

end Store

end Brunomnia.Library
