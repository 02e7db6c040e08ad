import Mathlib.Data.List.Nodup
import Brunomnia.Library.Lists

/-!
# Maps that remember an order

Maps as lists of entries. A key stays where it was first set and has the value that was set
last, so that a map is determined by the entries it was set to, one after the other.
-/

namespace Brunomnia.Library

universe u v

variable {Key : Type u} {Value : Type v} [DecidableEq Key]

/-- Sets the value of a key: in its place, or at the end if it is new. -/
def setEntry (entries : List (Key × Value)) (key : Key) (value : Value) : List (Key × Value) :=
  if key ∈ entries.map Prod.fst then
    entries.map fun entry => if entry.1 = key then (key, value) else entry
  else entries ++ [(key, value)]

def setEntries (entries later : List (Key × Value)) : List (Key × Value) :=
  later.foldl (fun entries entry => setEntry entries entry.1 entry.2) entries

def lastValue (entries : List (Key × Value)) (key : Key) : Option Value :=
  (entries.reverse.find? fun entry => entry.1 = key).map Prod.snd

def firstKeys (keys : List Key) : List Key :=
  keys.eraseDups

/-- The map that entries leave. -/
def orderedMap (entries : List (Key × Value)) : List (Key × Value) :=
  (firstKeys (entries.map Prod.fst)).filterMap fun key =>
    (lastValue entries key).map fun value => (key, value)

section LastValue

variable (entries later : List (Key × Value)) (key : Key)

@[simp] theorem lastValue_nil : lastValue ([] : List (Key × Value)) key = none := rfl

theorem lastValue_append :
    lastValue (entries ++ later) key = (lastValue later key).or (lastValue entries key) := by
  unfold lastValue
  rw [List.reverse_append, List.find?_append, Option.map_or]

@[simp] theorem lastValue_singleton (entry : Key × Value) :
    lastValue [entry] key = if entry.1 = key then some entry.2 else none := by
  unfold lastValue
  by_cases same : entry.1 = key <;> simp [same]

theorem lastValue_cons (entry : Key × Value) :
    lastValue (entry :: entries) key =
      (lastValue entries key).or (if entry.1 = key then some entry.2 else none) := by
  rw [← List.singleton_append, lastValue_append, lastValue_singleton]

theorem lastValue_eq_none_iff : lastValue entries key = none ↔ key ∉ entries.map Prod.fst := by
  unfold lastValue
  rw [Option.map_eq_none_iff, List.find?_eq_none]
  constructor
  · intro noEntry keyMem
    obtain ⟨entry, entryMem, isKey⟩ := List.mem_map.mp keyMem
    exact noEntry entry (List.mem_reverse.mpr entryMem) (by simpa using isKey)
  · intro noKey entry entryMem isKey
    apply noKey
    rw [List.mem_reverse] at entryMem
    exact List.mem_map.mpr ⟨entry, entryMem, by simpa using isKey⟩

theorem lastValue_map {Other : Type*} (change : Value → Other) :
    lastValue (entries.map fun entry => (entry.1, change entry.2)) key =
      (lastValue entries key).map change := by
  induction entries with
  | nil => rfl
  | cons entry entries ih =>
      rw [List.map_cons, lastValue_cons, lastValue_cons, ih]
      by_cases same : entry.1 = key
      · cases lastValue entries key <;> simp [same]
      · simp [same]

variable {entries key}

theorem mem_of_lastValue {value : Value} (found : lastValue entries key = some value) :
    (key, value) ∈ entries := by
  rcases Option.map_eq_some_iff.mp found with ⟨entry, entryFound, rfl⟩
  have isKey : entry.1 = key := by simpa using List.find?_some entryFound
  rw [← isKey]
  exact List.mem_reverse.mp (List.mem_of_find?_eq_some entryFound)

theorem lastValue_eq_some_of_unique {value : Value} (entryMem : (key, value) ∈ entries)
    (unique : ∀ other, (key, other) ∈ entries → other = value) :
    lastValue entries key = some value := by
  cases found : lastValue entries key with
  | none =>
      rw [lastValue_eq_none_iff] at found
      exact absurd (List.mem_map_of_mem entryMem) found
  | some other => rw [unique other (mem_of_lastValue found)]

end LastValue

/-! ## Orders -/

theorem eraseDups_of_nodup {keys : List Key} (nodup : keys.Nodup) : keys.eraseDups = keys := by
  induction keys with
  | nil => rfl
  | cons key keys ih =>
      obtain ⟨fresh, nodup⟩ := List.nodup_cons.mp nodup
      have others : keys.filter (fun other => !other == key) = keys := by
        apply List.filter_eq_self.mpr
        intro other otherMem
        have different : other ≠ key := by
          rintro rfl
          exact fresh otherMem
        simpa using different
      rw [List.eraseDups_cons, others, ih nodup]

theorem removeAll_congr {keys first second : List Key}
    (same : ∀ key, key ∈ first ↔ key ∈ second) : keys.removeAll first = keys.removeAll second := by
  unfold List.removeAll
  apply List.filter_congr
  intro key _
  simp [same]

@[simp] theorem mem_firstKeys {keys : List Key} {key : Key} :
    key ∈ firstKeys keys ↔ key ∈ keys :=
  List.mem_eraseDups

theorem firstKeys_firstKeys_append (keys later : List Key) :
    firstKeys (firstKeys keys ++ later) = firstKeys (keys ++ later) := by
  unfold firstKeys
  rw [List.eraseDups_append, List.eraseDups_append, eraseDups_of_nodup (nodup_eraseDups keys),
    removeAll_congr fun key => List.mem_eraseDups]

theorem eraseDups_filter (chosen : Key → Bool) (keys : List Key) :
    (keys.filter chosen).eraseDups = keys.eraseDups.filter chosen := by
  induction lengthEq : keys.length using Nat.strong_induction_on generalizing keys with
  | _ length ih =>
      cases keys with
      | nil => rfl
      | cons key keys =>
          have shorter : (keys.filter fun other => !other == key).length < length := by
            have filtered := List.length_filter_le (fun other => !other == key) keys
            rw [List.length_cons] at lengthEq
            omega
          have others := ih _ shorter (keys.filter fun other => !other == key) rfl
          rw [List.eraseDups_cons, List.filter_cons, List.filter_cons, ← others]
          split
          case isTrue isChosen =>
            rw [List.eraseDups_cons, List.filter_comm]
          case isFalse notChosen =>
            -- a key that is not chosen need not be taken out
            rw [List.filter_filter]
            congr 1
            apply List.filter_congr
            intro other _
            by_cases same : other = key
            · simp [same, Bool.eq_false_iff.mpr notChosen]
            · simp [same]

theorem eraseDups_removeAll (keys first : List Key) :
    (keys.eraseDups.removeAll first).eraseDups = (keys.removeAll first).eraseDups := by
  unfold List.removeAll
  rw [eraseDups_filter, eraseDups_filter, eraseDups_of_nodup (nodup_eraseDups keys)]

theorem firstKeys_append_firstKeys (keys later : List Key) :
    firstKeys (keys ++ firstKeys later) = firstKeys (keys ++ later) := by
  unfold firstKeys
  rw [List.eraseDups_append, List.eraseDups_append, eraseDups_removeAll]

/-! ## The map of entries -/

theorem map_fst_orderedMap (entries : List (Key × Value)) :
    (orderedMap entries).map Prod.fst = firstKeys (entries.map Prod.fst) := by
  unfold orderedMap
  have present : ∀ key ∈ firstKeys (entries.map Prod.fst), ∃ value,
      lastValue entries key = some value := by
    intro key keyMem
    rw [mem_firstKeys] at keyMem
    rw [← Option.isSome_iff_exists, Option.isSome_iff_ne_none, ne_eq, lastValue_eq_none_iff,
      not_not]
    exact keyMem
  generalize firstKeys (entries.map Prod.fst) = keys at present
  induction keys with
  | nil => rfl
  | cons key keys ih =>
      obtain ⟨value, valueEq⟩ := present key (by simp)
      rw [List.filterMap_cons, valueEq]
      simp only [Option.map_some, List.map_cons]
      rw [ih fun other otherMem => present other (by simp [otherMem])]

theorem lastValue_of_mem_orderedMap {entries : List (Key × Value)} {entry : Key × Value}
    (entryMem : entry ∈ orderedMap entries) : lastValue entries entry.1 = some entry.2 := by
  unfold orderedMap at entryMem
  obtain ⟨key, _, entryEq⟩ := List.mem_filterMap.mp entryMem
  obtain ⟨value, valueEq, rfl⟩ := Option.map_eq_some_iff.mp entryEq
  exact valueEq

theorem lastValue_orderedMap (entries : List (Key × Value)) (key : Key) :
    lastValue (orderedMap entries) key = lastValue entries key := by
  have chosen : ∀ keys : List Key, lastValue (keys.filterMap fun key =>
      (lastValue entries key).map fun value => (key, value)) key =
        if key ∈ keys then lastValue entries key else none := by
    intro keys
    induction keys with
    | nil => rfl
    | cons other keys ih =>
        rw [List.filterMap_cons]
        cases valueEq : lastValue entries other with
        | none =>
            simp only [Option.map_none, ih, List.mem_cons]
            by_cases same : key = other
            · simp [same, valueEq]
            · simp [same]
        | some value =>
            simp only [Option.map_some, lastValue_cons, ih, List.mem_cons]
            by_cases same : other = key
            · rw [same] at valueEq
              by_cases later : key ∈ keys <;> simp [same, valueEq, later]
            · simp [same, Ne.symm same]
  unfold orderedMap
  rw [chosen]
  split
  case isTrue => rfl
  case isFalse missing =>
    rw [mem_firstKeys] at missing
    exact ((lastValue_eq_none_iff entries key).mpr missing).symm

theorem mem_orderedMap_iff {entries : List (Key × Value)} {entry : Key × Value} :
    entry ∈ orderedMap entries ↔ lastValue entries entry.1 = some entry.2 := by
  constructor
  · exact lastValue_of_mem_orderedMap
  · intro found
    unfold orderedMap
    apply List.mem_filterMap.mpr
    refine ⟨entry.1, mem_firstKeys.mpr (List.mem_map_of_mem (mem_of_lastValue found)), ?_⟩
    simp [found]

theorem nodup_orderedMap (entries : List (Key × Value)) :
    ((orderedMap entries).map Prod.fst).Nodup := by
  rw [map_fst_orderedMap]
  exact nodup_eraseDups _

theorem setEntry_orderedMap (entries : List (Key × Value)) (key : Key) (value : Value) :
    setEntry (orderedMap entries) key value = orderedMap (entries ++ [(key, value)]) := by
  have values : ∀ other, lastValue (entries ++ [(key, value)]) other =
      if key = other then some value else lastValue entries other := by
    intro other
    rw [lastValue_append, lastValue_singleton]
    by_cases same : key = other <;> simp [same]
  unfold setEntry
  simp only [map_fst_orderedMap, mem_firstKeys]
  unfold orderedMap firstKeys
  rw [List.map_append, List.map_singleton, List.eraseDups_append]
  split
  case isTrue present =>
    have noneNew : [key].removeAll (entries.map Prod.fst) = [] := by
      simpa [List.removeAll] using present
    rw [noneNew, List.eraseDups_nil, List.append_nil, List.map_filterMap]
    apply List.filterMap_congr
    intro other _
    rw [values, Option.map_map]
    by_cases same : key = other
    · subst same
      have found : ∃ old, lastValue entries key = some old := by
        rw [← Option.isSome_iff_exists, Option.isSome_iff_ne_none, ne_eq, lastValue_eq_none_iff,
          not_not]
        exact present
      obtain ⟨old, oldEq⟩ := found
      simp [oldEq]
    · rw [if_neg same]
      cases lastValue entries other with
      | none => rfl
      | some old => simp [Ne.symm same]
  case isFalse fresh =>
    have isNew : [key].removeAll (entries.map Prod.fst) = [key] := by
      simpa [List.removeAll] using fresh
    rw [isNew, List.filterMap_append]
    congr 1
    · apply List.filterMap_congr
      intro other otherMem
      rw [List.mem_eraseDups] at otherMem
      rw [values, if_neg]
      rintro rfl
      exact fresh otherMem
    · simp [values, eraseDups_of_nodup (List.nodup_singleton key)]

theorem setEntries_orderedMap (entries later : List (Key × Value)) :
    setEntries (orderedMap entries) later = orderedMap (entries ++ later) := by
  induction later generalizing entries with
  | nil => rw [List.append_nil]; rfl
  | cons entry later ih =>
      have first := setEntry_orderedMap entries entry.1 entry.2
      unfold setEntries at *
      rw [List.foldl_cons, first, ih, List.append_assoc, List.singleton_append]

theorem setEntries_nil (entries : List (Key × Value)) :
    setEntries [] entries = orderedMap entries :=
  setEntries_orderedMap [] entries

theorem orderedMap_congr {first second : List (Key × Value)}
    (keys : firstKeys (first.map Prod.fst) = firstKeys (second.map Prod.fst))
    (values : ∀ key, lastValue first key = lastValue second key) :
    orderedMap first = orderedMap second := by
  unfold orderedMap
  rw [keys]
  simp only [values]

theorem orderedMap_append_orderedMap (entries later : List (Key × Value)) :
    orderedMap (entries ++ orderedMap later) = orderedMap (entries ++ later) := by
  apply orderedMap_congr
  · rw [List.map_append, List.map_append, map_fst_orderedMap, firstKeys_append_firstKeys]
  · intro key
    rw [lastValue_append, lastValue_append, lastValue_orderedMap]

theorem orderedMap_orderedMap_append (entries later : List (Key × Value)) :
    orderedMap (orderedMap entries ++ later) = orderedMap (entries ++ later) := by
  apply orderedMap_congr
  · rw [List.map_append, List.map_append, map_fst_orderedMap, firstKeys_firstKeys_append]
  · intro key
    rw [lastValue_append, lastValue_append, lastValue_orderedMap]

end Brunomnia.Library
