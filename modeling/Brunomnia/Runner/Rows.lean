import Brunomnia.Library.Layers
import Brunomnia.Runner.Variables

/-!
# The row that decides a key

Of several rows the last one whose name is a key, or lies above it, decides the key. Merged
rows stand in the order in which their names are first mentioned, so that of the names above
a key the one that is mentioned last for the first time decides it.
-/

namespace Brunomnia.Runner

open Codegen (Text trimText)
open Library

def isNamed (row : KeyValue) : Bool :=
  trimText row.name ≠ []

def rowNames (rows : List KeyValue) : List Text :=
  (rows.filter isNamed).map fun row => trimText row.name

def lastRow (rows : List KeyValue) (name : Text) : Option KeyValue :=
  rows.reverse.find? fun row => isNamed row && trimText row.name = name

/-- The last row whose name covers a key. -/
def coveringRow (rows : List KeyValue) (key : Text) : Option KeyValue :=
  rows.reverse.find? fun row => isNamed row && covers (trimText row.name) key

/-- Of the names that cover a key the one that is first mentioned after the others. -/
def decidingName (rows : List KeyValue) (key : Text) : Option Text :=
  (firstKeys (rowNames rows)).reverse.find? fun name => covers name key

def mergedRow (rows : List KeyValue) (key : Text) : Option KeyValue :=
  (decidingName rows key).bind (lastRow rows)

section Rows

variable (parse : Text → Option JsonTree)

/-- The text that a row gives to a key: `environmentRowVariables(row)[key]`. -/
def rowText (row : KeyValue) (key : Text) : Option Text :=
  lastValue (environmentRowEntries parse row) key

/-! ## Rows that are applied one after the other -/

theorem defineAll_apply (record : Variables) (entries : List (Text × Text)) (key : Text) :
    defineAll record entries key = (lastValue entries key).or (record key) := by
  unfold defineAll
  induction entries using List.reverseRecOn with
  | nil => rfl
  | append_singleton entries entry ih =>
      rw [List.foldl_append, List.foldl_cons, List.foldl_nil, lastValue_append,
        lastValue_singleton]
      change (if key = entry.1 then _ else _) = _
      rw [ih]
      by_cases same : entry.1 = key
      · simp [same]
      · simp [same, Ne.symm same]

theorem covers_self (name : Text) : covers name name = true := by
  simp [covers]

theorem mem_appendMembers {depth : ℕ} {tree : JsonTree} {path : Text}
    {state : ℕ × List (Text × Text)} {entry : Text × Text}
    (entryMem : entry ∈ (appendMembers depth tree path state).2) :
    entry ∈ state.2 ∨ path ++ ['.'] <+: entry.1 := by
  induction depth generalizing tree path state with
  | zero => exact Or.inl entryMem
  | succ depth ih =>
      cases tree with
      | node text members =>
          unfold appendMembers at entryMem
          generalize members.take 1000 = members at entryMem
          induction members generalizing state with
          | nil => exact Or.inl entryMem
          | cons member members others =>
              rw [List.foldl_cons] at entryMem
              rcases others entryMem with before | below
              · dsimp only at before
                split at before
                · exact Or.inl before
                · rcases ih before with before | below
                  · rw [List.mem_append, List.mem_singleton] at before
                    rcases before with before | rfl
                    · exact Or.inl before
                    · exact Or.inr ⟨member.1, by simp⟩
                  · have childBelow : path ++ ['.'] <+: path ++ '.' :: member.1 :=
                      ⟨member.1, by simp⟩
                    exact Or.inr (childBelow.trans ((List.prefix_append _ _).trans below))
              · exact Or.inr below

theorem covers_of_mem_entries {row : KeyValue} {entry : Text × Text}
    (entryMem : entry ∈ environmentRowEntries parse row) :
    covers (trimText row.name) entry.1 = true := by
  unfold environmentRowEntries at entryMem
  dsimp only at entryMem
  have isName : entry ∈ [(trimText row.name, row.value)] →
      covers (trimText row.name) entry.1 = true := by
    intro isSelf
    rw [List.mem_singleton] at isSelf
    rw [isSelf]
    exact covers_self _
  split at entryMem
  · exact absurd entryMem List.not_mem_nil
  · split at entryMem
    · exact isName entryMem
    · split at entryMem
      · exact isName entryMem
      · rcases mem_appendMembers entryMem with before | below
        · exact isName before
        · simp [covers, below]

theorem rowText_of_not_covers {row : KeyValue} {key : Text}
    (apart : covers (trimText row.name) key = false) : rowText parse row key = none := by
  unfold rowText
  rw [lastValue_eq_none_iff]
  intro keyMem
  obtain ⟨entry, entryMem, rfl⟩ := List.mem_map.mp keyMem
  rw [covers_of_mem_entries parse entryMem] at apart
  cases apart

theorem applyRow_apply (record : Variables) (row : KeyValue) (key : Text) :
    applyRow parse record row key =
      if isNamed row && covers (trimText row.name) key then rowText parse row key
      else record key := by
  unfold applyRow
  by_cases noName : trimText row.name = []
  · simp [noName, isNamed]
  · have named : isNamed row = true := by simp [isNamed, noName]
    rw [if_neg noName, named, Bool.true_and, defineAll_apply]
    unfold Variables.remove
    change (rowText parse row key).or _ = _
    split
    case isTrue => rw [Option.or_none]
    case isFalse apart =>
      rw [rowText_of_not_covers parse (Bool.eq_false_iff.mpr apart), Option.none_or]

theorem environmentVariables_apply (rows : List KeyValue) (key : Text) :
    environmentVariables parse rows key =
      (coveringRow rows key).bind fun row => rowText parse row key := by
  unfold environmentVariables coveringRow
  induction rows using List.reverseRecOn with
  | nil => rfl
  | append_singleton rows row ih =>
      rw [List.foldl_append, List.foldl_cons, List.foldl_nil, applyRow_apply, ih,
        List.reverse_append, List.reverse_singleton, List.singleton_append, List.find?_cons]
      split
      case isTrue decides => rw [decides]; rfl
      case isFalse other => rw [Bool.eq_false_iff.mpr other]

end Rows

/-! ## Merged rows -/

def nameRows (rows : List KeyValue) : List (Text × KeyValue) :=
  (rows.filter isNamed).map fun row => (trimText row.name, row)

theorem map_fst_nameRows (rows : List KeyValue) :
    (nameRows rows).map Prod.fst = rowNames rows := by
  unfold nameRows rowNames
  rw [List.map_map]
  rfl

theorem lastValue_nameRows (rows : List KeyValue) (name : Text) :
    lastValue (nameRows rows) name = lastRow rows name := by
  unfold nameRows lastRow
  induction rows using List.reverseRecOn with
  | nil => rfl
  | append_singleton rows row ih =>
      rw [List.filter_append, List.map_append, lastValue_append, ih, List.reverse_append,
        List.reverse_singleton, List.singleton_append, List.find?_cons]
      by_cases named : isNamed row = true
      · by_cases same : trimText row.name = name <;> simp [named, same]
      · simp [named]

theorem rowMap_eq (rows : List KeyValue) : rowMap rows false = orderedMap (nameRows rows) := by
  rw [← setEntries_nil]
  unfold rowMap nameRows setEntries
  generalize ([] : List (Text × KeyValue)) = entries
  induction rows generalizing entries with
  | nil => rfl
  | cons row rows ih =>
      rw [List.foldl_cons, ih]
      by_cases noName : trimText row.name = []
      · simp [isNamed, noName]
      · simp [isNamed, noName, rowKey]

theorem nameRows_append (rows later : List KeyValue) :
    nameRows (rows ++ later) = nameRows rows ++ nameRows later := by
  unfold nameRows
  rw [List.filter_append, List.map_append]

def rowName? (row : KeyValue) : Option Text :=
  if isNamed row then some (trimText row.name) else none

theorem nameRows_eq (rows : List KeyValue) : nameRows rows = keyedEntries rowName? rows := by
  unfold nameRows keyedEntries
  induction rows with
  | nil => rfl
  | cons row rows ih => by_cases named : isNamed row = true <;> simp [rowName?, named, ih]

theorem mergeRows_eq (layers : List (List KeyValue)) :
    mergeRows layers false = (orderedMap (nameRows layers.flatten)).map Prod.snd := by
  have sameMap (rows : List KeyValue) : rowMap rows false = keyedMap rowName? rows := by
    rw [rowMap_eq, keyedMap, setEntries_nil, nameRows_eq]
  simp only [mergeRows, sameMap]
  rw [nameRows_eq]
  exact mergeLayers_eq layers

theorem lastRow_spec {rows : List KeyValue} {name : Text} {row : KeyValue}
    (isLast : lastRow rows name = some row) : isNamed row = true ∧ trimText row.name = name := by
  have found := List.find?_some isLast
  simpa using found

theorem nameRows_mergeRows (layers : List (List KeyValue)) :
    nameRows (mergeRows layers false) = orderedMap (nameRows layers.flatten) := by
  have named : ∀ entry ∈ orderedMap (nameRows layers.flatten),
      isNamed entry.2 = true ∧ trimText entry.2.name = entry.1 := by
    intro entry entryMem
    have isLast := lastValue_of_mem_orderedMap entryMem
    rw [lastValue_nameRows] at isLast
    exact lastRow_spec isLast
  rw [mergeRows_eq]
  generalize orderedMap (nameRows layers.flatten) = entries at named
  have allNamed : entries.filter (isNamed ∘ Prod.snd) = entries :=
    List.filter_eq_self.mpr fun entry entryMem => (named entry entryMem).1
  unfold nameRows
  rw [List.filter_map, List.map_map, allNamed]
  calc entries.map ((fun row => (trimText row.name, row)) ∘ Prod.snd)
    _ = entries.map id :=
        List.map_congr_left fun entry entryMem => Prod.ext (named entry entryMem).2 rfl
    _ = entries := List.map_id entries

theorem mergeRows_mergeRows (layers others : List (List KeyValue)) :
    mergeRows (mergeRows layers false :: others) false = mergeRows (layers ++ others) false := by
  rw [mergeRows_eq (_ :: _), mergeRows_eq (layers ++ others), List.flatten_cons,
    List.flatten_append, nameRows_append, nameRows_append, nameRows_mergeRows,
    orderedMap_orderedMap_append]

theorem coveringRow_mergeRows (layers : List (List KeyValue)) (key : Text) :
    coveringRow (mergeRows layers false) key = mergedRow layers.flatten key := by
  rw [mergeRows_eq]
  unfold mergedRow decidingName orderedMap
  rw [map_fst_nameRows]
  simp only [lastValue_nameRows]
  have present : ∀ name ∈ firstKeys (rowNames layers.flatten),
      ∃ row, lastRow layers.flatten name = some row := by
    intro name nameMem
    rw [mem_firstKeys, ← map_fst_nameRows] at nameMem
    rw [← Option.isSome_iff_exists, Option.isSome_iff_ne_none, ← lastValue_nameRows, ne_eq,
      lastValue_eq_none_iff, not_not]
    exact nameMem
  generalize firstKeys (rowNames layers.flatten) = names at present
  unfold coveringRow
  induction names using List.reverseRecOn with
  | nil => rfl
  | append_singleton names name ih =>
      obtain ⟨row, isLast⟩ := present name (by simp)
      obtain ⟨named, nameEq⟩ := lastRow_spec isLast
      have before := ih fun other otherMem => present other (by simp [otherMem])
      rw [List.filterMap_append, List.map_append, List.reverse_append, List.reverse_append,
        List.find?_append, List.find?_append, before]
      by_cases decides : covers name key = true
      · simp [isLast, named, nameEq, decides]
      · simp [isLast, named, nameEq, decides]

theorem environmentVariables_mergeRows (parse : Text → Option JsonTree)
    (layers : List (List KeyValue)) (key : Text) :
    environmentVariables parse (mergeRows layers false) key =
      (mergedRow layers.flatten key).bind fun row => rowText parse row key := by
  rw [environmentVariables_apply, coveringRow_mergeRows]

end Brunomnia.Runner
