import Mathlib
import Brunomnia.Library.OrderedMaps

/-!
# Layers of rows

Layers of rows that are merged into one ordered map. A row has a key or none, and of the rows with
one key the last is left: the last of the innermost layer that mentions the key.
-/

namespace Brunomnia.Library

universe u v

variable {Key : Type u} {Row : Type v} [DecidableEq Key] (keyOf : Row → Option Key)

def keyedEntries (rows : List Row) : List (Key × Row) :=
  rows.filterMap fun row => (keyOf row).map fun key => (key, row)

/-- The map that rows are set into one by one. -/
def keyedMap (rows : List Row) : List (Key × Row) :=
  setEntries [] (keyedEntries keyOf rows)

/-- The rows of the maps of all layers, the later layers set over the earlier ones. -/
def mergeLayers (layers : List (List Row)) : List Row :=
  (layers.foldl (fun merged rows => setEntries merged (keyedMap keyOf rows)) []).map Prod.snd

def rowsOf (rows : List Row) (key : Key) : List Row :=
  rows.filter fun row => keyOf row = some key

/-- The last layer that mentions a key. -/
def innermostLayer (layers : List (List Row)) (key : Key) : List Row :=
  (layers.reverse.find? fun rows => rowsOf keyOf rows key ≠ []).getD []

variable {keyOf}

omit [DecidableEq Key] in
theorem keyedEntries_append (rows later : List Row) :
    keyedEntries keyOf (rows ++ later) = keyedEntries keyOf rows ++ keyedEntries keyOf later :=
  List.filterMap_append

theorem rowsOf_append (rows later : List Row) (key : Key) :
    rowsOf keyOf (rows ++ later) key = rowsOf keyOf rows key ++ rowsOf keyOf later key :=
  List.filter_append _ _

theorem mergeLayers_eq (layers : List (List Row)) :
    mergeLayers keyOf layers = (orderedMap (keyedEntries keyOf layers.flatten)).map Prod.snd := by
  unfold mergeLayers
  congr 1
  have merged : ∀ rows, layers.foldl (fun merged rows => setEntries merged (keyedMap keyOf rows))
      (orderedMap (keyedEntries keyOf rows)) =
        orderedMap (keyedEntries keyOf (rows ++ layers.flatten)) := by
    induction layers with
    | nil => simp
    | cons layer layers ih =>
        intro rows
        rw [List.foldl_cons, keyedMap, setEntries_nil, setEntries_orderedMap,
          orderedMap_append_orderedMap, ← keyedEntries_append, ih, List.flatten_cons,
          List.append_assoc]
  exact merged []

theorem lastValue_keyedEntries (rows : List Row) (key : Key) :
    lastValue (keyedEntries keyOf rows) key = (rowsOf keyOf rows key).getLast? := by
  induction rows using List.reverseRecOn with
  | nil => rfl
  | append_singleton rows row ih =>
      rw [keyedEntries_append, lastValue_append, ih, rowsOf_append, List.getLast?_append]
      congr 1
      cases keyEq : keyOf row with
      | none => simp [keyedEntries, rowsOf, keyEq]
      | some other => by_cases same : other = key <;> simp [keyedEntries, rowsOf, keyEq, same]

theorem getLast?_rowsOf_flatten (layers : List (List Row)) (key : Key) :
    (rowsOf keyOf layers.flatten key).getLast? =
      (rowsOf keyOf (innermostLayer keyOf layers key) key).getLast? := by
  unfold innermostLayer
  induction layers using List.reverseRecOn with
  | nil => rfl
  | append_singleton layers layer ih =>
      rw [List.flatten_append, List.flatten_singleton, rowsOf_append, List.getLast?_append,
        List.reverse_append, List.reverse_singleton, List.singleton_append]
      by_cases mentions : rowsOf keyOf layer key = []
      · rw [mentions, List.find?_cons_of_neg (by simpa using mentions), ih]
        rfl
      · rw [List.find?_cons_of_pos (by simpa using mentions), Option.getD_some]
        rcases List.eq_nil_or_concat (rowsOf keyOf layer key) with empty | ⟨init, last, concat⟩
        · exact absurd empty mentions
        · simp [concat]

theorem filter_filterMap_of_nodup {keys : List Key} (nodup : keys.Nodup)
    (valueOf : Key → Option Row) (key : Key) :
    (keys.filterMap fun other => (valueOf other).map fun row => (other, row)).filter
        (fun entry => entry.1 = key) =
      if key ∈ keys then ((valueOf key).map fun row => (key, row)).toList else [] := by
  induction keys with
  | nil => rfl
  | cons other keys ih =>
      rw [List.nodup_cons] at nodup
      rw [List.filterMap_cons]
      by_cases same : other = key
      · subst same
        cases valueEq : valueOf other with
        | none => simp [ih nodup.2, nodup.1]
        | some row => simp [ih nodup.2, nodup.1]
      · cases valueEq : valueOf other with
        | none => simp [ih nodup.2, Ne.symm same]
        | some row => simp [ih nodup.2, same, Ne.symm same]

theorem keyOf_of_mem_orderedMap {rows : List Row} {entry : Key × Row}
    (entryMem : entry ∈ orderedMap (keyedEntries keyOf rows)) :
    keyOf entry.2 = some entry.1 := by
  have found := mem_of_lastValue (lastValue_of_mem_orderedMap entryMem)
  rcases List.mem_filterMap.mp found with ⟨row, rowMem, keyed⟩
  rcases Option.map_eq_some_iff.mp keyed with ⟨key, keyEq, pair⟩
  cases pair
  exact keyEq

theorem rowsOf_mergeLayers (layers : List (List Row)) (key : Key) :
    rowsOf keyOf (mergeLayers keyOf layers) key =
      (rowsOf keyOf (innermostLayer keyOf layers key) key).getLast?.toList := by
  have sameKey : ∀ entry ∈ orderedMap (keyedEntries keyOf layers.flatten),
      decide (keyOf entry.2 = some key) = decide (entry.1 = key) := by
    intro entry entryMem
    simp only [keyOf_of_mem_orderedMap entryMem, Option.some_inj]
  have left := filter_filterMap_of_nodup
    (nodup_eraseDups ((keyedEntries keyOf layers.flatten).map Prod.fst))
    (lastValue (keyedEntries keyOf layers.flatten)) key
  rw [mergeLayers_eq, rowsOf, List.filter_map, Function.comp_def, List.filter_congr sameKey]
  change (orderedMap _).filter _ = _ at left
  rw [left, ← getLast?_rowsOf_flatten, ← lastValue_keyedEntries]
  split
  case isTrue => cases lastValue (keyedEntries keyOf layers.flatten) key <;> rfl
  case isFalse missing =>
    rw [List.mem_eraseDups] at missing
    rw [(lastValue_eq_none_iff _ _).mpr missing]
    rfl

/-- Only the last row of several is chosen. -/
theorem filter_getLast?_iff {chosen : Row → Bool} (rows : List Row) :
    rows.getLast?.toList.filter chosen = rows.filter chosen ↔
      ∀ row ∈ rows.dropLast, chosen row = false := by
  rcases List.eq_nil_or_concat rows with rfl | ⟨init, last, rfl⟩
  · simp
  · rw [List.concat_eq_append, List.getLast?_concat, List.dropLast_concat, List.filter_append,
      Option.toList_some, List.self_eq_append_left,
      List.filter_eq_nil_iff]
    simp only [Bool.not_eq_true]

theorem map_keyOf_mergeLayers (layers : List (List Row)) :
    (mergeLayers keyOf layers).map keyOf =
      (firstKeys ((keyedEntries keyOf layers.flatten).map Prod.fst)).map some := by
  have sameKey : ∀ entry ∈ orderedMap (keyedEntries keyOf layers.flatten),
      keyOf entry.2 = some entry.1 := fun entry => keyOf_of_mem_orderedMap
  rw [mergeLayers_eq, List.map_map, ← map_fst_orderedMap, List.map_map]
  exact List.map_congr_left sameKey

theorem pairwise_of_map_sublist {Name : Type*} [DecidableEq Name] {nameOf : Row → Name}
    {names : List Name} {rows : List Row} (nodup : names.Nodup)
    (keepsOrder : (rows.map nameOf).Sublist names) :
    rows.Pairwise fun row later => names.idxOf (nameOf row) < names.idxOf (nameOf later) := by
  have ordered : names.Pairwise fun name later => names.idxOf name < names.idxOf later := by
    rw [List.pairwise_iff_getElem]
    intro i j iBound jBound before
    rwa [nodup.idxOf_getElem, nodup.idxOf_getElem]
  have kept := ordered.sublist keepsOrder
  rwa [List.pairwise_map] at kept

theorem eq_of_map_sublist {Name : Type*} [DecidableEq Name] {nameOf : Row → Name}
    {names : List Name} {rows others : List Row} (nodup : names.Nodup)
    (first : (rows.map nameOf).Sublist names) (second : (others.map nameOf).Sublist names)
    (same : ∀ name, rows.filter (fun row => nameOf row = name) =
      others.filter fun row => nameOf row = name) : rows = others := by
  classical
  have perm : rows.Perm others := by
    rw [List.perm_iff_count]
    intro row
    have counts := congrArg (List.count row) (same (nameOf row))
    rwa [List.count_filter (by simp), List.count_filter (by simp)] at counts
  apply List.Perm.eq_of_pairwise _ (pairwise_of_map_sublist nodup first)
    (pairwise_of_map_sublist nodup second) perm
  intro row other _ _ before after
  omega

end Brunomnia.Library
