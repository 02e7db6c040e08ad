import Mathlib

/-!
# Trimming joined pieces

Items that satisfy a condition are trimmed from both ends of a list. Where pieces have been joined
with a separator, trimming the separator takes the empty pieces away from both ends, and splitting
gives the others back.
-/

namespace Brunomnia.Library

universe u

variable {Item : Type u}

/-- The list without the items at its ends that satisfy a condition. -/
def trimMatches (trims : Item → Bool) (items : List Item) : List Item :=
  (items.dropWhile trims).rdropWhile trims

theorem trimMatches_between {trims : Item → Bool} {first last : Item} (trimsFirst : trims first)
    (trimsLast : trims last) (items : List Item) :
    trimMatches trims (first :: (items ++ [last])) = trimMatches trims items := by
  unfold trimMatches
  rw [List.dropWhile_cons_of_pos trimsFirst, List.dropWhile_append]
  split
  case isTrue nothing =>
    rw [List.isEmpty_iff] at nothing
    rw [nothing, List.dropWhile_cons_of_pos trimsLast, List.dropWhile_nil]
  case isFalse => rw [List.rdropWhile_concat_pos _ _ _ trimsLast]

theorem trimMatches_sublist (trims : Item → Bool) (items : List Item) :
    (trimMatches trims items).Sublist items :=
  (List.rdropWhile_prefix _ _).sublist.trans (List.dropWhile_sublist _)

theorem mem_dropWhile_iff {trims : Item → Bool} {item : Item} (kept : trims item = false)
    {items : List Item} : item ∈ items.dropWhile trims ↔ item ∈ items := by
  constructor
  · exact fun itemMem => (List.dropWhile_sublist _).subset itemMem
  · intro itemMem
    rw [← List.takeWhile_append_dropWhile (p := trims) (l := items), List.mem_append] at itemMem
    rcases itemMem with taken | dropped
    · have trimmed := List.mem_takeWhile_imp taken
      rw [kept] at trimmed
      cases trimmed
    · exact dropped

theorem mem_trimMatches_iff {trims : Item → Bool} {item : Item} (kept : trims item = false)
    {items : List Item} : item ∈ trimMatches trims items ↔ item ∈ items := by
  unfold trimMatches List.rdropWhile
  rw [List.mem_reverse, mem_dropWhile_iff kept, List.mem_reverse, mem_dropWhile_iff kept]

theorem intercalate_concat {separator last : List Item} {pieces : List (List Item)}
    (notEmpty : pieces ≠ []) :
    List.intercalate separator (pieces ++ [last]) =
      List.intercalate separator pieces ++ (separator ++ last) := by
  induction pieces with
  | nil => exact absurd rfl notEmpty
  | cons piece pieces ih =>
      by_cases alone : pieces = []
      · subst alone
        simp
      · rw [List.cons_append, List.intercalate_cons_of_ne_nil (by simp), ih alone,
          List.intercalate_cons_of_ne_nil alone]
        simp

section Pieces

variable [DecidableEq Item] {separator : Item}

/-- The pieces without the empty ones at the ends. -/
def trimPieces (pieces : List (List Item)) : List (List Item) :=
  trimMatches List.isEmpty pieces

theorem dropWhile_intercalate {pieces : List (List Item)}
    (apart : ∀ piece ∈ pieces, separator ∉ piece) :
    (List.intercalate [separator] pieces).dropWhile (· = separator) =
      List.intercalate [separator] (pieces.dropWhile List.isEmpty) := by
  induction pieces with
  | nil => rfl
  | cons piece pieces ih =>
      rw [List.forall_mem_cons] at apart
      cases piece with
      | nil =>
          rw [List.dropWhile_cons_of_pos rfl, ← ih apart.2]
          by_cases alone : pieces = []
          · subst alone
            rfl
          · rw [List.intercalate_cons_of_ne_nil alone, List.nil_append, List.singleton_append,
              List.dropWhile_cons_of_pos (by simp)]
      | cons item piece =>
          rw [List.dropWhile_cons_of_neg (by simp)]
          have notSeparator : item ≠ separator := by
            rintro rfl
            exact apart.1 List.mem_cons_self
          by_cases alone : pieces = []
          · subst alone
            simp [notSeparator]
          · rw [List.intercalate_cons_of_ne_nil alone, List.cons_append, List.cons_append,
              List.dropWhile_cons_of_neg (by simpa using notSeparator)]

theorem rdropWhile_intercalate {pieces : List (List Item)}
    (apart : ∀ piece ∈ pieces, separator ∉ piece) :
    (List.intercalate [separator] pieces).rdropWhile (· = separator) =
      List.intercalate [separator] (pieces.rdropWhile List.isEmpty) := by
  induction pieces using List.reverseRecOn with
  | nil => rfl
  | append_singleton pieces last ih =>
      have apartInit : ∀ piece ∈ pieces, separator ∉ piece := fun piece pieceMem =>
        apart piece (List.mem_append_left _ pieceMem)
      have apartLast : separator ∉ last := apart last (by simp)
      rcases List.eq_nil_or_concat last with rfl | ⟨init, item, rfl⟩
      · rw [List.rdropWhile_concat_pos _ _ _ rfl, ← ih apartInit]
        by_cases alone : pieces = []
        · subst alone
          rfl
        · rw [intercalate_concat alone, List.append_nil,
            List.rdropWhile_concat_pos _ _ _ (by simp)]
      · rw [List.concat_eq_append] at apartLast ⊢
        have notSeparator : ¬ decide (item = separator) = true := by
          rw [decide_eq_true_eq]
          rintro rfl
          exact apartLast (by simp)
        rw [List.rdropWhile_concat_neg List.isEmpty _ _ (by simp)]
        by_cases alone : pieces = []
        · subst alone
          rw [List.nil_append, List.intercalate_singleton]
          exact List.rdropWhile_concat_neg _ _ _ notSeparator
        · rw [intercalate_concat alone, ← List.append_assoc, ← List.append_assoc]
          exact List.rdropWhile_concat_neg _ _ _ notSeparator

theorem splitOn_trimMatches_intercalate {pieces : List (List Item)}
    (apart : ∀ piece ∈ pieces, separator ∉ piece) :
    (trimMatches (· = separator) (List.intercalate [separator] pieces)).splitOn separator =
      if trimPieces pieces = [] then [[]] else trimPieces pieces := by
  have apartBehind : ∀ piece ∈ pieces.dropWhile List.isEmpty, separator ∉ piece :=
    fun piece pieceMem => apart piece ((List.dropWhile_suffix _).subset pieceMem)
  have trimmed : trimMatches (· = separator) (List.intercalate [separator] pieces) =
      List.intercalate [separator] (trimPieces pieces) := by
    unfold trimMatches
    rw [dropWhile_intercalate apart, rdropWhile_intercalate apartBehind]
    rfl
  rw [trimmed]
  split
  case isTrue noneLeft =>
    rw [noneLeft]
    simp
  case isFalse someLeft =>
    apply List.splitOn_intercalate _ _ someLeft
    exact fun piece pieceMem => apartBehind piece ((List.rdropWhile_prefix _ _).subset pieceMem)

end Pieces

section Related

variable {Other : Type*} {Related : Item → Other → Prop} {trims : Item → Bool}
  {trimsOther : Other → Bool}

theorem forall₂_dropWhile {items : List Item} {others : List Other}
    (same : ∀ item other, Related item other → trims item = trimsOther other)
    (related : List.Forall₂ Related items others) :
    List.Forall₂ Related (items.dropWhile trims) (others.dropWhile trimsOther) := by
  induction related with
  | nil => exact .nil
  | @cons item other items others first rest ih =>
      rw [List.dropWhile_cons, List.dropWhile_cons, same item other first]
      split
      · exact ih
      · exact .cons first rest

theorem forall₂_trimMatches {items : List Item} {others : List Other}
    (same : ∀ item other, Related item other → trims item = trimsOther other)
    (related : List.Forall₂ Related items others) :
    List.Forall₂ Related (trimMatches trims items) (trimMatches trimsOther others) := by
  unfold trimMatches List.rdropWhile
  rw [List.forall₂_reverse_iff]
  apply forall₂_dropWhile same
  rw [List.forall₂_reverse_iff]
  exact forall₂_dropWhile same related

end Related

theorem trimMatches_map {Source : Type*} {trims : Item → Bool} {f : Source → Item}
    (sources : List Source) :
    trimMatches trims (sources.map f) = (trimMatches (trims ∘ f) sources).map f := by
  unfold trimMatches List.rdropWhile
  rw [List.dropWhile_map, ← List.map_reverse, List.dropWhile_map, ← List.map_reverse]

end Brunomnia.Library
