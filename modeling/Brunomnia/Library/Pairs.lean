import Mathlib

/-!
# Pairs of neighbours

Two given entries that stand next to each other in a list: where they are missing, and the part
of a list in front of their first occurrence.
-/

namespace Brunomnia.Library

universe u

variable {Item : Type u} (first second : Item)

/-- Nowhere is the second entry right behind the first one. -/
def PairFree (items : List Item) : Prop :=
  items.IsChain fun left right => ¬ (left = first ∧ right = second)

instance [DecidableEq Item] (items : List Item) : Decidable (PairFree first second items) :=
  inferInstanceAs (Decidable (items.IsChain _))

@[simp] theorem pairFree_nil : PairFree first second [] := List.isChain_nil

@[simp] theorem pairFree_singleton (item : Item) : PairFree first second [item] :=
  List.isChain_singleton item

variable {first second}

theorem pairFree_append {front behind : List Item} :
    PairFree first second (front ++ behind) ↔ PairFree first second front ∧
      PairFree first second behind ∧
        ¬ (front.getLast? = some first ∧ behind.head? = some second) := by
  unfold PairFree
  rw [List.isChain_append]
  constructor
  · rintro ⟨frontFree, behindFree, seam⟩
    refine ⟨frontFree, behindFree, ?_⟩
    rintro ⟨last, head⟩
    exact seam first last second head ⟨rfl, rfl⟩
  · rintro ⟨frontFree, behindFree, seam⟩
    refine ⟨frontFree, behindFree, ?_⟩
    rintro left last right head ⟨rfl, rfl⟩
    exact seam ⟨last, head⟩

theorem pairFree_cons {item : Item} {items : List Item} :
    PairFree first second (item :: items) ↔
      PairFree first second items ∧ ¬ (item = first ∧ items.head? = some second) := by
  rw [← List.singleton_append, pairFree_append]
  simp

theorem pairFree_cons_of_ne {item : Item} {items : List Item} (notFirst : item ≠ first) :
    PairFree first second (item :: items) ↔ PairFree first second items := by
  rw [pairFree_cons]
  simp [notFirst]

theorem pairFree_of_notMem {items : List Item} (notMem : first ∉ items) :
    PairFree first second items := by
  induction items with
  | nil => exact pairFree_nil first second
  | cons item items ih =>
      rw [List.mem_cons, not_or] at notMem
      exact (pairFree_cons_of_ne (Ne.symm notMem.1)).mpr (ih notMem.2)

theorem PairFree.drop {items : List Item} (free : PairFree first second items) (count : ℕ) :
    PairFree first second (items.drop count) :=
  List.IsChain.drop free count

theorem pairFree_append_cons {item : Item} {front behind : List Item} (notFirst : item ≠ first)
    (notSecond : item ≠ second) :
    PairFree first second (front ++ item :: behind) ↔
      PairFree first second front ∧ PairFree first second behind := by
  rw [pairFree_append, pairFree_cons_of_ne notFirst]
  simp [notSecond]

variable [DecidableEq Item] (first second)

/-- The entries in front of the first pair. -/
def untilPair : List Item → Option (List Item)
  | left :: right :: rest =>
      if left = first ∧ right = second then some []
      else (untilPair (right :: rest)).map (left :: ·)
  | _ => none

variable {first second}

theorem untilPair_cons (left : Item) (items : List Item) :
    untilPair first second (left :: items) =
      if left = first ∧ items.head? = some second then some []
      else (untilPair first second items).map (left :: ·) := by
  cases items with
  | nil => simp [untilPair]
  | cons right rest => simp [untilPair]

theorem append_of_untilPair {items found : List Item}
    (isFound : untilPair first second items = some found) :
    ∃ behind, items = found ++ first :: second :: behind := by
  induction items generalizing found with
  | nil => simp [untilPair] at isFound
  | cons left items ih =>
      rw [untilPair_cons] at isFound
      split at isFound
      case isTrue isPair =>
        cases isFound
        rcases List.head?_eq_some_iff.mp isPair.2 with ⟨behind, eq⟩
        exact ⟨behind, by rw [isPair.1, eq, List.nil_append]⟩
      case isFalse =>
        rcases Option.map_eq_some_iff.mp isFound with ⟨others, isOthers, rfl⟩
        rcases ih isOthers with ⟨behind, eq⟩
        exact ⟨behind, by rw [eq, List.cons_append]⟩

theorem untilPair_append {front : List Item} (free : PairFree first second front)
    (different : first ≠ second) (behind : List Item) :
    untilPair first second (front ++ first :: second :: behind) = some front := by
  induction front with
  | nil => simp [untilPair]
  | cons left front ih =>
      rw [pairFree_cons] at free
      rw [List.cons_append, untilPair_cons, ih free.1, if_neg]
      · rfl
      · rintro ⟨isFirst, isSecond⟩
        cases front with
        | nil => exact different (Option.some.inj isSecond)
        | cons right front => exact free.2 ⟨isFirst, isSecond⟩

theorem untilPair_append_of_not {front : List Item} (notFree : ¬ PairFree first second front)
    (behind : List Item) :
    ∃ found, untilPair first second (front ++ behind) = some found ∧
      found.length + 2 ≤ front.length := by
  induction front with
  | nil => exact absurd (pairFree_nil first second) notFree
  | cons left front ih =>
      rw [List.cons_append, untilPair_cons]
      by_cases isPair : left = first ∧ front.head? = some second
      · cases front with
        | nil => simp at isPair
        | cons right front =>
            have head : (right :: front ++ behind).head? = some second := isPair.2
            exact ⟨[], if_pos ⟨isPair.1, head⟩, by simp⟩
      · rw [pairFree_cons, and_comm, not_and] at notFree
        rcases ih (notFree isPair) with ⟨found, eq, short⟩
        have notHead : ¬ (left = first ∧ (front ++ behind).head? = some second) := by
          cases front with
          | nil => simp at short
          | cons right front => exact isPair
        refine ⟨left :: found, ?_, ?_⟩
        · rw [if_neg notHead, eq]
          rfl
        · rw [List.length_cons, List.length_cons]
          omega

end Brunomnia.Library
