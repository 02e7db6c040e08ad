import Mathlib

/-!
# Stable sorting

Entries sorted by a key keep their order where keys are equal. The position of an
entry after sorting is therefore the number of entries that precede it, by a
smaller key or by an earlier position among equal keys.
-/

namespace Brunomnia.Library

universe u v

variable {Item : Type u} {Key : Type v} [DecidableEq Item] [LinearOrder Key] (key : Item → Key)

omit [DecidableEq Item] in
/-- Sort by a key, keeping the order of entries with equal keys. -/
def stableSort (items : List Item) : List Item :=
  items.insertionSort fun left right => key left ≤ key right

/-- An entry comes before another one after sorting. -/
def Precedes (items : List Item) (left right : Item) : Prop :=
  key left < key right ∨ key left = key right ∧ items.idxOf left < items.idxOf right

instance (items : List Item) (left right : Item) : Decidable (Precedes key items left right) :=
  inferInstanceAs (Decidable (_ ∨ _))

/-- The number of entries that come before an entry. -/
def rank (items : List Item) (item : Item) : ℕ :=
  (items.filter fun other => Precedes key items other item).length

omit [DecidableEq Item] in
theorem stableSort_perm (items : List Item) : (stableSort key items).Perm items :=
  List.perm_insertionSort _ _

omit [DecidableEq Item] in
theorem stableSort_sorted (items : List Item) :
    (stableSort key items).Pairwise fun left right => key left ≤ key right := by
  have total : Std.Total fun left right : Item => key left ≤ key right :=
    ⟨fun left right => le_total _ _⟩
  have transitive : IsTrans Item fun left right => key left ≤ key right :=
    ⟨fun _ _ _ => le_trans⟩
  exact List.pairwise_insertionSort _ _

variable {key}

/-- Inserting an entry shifts the entries it does not come after. -/
theorem idxOf_orderedInsert_of_ne {items : List Item} {inserted item : Item}
    (sorted : items.Pairwise fun left right => key left ≤ key right)
    (itemMem : item ∈ items) (different : item ≠ inserted) :
    (items.orderedInsert (fun left right => key left ≤ key right) inserted).idxOf item =
      items.idxOf item + if key inserted ≤ key item then 1 else 0 := by
  induction items with
  | nil => simp at itemMem
  | cons head tail ih =>
      rw [List.pairwise_cons] at sorted
      by_cases before : key inserted ≤ key head
      · have below : key inserted ≤ key item := by
          rcases List.mem_cons.mp itemMem with rfl | tailMem
          · exact before
          · exact before.trans (sorted.1 item tailMem)
        rw [List.orderedInsert_cons_of_le (fun left right : Item => key left ≤ key right) _ before,
          List.idxOf_cons_ne _ different.symm, if_pos below]
      · rw [List.orderedInsert_of_not_le (fun left right : Item => key left ≤ key right) _ before]
        by_cases isHead : head = item
        · subst head
          rw [List.idxOf_cons_self, List.idxOf_cons_self, if_neg before]
        · have tailMem : item ∈ tail := by
            rcases List.mem_cons.mp itemMem with rfl | tailMem
            · exact absurd rfl isHead
            · exact tailMem
          rw [List.idxOf_cons_ne _ isHead, List.idxOf_cons_ne _ isHead, ih sorted.2 tailMem]
          omega

/-- An inserted entry comes after the entries with smaller keys. -/
theorem idxOf_orderedInsert_self {items : List Item} {inserted : Item}
    (sorted : items.Pairwise fun left right => key left ≤ key right)
    (absent : inserted ∉ items) :
    (items.orderedInsert (fun left right => key left ≤ key right) inserted).idxOf inserted =
      (items.filter fun other => key other < key inserted).length := by
  induction items with
  | nil => simp
  | cons head tail ih =>
      rw [List.pairwise_cons] at sorted
      rw [List.mem_cons, not_or] at absent
      by_cases before : key inserted ≤ key head
      · have noneSmaller : (head :: tail).filter (fun other => key other < key inserted) = [] := by
          apply List.filter_eq_nil_iff.mpr
          intro other otherMem
          have above : key head ≤ key other := by
            rcases List.mem_cons.mp otherMem with rfl | tailMem
            · exact le_rfl
            · exact sorted.1 other tailMem
          simpa using before.trans above
        rw [List.orderedInsert_cons_of_le (fun left right : Item => key left ≤ key right) _ before,
          List.idxOf_cons_self, noneSmaller]
        rfl
      · have smaller : key head < key inserted := not_le.mp before
        rw [List.orderedInsert_of_not_le (fun left right : Item => key left ≤ key right) _ before,
          List.idxOf_cons_ne _ (Ne.symm absent.1), ih sorted.2 absent.2,
          List.filter_cons_of_pos (by simpa using smaller)]
        rfl

/-- The position of an entry after sorting is its rank. -/
theorem idxOf_stableSort {items : List Item} (nodup : items.Nodup) {item : Item}
    (itemMem : item ∈ items) : (stableSort key items).idxOf item = rank key items item := by
  induction items with
  | nil => simp at itemMem
  | cons head tail ih =>
      rw [List.nodup_cons] at nodup
      have sortedTail := stableSort_sorted key tail
      have permTail := stableSort_perm key tail
      change ((stableSort key tail).orderedInsert
        (fun left right => key left ≤ key right) head).idxOf item = _
      by_cases isHead : item = head
      · subst item
        rw [idxOf_orderedInsert_self sortedTail fun headMem =>
          nodup.1 (permTail.mem_iff.mp headMem)]
        have count : (tail.filter fun other => key other < key head).length =
            ((stableSort key tail).filter fun other => key other < key head).length :=
          (permTail.filter _).length_eq.symm
        rw [← count, rank]
        rw [List.filter_cons_of_neg (by simp [Precedes])]
        congr 1
        apply List.filter_congr
        intro other otherMem
        simp [Precedes]
      · have tailMem : item ∈ tail := by
          rcases List.mem_cons.mp itemMem with rfl | tailMem
          · exact absurd rfl isHead
          · exact tailMem
        rw [idxOf_orderedInsert_of_ne sortedTail (permTail.mem_iff.mpr tailMem) isHead,
          ih nodup.2 tailMem, rank, rank]
        have tailSame : tail.filter (fun other => Precedes key (head :: tail) other item) =
            tail.filter fun other => Precedes key tail other item := by
          apply List.filter_congr
          intro other otherMem
          have otherNe : head ≠ other := fun eq => nodup.1 (eq ▸ otherMem)
          apply decide_eq_decide.mpr
          simp only [Precedes, List.idxOf_cons_ne _ otherNe,
            List.idxOf_cons_ne _ (Ne.symm isHead), Nat.succ_lt_succ_iff]
        have headPrecedes : Precedes key (head :: tail) head item ↔ key head ≤ key item := by
          simp only [Precedes, List.idxOf_cons_self, List.idxOf_cons_ne _ (Ne.symm isHead),
            Nat.succ_pos, and_true]
          exact le_iff_lt_or_eq.symm
        by_cases below : key head ≤ key item
        · rw [if_pos below, List.filter_cons_of_pos (by simpa using headPrecedes.mpr below),
            tailSame, List.length_cons]
        · rw [if_neg below, List.filter_cons_of_neg (by simpa using below ∘ headPrecedes.mp),
            tailSame, Nat.add_zero]

theorem mem_take_stableSort_iff {items : List Item} (nodup : items.Nodup) {item : Item}
    (itemMem : item ∈ items) {count : ℕ} :
    item ∈ (stableSort key items).take count ↔ rank key items item < count := by
  rw [← idxOf_stableSort nodup itemMem]
  exact List.mem_take_iff_idxOf_lt ((stableSort_perm key items).mem_iff.mpr itemMem)

theorem Precedes.total {items : List Item} {left right : Item} (leftMem : left ∈ items)
    (different : left ≠ right) : Precedes key items left right ∨ Precedes key items right left := by
  rcases lt_trichotomy (key left) (key right) with lt | eq | gt
  · exact Or.inl (Or.inl lt)
  · have positions : items.idxOf left ≠ items.idxOf right := by
      intro same
      exact different ((List.idxOf_inj leftMem).mp same)
    rcases Nat.lt_or_gt_of_ne positions with before | after
    · exact Or.inl (Or.inr ⟨eq, before⟩)
    · exact Or.inr (Or.inr ⟨eq.symm, after⟩)
  · exact Or.inr (Or.inl gt)

theorem head?_stableSort_iff {items : List Item} (nodup : items.Nodup) {item : Item} :
    (stableSort key items).head? = some item ↔
      item ∈ items ∧ ∀ other ∈ items, ¬ Precedes key items other item := by
  have first_iff : item ∈ items → ((stableSort key items).head? = some item ↔
      rank key items item < 1) := by
    intro itemMem
    rw [← mem_take_stableSort_iff nodup itemMem]
    cases stableSort key items with
    | nil => simp
    | cons head tail => simp [eq_comm]
  have rank_iff : rank key items item < 1 ↔
      ∀ other ∈ items, ¬ Precedes key items other item := by
    rw [rank, Nat.lt_one_iff, List.length_eq_zero_iff, List.filter_eq_nil_iff]
    simp
  constructor
  · intro first
    have itemMem : item ∈ items := by
      apply (stableSort_perm key items).mem_iff.mp
      exact List.mem_of_head? first
    exact ⟨itemMem, rank_iff.mp ((first_iff itemMem).mp first)⟩
  · rintro ⟨itemMem, notPreceded⟩
    exact (first_iff itemMem).mpr (rank_iff.mpr notPreceded)

theorem rank_append_of_mem {items : List Item} {item added : Item} (itemMem : item ∈ items)
    (fresh : added ∉ items) :
    rank key (items ++ [added]) item =
      rank key items item + if key added < key item then 1 else 0 := by
  have positionLt : items.idxOf item < items.length := List.idxOf_lt_length_iff.mpr itemMem
  have itemPosition : (items ++ [added]).idxOf item = items.idxOf item :=
    List.idxOf_append_of_mem itemMem
  have before : items.filter (fun other => Precedes key (items ++ [added]) other item) =
      items.filter fun other => Precedes key items other item := by
    apply List.filter_congr
    intro other otherMem
    apply decide_eq_decide.mpr
    simp only [Precedes, itemPosition, List.idxOf_append_of_mem otherMem]
  have addedPosition : items.length ≤ (items ++ [added]).idxOf added := by
    rw [List.idxOf_append_of_notMem fresh]
    omega
  have addedPrecedes : Precedes key (items ++ [added]) added item ↔ key added < key item := by
    simp only [Precedes, itemPosition, or_iff_left_iff_imp]
    rintro ⟨_, positionBelow⟩
    omega
  simp only [rank, List.filter_append, before, List.length_append]
  by_cases smaller : key added < key item
  · simp [addedPrecedes, smaller]
  · simp [addedPrecedes, smaller]

theorem rank_append_self {items : List Item} {added : Item} (fresh : added ∉ items) :
    rank key (items ++ [added]) added =
      (items.filter fun other => key other ≤ key added).length := by
  have before : items.filter (fun other => Precedes key (items ++ [added]) other added) =
      items.filter fun other => key other ≤ key added := by
    apply List.filter_congr
    intro other otherMem
    apply decide_eq_decide.mpr
    have positions : (items ++ [added]).idxOf other < (items ++ [added]).idxOf added := by
      rw [List.idxOf_append_of_mem otherMem, List.idxOf_append_of_notMem fresh]
      have position := List.idxOf_lt_length_iff.mpr otherMem
      omega
    rw [Precedes, le_iff_lt_or_eq]
    simp only [positions, and_true]
  rw [rank, List.filter_append, before]
  simp [Precedes]

end Brunomnia.Library
