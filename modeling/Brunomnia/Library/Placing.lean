import Mathlib

/-!
# Placing an item in a list

An item is placed beside an anchor, or after all items of a kind. A list that shows only some
items of another list, each as an entry of its own, shows the placed item where it would be
placed among the entries.
-/

namespace Brunomnia.Library

universe u v

variable {Item : Type u} {Entry : Type v}

/-- Insert an item before or behind the first anchor. -/
def insertAtAnchor (isAnchor : Item → Bool) (behind : Bool) (item : Item) (items : List Item) :
    List Item :=
  items.insertIdx (items.findIdx isAnchor + if behind then 1 else 0) item

theorem insertIdx_length_append (before after : List Item) (item : Item) :
    (before ++ after).insertIdx before.length item = before ++ item :: after := by
  induction before with
  | nil => simp
  | cons head before ih => simp [ih]

theorem insertAtAnchor_split {isAnchor : Item → Bool} {before after : List Item} {anchor : Item}
    (isFirst : ∀ other ∈ before, isAnchor other = false) (found : isAnchor anchor = true)
    (behind : Bool) (item : Item) :
    insertAtAnchor isAnchor behind item (before ++ anchor :: after) =
      if behind then before ++ anchor :: item :: after else before ++ item :: anchor :: after := by
  have index : (before ++ anchor :: after).findIdx isAnchor = before.length := by
    rw [List.findIdx_append, List.findIdx_eq_length.mpr isFirst]
    simp [List.findIdx_cons, found]
  unfold insertAtAnchor
  rw [index]
  cases behind with
  | false => simp [insertIdx_length_append]
  | true =>
      have behindAnchor := insertIdx_length_append (before ++ [anchor]) after item
      simpa using behindAnchor

theorem exists_first_anchor {isAnchor : Item → Bool} {items : List Item}
    (present : ∃ item ∈ items, isAnchor item = true) :
    ∃ before anchor after, items = before ++ anchor :: after ∧
      (∀ other ∈ before, isAnchor other = false) ∧ isAnchor anchor = true := by
  induction items with
  | nil => simp at present
  | cons head items ih =>
      by_cases atHead : isAnchor head = true
      · exact ⟨[], head, items, rfl, by simp, atHead⟩
      · rcases present with ⟨item, mem, found⟩
        rcases List.mem_cons.mp mem with rfl | mem
        · exact absurd found atHead
        · rcases ih ⟨item, mem, found⟩ with ⟨before, anchor, after, rfl, isFirst, isAnchor⟩
          refine ⟨head :: before, anchor, after, rfl, ?_, isAnchor⟩
          intro other otherMem
          rcases List.mem_cons.mp otherMem with rfl | otherMem
          · simpa using atHead
          · exact isFirst other otherMem

section Shown

variable {shown : Item → Option Entry}

theorem filterMap_insertIdx_of_none {item : Item} (hidden : shown item = none)
    (items : List Item) (index : ℕ) :
    (items.insertIdx index item).filterMap shown = items.filterMap shown := by
  induction items generalizing index with
  | nil => cases index <;> simp [hidden]
  | cons head items ih =>
      cases index with
      | zero => simp [hidden]
      | succ index => simp [List.filterMap_cons, ih]

theorem filterMap_insertIdx_length {item : Item} {entry : Entry} (isShown : shown item = some entry)
    (before after : List Item) :
    ((before ++ after).insertIdx before.length item).filterMap shown =
      before.filterMap shown ++ entry :: after.filterMap shown := by
  rw [insertIdx_length_append, List.filterMap_append, List.filterMap_cons_some isShown]

theorem filterMap_insertAtAnchor {isAnchor : Item → Bool} {isAnchorEntry : Entry → Bool}
    (agree : ∀ item entry, shown item = some entry → isAnchorEntry entry = isAnchor item)
    {items : List Item} (present : ∃ item ∈ items, isAnchor item = true)
    (anchorsShown : ∀ item ∈ items, isAnchor item = true → (shown item).isSome)
    (behind : Bool) {item : Item} {entry : Entry} (isShown : shown item = some entry) :
    (insertAtAnchor isAnchor behind item items).filterMap shown =
      insertAtAnchor isAnchorEntry behind entry (items.filterMap shown) := by
  rcases exists_first_anchor present with ⟨before, anchor, after, rfl, isFirst, found⟩
  have anchorShown := anchorsShown anchor (by simp) found
  rcases Option.isSome_iff_exists.mp anchorShown with ⟨anchorEntry, anchorEq⟩
  have entriesBefore : ∀ other ∈ before.filterMap shown, isAnchorEntry other = false := by
    intro other otherMem
    rcases List.mem_filterMap.mp otherMem with ⟨source, sourceMem, sourceEq⟩
    rw [agree source other sourceEq]
    exact isFirst source sourceMem
  rw [insertAtAnchor_split isFirst found, List.filterMap_append,
    List.filterMap_cons_some anchorEq,
    insertAtAnchor_split entriesBefore ((agree anchor anchorEntry anchorEq).trans found)]
  cases behind <;> simp [List.filterMap_append, anchorEq, isShown]

theorem filterMap_filter_of_shown {keep : Item → Bool} {items : List Item}
    (kept : ∀ item ∈ items, (shown item).isSome → keep item = true) :
    (items.filter keep).filterMap shown = items.filterMap shown := by
  induction items with
  | nil => rfl
  | cons head items ih =>
      rw [List.forall_mem_cons] at kept
      by_cases isKept : keep head = true
      · rw [List.filter_cons_of_pos isKept, List.filterMap_cons, List.filterMap_cons, ih kept.2]
      · have hidden : shown head = none := by
          by_contra isShown
          exact isKept (kept.1 (Option.isSome_iff_ne_none.mpr isShown))
        rw [List.filter_cons_of_neg isKept, List.filterMap_cons_none hidden, ih kept.2]

theorem filterMap_eq_nil_of_hidden {items : List Item}
    (hidden : ∀ item ∈ items, ¬ (shown item).isSome) : items.filterMap shown = [] := by
  rw [List.filterMap_eq_nil_iff]
  intro item mem
  simpa using hidden item mem

/-- An item that is taken out of a list and inserted again is shown at its old place exactly if
what is shown before it is the same. -/
theorem filterMap_reinsert_iff [DecidableEq Item] {items : List Item} (nodup : items.Nodup)
    {item : Item} (mem : item ∈ items) {entry : Entry} (isShown : shown item = some entry)
    (unique : ∀ other, shown other = some entry → other = item) {index : ℕ}
    (inRange : index ≤ (items.filter fun other => decide (other ≠ item)).length) :
    ((items.filter fun other => decide (other ≠ item)).insertIdx index item).filterMap shown =
        items.filterMap shown ↔
      ((items.filter fun other => decide (other ≠ item)).take index).filterMap shown =
        (items.take (items.idxOf item)).filterMap shown := by
  rcases List.append_of_mem mem with ⟨before, after, rfl⟩
  have notBefore : item ∉ before := fun isBefore =>
    (List.nodup_append.mp nodup).2.2 item isBefore item List.mem_cons_self rfl
  have notAfter : item ∉ after := (List.nodup_cons.mp (List.nodup_append.mp nodup).2.1).1
  have others : (before ++ item :: after).filter (fun other => decide (other ≠ item)) =
      before ++ after := by
    rw [List.filter_append, List.filter_cons_of_neg (by simp), List.filter_eq_self.mpr,
      List.filter_eq_self.mpr]
    · intro other otherMem
      exact decide_eq_true fun same => notAfter (same ▸ otherMem)
    · intro other otherMem
      exact decide_eq_true fun same => notBefore (same ▸ otherMem)
  have atItem : (before ++ item :: after).idxOf item = before.length := by
    rw [List.idxOf_append_of_notMem notBefore]
    simp
  rw [others] at inRange ⊢
  rw [atItem, List.take_left]
  have notShown : ∀ list : List Item, item ∉ list → entry ∉ list.filterMap shown := by
    intro list notMem isMem
    rcases List.mem_filterMap.mp isMem with ⟨other, otherMem, isEntry⟩
    rw [unique other isEntry] at otherMem
    exact notMem otherMem
  have notOther : item ∉ before ++ after := by simp [notBefore, notAfter]
  have inserted := filterMap_insertIdx_length isShown ((before ++ after).take index)
    ((before ++ after).drop index)
  rw [List.take_append_drop, List.length_take_of_le inRange] at inserted
  rw [inserted, List.filterMap_append, List.filterMap_cons_some isShown,
    List.append_cons_inj_of_notMem
      (notShown _ fun isMem => notOther (List.mem_of_mem_take isMem))
      (notShown _ fun isMem => notOther (List.mem_of_mem_drop isMem))]
  constructor
  · exact And.left
  · intro same
    refine ⟨same, rfl, ?_⟩
    have whole : ((before ++ after).take index).filterMap shown ++
        ((before ++ after).drop index).filterMap shown =
          before.filterMap shown ++ after.filterMap shown := by
      rw [← List.filterMap_append, List.take_append_drop, List.filterMap_append]
    rw [same] at whole
    exact List.append_cancel_left whole

end Shown

end Brunomnia.Library
