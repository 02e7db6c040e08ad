import Brunomnia.Governance.Members

/-!
# Enforced resources

Every resource that there is stays in its place, and changes only if the member may edit it. Of
resources with distinct ids each one becomes the proposed one with its id, and the proposed ones
with other ids are left over.
-/

namespace Brunomnia.Governance

open Library

variable {Item : Type} {ident : Item → String} {mayEdit : String → Bool}

/-- The entry of a key in a map of items by their ids. -/
def KeyedBy (ident : Item → String) (entries : List (String × Item)) : Prop :=
  ∀ entry ∈ entries, entry.1 = ident entry.2

theorem KeyedBy.orderedMap (proposed : List Item) :
    KeyedBy ident (orderedMap (proposed.map fun item => (ident item, item))) := by
  intro entry entryMem
  have found := mem_of_lastValue (lastValue_of_mem_orderedMap entryMem)
  rcases List.mem_map.mp found with ⟨item, _, same⟩
  simp only [Prod.ext_iff] at same
  rw [← same.1, ← same.2]

theorem KeyedBy.deleteEntry {entries : List (String × Item)} (keyed : KeyedBy ident entries)
    (key : String) : KeyedBy ident (deleteEntry entries key) :=
  fun entry entryMem => keyed entry (List.mem_of_mem_filter entryMem)

theorem lastValue_deleteEntry (entries : List (String × Item)) {key other : String}
    (different : other ≠ key) :
    lastValue (deleteEntry entries key) other = lastValue entries other := by
  induction entries with
  | nil => rfl
  | cons entry entries ih =>
      by_cases removed : entry.1 = key
      · have notOther : entry.1 ≠ other := by
          rintro rfl
          exact different removed
        have skip : deleteEntry (entry :: entries) key = deleteEntry entries key := by
          simp [deleteEntry, removed]
        rw [skip, ih, lastValue_cons, if_neg notOther, Option.or_none]
      · have keep : deleteEntry (entry :: entries) key = entry :: deleteEntry entries key := by
          simp [deleteEntry, removed]
        rw [keep, lastValue_cons, lastValue_cons, ih]

/-! ## What the loop keeps -/

/-- Resources stay in their places, and change only if the member may edit them. -/
def KeptInPlace (ident : Item → String) (mayEdit : String → Bool) (current after : List Item) :
    Prop :=
  List.Forall₂ (fun item kept => ident kept = ident item ∧
    (mayEdit (ident item) = false → kept = item)) current after

theorem enforceResources_keptInPlace (current : List Item) {proposed : List (String × Item)}
    (keyed : KeyedBy ident proposed) :
    KeptInPlace ident mayEdit current (enforceResources ident mayEdit current proposed).1 := by
  induction current generalizing proposed with
  | nil => exact .nil
  | cons item items ih =>
      simp only [enforceResources]
      refine .cons ?_ (ih (keyed.deleteEntry (ident item)))
      split
      case isFalse => exact ⟨rfl, fun _ => rfl⟩
      case isTrue editable =>
        cases found : lastValue proposed (ident item) with
        | none => exact ⟨rfl, fun _ => rfl⟩
        | some candidate =>
            constructor
            · exact (keyed _ (mem_of_lastValue found)).symm
            · simp [editable]

theorem enforcedResources_keptInPlace (role : GovernanceRole) (current proposed : List Item) :
    ∃ kept added, enforcedResources ident mayEdit role current proposed = kept ++ added ∧
      KeptInPlace ident mayEdit current kept ∧ (role ≠ .editor → added = []) := by
  have keyed : KeyedBy ident (Library.orderedMap (proposed.map fun item => (ident item, item))) :=
    KeyedBy.orderedMap proposed
  have kept : KeptInPlace ident mayEdit current (enforceResources ident mayEdit current
      (Library.orderedMap (proposed.map fun item => (ident item, item)))).1 :=
    enforceResources_keptInPlace current keyed
  simp only [enforcedResources]
  split
  case isTrue isEditor => exact ⟨_, _, rfl, kept, fun notEditor => absurd isEditor notEditor⟩
  case isFalse => exact ⟨_, [], (List.append_nil _).symm, kept, fun _ => rfl⟩

theorem KeptInPlace.eq_of_noneEditable {current after : List Item}
    (kept : KeptInPlace ident mayEdit current after)
    (noneEditable : ∀ item ∈ current, mayEdit (ident item) = false) : after = current := by
  induction kept with
  | nil => rfl
  | @cons item changed items rest head _ ih =>
      rw [List.forall_mem_cons] at noneEditable
      rw [head.2 noneEditable.1, ih noneEditable.2]

/-! ## Resources with distinct ids -/

/-- What becomes of a resource. -/
def proposedItem (ident : Item → String) (mayEdit : String → Bool)
    (proposed : List (String × Item)) (item : Item) : Item :=
  if mayEdit (ident item) then (lastValue proposed (ident item)).getD item else item

theorem enforceResources_fst {current : List Item} (nodup : (current.map ident).Nodup)
    (proposed : List (String × Item)) :
    (enforceResources ident mayEdit current proposed).1 =
      current.map (proposedItem ident mayEdit proposed) := by
  induction current generalizing proposed with
  | nil => rfl
  | cons item items ih =>
      rw [List.map_cons, List.nodup_cons] at nodup
      simp only [enforceResources, List.map_cons]
      congr 1
      rw [ih nodup.2]
      apply List.map_congr_left
      intro other otherMem
      have different : ident other ≠ ident item := by
        intro same
        exact nodup.1 (same ▸ List.mem_map_of_mem otherMem)
      simp only [proposedItem, lastValue_deleteEntry _ different]

theorem enforceResources_snd (current : List Item) (proposed : List (String × Item)) :
    (enforceResources ident mayEdit current proposed).2 =
      proposed.filter fun entry => decide (entry.1 ∉ current.map ident) := by
  induction current generalizing proposed with
  | nil => simp [enforceResources]
  | cons item items ih =>
      simp only [enforceResources]
      rw [ih, deleteEntry, List.filter_filter]
      apply List.filter_congr
      intro entry _
      by_cases same : entry.1 = ident item <;> simp [same]

/-- When only resources that there are were proposed, none are added. -/
theorem enforcedResources_of_subset {current proposed : List Item} {role : GovernanceRole}
    (nodup : (current.map ident).Nodup)
    (subset : ∀ item ∈ proposed, ident item ∈ current.map ident) :
    enforcedResources ident mayEdit role current proposed =
      current.map (proposedItem ident mayEdit (proposed.map fun item => (ident item, item))) := by
  have noneLeft : (enforceResources ident mayEdit current
      (orderedMap (proposed.map fun item => (ident item, item)))).2 = [] := by
    rw [enforceResources_snd, List.filter_eq_nil_iff]
    intro entry entryMem
    have found := mem_of_lastValue (lastValue_of_mem_orderedMap entryMem)
    rcases List.mem_map.mp found with ⟨item, itemMem, same⟩
    have keyEq : ident item = entry.1 := congrArg Prod.fst same
    simpa [keyEq] using subset item itemMem
  have kept : (enforceResources ident mayEdit current
      (orderedMap (proposed.map fun item => (ident item, item)))).1 =
        current.map (proposedItem ident mayEdit (proposed.map fun item => (ident item, item))) := by
    rw [enforceResources_fst nodup]
    apply List.map_congr_left
    intro item _
    simp only [proposedItem, lastValue_orderedMap]
  simp only [enforcedResources, kept, noneLeft, List.map_nil, List.append_nil, ite_self]

end Brunomnia.Governance
