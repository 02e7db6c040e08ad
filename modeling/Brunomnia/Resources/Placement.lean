import Brunomnia.Resources.Children
import Brunomnia.Resources.FolderMoves

/-!
# Where a move places a resource

A move is meant to place a resource beside a sibling, or last, and to leave the children of all
other parents alone. It does so within a collection. A resource that comes from another
collection can meet something there already: a request a folder with its id, and a folder
resources whose link has been waiting for the id of one of its folders.
-/

namespace Brunomnia.Resources

open Brunomnia.Library

/-! ## Inserting into the flat order -/

/-- Place a resource beside a sibling, or last if none is named. -/
def placeBeside (siblings : List CollectionResourceRef) (moved : CollectionResourceRef)
    (targetResourceId : Option String) (placement : Option Placement) :
    List CollectionResourceRef :=
  if truthy targetResourceId then
    insertAtAnchor (fun sibling => sibling.id = targetResourceId.getD "")
      (placement.getD .after = .after) moved siblings
  else siblings ++ [moved]

theorem lastSiblingIndex_append (output siblingIds : List String) (id : String) :
    lastSiblingIndex (output ++ [id]) siblingIds =
      if id ∈ siblingIds then some output.length else lastSiblingIndex output siblingIds := by
  unfold lastSiblingIndex
  rw [List.zipIdx_append, List.reverse_append]
  by_cases isSibling : id ∈ siblingIds
  · simp [isSibling]
  · simp [isSibling]

theorem lastSiblingIndex_split (output siblingIds : List String) :
    (lastSiblingIndex output siblingIds = none ∧ ∀ id ∈ output, id ∉ siblingIds) ∨
      ∃ before sibling after, lastSiblingIndex output siblingIds = some before.length ∧
        output = before ++ sibling :: after ∧ ∀ id ∈ after, id ∉ siblingIds := by
  induction output using List.reverseRecOn with
  | nil => exact Or.inl ⟨rfl, by simp⟩
  | append_singleton output id ih =>
      rw [lastSiblingIndex_append]
      by_cases isSibling : id ∈ siblingIds
      · rw [if_pos isSibling]
        exact Or.inr ⟨output, id, [], rfl, rfl, by simp⟩
      · rw [if_neg isSibling]
        rcases ih with ⟨noIndex, noSibling⟩ | ⟨before, sibling, after, index, rfl, noneBehind⟩
        · refine Or.inl ⟨noIndex, ?_⟩
          intro other mem
          rcases List.mem_append.mp mem with mem | mem
          · exact noSibling other mem
          · rw [List.mem_singleton.mp mem]
            exact isSibling
        · refine Or.inr ⟨before, sibling, after ++ [id], index, by simp, ?_⟩
          intro other mem
          rcases List.mem_append.mp mem with mem | mem
          · exact noneBehind other mem
          · rw [List.mem_singleton.mp mem]
            exact isSibling

/-- The index at which a resource goes into the order of the other ones. -/
def insertionIndex (output siblingIds : List String) (targetResourceId : Option String)
    (placement : Option Placement) : ℕ :=
  if truthy targetResourceId ∧ targetResourceId.getD "" ∈ siblingIds ∧
      targetResourceId.getD "" ∈ output then
    output.idxOf (targetResourceId.getD "") + if placement.getD .after = .after then 1 else 0
  else
    match lastSiblingIndex output siblingIds with
    | some index => index + 1
    | none => output.length

theorem insertResource_eq (order : List String) (resourceId : String) (siblingIds : List String)
    (targetResourceId : Option String) (placement : Option Placement) :
    insertResource order resourceId siblingIds targetResourceId placement =
      (order.filter fun id => id ≠ resourceId).insertIdx
        (insertionIndex (order.filter fun id => id ≠ resourceId) siblingIds targetResourceId
          placement) resourceId := by
  unfold insertResource insertionIndex
  cases targetResourceId with
  | none =>
      simp only [truthy, Bool.false_eq_true, false_and, if_false]
      cases lastSiblingIndex (order.filter fun id => id ≠ resourceId) siblingIds <;> rfl
  | some target =>
      simp only [truthy, Option.getD_some, decide_eq_true_eq]
      split
      · rfl
      · cases lastSiblingIndex (order.filter fun id => id ≠ resourceId) siblingIds <;> rfl

theorem insertionIndex_le (output siblingIds : List String) (targetResourceId : Option String)
    (placement : Option Placement) :
    insertionIndex output siblingIds targetResourceId placement ≤ output.length := by
  unfold insertionIndex
  split
  case isTrue found =>
    have below := List.idxOf_lt_length_iff.mpr found.2.2
    split <;> omega
  case isFalse =>
    rcases lastSiblingIndex_split output siblingIds with
      ⟨noIndex, _⟩ | ⟨before, sibling, after, index, outputEq, _⟩
    · rw [noIndex]
    · rw [index]
      simp [outputEq]

theorem insertResource_perm (order : List String) (resourceId : String)
    (siblingIds : List String) (targetResourceId : Option String) (placement : Option Placement) :
    (insertResource order resourceId siblingIds targetResourceId placement).Perm
      (resourceId :: order.filter fun id => id ≠ resourceId) := by
  rw [insertResource_eq]
  exact List.perm_insertIdx _ _ (insertionIndex_le _ _ _ _)

theorem mem_insertResource {order : List String} {resourceId : String} {siblingIds : List String}
    {targetResourceId : Option String} {placement : Option Placement} {id : String} :
    id ∈ insertResource order resourceId siblingIds targetResourceId placement ↔
      id = resourceId ∨ id ∈ order := by
  rw [(insertResource_perm _ _ _ _ _).mem_iff, List.mem_cons, List.mem_filter, decide_eq_true_eq]
  tauto

theorem nodup_insertResource {order : List String} (nodup : order.Nodup) (resourceId : String)
    (siblingIds : List String) (targetResourceId : Option String) (placement : Option Placement) :
    (insertResource order resourceId siblingIds targetResourceId placement).Nodup := by
  rw [(insertResource_perm _ _ _ _ _).nodup_iff, List.nodup_cons]
  exact ⟨by simp, nodup.filter _⟩

section Shown

variable {shown : String → Option CollectionResourceRef} {order siblingIds : List String}
  {resourceId : String} {targetResourceId : Option String} {placement : Option Placement}

/-- Among children that the resource is none of, nothing changes. -/
theorem filterMap_insertResource_of_none (hidden : shown resourceId = none) :
    (insertResource order resourceId siblingIds targetResourceId placement).filterMap shown =
      (order.filter fun id => id ≠ resourceId).filterMap shown := by
  rw [insertResource_eq]
  exact filterMap_insertIdx_of_none hidden _ _

/-- Among its siblings, the resource stands where it has been asked for. -/
theorem filterMap_insertResource_of_some {moved : CollectionResourceRef}
    (sameId : ∀ id ref, shown id = some ref → ref.id = id)
    (siblings : ∀ id ∈ order, id ≠ resourceId → (id ∈ siblingIds ↔ (shown id).isSome))
    (targetIsSibling : truthy targetResourceId → targetResourceId.getD "" ∈ siblingIds ∧
      targetResourceId.getD "" ∈ order ∧ targetResourceId.getD "" ≠ resourceId)
    (isShown : shown resourceId = some moved) :
    (insertResource order resourceId siblingIds targetResourceId placement).filterMap shown =
      placeBeside ((order.filter fun id => id ≠ resourceId).filterMap shown) moved
        targetResourceId placement := by
  rw [insertResource_eq]
  generalize outputEq : (order.filter fun id => decide (id ≠ resourceId)) = output
  have memOutput : ∀ id, id ∈ output ↔ id ∈ order ∧ id ≠ resourceId := by
    intro id
    simp [← outputEq]
  have outputSiblings : ∀ id ∈ output, id ∈ siblingIds ↔ (shown id).isSome := by
    intro id mem
    exact siblings id ((memOutput id).mp mem).1 ((memOutput id).mp mem).2
  unfold placeBeside insertionIndex
  by_cases given : truthy targetResourceId = true
  · rcases targetIsSibling given with ⟨isSibling, listed, different⟩
    have inOutput := (memOutput _).mpr ⟨listed, different⟩
    have atAnchor := @filterMap_insertAtAnchor _ _ shown
      (fun id => decide (id = targetResourceId.getD ""))
      (fun sibling => decide (sibling.id = targetResourceId.getD ""))
      (fun id ref isRef => by rw [sameId id ref isRef]) output
      ⟨_, inOutput, by simp⟩
      (fun id mem isTarget => by
        rw [of_decide_eq_true isTarget]
        exact (outputSiblings _ inOutput).mp isSibling)
      (decide (placement.getD .after = .after)) resourceId moved isShown
    have index : output.findIdx (fun id => decide (id = targetResourceId.getD "")) =
        output.idxOf (targetResourceId.getD "") := rfl
    rw [if_pos ⟨given, isSibling, inOutput⟩, if_pos given, ← atAnchor, insertAtAnchor, index]
    simp only [decide_eq_true_eq]
  · rw [if_neg (fun all => given all.1), if_neg given]
    rcases lastSiblingIndex_split output siblingIds with
      ⟨noIndex, noSibling⟩ | ⟨before, sibling, after, index, rfl, noneBehind⟩
    · have noneShown : output.filterMap shown = [] := by
        rw [List.filterMap_eq_nil_iff]
        intro id mem
        have notShown := noSibling id mem
        rw [outputSiblings id mem] at notShown
        simpa using notShown
      rw [noIndex]
      simp [List.insertIdx_length_self, noneShown, isShown]
    · have noneShown : after.filterMap shown = [] := by
        rw [List.filterMap_eq_nil_iff]
        intro id mem
        have notShown := noneBehind id mem
        rw [outputSiblings id (by simp [mem])] at notShown
        simpa using notShown
      have behind := filterMap_insertIdx_length isShown (before ++ [sibling]) after
      rw [List.length_append, List.length_singleton, List.append_assoc, List.singleton_append,
        noneShown] at behind
      have whole : (before ++ sibling :: after).filterMap shown =
          (before ++ [sibling]).filterMap shown := by
        rw [← List.singleton_append, ← List.append_assoc, List.filterMap_append, noneShown,
          List.append_nil]
      rw [index, whole]
      exact behind

end Shown

/-! ## What is promised -/

/-- One folder is in another one, or at the top level. -/
abbrev Collection.InParent (collection : Collection) : String → String → Prop :=
  Linked RequestFolder.id (fun folder => some folder.parentId) collection.folderList

/-- Ids of a collection name one resource each, folder parents run in no cycle, and the empty
id, which stands for the top level, names no folder. -/
structure Collection.Consistent (collection : Collection) : Prop where
  nodup : collection.resourceIds.Nodup
  acyclic : Acyclic collection.InParent
  named : "" ∉ collection.folderIds

def Workspace.Consistent (workspace : Workspace) : Prop :=
  ∀ collection ∈ workspace.collections, collection.Consistent

def ResourceMove.moved (move : ResourceMove) : CollectionResourceRef :=
  ⟨move.kind, move.resourceId⟩

/-- The top level and the folders are what resources can be in. -/
def Collection.IsParent (collection : Collection) (parentId : String) : Prop :=
  parentId = "" ∨ parentId ∈ collection.folderIds

def ResourceMove.TakesAlong (move : ResourceMove) (source : Collection) (parentId : String) :
    Prop :=
  move.kind = .folder ∧ Relation.ReflTransGen source.InParent parentId move.resourceId

/-- The children of every parent after a move from one collection to another one, or within a
collection. -/
structure ChildrenPlaced (before : Workspace) (move : ResourceMove) (after : Workspace)
    (sourceIndex targetIndex : ℕ) (source target : Collection) : Prop where
  placed : ∀ updated, after.collections[targetIndex]? = some updated →
    orderedCollectionChildren updated move.targetParentId =
      placeBeside ((orderedCollectionChildren target move.targetParentId).filter
        fun child => child ≠ move.moved) move.moved move.targetResourceId move.placement
  removed : ∀ updated, after.collections[sourceIndex]? = some updated →
    ∀ parentId, updated.IsParent parentId →
      ¬ (sourceIndex = targetIndex ∧ parentId = move.targetParentId) →
        orderedCollectionChildren updated parentId =
          (orderedCollectionChildren source parentId).filter fun child => child ≠ move.moved
  takenAlong : sourceIndex ≠ targetIndex → ∀ updated,
    after.collections[targetIndex]? = some updated → ∀ parentId,
      move.TakesAlong source parentId →
        orderedCollectionChildren updated parentId = orderedCollectionChildren source parentId
  untouched : sourceIndex ≠ targetIndex → ∀ updated,
    after.collections[targetIndex]? = some updated → ∀ parentId, updated.IsParent parentId →
      parentId ≠ move.targetParentId → ¬ move.TakesAlong source parentId →
        orderedCollectionChildren updated parentId = orderedCollectionChildren target parentId
  elsewhere : ∀ index, index ≠ sourceIndex → index ≠ targetIndex →
    after.collections[index]? = before.collections[index]?

/-- The place at which a request goes into the flat order of its target is behind as many
children of another parent as the resource that has its id already. -/
def KeepsPlace (move : ResourceMove) (target : Collection) (parentId : String) : Prop :=
  let order := collectionResourceOrder target
  let output := order.filter fun id => id ≠ move.resourceId
  let index := insertionIndex output
    (siblingIds target move.targetParentId [move.resourceId]) move.targetResourceId move.placement
  (output.take index).filterMap (target.child parentId) =
    (order.take (order.idxOf move.resourceId)).filterMap (target.child parentId)

/-- A move from another collection meets nothing that has its id already: a request no folder,
unless that folder keeps its place among its own siblings, and a folder no resource that is
linked to it or to a folder that it takes along. -/
def MeetsNothing (move : ResourceMove) (source target : Collection) : Prop :=
  match move.kind with
  | .request =>
      ∀ folder ∈ target.folderList, folder.id = move.resourceId →
        folder.parentId ≠ move.targetParentId ∧
          (target.IsParent folder.parentId → KeepsPlace move target folder.parentId)
  | .folder =>
      ∀ parentId, move.TakesAlong source parentId →
        (∀ folder ∈ target.folderList, folder.parentId ≠ parentId) ∧
          ∀ request ∈ target.requests, request.folderId.getD "" ≠ parentId

/-! ## Collections that have been sorted -/

theorem orderedCollectionChildren_sort {collection : Collection} {order : List String}
    (foldersNodup : collection.folderIds.Nodup) (requestsNodup : collection.requestIds.Nodup)
    (nodup : order.Nodup) (complete : ∀ id, id ∈ order ↔ id ∈ collection.resourceIds)
    (parentId : String) :
    orderedCollectionChildren (sortCollectionResources collection order) parentId =
      order.filterMap (collection.child parentId) := by
  rw [orderedCollectionChildren_eq, collectionResourceOrder_sort nodup complete]
  apply List.filterMap_congr
  intro id _
  apply childRef_congr
  · exact folderParent_perm foldersNodup (sortCollectionResources_folderList collection order) id
  · exact requestParent_perm requestsNodup (sortCollectionResources_requests collection order) id

theorem filterMap_filter_ne {shown : String → Option CollectionResourceRef}
    {moved : CollectionResourceRef} (sameId : ∀ id ref, shown id = some ref → ref.id = id)
    (onlyMoved : ∀ ref, shown moved.id = some ref → ref = moved) (order : List String) :
    (order.filter fun id => id ≠ moved.id).filterMap shown =
      (order.filterMap shown).filter fun child => child ≠ moved := by
  rw [List.filter_filterMap, List.filterMap_filter]
  apply List.filterMap_congr
  intro id _
  by_cases isMoved : id = moved.id
  · subst isMoved
    cases isShown : shown moved.id with
    | none => simp
    | some ref => simp [onlyMoved ref isShown, Option.filter]
  · cases isShown : shown id with
    | none => simp [isMoved]
    | some ref =>
        have different : ref ≠ moved := by
          rintro rfl
          exact isMoved (sameId id ref isShown).symm
        simp [isMoved, different, Option.filter]

theorem Collection.child_id {collection : Collection} {parentId id : String}
    {ref : CollectionResourceRef} (isChild : collection.child parentId id = some ref) :
    ref.id = id :=
  childRef_id isChild

theorem mem_siblingIds {collection : Collection} {parentId : String} {movingIds : List String}
    {id : String} (listed : id ∈ collectionResourceOrder collection) :
    id ∈ siblingIds collection parentId movingIds ↔
      (collection.child parentId id).isSome ∧ id ∉ movingIds := by
  unfold siblingIds
  rw [orderedCollectionChildren_eq, List.mem_filter, decide_eq_true_eq, and_congr_left_iff]
  intro _
  rw [List.map_filterMap, List.mem_filterMap]
  constructor
  · rintro ⟨other, _, isChild⟩
    rcases Option.map_eq_some_iff.mp isChild with ⟨ref, refEq, rfl⟩
    rw [Collection.child_id refEq, refEq]
    rfl
  · intro isChild
    rcases Option.isSome_iff_exists.mp isChild with ⟨ref, refEq⟩
    exact ⟨id, listed, by rw [refEq, Option.map_some, Collection.child_id refEq]⟩

theorem mem_resourceIds_of_child {collection : Collection} {parentId id : String}
    (isChild : (collection.child parentId id).isSome) : id ∈ collection.resourceIds := by
  by_contra missing
  simp only [Collection.resourceIds, List.mem_append, not_or] at missing
  have noFolder := folderParent_eq_none_iff.mpr missing.1
  have noRequest := requestParent_eq_none_iff.mpr missing.2
  simp [Collection.child, childRef, noFolder, noRequest] at isChild

theorem mem_order_of_mem_siblingIds {collection : Collection} {parentId : String}
    {movingIds : List String} {id : String}
    (isSibling : id ∈ siblingIds collection parentId movingIds) :
    id ∈ collectionResourceOrder collection := by
  unfold siblingIds at isSibling
  rcases List.mem_map.mp (List.mem_filter.mp isSibling).1 with ⟨ref, refMem, rfl⟩
  rw [orderedCollectionChildren_eq] at refMem
  rcases List.mem_filterMap.mp refMem with ⟨id, listed, isChild⟩
  rw [Collection.child_id isChild]
  exact listed

/-- One resource gets a link of its own, whether it has been in the collection or not. -/
structure Relinked (collection updated : Collection) (moved : CollectionResourceRef)
    (parentId : String) : Prop where
  others : ∀ other, ∀ id ∈ collection.resourceIds, id ≠ moved.id →
    updated.child other id = collection.child other id
  linked : ∀ other, updated.child other moved.id = if other = parentId then some moved else none
  onlyMoved : ∀ other ref, collection.child other moved.id = some ref → ref = moved

section Relinked

variable {collection updated : Collection} {moved : CollectionResourceRef} {parentId : String}
  (relinked : Relinked collection updated moved parentId) {siblingIds : List String}
  {targetResourceId : Option String} {placement : Option Placement}
include relinked

theorem Relinked.filterMap_others (other : String) :
    ((collectionResourceOrder collection).filter fun id => id ≠ moved.id).filterMap
        (updated.child other) =
      (orderedCollectionChildren collection other).filter fun child => child ≠ moved := by
  rw [orderedCollectionChildren_eq,
    ← filterMap_filter_ne (fun id ref => Collection.child_id) (relinked.onlyMoved other)]
  apply List.filterMap_congr
  intro id mem
  rcases List.mem_filter.mp mem with ⟨listed, different⟩
  exact relinked.others other id (mem_collectionResourceOrder.mp listed) (by simpa using different)

/-- The children of another parent are what they were, without the resource. -/
theorem Relinked.filterMap_insertResource_of_ne {other : String} (different : other ≠ parentId) :
    (insertResource (collectionResourceOrder collection) moved.id siblingIds targetResourceId
        placement).filterMap (updated.child other) =
      (orderedCollectionChildren collection other).filter fun child => child ≠ moved := by
  rw [← relinked.filterMap_others, filterMap_insertResource_of_none]
  rw [relinked.linked, if_neg different]

/-- In its new parent, the resource stands where it has been asked for. -/
theorem Relinked.filterMap_insertResource_self
    (siblings : ∀ id ∈ collectionResourceOrder collection, id ≠ moved.id →
      (id ∈ siblingIds ↔ (collection.child parentId id).isSome))
    (targetIsSibling : truthy targetResourceId → targetResourceId.getD "" ∈ siblingIds ∧
      targetResourceId.getD "" ∈ collectionResourceOrder collection ∧
      targetResourceId.getD "" ≠ moved.id) :
    (insertResource (collectionResourceOrder collection) moved.id siblingIds targetResourceId
        placement).filterMap (updated.child parentId) =
      placeBeside ((orderedCollectionChildren collection parentId).filter
        fun child => child ≠ moved) moved targetResourceId placement := by
  rw [← relinked.filterMap_others]
  apply filterMap_insertResource_of_some (fun id ref => Collection.child_id) _ targetIsSibling
  · rw [relinked.linked, if_pos rfl]
  · intro id listed different
    rw [siblings id listed different,
      relinked.others parentId id (mem_collectionResourceOrder.mp listed) different]

end Relinked

end Brunomnia.Resources
