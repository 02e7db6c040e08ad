import Brunomnia.Resources.PlacementMoves

/-!
# The children after a folder has come from another collection

A folder brings its subtree, whose flat order follows the one of the target. What is below the
folder keeps its children, unless a resource of the target is linked there already.
-/

namespace Brunomnia.Resources

open Brunomnia.Library

/-! ## The links of the collections -/


section FolderAcross

variable {source target : Collection} {folder : RequestFolder} {parentId : String}

theorem folderParent_transferred {id : String} (notRoot : id ≠ folder.id) :
    folderParent (transferredFolders source folder parentId) id =
      if id ∈ folderSubtree source folder.id then folderParent source.folderList id else none := by
  unfold transferredFolders
  rw [folderParent_map_of_ne (placeFolder_id folder.id parentId)]
  · refine (folderParent_filter (fun id => decide (id ∈ folderSubtree source folder.id))
      source.folderList id).trans ?_
    simp
  · intro candidate isCandidate
    unfold placeFolder
    rw [if_neg (by rw [isCandidate]; exact notRoot)]

theorem folderParent_transferred_root (listed : folder ∈ source.folderList) :
    folderParent (transferredFolders source folder parentId) folder.id = some parentId := by
  apply folderParent_map_of_mem (placeFolder_id folder.id parentId)
  · apply List.mem_map_of_mem (f := RequestFolder.id)
    exact List.mem_filter.mpr ⟨listed, decide_eq_true (root_mem_folderSubtree source folder.id)⟩
  · intro candidate isRoot
    unfold placeFolder
    rw [if_pos isRoot]

theorem requestParent_transferred (id : String) :
    requestParent (transferredRequests source folder) id =
      if id ∈ movingRequestIds source folder then requestParent source.requests id
      else none := by
  refine (requestParent_filter (fun id => decide (id ∈ movingRequestIds source folder))
    source.requests id).trans ?_
  simp

theorem folderParent_folderAdded (target : Collection) (id : String) :
    folderParent (folderAdded source target folder parentId).folderList id =
      (folderParent (transferredFolders source folder parentId) id).or
        (folderParent target.folderList id) := by
  refine (folderParent_append _ _ id).trans ?_
  rw [folderParent_expand]

theorem requestParent_folderAdded (target : Collection) (id : String) :
    requestParent (folderAdded source target folder parentId).requests id =
      (requestParent (transferredRequests source folder) id).or
        (requestParent target.requests id) :=
  requestParent_append _ _ id

theorem folderIds_transferred (source : Collection) (folder : RequestFolder) (parentId : String) :
    (transferredFolders source folder parentId).map RequestFolder.id =
      source.folderIds.filter fun id => decide (id ∈ folderSubtree source folder.id) := by
  unfold transferredFolders Collection.folderIds
  rw [List.map_map, List.filter_map]
  apply List.map_congr_left
  intro candidate _
  exact placeFolder_id _ _ _

theorem requestIds_transferred (source : Collection) (folder : RequestFolder) :
    (transferredRequests source folder).map ApiRequest.id =
      source.requestIds.filter fun id => decide (id ∈ movingRequestIds source folder) := by
  unfold transferredRequests Collection.requestIds
  rw [List.filter_map]
  rfl

theorem folderIds_folderAdded (source target : Collection) (folder : RequestFolder)
    (parentId : String) :
    (folderAdded source target folder parentId).folderIds = target.folderIds ++
      source.folderIds.filter fun id => decide (id ∈ folderSubtree source folder.id) := by
  rw [← folderIds_transferred source folder parentId]
  unfold Collection.folderIds folderAdded Collection.folderList
  simp only [Option.getD_some, List.map_append]
  congr 1
  exact folderIds_expand _ _

theorem requestIds_folderAdded (source target : Collection) (folder : RequestFolder)
    (parentId : String) :
    (folderAdded source target folder parentId).requestIds = target.requestIds ++
      source.requestIds.filter fun id => decide (id ∈ movingRequestIds source folder) := by
  rw [← requestIds_transferred source folder]
  unfold Collection.requestIds folderAdded
  simp only [List.map_append]

theorem mem_requestIds_of_moves {id : String} (moves : id ∈ movingRequestIds source folder) :
    id ∈ source.requestIds := by
  rcases List.mem_map.mp moves with ⟨request, mem, rfl⟩
  exact List.mem_map_of_mem (List.mem_filter.mp mem).1

variable (sourceOk : source.Consistent) (targetOk : target.Consistent)
  (listed : folder ∈ source.folderList)
  (absent : ∀ id ∈ movingIds source folder, id ∉ target.resourceIds)

include absent in
theorem child_folderAdded_target (other : String) {id : String}
    (inTarget : id ∈ target.resourceIds) :
    (folderAdded source target folder parentId).child other id = target.child other id := by
  have stays : id ∉ movingIds source folder := fun moves => absent id moves inTarget
  have notInside : id ∉ folderSubtree source folder.id := fun inside =>
    stays (List.mem_append_left _ inside)
  have notMoving : id ∉ movingRequestIds source folder := fun moves =>
    stays (List.mem_append_right _ moves)
  have notRoot : id ≠ folder.id := by
    rintro rfl
    exact notInside (root_mem_folderSubtree source folder.id)
  apply childRef_congr
  · rw [folderParent_folderAdded, folderParent_transferred notRoot, if_neg notInside,
      Option.none_or]
  · rw [requestParent_folderAdded, requestParent_transferred, if_neg notMoving, Option.none_or]

include sourceOk listed absent in
theorem child_folderAdded_root (other : String) :
    (folderAdded source target folder parentId).child other folder.id =
      if other = parentId then some ⟨.folder, folder.id⟩ else none := by
  have notMoving : folder.id ∉ movingRequestIds source folder := fun moves =>
    sourceOk.disjoint (List.mem_map_of_mem listed) (mem_requestIds_of_moves moves)
  have notInTarget := absent folder.id (root_mem_movingIds folder)
  have noRequest : requestParent target.requests folder.id = none :=
    requestParent_eq_none_iff.mpr fun isRequest =>
      notInTarget (List.mem_append_right _ isRequest)
  unfold Collection.child childRef
  rw [folderParent_folderAdded, folderParent_transferred_root listed, requestParent_folderAdded,
    requestParent_transferred, if_neg notMoving, noRequest]
  simp [eq_comm]

include sourceOk listed absent in
theorem child_folderAdded_moving (other : String) {id : String}
    (moves : id ∈ movingIds source folder) (notRoot : id ≠ folder.id) :
    (folderAdded source target folder parentId).child other id = source.child other id := by
  have notInTarget := absent id moves
  unfold Collection.resourceIds at notInTarget
  rw [List.mem_append, not_or] at notInTarget
  have noFolder := folderParent_eq_none_iff.mpr notInTarget.1
  have noRequest := requestParent_eq_none_iff.mpr notInTarget.2
  apply childRef_congr
  · rw [folderParent_folderAdded, folderParent_transferred notRoot, noFolder, Option.or_none]
    split
    · rfl
    case isFalse outside =>
      have isRequest := mem_requestIds_of_moves ((List.mem_append.mp moves).resolve_left outside)
      exact (folderParent_eq_none_iff.mpr fun isFolder =>
        sourceOk.disjoint isFolder isRequest).symm
  · rw [requestParent_folderAdded, requestParent_transferred, noRequest, Option.or_none]
    split
    · rfl
    case isFalse stays =>
      have inside := (List.mem_append.mp moves).resolve_right stays
      have isFolder := mem_folderIds_of_mem_folderSubtree listed inside
      exact (requestParent_eq_none_iff.mpr (sourceOk.disjoint isFolder)).symm

/-! ## The children of the source -/

include sourceOk listed in
theorem folderTaken_children (outside : parentId ∉ folderSubtree source folder.id) :
    orderedCollectionChildren (sortCollectionResources (folderTaken source folder)
        ((collectionResourceOrder source).filter fun id =>
          decide (id ∉ movingIds source folder))) parentId =
      (orderedCollectionChildren source parentId).filter fun child =>
        child ≠ ⟨.folder, folder.id⟩ := by
  have takenFolders : (folderTaken source folder).folderIds =
      source.folderIds.filter fun id => decide (id ∉ folderSubtree source folder.id) := by
    unfold Collection.folderIds folderTaken
    rw [List.filter_map]
    rfl
  have takenRequests : (folderTaken source folder).requestIds =
      source.requestIds.filter fun id => decide (id ∉ movingRequestIds source folder) := by
    unfold Collection.requestIds folderTaken
    rw [List.filter_map]
    rfl
  have complete : ∀ id, id ∈ (collectionResourceOrder source).filter
      (fun id => decide (id ∉ movingIds source folder)) ↔
        id ∈ (folderTaken source folder).resourceIds := by
    intro id
    unfold Collection.resourceIds movingIds
    rw [List.mem_filter, mem_collectionResourceOrder, Collection.resourceIds, takenFolders,
      takenRequests, decide_eq_true_eq]
    simp only [List.mem_append, List.mem_filter, decide_eq_true_eq, not_or]
    constructor
    · rintro ⟨isFolder | isRequest, outside, stays⟩
      · exact Or.inl ⟨isFolder, outside⟩
      · exact Or.inr ⟨isRequest, stays⟩
    · rintro (⟨isFolder, outside⟩ | ⟨isRequest, stays⟩)
      · refine ⟨Or.inl isFolder, outside, fun moves => ?_⟩
        exact sourceOk.disjoint isFolder (mem_requestIds_of_moves moves)
      · refine ⟨Or.inr isRequest, fun inside => ?_, stays⟩
        exact sourceOk.disjoint (mem_folderIds_of_mem_folderSubtree listed inside) isRequest
  have foldersNodup : (folderTaken source folder).folderIds.Nodup := by
    rw [takenFolders]
    exact sourceOk.folderIds_nodup.filter _
  have requestsNodup : (folderTaken source folder).requestIds.Nodup := by
    rw [takenRequests]
    exact sourceOk.requestIds_nodup.filter _
  have sameChildren : ((collectionResourceOrder source).filter fun id =>
      decide (id ∉ movingIds source folder)).filterMap
        ((folderTaken source folder).child parentId) =
      ((collectionResourceOrder source).filter fun id =>
        decide (id ∉ movingIds source folder)).filterMap (source.child parentId) := by
    apply List.filterMap_congr
    intro id mem
    have stays : id ∉ movingIds source folder := by simpa using (List.mem_filter.mp mem).2
    unfold movingIds at stays
    rw [List.mem_append, not_or] at stays
    apply childRef_congr
    · refine (folderParent_filter (fun id => decide (id ∉ folderSubtree source folder.id))
        source.folderList id).trans ?_
      simp [stays.1]
    · refine (requestParent_filter (fun id => decide (id ∉ movingRequestIds source folder))
        source.requests id).trans ?_
      simp [stays.2]
  rw [orderedCollectionChildren_sort foldersNodup requestsNodup
    ((nodup_collectionResourceOrder source).filter _) complete, sameChildren,
    orderedCollectionChildren_eq,
    ← @filterMap_filter_ne (source.child parentId) ⟨.folder, folder.id⟩
      (fun id ref => Collection.child_id)
      ((@folderWithin_relinked source folder parentId sourceOk listed).onlyMoved parentId)]
  -- of what moves along, the children of a parent that stays show the root only
  have onlyRoot : ((collectionResourceOrder source).filter fun id =>
      decide (id ∉ movingIds source folder)) =
        ((collectionResourceOrder source).filter fun id => decide (id ≠ folder.id)).filter
          fun id => decide (id ∉ movingIds source folder) := by
    rw [List.filter_filter]
    apply List.filter_congr
    intro id _
    by_cases isRoot : id = folder.id
    · simp [isRoot, root_mem_movingIds]
    · simp [isRoot]
  rw [onlyRoot]
  apply filterMap_filter_of_shown
  intro id mem isChild
  apply decide_eq_true
  intro moves
  have notRoot : id ≠ folder.id := by simpa using (List.mem_filter.mp mem).2
  exact notRoot (eq_of_child_of_notMem sourceOk listed outside isChild moves)

/-! ## The children of the target -/

/-- The flat order of what comes along, without the folder. -/
def transferredOrder (source : Collection) (folder : RequestFolder) : List String :=
  (collectionResourceOrder source).filter fun id =>
    decide (id ∈ movingIds source folder ∧ id ≠ folder.id)

include absent in
theorem collectionResourceOrder_folderAdded :
    ((collectionResourceOrder (folderAdded source target folder parentId)).filter fun id =>
      decide (id ∉ movingIds source folder)) = collectionResourceOrder target := by
  have staying : ∀ (ids moving : List String), (∀ id ∈ moving, id ∈ movingIds source folder) →
      (ids ++ moving).filter (fun id => decide (id ∉ movingIds source folder)) =
        ids.filter fun id => decide (id ∉ movingIds source folder) := by
    intro ids moving moves
    have noneStays : moving.filter (fun id => decide (id ∉ movingIds source folder)) = [] := by
      rw [List.filter_eq_nil_iff]
      intro id mem
      simpa using moves id mem
    rw [List.filter_append, noneStays, List.append_nil]
  rw [@collectionResourceOrder_filter target (folderAdded source target folder parentId)
    (fun id => decide (id ∉ movingIds source folder)) rfl]
  · rw [List.filter_eq_self]
    intro id inOrder
    apply decide_eq_true
    exact fun moves => absent id moves (mem_collectionResourceOrder.mp inOrder)
  · rw [folderIds_folderAdded, staying]
    intro id mem
    exact List.mem_append_left _ (by simpa using (List.mem_filter.mp mem).2)
  · rw [requestIds_folderAdded, staying]
    intro id mem
    exact List.mem_append_right _ (by simpa using (List.mem_filter.mp mem).2)

include sourceOk listed absent in
theorem folderAdded_relinked :
    Relinked target (folderAdded source target folder parentId) ⟨.folder, folder.id⟩ parentId where
  others := fun other id inTarget _ => child_folderAdded_target absent other inTarget
  linked := fun other => child_folderAdded_root sourceOk listed absent other
  onlyMoved := by
    intro other ref isChild
    have present := mem_resourceIds_of_child (by rw [isChild]; rfl)
    exact absurd present (absent folder.id (root_mem_movingIds folder))

include listed in
theorem mem_resourceIds_of_moves {id : String} (moves : id ∈ movingIds source folder) :
    id ∈ source.resourceIds := by
  rcases List.mem_append.mp moves with inside | moves
  · exact List.mem_append_left _ (mem_folderIds_of_mem_folderSubtree listed inside)
  · exact List.mem_append_right _ (mem_requestIds_of_moves moves)

theorem mem_transferredOrder {id : String} :
    id ∈ transferredOrder source folder ↔
      id ∈ source.resourceIds ∧ id ∈ movingIds source folder ∧ id ≠ folder.id := by
  rw [transferredOrder, List.mem_filter, decide_eq_true_eq, mem_collectionResourceOrder]

/-- The flat order in which the target takes the folder in. -/
def folderAddedOrder (source target : Collection) (folder : RequestFolder) (parentId : String)
    (targetResourceId : Option String) (placement : Option Placement) : List String :=
  insertResource (collectionResourceOrder target) folder.id
    (siblingIds target parentId (movingIds source folder)) targetResourceId placement ++
      transferredOrder source folder

section Order

variable {targetResourceId : Option String} {placement : Option Placement}

include absent in
theorem folderAddedOrder_nodup :
    (folderAddedOrder source target folder parentId targetResourceId placement).Nodup := by
  apply List.Nodup.append
  · exact nodup_insertResource (nodup_collectionResourceOrder target) _ _ _ _
  · exact (nodup_collectionResourceOrder source).filter _
  · intro id isFirst isTransferred
    rcases mem_transferredOrder.mp isTransferred with ⟨_, moves, notRoot⟩
    rcases mem_insertResource.mp isFirst with isRoot | inOrder
    · exact notRoot isRoot
    · exact absent id moves (mem_collectionResourceOrder.mp inOrder)

include listed in
theorem mem_folderAddedOrder {id : String} :
    id ∈ folderAddedOrder source target folder parentId targetResourceId placement ↔
      id ∈ (folderAdded source target folder parentId).resourceIds := by
  have whole : id ∈ (folderAdded source target folder parentId).resourceIds ↔
      id ∈ target.resourceIds ∨ id ∈ movingIds source folder := by
    unfold Collection.resourceIds movingIds
    rw [folderIds_folderAdded, requestIds_folderAdded]
    simp only [List.mem_append, List.mem_filter, decide_eq_true_eq]
    have inside := @mem_folderIds_of_mem_folderSubtree source folder listed id
    have moves := @mem_requestIds_of_moves source folder id
    tauto
  rw [whole, folderAddedOrder, List.mem_append, mem_insertResource, mem_collectionResourceOrder,
    mem_transferredOrder]
  have moves := @mem_resourceIds_of_moves source folder listed id
  have root := @root_mem_movingIds source folder
  by_cases isRoot : id = folder.id
  · simp [isRoot, root]
  · tauto

include sourceOk targetOk listed absent in
theorem folderAdded_children_eq (other : String) :
    orderedCollectionChildren (sortCollectionResources
        (folderAdded source target folder parentId)
        (folderAddedOrder source target folder parentId targetResourceId placement)) other =
      (insertResource (collectionResourceOrder target) folder.id
          (siblingIds target parentId (movingIds source folder)) targetResourceId
          placement).filterMap ((folderAdded source target folder parentId).child other) ++
        (transferredOrder source folder).filterMap (source.child other) := by
  have foldersNodup : (folderAdded source target folder parentId).folderIds.Nodup := by
    rw [folderIds_folderAdded]
    apply List.Nodup.append targetOk.folderIds_nodup (sourceOk.folderIds_nodup.filter _)
    intro id isTarget moves
    have inside : id ∈ folderSubtree source folder.id := by
      simpa using (List.mem_filter.mp moves).2
    exact absent id (List.mem_append_left _ inside) (List.mem_append_left _ isTarget)
  have requestsNodup : (folderAdded source target folder parentId).requestIds.Nodup := by
    rw [requestIds_folderAdded]
    apply List.Nodup.append targetOk.requestIds_nodup (sourceOk.requestIds_nodup.filter _)
    intro id isTarget mem
    have moves : id ∈ movingRequestIds source folder := by
      simpa using (List.mem_filter.mp mem).2
    exact absent id (List.mem_append_right _ moves) (List.mem_append_right _ isTarget)
  rw [orderedCollectionChildren_sort foldersNodup requestsNodup (folderAddedOrder_nodup absent)
    (fun id => mem_folderAddedOrder listed), folderAddedOrder, List.filterMap_append]
  congr 1
  apply List.filterMap_congr
  intro id mem
  rcases mem_transferredOrder.mp mem with ⟨_, moves, notRoot⟩
  exact child_folderAdded_moving sourceOk listed absent other moves notRoot

theorem transferred_eq_nil (sourceOk : source.Consistent) (listed : folder ∈ source.folderList)
    {other : String} (outside : other ∉ folderSubtree source folder.id) :
    (transferredOrder source folder).filterMap (source.child other) = [] := by
  apply filterMap_eq_nil_of_hidden
  intro id mem isChild
  rcases mem_transferredOrder.mp mem with ⟨_, moves, notRoot⟩
  exact notRoot (eq_of_child_of_notMem sourceOk listed outside isChild moves)

theorem transferred_eq_children (sourceOk : source.Consistent)
    (listed : folder ∈ source.folderList) {other : String}
    (inside : other ∈ folderSubtree source folder.id) :
    (transferredOrder source folder).filterMap (source.child other) =
      orderedCollectionChildren source other := by
  rw [orderedCollectionChildren_eq]
  apply filterMap_filter_of_shown
  intro id _ isChild
  exact decide_eq_true (mem_movingIds_of_child sourceOk listed inside isChild)

end Order

end FolderAcross

/-! ## Moves from another collection -/

section Moves

variable {before : Workspace} {move : ResourceMove} {sourceIndex targetIndex : ℕ}
  {source target : Collection} {folder : RequestFolder}

/-- No resource of a collection has a link to a parent. -/
theorem orderedCollectionChildren_eq_nil_iff (targetOk : target.Consistent) {parentId : String} :
    orderedCollectionChildren target parentId = [] ↔
      (∀ folder ∈ target.folderList, folder.parentId ≠ parentId) ∧
        ∀ request ∈ target.requests, request.folderId.getD "" ≠ parentId := by
  rw [orderedCollectionChildren_eq, List.filterMap_eq_nil_iff]
  constructor
  · intro noChild
    constructor
    · intro folder mem isParent
      have hidden := noChild folder.id (mem_collectionResourceOrder.mpr
        (List.mem_append_left _ (List.mem_map_of_mem mem)))
      apply (childRef_eq_none_iff.mp hidden).1
      exact (folderParent_eq_some_iff targetOk.folderIds_nodup).mpr ⟨folder, mem, rfl, isParent⟩
    · intro request mem isParent
      have hidden := noChild request.id (mem_collectionResourceOrder.mpr
        (List.mem_append_right _ (List.mem_map_of_mem mem)))
      apply (childRef_eq_none_iff.mp hidden).2
      exact (requestParent_eq_some_iff targetOk.requestIds_nodup).mpr ⟨request, mem, rfl, isParent⟩
  · rintro ⟨noFolder, noRequest⟩ id _
    rw [Collection.child, childRef_eq_none_iff]
    constructor
    · intro isFolder
      rcases (folderParent_eq_some_iff targetOk.folderIds_nodup).mp isFolder with
        ⟨folder, mem, _, isParent⟩
      exact noFolder folder mem isParent
    · intro isRequest
      rcases (requestParent_eq_some_iff targetOk.requestIds_nodup).mp isRequest with
        ⟨request, mem, _, isParent⟩
      exact noRequest request mem isParent

theorem takesAlong_iff (isFolder : move.kind = .folder)
    (accepted : FolderAccepted move sourceIndex targetIndex source target folder)
    (parentId : String) :
    move.TakesAlong source parentId ↔ parentId ∈ folderSubtree source folder.id := by
  rw [ResourceMove.TakesAlong, mem_folderSubtree_iff, accepted.folder_id]
  simp [isFolder]

theorem moveFolder_childrenPlaced_across_iff (sourceOk : source.Consistent)
    (targetOk : target.Consistent)
    (endpoints : Endpoints before move sourceIndex targetIndex source target)
    (different : sourceIndex ≠ targetIndex) (isFolder : move.kind = .folder)
    (accepted : FolderAccepted move sourceIndex targetIndex source target folder)
    (placed : truthy move.targetResourceId → move.targetResourceId.getD "" ∈
      siblingIds target move.targetParentId (movingIds source folder)) :
    ChildrenPlaced before move
        { before with
          collections := (before.collections.set sourceIndex
            (sortCollectionResources (folderTaken source folder)
              ((collectionResourceOrder source).filter fun id =>
                decide (id ∉ movingIds source folder)))).set
            targetIndex
              (sortCollectionResources (folderAdded source target folder move.targetParentId)
                (insertResource ((collectionResourceOrder
                    (folderAdded source target folder move.targetParentId)).filter fun id =>
                      decide (id ∉ movingIds source folder))
                  folder.id (siblingIds target move.targetParentId (movingIds source folder))
                  move.targetResourceId move.placement ++
                (collectionResourceOrder source).filter fun id =>
                  decide (id ∈ movingIds source folder ∧ id ≠ folder.id))) }
        sourceIndex targetIndex source target ↔
      MeetsNothing move source target := by
  have listed := accepted.folder_mem
  have absent : ∀ id ∈ movingIds source folder, id ∉ target.resourceIds :=
    accepted.absent different
  have rootAbsent : (⟨.folder, folder.id⟩ : CollectionResourceRef).id ∉ target.resourceIds :=
    absent folder.id (root_mem_movingIds folder)
  have targetOutside : move.targetParentId ∉ folderSubtree source folder.id := by
    intro inside
    rcases endpoints.parentOk with isTop | isFolder
    · exact ne_empty_of_mem_folderSubtree sourceOk listed inside isTop
    · exact absent _ (List.mem_append_left _ inside) (List.mem_append_left _ isFolder)
  have relinked : Relinked target (folderAdded source target folder move.targetParentId)
      ⟨.folder, folder.id⟩ move.targetParentId := folderAdded_relinked sourceOk listed absent
  have isTarget : orderedCollectionChildren (sortCollectionResources
      (folderAdded source target folder move.targetParentId) (folderAddedOrder source target folder
        move.targetParentId move.targetResourceId move.placement)) move.targetParentId =
      placeBeside ((orderedCollectionChildren target move.targetParentId).filter
        fun child => child ≠ ⟨.folder, folder.id⟩) ⟨.folder, folder.id⟩ move.targetResourceId
          move.placement := by
    rw [folderAdded_children_eq sourceOk targetOk listed absent,
      transferred_eq_nil sourceOk listed targetOutside, List.append_nil]
    apply relinked.filterMap_insertResource_self
    · intro id inOrder _
      rw [mem_siblingIds inOrder, and_iff_left_iff_imp]
      exact fun _ moves => absent id moves (mem_collectionResourceOrder.mp inOrder)
    · exact fun given => folder_targetIsSibling (placed given)
  have isOther : ∀ other, other ≠ move.targetParentId →
      orderedCollectionChildren (sortCollectionResources
        (folderAdded source target folder move.targetParentId) (folderAddedOrder source target
          folder move.targetParentId move.targetResourceId move.placement)) other =
        orderedCollectionChildren target other ++
          (transferredOrder source folder).filterMap (source.child other) := by
    intro other notTarget
    rw [folderAdded_children_eq sourceOk targetOk listed absent,
      relinked.filterMap_insertResource_of_ne notTarget, filter_children_of_notMem rootAbsent]
  rw [collectionResourceOrder_folderAdded absent, childrenPlaced_across_iff endpoints different,
    moved_of_folder isFolder accepted]
  change orderedCollectionChildren (sortCollectionResources _ (folderAddedOrder source target folder
    move.targetParentId move.targetResourceId move.placement)) _ = _ ∧ _ ↔ _
  unfold MeetsNothing
  simp only [isFolder, takesAlong_iff isFolder accepted]
  constructor
  · rintro ⟨_, _, takenAlong, _⟩ parentId inside
    rw [← orderedCollectionChildren_eq_nil_iff targetOk]
    have children := takenAlong parentId inside
    have notTarget : parentId ≠ move.targetParentId := by
      rintro rfl
      exact targetOutside inside
    change orderedCollectionChildren (sortCollectionResources _ (folderAddedOrder source target
      folder move.targetParentId move.targetResourceId move.placement)) _ = _ at children
    rw [isOther parentId notTarget, transferred_eq_children sourceOk listed inside] at children
    exact List.append_left_eq_self.mp children
  · intro meetsNothing
    refine ⟨isTarget, ?_, ?_, ?_⟩
    · intro parentId isParent
      apply folderTaken_children sourceOk listed
      intro inside
      rcases isParent with isTop | isTaken
      · exact ne_empty_of_mem_folderSubtree sourceOk listed inside isTop
      · have stillThere := (folderIds_sort _ _).mem_iff.mp isTaken
        rcases List.mem_map.mp stillThere with ⟨candidate, candidateMem, rfl⟩
        have outside := (List.mem_filter.mp candidateMem).2
        simp [inside] at outside
    · intro parentId inside
      have notTarget : parentId ≠ move.targetParentId := by
        rintro rfl
        exact targetOutside inside
      have nothing := (orderedCollectionChildren_eq_nil_iff targetOk).mpr
        (meetsNothing parentId inside)
      refine (isOther parentId notTarget).trans ?_
      rw [nothing, List.nil_append, transferred_eq_children sourceOk listed inside]
    · intro parentId _ notTarget outside
      refine (isOther parentId notTarget).trans ?_
      rw [transferred_eq_nil sourceOk listed outside, List.append_nil]

end Moves

end Brunomnia.Resources
