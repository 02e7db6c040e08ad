import Brunomnia.Resources.Keyboard

/-!
# What a planned move makes of its collection

A move within a collection whose new parent does not move along is accepted, and leaves a
coherent collection in which the resource has been placed among the children of that parent.
-/

namespace Brunomnia.Resources

open Brunomnia.Library

/-! ## Parents and children -/

theorem find?_id_eq_lastWithId {Item : Type} {ident : Item → String} {items : List Item}
    (nodup : (items.map ident).Nodup) (id : String) :
    items.find? (fun item => ident item = id) = lastWithId ident items id := by
  rw [← lastWithId_perm nodup (List.reverse_perm items), lastWithId, List.reverse_reverse]

section Children

variable {collection : Collection} (consistent : collection.Consistent)
include consistent

theorem parentOf_folder (id : String) :
    collection.parentOf ⟨.folder, id⟩ = folderParent collection.folderList id := by
  simp only [Collection.parentOf, folderParent]
  rw [find?_id_eq_lastWithId consistent.folderIds_nodup]

theorem parentOf_request (id : String) :
    collection.parentOf ⟨.request, id⟩ = requestParent collection.requests id := by
  simp only [Collection.parentOf, requestParent]
  rw [find?_id_eq_lastWithId consistent.requestIds_nodup]

theorem child_eq_some_iff {parentId id : String} {ref : CollectionResourceRef} :
    collection.child parentId id = some ref ↔
      ref.id = id ∧ collection.parentOf ref = some parentId := by
  rcases ref with ⟨kind, refId⟩
  unfold Collection.child childRef
  cases kind with
  | folder =>
      rw [parentOf_folder consistent]
      split
      case isTrue isFolder =>
        simp only [Option.some.injEq, CollectionResourceRef.mk.injEq, true_and]
        constructor
        · rintro rfl
          exact ⟨rfl, isFolder⟩
        · exact fun same => same.1.symm
      case isFalse notFolder =>
        have noFolder : ¬ (refId = id ∧ folderParent collection.folderList refId =
            some parentId) := by
          rintro ⟨rfl, isFolder⟩
          exact notFolder isFolder
        split
        · simpa using noFolder
        · simpa using noFolder
  | request =>
      rw [parentOf_request consistent]
      split
      case isTrue isFolder =>
        simp only [Option.some.injEq, CollectionResourceRef.mk.injEq, reduceCtorEq, false_and,
          false_iff, not_and]
        rintro rfl isRequest
        rcases (folderParent_eq_some_iff consistent.folderIds_nodup).mp isFolder with
          ⟨folder, folderMem, sameId, _⟩
        rcases (requestParent_eq_some_iff consistent.requestIds_nodup).mp isRequest with
          ⟨request, requestMem, rfl, _⟩
        apply consistent.disjoint (List.mem_map_of_mem folderMem)
        rw [sameId]
        exact List.mem_map_of_mem requestMem
      case isFalse =>
        split
        case isTrue isRequest =>
          simp only [Option.some.injEq, CollectionResourceRef.mk.injEq, true_and]
          constructor
          · rintro rfl
            exact ⟨rfl, isRequest⟩
          · exact fun same => same.1.symm
        case isFalse notRequest =>
          simp only [reduceCtorEq, false_iff, not_and]
          rintro rfl
          exact notRequest

/-- A resource is a child of the parent that its link names, and of no other one. -/
theorem mem_children_iff {parentId : String} {ref : CollectionResourceRef} :
    ref ∈ orderedCollectionChildren collection parentId ↔
      collection.parentOf ref = some parentId := by
  rw [orderedCollectionChildren_eq, List.mem_filterMap]
  constructor
  · rintro ⟨id, _, isChild⟩
    exact ((child_eq_some_iff consistent).mp isChild).2
  · intro isResource
    have isChild := (child_eq_some_iff consistent).mpr ⟨rfl, isResource⟩
    refine ⟨ref.id, ?_, isChild⟩
    rw [mem_collectionResourceOrder]
    exact mem_resourceIds_of_child (by rw [isChild]; rfl)

theorem children_filter_of_ne {parentId other : String} {ref : CollectionResourceRef}
    (isResource : collection.parentOf ref = some parentId) (different : other ≠ parentId) :
    ((orderedCollectionChildren collection other).filter fun child => child ≠ ref) =
      orderedCollectionChildren collection other := by
  rw [List.filter_eq_self]
  intro child childMem
  apply decide_eq_true
  rintro rfl
  have isOther := (mem_children_iff consistent).mp childMem
  rw [isResource] at isOther
  exact different (Option.some.inj isOther).symm

end Children

theorem children_ids_nodup (collection : Collection) (parentId : String) :
    ((orderedCollectionChildren collection parentId).map CollectionResourceRef.id).Nodup := by
  rw [orderedCollectionChildren_eq]
  refine List.Nodup.sublist ?_ (nodup_collectionResourceOrder collection)
  generalize collectionResourceOrder collection = order
  induction order with
  | nil => simp
  | cons id order ih =>
      cases isChild : collection.child parentId id with
      | none =>
          rw [List.filterMap_cons_none isChild]
          exact ih.cons id
      | some ref =>
          rw [List.filterMap_cons_some isChild, List.map_cons, Collection.child_id isChild]
          exact ih.cons_cons id

/-! ## Coherence after a move -/

theorem Collection.IsParent.congr {collection other : Collection}
    (sameFolders : ∀ id, id ∈ other.folderIds ↔ id ∈ collection.folderIds) {parentId : String}
    (isParent : collection.IsParent parentId) : other.IsParent parentId := by
  rcases isParent with isEmpty | isFolder
  · exact Or.inl isEmpty
  · exact Or.inr ((sameFolders parentId).mpr isFolder)

theorem Collection.Coherent.sort {collection : Collection} (coherent : collection.Coherent)
    (order : List String) : (sortCollectionResources collection order).Coherent where
  wellFormed := coherent.wellFormed.of_perm
    ((sortCollectionResources_folderList collection order).map RequestFolder.upwardLink)
    ((sortCollectionResources_requests collection order).map ApiRequest.id)
  named := by
    rw [mem_resourceIds_sort]
    exact coherent.named
  requestsLinked := by
    intro request requestMem
    have listed := (sortCollectionResources_requests collection order).mem_iff.mp requestMem
    exact (coherent.requestsLinked request listed).congr
      fun id => (folderIds_sort collection order).mem_iff

theorem requestWithin_coherent {collection : Collection} (coherent : collection.Coherent)
    {request : ApiRequest} {parentId : String} (parentOk : collection.IsParent parentId) :
    (requestWithin collection request parentId).Coherent where
  wellFormed := by
    have sameFolders := folderIds_requestWithin collection request parentId
    have sameRequests := requestIds_requestWithin collection request parentId
    refine ⟨?_, ?_⟩
    · have nodup := coherent.wellFormed.nodup
      rwa [← Collection.folderIds, ← Collection.requestIds, ← sameFolders, ← sameRequests]
        at nodup
    · have links : (requestWithin collection request parentId).folderList.map
          RequestFolder.upwardLink = collection.folderList.map RequestFolder.upwardLink := by
        simp only [requestWithin, Collection.folderList, Option.getD_some, List.map_map]
        apply List.map_congr_left
        intro folder _
        exact expandFolder_upwardLink parentId folder
      rw [links]
      exact coherent.wellFormed.forest
  named := by
    rw [Collection.resourceIds, folderIds_requestWithin, requestIds_requestWithin]
    exact coherent.named
  requestsLinked := by
    intro other otherMem
    rcases List.mem_map.mp otherMem with ⟨candidate, candidateMem, rfl⟩
    have sameFolders : ∀ id, id ∈ (requestWithin collection request parentId).folderIds ↔
        id ∈ collection.folderIds := by
      intro id
      rw [folderIds_requestWithin]
    split
    · exact parentOk.congr sameFolders
    · exact (coherent.requestsLinked candidate candidateMem).congr sameFolders

theorem folderWithin_coherent {collection : Collection} (coherent : collection.Coherent)
    {folder : RequestFolder} {parentId : String} (parentOk : collection.IsParent parentId)
    (outside : parentId ∉ folderSubtree collection folder.id) :
    (folderWithin collection folder parentId).Coherent where
  wellFormed := folderWithin_wellFormed coherent.wellFormed parentOk fun _ => outside
  named := by
    rw [Collection.resourceIds, folderIds_folderWithin]
    exact coherent.named
  requestsLinked := by
    intro request requestMem
    apply (coherent.requestsLinked request requestMem).congr
    intro id
    rw [folderIds_folderWithin]

/-! ## Planned moves are accepted -/

theorem FolderAccepted.moveFolder_isSome {move : ResourceMove} {sourceIndex targetIndex : ℕ}
    {source target : Collection} {folder : RequestFolder}
    (accepted : FolderAccepted move sourceIndex targetIndex source target folder)
    (placed : truthy move.targetResourceId → move.targetResourceId.getD "" ∈
      siblingIds target move.targetParentId (movingIds source folder)) (workspace : Workspace) :
    ∃ after, moveFolder workspace move sourceIndex targetIndex source target = some after := by
  have noCycle := accepted.noCycle
  have absent := accepted.absent
  unfold moveFolder
  rw [accepted.found]
  dsimp only
  rw [if_neg (by tauto), if_neg (by push Not; exact absent),
    if_neg (fun missing => missing.2 (placed missing.1))]
  split
  · exact ⟨_, rfl⟩
  · exact ⟨_, rfl⟩

theorem collectionWithId_set {workspace : Workspace} {before after : List Collection}
    {collection updated : Collection}
    (split : workspace.collections = before ++ collection :: after)
    (isFirst : ∀ other ∈ before, other.id ≠ collection.id) (sameId : updated.id = collection.id) :
    Workspace.collectionWithId
      { workspace with collections := workspace.collections.set before.length updated }
      collection.id = some updated := by
  have noneBefore : before.find? (fun candidate => candidate.id = collection.id) = none := by
    rw [List.find?_eq_none]
    intro other otherMem
    simpa using isFirst other otherMem
  unfold Workspace.collectionWithId
  rw [split]
  simp [List.find?_append, noneBefore, sameId]

theorem collectionWithId_split {workspace : Workspace} {collectionId : String}
    {collection : Collection}
    (located : workspace.collectionWithId collectionId = some collection) :
    collection.id = collectionId ∧ ∃ before after,
      workspace.collections = before ++ collection :: after ∧
        ∀ other ∈ before, other.id ≠ collection.id := by
  rcases List.find?_eq_some_iff_append.mp located with ⟨isId, before, after, split, isFirst⟩
  have sameId := of_decide_eq_true isId
  refine ⟨sameId, before, after, split, ?_⟩
  intro other otherMem
  have different := isFirst other otherMem
  rw [sameId]
  simpa using different

section Within

variable {workspace : Workspace} {before after : List Collection} {collection : Collection}
  (split : workspace.collections = before ++ collection :: after)
  (isFirst : ∀ other ∈ before, other.id ≠ collection.id) (coherent : collection.Coherent)
  {ref : CollectionResourceRef} {parentId : String} {targetResourceId : Option String}
  {placement : Option Placement} (parentOk : collection.IsParent parentId)

include split isFirst parentOk in
theorem keyboardMove_endpoints :
    Endpoints workspace (keyboardMove collection ref parentId targetResourceId placement)
      before.length before.length collection collection := by
  have found : workspace.collections.findIdx?
      (fun candidate => candidate.id = collection.id) = some before.length := by
    have noneBefore : before.findIdx? (fun candidate => candidate.id = collection.id) = none := by
      rw [List.findIdx?_eq_none_iff]
      intro other otherMem
      simpa using isFirst other otherMem
    rw [split, List.findIdx?_append, noneBefore]
    simp [List.findIdx?_cons]
  have isThere : workspace.collections[before.length]? = some collection := by simp [split]
  exact ⟨found, found, isThere, isThere, parentOk⟩

/-- A collection with its new id and the children that a move promises. -/
structure Moved (collection updated : Collection) (ref : CollectionResourceRef)
    (parentId : String) (targetResourceId : Option String) (placement : Option Placement) :
    Prop where
  sameId : updated.id = collection.id
  coherent : updated.Coherent
  children : ∀ other, orderedCollectionChildren updated other =
    if other = parentId then
      placeBeside ((orderedCollectionChildren collection parentId).filter
        fun child => child ≠ ref) ref targetResourceId placement
    else (orderedCollectionChildren collection other).filter fun child => child ≠ ref

include split isFirst parentOk coherent

theorem keyboardMove_request {id : String} (isResource :
    id ∈ collection.requestIds) (siblingOk : truthy targetResourceId →
      targetResourceId.getD "" ∈ siblingIds collection parentId [id]) :
    ∃ updated, (moveWorkspaceResource workspace (.resource
        (keyboardMove collection ⟨.request, id⟩ parentId targetResourceId
          placement))).collectionWithId collection.id = some updated ∧
      Moved collection updated ⟨.request, id⟩ parentId targetResourceId placement := by
  have endpoints := @keyboardMove_endpoints _ _ _ _ split isFirst ⟨.request, id⟩ parentId
    targetResourceId placement parentOk
  rcases List.mem_map.mp isResource with ⟨listed, listedMem, listedId⟩
  have isFound : (collection.requests.find? fun candidate => candidate.id = id).isSome := by
    rw [List.find?_isSome]
    exact ⟨listed, listedMem, by simpa using listedId⟩
  rcases Option.isSome_iff_exists.mp isFound with ⟨request, found⟩
  have requestId : request.id = id := by simpa using List.find?_some found
  have accepted : RequestAccepted (keyboardMove collection ⟨.request, id⟩ parentId
      targetResourceId placement) before.length before.length collection collection request := by
    refine ⟨found, fun different => absurd rfl different, ?_⟩
    rintro ⟨given, missing⟩
    rw [requestId] at missing
    exact missing (siblingOk given)
  rcases accepted.moveRequest_isSome workspace with ⟨result, moves⟩
  have moved : moveWorkspaceResource workspace (.resource
      (keyboardMove collection ⟨.request, id⟩ parentId targetResourceId placement)) = result := by
    rw [moveWorkspaceResource, endpoints.moveResource_eq]
    simp only [keyboardMove] at moves ⊢
    rw [moves, Option.getD_some]
  rw [moved]
  rcases moveRequest_placement moves with
    ⟨other, otherAccepted, ⟨_, rfl⟩ | ⟨different, _⟩⟩
  · cases Option.some.inj (found.symm.trans otherAccepted.found)
    refine ⟨_, collectionWithId_set split isFirst rfl, rfl,
      (requestWithin_coherent coherent parentOk).sort _, ?_⟩
    have children := requestWithin_children coherent.consistent accepted
    rw [requestId] at children ⊢
    exact children
  · exact absurd rfl different

theorem keyboardMove_folder {id : String} (isResource : id ∈ collection.folderIds)
    (outside : parentId ∉ folderSubtree collection id)
    (siblingOk : truthy targetResourceId → ∀ folder ∈ collection.folderList, folder.id = id →
      targetResourceId.getD "" ∈ siblingIds collection parentId (movingIds collection folder)) :
    ∃ updated, (moveWorkspaceResource workspace (.resource
        (keyboardMove collection ⟨.folder, id⟩ parentId targetResourceId
          placement))).collectionWithId collection.id = some updated ∧
      Moved collection updated ⟨.folder, id⟩ parentId targetResourceId placement := by
  have endpoints := @keyboardMove_endpoints _ _ _ _ split isFirst ⟨.folder, id⟩ parentId
    targetResourceId placement parentOk
  rcases List.mem_map.mp isResource with ⟨listed, listedMem, listedId⟩
  have isFound : (collection.folderList.find? fun candidate => candidate.id = id).isSome := by
    rw [List.find?_isSome]
    exact ⟨listed, listedMem, by simpa using listedId⟩
  rcases Option.isSome_iff_exists.mp isFound with ⟨folder, found⟩
  have folderId : folder.id = id := by simpa using List.find?_some found
  have accepted : FolderAccepted (keyboardMove collection ⟨.folder, id⟩ parentId
      targetResourceId placement) before.length before.length collection collection folder := by
    refine ⟨found, fun _ _ => ?_, fun different => absurd rfl different⟩
    rw [folderId]
    exact outside
  have placed := fun given => siblingOk given folder (List.mem_of_find?_eq_some found) folderId
  rcases accepted.moveFolder_isSome placed workspace with ⟨result, moves⟩
  have moved : moveWorkspaceResource workspace (.resource
      (keyboardMove collection ⟨.folder, id⟩ parentId targetResourceId placement)) = result := by
    rw [moveWorkspaceResource, endpoints.moveResource_eq]
    simp only [keyboardMove] at moves ⊢
    rw [moves, Option.getD_some]
  rw [moved]
  rcases moveFolder_placement moves with
    ⟨other, otherAccepted, _, ⟨_, rfl⟩ | ⟨different, _⟩⟩
  · cases Option.some.inj (found.symm.trans otherAccepted.found)
    have outsideFolder : parentId ∉ folderSubtree collection folder.id := by
      rw [folderId]
      exact outside
    refine ⟨_, collectionWithId_set split isFirst rfl, rfl,
      (folderWithin_coherent coherent parentOk outsideFolder).sort _, ?_⟩
    have children := folderWithin_children coherent.consistent accepted placed
    rw [folderId] at children ⊢
    exact children
  · exact absurd rfl different

end Within

/-! ## Planned moves place their resource -/

section Located

variable {workspace : Workspace} {collectionId : String} {collection : Collection}
  (located : workspace.collectionWithId collectionId = some collection)
  (coherent : collection.Coherent) {ref : CollectionResourceRef} {parentId : String}
  (isResource : collection.parentOf ref = some parentId)

include coherent isResource

theorem mem_resourceIds_of_parentOf : ref.id ∈ match ref.kind with
    | .folder => collection.folderIds
    | .request => collection.requestIds := by
  rcases ref with ⟨kind, id⟩
  cases kind with
  | folder =>
      rw [parentOf_folder coherent.consistent] at isResource
      by_contra missing
      rw [folderParent_eq_none_iff.mpr missing] at isResource
      cases isResource
  | request =>
      rw [parentOf_request coherent.consistent] at isResource
      by_contra missing
      rw [requestParent_eq_none_iff.mpr missing] at isResource
      cases isResource

theorem ref_id_ne_empty : ref.id ≠ "" := by
  have isThere := mem_resourceIds_of_parentOf coherent isResource
  intro isEmpty
  apply coherent.named
  rw [isEmpty] at isThere
  cases kind : ref.kind with
  | folder =>
      rw [kind] at isThere
      exact List.mem_append_left _ isThere
  | request =>
      rw [kind] at isThere
      exact List.mem_append_right _ isThere

theorem isParent_of_parentOf : collection.IsParent parentId := by
  rcases ref with ⟨kind, id⟩
  cases kind with
  | folder =>
      rw [parentOf_folder coherent.consistent] at isResource
      rcases (folderParent_eq_some_iff coherent.consistent.folderIds_nodup).mp isResource with
        ⟨folder, folderMem, _, rfl⟩
      exact coherent.foldersLinked folderMem
  | request =>
      rw [parentOf_request coherent.consistent] at isResource
      rcases (requestParent_eq_some_iff coherent.consistent.requestIds_nodup).mp isResource with
        ⟨request, requestMem, _, rfl⟩
      exact coherent.requestsLinked request requestMem

theorem parentId_outside (isFolder : ref.kind = .folder) :
    parentId ∉ folderSubtree collection ref.id := by
  rcases ref with ⟨kind, id⟩
  cases isFolder
  rw [parentOf_folder coherent.consistent] at isResource
  rcases (folderParent_eq_some_iff coherent.consistent.folderIds_nodup).mp isResource with
    ⟨folder, folderMem, rfl, rfl⟩
  exact parentId_notMem_folderSubtree coherent.consistent folderMem

include located

/-- A resource that is to stand beside a sibling, or last, in a parent that does not move along
is placed there. -/
theorem keyboardMove_moved {newParentId : String} {targetResourceId : Option String}
    {placement : Option Placement} (parentOk : collection.IsParent newParentId)
    (outside : ref.kind = .folder → newParentId ∉ folderSubtree collection ref.id)
    (siblingOk : truthy targetResourceId → ∃ sibling,
      collection.parentOf sibling = some newParentId ∧
        sibling.id = targetResourceId.getD "" ∧ sibling.id ≠ ref.id) :
    ∃ updated, (moveWorkspaceResource workspace (.resource
        (keyboardMove collection ref newParentId targetResourceId
          placement))).collectionWithId collectionId = some updated ∧
      Moved collection updated ref newParentId targetResourceId placement := by
  rcases collectionWithId_split located with ⟨rfl, before, after, split, isFirst⟩
  have isThere := mem_resourceIds_of_parentOf coherent isResource
  have siblingIs : truthy targetResourceId → targetResourceId.getD "" ≠ ref.id ∧
      targetResourceId.getD "" ∈ collectionResourceOrder collection ∧
      (collection.child newParentId (targetResourceId.getD "")).isSome := by
    intro given
    rcases siblingOk given with ⟨sibling, isSibling, sameId, different⟩
    have isChild : (collection.child newParentId (targetResourceId.getD "")).isSome := by
      rw [(child_eq_some_iff coherent.consistent).mpr ⟨sameId, isSibling⟩]
      rfl
    rw [← sameId] at isChild ⊢
    exact ⟨different, mem_collectionResourceOrder.mpr (mem_resourceIds_of_child isChild), isChild⟩
  rcases ref with ⟨kind, id⟩
  cases kind with
  | request =>
      apply keyboardMove_request split isFirst coherent parentOk isThere
      intro given
      rcases siblingIs given with ⟨different, inOrder, isChild⟩
      exact (mem_siblingIds inOrder).mpr ⟨isChild, by simpa using different⟩
  | folder =>
      apply keyboardMove_folder split isFirst coherent parentOk isThere (outside rfl)
      rintro given folder folderMem rfl
      rcases siblingIs given with ⟨different, inOrder, isChild⟩
      exact (mem_siblingIds_movingIds coherent.consistent folderMem (outside rfl) inOrder
        different).mpr isChild

end Located

end Brunomnia.Resources
