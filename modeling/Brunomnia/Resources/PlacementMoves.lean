import Brunomnia.Resources.Placement

/-!
# The children after a move

Each kind of move relinks one resource of the collection that receives it, and takes the
children of folders that come along from the other collection. Its children are placed as
promised exactly if a resource from another collection meets nothing that has its id already.
-/

namespace Brunomnia.Resources

open Brunomnia.Library

/-! ## The collections that a move makes -/

/-- A request with its new link, within its collection. -/
def requestWithin (source : Collection) (request : ApiRequest) (parentId : String) : Collection :=
  { source with
    expanded := true
    folders := some (source.folderList.map (expandFolder parentId))
    requests := source.requests.map fun candidate =>
      if candidate.id = request.id then { request with folderId := some parentId }
      else candidate }

def requestTaken (source : Collection) (request : ApiRequest) : Collection :=
  { source with
    requests := source.requests.filter fun candidate => decide (candidate.id ≠ request.id) }

def requestAdded (target : Collection) (request : ApiRequest) (parentId : String) : Collection :=
  { target with
    expanded := true
    folders := some (target.folderList.map (expandFolder parentId))
    requests := target.requests ++ [{ request with folderId := some parentId }] }

/-- A folder with its new link, within its collection. -/
def folderWithin (source : Collection) (folder : RequestFolder) (parentId : String) : Collection :=
  { source with
    expanded := true
    folders := some (source.folderList.map fun candidate =>
      if candidate.id = folder.id then { candidate with parentId }
      else expandFolder parentId candidate) }

def movingRequestIds (source : Collection) (folder : RequestFolder) : List String :=
  (movingRequests source (folderSubtree source folder.id)).map ApiRequest.id

def movingIds (source : Collection) (folder : RequestFolder) : List String :=
  folderSubtree source folder.id ++ movingRequestIds source folder

def folderTaken (source : Collection) (folder : RequestFolder) : Collection :=
  { source with
    folders := some (source.folderList.filter fun candidate =>
      decide (candidate.id ∉ folderSubtree source folder.id))
    requests := source.requests.filter fun request =>
      decide (request.id ∉ movingRequestIds source folder) }

def transferredFolders (source : Collection) (folder : RequestFolder) (parentId : String) :
    List RequestFolder :=
  (source.folderList.filter fun candidate =>
    decide (candidate.id ∈ folderSubtree source folder.id)).map (placeFolder folder.id parentId)

def transferredRequests (source : Collection) (folder : RequestFolder) : List ApiRequest :=
  source.requests.filter fun request => decide (request.id ∈ movingRequestIds source folder)

def folderAdded (source target : Collection) (folder : RequestFolder) (parentId : String) :
    Collection :=
  { target with
    expanded := true
    folders := some (target.folderList.map (expandFolder parentId) ++
      transferredFolders source folder parentId)
    requests := target.requests ++ transferredRequests source folder }

theorem collectionResourceOrder_congr {collection other : Collection}
    (sameOrder : other.resourceOrder = collection.resourceOrder)
    (sameFolders : other.folderIds = collection.folderIds)
    (sameRequests : other.requestIds = collection.requestIds) :
    collectionResourceOrder other = collectionResourceOrder collection := by
  unfold collectionResourceOrder Collection.resourceIds
  rw [sameOrder, sameFolders, sameRequests]

theorem folderIds_expand (parentId : String) (folders : List RequestFolder) :
    (folders.map (expandFolder parentId)).map RequestFolder.id =
      folders.map RequestFolder.id := by
  rw [List.map_map]
  apply List.map_congr_left
  intro folder _
  simp

theorem requestIds_replace {requests : List ApiRequest} {changed : ApiRequest} :
    (requests.map fun candidate =>
      if candidate.id = changed.id then changed else candidate).map ApiRequest.id =
        requests.map ApiRequest.id := by
  rw [List.map_map]
  apply List.map_congr_left
  intro request _
  by_cases same : request.id = changed.id
  · simp [same]
  · simp [same]

theorem folderIds_requestWithin (source : Collection) (request : ApiRequest) (parentId : String) :
    (requestWithin source request parentId).folderIds = source.folderIds :=
  folderIds_expand _ _

theorem requestIds_requestWithin (source : Collection) (request : ApiRequest)
    (parentId : String) :
    (requestWithin source request parentId).requestIds = source.requestIds :=
  @requestIds_replace _ { request with folderId := some parentId }

theorem folderIds_folderWithin (source : Collection) (folder : RequestFolder) (parentId : String) :
    (folderWithin source folder parentId).folderIds = source.folderIds := by
  unfold Collection.folderIds folderWithin Collection.folderList
  simp only [Option.getD_some, List.map_map]
  apply List.map_congr_left
  intro candidate _
  simp only [Function.comp_apply]
  split
  · rfl
  · exact expandFolder_id _ _

/-- What an accepted request move makes. -/
theorem moveRequest_placement {before after : Workspace} {move : ResourceMove}
    {sourceIndex targetIndex : ℕ} {source target : Collection}
    (accepted : moveRequest before move sourceIndex targetIndex source target = some after) :
    ∃ request, RequestAccepted move sourceIndex targetIndex source target request ∧
      ((sourceIndex = targetIndex ∧ after = { before with
          collections := before.collections.set sourceIndex
            (sortCollectionResources (requestWithin source request move.targetParentId)
              (insertResource (collectionResourceOrder source) request.id
                (siblingIds target move.targetParentId [request.id]) move.targetResourceId
                move.placement)) }) ∨
        (sourceIndex ≠ targetIndex ∧ after = { before with
          collections := (before.collections.set sourceIndex
            (sortCollectionResources (requestTaken source request)
              ((collectionResourceOrder source).filter fun id => id ≠ request.id))).set
            targetIndex (sortCollectionResources (requestAdded target request move.targetParentId)
              (insertResource
                (collectionResourceOrder (requestAdded target request move.targetParentId))
                request.id (siblingIds target move.targetParentId [request.id])
                move.targetResourceId move.placement)) })) := by
  unfold moveRequest at accepted
  split at accepted
  · cases accepted
  case h_2 request found =>
    split at accepted
    · cases accepted
    case isFalse absent =>
      dsimp only at accepted
      split at accepted
      · cases accepted
      case isFalse placed =>
        refine ⟨request, ⟨found, by tauto, placed⟩, ?_⟩
        split at accepted
        case isTrue same =>
          left
          refine ⟨same, ?_⟩
          rw [← Option.some.inj accepted]
          have sameOrder : collectionResourceOrder { source with
              expanded := true
              requests := source.requests.map fun candidate =>
                if candidate.id = request.id then
                  { request with folderId := some move.targetParentId }
                else candidate } = collectionResourceOrder source :=
            collectionResourceOrder_congr rfl rfl
              (@requestIds_replace _ { request with folderId := some move.targetParentId })
          rw [sameOrder]
          rfl
        case isFalse different =>
          right
          refine ⟨different, ?_⟩
          rw [← Option.some.inj accepted]
          rfl

/-- What an accepted folder move makes. -/
theorem moveFolder_placement {before after : Workspace} {move : ResourceMove}
    {sourceIndex targetIndex : ℕ} {source target : Collection}
    (accepted : moveFolder before move sourceIndex targetIndex source target = some after) :
    ∃ folder, FolderAccepted move sourceIndex targetIndex source target folder ∧
      (truthy move.targetResourceId → move.targetResourceId.getD "" ∈
        siblingIds target move.targetParentId (movingIds source folder)) ∧
      ((sourceIndex = targetIndex ∧ after = { before with
          collections := before.collections.set sourceIndex
            (sortCollectionResources (folderWithin source folder move.targetParentId)
              (insertResource (collectionResourceOrder source) folder.id
                (siblingIds target move.targetParentId (movingIds source folder))
                move.targetResourceId move.placement)) }) ∨
        (sourceIndex ≠ targetIndex ∧ after = { before with
          collections := (before.collections.set sourceIndex
            (sortCollectionResources (folderTaken source folder)
              ((collectionResourceOrder source).filter fun id =>
                decide (id ∉ movingIds source folder)))).set
            targetIndex
              (sortCollectionResources (folderAdded source target folder move.targetParentId)
                (insertResource ((collectionResourceOrder
                    (folderAdded source target folder move.targetParentId)).filter fun id =>
                      decide (id ∉ movingIds source folder))
                  folder.id (siblingIds target move.targetParentId (movingIds source folder))
                  move.targetResourceId move.placement ++
                (collectionResourceOrder source).filter fun id =>
                  decide (id ∈ movingIds source folder ∧ id ≠ folder.id))) })) := by
  unfold moveFolder at accepted
  split at accepted
  · cases accepted
  case h_2 folder found =>
    dsimp only at accepted
    split at accepted
    · cases accepted
    case isFalse noCycle =>
      split at accepted
      · cases accepted
      case isFalse absent =>
        split at accepted
        · cases accepted
        case isFalse placed =>
          refine ⟨folder, ⟨found, by tauto, ?_⟩, ?_, ?_⟩
          · intro different id idMem targetMem
            exact absent ⟨different, id, idMem, targetMem⟩
          · intro given
            by_contra missing
            exact placed ⟨given, missing⟩
          · split at accepted
            case isTrue same =>
              left
              refine ⟨same, ?_⟩
              rw [← Option.some.inj accepted]
              have sameOrder : collectionResourceOrder
                  (folderWithin source folder move.targetParentId) =
                    collectionResourceOrder source :=
                collectionResourceOrder_congr rfl
                  (folderIds_folderWithin source folder move.targetParentId) rfl
              rw [← sameOrder]
              rfl
            case isFalse different =>
              right
              refine ⟨different, ?_⟩
              rw [← Option.some.inj accepted]
              rfl

/-! ## Within a collection -/

section Within

variable {source target : Collection} {request : ApiRequest} {folder : RequestFolder}
  {parentId : String}

theorem Collection.Consistent.disjoint (consistent : source.Consistent) {id : String}
    (isFolder : id ∈ source.folderIds) : id ∉ source.requestIds :=
  fun isRequest => (List.nodup_append.mp consistent.nodup).2.2 id isFolder id isRequest rfl

theorem Collection.Consistent.folderIds_nodup (consistent : source.Consistent) :
    source.folderIds.Nodup :=
  (List.nodup_append.mp consistent.nodup).1

theorem Collection.Consistent.requestIds_nodup (consistent : source.Consistent) :
    source.requestIds.Nodup :=
  (List.nodup_append.mp consistent.nodup).2.1

theorem requestWithin_relinked (consistent : source.Consistent)
    (listed : request ∈ source.requests) :
    Relinked source (requestWithin source request parentId) ⟨.request, request.id⟩ parentId := by
  have isRequest : request.id ∈ source.requestIds := List.mem_map_of_mem listed
  have noFolder : folderParent source.folderList request.id = none :=
    folderParent_eq_none_iff.mpr fun isFolder => consistent.disjoint isFolder isRequest
  have sameId : ∀ candidate : ApiRequest, (if candidate.id = request.id then
      { request with folderId := some parentId } else candidate).id = candidate.id := by
    intro candidate
    split
    case isTrue same => exact same.symm
    case isFalse => rfl
  constructor
  · intro other id _ different
    apply childRef_congr
    · exact folderParent_expand parentId source.folderList id
    · apply requestParent_map_of_ne sameId
      intro candidate isCandidate
      rw [if_neg (by rw [isCandidate]; exact different)]
  · intro other
    have newParent : requestParent (requestWithin source request parentId).requests request.id =
        some parentId := by
      apply requestParent_map_of_mem sameId isRequest
      intro candidate same
      rw [if_pos same]
      rfl
    have stillNoFolder : folderParent (requestWithin source request parentId).folderList
        request.id = none := (folderParent_expand parentId source.folderList _).trans noFolder
    unfold Collection.child childRef
    rw [newParent, stillNoFolder]
    simp [eq_comm]
  · intro other ref isChild
    unfold Collection.child childRef at isChild
    rw [noFolder] at isChild
    simp only [reduceCtorEq, if_false] at isChild
    split at isChild
    · exact (Option.some.inj isChild).symm
    · cases isChild

theorem folderWithin_relinked (consistent : source.Consistent)
    (listed : folder ∈ source.folderList) :
    Relinked source (folderWithin source folder parentId) ⟨.folder, folder.id⟩ parentId := by
  have isFolder : folder.id ∈ source.folderIds := List.mem_map_of_mem listed
  have noRequest : requestParent source.requests folder.id = none :=
    requestParent_eq_none_iff.mpr (consistent.disjoint isFolder)
  have sameId : ∀ candidate : RequestFolder, (if candidate.id = folder.id then
      { candidate with parentId } else expandFolder parentId candidate).id = candidate.id := by
    intro candidate
    split
    · rfl
    · exact expandFolder_id parentId candidate
  constructor
  · intro other id _ different
    apply childRef_congr
    · apply folderParent_map_of_ne sameId
      intro candidate isCandidate
      rw [if_neg (by rw [isCandidate]; exact different)]
      exact expandFolder_parentId parentId candidate
    · rfl
  · intro other
    have newParent : folderParent (folderWithin source folder parentId).folderList folder.id =
        some parentId := by
      apply folderParent_map_of_mem sameId isFolder
      intro candidate same
      rw [if_pos same]
    have stillNoRequest : requestParent (folderWithin source folder parentId).requests folder.id =
        none := noRequest
    unfold Collection.child childRef
    rw [newParent, stillNoRequest]
    simp [eq_comm]
  · intro other ref isChild
    unfold Collection.child childRef at isChild
    rw [noRequest] at isChild
    split at isChild
    · exact (Option.some.inj isChild).symm
    · simp at isChild

/-- A request that comes from elsewhere, where no resource has its id. -/
theorem requestAdded_relinked (noFolder : request.id ∉ target.folderIds)
    (noRequest : request.id ∉ target.requestIds) :
    Relinked target (requestAdded target request parentId) ⟨.request, request.id⟩ parentId := by
  have noFolderParent := folderParent_eq_none_iff.mpr noFolder
  have noRequestParent := requestParent_eq_none_iff.mpr noRequest
  have added : ∀ id, requestParent (requestAdded target request parentId).requests id =
      (if request.id = id then some parentId else none).or (requestParent target.requests id) := by
    intro id
    refine (requestParent_append target.requests _ id).trans ?_
    by_cases same : request.id = id
    · simp [requestParent, lastWithId, same]
    · simp [requestParent, lastWithId, same]
  constructor
  · intro other id _ different
    apply childRef_congr
    · exact folderParent_expand parentId target.folderList id
    · rw [added, if_neg (fun same => different same.symm), Option.none_or]
  · intro other
    have stillNoFolder : folderParent (requestAdded target request parentId).folderList
        request.id = none := (folderParent_expand parentId target.folderList _).trans noFolderParent
    unfold Collection.child childRef
    rw [added, stillNoFolder]
    simp [eq_comm]
  · intro other ref isChild
    have present := mem_resourceIds_of_child (by rw [isChild]; rfl)
    exact absurd (List.mem_append.mp present) (not_or.mpr ⟨noFolder, noRequest⟩)

end Within

/-! ## What moves along with a folder -/

section MovingAlong

variable {source : Collection} (consistent : source.Consistent) {folder : RequestFolder}
  (listed : folder ∈ source.folderList) {id parentId : String}

theorem mem_folderSubtree_iff {rootId : String} :
    id ∈ folderSubtree source rootId ↔ Relation.ReflTransGen source.InParent id rootId := by
  unfold folderSubtree
  rw [mem_closurePasses_length_iff le_rfl]
  simp

include listed in
theorem mem_folderIds_of_mem_folderSubtree (inside : id ∈ folderSubtree source folder.id) :
    id ∈ source.folderIds := by
  rcases mem_closurePasses inside with isRoot | ⟨other, otherMem, rfl, _⟩
  · rw [List.mem_singleton.mp isRoot]
    exact List.mem_map_of_mem listed
  · exact List.mem_map_of_mem otherMem

include consistent listed

theorem ne_empty_of_mem_folderSubtree (inside : id ∈ folderSubtree source folder.id) :
    id ≠ "" := by
  rintro rfl
  exact consistent.named (mem_folderIds_of_mem_folderSubtree listed inside)

theorem parentId_notMem_folderSubtree : folder.parentId ∉ folderSubtree source folder.id := by
  intro inside
  apply consistent.acyclic folder.id
  apply Relation.TransGen.head' ⟨folder, listed, rfl, rfl⟩
  exact mem_folderSubtree_iff.mp inside

theorem mem_movingRequestIds_iff :
    id ∈ movingRequestIds source folder ↔
      ∃ request ∈ source.requests, request.id = id ∧
        request.folderId.getD "" ∈ folderSubtree source folder.id := by
  unfold movingRequestIds movingRequests
  simp only [List.mem_map, List.mem_filter, Bool.and_eq_true, decide_eq_true_eq, and_assoc]
  constructor
  · rintro ⟨request, mem, _, inside, rfl⟩
    exact ⟨request, mem, rfl, inside⟩
  · rintro ⟨request, mem, rfl, inside⟩
    refine ⟨request, mem, ?_, inside, rfl⟩
    have notEmpty := ne_empty_of_mem_folderSubtree consistent listed inside
    cases isLink : request.folderId with
    | none => simp [isLink] at notEmpty
    | some folderId => simpa [isLink, truthy] using notEmpty

theorem mem_movingIds_of_child (inside : parentId ∈ folderSubtree source folder.id)
    (isChild : (source.child parentId id).isSome) :
    id ∈ movingIds source folder ∧ id ≠ folder.id := by
  unfold movingIds
  rw [List.mem_append]
  rcases childRef_isSome_iff.mp isChild with isFolder | isRequest
  · rcases (folderParent_eq_some_iff consistent.folderIds_nodup).mp isFolder with
      ⟨child, childMem, rfl, rfl⟩
    refine ⟨Or.inl (id_mem_folderSubtree childMem inside), ?_⟩
    intro isRoot
    have same := List.inj_on_of_nodup_map consistent.folderIds_nodup childMem listed isRoot
    rw [same] at inside
    exact parentId_notMem_folderSubtree consistent listed inside
  · rcases (requestParent_eq_some_iff consistent.requestIds_nodup).mp isRequest with
      ⟨request, requestMem, rfl, rfl⟩
    refine ⟨Or.inr ((mem_movingRequestIds_iff consistent listed).mpr
      ⟨request, requestMem, rfl, inside⟩), ?_⟩
    intro isRoot
    apply consistent.disjoint (List.mem_map_of_mem listed)
    rw [← isRoot]
    exact List.mem_map_of_mem requestMem

/-- Of what moves along, only the root is in a parent that stays. -/
theorem eq_of_child_of_notMem (outside : parentId ∉ folderSubtree source folder.id)
    (isChild : (source.child parentId id).isSome) (moves : id ∈ movingIds source folder) :
    id = folder.id := by
  by_contra notRoot
  apply outside
  unfold movingIds at moves
  rcases childRef_isSome_iff.mp isChild with isFolder | isRequest
  · rcases (folderParent_eq_some_iff consistent.folderIds_nodup).mp isFolder with
      ⟨child, childMem, rfl, rfl⟩
    rcases List.mem_append.mp moves with inside | moves
    · exact parentId_mem_folderSubtree consistent.folderIds_nodup childMem inside notRoot
    · rcases (mem_movingRequestIds_iff consistent listed).mp moves with
        ⟨request, requestMem, sameId, _⟩
      exfalso
      apply consistent.disjoint (List.mem_map_of_mem childMem)
      rw [← sameId]
      exact List.mem_map_of_mem requestMem
  · rcases (requestParent_eq_some_iff consistent.requestIds_nodup).mp isRequest with
      ⟨request, requestMem, rfl, rfl⟩
    rcases List.mem_append.mp moves with inside | moves
    · exfalso
      exact consistent.disjoint (mem_folderIds_of_mem_folderSubtree listed inside)
        (List.mem_map_of_mem requestMem)
    · rcases (mem_movingRequestIds_iff consistent listed).mp moves with
        ⟨other, otherMem, sameId, inside⟩
      rwa [List.inj_on_of_nodup_map consistent.requestIds_nodup otherMem requestMem sameId]
        at inside

theorem mem_siblingIds_movingIds (outside : parentId ∉ folderSubtree source folder.id)
    (inOrder : id ∈ collectionResourceOrder source) (notRoot : id ≠ folder.id) :
    id ∈ siblingIds source parentId (movingIds source folder) ↔
      (source.child parentId id).isSome := by
  rw [mem_siblingIds inOrder, and_iff_left_iff_imp]
  intro isChild moves
  exact notRoot (eq_of_child_of_notMem consistent listed outside isChild moves)

end MovingAlong

/-! ## Moves within a collection -/

theorem complete_insertResource {collection updated : Collection} {movedId : String}
    (ids : ∀ id, id ∈ updated.resourceIds ↔ id = movedId ∨ id ∈ collection.resourceIds)
    (siblingIds : List String) (targetResourceId : Option String) (placement : Option Placement)
    (id : String) :
    id ∈ insertResource (collectionResourceOrder collection) movedId siblingIds targetResourceId
        placement ↔ id ∈ updated.resourceIds := by
  rw [mem_insertResource, mem_collectionResourceOrder, ids]

/-- The children of every parent of a collection in which one resource has been relinked. -/
theorem Relinked.children_sort {collection updated : Collection} {moved : CollectionResourceRef}
    {parentId : String} (relinked : Relinked collection updated moved parentId)
    (foldersNodup : updated.folderIds.Nodup) (requestsNodup : updated.requestIds.Nodup)
    (ids : ∀ id, id ∈ updated.resourceIds ↔ id = moved.id ∨ id ∈ collection.resourceIds)
    {siblingIds : List String} {targetResourceId : Option String} {placement : Option Placement}
    (siblings : ∀ id ∈ collectionResourceOrder collection, id ≠ moved.id →
      (id ∈ siblingIds ↔ (collection.child parentId id).isSome))
    (targetIsSibling : truthy targetResourceId → targetResourceId.getD "" ∈ siblingIds ∧
      targetResourceId.getD "" ∈ collectionResourceOrder collection ∧
      targetResourceId.getD "" ≠ moved.id) (other : String) :
    orderedCollectionChildren (sortCollectionResources updated
        (insertResource (collectionResourceOrder collection) moved.id siblingIds targetResourceId
          placement)) other =
      if other = parentId then
        placeBeside ((orderedCollectionChildren collection parentId).filter
          fun child => child ≠ moved) moved targetResourceId placement
      else (orderedCollectionChildren collection other).filter fun child => child ≠ moved := by
  rw [orderedCollectionChildren_sort foldersNodup requestsNodup
    (nodup_insertResource (nodup_collectionResourceOrder collection) _ _ _ _)
    (complete_insertResource ids siblingIds targetResourceId placement)]
  split
  case isTrue isParent =>
    subst isParent
    exact relinked.filterMap_insertResource_self siblings targetIsSibling
  case isFalse different => exact relinked.filterMap_insertResource_of_ne different

section Moves

variable {before : Workspace} {move : ResourceMove} {sourceIndex targetIndex : ℕ}
  {source target : Collection}

theorem sourceIndex_lt (endpoints : Endpoints before move sourceIndex targetIndex source target) :
    sourceIndex < before.collections.length := by
  rcases List.getElem?_eq_some_iff.mp endpoints.sourceAt with ⟨inRange, _⟩
  exact inRange

theorem targetIndex_lt (endpoints : Endpoints before move sourceIndex targetIndex source target) :
    targetIndex < before.collections.length := by
  rcases List.getElem?_eq_some_iff.mp endpoints.targetAt with ⟨inRange, _⟩
  exact inRange

theorem childrenPlaced_within
    (endpoints : Endpoints before move sourceIndex sourceIndex source source)
    {updated : Collection}
    (children : ∀ other, orderedCollectionChildren updated other =
      if other = move.targetParentId then
        placeBeside ((orderedCollectionChildren source move.targetParentId).filter
          fun child => child ≠ move.moved) move.moved move.targetResourceId move.placement
      else (orderedCollectionChildren source other).filter fun child => child ≠ move.moved) :
    ChildrenPlaced before move
      { before with collections := before.collections.set sourceIndex updated }
      sourceIndex sourceIndex source source := by
  have updatedAt : (before.collections.set sourceIndex updated)[sourceIndex]? = some updated := by
    simp [sourceIndex_lt endpoints]
  constructor
  · intro found foundAt
    rw [← Option.some.inj (updatedAt.symm.trans foundAt), children, if_pos rfl]
  · intro found foundAt parentId _ notTarget
    rw [← Option.some.inj (updatedAt.symm.trans foundAt), children, if_neg]
    exact fun isTarget => notTarget ⟨rfl, isTarget⟩
  · exact fun different => absurd rfl different
  · exact fun different => absurd rfl different
  · intro index different _
    exact List.getElem?_set_ne different.symm

theorem moved_of_request (isRequest : move.kind = .request) {request : ApiRequest}
    (accepted : RequestAccepted move sourceIndex targetIndex source target request) :
    move.moved = ⟨.request, request.id⟩ := by
  rw [ResourceMove.moved, isRequest, accepted.request_id]

theorem moved_of_folder (isFolder : move.kind = .folder) {folder : RequestFolder}
    (accepted : FolderAccepted move sourceIndex targetIndex source target folder) :
    move.moved = ⟨.folder, folder.id⟩ := by
  rw [ResourceMove.moved, isFolder, accepted.folder_id]

theorem request_targetIsSibling {request : ApiRequest}
    (accepted : RequestAccepted move sourceIndex targetIndex source target request)
    (given : truthy move.targetResourceId) :
    move.targetResourceId.getD "" ∈ siblingIds target move.targetParentId [request.id] ∧
      move.targetResourceId.getD "" ∈ collectionResourceOrder target ∧
      move.targetResourceId.getD "" ≠ request.id := by
  have isSibling : move.targetResourceId.getD "" ∈
      siblingIds target move.targetParentId [request.id] := by
    by_contra missing
    exact accepted.placed ⟨given, missing⟩
  have inOrder := mem_order_of_mem_siblingIds isSibling
  refine ⟨isSibling, inOrder, ?_⟩
  have notMoving := ((mem_siblingIds inOrder).mp isSibling).2
  simpa using notMoving

theorem mem_siblingIds_of_request {request : ApiRequest} {id : String}
    (inOrder : id ∈ collectionResourceOrder target) (different : id ≠ request.id) :
    id ∈ siblingIds target move.targetParentId [request.id] ↔
      (target.child move.targetParentId id).isSome := by
  rw [mem_siblingIds inOrder]
  simp [different]

theorem mem_resourceIds_insert {id movedId : String} (present : movedId ∈ source.resourceIds) :
    id ∈ source.resourceIds ↔ id = movedId ∨ id ∈ source.resourceIds := by
  constructor
  · exact Or.inr
  · rintro (rfl | mem)
    · exact present
    · exact mem

/-- The children of every parent after a request has moved within its collection. -/
theorem requestWithin_children (consistent : source.Consistent) {request : ApiRequest}
    (accepted : RequestAccepted move sourceIndex targetIndex source source request)
    (other : String) :
    orderedCollectionChildren (sortCollectionResources
        (requestWithin source request move.targetParentId)
        (insertResource (collectionResourceOrder source) request.id
          (siblingIds source move.targetParentId [request.id]) move.targetResourceId
          move.placement)) other =
      if other = move.targetParentId then
        placeBeside ((orderedCollectionChildren source move.targetParentId).filter
          fun child => child ≠ ⟨.request, request.id⟩) ⟨.request, request.id⟩
            move.targetResourceId move.placement
      else (orderedCollectionChildren source other).filter
        fun child => child ≠ ⟨.request, request.id⟩ := by
  have relinked : Relinked source (requestWithin source request move.targetParentId)
      ⟨.request, request.id⟩ move.targetParentId :=
    requestWithin_relinked consistent accepted.request_mem
  have present : request.id ∈ source.resourceIds :=
    List.mem_append_right _ (List.mem_map_of_mem accepted.request_mem)
  apply relinked.children_sort
  · rw [folderIds_requestWithin]
    exact consistent.folderIds_nodup
  · rw [requestIds_requestWithin]
    exact consistent.requestIds_nodup
  · intro id
    rw [Collection.resourceIds, folderIds_requestWithin, requestIds_requestWithin]
    exact mem_resourceIds_insert present
  · exact fun id inOrder different => mem_siblingIds_of_request inOrder different
  · exact request_targetIsSibling accepted

theorem moveRequest_childrenPlaced_within (consistent : source.Consistent)
    (endpoints : Endpoints before move sourceIndex sourceIndex source source)
    (isRequest : move.kind = .request) {request : ApiRequest}
    (accepted : RequestAccepted move sourceIndex sourceIndex source source request) :
    ChildrenPlaced before move
      { before with
        collections := before.collections.set sourceIndex
          (sortCollectionResources (requestWithin source request move.targetParentId)
            (insertResource (collectionResourceOrder source) request.id
              (siblingIds source move.targetParentId [request.id]) move.targetResourceId
              move.placement)) }
      sourceIndex sourceIndex source source := by
  apply childrenPlaced_within endpoints
  rw [moved_of_request isRequest accepted]
  exact requestWithin_children consistent accepted

theorem targetParentId_outside (consistent : source.Consistent) {folder : RequestFolder}
    (accepted : FolderAccepted move sourceIndex sourceIndex source source folder) :
    move.targetParentId ∉ folderSubtree source folder.id := by
  intro inside
  have notEmpty := ne_empty_of_mem_folderSubtree consistent accepted.folder_mem inside
  exact accepted.noCycle rfl notEmpty inside

theorem root_mem_movingIds (folder : RequestFolder) : folder.id ∈ movingIds source folder :=
  List.mem_append_left _ (root_mem_folderSubtree source folder.id)

theorem folder_targetIsSibling {folder : RequestFolder} {targetId : String}
    (isSibling : targetId ∈ siblingIds target move.targetParentId (movingIds source folder)) :
    targetId ∈ siblingIds target move.targetParentId (movingIds source folder) ∧
      targetId ∈ collectionResourceOrder target ∧ targetId ≠ folder.id := by
  have inOrder := mem_order_of_mem_siblingIds isSibling
  refine ⟨isSibling, inOrder, ?_⟩
  rintro rfl
  exact ((mem_siblingIds inOrder).mp isSibling).2 (root_mem_movingIds folder)

/-- The children of every parent after a folder has moved within its collection. -/
theorem folderWithin_children (consistent : source.Consistent) {folder : RequestFolder}
    (accepted : FolderAccepted move sourceIndex sourceIndex source source folder)
    (placed : truthy move.targetResourceId → move.targetResourceId.getD "" ∈
      siblingIds source move.targetParentId (movingIds source folder)) (other : String) :
    orderedCollectionChildren (sortCollectionResources
        (folderWithin source folder move.targetParentId)
        (insertResource (collectionResourceOrder source) folder.id
          (siblingIds source move.targetParentId (movingIds source folder))
          move.targetResourceId move.placement)) other =
      if other = move.targetParentId then
        placeBeside ((orderedCollectionChildren source move.targetParentId).filter
          fun child => child ≠ ⟨.folder, folder.id⟩) ⟨.folder, folder.id⟩
            move.targetResourceId move.placement
      else (orderedCollectionChildren source other).filter
        fun child => child ≠ ⟨.folder, folder.id⟩ := by
  have relinked : Relinked source (folderWithin source folder move.targetParentId)
      ⟨.folder, folder.id⟩ move.targetParentId :=
    folderWithin_relinked consistent accepted.folder_mem
  have sameFolders := folderIds_folderWithin source folder move.targetParentId
  have present : folder.id ∈ source.resourceIds :=
    List.mem_append_left _ (List.mem_map_of_mem accepted.folder_mem)
  apply relinked.children_sort
  · rw [sameFolders]
    exact consistent.folderIds_nodup
  · exact consistent.requestIds_nodup
  · intro id
    rw [Collection.resourceIds, sameFolders]
    exact mem_resourceIds_insert present
  · intro id inOrder different
    exact mem_siblingIds_movingIds consistent accepted.folder_mem
      (targetParentId_outside consistent accepted) inOrder different
  · exact fun given => folder_targetIsSibling (placed given)

theorem moveFolder_childrenPlaced_within (consistent : source.Consistent)
    (endpoints : Endpoints before move sourceIndex sourceIndex source source)
    (isFolder : move.kind = .folder) {folder : RequestFolder}
    (accepted : FolderAccepted move sourceIndex sourceIndex source source folder)
    (placed : truthy move.targetResourceId → move.targetResourceId.getD "" ∈
      siblingIds source move.targetParentId (movingIds source folder)) :
    ChildrenPlaced before move
      { before with
        collections := before.collections.set sourceIndex
          (sortCollectionResources (folderWithin source folder move.targetParentId)
            (insertResource (collectionResourceOrder source) folder.id
              (siblingIds source move.targetParentId (movingIds source folder))
              move.targetResourceId move.placement)) }
      sourceIndex sourceIndex source source := by
  apply childrenPlaced_within endpoints
  rw [moved_of_folder isFolder accepted]
  exact folderWithin_children consistent accepted placed

/-! ## Moves from another collection -/

/-- The children after a move across collections, by the collections that it makes. -/
theorem childrenPlaced_across_iff
    (endpoints : Endpoints before move sourceIndex targetIndex source target)
    (different : sourceIndex ≠ targetIndex) (newSource newTarget : Collection) :
    ChildrenPlaced before move
        { before with
          collections := (before.collections.set sourceIndex newSource).set targetIndex newTarget }
        sourceIndex targetIndex source target ↔
      orderedCollectionChildren newTarget move.targetParentId =
          placeBeside ((orderedCollectionChildren target move.targetParentId).filter
            fun child => child ≠ move.moved) move.moved move.targetResourceId move.placement ∧
        (∀ parentId, newSource.IsParent parentId →
          orderedCollectionChildren newSource parentId =
            (orderedCollectionChildren source parentId).filter fun child => child ≠ move.moved) ∧
        (∀ parentId, move.TakesAlong source parentId →
          orderedCollectionChildren newTarget parentId =
            orderedCollectionChildren source parentId) ∧
        ∀ parentId, newTarget.IsParent parentId → parentId ≠ move.targetParentId →
          ¬ move.TakesAlong source parentId →
            orderedCollectionChildren newTarget parentId =
              orderedCollectionChildren target parentId := by
  have sourceAt : ((before.collections.set sourceIndex newSource).set targetIndex
      newTarget)[sourceIndex]? = some newSource := by
    rw [List.getElem?_set_ne different.symm]
    simp [sourceIndex_lt endpoints]
  have targetAt : ((before.collections.set sourceIndex newSource).set targetIndex
      newTarget)[targetIndex]? = some newTarget := by
    simp [targetIndex_lt endpoints]
  constructor
  · intro children
    refine ⟨children.placed newTarget targetAt, ?_,
      children.takenAlong different newTarget targetAt,
      children.untouched different newTarget targetAt⟩
    intro parentId isParent
    exact children.removed newSource sourceAt parentId isParent fun both => different both.1
  · rintro ⟨placed, removed, takenAlong, untouched⟩
    constructor
    · intro found foundAt
      rw [← Option.some.inj (targetAt.symm.trans foundAt)]
      exact placed
    · intro found foundAt parentId isParent _
      rw [← Option.some.inj (sourceAt.symm.trans foundAt)] at isParent ⊢
      exact removed parentId isParent
    · intro _ found foundAt
      rw [← Option.some.inj (targetAt.symm.trans foundAt)]
      exact takenAlong
    · intro _ found foundAt
      rw [← Option.some.inj (targetAt.symm.trans foundAt)]
      exact untouched
    · intro index notSource notTarget
      change ((before.collections.set sourceIndex newSource).set targetIndex newTarget)[index]? = _
      rw [List.getElem?_set_ne notTarget.symm, List.getElem?_set_ne notSource.symm]

/-- Resources that are not in a collection are no children there. -/
theorem filter_children_of_notMem {collection : Collection} {moved : CollectionResourceRef}
    (absent : moved.id ∉ collection.resourceIds) (parentId : String) :
    ((orderedCollectionChildren collection parentId).filter fun child => child ≠ moved) =
      orderedCollectionChildren collection parentId := by
  rw [List.filter_eq_self]
  intro child childMem
  rw [orderedCollectionChildren_eq] at childMem
  rcases List.mem_filterMap.mp childMem with ⟨id, listed, isChild⟩
  apply decide_eq_true
  rintro rfl
  rw [Collection.child_id isChild] at absent
  exact absent (mem_collectionResourceOrder.mp listed)

/-! ## Requests from another collection -/

section RequestAcross

variable {request : ApiRequest}

theorem insertResource_congr {order other : List String} {resourceId : String}
    (same : (order.filter fun id => decide (id ≠ resourceId)) =
      other.filter fun id => decide (id ≠ resourceId)) (siblingIds : List String)
    (targetResourceId : Option String) (placement : Option Placement) :
    insertResource order resourceId siblingIds targetResourceId placement =
      insertResource other resourceId siblingIds targetResourceId placement := by
  rw [insertResource_eq, insertResource_eq, same]

theorem requestTaken_children (consistent : source.Consistent) (listed : request ∈ source.requests)
    (parentId : String) :
    orderedCollectionChildren (sortCollectionResources (requestTaken source request)
        ((collectionResourceOrder source).filter fun id => id ≠ request.id)) parentId =
      (orderedCollectionChildren source parentId).filter fun child =>
        child ≠ ⟨.request, request.id⟩ := by
  have isRequest : request.id ∈ source.requestIds := List.mem_map_of_mem listed
  have takenIds : (requestTaken source request).requestIds =
      source.requestIds.filter fun id => decide (id ≠ request.id) := by
    unfold Collection.requestIds requestTaken
    rw [List.filter_map]
    rfl
  have complete : ∀ id, id ∈ (collectionResourceOrder source).filter
      (fun id => decide (id ≠ request.id)) ↔ id ∈ (requestTaken source request).resourceIds := by
    intro id
    unfold Collection.resourceIds
    rw [List.mem_filter, mem_collectionResourceOrder, Collection.resourceIds, takenIds,
      List.mem_append, List.mem_append, List.mem_filter, decide_eq_true_eq]
    constructor
    · rintro ⟨isFolder | isRequest, different⟩
      · exact Or.inl isFolder
      · exact Or.inr ⟨isRequest, different⟩
    · rintro (isFolder | ⟨isRequest, different⟩)
      · refine ⟨Or.inl isFolder, ?_⟩
        rintro rfl
        exact consistent.disjoint isFolder isRequest
      · exact ⟨Or.inr isRequest, different⟩
  have requestsNodup : (requestTaken source request).requestIds.Nodup := by
    rw [takenIds]
    exact consistent.requestIds_nodup.filter _
  have foldersNodup : (requestTaken source request).folderIds.Nodup :=
    consistent.folderIds_nodup
  rw [orderedCollectionChildren_sort foldersNodup requestsNodup
    ((nodup_collectionResourceOrder source).filter _) complete, orderedCollectionChildren_eq,
    ← filterMap_filter_ne (fun id ref => Collection.child_id)
      ((@requestWithin_relinked source request parentId consistent listed).onlyMoved parentId)]
  apply List.filterMap_congr
  intro id mem
  have different : id ≠ request.id := by simpa using (List.mem_filter.mp mem).2
  apply childRef_congr rfl
  refine (requestParent_filter (fun id => decide (id ≠ request.id)) source.requests id).trans ?_
  simp [different]

theorem folderIds_requestAdded (target : Collection) (request : ApiRequest) (parentId : String) :
    (requestAdded target request parentId).folderIds = target.folderIds :=
  folderIds_expand _ _

theorem requestIds_requestAdded (target : Collection) (request : ApiRequest) (parentId : String) :
    (requestAdded target request parentId).requestIds = target.requestIds ++ [request.id] := by
  unfold Collection.requestIds requestAdded
  simp

theorem mem_resourceIds_requestAdded {parentId id : String} :
    id ∈ (requestAdded target request parentId).resourceIds ↔
      id = request.id ∨ id ∈ target.resourceIds := by
  unfold Collection.resourceIds
  rw [folderIds_requestAdded, requestIds_requestAdded]
  simp only [List.mem_append, List.mem_singleton]
  tauto

theorem insertResource_requestAdded (parentId : String) (siblingIds : List String)
    (targetResourceId : Option String) (placement : Option Placement) :
    insertResource (collectionResourceOrder (requestAdded target request parentId)) request.id
        siblingIds targetResourceId placement =
      insertResource (collectionResourceOrder target) request.id siblingIds targetResourceId
        placement := by
  apply insertResource_congr
  refine @collectionResourceOrder_filter target (requestAdded target request parentId)
    (fun id => decide (id ≠ request.id)) rfl ?_ ?_
  · rw [folderIds_requestAdded]
  · rw [requestIds_requestAdded, List.filter_append]
    simp

theorem child_requestAdded_shared {folder : RequestFolder} (targetOk : target.Consistent)
    (folderMem : folder ∈ target.folderList) (sameId : folder.id = request.id)
    (parentId other : String) :
    (requestAdded target request parentId).child other request.id =
      if folder.parentId = other then some ⟨.folder, request.id⟩
      else if parentId = other then some ⟨.request, request.id⟩ else none := by
  have isFolder : folderParent (requestAdded target request parentId).folderList request.id =
      some folder.parentId := by
    refine (folderParent_expand parentId target.folderList request.id).trans ?_
    exact (folderParent_eq_some_iff targetOk.folderIds_nodup).mpr ⟨folder, folderMem, sameId, rfl⟩
  have isRequest : requestParent (requestAdded target request parentId).requests request.id =
      some parentId := by
    refine (requestParent_append target.requests _ request.id).trans ?_
    simp [requestParent, lastWithId]
  unfold Collection.child childRef
  rw [isFolder, isRequest]
  simp

theorem child_shared {folder : RequestFolder} (targetOk : target.Consistent)
    (folderMem : folder ∈ target.folderList) (other : String) :
    target.child other folder.id =
      if folder.parentId = other then some ⟨.folder, folder.id⟩ else none := by
  have isFolder : folderParent target.folderList folder.id = some folder.parentId :=
    (folderParent_eq_some_iff targetOk.folderIds_nodup).mpr ⟨folder, folderMem, rfl, rfl⟩
  have noRequest : requestParent target.requests folder.id = none :=
    requestParent_eq_none_iff.mpr (targetOk.disjoint (List.mem_map_of_mem folderMem))
  unfold Collection.child childRef
  rw [isFolder, noRequest]
  simp

theorem child_requestAdded_of_ne {parentId other id : String} (different : id ≠ request.id) :
    (requestAdded target request parentId).child other id = target.child other id := by
  apply childRef_congr
  · exact folderParent_expand parentId target.folderList id
  · refine (requestParent_append target.requests _ id).trans ?_
    simp [requestParent, lastWithId, different.symm]

theorem requestIds_requestAdded_nodup (targetOk : target.Consistent)
    (noRequest : request.id ∉ target.requestIds) {parentId : String} :
    (requestAdded target request parentId).requestIds.Nodup := by
  rw [requestIds_requestAdded, List.nodup_append]
  refine ⟨targetOk.requestIds_nodup, List.nodup_singleton _, ?_⟩
  rintro id mem _ isRequest rfl
  rw [List.mem_singleton.mp isRequest] at mem
  exact noRequest mem

theorem requestAdded_children (targetOk : target.Consistent)
    (accepted : RequestAccepted move sourceIndex targetIndex source target request)
    (noFolder : request.id ∉ target.folderIds) (noRequest : request.id ∉ target.requestIds)
    (other : String) :
    orderedCollectionChildren (sortCollectionResources
        (requestAdded target request move.targetParentId)
        (insertResource (collectionResourceOrder target) request.id
          (siblingIds target move.targetParentId [request.id]) move.targetResourceId
          move.placement)) other =
      if other = move.targetParentId then
        placeBeside ((orderedCollectionChildren target move.targetParentId).filter
          fun child => child ≠ ⟨.request, request.id⟩) ⟨.request, request.id⟩
            move.targetResourceId move.placement
      else (orderedCollectionChildren target other).filter
        fun child => child ≠ ⟨.request, request.id⟩ := by
  have relinked : Relinked target (requestAdded target request move.targetParentId)
      ⟨.request, request.id⟩ move.targetParentId := requestAdded_relinked noFolder noRequest
  apply relinked.children_sort
  · rw [folderIds_requestAdded]
    exact targetOk.folderIds_nodup
  · exact requestIds_requestAdded_nodup targetOk noRequest
  · exact fun id => mem_resourceIds_requestAdded
  · exact fun id inOrder different => mem_siblingIds_of_request inOrder different
  · exact request_targetIsSibling accepted

theorem requestAdded_children_eq (targetOk : target.Consistent)
    (noRequest : request.id ∉ target.requestIds) (siblingIds : List String) (other : String) :
    orderedCollectionChildren (sortCollectionResources
        (requestAdded target request move.targetParentId)
        (insertResource (collectionResourceOrder target) request.id siblingIds
          move.targetResourceId move.placement)) other =
      (insertResource (collectionResourceOrder target) request.id siblingIds
        move.targetResourceId move.placement).filterMap
          ((requestAdded target request move.targetParentId).child other) := by
  apply orderedCollectionChildren_sort
  · rw [folderIds_requestAdded]
    exact targetOk.folderIds_nodup
  · exact requestIds_requestAdded_nodup targetOk noRequest
  · exact nodup_insertResource (nodup_collectionResourceOrder target) _ _ _ _
  · intro id
    rw [mem_insertResource, mem_collectionResourceOrder, mem_resourceIds_requestAdded]

theorem mem_placeBeside_self (siblings : List CollectionResourceRef)
    (moved : CollectionResourceRef) (targetResourceId : Option String)
    (placement : Option Placement)
    (present : truthy targetResourceId → ∃ sibling ∈ siblings,
      sibling.id = targetResourceId.getD "") :
    moved ∈ placeBeside siblings moved targetResourceId placement := by
  unfold placeBeside
  split
  case isTrue given =>
    rcases present given with ⟨sibling, siblingMem, isTarget⟩
    have hasAnchor : ∃ sibling ∈ siblings, decide (sibling.id = targetResourceId.getD "") = true :=
      ⟨sibling, siblingMem, decide_eq_true isTarget⟩
    rcases exists_first_anchor hasAnchor with ⟨first, anchor, rest, rfl, isFirst, isAnchor⟩
    rw [insertAtAnchor_split isFirst isAnchor]
    split <;> simp
  case isFalse => simp

section Shared

variable (targetOk : target.Consistent) (noRequest : request.id ∉ target.requestIds)
  {folder : RequestFolder} (folderMem : folder ∈ target.folderList)
  (sameId : folder.id = request.id)
include targetOk noRequest folderMem sameId

/-- Among the children of other parents there is no change. -/
theorem requestAdded_shared_other {other : String} (notTarget : other ≠ move.targetParentId)
    (notParent : other ≠ folder.parentId) (siblingIds : List String) :
    orderedCollectionChildren (sortCollectionResources
        (requestAdded target request move.targetParentId)
        (insertResource (collectionResourceOrder target) request.id siblingIds
          move.targetResourceId move.placement)) other =
      orderedCollectionChildren target other := by
  have hidden : (requestAdded target request move.targetParentId).child other request.id =
      none := by
    rw [child_requestAdded_shared targetOk folderMem sameId, if_neg notParent.symm,
      if_neg notTarget.symm]
  rw [requestAdded_children_eq targetOk noRequest, filterMap_insertResource_of_none hidden,
    orderedCollectionChildren_eq]
  have sameChildren : ((collectionResourceOrder target).filter fun id =>
      decide (id ≠ request.id)).filterMap
        ((requestAdded target request move.targetParentId).child other) =
      ((collectionResourceOrder target).filter fun id =>
        decide (id ≠ request.id)).filterMap (target.child other) := by
    apply List.filterMap_congr
    intro id mem
    exact child_requestAdded_of_ne (by simpa using (List.mem_filter.mp mem).2)
  rw [sameChildren]
  apply filterMap_filter_of_shown
  intro id _ isShown
  apply decide_eq_true
  rintro rfl
  rw [← sameId, child_shared targetOk folderMem, if_neg notParent.symm] at isShown
  cases isShown

/-- The folder keeps its place among its siblings if as many of them come before it. -/
theorem requestAdded_shared_parent_iff (isRequest : move.resourceId = request.id) :
    orderedCollectionChildren (sortCollectionResources
          (requestAdded target request move.targetParentId)
          (insertResource (collectionResourceOrder target) request.id
            (siblingIds target move.targetParentId [request.id]) move.targetResourceId
            move.placement)) folder.parentId =
        orderedCollectionChildren target folder.parentId ↔
      KeepsPlace move target folder.parentId := by
  have sameChildren : ∀ id, (requestAdded target request move.targetParentId).child
      folder.parentId id = target.child folder.parentId id := by
    intro id
    by_cases isShared : id = request.id
    · rw [isShared, child_requestAdded_shared targetOk folderMem sameId, ← sameId,
        child_shared targetOk folderMem, if_pos rfl, if_pos rfl]
    · exact child_requestAdded_of_ne isShared
  have isShown : target.child folder.parentId request.id = some ⟨.folder, request.id⟩ := by
    rw [← sameId, child_shared targetOk folderMem, if_pos rfl]
  have inOrder : request.id ∈ collectionResourceOrder target := by
    rw [mem_collectionResourceOrder, ← sameId]
    exact List.mem_append_left _ (List.mem_map_of_mem folderMem)
  unfold KeepsPlace
  rw [requestAdded_children_eq targetOk noRequest, orderedCollectionChildren_eq, insertResource_eq,
    List.filterMap_congr fun id _ => sameChildren id, isRequest]
  apply filterMap_reinsert_iff (nodup_collectionResourceOrder target) inOrder isShown
  · intro other isOther
    exact (Collection.child_id isOther).symm
  · exact insertionIndex_le _ _ _ _

/-- The request stands where it is asked for if the folder is in another parent. -/
theorem requestAdded_shared_placed_iff
    (accepted : RequestAccepted move sourceIndex targetIndex source target request) :
    orderedCollectionChildren (sortCollectionResources
          (requestAdded target request move.targetParentId)
          (insertResource (collectionResourceOrder target) request.id
            (siblingIds target move.targetParentId [request.id]) move.targetResourceId
            move.placement)) move.targetParentId =
        placeBeside ((orderedCollectionChildren target move.targetParentId).filter
          fun child => child ≠ ⟨.request, request.id⟩) ⟨.request, request.id⟩
            move.targetResourceId move.placement ↔
      folder.parentId ≠ move.targetParentId := by
  rw [requestAdded_children_eq targetOk noRequest]
  have atShared := child_requestAdded_shared targetOk folderMem sameId move.targetParentId
    move.targetParentId
  constructor
  · intro placed inParent
    rw [if_pos inParent] at atShared
    have isMoved : (⟨.request, request.id⟩ : CollectionResourceRef) ∈
        placeBeside ((orderedCollectionChildren target move.targetParentId).filter
          fun child => child ≠ ⟨.request, request.id⟩) ⟨.request, request.id⟩
            move.targetResourceId move.placement := by
      apply mem_placeBeside_self
      intro given
      rcases request_targetIsSibling accepted given with ⟨isSibling, inOrder, different⟩
      rcases Option.isSome_iff_exists.mp
        ((mem_siblingIds_of_request inOrder different).mp isSibling) with ⟨ref, isRef⟩
      refine ⟨ref, ?_, Collection.child_id isRef⟩
      rw [List.mem_filter, orderedCollectionChildren_eq]
      refine ⟨List.mem_filterMap.mpr ⟨_, inOrder, isRef⟩, decide_eq_true ?_⟩
      rintro rfl
      exact different (Collection.child_id isRef).symm
    rw [← placed] at isMoved
    rcases List.mem_filterMap.mp isMoved with ⟨id, _, isChild⟩
    have isShared := Collection.child_id isChild
    dsimp only at isShared
    rw [← isShared, atShared] at isChild
    cases isChild
  · intro notInParent
    rw [if_neg notInParent, if_pos rfl] at atShared
    have notShown : target.child move.targetParentId request.id = none := by
      rw [← sameId, child_shared targetOk folderMem, if_neg notInParent]
    rw [filterMap_insertResource_of_some (fun id ref => Collection.child_id) _
      (request_targetIsSibling accepted) atShared]
    · congr 1
      rw [orderedCollectionChildren_eq,
        ← @filterMap_filter_ne (target.child move.targetParentId) ⟨.request, request.id⟩
          (fun id ref => Collection.child_id) (fun ref isRef => by
            rw [notShown] at isRef
            cases isRef)]
      apply List.filterMap_congr
      intro id mem
      exact child_requestAdded_of_ne (by simpa using (List.mem_filter.mp mem).2)
    · intro id inOrder different
      rw [child_requestAdded_of_ne different]
      exact mem_siblingIds_of_request inOrder different

end Shared

theorem isParent_requestAdded {order : List String} {parentId other : String} :
    (sortCollectionResources (requestAdded target request parentId) order).IsParent other ↔
      target.IsParent other := by
  unfold Collection.IsParent
  rw [(folderIds_sort _ _).mem_iff, folderIds_requestAdded]

theorem not_takesAlong_of_request (isRequest : move.kind = .request) (parentId : String) :
    ¬ move.TakesAlong source parentId := by
  rintro ⟨isFolder, _⟩
  rw [isRequest] at isFolder
  cases isFolder

theorem moveRequest_childrenPlaced_across_iff (sourceOk : source.Consistent)
    (targetOk : target.Consistent)
    (endpoints : Endpoints before move sourceIndex targetIndex source target)
    (different : sourceIndex ≠ targetIndex) (isRequest : move.kind = .request)
    (accepted : RequestAccepted move sourceIndex targetIndex source target request) :
    ChildrenPlaced before move
        { before with
          collections := (before.collections.set sourceIndex
            (sortCollectionResources (requestTaken source request)
              ((collectionResourceOrder source).filter fun id => id ≠ request.id))).set
            targetIndex (sortCollectionResources (requestAdded target request move.targetParentId)
              (insertResource
                (collectionResourceOrder (requestAdded target request move.targetParentId))
                request.id (siblingIds target move.targetParentId [request.id])
                move.targetResourceId move.placement)) }
        sourceIndex targetIndex source target ↔
      MeetsNothing move source target := by
  have noRequest := accepted.absent different
  have noneAlong := @not_takesAlong_of_request move source isRequest
  rw [insertResource_requestAdded, childrenPlaced_across_iff endpoints different,
    moved_of_request isRequest accepted]
  unfold MeetsNothing
  simp only [isRequest, noneAlong, not_false_eq_true, false_implies, implies_true, true_and,
    requestTaken_children sourceOk accepted.request_mem, isParent_requestAdded, true_implies]
  by_cases isFolder : request.id ∈ target.folderIds
  · rcases List.mem_map.mp isFolder with ⟨folder, folderMem, sameId⟩
    rw [requestAdded_shared_placed_iff targetOk noRequest folderMem sameId accepted]
    have parentIff := @requestAdded_shared_parent_iff move target request targetOk noRequest folder
      folderMem sameId accepted.request_id.symm
    constructor
    · rintro ⟨notInParent, untouched⟩ other otherMem otherId
      have same : other = folder := List.inj_on_of_nodup_map targetOk.folderIds_nodup otherMem
        folderMem (otherId.trans (accepted.request_id.symm.trans sameId.symm))
      subst same
      exact ⟨notInParent, fun isParent => parentIff.mp (untouched _ isParent notInParent)⟩
    · intro meets
      rcases meets folder folderMem (sameId.trans accepted.request_id) with ⟨notInParent, keeps⟩
      refine ⟨notInParent, ?_⟩
      intro parentId isParent notTarget
      by_cases atFolder : parentId = folder.parentId
      · subst atFolder
        exact parentIff.mpr (keeps isParent)
      · exact requestAdded_shared_other targetOk noRequest folderMem sameId notTarget atFolder _
  · have absent : request.id ∉ target.resourceIds := by
      unfold Collection.resourceIds
      rw [List.mem_append, not_or]
      exact ⟨isFolder, noRequest⟩
    refine iff_of_true ⟨?_, ?_⟩ ?_
    · rw [requestAdded_children targetOk accepted isFolder noRequest, if_pos rfl]
    · intro parentId _ notTarget
      rw [requestAdded_children targetOk accepted isFolder noRequest, if_neg notTarget]
      exact filter_children_of_notMem absent parentId
    · intro folder folderMem sameId
      rw [← accepted.request_id] at sameId
      exact absurd (sameId ▸ List.mem_map_of_mem folderMem) isFolder

end RequestAcross

end Moves

end Brunomnia.Resources
