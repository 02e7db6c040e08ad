import Brunomnia.Library.OrderedMaps
import Brunomnia.Library.Placing
import Brunomnia.Resources.Move

/-!
# Ordered children

The children of a parent are those resources of the flat order whose link names the parent.
This file reads the links that a collection looks up, follows them through the edits that a
move makes, and shows what inserting a resource into the flat order does to the children of
each parent.
-/

namespace Brunomnia.Resources

open Brunomnia.Library

/-! ## Looking up resources -/

section LastWithId

variable {Item : Type} {ident : Item → String}

theorem lastWithId_map {change : Item → Item} (same : ∀ item, ident (change item) = ident item)
    (items : List Item) (id : String) :
    lastWithId ident (items.map change) id = (lastWithId ident items id).map change := by
  unfold lastWithId
  rw [← List.map_reverse, List.find?_map]
  congr 2
  funext item
  simp [same]

theorem lastWithId_filter (keep : String → Bool) (items : List Item) (id : String) :
    lastWithId ident (items.filter fun item => keep (ident item)) id =
      if keep id then lastWithId ident items id else none := by
  unfold lastWithId
  rw [← List.filter_reverse, List.find?_filter]
  split
  case isTrue kept =>
    congr 1
    funext item
    by_cases same : ident item = id
    · simp [same, kept]
    · simp [same]
  case isFalse dropped =>
    rw [List.find?_eq_none]
    intro item _
    by_cases same : ident item = id
    · simp [same, dropped]
    · simp [same]

theorem lastWithId_append (items more : List Item) (id : String) :
    lastWithId ident (items ++ more) id =
      (lastWithId ident more id).or (lastWithId ident items id) := by
  unfold lastWithId
  rw [List.reverse_append, List.find?_append]

theorem lastWithId_eq_none_iff {items : List Item} {id : String} :
    lastWithId ident items id = none ↔ id ∉ items.map ident := by
  unfold lastWithId
  simp [List.find?_eq_none]

theorem mem_of_lastWithId {items : List Item} {id : String} {item : Item}
    (found : lastWithId ident items id = some item) : item ∈ items ∧ ident item = id := by
  unfold lastWithId at found
  exact ⟨List.mem_reverse.mp (List.mem_of_find?_eq_some found), by
    simpa using List.find?_some found⟩

theorem lastWithId_eq_some_iff {items : List Item} (nodup : (items.map ident).Nodup) {id : String}
    {item : Item} : lastWithId ident items id = some item ↔ item ∈ items ∧ ident item = id := by
  constructor
  · exact mem_of_lastWithId
  · rintro ⟨mem, rfl⟩
    cases found : lastWithId ident items (ident item) with
    | none => exact absurd (List.mem_map_of_mem mem) (lastWithId_eq_none_iff.mp found)
    | some other =>
        rcases mem_of_lastWithId found with ⟨otherMem, sameId⟩
        rw [List.inj_on_of_nodup_map nodup otherMem mem sameId]

theorem lastWithId_perm {items others : List Item} (nodup : (items.map ident).Nodup)
    (perm : others.Perm items) (id : String) :
    lastWithId ident others id = lastWithId ident items id := by
  have otherNodup := (perm.map ident).nodup_iff.mpr nodup
  apply Option.ext
  intro item
  rw [lastWithId_eq_some_iff nodup, lastWithId_eq_some_iff otherNodup, perm.mem_iff]

end LastWithId

/-! ## Links -/

/-- Where the folder that is found under an id is. -/
def folderParent (folders : List RequestFolder) (id : String) : Option String :=
  (lastWithId RequestFolder.id folders id).map RequestFolder.parentId

/-- Where the request that is found under an id is. -/
def requestParent (requests : List ApiRequest) (id : String) : Option String :=
  (lastWithId ApiRequest.id requests id).map fun request => request.folderId.getD ""

/-- What stands for an id among the children of a parent. -/
def childRef (folders : List RequestFolder) (requests : List ApiRequest) (parentId id : String) :
    Option CollectionResourceRef :=
  if folderParent folders id = some parentId then some ⟨.folder, id⟩
  else if requestParent requests id = some parentId then some ⟨.request, id⟩
  else none

namespace Collection

def child (collection : Collection) (parentId id : String) : Option CollectionResourceRef :=
  childRef collection.folderList collection.requests parentId id

end Collection

theorem childRef_congr {folders otherFolders : List RequestFolder}
    {requests otherRequests : List ApiRequest} {id : String}
    (sameFolder : folderParent otherFolders id = folderParent folders id)
    (sameRequest : requestParent otherRequests id = requestParent requests id) (parentId : String) :
    childRef otherFolders otherRequests parentId id = childRef folders requests parentId id := by
  unfold childRef
  rw [sameFolder, sameRequest]

theorem childRef_id {folders : List RequestFolder} {requests : List ApiRequest}
    {parentId id : String} {ref : CollectionResourceRef}
    (isChild : childRef folders requests parentId id = some ref) : ref.id = id := by
  unfold childRef at isChild
  split at isChild
  · cases isChild
    rfl
  · split at isChild
    · cases isChild
      rfl
    · cases isChild

theorem childRef_eq_none_iff {folders : List RequestFolder} {requests : List ApiRequest}
    {parentId id : String} :
    childRef folders requests parentId id = none ↔
      folderParent folders id ≠ some parentId ∧ requestParent requests id ≠ some parentId := by
  unfold childRef
  split
  case isTrue isFolder => simp [isFolder]
  case isFalse notFolder =>
    split
    case isTrue isRequest => simp [isRequest]
    case isFalse notRequest => simp [notFolder, notRequest]

theorem childRef_isSome_iff {folders : List RequestFolder} {requests : List ApiRequest}
    {parentId id : String} :
    (childRef folders requests parentId id).isSome ↔
      folderParent folders id = some parentId ∨ requestParent requests id = some parentId := by
  rw [← not_iff_not, Option.not_isSome_iff_eq_none, childRef_eq_none_iff, not_or]

theorem orderedCollectionChildren_eq (collection : Collection) (parentId : String) :
    orderedCollectionChildren collection parentId =
      (collectionResourceOrder collection).filterMap (collection.child parentId) := by
  unfold orderedCollectionChildren
  rw [List.filterMap_eq_flatMap_toList]
  apply List.flatMap_congr
  intro id _
  unfold Collection.child childRef folderParent requestParent
  split
  · rfl
  · cases lastWithId ApiRequest.id collection.requests id with
    | none => rfl
    | some request =>
        by_cases inParent : request.folderId.getD "" = parentId
        · simp [inParent]
        · simp [inParent]

/-! ## Links after an edit -/

theorem folderParent_perm {folders others : List RequestFolder}
    (nodup : (folders.map RequestFolder.id).Nodup) (perm : others.Perm folders) (id : String) :
    folderParent others id = folderParent folders id := by
  rw [folderParent, folderParent, lastWithId_perm nodup perm]

theorem requestParent_perm {requests others : List ApiRequest}
    (nodup : (requests.map ApiRequest.id).Nodup) (perm : others.Perm requests) (id : String) :
    requestParent others id = requestParent requests id := by
  rw [requestParent, requestParent, lastWithId_perm nodup perm]

theorem folderParent_eq_some_iff {folders : List RequestFolder}
    (nodup : (folders.map RequestFolder.id).Nodup) {id parentId : String} :
    folderParent folders id = some parentId ↔
      ∃ folder ∈ folders, folder.id = id ∧ folder.parentId = parentId := by
  unfold folderParent
  rw [Option.map_eq_some_iff]
  simp only [lastWithId_eq_some_iff nodup, and_assoc]

theorem requestParent_eq_some_iff {requests : List ApiRequest}
    (nodup : (requests.map ApiRequest.id).Nodup) {id parentId : String} :
    requestParent requests id = some parentId ↔
      ∃ request ∈ requests, request.id = id ∧ request.folderId.getD "" = parentId := by
  unfold requestParent
  rw [Option.map_eq_some_iff]
  simp only [lastWithId_eq_some_iff nodup, and_assoc]

theorem folderParent_eq_none_iff {folders : List RequestFolder} {id : String} :
    folderParent folders id = none ↔ id ∉ folders.map RequestFolder.id := by
  rw [folderParent, Option.map_eq_none_iff, lastWithId_eq_none_iff]

theorem requestParent_eq_none_iff {requests : List ApiRequest} {id : String} :
    requestParent requests id = none ↔ id ∉ requests.map ApiRequest.id := by
  rw [requestParent, Option.map_eq_none_iff, lastWithId_eq_none_iff]

theorem folderParent_map_of_ne {change : RequestFolder → RequestFolder}
    (sameId : ∀ folder, (change folder).id = folder.id) {folders : List RequestFolder}
    {id : String} (same : ∀ folder, folder.id = id → (change folder).parentId = folder.parentId) :
    folderParent (folders.map change) id = folderParent folders id := by
  rw [folderParent, lastWithId_map sameId, folderParent]
  cases found : lastWithId RequestFolder.id folders id with
  | none => rfl
  | some folder => simp [same folder (mem_of_lastWithId found).2]

theorem folderParent_map_of_mem {change : RequestFolder → RequestFolder}
    (sameId : ∀ folder, (change folder).id = folder.id) {folders : List RequestFolder}
    {id parentId : String} (present : id ∈ folders.map RequestFolder.id)
    (linked : ∀ folder, folder.id = id → (change folder).parentId = parentId) :
    folderParent (folders.map change) id = some parentId := by
  rw [folderParent, lastWithId_map sameId]
  cases found : lastWithId RequestFolder.id folders id with
  | none => exact absurd present (lastWithId_eq_none_iff.mp found)
  | some folder => simp [linked folder (mem_of_lastWithId found).2]

theorem requestParent_map_of_ne {change : ApiRequest → ApiRequest}
    (sameId : ∀ request, (change request).id = request.id) {requests : List ApiRequest}
    {id : String} (same : ∀ request, request.id = id →
      (change request).folderId.getD "" = request.folderId.getD "") :
    requestParent (requests.map change) id = requestParent requests id := by
  rw [requestParent, lastWithId_map sameId, requestParent]
  cases found : lastWithId ApiRequest.id requests id with
  | none => rfl
  | some request => simp [same request (mem_of_lastWithId found).2]

theorem requestParent_map_of_mem {change : ApiRequest → ApiRequest}
    (sameId : ∀ request, (change request).id = request.id) {requests : List ApiRequest}
    {id parentId : String} (present : id ∈ requests.map ApiRequest.id)
    (linked : ∀ request, request.id = id → (change request).folderId.getD "" = parentId) :
    requestParent (requests.map change) id = some parentId := by
  rw [requestParent, lastWithId_map sameId]
  cases found : lastWithId ApiRequest.id requests id with
  | none => exact absurd present (lastWithId_eq_none_iff.mp found)
  | some request => simp [linked request (mem_of_lastWithId found).2]

theorem expandFolder_parentId (parentId : String) (folder : RequestFolder) :
    (expandFolder parentId folder).parentId = folder.parentId := by
  unfold expandFolder
  split <;> rfl

@[simp]
theorem folderParent_expand (parentId : String) (folders : List RequestFolder) (id : String) :
    folderParent (folders.map (expandFolder parentId)) id = folderParent folders id := by
  have sameId : ∀ folder, RequestFolder.id (expandFolder parentId folder) = folder.id := by
    intro folder
    unfold expandFolder
    split <;> rfl
  exact folderParent_map_of_ne sameId fun folder _ => expandFolder_parentId parentId folder

theorem folderParent_append (folders more : List RequestFolder) (id : String) :
    folderParent (folders ++ more) id = (folderParent more id).or (folderParent folders id) := by
  rw [folderParent, lastWithId_append, Option.map_or, folderParent, folderParent]

theorem requestParent_append (requests more : List ApiRequest) (id : String) :
    requestParent (requests ++ more) id =
      (requestParent more id).or (requestParent requests id) := by
  rw [requestParent, lastWithId_append, Option.map_or, requestParent, requestParent]

theorem folderParent_filter (keep : String → Bool) (folders : List RequestFolder) (id : String) :
    folderParent (folders.filter fun folder => keep folder.id) id =
      if keep id then folderParent folders id else none := by
  rw [folderParent, lastWithId_filter keep, folderParent]
  split <;> rfl

theorem requestParent_filter (keep : String → Bool) (requests : List ApiRequest) (id : String) :
    requestParent (requests.filter fun request => keep request.id) id =
      if keep id then requestParent requests id else none := by
  rw [requestParent, lastWithId_filter keep, requestParent]
  split <;> rfl

/-! ## The flat order -/

theorem mem_collectionResourceOrder {collection : Collection} {id : String} :
    id ∈ collectionResourceOrder collection ↔ id ∈ collection.resourceIds := by
  unfold collectionResourceOrder
  rw [List.mem_eraseDups, List.mem_filter, decide_eq_true_eq]
  simp only [List.mem_append, Collection.resourceIds]
  tauto

theorem nodup_collectionResourceOrder (collection : Collection) :
    (collectionResourceOrder collection).Nodup :=
  nodup_eraseDups _

theorem folderIds_sort (collection : Collection) (order : List String) :
    (sortCollectionResources collection order).folderIds.Perm collection.folderIds :=
  (sortCollectionResources_folderList collection order).map _

theorem requestIds_sort (collection : Collection) (order : List String) :
    (sortCollectionResources collection order).requestIds.Perm collection.requestIds :=
  (sortCollectionResources_requests collection order).map _

theorem mem_resourceIds_sort {collection : Collection} {order : List String} {id : String} :
    id ∈ (sortCollectionResources collection order).resourceIds ↔ id ∈ collection.resourceIds := by
  unfold Collection.resourceIds
  rw [List.mem_append, List.mem_append, (folderIds_sort collection order).mem_iff,
    (requestIds_sort collection order).mem_iff]

theorem collectionResourceOrder_of_complete {collection : Collection} {order : List String}
    (isOrder : collection.resourceOrder = some order) (nodup : order.Nodup)
    (complete : ∀ id, id ∈ order ↔ id ∈ collection.resourceIds) :
    collectionResourceOrder collection = order := by
  have allValid : (order.filter fun id => decide (id ∈ collection.resourceIds)) = order := by
    rw [List.filter_eq_self]
    intro id mem
    rw [decide_eq_true_eq]
    exact (complete id).mp mem
  have nothingNew : ((collection.folderIds ++ collection.requestIds).filter fun id =>
      decide (id ∈ collection.resourceIds)).removeAll order = [] := by
    unfold List.removeAll
    rw [List.filter_eq_nil_iff]
    intro id mem
    have listed : id ∈ order := (complete id).mpr (List.mem_filter.mp mem).1
    simp [listed]
  unfold collectionResourceOrder
  rw [isOrder, Option.getD_some, List.append_assoc, List.filter_append, allValid,
    List.eraseDups_append, eraseDups_of_nodup nodup, nothingNew, List.eraseDups_nil,
    List.append_nil]

theorem collectionResourceOrder_sort {collection : Collection} {order : List String}
    (nodup : order.Nodup) (complete : ∀ id, id ∈ order ↔ id ∈ collection.resourceIds) :
    collectionResourceOrder (sortCollectionResources collection order) = order := by
  apply collectionResourceOrder_of_complete rfl nodup
  intro id
  rw [mem_resourceIds_sort]
  exact complete id

/-- The orders of two collections that differ in dropped ids only agree on the other ones. -/
theorem collectionResourceOrder_filter {collection other : Collection} {keep : String → Bool}
    (sameOrder : other.resourceOrder = collection.resourceOrder)
    (sameFolders : other.folderIds.filter keep = collection.folderIds.filter keep)
    (sameRequests : other.requestIds.filter keep = collection.requestIds.filter keep) :
    (collectionResourceOrder other).filter keep =
      (collectionResourceOrder collection).filter keep := by
  have sameIds : ∀ id, keep id = true →
      (id ∈ other.resourceIds ↔ id ∈ collection.resourceIds) := by
    intro id kept
    have memFilter : ∀ ids : List String, id ∈ ids ↔ id ∈ ids.filter keep := by
      intro ids
      simp [kept]
    unfold Collection.resourceIds
    rw [List.mem_append, List.mem_append, memFilter other.folderIds, memFilter other.requestIds,
      sameFolders, sameRequests, ← memFilter, ← memFilter]
  have sameList : (other.resourceOrder.getD [] ++ other.folderIds ++ other.requestIds).filter
      keep = (collection.resourceOrder.getD [] ++ collection.folderIds ++
        collection.requestIds).filter keep := by
    simp only [List.filter_append, sameOrder, sameFolders, sameRequests]
  unfold collectionResourceOrder
  rw [← eraseDups_filter, ← eraseDups_filter, List.filter_comm, sameList, List.filter_comm]
  congr 1
  rw [List.filter_filter, List.filter_filter]
  apply List.filter_congr
  intro id _
  by_cases kept : keep id = true
  · simp [kept, sameIds id kept]
  · simp [kept]

end Brunomnia.Resources
