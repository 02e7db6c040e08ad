import Brunomnia.Json
import Brunomnia.Library.Forest

/-!
# The resource hierarchy of a collection

Requests and folders of a collection form a forest through `folderId` and
`parentId`; an empty link means the top level. `resourceOrder` is a display
order over both kinds that may be stale. This file models the records, the
orders derived from them, and the subtree of a folder, as `resources.ts`
computes them. Properties the code here never reads are carried as `content`.
-/

namespace Brunomnia.Resources

open Brunomnia.Library

structure ApiRequest where
  id : String
  folderId : Option String
  content : Json
  deriving DecidableEq

structure RequestFolder where
  id : String
  parentId : String
  expanded : Bool
  content : Json
  deriving DecidableEq

structure Collection where
  id : String
  expanded : Bool
  requests : List ApiRequest
  folders : Option (List RequestFolder)
  resourceOrder : Option (List String)
  content : Json
  deriving DecidableEq

structure Workspace where
  collections : List Collection
  content : Json
  deriving DecidableEq

inductive Placement where
  | before
  | after
  deriving DecidableEq

inductive ResourceKind where
  | folder
  | request
  deriving DecidableEq

structure CollectionMove where
  collectionId : String
  targetCollectionId : String
  placement : Placement

structure ResourceMove where
  kind : ResourceKind
  collectionId : String
  resourceId : String
  targetCollectionId : String
  targetParentId : String
  targetResourceId : Option String
  placement : Option Placement

inductive WorkspaceResourceMove where
  | collection (move : CollectionMove)
  | resource (move : ResourceMove)

/-- A TypeScript test such as `move.targetResourceId && …` on an optional string. -/
def truthy : Option String → Bool
  | none => false
  | some value => value ≠ ""

namespace Collection

/-- `collection.folders ?? []`. -/
def folderList (collection : Collection) : List RequestFolder :=
  collection.folders.getD []

def folderIds (collection : Collection) : List String :=
  collection.folderList.map RequestFolder.id

def requestIds (collection : Collection) : List String :=
  collection.requests.map ApiRequest.id

/-- The ids of folders and requests, which share `resourceOrder`. -/
def resourceIds (collection : Collection) : List String :=
  collection.folderIds ++ collection.requestIds

end Collection

def collectionResourceOrder (collection : Collection) : List String :=
  ((collection.resourceOrder.getD [] ++ collection.folderIds ++ collection.requestIds).filter
    fun id => decide (id ∈ collection.resourceIds)).eraseDups

/-- The entry a JavaScript `Map` keeps for an id: the last one inserted. -/
def lastWithId {Item : Type} (ident : Item → String) (items : List Item) (id : String) :
    Option Item :=
  items.reverse.find? fun item => ident item = id

structure CollectionResourceRef where
  kind : ResourceKind
  id : String
  deriving DecidableEq

def orderedCollectionChildren (collection : Collection) (parentId : String) :
    List CollectionResourceRef :=
  (collectionResourceOrder collection).flatMap fun id =>
    if (lastWithId RequestFolder.id collection.folderList id).map RequestFolder.parentId =
        some parentId then
      [{ kind := .folder, id }]
    else
      match lastWithId ApiRequest.id collection.requests id with
      | some request =>
          if request.folderId.getD "" = parentId then [{ kind := .request, id }] else []
      | none => []

/-- The last index of an id, the value a `Map` from ids to indexes keeps. -/
def orderRank (resourceOrder : List String) (id : String) : ℕ :=
  match lastWithId (fun entry : String × ℕ => entry.1) resourceOrder.zipIdx id with
  | some entry => entry.2
  | none => 9007199254740991

/-- `Array.prototype.sort` is stable, as insertion sort is. -/
def sortByRank {Item : Type} (ident : Item → String) (resourceOrder : List String)
    (items : List Item) : List Item :=
  items.insertionSort fun left right =>
    orderRank resourceOrder (ident left) ≤ orderRank resourceOrder (ident right)

def sortCollectionResources (collection : Collection) (resourceOrder : List String) :
    Collection :=
  { collection with
    resourceOrder := some resourceOrder
    folders := some (sortByRank RequestFolder.id resourceOrder collection.folderList)
    requests := sortByRank ApiRequest.id resourceOrder collection.requests }

def lastSiblingIndex (output siblingIds : List String) : Option ℕ :=
  (output.zipIdx.reverse.find? fun entry => decide (entry.1 ∈ siblingIds)).map Prod.snd

def insertResource (order : List String) (resourceId : String) (siblingIds : List String)
    (targetResourceId : Option String) (placement : Option Placement) : List String :=
  let output := order.filter fun id => id ≠ resourceId
  let afterSiblings :=
    match lastSiblingIndex output siblingIds with
    | some index => output.insertIdx (index + 1) resourceId
    | none => output.insertIdx output.length resourceId
  match targetResourceId with
  | some target =>
      if target ≠ "" ∧ target ∈ siblingIds ∧ target ∈ output then
        output.insertIdx
          (output.idxOf target + if placement.getD .after = .after then 1 else 0) resourceId
      else afterSiblings
  | none => afterSiblings

/-- Repeated passes over the folders, at most one for each of them. -/
def folderSubtree (collection : Collection) (rootId : String) : List String :=
  closurePasses RequestFolder.id (fun folder => some folder.parentId) collection.folderList
    collection.folderList.length [rootId]

namespace RequestFolder

/-- The folder above, if the link is not empty. -/
def parent? (folder : RequestFolder) : Option String :=
  if folder.parentId = "" then none else some folder.parentId

/-- The part of a folder that no move changes. -/
def fixedPart (folder : RequestFolder) : String × Json :=
  (folder.id, folder.content)

/-- The folder with its expanded flag forgotten. -/
def withoutExpanded (folder : RequestFolder) : RequestFolder :=
  { folder with expanded := false }

def upwardLink (folder : RequestFolder) : String × Option String :=
  (folder.id, folder.parent?)

end RequestFolder

namespace ApiRequest

/-- The part of a request that no move changes. -/
def fixedPart (request : ApiRequest) : String × Json :=
  (request.id, request.content)

end ApiRequest

/-- Unique ids over folders and requests, and folders that form a forest. -/
structure HierarchyWellFormed (folders : List RequestFolder) (requests : List ApiRequest) :
    Prop where
  nodup : (folders.map RequestFolder.id ++ requests.map ApiRequest.id).Nodup
  forest : Forest (folders.map RequestFolder.upwardLink)

namespace Collection

/-- The part of a collection that no move changes. -/
def fixedPart (collection : Collection) : String × Json :=
  (collection.id, collection.content)

def upwardLinks (collection : Collection) : List (String × Option String) :=
  collection.folderList.map RequestFolder.upwardLink

/-- The hierarchy that the folders and requests of a collection form. -/
def WellFormed (collection : Collection) : Prop :=
  HierarchyWellFormed collection.folderList collection.requests

/-- A folder lies in the subtree of another one: it is the folder or below it. -/
def Below (collection : Collection) (id rootId : String) : Prop :=
  Relation.ReflTransGen (UpwardLink collection.upwardLinks) id rootId

end Collection

namespace Workspace

def WellFormed (workspace : Workspace) : Prop :=
  ∀ collection ∈ workspace.collections, collection.WellFormed

/-- All folders of the workspace, collection by collection. -/
def allFolders (workspace : Workspace) : List RequestFolder :=
  workspace.collections.flatMap Collection.folderList

/-- All requests of the workspace, collection by collection. -/
def allRequests (workspace : Workspace) : List ApiRequest :=
  workspace.collections.flatMap Collection.requests

end Workspace

/-! ## Order and subtree facts -/

theorem sortByRank_perm {Item : Type} (ident : Item → String) (resourceOrder : List String)
    (items : List Item) : (sortByRank ident resourceOrder items).Perm items :=
  List.perm_insertionSort _ _

theorem sortCollectionResources_folderList (collection : Collection)
    (resourceOrder : List String) :
    (sortCollectionResources collection resourceOrder).folderList.Perm collection.folderList :=
  sortByRank_perm _ _ _

theorem sortCollectionResources_requests (collection : Collection)
    (resourceOrder : List String) :
    (sortCollectionResources collection resourceOrder).requests.Perm collection.requests :=
  sortByRank_perm _ _ _

theorem map_upwardLink_fst (folders : List RequestFolder) :
    (folders.map RequestFolder.upwardLink).map Prod.fst = folders.map RequestFolder.id := by
  simp [RequestFolder.upwardLink, Function.comp_def]

theorem HierarchyWellFormed.of_perm {folders otherFolders : List RequestFolder}
    {requests otherRequests : List ApiRequest} (wellFormed : HierarchyWellFormed folders requests)
    (links : (otherFolders.map RequestFolder.upwardLink).Perm
      (folders.map RequestFolder.upwardLink))
    (requestIds : (otherRequests.map ApiRequest.id).Perm (requests.map ApiRequest.id)) :
    HierarchyWellFormed otherFolders otherRequests where
  nodup := by
    have folderIds := links.map Prod.fst
    rw [map_upwardLink_fst, map_upwardLink_fst] at folderIds
    exact (folderIds.append requestIds).nodup_iff.mpr wellFormed.nodup
  forest := wellFormed.forest.perm links

namespace HierarchyWellFormed

variable {folders : List RequestFolder} {requests : List ApiRequest}

theorem folderIds_nodup (wellFormed : HierarchyWellFormed folders requests) :
    (folders.map RequestFolder.id).Nodup :=
  (List.nodup_append.mp wellFormed.nodup).1

theorem requestIds_nodup (wellFormed : HierarchyWellFormed folders requests) :
    (requests.map ApiRequest.id).Nodup :=
  (List.nodup_append.mp wellFormed.nodup).2.1

end HierarchyWellFormed

namespace Collection

theorem linked_of_upwardLink {collection : Collection} {child parent : String}
    (linked : UpwardLink collection.upwardLinks child parent) :
    Linked RequestFolder.id (fun folder => some folder.parentId) collection.folderList
      child parent := by
  rcases linked with ⟨link, linkMem, rfl, linkEq⟩
  rcases List.mem_map.mp linkMem with ⟨folder, folderMem, rfl⟩
  refine ⟨folder, folderMem, rfl, ?_⟩
  simp only [RequestFolder.upwardLink, RequestFolder.parent?] at linkEq
  split at linkEq
  · simp at linkEq
  · exact linkEq

end Collection

theorem root_mem_folderSubtree (collection : Collection) (rootId : String) :
    rootId ∈ folderSubtree collection rootId :=
  mem_closurePasses_of_mem (by simp)

theorem id_mem_folderSubtree {collection : Collection} {rootId : String}
    {folder : RequestFolder} (folderMem : folder ∈ collection.folderList)
    (parentMem : folder.parentId ∈ folderSubtree collection rootId) :
    folder.id ∈ folderSubtree collection rootId :=
  closurePasses_closed (List.length_filter_le _ _) folder folderMem folder.parentId rfl parentMem

theorem parentId_mem_folderSubtree {collection : Collection} {rootId : String}
    (nodup : collection.folderIds.Nodup) {folder : RequestFolder}
    (folderMem : folder ∈ collection.folderList)
    (idMem : folder.id ∈ folderSubtree collection rootId) (notRoot : folder.id ≠ rootId) :
    folder.parentId ∈ folderSubtree collection rootId := by
  rcases mem_closurePasses idMem with rootMem | ⟨other, otherMem, idEq, parent, linked, parentMem⟩
  · exact absurd (List.mem_singleton.mp rootMem) notRoot
  · have : other = folder := List.inj_on_of_nodup_map nodup otherMem folderMem idEq
    subst other
    simp only [Option.some.injEq] at linked
    subst parent
    exact parentMem

theorem mem_folderSubtree_of_below {collection : Collection} {id rootId : String}
    (below : collection.Below id rootId) : id ∈ folderSubtree collection rootId := by
  refine (mem_closurePasses_length_iff le_rfl).mpr ⟨rootId, by simp, ?_⟩
  exact Relation.ReflTransGen.mono (fun _ _ => Collection.linked_of_upwardLink) _ _ below

theorem folderSubtree_closed (collection : Collection) (rootId : String) :
    Closed Prod.fst Prod.snd collection.upwardLinks (folderSubtree collection rootId) := by
  intro link linkMem parent linked parentMem
  rcases List.mem_map.mp linkMem with ⟨folder, folderMem, rfl⟩
  apply id_mem_folderSubtree folderMem
  simp only [RequestFolder.upwardLink, RequestFolder.parent?] at linked
  split at linked
  · simp at linked
  · simp only [Option.some.injEq] at linked
    rwa [linked]

end Brunomnia.Resources
