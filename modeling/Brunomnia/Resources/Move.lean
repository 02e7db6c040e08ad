import Brunomnia.Library.Lists
import Brunomnia.Resources.Hierarchy

/-!
# Moving resources

`moveWorkspaceResource` moves a collection before or after another one, or a
request or folder within a collection or across collections. A move it rejects
returns the workspace unchanged. This file models it and says once, for each
kind of move, what an accepted move does.
-/

namespace Brunomnia.Resources

open Brunomnia.Library

def moveCollection (workspace : Workspace) (move : CollectionMove) : Option Workspace :=
  if move.collectionId = move.targetCollectionId then none
  else
    match workspace.collections.find? (fun collection => collection.id = move.collectionId),
        workspace.collections.findIdx? (fun collection =>
          collection.id = move.targetCollectionId) with
    | some source, some _ =>
        let collections := workspace.collections.filter fun collection =>
          collection.id ≠ source.id
        let adjustedTarget := collections.findIdx fun collection =>
          collection.id = move.targetCollectionId
        some { workspace with
          collections := collections.insertIdx
            (adjustedTarget + if move.placement = .after then 1 else 0) source }
    | _, _ => none

/-- Open the folder that receives a resource. -/
def expandFolder (parentId : String) (folder : RequestFolder) : RequestFolder :=
  if folder.id = parentId then { folder with expanded := true } else folder

def siblingIds (target : Collection) (parentId : String) (movingIds : List String) :
    List String :=
  ((orderedCollectionChildren target parentId).map CollectionResourceRef.id).filter
    fun id => decide (id ∉ movingIds)

def moveRequest (workspace : Workspace) (move : ResourceMove) (sourceIndex targetIndex : ℕ)
    (source target : Collection) : Option Workspace :=
  match source.requests.find? (fun candidate => candidate.id = move.resourceId) with
  | none => none
  | some request =>
      if sourceIndex ≠ targetIndex ∧ request.id ∈ target.requestIds then none
      else
        let targetSiblingIds := siblingIds target move.targetParentId [request.id]
        if truthy move.targetResourceId ∧
            move.targetResourceId.getD "" ∉ targetSiblingIds then none
        else
          let updatedRequest := { request with folderId := some move.targetParentId }
          if sourceIndex = targetIndex then
            let updated := { source with
              expanded := true
              requests := source.requests.map fun candidate =>
                if candidate.id = request.id then updatedRequest else candidate }
            let targetFolders := updated.folderList.map (expandFolder move.targetParentId)
            let order := insertResource (collectionResourceOrder updated) request.id
              targetSiblingIds move.targetResourceId move.placement
            some { workspace with
              collections := workspace.collections.set sourceIndex
                (sortCollectionResources { updated with folders := some targetFolders } order) }
          else
            let sourceOrder := (collectionResourceOrder source).filter fun id => id ≠ request.id
            let updatedSource := sortCollectionResources
              { source with
                requests := source.requests.filter fun candidate =>
                  decide (candidate.id ≠ request.id) } sourceOrder
            let updatedTarget := { target with
              expanded := true
              folders := some (target.folderList.map (expandFolder move.targetParentId))
              requests := target.requests ++ [updatedRequest] }
            let order := insertResource (collectionResourceOrder updatedTarget) request.id
              targetSiblingIds move.targetResourceId move.placement
            some { workspace with
              collections := (workspace.collections.set sourceIndex updatedSource).set
                targetIndex (sortCollectionResources updatedTarget order) }

def movingRequests (source : Collection) (subtreeIds : List String) : List ApiRequest :=
  source.requests.filter fun request =>
    truthy request.folderId && decide (request.folderId.getD "" ∈ subtreeIds)

def moveFolder (workspace : Workspace) (move : ResourceMove) (sourceIndex targetIndex : ℕ)
    (source target : Collection) : Option Workspace :=
  match source.folderList.find? (fun candidate => candidate.id = move.resourceId) with
  | none => none
  | some folder =>
      let subtreeIds := folderSubtree source folder.id
      if sourceIndex = targetIndex ∧ move.targetParentId ≠ "" ∧
          move.targetParentId ∈ subtreeIds then none
      else
        let movingRequestIds := (movingRequests source subtreeIds).map ApiRequest.id
        let movingIds := subtreeIds ++ movingRequestIds
        if sourceIndex ≠ targetIndex ∧ ∃ id ∈ movingIds, id ∈ target.resourceIds then none
        else
          let targetSiblingIds := siblingIds target move.targetParentId movingIds
          if truthy move.targetResourceId ∧
              move.targetResourceId.getD "" ∉ targetSiblingIds then none
          else if sourceIndex = targetIndex then
            let updated := { source with
              expanded := true
              folders := some (source.folderList.map fun candidate =>
                if candidate.id = folder.id then
                  { candidate with parentId := move.targetParentId }
                else expandFolder move.targetParentId candidate) }
            let order := insertResource (collectionResourceOrder updated) folder.id
              targetSiblingIds move.targetResourceId move.placement
            some { workspace with
              collections := workspace.collections.set sourceIndex
                (sortCollectionResources updated order) }
          else
            let sourceOrder := collectionResourceOrder source
            let transferredOrder := sourceOrder.filter fun id =>
              decide (id ∈ movingIds ∧ id ≠ folder.id)
            let updatedSource := sortCollectionResources
              { source with
                folders := some (source.folderList.filter fun candidate =>
                  decide (candidate.id ∉ subtreeIds))
                requests := source.requests.filter fun request =>
                  decide (request.id ∉ movingRequestIds) }
              (sourceOrder.filter fun id => decide (id ∉ movingIds))
            let transferredFolders := (source.folderList.filter fun candidate =>
              decide (candidate.id ∈ subtreeIds)).map fun candidate =>
                if candidate.id = folder.id then
                  { candidate with parentId := move.targetParentId }
                else candidate
            let transferredRequests := source.requests.filter fun request =>
              decide (request.id ∈ movingRequestIds)
            let updatedTarget := { target with
              expanded := true
              folders := some (target.folderList.map (expandFolder move.targetParentId) ++
                transferredFolders)
              requests := target.requests ++ transferredRequests }
            let order := insertResource
              ((collectionResourceOrder updatedTarget).filter fun id => decide (id ∉ movingIds))
              folder.id targetSiblingIds move.targetResourceId move.placement
            some { workspace with
              collections := (workspace.collections.set sourceIndex updatedSource).set
                targetIndex (sortCollectionResources updatedTarget (order ++ transferredOrder)) }

/-- Find both collections and the parent a resource is to be moved to. -/
def moveResource (workspace : Workspace) (move : ResourceMove) : Option Workspace :=
  match workspace.collections.findIdx? (fun collection => collection.id = move.collectionId),
      workspace.collections.findIdx? (fun collection =>
        collection.id = move.targetCollectionId) with
  | some sourceIndex, some targetIndex =>
      match workspace.collections[sourceIndex]?, workspace.collections[targetIndex]? with
      | some source, some target =>
          if move.targetParentId ≠ "" ∧ move.targetParentId ∉ target.folderIds then none
          else
            match move.kind with
            | .request => moveRequest workspace move sourceIndex targetIndex source target
            | .folder => moveFolder workspace move sourceIndex targetIndex source target
      | _, _ => none
  | _, _ => none

def moveWorkspaceResource (workspace : Workspace) : WorkspaceResourceMove → Workspace
  | .collection move => (moveCollection workspace move).getD workspace
  | .resource move => (moveResource workspace move).getD workspace

/-! ## What an accepted move does -/

/-- The two collections of a resource move, and its target parent, as the code finds them. -/
structure Endpoints (workspace : Workspace) (move : ResourceMove) (sourceIndex targetIndex : ℕ)
    (source target : Collection) : Prop where
  sourceFound : workspace.collections.findIdx?
    (fun collection => collection.id = move.collectionId) = some sourceIndex
  targetFound : workspace.collections.findIdx?
    (fun collection => collection.id = move.targetCollectionId) = some targetIndex
  sourceAt : workspace.collections[sourceIndex]? = some source
  targetAt : workspace.collections[targetIndex]? = some target
  parentOk : move.targetParentId = "" ∨ move.targetParentId ∈ target.folderIds

structure RequestAccepted (move : ResourceMove) (sourceIndex targetIndex : ℕ)
    (source target : Collection) (request : ApiRequest) : Prop where
  found : source.requests.find? (fun candidate => candidate.id = move.resourceId) = some request
  absent : sourceIndex ≠ targetIndex → request.id ∉ target.requestIds
  placed : ¬ (truthy move.targetResourceId ∧ move.targetResourceId.getD "" ∉
    siblingIds target move.targetParentId [request.id])

structure FolderAccepted (move : ResourceMove) (sourceIndex targetIndex : ℕ)
    (source target : Collection) (folder : RequestFolder) : Prop where
  found : source.folderList.find? (fun candidate => candidate.id = move.resourceId) = some folder
  noCycle : sourceIndex = targetIndex → move.targetParentId ≠ "" →
    move.targetParentId ∉ folderSubtree source folder.id
  absent : sourceIndex ≠ targetIndex → ∀ id ∈ folderSubtree source folder.id ++
    (movingRequests source (folderSubtree source folder.id)).map ApiRequest.id,
      id ∉ target.resourceIds

/-- A collection with its folders and requests replaced, up to their display order. -/
structure Rebuilt (before after : Collection) (folders : List RequestFolder)
    (requests : List ApiRequest) : Prop where
  fixedPart : after.fixedPart = before.fixedPart
  folders : after.folderList.Perm folders
  requests : after.requests.Perm requests

theorem Rebuilt.sort {before updated : Collection} {folders : List RequestFolder}
    {requests : List ApiRequest} (resourceOrder : List String)
    (fixedPart : updated.fixedPart = before.fixedPart) (foldersEq : updated.folderList = folders)
    (requestsEq : updated.requests = requests) :
    Rebuilt before (sortCollectionResources updated resourceOrder) folders requests where
  fixedPart := fixedPart
  folders := foldersEq ▸ sortCollectionResources_folderList _ _
  requests := requestsEq ▸ sortCollectionResources_requests _ _

theorem moveCollection_cases {before after : Workspace} {move : CollectionMove}
    (accepted : moveCollection before move = some after) :
    ∃ source index, move.collectionId ≠ move.targetCollectionId ∧
      before.collections.find? (fun collection => collection.id = move.collectionId) =
        some source ∧
      (∃ target ∈ before.collections, target.id = move.targetCollectionId) ∧
      index ≤ (before.collections.filter fun collection => collection.id ≠ source.id).length ∧
      after = { before with
        collections := (before.collections.filter fun collection =>
          collection.id ≠ source.id).insertIdx index source } := by
  unfold moveCollection at accepted
  split at accepted
  · simp at accepted
  · next different =>
      split at accepted
      · next source _ sourceFound targetFound =>
          simp only [Option.some.injEq] at accepted
          have sourceId : source.id = move.collectionId := by
            simpa using List.find?_some sourceFound
          rcases List.findIdx?_eq_some_iff_getElem.mp targetFound with ⟨inRange, targetId, _⟩
          have targetMem := List.getElem_mem inRange
          have targetId := of_decide_eq_true targetId
          refine ⟨source, _, different, sourceFound, ⟨_, targetMem, targetId⟩, ?_, accepted.symm⟩
          have found : List.findIdx (fun collection =>
              decide (collection.id = move.targetCollectionId))
                (before.collections.filter fun collection => decide (collection.id ≠ source.id)) <
              (before.collections.filter fun collection =>
                decide (collection.id ≠ source.id)).length := by
            apply List.findIdx_lt_length_of_exists
            refine ⟨_, List.mem_filter.mpr ⟨targetMem, ?_⟩, by simpa using targetId⟩
            simp only [decide_eq_true_eq]
            rw [targetId, sourceId]
            exact fun eq => different eq.symm
          split <;> omega
      · simp at accepted

theorem moveResource_cases {before after : Workspace} {move : ResourceMove}
    (accepted : moveResource before move = some after) :
    ∃ sourceIndex targetIndex source target,
      Endpoints before move sourceIndex targetIndex source target ∧
      (move.kind = .request →
        moveRequest before move sourceIndex targetIndex source target = some after) ∧
      (move.kind = .folder →
        moveFolder before move sourceIndex targetIndex source target = some after) := by
  unfold moveResource at accepted
  split at accepted
  · next sourceIndex targetIndex sourceFound targetFound =>
      split at accepted
      · next source target sourceAt targetAt =>
          split at accepted
          · simp at accepted
          · next parentOk =>
              refine ⟨sourceIndex, targetIndex, source, target,
                ⟨sourceFound, targetFound, sourceAt, targetAt, by tauto⟩, ?_, ?_⟩
              · intro kind
                simpa [kind] using accepted
              · intro kind
                simpa [kind] using accepted
      · simp at accepted
  · simp at accepted

/-- An accepted request move replaces the request in one collection, or takes it
out of one collection and adds it to another one. -/
theorem moveRequest_cases {before after : Workspace} {move : ResourceMove}
    {sourceIndex targetIndex : ℕ} {source target : Collection}
    (accepted : moveRequest before move sourceIndex targetIndex source target = some after) :
    ∃ request, RequestAccepted move sourceIndex targetIndex source target request ∧
      ((sourceIndex = targetIndex ∧ ∃ updated,
          Rebuilt source updated (source.folderList.map (expandFolder move.targetParentId))
            (source.requests.map fun candidate =>
              if candidate.id = request.id then
                { request with folderId := some move.targetParentId } else candidate) ∧
          after = { before with collections := before.collections.set sourceIndex updated }) ∨
        (sourceIndex ≠ targetIndex ∧ ∃ updatedSource updatedTarget,
          Rebuilt source updatedSource source.folderList
            (source.requests.filter fun candidate => decide (candidate.id ≠ request.id)) ∧
          Rebuilt target updatedTarget (target.folderList.map (expandFolder move.targetParentId))
            (target.requests ++ [{ request with folderId := some move.targetParentId }]) ∧
          after = { before with
            collections := (before.collections.set sourceIndex updatedSource).set targetIndex
              updatedTarget })) := by
  unfold moveRequest at accepted
  split at accepted
  · simp at accepted
  · next request found =>
      split at accepted
      · simp at accepted
      · next absent =>
          dsimp only at accepted
          split at accepted
          · simp at accepted
          · next placed =>
              refine ⟨request, ⟨found, by tauto, placed⟩, ?_⟩
              split at accepted
              · next same =>
                  simp only [Option.some.injEq] at accepted
                  refine Or.inl ⟨same, _, ?_, accepted.symm⟩
                  exact Rebuilt.sort _ rfl rfl rfl
              · next different =>
                  simp only [Option.some.injEq] at accepted
                  refine Or.inr ⟨different, _, _, ?_, ?_, accepted.symm⟩
                  · exact Rebuilt.sort _ rfl rfl rfl
                  · exact Rebuilt.sort _ rfl rfl rfl

/-- Give the moved folder its new parent. -/
def placeFolder (rootId parentId : String) (folder : RequestFolder) : RequestFolder :=
  if folder.id = rootId then { folder with parentId } else folder

/-- An accepted folder move gives the folder its new parent in one collection, or
takes its subtree out of one collection and adds it to another one. -/
theorem moveFolder_cases {before after : Workspace} {move : ResourceMove}
    {sourceIndex targetIndex : ℕ} {source target : Collection}
    (accepted : moveFolder before move sourceIndex targetIndex source target = some after) :
    ∃ folder, FolderAccepted move sourceIndex targetIndex source target folder ∧
      ((sourceIndex = targetIndex ∧ ∃ updated,
          Rebuilt source updated (source.folderList.map fun candidate =>
              if candidate.id = folder.id then
                { candidate with parentId := move.targetParentId }
              else expandFolder move.targetParentId candidate) source.requests ∧
          after = { before with collections := before.collections.set sourceIndex updated }) ∨
        (sourceIndex ≠ targetIndex ∧ ∃ updatedSource updatedTarget,
          Rebuilt source updatedSource
            (source.folderList.filter fun candidate =>
              decide (candidate.id ∉ folderSubtree source folder.id))
            (source.requests.filter fun request => decide (request.id ∉
              (movingRequests source (folderSubtree source folder.id)).map ApiRequest.id)) ∧
          Rebuilt target updatedTarget
            (target.folderList.map (expandFolder move.targetParentId) ++
              (source.folderList.filter fun candidate =>
                decide (candidate.id ∈ folderSubtree source folder.id)).map
                  (placeFolder folder.id move.targetParentId))
            (target.requests ++ source.requests.filter fun request => decide (request.id ∈
              (movingRequests source (folderSubtree source folder.id)).map ApiRequest.id)) ∧
          after = { before with
            collections := (before.collections.set sourceIndex updatedSource).set targetIndex
              updatedTarget })) := by
  unfold moveFolder at accepted
  split at accepted
  · simp at accepted
  · next folder found =>
      dsimp only at accepted
      split at accepted
      · simp at accepted
      · next noCycle =>
          split at accepted
          · simp at accepted
          · next absent =>
              split at accepted
              · simp at accepted
              · refine ⟨folder, ⟨found, by tauto, ?_⟩, ?_⟩
                · intro different id idMem targetMem
                  exact absent ⟨different, id, idMem, targetMem⟩
                · split at accepted
                  · next same =>
                      simp only [Option.some.injEq] at accepted
                      refine Or.inl ⟨same, _, ?_, accepted.symm⟩
                      exact Rebuilt.sort _ rfl rfl rfl
                  · next different =>
                      simp only [Option.some.injEq] at accepted
                      refine Or.inr ⟨different, _, _, ?_, ?_, accepted.symm⟩
                      · exact Rebuilt.sort _ rfl rfl rfl
                      · exact Rebuilt.sort _ rfl rfl rfl

end Brunomnia.Resources
