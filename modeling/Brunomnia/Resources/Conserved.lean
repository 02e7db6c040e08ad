import Brunomnia.Resources.Move

/-!
# What a move conserves

A move may change the place of one collection, folder or request, and nothing
else but expanded flags. This file states that, names the moves that achieve it,
and proves it for requests. A request enters a collection that already has a
folder of its id, which the code checks for folders but not for requests; such a
move keeps the resources but not the hierarchy.
-/

namespace Brunomnia.Resources

open Brunomnia.Library

/-- Two lists agree as collections except for one changed entry. -/
def ChangedOne {Item : Type} (before after : List Item) (changes : Item → Item → Prop) : Prop :=
  after.Perm before ∨ ∃ item changed rest, changes item changed ∧
    before.Perm (item :: rest) ∧ after.Perm (changed :: rest)

theorem ChangedOne.map_perm {Item Part : Type} {before after : List Item}
    {changes : Item → Item → Prop} (changed : ChangedOne before after changes)
    (part : Item → Part) (kept : ∀ item item', changes item item' → part item' = part item) :
    (after.map part).Perm (before.map part) := by
  rcases changed with perm | ⟨item, item', rest, changes, beforePerm, afterPerm⟩
  · exact perm.map part
  · refine (afterPerm.map part).trans (List.Perm.trans ?_ (beforePerm.map part).symm)
    rw [List.map_cons, List.map_cons, kept item item' changes]

/-- The resources of two workspaces are the same, apart from where they are. -/
structure Conserved (before after : Workspace) : Prop where
  collections : (after.collections.map Collection.fixedPart).Perm
    (before.collections.map Collection.fixedPart)
  folders : (after.allFolders.map RequestFolder.fixedPart).Perm
    (before.allFolders.map RequestFolder.fixedPart)
  requests : (after.allRequests.map ApiRequest.fixedPart).Perm
    (before.allRequests.map ApiRequest.fixedPart)

def WorkspaceResourceMove.ReplacesFolder (move : WorkspaceResourceMove)
    (folder changed : RequestFolder) : Prop :=
  ∃ resource, move = .resource resource ∧ resource.kind = .folder ∧
    folder.id = resource.resourceId ∧ changed = { folder with parentId := resource.targetParentId }

def WorkspaceResourceMove.ReplacesRequest (move : WorkspaceResourceMove)
    (request changed : ApiRequest) : Prop :=
  ∃ resource, move = .resource resource ∧ resource.kind = .request ∧
    request.id = resource.resourceId ∧
      changed = { request with folderId := some resource.targetParentId }

/-- Everything below a folder, and the requests in it, leave with the folder. -/
def SubtreeMoves (before : Workspace) (move : ResourceMove) (after : Workspace) : Prop :=
  ∀ sourceIndex targetIndex source target,
    Endpoints before move sourceIndex targetIndex source target → sourceIndex ≠ targetIndex →
    ∃ newSource newTarget, after.collections[sourceIndex]? = some newSource ∧
      after.collections[targetIndex]? = some newTarget ∧
      (∀ folder ∈ source.folderList, source.Below folder.id move.resourceId →
        folder.id ∉ newSource.folderIds ∧
          placeFolder move.resourceId move.targetParentId folder ∈ newTarget.folderList) ∧
      ∀ request ∈ source.requests, ∀ folderId, request.folderId = some folderId → folderId ≠ "" →
        source.Below folderId move.resourceId →
          request.id ∉ newSource.requestIds ∧ request ∈ newTarget.requests

/-- A move changes the place of one collection, folder or request and nothing else,
except for expanded flags; a folder takes its subtree along. -/
structure MovedExactly (before : Workspace) (move : WorkspaceResourceMove) (after : Workspace) :
    Prop where
  collections : ∀ collection, move = .collection collection →
    after.collections.Perm before.collections
  fixedParts : (after.collections.map Collection.fixedPart).Perm
    (before.collections.map Collection.fixedPart)
  folders : ChangedOne (before.allFolders.map RequestFolder.withoutExpanded)
    (after.allFolders.map RequestFolder.withoutExpanded) move.ReplacesFolder
  requests : ChangedOne before.allRequests after.allRequests move.ReplacesRequest
  subtree : ∀ resource, move = .resource resource → resource.kind = .folder → after ≠ before →
    SubtreeMoves before resource after

theorem MovedExactly.conserved {before after : Workspace} {move : WorkspaceResourceMove}
    (moved : MovedExactly before move after) : Conserved before after where
  collections := moved.fixedParts
  folders := by
    have perm := moved.folders.map_perm RequestFolder.fixedPart (by
      rintro folder changed ⟨resource, _, _, _, rfl⟩
      rfl)
    rwa [List.map_map, List.map_map] at perm
  requests := moved.requests.map_perm ApiRequest.fixedPart (by
    rintro request changed ⟨resource, _, _, _, rfl⟩
    rfl)

theorem Conserved.refl (workspace : Workspace) : Conserved workspace workspace :=
  ⟨List.Perm.refl _, List.Perm.refl _, List.Perm.refl _⟩

theorem Conserved.trans {first second third : Workspace} (left : Conserved first second)
    (right : Conserved second third) : Conserved first third where
  collections := right.collections.trans left.collections
  folders := right.folders.trans left.folders
  requests := right.requests.trans left.requests

theorem Conserved.symm {first second : Workspace} (conserved : Conserved first second) :
    Conserved second first where
  collections := conserved.collections.symm
  folders := conserved.folders.symm
  requests := conserved.requests.symm

theorem MovedExactly.refl (workspace : Workspace) (move : WorkspaceResourceMove) :
    MovedExactly workspace move workspace where
  collections := fun _ _ => List.Perm.refl _
  fixedParts := List.Perm.refl _
  folders := Or.inl (List.Perm.refl _)
  requests := Or.inl (List.Perm.refl _)
  subtree := fun _ _ _ changed => absurd rfl changed

/-- The accepted moves that conserve: a moved collection shares its id with no
other one, and a request enters no collection with a folder of its id. -/
def MoveSafe (workspace : Workspace) : WorkspaceResourceMove → Prop
  | .collection move =>
      move.collectionId ≠ move.targetCollectionId →
        (∃ target ∈ workspace.collections, target.id = move.targetCollectionId) →
          (workspace.collections.filter fun collection =>
            collection.id = move.collectionId).length ≤ 1
  | .resource move =>
      move.kind = .request → ∀ sourceIndex targetIndex source target request,
        Endpoints workspace move sourceIndex targetIndex source target →
        RequestAccepted move sourceIndex targetIndex source target request →
        sourceIndex ≠ targetIndex → request.id ∉ target.folderIds

/-! ## Rebuilt collections -/

theorem Rebuilt.wellFormed {before after : Collection} {folders : List RequestFolder}
    {requests : List ApiRequest} (rebuilt : Rebuilt before after folders requests)
    (wellFormed : HierarchyWellFormed folders requests) : after.WellFormed :=
  wellFormed.of_perm (rebuilt.folders.map _) (rebuilt.requests.map _)

theorem Rebuilt.hierarchy {before after : Collection} {folders : List RequestFolder}
    {requests : List ApiRequest} (rebuilt : Rebuilt before after folders requests)
    (wellFormed : after.WellFormed) : HierarchyWellFormed folders requests :=
  wellFormed.of_perm (rebuilt.folders.map _).symm (rebuilt.requests.map _).symm

@[simp]
theorem expandFolder_upwardLink (parentId : String) (folder : RequestFolder) :
    (expandFolder parentId folder).upwardLink = folder.upwardLink := by
  unfold expandFolder
  split <;> rfl

@[simp]
theorem expandFolder_id (parentId : String) (folder : RequestFolder) :
    (expandFolder parentId folder).id = folder.id := by
  unfold expandFolder
  split <;> rfl

@[simp]
theorem expandFolder_withoutExpanded (parentId : String) (folder : RequestFolder) :
    (expandFolder parentId folder).withoutExpanded = folder.withoutExpanded := by
  unfold expandFolder
  split <;> rfl

@[simp]
theorem placeFolder_id (rootId parentId : String) (folder : RequestFolder) :
    (placeFolder rootId parentId folder).id = folder.id := by
  unfold placeFolder
  split <;> rfl

/-- The link to a target parent: none at the top level. -/
def parentLink (parentId : String) : Option String :=
  if parentId = "" then none else some parentId

theorem placeFolder_upwardLink (rootId parentId : String) (folder : RequestFolder) :
    (placeFolder rootId parentId folder).upwardLink =
      reparent rootId (parentLink parentId) folder.upwardLink := by
  unfold placeFolder reparent
  by_cases root : folder.id = rootId
  · simp [root, RequestFolder.upwardLink, RequestFolder.parent?, parentLink]
  · simp [root, RequestFolder.upwardLink]

theorem parentLink_mem {parentId : String} {target : Collection}
    (parentOk : parentId = "" ∨ parentId ∈ target.folderIds) {parent : String}
    (linked : parentLink parentId = some parent) :
    parent = parentId ∧ parentId ≠ "" ∧ parentId ∈ target.folderIds := by
  unfold parentLink at linked
  split at linked
  · simp at linked
  · next notEmpty =>
      simp only [Option.some.injEq] at linked
      exact ⟨linked.symm, notEmpty, parentOk.resolve_left notEmpty⟩

theorem map_fixedPart_set {collections : List Collection} {index : ℕ} {before after : Collection}
    (at_index : collections[index]? = some before) (fixed : after.fixedPart = before.fixedPart) :
    (collections.set index after).map Collection.fixedPart =
      collections.map Collection.fixedPart := by
  rw [List.map_set, fixed]
  apply set_self_of_getElem?
  simp [at_index]

namespace Endpoints

variable {workspace : Workspace} {move : ResourceMove} {sourceIndex targetIndex : ℕ}
  {source target : Collection}

theorem source_mem (endpoints : Endpoints workspace move sourceIndex targetIndex source target) :
    source ∈ workspace.collections :=
  List.mem_of_getElem? endpoints.sourceAt

theorem target_mem (endpoints : Endpoints workspace move sourceIndex targetIndex source target) :
    target ∈ workspace.collections :=
  List.mem_of_getElem? endpoints.targetAt

theorem target_eq_source
    (endpoints : Endpoints workspace move sourceIndex targetIndex source target)
    (same : sourceIndex = targetIndex) : target = source := by
  have targetAt := endpoints.targetAt
  rw [← same, endpoints.sourceAt] at targetAt
  exact (Option.some.inj targetAt).symm

theorem unique (endpoints : Endpoints workspace move sourceIndex targetIndex source target)
    {otherSourceIndex otherTargetIndex : ℕ} {otherSource otherTarget : Collection}
    (others : Endpoints workspace move otherSourceIndex otherTargetIndex otherSource
      otherTarget) :
    sourceIndex = otherSourceIndex ∧ targetIndex = otherTargetIndex ∧ source = otherSource ∧
      target = otherTarget := by
  have sourceEq := endpoints.sourceFound.symm.trans others.sourceFound
  have targetEq := endpoints.targetFound.symm.trans others.targetFound
  simp only [Option.some.injEq] at sourceEq targetEq
  subst otherSourceIndex otherTargetIndex
  refine ⟨rfl, rfl, ?_, ?_⟩
  · exact Option.some.inj (endpoints.sourceAt.symm.trans others.sourceAt)
  · exact Option.some.inj (endpoints.targetAt.symm.trans others.targetAt)

end Endpoints

theorem wellFormed_set {before after : Workspace} (wellFormed : before.WellFormed) {index : ℕ}
    {updated : Collection} (afterEq : after.collections = before.collections.set index updated)
    (updatedOk : updated.WellFormed) : after.WellFormed := by
  intro collection collectionMem
  rw [afterEq] at collectionMem
  rcases List.mem_or_eq_of_mem_set collectionMem with oldMem | rfl
  · exact wellFormed collection oldMem
  · exact updatedOk

/-! ## Moving a request -/

namespace RequestAccepted

variable {move : ResourceMove} {sourceIndex targetIndex : ℕ} {source target : Collection}
  {request : ApiRequest}

theorem request_mem
    (accepted : RequestAccepted move sourceIndex targetIndex source target request) :
    request ∈ source.requests :=
  List.mem_of_find?_eq_some accepted.found

theorem request_id
    (accepted : RequestAccepted move sourceIndex targetIndex source target request) :
    request.id = move.resourceId := by
  simpa using List.find?_some accepted.found

end RequestAccepted

theorem requestWithin_wellFormed {source : Collection} (wellFormed : source.WellFormed)
    (parentId : String) (request : ApiRequest) :
    HierarchyWellFormed (source.folderList.map (expandFolder parentId))
      (source.requests.map fun candidate =>
        if candidate.id = request.id then { request with folderId := some parentId }
        else candidate) := by
  apply wellFormed.of_perm
  · simp [Function.comp_def]
  · have idsEq : (source.requests.map fun candidate =>
        if candidate.id = request.id then { request with folderId := some parentId }
        else candidate).map ApiRequest.id = source.requests.map ApiRequest.id := by
      rw [List.map_map]
      apply List.map_congr_left
      intro candidate _
      by_cases idEq : candidate.id = request.id
      · simp [idEq]
      · simp [idEq]
    rw [idsEq]

theorem requestTaken_wellFormed {source : Collection} (wellFormed : source.WellFormed)
    (keep : ApiRequest → Bool) :
    HierarchyWellFormed source.folderList (source.requests.filter keep) where
  nodup := wellFormed.nodup.sublist
    ((List.Sublist.refl _).append (List.filter_sublist.map _))
  forest := wellFormed.forest

theorem requestAdded_wellFormed_iff {target : Collection} (wellFormed : target.WellFormed)
    (parentId : String) {request : ApiRequest} (absent : request.id ∉ target.requestIds) :
    HierarchyWellFormed (target.folderList.map (expandFolder parentId))
        (target.requests ++ [{ request with folderId := some parentId }]) ↔
      request.id ∉ target.folderIds := by
  have folderIdsEq : (target.folderList.map (expandFolder parentId)).map RequestFolder.id =
      target.folderIds := by
    simp [Collection.folderIds, Function.comp_def]
  constructor
  · intro added folderMem
    have nodup := added.nodup
    rw [folderIdsEq, List.nodup_append] at nodup
    exact nodup.2.2 _ folderMem request.id (by simp) rfl
  · intro folderAbsent
    refine ⟨?_, ?_⟩
    · rw [folderIdsEq, List.map_append, ← List.append_assoc, List.nodup_append]
      refine ⟨wellFormed.nodup, by simp, ?_⟩
      rintro id idMem other otherMem rfl
      simp only [List.map_cons, List.map_nil, List.mem_singleton] at otherMem
      rw [otherMem] at idMem
      rcases List.mem_append.mp idMem with folderMem | requestMem
      · exact folderAbsent folderMem
      · exact absent requestMem
    · simpa [Function.comp_def] using wellFormed.forest

theorem moveRequest_movedExactly {before after : Workspace} {move : ResourceMove}
    {sourceIndex targetIndex : ℕ} {source target : Collection} (kind : move.kind = .request)
    (wellFormed : before.WellFormed)
    (endpoints : Endpoints before move sourceIndex targetIndex source target)
    (accepted : moveRequest before move sourceIndex targetIndex source target = some after) :
    MovedExactly before (.resource move) after := by
  rcases moveRequest_cases accepted with ⟨request, requestAccepted, within | across⟩
  · rcases within with ⟨_, updated, rebuilt, rfl⟩
    rcases flatMap_set_perm endpoints.sourceAt Collection.folderList with
      ⟨restFolders, foldersBefore, foldersAfter⟩
    rcases flatMap_set_perm endpoints.sourceAt Collection.requests with
      ⟨restRequests, requestsBefore, requestsAfter⟩
    refine ⟨by simp, ?_, Or.inl ?_, Or.inr ?_, ?_⟩
    · exact List.Perm.of_eq (map_fixedPart_set endpoints.sourceAt rebuilt.fixedPart)
    · refine ((foldersAfter updated).map _).trans (List.Perm.trans ?_ (foldersBefore.map _).symm)
      rw [List.map_append, List.map_append]
      refine List.Perm.append ((rebuilt.folders.map _).trans ?_) (List.Perm.refl _)
      simp [Function.comp_def]
    · rcases map_replace_perm ApiRequest.id
        (wellFormed source endpoints.source_mem).requestIds_nodup requestAccepted.request_mem
        (fun _ => { request with folderId := some move.targetParentId }) with
        ⟨others, sourcePerm, _, replacedPerm⟩
      refine ⟨request, { request with folderId := some move.targetParentId },
        others ++ restRequests, ⟨move, rfl, kind, requestAccepted.request_id, rfl⟩, ?_, ?_⟩
      · exact requestsBefore.trans (sourcePerm.append_right _)
      · exact (requestsAfter updated).trans
          ((rebuilt.requests.trans replacedPerm).append_right _)
    · intro resource resourceEq folderKind
      simp only [WorkspaceResourceMove.resource.injEq] at resourceEq
      subst resource
      rw [kind] at folderKind
      simp at folderKind
  · rcases across with ⟨different, updatedSource, updatedTarget, rebuiltSource, rebuiltTarget, rfl⟩
    rcases flatMap_set_set_perm endpoints.sourceAt endpoints.targetAt different
      Collection.folderList with ⟨restFolders, foldersBefore, foldersAfter⟩
    rcases flatMap_set_set_perm endpoints.sourceAt endpoints.targetAt different
      Collection.requests with ⟨restRequests, requestsBefore, requestsAfter⟩
    refine ⟨by simp, ?_, Or.inl ?_, Or.inr ?_, ?_⟩
    · have targetAt : (before.collections.set sourceIndex updatedSource)[targetIndex]? =
          some target := by
        rw [List.getElem?_set_ne different]
        exact endpoints.targetAt
      apply List.Perm.of_eq
      rw [map_fixedPart_set targetAt rebuiltTarget.fixedPart]
      exact map_fixedPart_set endpoints.sourceAt rebuiltSource.fixedPart
    · refine ((foldersAfter updatedSource updatedTarget).map _).trans
        (List.Perm.trans ?_ (foldersBefore.map _).symm)
      simp only [List.map_append]
      refine (rebuiltSource.folders.map _).append (List.Perm.append ?_ (List.Perm.refl _))
      refine (rebuiltTarget.folders.map _).trans ?_
      simp [Function.comp_def]
    · have sourcePerm := filter_ne_perm ApiRequest.id
        (wellFormed source endpoints.source_mem).requestIds_nodup requestAccepted.request_mem
      refine ⟨request, { request with folderId := some move.targetParentId },
        (source.requests.filter fun candidate => decide (candidate.id ≠ request.id)) ++
          (target.requests ++ restRequests),
        ⟨move, rfl, kind, requestAccepted.request_id, rfl⟩, ?_, ?_⟩
      · exact requestsBefore.trans (sourcePerm.append_right _)
      · refine (requestsAfter updatedSource updatedTarget).trans
          ((rebuiltSource.requests.append (rebuiltTarget.requests.append_right _)).trans ?_)
        rw [List.append_assoc target.requests, ← List.append_assoc, ← List.append_assoc]
        exact (List.perm_middle.append_right _ |>.trans (by simp))
    · intro resource resourceEq folderKind
      simp only [WorkspaceResourceMove.resource.injEq] at resourceEq
      subst resource
      rw [kind] at folderKind
      simp at folderKind

end Brunomnia.Resources
