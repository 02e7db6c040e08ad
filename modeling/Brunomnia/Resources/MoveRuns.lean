import Brunomnia.Library.Runs
import Brunomnia.Resources.FolderMoves

/-!
# Runs of moves

Over every sequence of moves from a well-formed workspace, folders keep forming
forests, ids stay unique, and no resource is lost, duplicated or changed except
for the place of the moved root, as long as every move is safe. The step lemma
shows that the unsafe moves are the only ones that break this.
-/

namespace Brunomnia.Resources

open Brunomnia.Library

/-! ## Moving a collection -/

theorem reinsert_perm {collections : List Collection} {source : Collection}
    (sourceMem : source ∈ collections) {index : ℕ}
    (inRange : index ≤ (collections.filter fun collection => collection.id ≠ source.id).length)
    (unique : (collections.filter fun collection => collection.id = source.id).length ≤ 1) :
    ((collections.filter fun collection => collection.id ≠ source.id).insertIdx index
      source).Perm collections := by
  have sourceIn : source ∈ collections.filter fun collection => collection.id = source.id :=
    List.mem_filter.mpr ⟨sourceMem, by simp⟩
  have single : collections.filter (fun collection => collection.id = source.id) = [source] := by
    rcases List.length_eq_one_iff.mp (Nat.le_antisymm unique (List.length_pos_of_mem sourceIn))
      with ⟨only, onlyEq⟩
    rw [onlyEq, List.mem_singleton] at sourceIn
    rw [onlyEq, sourceIn]
  have split := filter_not_append_perm collections fun collection => collection.id = source.id
  rw [single] at split
  refine (List.perm_insertIdx source _ inRange).trans ?_
  exact (List.perm_append_singleton source _).symm.trans split.symm

theorem unique_of_reinsert_perm {collections : List Collection} {source : Collection} {index : ℕ}
    (inRange : index ≤ (collections.filter fun collection => collection.id ≠ source.id).length)
    (perm : (((collections.filter fun collection => collection.id ≠ source.id).insertIdx index
      source).map Collection.fixedPart).Perm (collections.map Collection.fixedPart)) :
    (collections.filter fun collection => collection.id = source.id).length ≤ 1 := by
  have lengths : collections.length =
      (collections.filter fun collection => collection.id = source.id).length +
        (collections.filter fun collection => collection.id ≠ source.id).length := by
    simpa using List.length_eq_length_filter_add (l := collections) fun collection =>
      decide (collection.id = source.id)
  have sameLength := perm.length_eq
  rw [List.length_map, List.length_map, List.length_insertIdx_of_le_length inRange] at sameLength
  omega

theorem moveCollection_collections_perm {before after : Workspace} {move : CollectionMove}
    (safe : MoveSafe before (.collection move))
    (accepted : moveCollection before move = some after) :
    after.collections.Perm before.collections := by
  rcases moveCollection_cases accepted with
    ⟨source, index, different, sourceFound, target, inRange, rfl⟩
  have sourceId : source.id = move.collectionId := by simpa using List.find?_some sourceFound
  apply reinsert_perm (List.mem_of_find?_eq_some sourceFound) inRange
  rw [sourceId]
  exact safe different target

theorem moveCollection_isSome {workspace : Workspace} {move : CollectionMove}
    (different : move.collectionId ≠ move.targetCollectionId)
    (sourcePresent : ∃ source ∈ workspace.collections, source.id = move.collectionId)
    (targetPresent : ∃ target ∈ workspace.collections, target.id = move.targetCollectionId) :
    ∃ after, moveCollection workspace move = some after := by
  rcases sourcePresent with ⟨source, sourceMem, sourceId⟩
  rcases targetPresent with ⟨target, targetMem, targetId⟩
  cases sourceFound : workspace.collections.find? (fun collection =>
      decide (collection.id = move.collectionId)) with
  | none =>
      have absent := List.find?_eq_none.mp sourceFound source sourceMem
      simp [sourceId] at absent
  | some found =>
      cases targetFound : workspace.collections.findIdx? (fun collection =>
          decide (collection.id = move.targetCollectionId)) with
      | none =>
          have absent := List.findIdx?_eq_none_iff.mp targetFound target targetMem
          simp [targetId] at absent
      | some index => simp [moveCollection, different, sourceFound, targetFound]

/-! ## Steps -/

theorem Endpoints.moveResource_eq {workspace : Workspace} {move : ResourceMove}
    {sourceIndex targetIndex : ℕ} {source target : Collection}
    (endpoints : Endpoints workspace move sourceIndex targetIndex source target) :
    moveResource workspace move =
      match move.kind with
      | .request => moveRequest workspace move sourceIndex targetIndex source target
      | .folder => moveFolder workspace move sourceIndex targetIndex source target := by
  have parentOk := endpoints.parentOk
  have accepted : ¬ (move.targetParentId ≠ "" ∧ move.targetParentId ∉ target.folderIds) := by
    tauto
  cases kindEq : move.kind with
  | request =>
      simp only [moveResource, endpoints.sourceFound, endpoints.targetFound,
        endpoints.sourceAt, endpoints.targetAt, if_neg accepted, kindEq]
  | folder =>
      simp only [moveResource, endpoints.sourceFound, endpoints.targetFound,
        endpoints.sourceAt, endpoints.targetAt, if_neg accepted, kindEq]

theorem RequestAccepted.moveRequest_isSome {move : ResourceMove} {sourceIndex targetIndex : ℕ}
    {source target : Collection} {request : ApiRequest}
    (accepted : RequestAccepted move sourceIndex targetIndex source target request)
    (workspace : Workspace) :
    ∃ after, moveRequest workspace move sourceIndex targetIndex source target = some after := by
  have absent := accepted.absent
  unfold moveRequest
  rw [accepted.found]
  dsimp only
  rw [if_neg (by tauto), if_neg accepted.placed]
  split
  · exact ⟨_, rfl⟩
  · exact ⟨_, rfl⟩

/-- An accepted request move leaves every collection well formed exactly when the
receiving collection has no folder of its id. -/
theorem moveRequest_wellFormed_iff {before after : Workspace} {move : ResourceMove}
    {sourceIndex targetIndex : ℕ} {source target : Collection} {request : ApiRequest}
    (wellFormed : before.WellFormed)
    (endpoints : Endpoints before move sourceIndex targetIndex source target)
    (requestAccepted : RequestAccepted move sourceIndex targetIndex source target request)
    (accepted : moveRequest before move sourceIndex targetIndex source target = some after) :
    after.WellFormed ↔ (sourceIndex ≠ targetIndex → request.id ∉ target.folderIds) := by
  have sourceOk := wellFormed source endpoints.source_mem
  have targetOk := wellFormed target endpoints.target_mem
  rcases moveRequest_cases accepted with ⟨found, foundAccepted, within | across⟩
  · rcases within with ⟨same, updated, rebuilt, rfl⟩
    refine iff_of_true ?_ fun different => absurd same different
    exact wellFormed_set wellFormed rfl
      (rebuilt.wellFormed (requestWithin_wellFormed sourceOk _ found))
  · rcases across with ⟨different, updatedSource, updatedTarget, rebuiltSource, rebuiltTarget, rfl⟩
    have sameRequest := foundAccepted.found.symm.trans requestAccepted.found
    simp only [Option.some.injEq] at sameRequest
    subst found
    have added := requestAdded_wellFormed_iff targetOk move.targetParentId
      (requestAccepted.absent different)
    constructor
    · intro afterOk _
      have targetInRange := (List.getElem?_eq_some_iff.mp endpoints.targetAt).1
      refine added.mp (rebuiltTarget.hierarchy (afterOk updatedTarget ?_))
      exact List.mem_set (by simpa using targetInRange) _
    · intro safe
      have sourceLeft : Workspace.WellFormed
          { before with collections := before.collections.set sourceIndex updatedSource } :=
        wellFormed_set wellFormed rfl
          (rebuiltSource.wellFormed (requestTaken_wellFormed sourceOk _))
      exact wellFormed_set sourceLeft rfl (rebuiltTarget.wellFormed (added.mpr (safe different)))

/-- A safe move changes nothing but the place of its root. -/
theorem moveWorkspaceResource_movedExactly {workspace : Workspace} {move : WorkspaceResourceMove}
    (wellFormed : workspace.WellFormed) (safe : MoveSafe workspace move) :
    MovedExactly workspace move (moveWorkspaceResource workspace move) := by
  cases move with
  | collection move =>
      cases accepted : moveCollection workspace move with
      | none =>
          simp only [moveWorkspaceResource, accepted, Option.getD_none]
          exact MovedExactly.refl _ _
      | some after =>
          simp only [moveWorkspaceResource, accepted, Option.getD_some]
          have perm := moveCollection_collections_perm safe accepted
          refine ⟨fun _ _ => perm, perm.map _, Or.inl ?_, Or.inl ?_, by simp⟩
          · exact (perm.flatMap_right _).map _
          · exact perm.flatMap_right _
  | resource move =>
      cases accepted : moveResource workspace move with
      | none =>
          simp only [moveWorkspaceResource, accepted, Option.getD_none]
          exact MovedExactly.refl _ _
      | some after =>
          simp only [moveWorkspaceResource, accepted, Option.getD_some]
          rcases moveResource_cases accepted with
            ⟨_, _, _, _, endpoints, asRequest, asFolder⟩
          cases kind : move.kind with
          | request => exact moveRequest_movedExactly kind wellFormed endpoints (asRequest kind)
          | folder => exact moveFolder_movedExactly kind wellFormed endpoints (asFolder kind)

theorem moveWorkspaceResource_wellFormed {workspace : Workspace} {move : WorkspaceResourceMove}
    (wellFormed : workspace.WellFormed) (safe : MoveSafe workspace move) :
    (moveWorkspaceResource workspace move).WellFormed := by
  cases move with
  | collection move =>
      cases accepted : moveCollection workspace move with
      | none => simpa [moveWorkspaceResource, accepted] using wellFormed
      | some after =>
          simp only [moveWorkspaceResource, accepted, Option.getD_some]
          intro collection collectionMem
          have perm := moveCollection_collections_perm safe accepted
          exact wellFormed collection (perm.mem_iff.mp collectionMem)
  | resource move =>
      cases accepted : moveResource workspace move with
      | none => simpa [moveWorkspaceResource, accepted] using wellFormed
      | some after =>
          simp only [moveWorkspaceResource, accepted, Option.getD_some]
          rcases moveResource_cases accepted with
            ⟨_, _, _, _, endpoints, asRequest, asFolder⟩
          cases kind : move.kind with
          | request =>
              rcases moveRequest_cases (asRequest kind) with ⟨request, requestAccepted, _⟩
              exact (moveRequest_wellFormed_iff wellFormed endpoints requestAccepted
                (asRequest kind)).mpr (safe kind _ _ _ _ _ endpoints requestAccepted)
          | folder => exact moveFolder_wellFormed wellFormed endpoints (asFolder kind)

/-- A move that keeps the hierarchy and the resources is a safe one. -/
theorem moveSafe_of_kept {workspace : Workspace} {move : WorkspaceResourceMove}
    (wellFormed : workspace.WellFormed)
    (afterOk : (moveWorkspaceResource workspace move).WellFormed)
    (conserved : Conserved workspace (moveWorkspaceResource workspace move)) :
    MoveSafe workspace move := by
  cases move with
  | collection move =>
      intro different targetPresent
      by_cases sourcePresent : ∃ source ∈ workspace.collections, source.id = move.collectionId
      · rcases moveCollection_isSome different sourcePresent targetPresent with ⟨after, accepted⟩
        simp only [moveWorkspaceResource, accepted, Option.getD_some] at conserved
        rcases moveCollection_cases accepted with
          ⟨source, index, _, sourceFound, _, inRange, rfl⟩
        have sourceId : source.id = move.collectionId := by
          simpa using List.find?_some sourceFound
        rw [← sourceId]
        exact unique_of_reinsert_perm inRange conserved.collections
      · have none : (workspace.collections.filter fun collection =>
            decide (collection.id = move.collectionId)) = [] := by
          rw [List.filter_eq_nil_iff]
          intro collection collectionMem idEq
          exact sourcePresent ⟨collection, collectionMem, of_decide_eq_true idEq⟩
        rw [none]
        exact Nat.zero_le 1
  | resource move =>
      intro kind sourceIndex targetIndex source target request endpoints requestAccepted
      rcases requestAccepted.moveRequest_isSome workspace with ⟨after, accepted⟩
      have moved : moveResource workspace move = some after := by
        rw [endpoints.moveResource_eq, kind]
        exact accepted
      simp only [moveWorkspaceResource, moved, Option.getD_some] at afterOk
      exact (moveRequest_wellFormed_iff wellFormed endpoints requestAccepted accepted).mp afterOk

/-! ## Runs -/

/-- The states of a run that are well formed and hold the resources of its first state. -/
def KeepsResources (initial state : Workspace) : Prop :=
  state.WellFormed ∧ Conserved initial state

theorem keepsResources_step_iff {initial state : Workspace} (kept : KeepsResources initial state)
    (move : WorkspaceResourceMove) :
    KeepsResources initial (moveWorkspaceResource state move) ↔ MoveSafe state move := by
  constructor
  · rintro ⟨afterOk, conserved⟩
    exact moveSafe_of_kept kept.1 afterOk (kept.2.symm.trans conserved)
  · intro safe
    refine ⟨moveWorkspaceResource_wellFormed kept.1 safe, kept.2.trans ?_⟩
    exact (moveWorkspaceResource_movedExactly kept.1 safe).conserved

/-- A sequence of moves keeps every collection a forest with unique ids, conserves
the resources, and changes in each step only the place of the moved root, exactly
when every move of it is safe. -/
theorem moves_keep_resources_iff (initial : Workspace) (wellFormed : initial.WellFormed)
    (moves : List WorkspaceResourceMove) :
    (EveryState moveWorkspaceResource initial moves (KeepsResources initial) ∧
      EveryStep moveWorkspaceResource initial moves fun state move =>
        MovedExactly state move (moveWorkspaceResource state move)) ↔
      EveryStep moveWorkspaceResource initial moves MoveSafe := by
  have start : KeepsResources initial initial := ⟨wellFormed, Conserved.refl initial⟩
  have states_iff := everyState_iff_everyStep moves start fun _ move kept =>
    keepsResources_step_iff kept move
  constructor
  · rintro ⟨kept, _⟩
    exact states_iff.mp kept
  · intro safe
    have kept := states_iff.mpr safe
    refine ⟨kept, fun n inRange => ?_⟩
    exact moveWorkspaceResource_movedExactly (kept n (Nat.le_of_lt inRange)).1 (safe n inRange)

/-- A request and a folder of another collection share an id. -/
def sharedIdWorkspace : Workspace where
  collections := [
    { id := "orders", expanded := true, folders := none, resourceOrder := none, content := .null
      requests := [{ id := "list", folderId := none, content := .str "GET" }] },
    { id := "billing", expanded := true, resourceOrder := none, content := .null, requests := []
      folders := some [{ id := "list", parentId := "", expanded := false, content := .null }] }]
  content := .null

def moveIntoSharedId : WorkspaceResourceMove :=
  .resource
    { kind := .request, collectionId := "orders", resourceId := "list"
      targetCollectionId := "billing", targetParentId := "", targetResourceId := none
      placement := none }

theorem sharedIdWorkspace_wellFormed : sharedIdWorkspace.WellFormed := by
  intro collection collectionMem
  simp only [sharedIdWorkspace, List.mem_cons, List.not_mem_nil, or_false] at collectionMem
  rcases collectionMem with rfl | rfl
  · exact ⟨by decide, Forest.of_rank (fun _ => 0) (by decide) (by decide)⟩
  · exact ⟨by decide, Forest.of_rank (fun _ => 0) (by decide) (by decide)⟩

/-- The request path of the move has no check against folder ids, unlike the folder path. -/
theorem request_move_duplicates_id :
    sharedIdWorkspace.WellFormed ∧
      ¬ (moveWorkspaceResource sharedIdWorkspace moveIntoSharedId).WellFormed := by
  refine ⟨sharedIdWorkspace_wellFormed, fun wellFormed => ?_⟩
  have duplicated : ∃ collection ∈
      (moveWorkspaceResource sharedIdWorkspace moveIntoSharedId).collections,
        ¬ collection.resourceIds.Nodup := by decide
  rcases duplicated with ⟨collection, collectionMem, notNodup⟩
  exact notNodup (wellFormed collection collectionMem).nodup

/-- A folder with a subfolder, and a collection to move it to. -/
def nestedWorkspace : Workspace where
  collections := [
    { id := "orders", expanded := true, resourceOrder := none, content := .null
      folders := some [
        { id := "archive", parentId := "old", expanded := true, content := .null },
        { id := "old", parentId := "", expanded := true, content := .null }]
      requests := [{ id := "list", folderId := some "archive", content := .str "GET" }] },
    { id := "billing", expanded := true, resourceOrder := none, content := .null, requests := []
      folders := none }]
  content := .null

def moveFolderAway : WorkspaceResourceMove :=
  .resource
    { kind := .folder, collectionId := "orders", resourceId := "old"
      targetCollectionId := "billing", targetParentId := "", targetResourceId := none
      placement := none }

theorem nestedWorkspace_wellFormed : nestedWorkspace.WellFormed := by
  intro collection collectionMem
  simp only [nestedWorkspace, List.mem_cons, List.not_mem_nil, or_false] at collectionMem
  rcases collectionMem with rfl | rfl
  · refine ⟨by decide, Forest.of_rank (fun id => if id = "archive" then 1 else 0) (by decide) ?_⟩
    decide
  · exact ⟨by decide, Forest.of_rank (fun _ => 0) (by decide) (by decide)⟩

theorem nestedWorkspace_keeps_resources :
    EveryState moveWorkspaceResource nestedWorkspace [moveFolderAway, moveFolderAway]
        (KeepsResources nestedWorkspace) ∧
      EveryStep moveWorkspaceResource nestedWorkspace [moveFolderAway, moveFolderAway]
        fun state move => MovedExactly state move (moveWorkspaceResource state move) := by
  refine (moves_keep_resources_iff nestedWorkspace nestedWorkspace_wellFormed _).mpr ?_
  rintro n inRange
  have moveEq : [moveFolderAway, moveFolderAway][n] = moveFolderAway := by
    rcases n with _ | _ | n
    · rfl
    · rfl
    · simp at inRange
  rw [moveEq]
  exact fun kind => absurd kind (by simp)

end Brunomnia.Resources
