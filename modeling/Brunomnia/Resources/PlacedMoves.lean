import Brunomnia.Resources.MoveRuns
import Brunomnia.Resources.PlacementFolders

/-!
# Moves place resources

An accepted move places its resource among the children of its target parent and leaves the
children of all other parents alone, unless what comes from another collection meets something
that has its id already.
-/

namespace Brunomnia.Resources

open Brunomnia.Library

/-- The children are placed, wherever the move goes. -/
def PlacesChildren (before : Workspace) (move : ResourceMove) (after : Workspace) : Prop :=
  ∀ sourceIndex targetIndex source target,
    Endpoints before move sourceIndex targetIndex source target →
      ChildrenPlaced before move after sourceIndex targetIndex source target

def MoveMeetsNothing (workspace : Workspace) (move : ResourceMove) : Prop :=
  ∀ sourceIndex targetIndex source target,
    Endpoints workspace move sourceIndex targetIndex source target → sourceIndex ≠ targetIndex →
      MeetsNothing move source target

section Accepted

variable {before after : Workspace} {move : ResourceMove} {sourceIndex targetIndex : ℕ}
  {source target : Collection}

theorem moveRequest_childrenPlaced_iff (sourceOk : source.Consistent)
    (targetOk : target.Consistent)
    (endpoints : Endpoints before move sourceIndex targetIndex source target)
    (isRequest : move.kind = .request)
    (accepted : moveRequest before move sourceIndex targetIndex source target = some after) :
    ChildrenPlaced before move after sourceIndex targetIndex source target ↔
      (sourceIndex ≠ targetIndex → MeetsNothing move source target) := by
  rcases moveRequest_placement accepted with
    ⟨request, requestAccepted, ⟨same, rfl⟩ | ⟨different, rfl⟩⟩
  · subst same
    cases endpoints.target_eq_source rfl
    refine iff_of_true ?_ (fun different => absurd rfl different)
    exact moveRequest_childrenPlaced_within sourceOk endpoints isRequest requestAccepted
  · rw [moveRequest_childrenPlaced_across_iff sourceOk targetOk endpoints different isRequest
      requestAccepted]
    exact ⟨fun meets _ => meets, fun meets => meets different⟩

theorem moveFolder_childrenPlaced_iff (sourceOk : source.Consistent)
    (targetOk : target.Consistent)
    (endpoints : Endpoints before move sourceIndex targetIndex source target)
    (isFolder : move.kind = .folder)
    (accepted : moveFolder before move sourceIndex targetIndex source target = some after) :
    ChildrenPlaced before move after sourceIndex targetIndex source target ↔
      (sourceIndex ≠ targetIndex → MeetsNothing move source target) := by
  rcases moveFolder_placement accepted with
    ⟨folder, folderAccepted, placed, ⟨same, rfl⟩ | ⟨different, rfl⟩⟩
  · subst same
    cases endpoints.target_eq_source rfl
    refine iff_of_true ?_ (fun different => absurd rfl different)
    exact moveFolder_childrenPlaced_within sourceOk endpoints isFolder folderAccepted placed
  · rw [moveFolder_childrenPlaced_across_iff sourceOk targetOk endpoints different isFolder
      folderAccepted placed]
    exact ⟨fun meets _ => meets, fun meets => meets different⟩

theorem moveResource_childrenPlaced_iff (consistent : before.Consistent)
    (endpoints : Endpoints before move sourceIndex targetIndex source target)
    (accepted : moveResource before move = some after) :
    ChildrenPlaced before move after sourceIndex targetIndex source target ↔
      (sourceIndex ≠ targetIndex → MeetsNothing move source target) := by
  rcases moveResource_cases accepted with
    ⟨otherSourceIndex, otherTargetIndex, otherSource, otherTarget, others, asRequest, asFolder⟩
  rcases endpoints.unique others with ⟨rfl, rfl, rfl, rfl⟩
  have sourceOk := consistent source endpoints.source_mem
  have targetOk := consistent target endpoints.target_mem
  cases kind : move.kind with
  | request =>
      exact moveRequest_childrenPlaced_iff sourceOk targetOk endpoints kind (asRequest kind)
  | folder =>
      exact moveFolder_childrenPlaced_iff sourceOk targetOk endpoints kind (asFolder kind)

end Accepted

/-- An accepted move places its resource and leaves all other children alone exactly if it
meets nothing that has its id already. -/
theorem moveWorkspaceResource_placesChildren_iff {workspace : Workspace}
    (consistent : workspace.Consistent) {move : ResourceMove}
    (accepted : (moveResource workspace move).isSome) :
    PlacesChildren workspace move (moveWorkspaceResource workspace (.resource move)) ↔
      MoveMeetsNothing workspace move := by
  rcases Option.isSome_iff_exists.mp accepted with ⟨after, moves⟩
  have moved : moveWorkspaceResource workspace (.resource move) = after := by
    simp [moveWorkspaceResource, moves]
  rw [moved]
  apply forall_congr'
  intro sourceIndex
  apply forall_congr'
  intro targetIndex
  apply forall_congr'
  intro source
  apply forall_congr'
  intro target
  apply imp_congr_right
  intro endpoints
  exact moveResource_childrenPlaced_iff consistent endpoints moves

/-! ## A folder that keeps its children, and a request that is not shown -/

theorem nestedWorkspace_consistent : nestedWorkspace.Consistent := by
  intro collection collectionMem
  simp only [nestedWorkspace, List.mem_cons, List.not_mem_nil, or_false] at collectionMem
  rcases collectionMem with rfl | rfl
  · refine ⟨by decide, ?_, by decide⟩
    apply Acyclic.of_rank fun id => if id = "archive" then 2 else if id = "old" then 1 else 0
    rintro child parent ⟨folder, folderMem, rfl, linked⟩
    simp only [Collection.folderList, Option.getD_some, List.mem_cons, List.not_mem_nil,
      or_false] at folderMem
    rcases folderMem with rfl | rfl
    · cases linked
      decide
    · cases linked
      decide
  · refine ⟨by decide, ?_, by decide⟩
    rintro id cycle
    rcases Relation.TransGen.head'_iff.mp cycle with ⟨_, ⟨folder, folderMem, _⟩, _⟩
    cases folderMem

/-- The folder with a subfolder goes to the other collection. -/
def folderAway : ResourceMove where
  kind := .folder
  collectionId := "orders"
  resourceId := "old"
  targetCollectionId := "billing"
  targetParentId := ""
  targetResourceId := none
  placement := none

theorem nestedWorkspace_placesChildren :
    PlacesChildren nestedWorkspace folderAway
      (moveWorkspaceResource nestedWorkspace (.resource folderAway)) := by
  apply (moveWorkspaceResource_placesChildren_iff nestedWorkspace_consistent (by decide)).mpr
  intro sourceIndex targetIndex source target endpoints _
  have isSecond : targetIndex = 1 := by
    have found := endpoints.targetFound
    rw [show nestedWorkspace.collections.findIdx? (fun collection =>
      collection.id = folderAway.targetCollectionId) = some 1 by decide] at found
    exact (Option.some.inj found).symm
  have targetAt := endpoints.targetAt
  rw [isSecond] at targetAt
  cases targetAt
  intro parentId _
  constructor
  · intro folder folderMem
    cases folderMem
  · intro request requestMem
    cases requestMem

/-- The only request of a collection goes to one that has a folder with its id. -/
def requestIntoSharedId : ResourceMove where
  kind := .request
  collectionId := "orders"
  resourceId := "list"
  targetCollectionId := "billing"
  targetParentId := ""
  targetResourceId := none
  placement := none

theorem sharedIdWorkspace_consistent : sharedIdWorkspace.Consistent := by
  intro collection collectionMem
  simp only [sharedIdWorkspace, List.mem_cons, List.not_mem_nil, or_false] at collectionMem
  rcases collectionMem with rfl | rfl
  · refine ⟨by decide, ?_, by decide⟩
    rintro id cycle
    rcases Relation.TransGen.head'_iff.mp cycle with ⟨_, ⟨folder, folderMem, _⟩, _⟩
    cases folderMem
  · refine ⟨by decide, ?_, by decide⟩
    apply Acyclic.of_rank fun id => if id = "" then 0 else 1
    rintro child parent ⟨folder, folderMem, rfl, linked⟩
    cases List.mem_singleton.mp folderMem
    cases linked
    decide

theorem request_not_placed :
    sharedIdWorkspace.Consistent ∧ (moveResource sharedIdWorkspace requestIntoSharedId).isSome ∧
      ¬ PlacesChildren sharedIdWorkspace requestIntoSharedId
        (moveWorkspaceResource sharedIdWorkspace (.resource requestIntoSharedId)) := by
  refine ⟨sharedIdWorkspace_consistent, by decide, ?_⟩
  intro places
  have children := (places 0 1 _ _ ⟨by decide, by decide, rfl, rfl, by decide⟩).placed _ rfl
  revert children
  decide

end Brunomnia.Resources
