import Brunomnia.Resources.PlacedMoves

/-!
# Moves from the keyboard

`keyboardWorkspaceResourceMove` plans the move that a key asks for: past a sibling, to one end,
into the folder before, or out of the folder around. This file models the plan and shows what
the planned move makes of the collection.
-/

namespace Brunomnia.Resources

open Brunomnia.Library

inductive KeyboardAction where
  | up
  | down
  | first
  | last
  | indent
  | outdent
  deriving DecidableEq

inductive KeyboardTarget where
  | collection (collectionId : String)
  | resource (collectionId : String) (ref : CollectionResourceRef)

/-- The item that an action passes. There is none before the first item. -/
def actionSibling {Item : Type} (items : List Item) (index : ℕ) (action : KeyboardAction) :
    Option Item :=
  match action with
  | .up => if index = 0 then none else items[index - 1]?
  | .down => items[index + 1]?
  | .first => items[0]?
  | _ => items[items.length - 1]?

def actionPlacement (action : KeyboardAction) : Placement :=
  if action = .down ∨ action = .last then .after else .before

def keyboardCollectionMove (workspace : Workspace) (collectionId : String)
    (action : KeyboardAction) : Option CollectionMove :=
  match workspace.collections.findIdx? (fun collection => collection.id = collectionId) with
  | none => none
  | some index =>
      if workspace.collections.length < 2 ∨ action = .indent ∨ action = .outdent then none
      else
        match actionSibling workspace.collections index action with
        | none => none
        | some sibling =>
            if sibling.id = collectionId then none
            else some {
              collectionId
              targetCollectionId := sibling.id
              placement := actionPlacement action }

/-- The parent that the link of a folder or request names, if the collection has it. -/
def Collection.parentOf (collection : Collection) (ref : CollectionResourceRef) :
    Option String :=
  match ref.kind with
  | .folder =>
      (collection.folderList.find? fun candidate => candidate.id = ref.id).map
        RequestFolder.parentId
  | .request =>
      (collection.requests.find? fun candidate => candidate.id = ref.id).map
        fun request => request.folderId.getD ""

/-- The move of a resource within its collection. -/
def keyboardMove (collection : Collection) (ref : CollectionResourceRef) (parentId : String)
    (targetResourceId : Option String) (placement : Option Placement) : ResourceMove where
  kind := ref.kind
  collectionId := collection.id
  resourceId := ref.id
  targetCollectionId := collection.id
  targetParentId := parentId
  targetResourceId := targetResourceId
  placement := placement

def keyboardResourceMove (collection : Collection) (ref : CollectionResourceRef)
    (action : KeyboardAction) : Option ResourceMove :=
  match collection.parentOf ref with
  | none => none
  | some parentId =>
      let siblings := orderedCollectionChildren collection parentId
      match siblings.findIdx? (fun candidate => candidate = ref) with
      | none => none
      | some index =>
          match action with
          | .indent =>
              match actionSibling siblings index .up with
              | some ⟨.folder, previousId⟩ =>
                  some (keyboardMove collection ref previousId none none)
              | _ => none
          | .outdent =>
              match collection.folderList.find? (fun candidate => candidate.id = parentId) with
              | none => none
              | some parent =>
                  some (keyboardMove collection ref parent.parentId (some parent.id)
                    (some .after))
          | _ =>
              match actionSibling siblings index action with
              | none => none
              | some sibling =>
                  if sibling.id = ref.id then none
                  else some (keyboardMove collection ref parentId (some sibling.id)
                    (some (actionPlacement action)))

def Workspace.collectionWithId (workspace : Workspace) (collectionId : String) :
    Option Collection :=
  workspace.collections.find? fun candidate => candidate.id = collectionId

def keyboardWorkspaceResourceMove (workspace : Workspace) (target : KeyboardTarget)
    (action : KeyboardAction) : Option WorkspaceResourceMove :=
  match target with
  | .collection collectionId =>
      (keyboardCollectionMove workspace collectionId action).map .collection
  | .resource collectionId ref =>
      match workspace.collectionWithId collectionId with
      | none => none
      | some collection => (keyboardResourceMove collection ref action).map .resource

/-- A key changes nothing where no move is planned. -/
def press (workspace : Workspace) (target : KeyboardTarget) (action : KeyboardAction) :
    Workspace :=
  match keyboardWorkspaceResourceMove workspace target action with
  | none => workspace
  | some move => moveWorkspaceResource workspace move

/-! ## Coherent collections -/

/-- A well-formed collection in which no resource has the empty id, which stands for the top
level, and the links of requests name what is there. -/
structure Collection.Coherent (collection : Collection) : Prop where
  wellFormed : collection.WellFormed
  named : "" ∉ collection.resourceIds
  requestsLinked : ∀ request ∈ collection.requests,
    collection.IsParent (request.folderId.getD "")

def Workspace.Coherent (workspace : Workspace) : Prop :=
  ∀ collection ∈ workspace.collections, collection.Coherent

section Coherent

variable {collection : Collection} (coherent : collection.Coherent)
include coherent

theorem Collection.Coherent.foldersNamed : "" ∉ collection.folderIds :=
  fun isFolder => coherent.named (List.mem_append_left _ isFolder)

theorem Collection.Coherent.foldersLinked {folder : RequestFolder}
    (listed : folder ∈ collection.folderList) : collection.IsParent folder.parentId := by
  by_cases isEmpty : folder.parentId = ""
  · exact Or.inl isEmpty
  · right
    have linkMem : folder.upwardLink ∈ collection.folderList.map RequestFolder.upwardLink :=
      List.mem_map_of_mem listed
    have parentMem := coherent.wellFormed.forest.parents _ linkMem folder.parentId
      (by simp [RequestFolder.upwardLink, RequestFolder.parent?, isEmpty])
    rwa [map_upwardLink_fst] at parentMem

/-- Links to the empty id run in no cycle, as nothing has it. -/
theorem Collection.Coherent.consistent : collection.Consistent where
  nodup := coherent.wellFormed.nodup
  acyclic := by
    intro id cycle
    apply coherent.wellFormed.forest.acyclic id
    have upward : ∀ child parent, collection.InParent child parent → parent ≠ "" →
        UpwardLink (collection.folderList.map RequestFolder.upwardLink) child parent := by
      rintro child parent ⟨folder, folderMem, rfl, linked⟩ notEmpty
      cases linked
      refine ⟨_, List.mem_map_of_mem folderMem, rfl, ?_⟩
      simp [RequestFolder.upwardLink, RequestFolder.parent?, notEmpty]
    have childNamed : ∀ child parent, collection.InParent child parent → child ≠ "" := by
      rintro child parent ⟨folder, folderMem, rfl, _⟩ isEmpty
      apply coherent.foldersNamed
      rw [← isEmpty]
      exact List.mem_map_of_mem folderMem
    have named : ∀ last, Relation.TransGen collection.InParent id last → last ≠ "" →
        Relation.TransGen
          (UpwardLink (collection.folderList.map RequestFolder.upwardLink)) id last := by
      intro last path
      induction path with
      | single link => exact fun notEmpty => .single (upward _ _ link notEmpty)
      | tail path link ih =>
          exact fun notEmpty => .tail (ih (childNamed _ _ link)) (upward _ _ link notEmpty)
    apply named id cycle
    rcases Relation.TransGen.head'_iff.mp cycle with ⟨_, link, _⟩
    exact childNamed _ _ link
  named := coherent.foldersNamed

end Coherent

end Brunomnia.Resources
