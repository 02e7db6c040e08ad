import Brunomnia.Library.Expansion
import Brunomnia.Library.Lists
import Brunomnia.Resources.Hierarchy

/-!
# The selection of a run

A resource is selected by its name or by the beginning of its id. The items of a collection run
are requests, by id or by name, and folders, which stand for the requests below them in the
order of the tree.
-/

namespace Brunomnia.RunnerCli

open Library Resources

/-! ## Resources -/

section Resource

variable {Resource : Type*}

structure Named (Resource : Type*) where
  id : Resource → String
  name : Resource → String

def Named.matches (named : Named Resource) (identifier : String) (resource : Resource) : Bool :=
  identifier.toList <+: (named.id resource).toList ∨ named.name resource = identifier

def selectRunnerResource (named : Named Resource) (resources : List Resource)
    (identifier entity : String) : Except String Resource :=
  match resources.filter (named.matches identifier) with
  | [] => .error ("No " ++ entity ++ " found with ID prefix or name \"" ++ identifier ++ "\".")
  | [resource] => .ok resource
  | _ => .error
      ("Multiple " ++ entity ++ "s matched ID prefix or name \"" ++ identifier ++ "\".")

/-- No other id begins with the id of a resource, and no other resource has it as its name. -/
def Unambiguous (named : Named Resource) (resources : List Resource) (resource : Resource) :
    Prop :=
  ∀ other ∈ resources, other ≠ resource → named.matches (named.id resource) other = false

/-- The full id selects a resource exactly if it matches no other one. -/
theorem selectRunnerResource_id_iff {named : Named Resource} {resources : List Resource}
    (unique : (resources.map named.id).Nodup) {resource : Resource}
    (resourceMem : resource ∈ resources) (entity : String) :
    selectRunnerResource named resources (named.id resource) entity = .ok resource ↔
      Unambiguous named resources resource := by
  have own : resource ∈ resources.filter (named.matches (named.id resource)) :=
    List.mem_filter.mpr ⟨resourceMem, by simp [Named.matches]⟩
  have nodup := (unique.of_map).filter (named.matches (named.id resource))
  constructor
  · intro selected other otherMem different
    cases isMatch : named.matches (named.id resource) other with
    | false => rfl
    | true =>
        have inFilter := List.mem_filter.mpr ⟨otherMem, isMatch⟩
        rw [selectRunnerResource] at selected
        split at selected
        · cases selected
        case h_2 only onlyEq =>
          rw [onlyEq, List.mem_singleton] at inFilter own
          exact absurd (inFilter.trans own.symm) different
        · cases selected
  · intro unambiguous
    have only : resources.filter (named.matches (named.id resource)) = [resource] := by
      apply List.perm_singleton.mp
      apply (List.perm_ext_iff_of_nodup nodup (List.nodup_singleton _)).mpr
      intro other
      rw [List.mem_singleton]
      constructor
      · intro otherMem
        by_contra different
        rcases List.mem_filter.mp otherMem with ⟨otherMem, isMatch⟩
        rw [unambiguous other otherMem different] at isMatch
        cases isMatch
      · rintro rfl
        exact own
    rw [selectRunnerResource, only]

end Resource

/-! ## Items -/

def treeNode (child : CollectionResourceRef) : String ⊕ String :=
  match child.kind with
  | .folder => .inl child.id
  | .request => .inr child.id

/-- What is displayed directly below a folder. -/
def treeChildren (collection : Collection) (folderId : String) : List (String ⊕ String) :=
  (orderedCollectionChildren collection folderId).map treeNode

/-- The pending children, the next one first, are worked off; every folder is entered once. -/
def runnerFolderRequestIds (collection : Collection) (folderId : String) : List String :=
  expand (treeChildren collection)
    ((treeChildren collection folderId).length +
      (collection.folderIds.map fun id => (treeChildren collection id).length).sum + 1)
    (treeChildren collection folderId) [folderId]

def resolveRunnerItem (collection : Collection) (identifier : String) :
    Except String (List String) :=
  if identifier ∈ collection.folderIds then .ok (runnerFolderRequestIds collection identifier)
  else if identifier ∈ collection.requestIds then .ok [identifier]
  else
    match collection.requests.filter fun request =>
        request.content.text "name" = identifier with
    | [] => .error ("Item '" ++ identifier ++ "' was not found in collection '" ++
        collection.content.text "name" ++ "'.")
    | [request] => .ok [request.id]
    | _ => .error ("Request name '" ++ identifier ++ "' is ambiguous in collection '" ++
        collection.content.text "name" ++ "'. Use its ID.")

def resolveRunnerItemRequestIds (collection : Collection) (identifiers : List String) :
    Except String (List String) :=
  (identifiers.mapM (resolveRunnerItem collection)).map fun ids => ids.flatten.eraseDups

/-! ## The tree -/

/-- The folder that a folder or a request is displayed below. -/
def treeParent (collection : Collection) : String ⊕ String → Option String
  | .inl id => (lastWithId RequestFolder.id collection.folderList id).map RequestFolder.parentId
  | .inr id => (lastWithId ApiRequest.id collection.requests id).map fun request =>
      request.folderId.getD ""

theorem treeParent_of_mem {collection : Collection} {parentId : String}
    {node : String ⊕ String} (nodeMem : node ∈ treeChildren collection parentId) :
    treeParent collection node = some parentId := by
  rcases List.mem_map.mp nodeMem with ⟨child, childMem, rfl⟩
  rcases List.mem_flatMap.mp childMem with ⟨id, _, inChunk⟩
  split at inChunk
  case isTrue isFolder =>
    cases List.mem_singleton.mp inChunk
    exact isFolder
  case isFalse =>
    split at inChunk
    case h_1 request found =>
      split at inChunk
      case isTrue isParent =>
        cases List.mem_singleton.mp inChunk
        simp only [treeNode, treeParent, found, Option.map_some, isParent]
      case isFalse => cases inChunk
    case h_2 => cases inChunk

theorem ids_orderedCollectionChildren_sublist (collection : Collection) (parentId : String) :
    ((orderedCollectionChildren collection parentId).map CollectionResourceRef.id).Sublist
      (collectionResourceOrder collection) := by
  unfold orderedCollectionChildren
  induction collectionResourceOrder collection with
  | nil => exact List.Sublist.refl _
  | cons id order ih =>
      rw [List.flatMap_cons, List.map_append]
      suffices own : List.Sublist _ [id] from own.append ih
      split
      case isTrue => exact List.Sublist.refl _
      case isFalse =>
        split
        case h_1 =>
          split
          case isTrue => exact List.Sublist.refl _
          case isFalse => exact List.nil_sublist _
        case h_2 => exact List.nil_sublist _

theorem treeNode_injective : Function.Injective treeNode := by
  rintro ⟨leftKind, leftId⟩ ⟨rightKind, rightId⟩ same
  cases leftKind <;> cases rightKind <;> simp_all [treeNode]

theorem oneParent_treeChildren (collection : Collection) :
    OneParent (treeChildren collection) where
  nodup := by
    intro parentId
    have ids := (nodup_eraseDups _).sublist
      (ids_orderedCollectionChildren_sublist collection parentId)
    exact ids.of_map.map treeNode_injective
  parent_unique := by
    intro node first second inFirst inSecond
    exact Option.some.inj ((treeParent_of_mem inFirst).symm.trans (treeParent_of_mem inSecond))

theorem mem_folderIds_of_treeChildren {collection : Collection} {parentId id : String}
    (childMem : .inl id ∈ treeChildren collection parentId) : id ∈ collection.folderIds := by
  rcases Option.map_eq_some_iff.mp (treeParent_of_mem childMem) with ⟨folder, found, _⟩
  have isId : folder.id = id := by simpa using List.find?_some found
  rw [← isId]
  exact List.mem_map_of_mem (List.mem_reverse.mp (List.mem_of_find?_eq_some found))

theorem runnerFolderRequestIds_listing (collection : Collection) (folderId : String) :
    Listing (treeChildren collection) folderId (treeChildren collection folderId)
      (runnerFolderRequestIds collection folderId) :=
  expand_children_listing (oneParent_treeChildren collection)
    (fun _ _ => mem_folderIds_of_treeChildren) folderId (Nat.lt_succ_self _)

/-! ## What items stand for -/

/-- The requests of an item in order: those of a folder, or the request itself. -/
def StandsFor (collection : Collection) (identifier : String) (ids : List String) : Prop :=
  if identifier ∈ collection.folderIds then
    Listing (treeChildren collection) identifier (treeChildren collection identifier) ids
  else ids = [identifier]

/-- A request is selected by its id, or by a folder that it is below. -/
def Selects (collection : Collection) (identifier id : String) : Prop :=
  if identifier ∈ collection.folderIds then
    ∃ parentId, Relation.ReflTransGen (IsChild (treeChildren collection)) identifier parentId ∧
      .inr id ∈ treeChildren collection parentId
  else id = identifier

theorem StandsFor.mem_iff {collection : Collection} {identifier : String} {ids : List String}
    (standsFor : StandsFor collection identifier ids) {id : String} :
    id ∈ ids ↔ Selects collection identifier id := by
  simp only [StandsFor, Selects] at standsFor ⊢
  split
  case isTrue isFolder =>
    rw [if_pos isFolder] at standsFor
    exact standsFor.mem_iff
  case isFalse notFolder =>
    rw [if_neg notFolder] at standsFor
    rw [standsFor, List.mem_singleton]

/-- Each selected request once, where it first comes up in the items. -/
structure SelectsOnce (collection : Collection) (identifiers ids : List String) : Prop where
  nodup : ids.Nodup
  mem_iff : ∀ id, id ∈ ids ↔ ∃ identifier ∈ identifiers, Selects collection identifier id
  order : ∃ listings, List.Forall₂ (StandsFor collection) identifiers listings ∧
    ids = listings.flatten.eraseDups

theorem resolveRunnerItem_standsFor {collection : Collection} {identifier : String}
    (known : identifier ∈ collection.resourceIds) :
    ∃ ids, resolveRunnerItem collection identifier = .ok ids ∧
      StandsFor collection identifier ids := by
  simp only [resolveRunnerItem, StandsFor]
  split
  case isTrue isFolder =>
    exact ⟨_, rfl, runnerFolderRequestIds_listing collection identifier⟩
  case isFalse notFolder =>
    have isRequest := (List.mem_append.mp known).resolve_left notFolder
    rw [if_pos isRequest]
    exact ⟨_, rfl, rfl⟩

theorem resolveRunnerItemRequestIds_selectsOnce {collection : Collection}
    {identifiers : List String} (known : ∀ identifier ∈ identifiers,
      identifier ∈ collection.resourceIds) :
    ∃ ids, resolveRunnerItemRequestIds collection identifiers = .ok ids ∧
      SelectsOnce collection identifiers ids := by
  rcases exists_forall₂ fun identifier identifierMem =>
    resolveRunnerItem_standsFor (known identifier identifierMem) with ⟨listings, pairs⟩
  have resolved := mapM_eq_ok_iff.mpr (pairs.imp fun _ _ pair => pair.1)
  refine ⟨listings.flatten.eraseDups, ?_, nodup_eraseDups _, ?_, listings,
    pairs.imp fun _ _ pair => pair.2, rfl⟩
  · rw [resolveRunnerItemRequestIds, resolved]
    rfl
  · intro id
    rw [List.mem_eraseDups, List.mem_flatten]
    constructor
    · rintro ⟨listing, listingMem, idMem⟩
      rcases exists_source pairs listingMem with ⟨identifier, identifierMem, _, standsFor⟩
      exact ⟨identifier, identifierMem, standsFor.mem_iff.mp idMem⟩
    · rintro ⟨identifier, identifierMem, selects⟩
      rcases exists_target pairs identifierMem with ⟨listing, listingMem, _, standsFor⟩
      exact ⟨listing, listingMem, standsFor.mem_iff.mpr selects⟩

end Brunomnia.RunnerCli
