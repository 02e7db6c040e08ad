import Brunomnia.Governance.Authority

/-!
# Writing the view back

A member works on the part of a workspace that it may see. Written back, the view leaves
everything else as it was, as long as there is a current member: without one the view is empty,
and it is written back as it is. The selected request is part of the view, too, so an edit
moves a selection that the member does not see.
-/

namespace Brunomnia.Governance

open Library

/-! ## Resources -/

section Resources

variable {Item : Type} {ident : Item → String} {mayEdit : String → Bool}

/-- The items with the changed one in place of the one with its id. -/
def replaceItem (ident : Item → String) (items : List Item) (changed : Item) : List Item :=
  items.map fun item => if ident item = ident changed then changed else item

theorem lastValue_of_nodup {items : List Item} (nodup : (items.map ident).Nodup) {item : Item}
    (itemMem : item ∈ items) :
    lastValue (items.map fun item => (ident item, item)) (ident item) = some item := by
  have entryMem : (ident item, item) ∈ items.map fun item => (ident item, item) :=
    List.mem_map.mpr ⟨item, itemMem, rfl⟩
  apply lastValue_eq_some_of_unique entryMem
  intro other otherMem
  rcases List.mem_map.mp otherMem with ⟨same, sameMem, entryEq⟩
  rw [Prod.mk.injEq] at entryEq
  rcases entryEq with ⟨idEq, rfl⟩
  exact List.inj_on_of_nodup_map nodup sameMem itemMem idEq

/-- Editable items become what was made of them in the view; the others stay. -/
theorem enforcedResources_view {items : List Item} {visible : Item → Bool}
    {edit : Item → Item} {role : GovernanceRole} (nodup : (items.map ident).Nodup)
    (editableVisible : ∀ item ∈ items, mayEdit (ident item) = true → visible item = true)
    (sameId : ∀ item, ident (edit item) = ident item) :
    enforcedResources ident mayEdit role items ((items.filter visible).map edit) =
      items.map fun item => if mayEdit (ident item) then edit item else item := by
  have editedIds : ((items.filter visible).map edit).map ident =
      (items.filter visible).map ident := by
    rw [List.map_map]
    exact List.map_congr_left fun item _ => sameId item
  rw [enforcedResources_of_subset nodup]
  · apply List.map_congr_left
    intro item itemMem
    simp only [proposedItem]
    split
    case isFalse => rfl
    case isTrue editable =>
      have inView : edit item ∈ (items.filter visible).map edit :=
        List.mem_map_of_mem (List.mem_filter.mpr ⟨itemMem, editableVisible item itemMem editable⟩)
      have viewNodup : (((items.filter visible).map edit).map ident).Nodup := by
        rw [editedIds]
        exact nodup.sublist (List.filter_sublist.map ident)
      rw [← sameId item, lastValue_of_nodup viewNodup inView, Option.getD_some]
  · intro item itemMem
    rcases List.mem_map.mp itemMem with ⟨before, beforeMem, rfl⟩
    rw [sameId]
    exact List.mem_map_of_mem (List.mem_of_mem_filter beforeMem)

theorem replaceItem_id {changed : Item} (item : Item) :
    ident (if ident item = ident changed then changed else item) = ident item := by
  split
  case isTrue same => exact same.symm
  case isFalse => rfl

theorem replaceItem_of_editable {items : List Item} {changed : Item} (access : String → Access)
    (editable : access (ident changed) = .editor) :
    (items.map fun item => if access (ident item) = .editor then
        if ident item = ident changed then changed else item else item) =
      replaceItem ident items changed := by
  apply List.map_congr_left
  intro item _
  by_cases same : ident item = ident changed
  · simp [same, editable]
  · simp [same]

end Resources

/-! ## Access of the current member -/

variable {workspace : GovernedWorkspace} {member : GovernanceMember}

theorem resourceAccess_of_noMember (noMember : currentGovernanceMember workspace.governance = none)
    (resourceType : ResourceType) (id : String) :
    resourceAccess workspace.governance resourceType id workspace.governance.currentMemberId =
      .none := by
  rw [currentGovernanceMember] at noMember
  simp only [resourceAccess, noMember]

theorem resourceAccess_of_unrestricted
    (isMember : currentGovernanceMember workspace.governance = some member)
    (unrestricted : member.role = .owner ∨ member.role = .admin)
    (resourceType : ResourceType) (id : String) :
    resourceAccess workspace.governance resourceType id workspace.governance.currentMemberId =
      .editor := by
  rw [currentGovernanceMember] at isMember
  simp only [resourceAccess, isMember, if_pos unrestricted]

theorem id_of_currentMember
    (isMember : currentGovernanceMember workspace.governance = some member) :
    member.id = workspace.governance.currentMemberId := by
  have matching := List.find?_some isMember
  simp only [decide_eq_true_eq] at matching
  exact matching.1

theorem filter_of_unrestricted {Item : Type} {ident : Item → String} {resourceType : ResourceType}
    (isMember : currentGovernanceMember workspace.governance = some member)
    (unrestricted : member.role = .owner ∨ member.role = .admin) (items : List Item) :
    (items.filter fun item => canAccessResource workspace.governance resourceType (ident item)) =
      items := by
  rw [List.filter_eq_self]
  intro item _
  simp [canAccessResource, resourceAccess_of_unrestricted isMember unrestricted]

/-! ## What is expected -/

/-- The view written back leaves the resources as they were. -/
structure ViewWritesBack (workspace : GovernedWorkspace) : Prop where
  collections : (enforceWorkspaceMutationAuthority workspace
    (workspaceForCurrentMember workspace)).collections = workspace.collections
  apiDesigns : (enforceWorkspaceMutationAuthority workspace
    (workspaceForCurrentMember workspace)).apiDesigns = workspace.apiDesigns

structure EditsWriteBack (workspace : GovernedWorkspace) : Prop where
  collection : ∀ collection ∈ (workspaceForCurrentMember workspace).collections,
    resourceAccess workspace.governance .collection collection.id
      workspace.governance.currentMemberId = .editor →
    ∀ changed : Projects.Collection, changed.id = collection.id →
      enforceWorkspaceMutationAuthority workspace
          { workspaceForCurrentMember workspace with
            collections := replaceItem Projects.Collection.id
              (workspaceForCurrentMember workspace).collections changed } =
        { workspace with
          collections := replaceItem Projects.Collection.id workspace.collections changed }
  apiDesign : ∀ design ∈ (workspaceForCurrentMember workspace).apiDesigns,
    resourceAccess workspace.governance .apiDesign design.id
      workspace.governance.currentMemberId = .editor →
    ∀ changed : Projects.ApiDesign, changed.id = design.id →
      enforceWorkspaceMutationAuthority workspace
          { workspaceForCurrentMember workspace with
            apiDesigns := replaceItem Projects.ApiDesign.id
              (workspaceForCurrentMember workspace).apiDesigns changed } =
        { workspace with
          apiDesigns := replaceItem Projects.ApiDesign.id workspace.apiDesigns changed }

/-! ## When it holds -/

/-- The selected request is visible, or it is the one that is selected in its place. -/
def SelectionSeen (workspace : GovernedWorkspace) : Prop :=
  let collections := workspace.collections.filter fun collection =>
    canAccessResource workspace.governance .collection collection.id
  (workspace.activeRequestId ∈ collections.flatMap fun collection =>
      collection.requests.map Projects.ApiRequest.id) ∨
    workspace.activeRequestId = ((collections.head?.bind fun collection =>
      collection.requests.head?).map Projects.ApiRequest.id).getD ""

/-- There is a resource that the current member may edit. -/
def HasEditable (workspace : GovernedWorkspace) : Prop :=
  (∃ collection ∈ workspace.collections, resourceAccess workspace.governance .collection
    collection.id workspace.governance.currentMemberId = .editor) ∨
  ∃ design ∈ workspace.apiDesigns, resourceAccess workspace.governance .apiDesign
    design.id workspace.governance.currentMemberId = .editor

structure WritesBack (workspace : GovernedWorkspace) : Prop where
  member : (∃ member, currentGovernanceMember workspace.governance = some member) ∨
    workspace.collections = [] ∧ workspace.apiDesigns = []
  selection : HasEditable workspace → SelectionSeen workspace

theorem selection_iff : (workspaceForCurrentMember workspace).activeRequestId =
    workspace.activeRequestId ↔ SelectionSeen workspace := by
  simp only [workspaceForCurrentMember, SelectionSeen]
  split
  case isTrue seen => simp [seen]
  case isFalse unseen => simp [unseen, eq_comm]

/-! ## Proposals made from the view -/

theorem enforce_of_noMember (noMember : currentGovernanceMember workspace.governance = none)
    (proposed : GovernedWorkspace) :
    enforceWorkspaceMutationAuthority workspace proposed = proposed := by
  simp only [enforceWorkspaceMutationAuthority, noMember]

theorem enforce_of_unrestricted
    (isMember : currentGovernanceMember workspace.governance = some member)
    (unrestricted : member.role = .owner ∨ member.role = .admin)
    (proposed : GovernedWorkspace) :
    enforceWorkspaceMutationAuthority workspace proposed = proposed := by
  simp only [enforceWorkspaceMutationAuthority, isMember, if_pos unrestricted]

theorem enforce_of_restricted
    (isMember : currentGovernanceMember workspace.governance = some member)
    (restricted : ¬ (member.role = .owner ∨ member.role = .admin))
    (collections : List Projects.Collection) (apiDesigns : List Projects.ApiDesign) :
    enforceWorkspaceMutationAuthority workspace
        { workspaceForCurrentMember workspace with collections, apiDesigns } =
      { workspace with
        activeRequestId := (workspaceForCurrentMember workspace).activeRequestId
        collections := enforcedResources Projects.Collection.id
          (fun id => resourceAccess workspace.governance .collection id
            workspace.governance.currentMemberId = .editor)
          member.role workspace.collections collections
        apiDesigns := enforcedResources Projects.ApiDesign.id
          (fun id => resourceAccess workspace.governance .apiDesign id
            workspace.governance.currentMemberId = .editor)
          member.role workspace.apiDesigns apiDesigns } := by
  have sameGovernance : enforcedGovernance workspace.governance workspace.governance =
      workspace.governance := by
    simp [enforcedGovernance]
  simp only [enforceWorkspaceMutationAuthority, isMember, if_neg restricted,
    id_of_currentMember isMember]
  split
  · simp [workspaceForCurrentMember, sameGovernance]
  · simp [workspaceForCurrentMember, sameGovernance]

/-- What becomes of edits of visible resources, when there is a current member. -/
theorem enforce_edited (isMember : currentGovernanceMember workspace.governance = some member)
    (collectionsNodup : (workspace.collections.map Projects.Collection.id).Nodup)
    (designsNodup : (workspace.apiDesigns.map Projects.ApiDesign.id).Nodup)
    (editCollection : Projects.Collection → Projects.Collection)
    (editDesign : Projects.ApiDesign → Projects.ApiDesign)
    (collectionId : ∀ collection, (editCollection collection).id = collection.id)
    (designId : ∀ design, (editDesign design).id = design.id) :
    enforceWorkspaceMutationAuthority workspace
        { workspaceForCurrentMember workspace with
          collections := (workspaceForCurrentMember workspace).collections.map editCollection
          apiDesigns := (workspaceForCurrentMember workspace).apiDesigns.map editDesign } =
      { workspace with
        activeRequestId := (workspaceForCurrentMember workspace).activeRequestId
        collections := workspace.collections.map fun collection =>
          if resourceAccess workspace.governance .collection collection.id
            workspace.governance.currentMemberId = .editor then editCollection collection
          else collection
        apiDesigns := workspace.apiDesigns.map fun design =>
          if resourceAccess workspace.governance .apiDesign design.id
            workspace.governance.currentMemberId = .editor then editDesign design
          else design } := by
  by_cases unrestricted : member.role = .owner ∨ member.role = .admin
  · rw [enforce_of_unrestricted isMember unrestricted]
    simp only [workspaceForCurrentMember, filter_of_unrestricted isMember unrestricted,
      resourceAccess_of_unrestricted isMember unrestricted, if_true]
  · rw [enforce_of_restricted isMember unrestricted]
    simp only [workspaceForCurrentMember]
    rw [enforcedResources_view collectionsNodup _ collectionId,
      enforcedResources_view designsNodup _ designId]
    · simp only [decide_eq_true_eq]
    · intro design _ editable
      simp only [decide_eq_true_eq] at editable
      simp [canAccessResource, editable]
    · intro collection _ editable
      simp only [decide_eq_true_eq] at editable
      simp [canAccessResource, editable]

theorem viewWritesBack_of_member
    (isMember : currentGovernanceMember workspace.governance = some member)
    (collectionsNodup : (workspace.collections.map Projects.Collection.id).Nodup)
    (designsNodup : (workspace.apiDesigns.map Projects.ApiDesign.id).Nodup) :
    ViewWritesBack workspace := by
  have edited := enforce_edited isMember collectionsNodup designsNodup id id
    (fun _ => rfl) (fun _ => rfl)
  simp only [List.map_id, id_eq, ite_self, List.map_id'] at edited
  have view : ({ workspaceForCurrentMember workspace with
      collections := (workspaceForCurrentMember workspace).collections
      apiDesigns := (workspaceForCurrentMember workspace).apiDesigns } : GovernedWorkspace) =
    workspaceForCurrentMember workspace := rfl
  rw [view] at edited
  constructor
  · rw [edited]
  · rw [edited]

theorem enforce_editedCollection
    (isMember : currentGovernanceMember workspace.governance = some member)
    (collectionsNodup : (workspace.collections.map Projects.Collection.id).Nodup)
    (designsNodup : (workspace.apiDesigns.map Projects.ApiDesign.id).Nodup)
    {changed : Projects.Collection}
    (editable : resourceAccess workspace.governance .collection changed.id
      workspace.governance.currentMemberId = .editor) :
    enforceWorkspaceMutationAuthority workspace
        { workspaceForCurrentMember workspace with
          collections := replaceItem Projects.Collection.id
            (workspaceForCurrentMember workspace).collections changed } =
      { workspace with
        activeRequestId := (workspaceForCurrentMember workspace).activeRequestId
        collections := replaceItem Projects.Collection.id workspace.collections changed } := by
  have edited := enforce_edited isMember collectionsNodup designsNodup
    (fun item => if item.id = changed.id then changed else item) id
    (fun item => replaceItem_id item) (fun _ => rfl)
  rw [replaceItem_of_editable (fun id => resourceAccess workspace.governance .collection
    id workspace.governance.currentMemberId) editable] at edited
  simp only [List.map_id, List.map_id', id_eq, ite_self] at edited
  exact edited

theorem enforce_editedDesign
    (isMember : currentGovernanceMember workspace.governance = some member)
    (collectionsNodup : (workspace.collections.map Projects.Collection.id).Nodup)
    (designsNodup : (workspace.apiDesigns.map Projects.ApiDesign.id).Nodup)
    {changed : Projects.ApiDesign}
    (editable : resourceAccess workspace.governance .apiDesign changed.id
      workspace.governance.currentMemberId = .editor) :
    enforceWorkspaceMutationAuthority workspace
        { workspaceForCurrentMember workspace with
          apiDesigns := replaceItem Projects.ApiDesign.id
            (workspaceForCurrentMember workspace).apiDesigns changed } =
      { workspace with
        activeRequestId := (workspaceForCurrentMember workspace).activeRequestId
        apiDesigns := replaceItem Projects.ApiDesign.id workspace.apiDesigns changed } := by
  have edited := enforce_edited isMember collectionsNodup designsNodup
    id (fun item => if item.id = changed.id then changed else item)
    (fun _ => rfl) (fun item => replaceItem_id item)
  rw [replaceItem_of_editable (fun id => resourceAccess workspace.governance .apiDesign
    id workspace.governance.currentMemberId) editable] at edited
  simp only [List.map_id, List.map_id', id_eq, ite_self] at edited
  exact edited

theorem editsWriteBack_iff
    (isMember : currentGovernanceMember workspace.governance = some member)
    (collectionsNodup : (workspace.collections.map Projects.Collection.id).Nodup)
    (designsNodup : (workspace.apiDesigns.map Projects.ApiDesign.id).Nodup) :
    EditsWriteBack workspace ↔ (HasEditable workspace → SelectionSeen workspace) := by
  constructor
  · rintro edits (⟨collection, collectionMem, editable⟩ | ⟨design, designMem, editable⟩)
    · have visible : collection ∈ (workspaceForCurrentMember workspace).collections :=
        List.mem_filter.mpr ⟨collectionMem, by simp [canAccessResource, editable]⟩
      have written := edits.collection collection visible editable collection rfl
      rw [enforce_editedCollection isMember collectionsNodup designsNodup editable] at written
      have selected := congrArg GovernedWorkspace.activeRequestId written
      exact selection_iff.mp selected
    · have visible : design ∈ (workspaceForCurrentMember workspace).apiDesigns :=
        List.mem_filter.mpr ⟨designMem, by simp [canAccessResource, editable]⟩
      have written := edits.apiDesign design visible editable design rfl
      rw [enforce_editedDesign isMember collectionsNodup designsNodup editable] at written
      have selected := congrArg GovernedWorkspace.activeRequestId written
      exact selection_iff.mp selected
  · intro selection
    constructor
    · intro collection visible editable changed sameId
      have seen := selection (.inl ⟨collection, List.mem_of_mem_filter visible, editable⟩)
      rw [← sameId] at editable
      rw [enforce_editedCollection isMember collectionsNodup designsNodup editable,
        selection_iff.mpr seen]
    · intro design visible editable changed sameId
      have seen := selection (.inr ⟨design, List.mem_of_mem_filter visible, editable⟩)
      rw [← sameId] at editable
      rw [enforce_editedDesign isMember collectionsNodup designsNodup editable,
        selection_iff.mpr seen]

/-- The view and the edits of it write back exactly if there is a current member, or nothing to
lose, and the selection is one that the view keeps, or nothing can be edited. -/
theorem writesBack_iff (workspace : GovernedWorkspace)
    (collectionsNodup : (workspace.collections.map Projects.Collection.id).Nodup)
    (designsNodup : (workspace.apiDesigns.map Projects.ApiDesign.id).Nodup) :
    ViewWritesBack workspace ∧ EditsWriteBack workspace ↔ WritesBack workspace := by
  cases memberEq : currentGovernanceMember workspace.governance with
  | some member =>
      have edits := editsWriteBack_iff memberEq collectionsNodup designsNodup
      constructor
      · rintro ⟨_, editsBack⟩
        exact ⟨.inl ⟨member, memberEq⟩, edits.mp editsBack⟩
      · rintro ⟨_, selection⟩
        exact ⟨viewWritesBack_of_member memberEq collectionsNodup designsNodup,
          edits.mpr selection⟩
  | none =>
      have hidden (resourceType : ResourceType) (id : String) :=
        resourceAccess_of_noMember memberEq resourceType id
      have noCollections : (workspaceForCurrentMember workspace).collections = [] := by
        simp [workspaceForCurrentMember, canAccessResource, hidden]
      have noDesigns : (workspaceForCurrentMember workspace).apiDesigns = [] := by
        simp [workspaceForCurrentMember, canAccessResource, hidden]
      constructor
      · rintro ⟨view, _⟩
        refine ⟨.inr ⟨?_, ?_⟩, ?_⟩
        · rw [← view.collections, enforce_of_noMember memberEq, noCollections]
        · rw [← view.apiDesigns, enforce_of_noMember memberEq, noDesigns]
        · rintro (⟨collection, _, editable⟩ | ⟨design, _, editable⟩)
          · simp [hidden] at editable
          · simp [hidden] at editable
      · rintro ⟨nothing, _⟩
        rcases nothing with ⟨member, isMember⟩ | ⟨collectionsEq, designsEq⟩
        · simp [memberEq] at isMember
        · constructor
          · constructor
            · rw [enforce_of_noMember memberEq, noCollections, collectionsEq]
            · rw [enforce_of_noMember memberEq, noDesigns, designsEq]
          · constructor
            · intro collection visible
              simp [noCollections] at visible
            · intro design visible
              simp [noDesigns] at visible

def shopCollection (id name : String) : Projects.Collection where
  id := id
  name := name
  requests := []
  folders := none
  resourceOrder := none
  environment := none
  subEnvironments := none
  activeSubEnvironmentId := none
  content := .null

/-- A workspace with one collection, and whom it has as members. -/
def shopWorkspace (currentMemberId : String) : GovernedWorkspace :=
  { teamWorkspace (teamGovernance currentMemberId) with
    collections := [shopCollection "collection-1" "Shop"] }

/-- Of two collections an editor may edit the one that is not granted to the owner only. -/
def editorWorkspace : GovernedWorkspace :=
  { teamWorkspace { teamGovernance "eva" with
      members := (teamGovernance "eva").members ++ [teamMember "eva" "eva@shop.test" .editor]
      resourceGrants :=
        [⟨"grant-1", .collection, "collection-2", .member, "olga", .editor⟩] } with
    collections := [shopCollection "collection-1" "Shop", shopCollection "collection-2" "Payments"]
    apiDesigns := [⟨"design-1", "Shop", none, .null⟩] }

/-- The collection that the editor does not see is kept next to what it edits. -/
theorem editorWorkspace_writesBack :
    ViewWritesBack editorWorkspace ∧ EditsWriteBack editorWorkspace ∧
      (workspaceForCurrentMember editorWorkspace).collections =
        [shopCollection "collection-1" "Shop"] := by
  have writesBack := (writesBack_iff editorWorkspace (by decide) (by decide)).mpr
    ⟨.inl ⟨teamMember "eva" "eva@shop.test" .editor, by decide⟩, fun _ => .inr (by decide)⟩
  exact ⟨writesBack.1, writesBack.2, by decide⟩

/-- Without a current member the view loses every collection. -/
theorem collections_lost_without_member :
    ¬ ∀ workspace : GovernedWorkspace,
      (workspace.collections.map Projects.Collection.id).Nodup →
      (workspace.apiDesigns.map Projects.ApiDesign.id).Nodup →
      ViewWritesBack workspace ∧ EditsWriteBack workspace := by
  intro writesBack
  have view := (writesBack (shopWorkspace "nobody") (by decide) (by decide)).1.collections
  revert view
  decide

end Brunomnia.Governance
