import Brunomnia.Resources.KeyboardMoves

/-!
# Keys edit the children

A key moves a folder or request past a sibling, to an end of the children of its parent, to the
end of the folder before it, or behind the folder around it. Keys that are opposite take back
what the other one has done.
-/

namespace Brunomnia.Resources

open Brunomnia.Library

/-! ## Placing beside a sibling -/

section PlaceBeside

variable {before after : List CollectionResourceRef} {sibling : CollectionResourceRef}
  (named : sibling.id ≠ "") (isFirst : ∀ other ∈ before, other.id ≠ sibling.id)
include named isFirst

theorem placeBeside_split (moved : CollectionResourceRef) (placement : Placement) :
    placeBeside (before ++ sibling :: after) moved (some sibling.id) (some placement) =
      if placement = .after then before ++ sibling :: moved :: after
      else before ++ moved :: sibling :: after := by
  have given : truthy (some sibling.id) = true := by simpa [truthy] using named
  have noneBefore : ∀ other ∈ before, decide (other.id = sibling.id) = false := by
    intro other otherMem
    simpa using isFirst other otherMem
  rw [placeBeside, if_pos given]
  simp only [Option.getD_some]
  rw [insertAtAnchor_split noneBefore (by simp)]
  simp only [decide_eq_true_eq]

end PlaceBeside

theorem placeBeside_last (siblings : List CollectionResourceRef) (moved : CollectionResourceRef) :
    placeBeside siblings moved none none = siblings ++ [moved] := by
  simp [placeBeside, truthy]

/-! ## One key -/

/-- A key plans a move, after which the collection is coherent and has these children. -/
def Presses (workspace : Workspace) (collectionId : String) (ref : CollectionResourceRef)
    (action : KeyboardAction) (children : String → List CollectionResourceRef) : Prop :=
  ∃ move, keyboardWorkspaceResourceMove workspace (.resource collectionId ref) action =
      some move ∧
    ∃ updated, (moveWorkspaceResource workspace move).collectionWithId collectionId =
        some updated ∧
      updated.Coherent ∧ ∀ other, orderedCollectionChildren updated other = children other

section Plan

variable {collection : Collection} {ref : CollectionResourceRef} {parentId : String}
  (isResource : collection.parentOf ref = some parentId) {index : ℕ}
  (isIndex : (orderedCollectionChildren collection parentId).findIdx?
    (fun candidate => candidate = ref) = some index)
include isResource isIndex

theorem keyboardResourceMove_sibling {action : KeyboardAction} (notIn : action ≠ .indent)
    (notOut : action ≠ .outdent) :
    keyboardResourceMove collection ref action =
      match actionSibling (orderedCollectionChildren collection parentId) index action with
      | none => none
      | some sibling =>
          if sibling.id = ref.id then none
          else some (keyboardMove collection ref parentId (some sibling.id)
            (some (actionPlacement action))) := by
  unfold keyboardResourceMove
  cases found : actionSibling (orderedCollectionChildren collection parentId) index action with
  | none => simp only [isResource, isIndex, found]
  | some sibling => simp only [isResource, isIndex, found]

theorem keyboardResourceMove_indent :
    keyboardResourceMove collection ref .indent =
      match actionSibling (orderedCollectionChildren collection parentId) index .up with
      | some ⟨.folder, previousId⟩ => some (keyboardMove collection ref previousId none none)
      | _ => none := by
  unfold keyboardResourceMove
  rcases found : actionSibling (orderedCollectionChildren collection parentId) index .up with
    _ | ⟨kind, previousId⟩
  · simp only [isResource, isIndex, found]
  · cases kind <;> simp only [isResource, isIndex, found]

theorem keyboardResourceMove_outdent :
    keyboardResourceMove collection ref .outdent =
      match collection.folderList.find? (fun candidate => candidate.id = parentId) with
      | none => none
      | some parent =>
          some (keyboardMove collection ref parent.parentId (some parent.id) (some .after)) := by
  unfold keyboardResourceMove
  cases found : collection.folderList.find? (fun candidate => candidate.id = parentId) with
  | none => simp only [isResource, isIndex, found]
  | some parent => simp only [isResource, isIndex, found]

end Plan

section Located

variable {workspace : Workspace} {collectionId : String} {collection : Collection}
  {ref : CollectionResourceRef} {parentId : String} {left right : List CollectionResourceRef}

theorem children_ids_ne
    (children : orderedCollectionChildren collection parentId = left ++ ref :: right) :
    (∀ other ∈ left, other.id ≠ ref.id) ∧ ∀ other ∈ right, other.id ≠ ref.id := by
  have nodup := children_ids_nodup collection parentId
  rw [children, List.map_append, List.map_cons, List.nodup_append, List.nodup_cons] at nodup
  constructor
  · intro other otherMem
    exact nodup.2.2 other.id (List.mem_map_of_mem otherMem) ref.id List.mem_cons_self
  · intro other otherMem sameId
    apply nodup.2.1.1
    rw [← sameId]
    exact List.mem_map_of_mem otherMem

theorem findIdx?_child
    (children : orderedCollectionChildren collection parentId = left ++ ref :: right) :
    (orderedCollectionChildren collection parentId).findIdx?
      (fun candidate => candidate = ref) = some left.length := by
  have noneBefore : left.findIdx? (fun candidate => candidate = ref) = none := by
    rw [List.findIdx?_eq_none_iff]
    intro other otherMem
    have different := (children_ids_ne children).1 other otherMem
    apply decide_eq_false
    rintro rfl
    exact different rfl
  rw [children, List.findIdx?_append, noneBefore]
  simp [List.findIdx?_cons]

theorem children_without
    (children : orderedCollectionChildren collection parentId = left ++ ref :: right) :
    ((orderedCollectionChildren collection parentId).filter fun child => child ≠ ref) =
      left ++ right := by
  rcases children_ids_ne children with ⟨leftIds, rightIds⟩
  rw [children, List.filter_append, List.filter_cons_of_neg (by simp),
    List.filter_eq_self.mpr, List.filter_eq_self.mpr]
  · intro other otherMem
    apply decide_eq_true
    rintro rfl
    exact rightIds other otherMem rfl
  · intro other otherMem
    apply decide_eq_true
    rintro rfl
    exact leftIds other otherMem rfl

variable (located : workspace.collectionWithId collectionId = some collection)
  (coherent : collection.Coherent)

include coherent in
theorem parentOf_of_children
    (children : orderedCollectionChildren collection parentId = left ++ ref :: right) :
    collection.parentOf ref = some parentId :=
  (mem_children_iff coherent.consistent).mp (by simp [children])

include located coherent

theorem presses_of_plan {action : KeyboardAction} {newParentId : String}
    {targetResourceId : Option String} {placement : Option Placement}
    (isResource : collection.parentOf ref = some parentId)
    (planned : keyboardResourceMove collection ref action =
      some (keyboardMove collection ref newParentId targetResourceId placement))
    (parentOk : collection.IsParent newParentId)
    (outside : ref.kind = .folder → newParentId ∉ folderSubtree collection ref.id)
    (siblingOk : truthy targetResourceId → ∃ sibling,
      collection.parentOf sibling = some newParentId ∧
        sibling.id = targetResourceId.getD "" ∧ sibling.id ≠ ref.id) :
    Presses workspace collectionId ref action fun other =>
      if other = newParentId then
        placeBeside ((orderedCollectionChildren collection newParentId).filter
          fun child => child ≠ ref) ref targetResourceId placement
      else (orderedCollectionChildren collection other).filter fun child => child ≠ ref := by
  rcases keyboardMove_moved located coherent isResource parentOk outside siblingOk with
    ⟨updated, locatedAfter, moved⟩
  refine ⟨_, ?_, updated, locatedAfter, moved.coherent, moved.children⟩
  simp only [keyboardWorkspaceResourceMove, located, planned, Option.map_some]

/-- A key that passes a sibling. -/
theorem sibling_presses {action : KeyboardAction} (notIn : action ≠ .indent)
    (notOut : action ≠ .outdent) {sibling : CollectionResourceRef}
    {before after : List CollectionResourceRef}
    (children : orderedCollectionChildren collection parentId = left ++ ref :: right)
    (isSibling : actionSibling (left ++ ref :: right) left.length action = some sibling)
    (others : left ++ right = before ++ sibling :: after) :
    Presses workspace collectionId ref action
      (Function.update (orderedCollectionChildren collection) parentId
        (if actionPlacement action = .after then before ++ sibling :: ref :: after
          else before ++ ref :: sibling :: after)) := by
  have consistent := coherent.consistent
  have isResource := parentOf_of_children coherent children
  have isOther : sibling ∈ left ++ right := by simp [others]
  have different : sibling.id ≠ ref.id := by
    rcases children_ids_ne children with ⟨leftIds, rightIds⟩
    rcases List.mem_append.mp isOther with inLeft | inRight
    · exact leftIds sibling inLeft
    · exact rightIds sibling inRight
  have siblingResource : collection.parentOf sibling = some parentId := by
    rw [← mem_children_iff consistent, children, List.mem_append, List.mem_cons]
    rcases List.mem_append.mp isOther with inLeft | inRight
    · exact Or.inl inLeft
    · exact Or.inr (Or.inr inRight)
  have planned := keyboardResourceMove_sibling isResource (findIdx?_child children) notIn notOut
  rw [children, isSibling] at planned
  simp only [if_neg different] at planned
  have presses := presses_of_plan located coherent isResource planned
    (isParent_of_parentOf coherent isResource) (parentId_outside coherent isResource)
    fun _ => ⟨sibling, siblingResource, rfl, different⟩
  have isFirst : ∀ other ∈ before, other.id ≠ sibling.id := by
    have nodup := children_ids_nodup collection parentId
    have sublist : (before ++ sibling :: after).Sublist
        (orderedCollectionChildren collection parentId) := by
      rw [← others, children]
      exact (List.Sublist.refl left).append (List.sublist_cons_self ref right)
    have idsNodup := List.Nodup.sublist (sublist.map CollectionResourceRef.id) nodup
    rw [List.map_append, List.map_cons, List.nodup_append] at idsNodup
    intro other otherMem
    exact idsNodup.2.2 other.id (List.mem_map_of_mem otherMem) sibling.id List.mem_cons_self
  have placed := @placeBeside_split before after sibling
    (ref_id_ne_empty coherent siblingResource) isFirst ref (actionPlacement action)
  rw [children_without children, others, placed] at presses
  rcases presses with ⟨move, isPlanned, updated, locatedAfter, coherentAfter, childrenAfter⟩
  refine ⟨move, isPlanned, updated, locatedAfter, coherentAfter, ?_⟩
  intro other
  rw [childrenAfter]
  by_cases isParent : other = parentId
  · simp only [isParent, if_true, Function.update_self]
  · simp only [if_neg isParent, Function.update_of_ne isParent]
    exact children_filter_of_ne consistent isResource isParent

theorem up_presses {before after : List CollectionResourceRef} {previous : CollectionResourceRef}
    (children : orderedCollectionChildren collection parentId =
      before ++ previous :: ref :: after) :
    Presses workspace collectionId ref .up
      (Function.update (orderedCollectionChildren collection) parentId
        (before ++ ref :: previous :: after)) := by
  have split : orderedCollectionChildren collection parentId =
      (before ++ [previous]) ++ ref :: after := by simp [children]
  exact sibling_presses located coherent (by decide) (by decide) split
    (by simp [actionSibling]) (by simp)

theorem down_presses {before after : List CollectionResourceRef} {next : CollectionResourceRef}
    (children : orderedCollectionChildren collection parentId = before ++ ref :: next :: after) :
    Presses workspace collectionId ref .down
      (Function.update (orderedCollectionChildren collection) parentId
        (before ++ next :: ref :: after)) :=
  sibling_presses located coherent (by decide) (by decide) children
    (by simp [actionSibling]) rfl

theorem first_presses {before after : List CollectionResourceRef}
    {leader : CollectionResourceRef}
    (children : orderedCollectionChildren collection parentId =
      leader :: before ++ ref :: after) :
    Presses workspace collectionId ref .first
      (Function.update (orderedCollectionChildren collection) parentId
        (ref :: leader :: before ++ after)) :=
  @sibling_presses _ _ _ _ _ _ _ located coherent .first (by decide) (by decide) leader []
    (before ++ after) children rfl rfl

theorem last_presses {before after : List CollectionResourceRef}
    {closing : CollectionResourceRef}
    (children : orderedCollectionChildren collection parentId =
      before ++ ref :: (after ++ [closing])) :
    Presses workspace collectionId ref .last
      (Function.update (orderedCollectionChildren collection) parentId
        (before ++ after ++ [closing, ref])) :=
  @sibling_presses _ _ _ _ _ _ _ located coherent .last (by decide) (by decide) closing
    (before ++ after) [] children (by simp [actionSibling]) (by simp)

omit located in
theorem folder_ne_parent {folderId : String}
    (isFolder : collection.parentOf ⟨.folder, folderId⟩ = some parentId) :
    folderId ≠ parentId := by
  rintro rfl
  apply parentId_outside coherent isFolder rfl
  exact root_mem_folderSubtree collection folderId

/-- The folder before takes the resource behind its own children. -/
theorem indent_presses {before after : List CollectionResourceRef} {folderId : String}
    (children : orderedCollectionChildren collection parentId =
      before ++ ⟨.folder, folderId⟩ :: ref :: after) :
    Presses workspace collectionId ref .indent
      (Function.update (Function.update (orderedCollectionChildren collection) parentId
        (before ++ ⟨.folder, folderId⟩ :: after)) folderId
          (orderedCollectionChildren collection folderId ++ [ref])) := by
  have consistent := coherent.consistent
  have split : orderedCollectionChildren collection parentId =
      (before ++ [⟨.folder, folderId⟩]) ++ ref :: after := by simp [children]
  have isResource := parentOf_of_children coherent split
  have folderResource := parentOf_of_children coherent children
  have isFolder : folderId ∈ collection.folderIds :=
    mem_resourceIds_of_parentOf coherent folderResource
  rcases List.mem_map.mp isFolder with ⟨folder, folderMem, sameId⟩
  have folderLink : folder.parentId = parentId := by
    rw [parentOf_folder consistent] at folderResource
    rcases (folderParent_eq_some_iff consistent.folderIds_nodup).mp folderResource with
      ⟨other, otherMem, otherId, otherLink⟩
    rwa [List.inj_on_of_nodup_map consistent.folderIds_nodup otherMem folderMem
      (otherId.trans sameId.symm)] at otherLink
  have notParent := folder_ne_parent coherent (parentOf_of_children coherent children)
  have notRef : folder.id ≠ ref.id := by
    rw [sameId]
    exact (children_ids_ne split).1 ⟨.folder, folderId⟩ (by simp)
  have outside : ref.kind = .folder → folderId ∉ folderSubtree collection ref.id := by
    intro kind inside
    apply parentId_outside coherent isResource kind
    rw [← sameId] at inside
    have above := parentId_mem_folderSubtree consistent.folderIds_nodup folderMem inside notRef
    rwa [folderLink] at above
  have planned : keyboardResourceMove collection ref .indent =
      some (keyboardMove collection ref folderId none none) := by
    rw [keyboardResourceMove_indent isResource (findIdx?_child split), children]
    simp [actionSibling]
  have presses := presses_of_plan located coherent isResource planned (Or.inr isFolder) outside
    (by simp [truthy])
  rcases presses with ⟨move, isPlanned, updated, locatedAfter, coherentAfter, childrenAfter⟩
  refine ⟨move, isPlanned, updated, locatedAfter, coherentAfter, ?_⟩
  intro other
  rw [childrenAfter]
  by_cases isNew : other = folderId
  · simp only [isNew, if_true, Function.update_self]
    rw [children_filter_of_ne consistent isResource notParent, placeBeside_last]
  · simp only [if_neg isNew, Function.update_of_ne isNew]
    by_cases isOld : other = parentId
    · simp only [isOld, Function.update_self]
      rw [children_without split]
      simp
    · simp only [Function.update_of_ne isOld]
      exact children_filter_of_ne consistent isResource isOld

/-- The resource leaves the folder around it and stands behind that folder. -/
theorem outdent_presses {before after : List CollectionResourceRef} {grandparentId : String}
    (children : orderedCollectionChildren collection parentId = left ++ ref :: right)
    (above : orderedCollectionChildren collection grandparentId =
      before ++ ⟨.folder, parentId⟩ :: after) :
    Presses workspace collectionId ref .outdent
      (Function.update (Function.update (orderedCollectionChildren collection) parentId
        (left ++ right)) grandparentId (before ++ ⟨.folder, parentId⟩ :: ref :: after)) := by
  have consistent := coherent.consistent
  have isResource := parentOf_of_children coherent children
  have folderResource := parentOf_of_children coherent above
  have folderFound := folderResource
  simp only [Collection.parentOf, Option.map_eq_some_iff] at folderFound
  rcases folderFound with ⟨folder, found, folderLink⟩
  have folderMem := List.mem_of_find?_eq_some found
  have sameId : folder.id = parentId := by simpa using List.find?_some found
  have notParent := (folder_ne_parent coherent folderResource).symm
  have outside : ref.kind = .folder → grandparentId ∉ folderSubtree collection ref.id := by
    intro kind inside
    apply parentId_outside coherent isResource kind
    rw [← sameId]
    rw [← folderLink] at inside
    exact id_mem_folderSubtree folderMem inside
  have notRef : parentId ≠ ref.id := by
    intro same
    have parentMem := mem_resourceIds_of_parentOf coherent folderResource
    simp only at parentMem
    have refFolder : ref.kind = .folder := by
      cases kind : ref.kind with
      | folder => rfl
      | request =>
          have isThere := mem_resourceIds_of_parentOf coherent isResource
          rw [kind, ← same] at isThere
          exact absurd isThere (consistent.disjoint parentMem)
    apply parentId_outside coherent isResource refFolder
    rw [same]
    exact root_mem_folderSubtree collection ref.id
  have planned : keyboardResourceMove collection ref .outdent =
      some (keyboardMove collection ref grandparentId (some parentId) (some .after)) := by
    rw [keyboardResourceMove_outdent isResource (findIdx?_child children), found]
    simp only [folderLink, sameId]
  have presses := presses_of_plan located coherent isResource planned
    (isParent_of_parentOf coherent folderResource) outside
    fun _ => ⟨⟨.folder, parentId⟩, folderResource, rfl, notRef⟩
  have named : parentId ≠ "" := ref_id_ne_empty coherent folderResource
  rcases presses with ⟨move, isPlanned, updated, locatedAfter, coherentAfter, childrenAfter⟩
  refine ⟨move, isPlanned, updated, locatedAfter, coherentAfter, ?_⟩
  intro other
  rw [childrenAfter]
  by_cases isNew : other = grandparentId
  · simp only [isNew, if_true, Function.update_self]
    rw [children_filter_of_ne consistent isResource notParent, above]
    have placed := @placeBeside_split before after ⟨.folder, parentId⟩ named
      (children_ids_ne above).1 ref .after
    rw [if_pos rfl] at placed
    exact placed
  · simp only [if_neg isNew, Function.update_of_ne isNew]
    by_cases isOld : other = parentId
    · simp only [isOld, Function.update_self]
      exact children_without children
    · simp only [Function.update_of_ne isOld]
      exact children_filter_of_ne consistent isResource isOld

end Located

/-! ## Keys that take each other back -/

/-- The children of a parent in the collection with an id. -/
def Workspace.childrenOf (workspace : Workspace) (collectionId parentId : String) :
    List CollectionResourceRef :=
  match workspace.collectionWithId collectionId with
  | none => []
  | some collection => orderedCollectionChildren collection parentId

/-- A key can be used after each move that another one plans, and restores all children. -/
def TakesBack (workspace : Workspace) (collectionId : String) (ref : CollectionResourceRef)
    (action back : KeyboardAction) : Prop :=
  ∀ move, keyboardWorkspaceResourceMove workspace (.resource collectionId ref) action =
      some move →
    (keyboardWorkspaceResourceMove (moveWorkspaceResource workspace move)
      (.resource collectionId ref) back).isSome ∧
    ∀ parentId, (press (moveWorkspaceResource workspace move)
      (.resource collectionId ref) back).childrenOf collectionId parentId =
        workspace.childrenOf collectionId parentId

/-- What the keys do to the children of the parent of a resource. -/
structure KeyboardEdits (workspace : Workspace) (collectionId : String)
    (ref : CollectionResourceRef) (parentId : String) : Prop where
  up : ∀ before previous after,
    workspace.childrenOf collectionId parentId = before ++ previous :: ref :: after →
      (press workspace (.resource collectionId ref) .up).childrenOf collectionId parentId =
        before ++ ref :: previous :: after
  down : ∀ before next after,
    workspace.childrenOf collectionId parentId = before ++ ref :: next :: after →
      (press workspace (.resource collectionId ref) .down).childrenOf collectionId parentId =
        before ++ next :: ref :: after
  first : (press workspace (.resource collectionId ref) .first).childrenOf collectionId parentId =
    ref :: (workspace.childrenOf collectionId parentId).filter fun child => child ≠ ref
  last : (press workspace (.resource collectionId ref) .last).childrenOf collectionId parentId =
    ((workspace.childrenOf collectionId parentId).filter fun child => child ≠ ref) ++ [ref]
  indent : ∀ before folderId after,
    workspace.childrenOf collectionId parentId =
        before ++ ⟨.folder, folderId⟩ :: ref :: after →
      (press workspace (.resource collectionId ref) .indent).childrenOf collectionId parentId =
        before ++ ⟨.folder, folderId⟩ :: after ∧
      (press workspace (.resource collectionId ref) .indent).childrenOf collectionId folderId =
        workspace.childrenOf collectionId folderId ++ [ref]
  upDown : TakesBack workspace collectionId ref .up .down
  downUp : TakesBack workspace collectionId ref .down .up
  indentOutdent : TakesBack workspace collectionId ref .indent .outdent

section Laws

variable {workspace : Workspace} {collectionId : String} {collection : Collection}
  {ref : CollectionResourceRef} {parentId : String}
  {children : String → List CollectionResourceRef} {action back : KeyboardAction}

theorem Presses.childrenOf (presses : Presses workspace collectionId ref action children)
    (other : String) :
    (press workspace (.resource collectionId ref) action).childrenOf collectionId other =
      children other := by
  rcases presses with ⟨move, planned, updated, locatedAfter, _, childrenAfter⟩
  simp only [press, planned, Workspace.childrenOf, locatedAfter, childrenAfter]

theorem childrenOf_eq (located : workspace.collectionWithId collectionId = some collection) :
    workspace.childrenOf collectionId parentId = orderedCollectionChildren collection parentId := by
  simp only [Workspace.childrenOf, located]

/-- A key takes a move back if it does so wherever the children are those after the move. -/
theorem takesBack_of_presses
    (located : workspace.collectionWithId collectionId = some collection)
    (presses : Presses workspace collectionId ref action children)
    (pressesBack : ∀ after updated, Workspace.collectionWithId after collectionId = some updated →
      updated.Coherent → orderedCollectionChildren updated = children →
        Presses after collectionId ref back (orderedCollectionChildren collection)) :
    TakesBack workspace collectionId ref action back := by
  intro move planned
  rcases presses with ⟨other, otherPlanned, updated, locatedAfter, coherentAfter, childrenAfter⟩
  cases Option.some.inj (planned.symm.trans otherPlanned)
  have restored := pressesBack _ updated locatedAfter coherentAfter (funext childrenAfter)
  have isPlanned := restored
  rcases isPlanned with ⟨_, backPlanned, _⟩
  refine ⟨by rw [backPlanned]; rfl, ?_⟩
  intro parentId
  rw [restored.childrenOf, childrenOf_eq located]

theorem takesBack_of_none
    (located : workspace.collectionWithId collectionId = some collection)
    (nothing : keyboardResourceMove collection ref action = none) :
    TakesBack workspace collectionId ref action back := by
  intro move planned
  simp only [keyboardWorkspaceResourceMove, located, nothing, Option.map_none,
    reduceCtorEq] at planned

theorem press_of_none (located : workspace.collectionWithId collectionId = some collection)
    (nothing : keyboardResourceMove collection ref action = none) :
    press workspace (.resource collectionId ref) action = workspace := by
  simp only [press, keyboardWorkspaceResourceMove, located, nothing, Option.map_none]

variable (located : workspace.collectionWithId collectionId = some collection)
  (coherent : collection.Coherent) {left right : List CollectionResourceRef}
  (split : orderedCollectionChildren collection parentId = left ++ ref :: right)
include located coherent split

theorem up_takesBack : TakesBack workspace collectionId ref .up .down := by
  rcases List.eq_nil_or_concat left with rfl | ⟨before, previous, rfl⟩
  · apply takesBack_of_none located
    rw [keyboardResourceMove_sibling (parentOf_of_children coherent split)
      (findIdx?_child split) (by decide) (by decide)]
    simp [actionSibling]
  · have children : orderedCollectionChildren collection parentId =
        before ++ previous :: ref :: right := by simp [split]
    apply takesBack_of_presses located (up_presses located coherent children)
    intro after updated locatedAfter coherentAfter childrenAfter
    have presses := @down_presses after collectionId updated ref parentId locatedAfter
      coherentAfter before right previous (by rw [childrenAfter, Function.update_self])
    rwa [childrenAfter, Function.update_idem, ← children, Function.update_eq_self] at presses

theorem down_takesBack : TakesBack workspace collectionId ref .down .up := by
  cases right with
  | nil =>
      apply takesBack_of_none located
      rw [keyboardResourceMove_sibling (parentOf_of_children coherent split)
        (findIdx?_child split) (by decide) (by decide), split]
      simp [actionSibling]
  | cons next right =>
      apply takesBack_of_presses located (down_presses located coherent split)
      intro after updated locatedAfter coherentAfter childrenAfter
      have presses := @up_presses after collectionId updated ref parentId locatedAfter
        coherentAfter left right next (by rw [childrenAfter, Function.update_self])
      rwa [childrenAfter, Function.update_idem, ← split, Function.update_eq_self] at presses

theorem indent_takesBack : TakesBack workspace collectionId ref .indent .outdent := by
  have isResource := parentOf_of_children coherent split
  rcases List.eq_nil_or_concat left with rfl | ⟨before, ⟨kind, previousId⟩, rfl⟩
  · apply takesBack_of_none located
    rw [keyboardResourceMove_indent isResource (findIdx?_child split)]
    simp [actionSibling]
  · have children : orderedCollectionChildren collection parentId =
        before ++ ⟨kind, previousId⟩ :: ref :: right := by simp [split]
    cases kind with
    | request =>
        apply takesBack_of_none located
        rw [keyboardResourceMove_indent isResource (findIdx?_child split), children]
        simp [actionSibling]
    | folder =>
        have notParent := folder_ne_parent coherent (parentOf_of_children coherent children)
        apply takesBack_of_presses located (indent_presses located coherent children)
        intro after updated locatedAfter coherentAfter childrenAfter
        have presses := @outdent_presses after collectionId updated ref previousId
          (orderedCollectionChildren collection previousId) [] locatedAfter coherentAfter before
          right parentId (by rw [childrenAfter, Function.update_self])
          (by rw [childrenAfter, Function.update_of_ne notParent.symm, Function.update_self])
        rw [childrenAfter, List.append_nil, Function.update_idem] at presses
        rwa [Function.update_comm notParent.symm, Function.update_idem, ← children,
          Function.update_eq_self, Function.update_eq_self] at presses

theorem first_childrenOf :
    (press workspace (.resource collectionId ref) .first).childrenOf collectionId parentId =
      ref :: (orderedCollectionChildren collection parentId).filter fun child => child ≠ ref := by
  rw [children_without split]
  cases left with
  | nil =>
      have nothing : keyboardResourceMove collection ref .first = none := by
        rw [keyboardResourceMove_sibling (parentOf_of_children coherent split)
          (findIdx?_child split) (by decide) (by decide), split]
        simp [actionSibling]
      rw [press_of_none located nothing, childrenOf_eq located, split]
      rfl
  | cons leader before =>
      rw [(first_presses located coherent split).childrenOf, Function.update_self]
      rfl

theorem last_childrenOf :
    (press workspace (.resource collectionId ref) .last).childrenOf collectionId parentId =
      ((orderedCollectionChildren collection parentId).filter fun child => child ≠ ref) ++
        [ref] := by
  rw [children_without split]
  rcases List.eq_nil_or_concat right with rfl | ⟨after, closing, rfl⟩
  · have nothing : keyboardResourceMove collection ref .last = none := by
      rw [keyboardResourceMove_sibling (parentOf_of_children coherent split)
        (findIdx?_child split) (by decide) (by decide), split]
      simp [actionSibling]
    rw [press_of_none located nothing, childrenOf_eq located, split, List.append_nil]
  · rw [List.concat_eq_append] at split
    rw [(last_presses located coherent split).childrenOf, Function.update_self]
    simp

end Laws

/-- On every folder and request of a coherent workspace, the keys edit the ordered children of
its parent, and opposite keys take each other back. -/
theorem keyboardWorkspaceResourceMove_edits {workspace : Workspace} (coherent : workspace.Coherent)
    {collectionId : String} {collection : Collection}
    (located : workspace.collectionWithId collectionId = some collection)
    {ref : CollectionResourceRef} {parentId : String}
    (isResource : collection.parentOf ref = some parentId) :
    KeyboardEdits workspace collectionId ref parentId := by
  have isCoherent := coherent collection (List.mem_of_find?_eq_some located)
  have isChild := (mem_children_iff isCoherent.consistent).mpr isResource
  rcases List.append_of_mem isChild with ⟨left, right, split⟩
  constructor
  · intro before previous after children
    rw [childrenOf_eq located] at children
    rw [(up_presses located isCoherent children).childrenOf, Function.update_self]
  · intro before next after children
    rw [childrenOf_eq located] at children
    rw [(down_presses located isCoherent children).childrenOf, Function.update_self]
  · rw [childrenOf_eq located]
    exact first_childrenOf located isCoherent split
  · rw [childrenOf_eq located]
    exact last_childrenOf located isCoherent split
  · intro before folderId after children
    rw [childrenOf_eq located] at children
    have presses := indent_presses located isCoherent children
    have notParent := folder_ne_parent isCoherent (parentOf_of_children isCoherent children)
    rw [presses.childrenOf, presses.childrenOf, childrenOf_eq located]
    rw [Function.update_self, Function.update_of_ne notParent.symm, Function.update_self]
    exact ⟨rfl, rfl⟩
  · exact up_takesBack located isCoherent split
  · exact down_takesBack located isCoherent split
  · exact indent_takesBack located isCoherent split

/-- A folder and two requests at the top level. -/
def keyboardWorkspace : Workspace where
  collections := [
    { id := "source", expanded := true, content := .null
      resourceOrder := some ["folder", "first", "second"]
      folders := some [{ id := "folder", parentId := "", expanded := true, content := .null }]
      requests := [
        { id := "first", folderId := none, content := .null },
        { id := "second", folderId := some "", content := .null }] },
    { id := "target", expanded := true, resourceOrder := some [], content := .null, requests := []
      folders := none }]
  content := .null

theorem keyboardWorkspace_coherent : keyboardWorkspace.Coherent := by
  intro collection collectionMem
  simp only [keyboardWorkspace, List.mem_cons, List.not_mem_nil, or_false] at collectionMem
  rcases collectionMem with rfl | rfl
  · refine ⟨⟨by decide, Forest.of_rank (fun _ => 0) (by decide) (by decide)⟩, by decide, ?_⟩
    intro request requestMem
    left
    revert request
    decide
  · refine ⟨⟨by decide, Forest.of_rank (fun _ => 0) (by decide) (by decide)⟩, by decide, ?_⟩
    intro request requestMem
    cases requestMem

theorem keyboardWorkspace_edits :
    KeyboardEdits keyboardWorkspace "source" ⟨.request, "first"⟩ "" :=
  keyboardWorkspaceResourceMove_edits keyboardWorkspace_coherent rfl (by decide)

end Brunomnia.Resources
