import Brunomnia.Resources.Conserved

/-!
# Moving a folder

A folder moves with its computed subtree. Within a collection its new parent
lies outside of the subtree, so the links stay acyclic; across collections the
subtree is pruned from one forest and grafted into another one.
-/

namespace Brunomnia.Resources

open Brunomnia.Library

namespace FolderAccepted

variable {move : ResourceMove} {sourceIndex targetIndex : ℕ} {source target : Collection}
  {folder : RequestFolder}

theorem folder_mem
    (accepted : FolderAccepted move sourceIndex targetIndex source target folder) :
    folder ∈ source.folderList :=
  List.mem_of_find?_eq_some accepted.found

theorem folder_id
    (accepted : FolderAccepted move sourceIndex targetIndex source target folder) :
    folder.id = move.resourceId := by
  simpa using List.find?_some accepted.found

end FolderAccepted

/-! ## Well-formed hierarchies -/

theorem map_placeFolder_upwardLink (rootId parentId : String) (folders : List RequestFolder) :
    (folders.map (placeFolder rootId parentId)).map RequestFolder.upwardLink =
      (folders.map RequestFolder.upwardLink).map (reparent rootId (parentLink parentId)) := by
  simp [placeFolder_upwardLink, Function.comp_def]

theorem map_filter_upwardLink (folders : List RequestFolder) (keep : String → Bool) :
    (folders.filter fun folder => keep folder.id).map RequestFolder.upwardLink =
      (folders.map RequestFolder.upwardLink).filter fun link => keep link.1 := by
  rw [List.filter_map]
  rfl

/-- Within one collection the new parent is no part of the moved subtree. -/
theorem folderWithin_wellFormed {source : Collection} (wellFormed : source.WellFormed)
    {folder : RequestFolder} {parentId : String}
    (parentOk : parentId = "" ∨ parentId ∈ source.folderIds)
    (noCycle : parentId ≠ "" → parentId ∉ folderSubtree source folder.id) :
    HierarchyWellFormed
      (source.folderList.map fun candidate =>
        if candidate.id = folder.id then { candidate with parentId }
        else expandFolder parentId candidate) source.requests := by
  have links : (source.folderList.map fun candidate =>
      if candidate.id = folder.id then { candidate with parentId }
      else expandFolder parentId candidate).map RequestFolder.upwardLink =
        source.upwardLinks.map (reparent folder.id (parentLink parentId)) := by
    rw [Collection.upwardLinks, ← map_placeFolder_upwardLink, List.map_map, List.map_map]
    apply List.map_congr_left
    intro candidate _
    simp only [Function.comp_apply, placeFolder]
    split
    · rfl
    · exact expandFolder_upwardLink parentId candidate
  have ids := congrArg (List.map Prod.fst) links
  rw [map_upwardLink_fst] at ids
  refine ⟨?_, ?_⟩
  · have sameIds : (source.upwardLinks.map
        (reparent folder.id (parentLink parentId))).map Prod.fst = source.folderIds := by
      simp [Collection.upwardLinks, Collection.folderIds, RequestFolder.upwardLink,
        Function.comp_def]
    rw [ids, sameIds]
    exact wellFormed.nodup
  · rw [links]
    apply wellFormed.forest.move (folderSubtree_closed source folder.id)
      (root_mem_folderSubtree source folder.id)
    intro parent linked
    rcases parentLink_mem parentOk linked with ⟨rfl, notEmpty, folderMem⟩
    refine ⟨?_, noCycle notEmpty⟩
    rw [map_upwardLink_fst]
    exact folderMem

theorem folderTaken_wellFormed {source : Collection} (wellFormed : source.WellFormed)
    (rootId : String) (keep : ApiRequest → Bool) :
    HierarchyWellFormed
      (source.folderList.filter fun candidate =>
        decide (candidate.id ∉ folderSubtree source rootId))
      (source.requests.filter keep) where
  nodup := wellFormed.nodup.sublist
    ((List.filter_sublist.map _).append (List.filter_sublist.map _))
  forest := by
    rw [map_filter_upwardLink _ fun id => decide (id ∉ folderSubtree source rootId)]
    exact wellFormed.forest.prune (folderSubtree_closed source rootId)

/-- A collection that receives a subtree with none of its ids stays well formed. -/
theorem folderAdded_wellFormed {source target : Collection} (sourceOk : source.WellFormed)
    (targetOk : target.WellFormed) {rootId parentId : String} {movingRequestIds : List String}
    (parentOk : parentId = "" ∨ parentId ∈ target.folderIds)
    (absent : ∀ id ∈ folderSubtree source rootId ++ movingRequestIds, id ∉ target.resourceIds) :
    HierarchyWellFormed
      (target.folderList.map (expandFolder parentId) ++
        (source.folderList.filter fun candidate =>
          decide (candidate.id ∈ folderSubtree source rootId)).map (placeFolder rootId parentId))
      (target.requests ++ source.requests.filter fun request =>
        decide (request.id ∈ movingRequestIds)) := by
  set movedFolders := source.folderList.filter fun candidate =>
    decide (candidate.id ∈ folderSubtree source rootId) with movedFoldersEq
  set movedRequests := source.requests.filter fun request =>
    decide (request.id ∈ movingRequestIds) with movedRequestsEq
  have targetLinks : (target.folderList.map (expandFolder parentId)).map
      RequestFolder.upwardLink = target.upwardLinks := by
    simp [Collection.upwardLinks, Function.comp_def]
  refine ⟨?_, ?_⟩
  · -- Rearranged, the ids are those of the target followed by moved ids of the source.
    have idsPerm : ((target.folderList.map (expandFolder parentId) ++
        movedFolders.map (placeFolder rootId parentId)).map RequestFolder.id ++
          (target.requests ++ movedRequests).map ApiRequest.id).Perm
        (target.resourceIds ++
          (movedFolders.map RequestFolder.id ++ movedRequests.map ApiRequest.id)) := by
      have targetIds : (target.folderList.map (expandFolder parentId)).map RequestFolder.id =
          target.folderIds := by
        simp [Collection.folderIds, Function.comp_def]
      have placedIds : (movedFolders.map (placeFolder rootId parentId)).map RequestFolder.id =
          movedFolders.map RequestFolder.id := by
        simp [Function.comp_def]
      rw [List.map_append, List.map_append, targetIds, placedIds, Collection.resourceIds,
        List.append_assoc, List.append_assoc]
      apply List.Perm.append_left
      rw [← List.append_assoc, ← List.append_assoc]
      exact List.perm_append_comm.append_right _
    refine idsPerm.nodup_iff.mpr (List.nodup_append.mpr ⟨targetOk.nodup, ?_, ?_⟩)
    · exact sourceOk.nodup.sublist ((List.filter_sublist.map _).append (List.filter_sublist.map _))
    · rintro id idMem other otherMem rfl
      refine absent id ?_ idMem
      rcases List.mem_append.mp otherMem with folderMem | requestMem
      · rcases List.mem_map.mp folderMem with ⟨folder, keptMem, rfl⟩
        exact List.mem_append_left _ (by simpa using (List.mem_filter.mp keptMem).2)
      · rcases List.mem_map.mp requestMem with ⟨request, keptMem, rfl⟩
        exact List.mem_append_right _ (by simpa using (List.mem_filter.mp keptMem).2)
  · rw [List.map_append, targetLinks, map_placeFolder_upwardLink,
      map_filter_upwardLink _ fun id => decide (id ∈ folderSubtree source rootId)]
    apply targetOk.forest.graft sourceOk.forest
    · intro link linkMem inside notRoot parent linked
      rcases List.mem_map.mp linkMem with ⟨folder, folderMem, rfl⟩
      have parentInside := parentId_mem_folderSubtree sourceOk.folderIds_nodup folderMem inside
        notRoot
      simp only [RequestFolder.upwardLink, RequestFolder.parent?] at linked
      split at linked
      · simp at linked
      · simp only [Option.some.injEq] at linked
        exact linked ▸ parentInside
    · intro link _ inside targetMem
      rw [map_upwardLink_fst] at targetMem
      exact absent link.1 (List.mem_append_left _ inside) (List.mem_append_left _ targetMem)
    · intro parent linked
      rcases parentLink_mem parentOk linked with ⟨rfl, _, folderMem⟩
      rw [map_upwardLink_fst]
      exact folderMem

theorem moveFolder_wellFormed {before after : Workspace} {move : ResourceMove}
    {sourceIndex targetIndex : ℕ} {source target : Collection} (wellFormed : before.WellFormed)
    (endpoints : Endpoints before move sourceIndex targetIndex source target)
    (accepted : moveFolder before move sourceIndex targetIndex source target = some after) :
    after.WellFormed := by
  have sourceOk := wellFormed source endpoints.source_mem
  have targetOk := wellFormed target endpoints.target_mem
  rcases moveFolder_cases accepted with ⟨folder, folderAccepted, within | across⟩
  · rcases within with ⟨same, updated, rebuilt, rfl⟩
    have parentOk := endpoints.target_eq_source same ▸ endpoints.parentOk
    exact wellFormed_set wellFormed rfl (rebuilt.wellFormed
      (folderWithin_wellFormed sourceOk parentOk (folderAccepted.noCycle same)))
  · rcases across with ⟨different, updatedSource, updatedTarget, rebuiltSource, rebuiltTarget, rfl⟩
    have sourceLeft : Workspace.WellFormed
        { before with collections := before.collections.set sourceIndex updatedSource } :=
      wellFormed_set wellFormed rfl
        (rebuiltSource.wellFormed (folderTaken_wellFormed sourceOk folder.id _))
    exact wellFormed_set sourceLeft rfl (rebuiltTarget.wellFormed
      (folderAdded_wellFormed sourceOk targetOk endpoints.parentOk
        (folderAccepted.absent different)))

/-! ## Conservation -/

theorem placeFolder_changedOne {folders : List RequestFolder} {folder : RequestFolder}
    (nodup : (folders.map RequestFolder.id).Nodup) (folderMem : folder ∈ folders)
    (parentId : String) :
    ∃ rest, (folders.map RequestFolder.withoutExpanded).Perm (folder.withoutExpanded :: rest) ∧
      ((folders.map (placeFolder folder.id parentId)).map RequestFolder.withoutExpanded).Perm
        ({ folder.withoutExpanded with parentId } :: rest) := by
  have plainNodup : ((folders.map RequestFolder.withoutExpanded).map RequestFolder.id).Nodup := by
    rw [List.map_map]
    exact nodup
  rcases map_replace_perm RequestFolder.id plainNodup (List.mem_map_of_mem folderMem)
    (fun plain => { plain with parentId }) with ⟨rest, plainPerm, _, replacedPerm⟩
  refine ⟨rest, plainPerm, ?_⟩
  convert replacedPerm using 1
  rw [List.map_map, List.map_map]
  apply List.map_congr_left
  intro candidate _
  by_cases root : candidate.id = folder.id
  · simp [placeFolder, RequestFolder.withoutExpanded, root]
  · simp [placeFolder, RequestFolder.withoutExpanded, root]

/-- The folder and everything below it arrive in the target collection. -/
theorem moveFolder_subtreeMoves {before after : Workspace} {move : ResourceMove}
    {sourceIndex targetIndex : ℕ} {source target updatedSource updatedTarget : Collection}
    {folder : RequestFolder}
    (endpoints : Endpoints before move sourceIndex targetIndex source target)
    (folderAccepted : FolderAccepted move sourceIndex targetIndex source target folder)
    (rebuiltSource : Rebuilt source updatedSource
      (source.folderList.filter fun candidate =>
        decide (candidate.id ∉ folderSubtree source folder.id))
      (source.requests.filter fun request => decide (request.id ∉
        (movingRequests source (folderSubtree source folder.id)).map ApiRequest.id)))
    (rebuiltTarget : Rebuilt target updatedTarget
      (target.folderList.map (expandFolder move.targetParentId) ++
        (source.folderList.filter fun candidate =>
          decide (candidate.id ∈ folderSubtree source folder.id)).map
            (placeFolder folder.id move.targetParentId))
      (target.requests ++ source.requests.filter fun request => decide (request.id ∈
        (movingRequests source (folderSubtree source folder.id)).map ApiRequest.id)))
    (afterEq : after.collections =
      (before.collections.set sourceIndex updatedSource).set targetIndex updatedTarget) :
    SubtreeMoves before move after := by
  intro otherSourceIndex otherTargetIndex otherSource otherTarget others different
  rcases endpoints.unique others with ⟨rfl, rfl, rfl, rfl⟩
  rcases List.getElem?_eq_some_iff.mp endpoints.sourceAt with ⟨sourceInRange, _⟩
  rcases List.getElem?_eq_some_iff.mp endpoints.targetAt with ⟨targetInRange, _⟩
  refine ⟨updatedSource, updatedTarget, ?_, ?_, ?_, ?_⟩
  · rw [afterEq, List.getElem?_set_ne different.symm, List.getElem?_set_self sourceInRange]
  · rw [afterEq, List.getElem?_set_self (by simpa using targetInRange)]
  · intro below belowMem belowRoot
    rw [← folderAccepted.folder_id] at belowRoot ⊢
    have inside := mem_folderSubtree_of_below belowRoot
    refine ⟨?_, rebuiltTarget.folders.mem_iff.mpr (List.mem_append_right _
      (List.mem_map_of_mem (List.mem_filter.mpr ⟨belowMem, by simpa using inside⟩)))⟩
    intro left
    rcases List.mem_map.mp left with ⟨kept, keptMem, idEq⟩
    have keptOutside := (List.mem_filter.mp (rebuiltSource.folders.mem_iff.mp keptMem)).2
    rw [idEq] at keptOutside
    simp [inside] at keptOutside
  · intro request requestMem folderId folderIdEq notEmpty belowRoot
    rw [← folderAccepted.folder_id] at belowRoot
    have inside := mem_folderSubtree_of_below belowRoot
    have moving : request.id ∈
        (movingRequests source (folderSubtree source folder.id)).map ApiRequest.id := by
      apply List.mem_map_of_mem
      refine List.mem_filter.mpr ⟨requestMem, ?_⟩
      simp [folderIdEq, truthy, notEmpty, inside]
    refine ⟨?_, rebuiltTarget.requests.mem_iff.mpr (List.mem_append_right _
      (List.mem_filter.mpr ⟨requestMem, by simpa using moving⟩))⟩
    intro left
    rcases List.mem_map.mp left with ⟨kept, keptMem, idEq⟩
    have keptOutside := (List.mem_filter.mp (rebuiltSource.requests.mem_iff.mp keptMem)).2
    rw [idEq] at keptOutside
    exact absurd moving (of_decide_eq_true keptOutside)

theorem filter_not_append_perm {Item : Type} (items : List Item) (test : Item → Prop)
    [DecidablePred test] :
    items.Perm ((items.filter fun item => decide (¬ test item)) ++
      items.filter fun item => decide (test item)) := by
  have perm := List.filter_append_perm (fun item => decide (test item)) items
  simp only [← decide_not] at perm
  exact perm.symm.trans List.perm_append_comm

theorem moveFolder_movedExactly {before after : Workspace} {move : ResourceMove}
    {sourceIndex targetIndex : ℕ} {source target : Collection} (kind : move.kind = .folder)
    (wellFormed : before.WellFormed)
    (endpoints : Endpoints before move sourceIndex targetIndex source target)
    (accepted : moveFolder before move sourceIndex targetIndex source target = some after) :
    MovedExactly before (.resource move) after := by
  have sourceIds := (wellFormed source endpoints.source_mem).folderIds_nodup
  rcases moveFolder_cases accepted with ⟨folder, folderAccepted, within | across⟩
  · rcases within with ⟨same, updated, rebuilt, rfl⟩
    rcases flatMap_set_perm endpoints.sourceAt Collection.folderList with
      ⟨restFolders, foldersBefore, foldersAfter⟩
    rcases flatMap_set_perm endpoints.sourceAt Collection.requests with
      ⟨restRequests, requestsBefore, requestsAfter⟩
    refine ⟨by simp, ?_, Or.inr ?_, Or.inl ?_, ?_⟩
    · exact List.Perm.of_eq (map_fixedPart_set endpoints.sourceAt rebuilt.fixedPart)
    · rcases placeFolder_changedOne sourceIds folderAccepted.folder_mem move.targetParentId with
        ⟨others, plainPerm, placedPerm⟩
      refine ⟨folder.withoutExpanded,
        { folder.withoutExpanded with parentId := move.targetParentId },
        others ++ restFolders.map RequestFolder.withoutExpanded,
        ⟨move, rfl, kind, folderAccepted.folder_id, rfl⟩, ?_, ?_⟩
      · refine (foldersBefore.map _).trans ?_
        rw [List.map_append]
        exact plainPerm.append_right _
      · refine ((foldersAfter updated).map _).trans ?_
        rw [List.map_append]
        refine List.Perm.trans (List.Perm.append_right _ ?_)
          (placedPerm.append_right (restFolders.map RequestFolder.withoutExpanded))
        refine (rebuilt.folders.map _).trans (List.Perm.of_eq ?_)
        rw [List.map_map, List.map_map]
        apply List.map_congr_left
        intro candidate _
        simp only [Function.comp_apply, placeFolder]
        split
        · rfl
        · exact expandFolder_withoutExpanded _ _
    · refine (requestsAfter updated).trans (List.Perm.trans ?_ requestsBefore.symm)
      exact rebuilt.requests.append_right _
    · intro resource resourceEq _ _ otherSourceIndex otherTargetIndex otherSource otherTarget
        others different
      simp only [WorkspaceResourceMove.resource.injEq] at resourceEq
      subst resource
      rcases endpoints.unique others with ⟨rfl, rfl, _, _⟩
      exact absurd same different
  · rcases across with ⟨different, updatedSource, updatedTarget, rebuiltSource, rebuiltTarget, rfl⟩
    rcases flatMap_set_set_perm endpoints.sourceAt endpoints.targetAt different
      Collection.folderList with ⟨restFolders, foldersBefore, foldersAfter⟩
    rcases flatMap_set_set_perm endpoints.sourceAt endpoints.targetAt different
      Collection.requests with ⟨restRequests, requestsBefore, requestsAfter⟩
    refine ⟨by simp, ?_, Or.inr ?_, Or.inl ?_, ?_⟩
    · have targetAt : (before.collections.set sourceIndex updatedSource)[targetIndex]? =
          some target := by
        rw [List.getElem?_set_ne different]
        exact endpoints.targetAt
      apply List.Perm.of_eq
      rw [map_fixedPart_set targetAt rebuiltTarget.fixedPart]
      exact map_fixedPart_set endpoints.sourceAt rebuiltSource.fixedPart
    · have insideNodup : ((source.folderList.filter fun candidate =>
          decide (candidate.id ∈ folderSubtree source folder.id)).map RequestFolder.id).Nodup :=
        sourceIds.sublist (List.filter_sublist.map _)
      have folderInside : folder ∈ source.folderList.filter fun candidate =>
          decide (candidate.id ∈ folderSubtree source folder.id) := by
        refine List.mem_filter.mpr ⟨folderAccepted.folder_mem, ?_⟩
        simpa using root_mem_folderSubtree source folder.id
      rcases placeFolder_changedOne insideNodup folderInside move.targetParentId with
        ⟨others, plainPerm, placedPerm⟩
      set plain : List RequestFolder → List RequestFolder :=
        List.map RequestFolder.withoutExpanded with plainEq
      set outside := source.folderList.filter fun candidate =>
        decide (candidate.id ∉ folderSubtree source folder.id) with outsideEq
      refine ⟨folder.withoutExpanded,
        { folder.withoutExpanded with parentId := move.targetParentId },
        others ++ (plain outside ++ (plain target.folderList ++ plain restFolders)),
        ⟨move, rfl, kind, folderAccepted.folder_id, rfl⟩, ?_, ?_⟩
      · have sourceSplit := filter_not_append_perm source.folderList fun candidate =>
          candidate.id ∈ folderSubtree source folder.id
        refine ((foldersBefore.trans (sourceSplit.append_right _)).map _).trans ?_
        simp only [List.map_append, ← plainEq, ← outsideEq]
        refine (List.perm_append_comm.append_right _).trans ?_
        rw [List.append_assoc]
        exact plainPerm.append_right _
      · refine ((foldersAfter updatedSource updatedTarget).map _).trans ?_
        simp only [List.map_append, ← plainEq]
        refine ((rebuiltSource.folders.map _).append
          ((rebuiltTarget.folders.map _).append_right _)).trans ?_
        have expandedSame : (target.folderList.map (expandFolder move.targetParentId)).map
            RequestFolder.withoutExpanded = plain target.folderList := by
          simp [plainEq, Function.comp_def]
        rw [List.map_append, expandedSame]
        refine List.Perm.trans ?_ (placedPerm.append_right _)
        simp only [← plainEq, ← Multiset.coe_eq_coe, ← Multiset.coe_add]
        abel
    · refine (requestsAfter updatedSource updatedTarget).trans
        (List.Perm.trans ?_ requestsBefore.symm)
      refine (rebuiltSource.requests.append (rebuiltTarget.requests.append_right _)).trans ?_
      have sourceSplit := filter_not_append_perm source.requests fun request =>
        request.id ∈ (movingRequests source (folderSubtree source folder.id)).map ApiRequest.id
      refine List.Perm.trans ?_ (sourceSplit.symm.append_right _)
      rw [List.append_assoc, List.append_assoc]
      apply List.Perm.append_left
      rw [← List.append_assoc, ← List.append_assoc]
      exact List.perm_append_comm.append_right _
    · intro resource resourceEq _ _
      simp only [WorkspaceResourceMove.resource.injEq] at resourceEq
      subst resource
      exact moveFolder_subtreeMoves endpoints folderAccepted rebuiltSource rebuiltTarget rfl

end Brunomnia.Resources
