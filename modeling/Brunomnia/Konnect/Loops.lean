import Brunomnia.Konnect.Placement
import Brunomnia.Library.Lists
import Brunomnia.Library.Runs

/-!
# The loops of a synchronisation

What the loops over control planes and regions do to the catalog, when they raise, and what the
deletions and the last save add.
-/

namespace Brunomnia.Konnect

open Library

variable {Content : Type} (platform : Platform Content) (remote : Remote)
  (input : SyncInput Content)

/-! ## One control plane -/

/-- The region of a control plane has an address. -/
def Addressed (region : String) : Prop :=
  ∃ config, konnectConfigForRegion platform input.coordinator.konnect region = .ok config

section Upsert

variable {platform} {input} {started : Catalog Content}
  {placed : List (String × KonnectControlPlane)} {upsert : Upsert}

theorem nextWorkspace_standsFor (base : Workspace Content) (resources : Resources)
    {plane : KonnectControlPlane} (addressed : Addressed platform input plane.region) :
    ∃ next, (nextWorkspace platform input base plane resources).1 = .ok next ∧
      StandsFor input.coordinatorWorkspaceId next plane := by
  rcases addressed with ⟨config, isConfig⟩
  have regional : ∀ source : KonnectConfig,
      source.baseUrl = input.coordinator.konnect.baseUrl →
        ∃ result, konnectConfigForRegion platform source plane.region = .ok result := by
    intro source sameUrl
    simp only [konnectConfigForRegion, sameUrl] at isConfig ⊢
    split at isConfig
    case isTrue => exact absurd isConfig (by simp)
    case isFalse active =>
        rw [if_neg active]
        split at isConfig
        case h_1 => exact ⟨_, rfl⟩
        case h_2 => exact absurd isConfig (by simp)
  have kept : ∀ transient : Workspace Content,
      transient.konnect.baseUrl = input.coordinator.konnect.baseUrl →
        (platform.reconcile transient resources input.syncedAt).workspace.konnect.baseUrl =
          input.coordinator.konnect.baseUrl := by
    intro transient sameUrl
    rw [platform.keepsSettings]
    exact sameUrl
  rcases regional _ (kept { base with
    konnect := { input.coordinator.konnect with
      enabled := true
      controlPlaneId := plane.id
      controlPlanes := [plane] } } rfl) with ⟨result, isResult⟩
  simp only [nextWorkspace, managedWorkspace, isResult]
  exact ⟨_, rfl, rfl, rfl, rfl⟩

/-- A control plane is placed, unless it needs a new project and there is no space for one. -/
theorem upsertControlPlane_spec (ready : Ready platform input started)
    (state : SyncState Content) (resources : Resources)
    (placement : Placement platform input started state.catalog state.drawn placed)
    (addressed : Addressed platform input upsert.controlPlane.region)
    (known : ∀ id, upsert.workspaceId = some id →
      (managedKey platform input.coordinatorWorkspaceId started id).isSome ∧
        id ∉ placed.map Prod.fst) :
    (∃ next id,
      upsertControlPlane platform input
        (existingProjects platform input.coordinatorWorkspaceId started) state upsert
          resources = .ok next ∧
      Assigned started upsert (id, upsert.controlPlane) ∧
      Placement platform input started next.catalog next.drawn
        (placed ++ [(id, upsert.controlPlane)]) ∧
      next.successfulRegions = state.successfulRegions ∧ next.discovered = state.discovered) ∨
    (∃ error,
      upsertControlPlane platform input
        (existingProjects platform input.coordinatorWorkspaceId started) state upsert
          resources = .error ⟨error, state.catalog⟩ ∧
      upsert.workspaceId = none ∧ maxCatalogWorkspaces ≤ state.catalog.ids.length) := by
  simp only [upsertControlPlane]
  generalize workspaceEq : (upsert.workspaceId.bind
    (existingByWorkspaceId (existingProjects platform input.coordinatorWorkspaceId
      started))).getD (createBlankWorkspace platform.toStorage upsert.controlPlane.name
        input.coordinator.content) = workspace
  generalize ensureManagedEnvironment platform workspace upsert.controlPlane
    state.environmentsDrawn = ensured
  rcases ensured with ⟨base, environmentsDrawn⟩
  rcases nextWorkspace_standsFor base resources addressed with
    ⟨next, isNext, standsFor⟩
  simp only [isNext]
  cases idEq : upsert.workspaceId with
  | some id =>
      rcases known id idEq with ⟨managed, notPlaced⟩
      rcases Option.isSome_iff_exists.mp (existingByWorkspaceId_isSome managed) with
        ⟨prior, isPrior⟩
      have idMem : id ∈ state.catalog.ids := by
        rcases Option.isSome_iff_exists.mp managed with ⟨key, isKey⟩
        exact placement.mem_ids (mem_ids_of_managedKey isKey)
      rcases Catalog.saveCatalogWorkspace_eq next idMem with
        ⟨saved, isSaved, projects, active⟩
      simp only [Option.bind_some, isPrior, isSaved, attempt, Except.map]
      refine .inl ⟨_, id, rfl, ⟨rfl, ?_, ?_⟩, ?_, rfl, rfl⟩
      · intro other isOther
        rw [idEq, Option.some.injEq] at isOther
        exact isOther
      · intro noId
        exact absurd (noId.symm.trans idEq) (by simp)
      · exact placement.save managed notPlaced projects active standsFor
  | none =>
      by_cases space : state.catalog.ids.length < maxCatalogWorkspaces
      · rcases Catalog.createCatalogWorkspaceInactive_eq next
          (platform.projectUuid_valid state.drawn) space (placement.fresh_key space)
            (placement.readable ready) with ⟨created, isCreated, projects, active⟩
        simp only [projectId, isCreated, attempt, Except.map]
        refine .inl ⟨_, projectId platform state.drawn, rfl, ⟨rfl, ?_, ?_⟩, ?_, rfl, rfl⟩
        · intro other isOther
          exact absurd (idEq.symm.trans isOther) (by simp)
        · exact fun _ => mt placement.mem_ids (placement.fresh_key space)
        · exact placement.create space projects active standsFor
      · rcases Catalog.createCatalogWorkspaceInactive_full next
          (projectId platform state.drawn) (not_lt.mp space) with
          ⟨error, isError⟩
        simp only [isError, attempt, Except.map]
        exact .inr ⟨error, rfl, trivial, not_lt.mp space⟩

end Upsert

/-! ## The control planes of a region -/

/-- The control planes up to the first one whose resources cannot be loaded. -/
def reached (region : String) : ℕ → List Upsert → List Upsert
  | _, [] => []
  | index, upsert :: rest =>
      match remote.resources region index with
      | .ok _ => upsert :: reached region (index + 1) rest
      | .error _ => []

/-- How many new projects some control planes need. -/
def creations (upserts : List Upsert) : ℕ :=
  upserts.countP fun upsert => upsert.workspaceId.isNone

@[simp]
theorem creations_append (first second : List Upsert) :
    creations (first ++ second) = creations first + creations second :=
  List.countP_append

theorem reached_isInitial (region : String) (index : ℕ) (upserts : List Upsert) :
    reached remote region index upserts <+: upserts := by
  induction upserts generalizing index with
  | nil => exact List.prefix_rfl
  | cons upsert rest ih =>
      simp only [reached]
      split
      · exact (List.prefix_cons_inj upsert).mpr (ih (index + 1))
      · exact List.nil_prefix

section ControlPlanes

variable {platform} {remote} {input} {started : Catalog Content}

variable (platform) (input) in
/-- The upserts ask for projects that the coordinator manages, each for another one, and nothing
was placed in them. -/
structure Open (started : Catalog Content) (placed : List (String × KonnectControlPlane))
    (upserts : List Upsert) : Prop where
  managed : ∀ upsert ∈ upserts, ∀ id, upsert.workspaceId = some id →
    (managedKey platform input.coordinatorWorkspaceId started id).isSome
  notPlaced : ∀ upsert ∈ upserts, ∀ id, upsert.workspaceId = some id →
    id ∉ placed.map Prod.fst
  nodup : (upserts.filterMap Upsert.workspaceId).Nodup

theorem Assigned.known_iff {upsert : Upsert} {entry : String × KonnectControlPlane}
    (assigned : Assigned started upsert entry)
    (managed : ∀ id, upsert.workspaceId = some id →
      (managedKey platform input.coordinatorWorkspaceId started id).isSome) :
    entry.1 ∉ started.ids ↔ upsert.workspaceId.isNone := by
  cases idEq : upsert.workspaceId with
  | none => simpa using assigned.created idEq
  | some id =>
      rcases Option.isSome_iff_exists.mp (managed id idEq) with ⟨key, isKey⟩
      rw [assigned.retained id idEq]
      simpa using mem_ids_of_managedKey isKey

/-- After a control plane was placed, the rest can still be placed. -/
theorem Open.tail {placed : List (String × KonnectControlPlane)} {upsert : Upsert}
    {rest : List Upsert} {entry : String × KonnectControlPlane}
    (isOpen : Open platform input started placed (upsert :: rest))
    (assigned : Assigned started upsert entry) :
    Open platform input started (placed ++ [entry]) rest where
  managed other otherMem := isOpen.managed other (List.mem_cons_of_mem _ otherMem)
  notPlaced := by
    intro other otherMem id isId
    have before := isOpen.notPlaced other (List.mem_cons_of_mem _ otherMem) id isId
    have different : id ≠ entry.1 := by
      intro same
      cases idEq : upsert.workspaceId with
      | none =>
          rcases Option.isSome_iff_exists.mp
            (isOpen.managed other (List.mem_cons_of_mem _ otherMem) id isId) with ⟨key, isKey⟩
          exact assigned.created idEq (same ▸ mem_ids_of_managedKey isKey)
      | some taken =>
          have nodup := isOpen.nodup
          rw [List.filterMap_cons_some idEq, List.nodup_cons] at nodup
          apply nodup.1
          rw [assigned.retained taken idEq] at same
          exact List.mem_filterMap.mpr ⟨other, otherMem, same ▸ isId⟩
    rw [List.map_append, List.mem_append, not_or]
    exact ⟨before, by simpa using different⟩
  nodup := by
    have nodup := isOpen.nodup
    rw [List.filterMap_cons] at nodup
    split at nodup
    · exact nodup
    · exact (List.nodup_cons.mp nodup).2

theorem Placement.length {catalog : Catalog Content} {drawn : ℕ}
    {placed : List (String × KonnectControlPlane)}
    (placement : Placement platform input started catalog drawn placed) :
    catalog.ids.length =
      started.ids.length + placed.countP fun entry => entry.1 ∉ started.ids := by
  rw [placement.ids, List.length_append, ← List.countP_eq_length_filter, List.countP_map]
  rfl

variable (remote) in
theorem syncControlPlanes_spec (ready : Ready platform input started)
    (state : SyncState Content) {region : String}
    (addressed : Addressed platform input region) (upserts : List Upsert)
    (index : ℕ) {placed : List (String × KonnectControlPlane)}
    (ofRegion : ∀ upsert ∈ upserts, upsert.controlPlane.region = region)
    (placement : Placement platform input started state.catalog state.drawn placed)
    (isOpen : Open platform input started placed upserts) :
    (∃ next entries,
      syncControlPlanes platform remote input
        (existingProjects platform input.coordinatorWorkspaceId started) region index upserts
          state =
            .ok (next, decide ((reached remote region index upserts).length < upserts.length)) ∧
      List.Forall₂ (Assigned started) (reached remote region index upserts) entries ∧
      Placement platform input started next.catalog next.drawn (placed ++ entries) ∧
      next.successfulRegions = state.successfulRegions ∧ next.discovered = state.discovered) ∨
    (∃ interrupted drawn later,
      syncControlPlanes platform remote input
        (existingProjects platform input.coordinatorWorkspaceId started) region index upserts
          state = .error interrupted ∧
      Placement platform input started interrupted.catalog drawn later ∧
      maxCatalogWorkspaces <
        state.catalog.ids.length + creations (reached remote region index upserts)) := by
  induction upserts generalizing index state placed with
  | nil =>
      refine .inl ⟨state, [], rfl, .nil, ?_, rfl, rfl⟩
      rwa [List.append_nil]
  | cons upsert rest ih =>
      cases resourcesEq : remote.resources region index with
      | error failure =>
          simp only [syncControlPlanes, reached, resourcesEq]
          refine .inl ⟨state.countControlPlane.skipRegion region failure, [], ?_, .nil, ?_, rfl,
            rfl⟩
          · simp
          · rw [List.append_nil]
            exact placement
      | ok resources =>
          simp only [syncControlPlanes, reached, resourcesEq]
          have here : Addressed platform input upsert.controlPlane.region := by
            rwa [ofRegion upsert List.mem_cons_self]
          rcases upsertControlPlane_spec ready state.countControlPlane resources placement
            here
              (fun id isId => ⟨isOpen.managed upsert List.mem_cons_self id isId,
                isOpen.notPlaced upsert List.mem_cons_self id isId⟩) with
            ⟨next, id, isNext, assigned, nextPlacement, sameSuccessful, sameDiscovered⟩ |
              ⟨error, isError, isNew, full⟩
          · have grown : next.catalog.ids.length =
                state.catalog.ids.length + creations [upsert] := by
              rw [nextPlacement.length, placement.length, List.countP_append]
              have known := assigned.known_iff
                (isOpen.managed upsert List.mem_cons_self)
              simp only [creations, List.countP_cons, List.countP_nil, known, Nat.zero_add,
                Bool.decide_eq_true]
              omega
            simp only [isNext]
            rcases ih next (index + 1) (fun other otherMem =>
              ofRegion other (List.mem_cons_of_mem _ otherMem)) nextPlacement
                (isOpen.tail assigned) with
              ⟨last, entries, isLast, allAssigned, lastPlacement, successful, discovered⟩ |
                ⟨interrupted, drawn, later, isInterrupted, laterPlacement, tooMany⟩
            · refine .inl ⟨last, (id, upsert.controlPlane) :: entries, ?_,
                .cons assigned allAssigned, ?_, successful.trans sameSuccessful,
                discovered.trans sameDiscovered⟩
              · rw [isLast]
                simp
              · rwa [List.append_assoc] at lastPlacement
            · refine .inr ⟨interrupted, drawn, later, isInterrupted, laterPlacement, ?_⟩
              rw [← List.singleton_append, creations_append]
              omega
          · refine .inr ⟨⟨error, state.catalog⟩, state.drawn, placed, ?_, placement, ?_⟩
            · simp only [isError]
              rfl
            rw [← List.singleton_append, creations_append]
            have one : creations [upsert] = 1 := by simp [creations, isNew]
            have sameCatalog : state.countControlPlane.catalog = state.catalog := rfl
            rw [sameCatalog] at full
            omega

end ControlPlanes

/-! ## The regions -/

/-- The control planes that are found in a region. -/
def planesOf (region : String) : List KonnectControlPlane :=
  match loadKonnectControlPlanesForRegion platform remote input.coordinator.konnect region with
  | .ok planes => planes
  | .error _ => []

def regionUpserts (started : Catalog Content) (region : String) : List Upsert :=
  (planKonnectCatalogReconciliation (managedProjects platform input.coordinatorWorkspaceId started)
    (planesOf platform remote input region) []).upserts

def reachedUpserts (started : Catalog Content) (region : String) : List Upsert :=
  reached remote region 0 (regionUpserts platform remote input started region)

/-- The control planes of a region are listed and the resources of each are loaded. -/
def CompleteRegion (region : String) : Prop :=
  ∃ planes, loadKonnectControlPlanesForRegion platform remote input.coordinator.konnect region =
    .ok planes ∧ ∀ k < planes.length, ∃ resources, remote.resources region k = .ok resources

/-- The list of a region fails with what the code takes for the gap of Singapore. -/
def TakenForGap (region : String) : Prop :=
  ∃ failure, loadKonnectControlPlanesForRegion platform remote input.coordinator.konnect region =
    .error failure ∧ isSingaporePermissionGap region failure = true

/-- A run after some regions. -/
structure Progress (started : Catalog Content) (processed : List String)
    (state : SyncState Content) (placed : List (String × KonnectControlPlane)) : Prop where
  placement : Placement platform input started state.catalog state.drawn placed
  assigned : List.Forall₂ (Assigned started)
    (processed.flatMap (reachedUpserts platform remote input started)) placed
  successful : ∀ region, region ∈ state.successfulRegions ↔ region ∈ processed ∧
    (CompleteRegion platform remote input region ∨ TakenForGap platform remote input region)
  discovered : state.discovered = processed.flatMap (planesOf platform remote input)

section Regions

variable {platform} {remote} {input} {started : Catalog Content}

theorem region_of_planesOf {region : String} {plane : KonnectControlPlane}
    (planeMem : plane ∈ planesOf platform remote input region) : plane.region = region := by
  simp only [planesOf, loadKonnectControlPlanesForRegion] at planeMem
  split at planeMem
  case h_1 loaded =>
      split at loaded
      · exact absurd loaded (by simp)
      · split at loaded
        · exact absurd loaded (by simp)
        · split at loaded
          · exact absurd loaded (by simp)
          · rcases Library.map_eq_ok.mp loaded with ⟨records, _, rfl⟩
            exact region_of_parsed planeMem
  case h_2 => exact absurd planeMem (by simp)

theorem addressed_of_loaded {region : String} {planes : List KonnectControlPlane}
    (loaded : loadKonnectControlPlanesForRegion platform remote input.coordinator.konnect region =
      .ok planes) : Addressed platform input region := by
  simp only [loadKonnectControlPlanesForRegion] at loaded
  split at loaded
  · exact absurd loaded (by simp)
  · exact ⟨_, by assumption⟩

variable (remote) in
theorem reached_eq_iff (region : String) (index : ℕ) (upserts : List Upsert) :
    (reached remote region index upserts).length = upserts.length ↔
      ∀ k < upserts.length, ∃ resources, remote.resources region (index + k) = .ok resources := by
  induction upserts generalizing index with
  | nil => simp [reached]
  | cons upsert rest ih =>
      simp only [reached]
      cases resourcesEq : remote.resources region index with
      | error failure =>
          simp only [List.length_nil, List.length_cons]
          constructor
          · exact fun eq => absurd eq (by omega)
          · intro loaded
            rcases loaded 0 (by omega) with ⟨resources, isLoaded⟩
            rw [Nat.add_zero, resourcesEq] at isLoaded
            exact absurd isLoaded (by simp)
      | ok resources =>
          simp only [List.length_cons, Nat.add_right_cancel_iff, ih]
          constructor
          · intro later k inRange
            cases k with
            | zero => exact ⟨resources, by simpa using resourcesEq⟩
            | succ k =>
                rcases later k (by omega) with ⟨found, isFound⟩
                exact ⟨found, by rw [← isFound]; congr 1; omega⟩
          · intro loaded k inRange
            rcases loaded (k + 1) (by omega) with ⟨found, isFound⟩
            exact ⟨found, by rw [← isFound]; congr 1; omega⟩

variable (platform) (remote) (input) in
theorem regionUpserts_length (started : Catalog Content) (region : String) :
    (regionUpserts platform remote input started region).length =
      (planesOf platform remote input region).length := by
  have same := congrArg List.length (upserts_controlPlanes
    (managedProjects platform input.coordinatorWorkspaceId started)
    (planesOf platform remote input region) [])
  rwa [List.length_map] at same

theorem controlPlane_of_regionUpserts {region : String} {upsert : Upsert}
    (upsertMem : upsert ∈ regionUpserts platform remote input started region) :
    upsert.controlPlane ∈ planesOf platform remote input region := by
  have mapped := List.mem_map_of_mem (f := Upsert.controlPlane) upsertMem
  rwa [regionUpserts, upserts_controlPlanes] at mapped

theorem project_of_regionUpserts {region : String} {upsert : Upsert} {id : String}
    (upsertMem : upsert ∈ regionUpserts platform remote input started region)
    (hasId : upsert.workspaceId = some id) :
    managedKey platform input.coordinatorWorkspaceId started id =
      some upsert.controlPlane.key := by
  rcases project_of_upsert upsertMem hasId with ⟨project, projectMem, rfl, sameKey⟩
  rw [← sameKey]
  exact mem_managedProjects_iff.mp projectMem

theorem Progress.open {processed : List String} {state : SyncState Content}
    {placed : List (String × KonnectControlPlane)} {region : String}
    (progress : Progress platform remote input started processed state placed)
    (isNew : region ∉ processed) :
    Open platform input started placed
      (regionUpserts platform remote input started region) where
  managed := by
    intro upsert upsertMem id isId
    rw [project_of_regionUpserts upsertMem isId]
    rfl
  notPlaced := by
    intro upsert upsertMem id isId idPlaced
    rcases List.mem_map.mp idPlaced with ⟨entry, entryMem, rfl⟩
    rcases Library.exists_source progress.assigned entryMem with ⟨other, otherMem, assigned⟩
    rcases List.mem_flatMap.mp otherMem with ⟨before, beforeMem, otherReached⟩
    have otherUpsert := (reached_isInitial remote before 0 _).subset otherReached
    have managed := project_of_regionUpserts upsertMem isId
    cases otherId : other.workspaceId with
    | none => exact assigned.created otherId (mem_ids_of_managedKey managed)
    | some id =>
        have otherManaged := project_of_regionUpserts otherUpsert otherId
        rw [← assigned.retained id otherId, managed, Option.some.injEq] at otherManaged
        have sameRegion : region = before := by
          rw [← region_of_planesOf (controlPlane_of_regionUpserts upsertMem),
            ← region_of_planesOf (controlPlane_of_regionUpserts otherUpsert)]
          exact congrArg Prod.fst otherManaged
        exact isNew (sameRegion ▸ beforeMem)
  nodup := upserts_workspaceIds_nodup managedProjects_nodup

theorem syncRegion_spec (ready : Ready platform input started) {processed : List String}
    {state : SyncState Content} {placed : List (String × KonnectControlPlane)} {region : String}
    (progress : Progress platform remote input started processed state placed)
    (isNew : region ∉ processed) :
    (∃ next later,
      syncRegion platform remote input
        (existingProjects platform input.coordinatorWorkspaceId started) state region =
          .ok next ∧
      Progress platform remote input started (processed ++ [region]) next later) ∨
    (∃ interrupted drawn later,
      syncRegion platform remote input
        (existingProjects platform input.coordinatorWorkspaceId started) state region =
          .error interrupted ∧
      Placement platform input started interrupted.catalog drawn later ∧
      maxCatalogWorkspaces < state.catalog.ids.length +
        creations (reachedUpserts platform remote input started region)) := by
  cases loadedEq : loadKonnectControlPlanesForRegion platform remote input.coordinator.konnect
      region with
  | error failure =>
      have noPlanes : planesOf platform remote input region = [] := by
        simp only [planesOf, loadedEq]
      have noUpserts : reachedUpserts platform remote input started region = [] := by
        have noLength := regionUpserts_length platform remote input started region
        rw [noPlanes, List.length_nil] at noLength
        rw [reachedUpserts, List.length_eq_zero_iff.mp noLength]
        rfl
      have notComplete : ¬ CompleteRegion platform remote input region := by
        rintro ⟨planes, loaded, _⟩
        rw [loadedEq] at loaded
        exact absurd loaded (by simp)
      have gap : TakenForGap platform remote input region ↔
          isSingaporePermissionGap region failure = true := by
        constructor
        · rintro ⟨other, failed, isGap⟩
          rw [loadedEq, Except.error.injEq] at failed
          rwa [failed]
        · exact fun isGap => ⟨failure, loadedEq, isGap⟩
      left
      simp only [syncRegion, loadedEq]
      by_cases isGap : isSingaporePermissionGap region failure = true
      · refine ⟨state.succeed region, placed, if_pos isGap, progress.placement, ?_, ?_, ?_⟩
        · simpa [noUpserts] using progress.assigned
        · intro other
          simp only [SyncState.succeed, List.mem_append, List.mem_singleton,
            progress.successful]
          constructor
          · rintro (⟨before, holds⟩ | rfl)
            · exact ⟨.inl before, holds⟩
            · exact ⟨.inr rfl, .inr (gap.mpr isGap)⟩
          · rintro ⟨before | rfl, holds⟩
            · exact .inl ⟨before, holds⟩
            · exact .inr rfl
        · simpa [noPlanes, SyncState.succeed] using progress.discovered
      · refine ⟨state.skipRegion region failure, placed, if_neg isGap, progress.placement, ?_, ?_,
          ?_⟩
        · simpa [noUpserts] using progress.assigned
        · intro other
          simp only [SyncState.skipRegion, List.mem_append, List.mem_singleton,
            progress.successful]
          constructor
          · rintro ⟨before, holds⟩
            exact ⟨.inl before, holds⟩
          · rintro ⟨before | rfl, holds⟩
            · exact ⟨before, holds⟩
            · exact absurd holds (by simp [notComplete, gap, isGap])
        · simpa [noPlanes, SyncState.skipRegion] using progress.discovered
  | ok planes =>
      have isPlanes : planesOf platform remote input region = planes := by
        simp only [planesOf, loadedEq]
      have notGap : ¬ TakenForGap platform remote input region := by
        rintro ⟨failure, failed, _⟩
        rw [loadedEq] at failed
        exact absurd failed (by simp)
      have upsertsEq : (planKonnectCatalogReconciliation ((existingProjects platform
          input.coordinatorWorkspaceId started).map Prod.fst) planes []).upserts =
            regionUpserts platform remote input started region := by
        rw [regionUpserts, isPlanes]
        rfl
      have complete : CompleteRegion platform remote input region ↔
          ¬ (reachedUpserts platform remote input started region).length <
            (regionUpserts platform remote input started region).length := by
        have lengthLe := (reached_isInitial remote region 0
          (regionUpserts platform remote input started region)).length_le
        have reachedAll := reached_eq_iff remote region 0
          (regionUpserts platform remote input started region)
        simp only [Nat.zero_add, regionUpserts_length, isPlanes] at reachedAll
        rw [reachedUpserts, not_lt, regionUpserts_length, isPlanes]
        rw [regionUpserts_length, isPlanes] at lengthLe
        constructor
        · rintro ⟨other, loaded, resources⟩
          rw [loadedEq, Except.ok.injEq] at loaded
          subst loaded
          exact (reachedAll.mpr resources).ge
        · intro ge
          exact ⟨planes, loadedEq, reachedAll.mp (le_antisymm lengthLe ge)⟩
      simp only [syncRegion, loadedEq, upsertsEq]
      rcases syncControlPlanes_spec remote ready
          { state with discovered := state.discovered ++ planes } (addressed_of_loaded loadedEq)
          (regionUpserts platform remote input started region) 0
          (fun upsert upsertMem =>
            region_of_planesOf (controlPlane_of_regionUpserts upsertMem)) progress.placement
              (progress.open isNew) with
        ⟨next, entries, isNext, assigned, placement, sameSuccessful, sameDiscovered⟩ |
          ⟨interrupted, drawn, later, isInterrupted, placement, tooMany⟩
      · left
        have nextAssigned : List.Forall₂ (Assigned started)
            ((processed ++ [region]).flatMap (reachedUpserts platform remote input started))
              (placed ++ entries) := by
          rw [List.flatMap_append, List.flatMap_singleton]
          exact List.rel_append progress.assigned assigned
        have nextDiscovered : next.discovered =
            (processed ++ [region]).flatMap (planesOf platform remote input) := by
          rw [sameDiscovered, List.flatMap_append, List.flatMap_singleton, isPlanes,
            progress.discovered]
        rw [isNext]
        by_cases failed : (reached remote region 0
            (regionUpserts platform remote input started region)).length <
              (regionUpserts platform remote input started region).length
        · refine ⟨next, placed ++ entries, by simp [failed], placement, nextAssigned, ?_,
            nextDiscovered⟩
          intro other
          simp only [sameSuccessful, List.mem_append, List.mem_singleton, progress.successful]
          constructor
          · rintro ⟨before, holds⟩
            exact ⟨.inl before, holds⟩
          · rintro ⟨before | rfl, holds⟩
            · exact ⟨before, holds⟩
            · have notComplete := mt complete.mp (not_not.mpr failed)
              exact absurd holds (by simp [notComplete, notGap])
        · refine ⟨next.succeed region, placed ++ entries, by simp [failed], placement,
            nextAssigned, ?_, nextDiscovered⟩
          intro other
          simp only [SyncState.succeed, sameSuccessful, List.mem_append, List.mem_singleton,
            progress.successful]
          constructor
          · rintro (⟨before, holds⟩ | rfl)
            · exact ⟨.inl before, holds⟩
            · exact ⟨.inr rfl, .inl (complete.mpr failed)⟩
          · rintro ⟨before | rfl, holds⟩
            · exact .inl ⟨before, holds⟩
            · exact .inr rfl
      · right
        refine ⟨interrupted, drawn, later, by rw [isInterrupted], placement, tooMany⟩

theorem Progress.length {processed : List String} {state : SyncState Content}
    {placed : List (String × KonnectControlPlane)}
    (progress : Progress platform remote input started processed state placed) :
    state.catalog.ids.length = started.ids.length +
      creations (processed.flatMap (reachedUpserts platform remote input started)) := by
  rw [progress.placement.length]
  congr 1
  have managed : ∀ upsert ∈
      processed.flatMap (reachedUpserts platform remote input started), ∀ id,
        upsert.workspaceId = some id →
          (managedKey platform input.coordinatorWorkspaceId started id).isSome := by
    intro upsert upsertMem id isId
    rcases List.mem_flatMap.mp upsertMem with ⟨region, _, isReached⟩
    rw [project_of_regionUpserts ((reached_isInitial remote region 0 _).subset isReached) isId]
    rfl
  have assigned := progress.assigned
  generalize processed.flatMap (reachedUpserts platform remote input started) = upserts at *
  clear progress
  induction assigned with
  | nil => rfl
  | @cons upsert entry upserts placed head _ ih =>
      have here := head.known_iff (managed upsert List.mem_cons_self)
      have rest := ih fun other otherMem => managed other (List.mem_cons_of_mem _ otherMem)
      simp only [creations, List.countP_cons, here, Bool.decide_eq_true] at rest ⊢
      rw [rest]

theorem syncRegions_spec (ready : Ready platform input started) (regions : List String)
    {processed : List String} {state : SyncState Content}
    {placed : List (String × KonnectControlPlane)}
    (progress : Progress platform remote input started processed state placed)
    (nodup : (processed ++ regions).Nodup) :
    (∃ next later,
      syncRegions platform remote input
        (existingProjects platform input.coordinatorWorkspaceId started) regions state =
          .ok next ∧
      Progress platform remote input started (processed ++ regions) next later) ∨
    (∃ interrupted drawn later,
      syncRegions platform remote input
        (existingProjects platform input.coordinatorWorkspaceId started) regions state =
          .error interrupted ∧
      Placement platform input started interrupted.catalog drawn later ∧
      maxCatalogWorkspaces < state.catalog.ids.length +
        creations (regions.flatMap (reachedUpserts platform remote input started))) := by
  induction regions generalizing processed state placed with
  | nil => exact .inl ⟨state, placed, rfl, by rwa [List.append_nil]⟩
  | cons region rest ih =>
      have isNew : region ∉ processed := by
        intro before
        exact (List.nodup_append.mp nodup).2.2 region before region List.mem_cons_self rfl
      have shifted : processed ++ region :: rest = (processed ++ [region]) ++ rest := by simp
      simp only [syncRegions]
      rcases syncRegion_spec ready progress isNew with
        ⟨next, later, isNext, nextProgress⟩ |
          ⟨interrupted, drawn, later, isInterrupted, placement, tooMany⟩
      · simp only [isNext]
        rw [shifted] at nodup ⊢
        rcases ih nextProgress nodup with ⟨last, placedLast, isLast, lastProgress⟩ |
          ⟨interrupted, drawn, later, isInterrupted, placement, tooMany⟩
        · exact .inl ⟨last, placedLast, isLast, lastProgress⟩
        · refine .inr ⟨interrupted, drawn, later, isInterrupted, placement, ?_⟩
          have before := progress.length
          have after := nextProgress.length
          rw [List.flatMap_append, List.flatMap_singleton, creations_append] at after
          rw [List.flatMap_cons, creations_append]
          omega
      · refine .inr ⟨interrupted, drawn, later, by simp only [isInterrupted], placement, ?_⟩
        rw [List.flatMap_cons, creations_append]
        omega

end Regions

/-! ## The end of a run -/

section Finish

variable {platform} {remote} {input} {started : Catalog Content}

/-- Projects that are there and are not active are deleted, and nothing else is. -/
theorem deleteProjects_spec (ids : List String) (state : SyncState Content) (nodup : ids.Nodup)
    (present : ∀ id ∈ ids, id ∈ state.catalog.ids)
    (readable : (state.catalog.stored state.catalog.activeWorkspaceId).isSome)
    (notActive : state.catalog.activeWorkspaceId ∉ ids) :
    ∃ next, deleteProjects ids state = .ok next ∧
      next.catalog.ids = state.catalog.ids.filter (· ∉ ids) ∧
      (∀ id ∉ ids, next.catalog.projects.read id = state.catalog.projects.read id) ∧
      next.catalog.activeWorkspaceId = state.catalog.activeWorkspaceId := by
  induction ids generalizing state with
  | nil => exact ⟨state, rfl, by simp, fun _ _ => rfl, rfl⟩
  | cons id rest ih =>
      rw [List.mem_cons, not_or] at notActive
      rw [List.nodup_cons] at nodup
      rcases Catalog.deleteCatalogWorkspace_eq (present id List.mem_cons_self) readable
        notActive.1 with ⟨deleted, isDeleted, projects, active⟩
      have deletedIds : deleted.ids = state.catalog.ids.filter (· ≠ id) := by
        rw [Catalog.ids, projects, Store.keys_remove]
        rfl
      rcases ih { state with
          catalog := deleted
          controlPlanes := { state.controlPlanes with
            deleted := state.controlPlanes.deleted + 1 } } nodup.2
        (fun other otherMem => by
          rw [deletedIds, List.mem_filter]
          refine ⟨present other (List.mem_cons_of_mem _ otherMem), decide_eq_true ?_⟩
          rintro rfl
          exact nodup.1 otherMem)
        (by
          simp only [active, Catalog.stored, projects]
          rw [Store.read_remove_of_ne notActive.1]
          exact readable)
        (by simpa [active] using notActive.2) with ⟨next, isNext, ids, others, sameActive⟩
      simp only [deleteProjects, isDeleted]
      refine ⟨next, isNext, ?_, ?_, sameActive.trans active⟩
      · rw [ids, deletedIds, List.filter_filter]
        apply List.filter_congr
        intro other _
        by_cases isId : other = id <;> simp [isId]
      · intro other otherKept
        rw [List.mem_cons, not_or] at otherKept
        rw [others other otherKept.2]
        simp only [projects]
        exact Store.read_remove_of_ne otherKept.1

variable (platform) (input) in
/-- The projects that a run deletes at its end. -/
def deletedIds (started : Catalog Content) (state : SyncState Content) : List String :=
  (planKonnectCatalogReconciliation
    (managedProjects platform input.coordinatorWorkspaceId started) state.discovered
      state.successfulRegions).deleteWorkspaceIds

variable (platform) (input) in
/-- What the end of a run leaves. -/
structure Finished (started : Catalog Content) (state : SyncState Content)
    (result : SyncResult Content) : Prop where
  ids : result.catalog.ids =
    state.catalog.ids.filter (· ∉ deletedIds platform input started state)
  others : ∀ id ∉ deletedIds platform input started state, id ≠ input.coordinatorWorkspaceId →
    result.catalog.projects.read id = state.catalog.projects.read id
  active : result.catalog.activeWorkspaceId = input.coordinatorWorkspaceId
  coordinator : result.catalog.projects.read input.coordinatorWorkspaceId =
    some (some result.coordinator)
  enabled : result.coordinator.konnect.enabled = input.coordinator.konnect.enabled
  baseUrl : result.coordinator.konnect.baseUrl = input.coordinator.konnect.baseUrl
  token : result.coordinator.konnect.token = input.coordinator.konnect.token
  unmanaged : result.coordinator.konnect.managedControlPlaneId =
    input.coordinator.konnect.managedControlPlaneId

theorem managed_of_deletedIds {state : SyncState Content} {id : String}
    (idMem : id ∈ deletedIds platform input started state) :
    (managedKey platform input.coordinatorWorkspaceId started id).isSome := by
  simp only [deletedIds, planKonnectCatalogReconciliation] at idMem
  rcases List.mem_map.mp idMem with ⟨project, projectMem, rfl⟩
  rw [mem_managedProjects_iff.mp (List.mem_of_mem_filter projectMem)]
  rfl

/-- A run that got through its loops returns. -/
theorem finishSync_spec (ready : Ready platform input started) {processed : List String}
    {state : SyncState Content} {placed : List (String × KonnectControlPlane)}
    (progress : Progress platform remote input started processed state placed) :
    ∃ result, finishSync input
        (existingProjects platform input.coordinatorWorkspaceId started) state = .ok result ∧
      Finished platform input started state result := by
  have deletedEq : (planKonnectCatalogReconciliation ((existingProjects platform
      input.coordinatorWorkspaceId started).map Prod.fst) state.discovered
        state.successfulRegions).deleteWorkspaceIds = deletedIds platform input started state :=
    rfl
  have notCoordinator : input.coordinatorWorkspaceId ∉ deletedIds platform input started state := by
    intro idMem
    have managed := managed_of_deletedIds idMem
    rw [ready.unmanaged] at managed
    exact absurd managed (by simp)
  have deleteNodup : (deletedIds platform input started state).Nodup := by
    simp only [deletedIds, planKonnectCatalogReconciliation]
    exact managedProjects_nodup.sublist (List.filter_sublist.map _)
  have activeEq : state.catalog.activeWorkspaceId = input.coordinatorWorkspaceId :=
    progress.placement.active.trans ready.active
  rcases deleteProjects_spec _ state deleteNodup
    (fun id idMem => by
      rcases Option.isSome_iff_exists.mp (managed_of_deletedIds idMem) with ⟨key, isKey⟩
      exact progress.placement.mem_ids (mem_ids_of_managedKey isKey))
    (progress.placement.readable ready) (by rwa [activeEq]) with
    ⟨next, isNext, nextIds, nextOthers, nextActive⟩
  rw [activeEq] at nextActive
  have coordinatorMem : input.coordinatorWorkspaceId ∈ next.catalog.ids := by
    rw [nextIds, List.mem_filter]
    refine ⟨?_, decide_eq_true notCoordinator⟩
    exact progress.placement.mem_ids (Catalog.stored_isSome_mem ready.readable)
  rcases Catalog.saveCatalogWorkspace_eq (coordinatorAfter input next)
    coordinatorMem with ⟨saved, isSaved, projects, active⟩
  have here : saved.projects.read input.coordinatorWorkspaceId =
      some (some (coordinatorAfter input next)) := by
    rw [projects]
    exact Store.read_replace_self _ coordinatorMem
  have savedReadable : (saved.stored saved.activeWorkspaceId).isSome := by
    rw [active, nextActive, Catalog.stored, here]
    rfl
  have savedActive : saved.activeWorkspaceId = input.coordinatorWorkspaceId :=
    active.trans nextActive
  simp only [finishSync, deletedEq, isNext, isSaved, attempt, Catalog.load_of_active savedReadable]
  rw [if_neg (not_not.mpr savedActive)]
  refine ⟨_, rfl, ?_, ?_, savedActive, here, rfl, rfl, rfl, rfl⟩
  · rw [Catalog.ids, projects, Store.keys_replace]
    exact nextIds
  · intro id idKept different
    simp only [projects]
    rw [Store.read_replace_of_ne _ different]
    exact nextOthers id idKept

end Finish

end Brunomnia.Konnect
