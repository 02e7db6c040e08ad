import Brunomnia.Konnect.Loops

/-!
# What a synchronisation keeps

A run may delete a managed project that is stale or a surplus copy, leaves what it does not manage
alone, and has one project for every control plane when it was fully successful; the next run then
creates and deletes none. A run is so exactly if the list of Singapore fails with a refusal
whenever it is taken for one, and the identifiers of the listed control planes are different and
short.
-/

namespace Brunomnia.Konnect

open Library

variable {Content : Type} (platform : Platform Content) (remote : Remote)
  (input : SyncInput Content)

/-! ## What a run should do -/

/-- The inaccessible region that is no failure: Singapore refuses the list. -/
def DocumentedGap (region : String) : Prop :=
  region = "sg" ∧ ∃ body,
    loadKonnectControlPlanesForRegion platform remote input.coordinator.konnect region =
      .error (.answered 403 body)

/-- A project that may be deleted: it is managed, its region was synchronised completely, and its
control plane is not listed there or has another project. -/
def MayDelete (before after : Catalog Content) (id : String) : Prop :=
  ∃ key, managedKey platform input.coordinatorWorkspaceId before id = some key ∧
    key.1 ∈ input.regions ∧
    (CompleteRegion platform remote input key.1 ∧
        (key ∈ (planesOf platform remote input key.1).map KonnectControlPlane.key →
          ∃ other, other ≠ id ∧
            managedKey platform input.coordinatorWorkspaceId after other = some key) ∨
      DocumentedGap platform remote input key.1)

def DeletesOnlyStale (before after : Catalog Content) : Prop :=
  ∀ id ∈ before.ids, id ∉ after.ids → MayDelete platform remote input before after id

def LeavesOthersAlone (before after : Catalog Content) : Prop :=
  ∀ id ∈ before.ids, id ≠ input.coordinatorWorkspaceId →
    managedKey platform input.coordinatorWorkspaceId before id = none →
      after.projects.read id = before.projects.read id

def FullySuccessful : Prop :=
  ∀ region ∈ input.regions,
    CompleteRegion platform remote input region ∨ DocumentedGap platform remote input region

def OneProjectEach (after : Catalog Content) : Prop :=
  ∀ region ∈ input.regions, ∀ plane ∈ planesOf platform remote input region,
    ∃! id, managedKey platform input.coordinatorWorkspaceId after id = some plane.key

/-- The input of a later run of the coordinator. -/
def SyncInput.again (result : SyncResult Content) (syncedAt : String) : SyncInput Content :=
  { input with
    coordinator := result.coordinator
    syncedAt := syncedAt }

/-- A later run on the same remote data neither creates nor deletes a project. -/
def SecondRunStable (result : SyncResult Content) : Prop :=
  ∀ drawn syncedAt, Fresh platform result.catalog drawn →
    (catalogAfter (syncKonnectCatalog platform remote (input.again result syncedAt) drawn
      result.catalog)).ids = result.catalog.ids

def SyncKeeps (drawn : ℕ) (catalog : Catalog Content) : Prop :=
  DeletesOnlyStale platform remote input catalog
      (catalogAfter (syncKonnectCatalog platform remote input drawn catalog)) ∧
    LeavesOthersAlone platform input catalog
      (catalogAfter (syncKonnectCatalog platform remote input drawn catalog)) ∧
    ∀ result, syncKonnectCatalog platform remote input drawn catalog = .ok result →
      FullySuccessful platform remote input →
        OneProjectEach platform remote input result.catalog ∧
          SecondRunStable platform remote input result

/-! ## When a run does it -/

/-- The checks at the beginning. -/
def Starts (catalog : Catalog Content) : Prop :=
  input.coordinatorWorkspaceId ≠ "" ∧ input.coordinator.konnect.managedControlPlaneId = none ∧
    input.coordinator.konnect.enabled = true ∧
    ∃ loaded, catalog.load = .ok loaded ∧
      loaded.activeWorkspaceId = input.coordinatorWorkspaceId

/-- The managed projects besides the coordinator. -/
def managedBefore (catalog : Catalog Content) : List ManagedKonnectProject :=
  (managedProjects platform input.coordinatorWorkspaceId catalog).filter fun project =>
    project.workspaceId ≠ input.coordinatorWorkspaceId

def neededProjects (existing : List ManagedKonnectProject) : ℕ :=
  creations (input.regions.flatMap fun region => reached remote region 0
    (planKonnectCatalogReconciliation existing (planesOf platform remote input region)
      []).upserts)

/-- The run gets to its end: it starts, and there is space for the new projects. -/
def GetsThrough (catalog : Catalog Content) : Prop :=
  Starts input catalog ∧ catalog.ids.length +
    neededProjects platform remote input (managedBefore platform input catalog) ≤
      maxCatalogWorkspaces

/-- If the list of Singapore fails with a message that mentions 403, then because it was refused,
or there is no project to lose. -/
def SingaporeRefuses (catalog : Catalog Content) : Prop :=
  "sg" ∈ input.regions → ∀ failure,
    loadKonnectControlPlanesForRegion platform remote input.coordinator.konnect "sg" =
      .error failure → mentionsForbidden failure.message = true →
        (∃ body, failure = .answered 403 body) ∨
          ∀ project ∈ managedBefore platform input catalog, project.region ≠ "sg"

/-- The identifiers in the list of a region are different, and as short as they are kept. -/
def DistinctAndShort : Prop :=
  ∀ region ∈ input.regions,
    ((planesOf platform remote input region).map KonnectControlPlane.id).Nodup ∧
      ∀ plane ∈ planesOf platform remote input region, utf16Length plane.id ≤ 500

/-! ## The beginning -/

section Start

variable {platform} {remote} {input} {catalog started : Catalog Content}

theorem startSync_error {interrupted : Interrupted Content}
    (failed : startSync input catalog = .error interrupted) :
    interrupted.catalog.projects = catalog.projects := by
  simp only [startSync] at failed
  split at failed
  case isTrue =>
      rw [Except.error.injEq] at failed
      rw [← failed]
  case isFalse =>
      split at failed
      case isTrue =>
          rw [Except.error.injEq] at failed
          rw [← failed]
      case isFalse =>
          split at failed
          case isTrue =>
              rw [Except.error.injEq] at failed
              rw [← failed]
          case isFalse =>
              cases loadedEq : catalog.load with
              | error message =>
                  simp only [loadedEq, attempt, Except.error.injEq] at failed
                  rw [← failed]
              | ok loaded =>
                  have sameProjects := Catalog.projects_of_load loadedEq
                  simp only [loadedEq, attempt] at failed
                  split at failed
                  case isTrue =>
                      rw [Except.error.injEq] at failed
                      rw [← failed]
                      exact sameProjects
                  case isFalse =>
                      split at failed
                      · exact absurd failed (by simp)
                      · rw [Except.error.injEq] at failed
                        rw [← failed]
                        exact sameProjects

theorem startSync_ok (isStarted : startSync input catalog = .ok started) :
    Starts input catalog ∧ input.coordinatorWorkspaceId ∈ catalog.ids ∧
      started.projects =
        catalog.projects.replace input.coordinatorWorkspaceId (some input.coordinator) ∧
      started.activeWorkspaceId = input.coordinatorWorkspaceId := by
  simp only [startSync] at isStarted
  split at isStarted
  case isTrue => exact absurd isStarted (by simp)
  case isFalse nonempty =>
      split at isStarted
      case isTrue => exact absurd isStarted (by simp)
      case isFalse unmanaged =>
          split at isStarted
          case isTrue => exact absurd isStarted (by simp)
          case isFalse enabled =>
              cases loadedEq : catalog.load with
              | error message =>
                  simp only [loadedEq, attempt] at isStarted
                  exact absurd isStarted (by simp)
              | ok loaded =>
                  have sameProjects := Catalog.projects_of_load loadedEq
                  simp only [loadedEq, attempt] at isStarted
                  split at isStarted
                  case isTrue => exact absurd isStarted (by simp)
                  case isFalse active =>
                      rw [not_not] at active
                      split at isStarted
                      case h_2 => exact absurd isStarted (by simp)
                      case h_1 saved isSaved =>
                          rw [Except.ok.injEq] at isStarted
                          subst isStarted
                          rcases Catalog.of_saveCatalogWorkspace isSaved with
                            ⟨present, projects, sameActive⟩
                          rw [sameProjects] at projects
                          rw [Catalog.ids, sameProjects] at present
                          refine ⟨⟨nonempty, by simpa using unmanaged, by simpa using enabled,
                            loaded, loadedEq, active⟩, present, projects, ?_⟩
                          rw [sameActive, active]

theorem startSync_of_starts (starts : Starts input catalog)
    (present : input.coordinatorWorkspaceId ∈ catalog.ids) :
    ∃ started, startSync input catalog = .ok started := by
  rcases starts with ⟨nonempty, unmanaged, enabled, loaded, isLoaded, active⟩
  have loadedPresent : input.coordinatorWorkspaceId ∈ loaded.ids := by
    rw [Catalog.ids, Catalog.projects_of_load isLoaded]
    exact present
  rcases Catalog.saveCatalogWorkspace_eq input.coordinator loadedPresent with
    ⟨saved, isSaved, _⟩
  refine ⟨saved, ?_⟩
  simp only [startSync, isLoaded, attempt, isSaved]
  rw [if_neg nonempty, if_neg (by simp [unmanaged]), if_neg (by simp [enabled]),
    if_neg (not_not.mpr active)]

theorem mem_ids_of_load {loaded : Catalog Content} (isLoaded : catalog.load = .ok loaded) :
    loaded.activeWorkspaceId ∈ catalog.ids := by
  simp only [Catalog.load] at isLoaded
  split at isLoaded
  case isTrue readable =>
      rw [Except.ok.injEq] at isLoaded
      rw [← isLoaded]
      exact Catalog.stored_isSome_mem readable
  case isFalse =>
      split at isLoaded
      case h_1 id found =>
          rw [Except.ok.injEq] at isLoaded
          rw [← isLoaded]
          exact List.mem_of_find?_eq_some found
      case h_2 => exact absurd isLoaded (by simp)

variable (isStarted : startSync input catalog = .ok started)

include isStarted

theorem started_ids : started.ids = catalog.ids := by
  rw [Catalog.ids, (startSync_ok isStarted).2.2.1, Store.keys_replace]
  rfl

theorem started_read_coordinator :
    started.projects.read input.coordinatorWorkspaceId = some (some input.coordinator) := by
  rcases startSync_ok isStarted with ⟨_, present, projects, _⟩
  rw [projects]
  exact Store.read_replace_self _ present

theorem started_read {id : String} (different : id ≠ input.coordinatorWorkspaceId) :
    started.projects.read id = catalog.projects.read id := by
  rw [(startSync_ok isStarted).2.2.1]
  exact Store.read_replace_of_ne _ different

theorem started_ready : Ready platform input started := by
  rcases startSync_ok isStarted with ⟨⟨_, unmanaged, _⟩, _, _, active⟩
  have here := started_read_coordinator isStarted
  refine ⟨active, ?_, ?_⟩
  · rw [Catalog.stored, here]
    rfl
  · rw [managedKey, Catalog.stored, here]
    simp only [Option.join_some, Option.bind_some, managedProject, migrateWorkspace,
      normalizeKonnect, unmanaged, cutOptional, Option.bind_none, Option.map_eq_none_iff]
    split <;> rfl

/-- Saving the coordinator changes no other project. -/
theorem managedProjects_started : managedProjects platform input.coordinatorWorkspaceId started =
    managedBefore platform input catalog := by
  have ready : Ready platform input started := started_ready isStarted
  have unmanaged := ready.unmanaged
  rw [managedBefore, managedProjects_eq, managedProjects_eq, started_ids isStarted,
    List.filter_filterMap]
  apply List.filterMap_congr
  intro id _
  by_cases same : id = input.coordinatorWorkspaceId
  · subst same
    have noneStarted : ((started.stored input.coordinatorWorkspaceId).bind fun workspace =>
        managedProject input.coordinatorWorkspaceId input.coordinatorWorkspaceId
          (migrateWorkspace platform.toStorage workspace)) = none := by
      simp only [managedKey] at unmanaged
      cases stored : started.stored input.coordinatorWorkspaceId with
      | none => rfl
      | some workspace =>
          rw [stored] at unmanaged
          simpa using unmanaged
    rw [noneStarted]
    symm
    rw [Option.filter_eq_none_iff]
    intro project isProject
    rcases Option.bind_eq_some_iff.mp isProject with ⟨workspace, _, managed⟩
    simp [workspaceId_of_managedProject managed]
  · have sameStored : started.stored id = catalog.stored id := by
      rw [Catalog.stored, started_read isStarted same]
      rfl
    rw [sameStored]
    cases isProject : (catalog.stored id).bind fun workspace =>
        managedProject input.coordinatorWorkspaceId id
          (migrateWorkspace platform.toStorage workspace) with
    | none => rfl
    | some project =>
        rcases Option.bind_eq_some_iff.mp isProject with ⟨workspace, _, managed⟩
        rw [Option.filter_some, if_pos]
        simpa [workspaceId_of_managedProject managed] using same

theorem getsThrough_iff : GetsThrough platform remote input catalog ↔
    started.ids.length +
      creations (input.regions.flatMap (reachedUpserts platform remote input started)) ≤
        maxCatalogWorkspaces := by
  have needed : neededProjects platform remote input (managedBefore platform input catalog) =
      creations (input.regions.flatMap (reachedUpserts platform remote input started)) := by
    rw [← managedProjects_started isStarted]
    rfl
  rw [GetsThrough, needed, started_ids isStarted]
  exact and_iff_right (startSync_ok isStarted).1

end Start

/-! ## What was placed -/

section Placed

variable {platform} {remote} {input} {catalog started : Catalog Content}
  {state : SyncState Content} {placed : List (String × KonnectControlPlane)}

theorem loaded_of_mem_planesOf {region : String} {plane : KonnectControlPlane}
    (planeMem : plane ∈ planesOf platform remote input region) :
    ∃ planes, loadKonnectControlPlanesForRegion platform remote input.coordinator.konnect region =
      .ok planes := by
  simp only [planesOf] at planeMem
  split at planeMem
  case h_1 planes loaded => exact ⟨planes, loaded⟩
  case h_2 => exact absurd planeMem (by simp)

theorem active_of_loaded {region : String} {planes : List KonnectControlPlane}
    (loaded : loadKonnectControlPlanesForRegion platform remote input.coordinator.konnect region =
      .ok planes) : region ∈ activeKonnectRegions := by
  rcases addressed_of_loaded loaded with ⟨config, isConfig⟩
  simp only [konnectConfigForRegion] at isConfig
  split at isConfig
  case isTrue => exact absurd isConfig (by simp)
  case isFalse active => exact not_not.mp active

theorem id_ne_empty_of_planesOf {region : String} {plane : KonnectControlPlane}
    (planeMem : plane ∈ planesOf platform remote input region) : plane.id ≠ "" := by
  rcases loaded_of_mem_planesOf planeMem with ⟨planes, loaded⟩
  simp only [planesOf, loaded] at planeMem
  simp only [loadKonnectControlPlanesForRegion] at loaded
  split at loaded
  case h_1 => exact absurd loaded (by simp)
  case h_2 =>
      split at loaded
      · exact absurd loaded (by simp)
      · split at loaded
        · exact absurd loaded (by simp)
        · rcases map_eq_ok.mp loaded with ⟨records, _, rfl⟩
          exact id_ne_empty_of_parsed planeMem

theorem reachedUpserts_of_complete {region : String}
    (complete : CompleteRegion platform remote input region) :
    reachedUpserts platform remote input started region =
      regionUpserts platform remote input started region := by
  rcases complete with ⟨planes, loaded, resources⟩
  have isPlanes : planesOf platform remote input region = planes := by
    simp only [planesOf, loaded]
  have allReached := (reached_eq_iff remote region 0
    (regionUpserts platform remote input started region)).mpr (by
      simpa [regionUpserts_length, isPlanes] using resources)
  exact (reached_isInitial remote region 0 _).eq_of_length allReached

/-- The control planes under a key are found in its region only. -/
theorem countP_planesOf {regions : List String} (nodup : regions.Nodup) (key : ControlPlaneKey)
    (inRegions : key.1 ∈ regions) :
    ((regions.flatMap (planesOf platform remote input)).countP fun plane => plane.key = key) =
      (planesOf platform remote input key.1).countP fun plane => plane.key = key := by
  induction regions with
  | nil => exact absurd inRegions (by simp)
  | cons region rest ih =>
      rw [List.nodup_cons] at nodup
      rw [List.flatMap_cons, List.countP_append]
      have elsewhere : ∀ other, other ≠ key.1 →
          ((planesOf platform remote input other).countP fun plane => plane.key = key) = 0 := by
        intro other different
        rw [List.countP_eq_zero]
        intro plane planeMem isKey
        rw [decide_eq_true_eq] at isKey
        apply different
        rw [← region_of_planesOf planeMem]
        exact congrArg Prod.fst isKey
      by_cases same : region = key.1
      · subst same
        have noneLater : ((rest.flatMap (planesOf platform remote input)).countP
            fun plane => plane.key = key) = 0 := by
          rw [List.countP_eq_zero]
          intro plane planeMem isKey
          rcases List.mem_flatMap.mp planeMem with ⟨other, otherMem, inOther⟩
          have different : other ≠ key.1 := by
            rintro rfl
            exact nodup.1 otherMem
          exact (List.countP_eq_zero.mp (elsewhere other different)) plane inOther isKey
        rw [noneLater, Nat.add_zero]
      · rw [elsewhere region same, Nat.zero_add]
        apply ih nodup.2
        rcases List.mem_cons.mp inRegions with isRegion | later
        · exact absurd isRegion.symm same
        · exact later

section Progressed

variable (progress : Progress platform remote input started input.regions state placed)

include progress

theorem mem_retained_discovered_iff {project : ManagedKonnectProject}
    (inRegions : project.region ∈ input.regions) (existing : List ManagedKonnectProject) :
    project ∈ retained existing state.discovered ↔
      project ∈ retained existing (planesOf platform remote input project.region) := by
  rw [mem_retained_iff, mem_retained_iff, progress.discovered,
    countP_planesOf input.regions_nodup project.key inRegions]
  rfl

theorem placed_of_retained {project : ManagedKonnectProject}
    (inRegions : project.region ∈ input.regions)
    (complete : CompleteRegion platform remote input project.region)
    (isRetained : project ∈ retained
      (managedProjects platform input.coordinatorWorkspaceId started)
      (planesOf platform remote input project.region)) :
    ∃ plane, plane.key = project.key ∧ (project.workspaceId, plane) ∈ placed := by
  have idMem : project.workspaceId ∈ (regionUpserts platform remote input started
      project.region).filterMap Upsert.workspaceId := by
    rw [regionUpserts, upserts_workspaceIds]
    exact List.mem_map_of_mem isRetained
  rcases List.mem_filterMap.mp idMem with ⟨upsert, upsertMem, isId⟩
  have reachedMem : upsert ∈
      input.regions.flatMap (reachedUpserts platform remote input started) := by
    rw [List.mem_flatMap]
    exact ⟨_, inRegions, by rwa [reachedUpserts_of_complete complete]⟩
  rcases exists_target progress.assigned reachedMem with ⟨entry, entryMem, assigned⟩
  have sameKey := project_of_regionUpserts upsertMem isId
  rw [mem_managedProjects_iff.mp (mem_of_retained isRetained), Option.some.injEq] at sameKey
  refine ⟨entry.2, ?_, ?_⟩
  · rw [assigned.controlPlane, sameKey]
  · rw [← assigned.retained _ isId]
    exact entryMem

theorem planesOf_of_placed {entry : String × KonnectControlPlane} (entryMem : entry ∈ placed) :
    entry.2.region ∈ input.regions ∧
      entry.2 ∈ planesOf platform remote input entry.2.region := by
  rcases exists_source progress.assigned entryMem with ⟨upsert, upsertMem, assigned⟩
  rcases List.mem_flatMap.mp upsertMem with ⟨region, regionMem, isReached⟩
  have found :=
    controlPlane_of_regionUpserts ((reached_isInitial remote region 0 _).subset isReached)
  rw [← assigned.controlPlane] at found
  rw [region_of_planesOf found]
  exact ⟨regionMem, found⟩

/-- What was placed is not deleted. -/
theorem not_deleted_of_placed {entry : String × KonnectControlPlane} (entryMem : entry ∈ placed) :
    entry.1 ∉ deletedIds platform input started state := by
  intro isDeleted
  rcases Option.isSome_iff_exists.mp (managed_of_deletedIds isDeleted) with ⟨key, isKey⟩
  rcases exists_source progress.assigned entryMem with ⟨upsert, upsertMem, assigned⟩
  rcases List.mem_flatMap.mp upsertMem with ⟨region, regionMem, isReached⟩
  have isUpsert := (reached_isInitial remote region 0 _).subset isReached
  have inRegion := region_of_planesOf (controlPlane_of_regionUpserts isUpsert)
  cases idEq : upsert.workspaceId with
  | none => exact assigned.created idEq (mem_ids_of_managedKey isKey)
  | some id =>
      have isId := assigned.retained id idEq
      have ofPlane := project_of_regionUpserts isUpsert idEq
      rw [isId] at isKey isDeleted
      rw [isKey, Option.some.injEq] at ofPlane
      have regionEq : key.1 = region := by
        rw [ofPlane]
        exact inRegion
      have projectMem : (⟨id, key.2, key.1⟩ : ManagedKonnectProject) ∈
          managedProjects platform input.coordinatorWorkspaceId started :=
        mem_managedProjects_iff.mpr isKey
      have notRetained := ((mem_deleteWorkspaceIds_iff managedProjects_nodup projectMem).mp
        isDeleted).2
      apply notRetained
      rw [mem_retained_discovered_iff progress (by simpa [regionEq] using regionMem)]
      have idMem : id ∈ (regionUpserts platform remote input started region).filterMap
          Upsert.workspaceId := List.mem_filterMap.mpr ⟨upsert, isUpsert, idEq⟩
      rw [regionUpserts, upserts_workspaceIds] at idMem
      rcases List.mem_map.mp idMem with ⟨project, isRetained, sameId⟩
      have same : project = ⟨id, key.2, key.1⟩ :=
        List.inj_on_of_nodup_map managedProjects_nodup (mem_of_retained isRetained) projectMem
          sameId
      rw [← same]
      have sameRegion : project.region = region := by
        rw [same]
        exact regionEq
      rwa [sameRegion]

omit progress in
theorem managedProject_eq {id controlPlaneId region : String} {workspace : Workspace Content}
    (managedBy : workspace.konnect.managedByWorkspaceId = some input.coordinatorWorkspaceId)
    (controlPlane : workspace.konnect.managedControlPlaneId = some controlPlaneId)
    (isRegion : workspace.konnect.managedRegion = some region) :
    managedProject input.coordinatorWorkspaceId id workspace =
      some ⟨id, controlPlaneId, region⟩ := by
  simp only [managedProject]
  rw [if_neg (by simp [managedBy]), controlPlane, isRegion]

/-- A placed control plane with a short identifier is read back. -/
theorem managedKey_of_placed (ready : Ready platform input started)
    {entry : String × KonnectControlPlane} (entryMem : entry ∈ placed)
    (short : utf16Length entry.2.id ≤ 500) :
    managedKey platform input.coordinatorWorkspaceId state.catalog entry.1 =
      some entry.2.key := by
  rcases progress.placement.stored entry entryMem with ⟨workspace, stored, standsFor⟩
  have coordinatorValid : validWorkspaceId input.coordinatorWorkspaceId = true :=
    started.valid _ (Catalog.stored_isSome_mem ready.readable)
  have found := (planesOf_of_placed progress entryMem).2
  rcases loaded_of_mem_planesOf found with ⟨planes, loaded⟩
  have managedBy : cutOptional workspace.konnect.managedByWorkspaceId 128 =
      some input.coordinatorWorkspaceId := by
    rw [standsFor.managedBy]
    exact cutOptional_of_fits (Catalog.ne_empty_of_valid coordinatorValid)
      (Catalog.utf16Length_of_valid coordinatorValid)
  have controlPlane : cutOptional workspace.konnect.managedControlPlaneId 500 =
      some entry.2.id := by
    rw [standsFor.controlPlane]
    exact cutOptional_of_fits (id_ne_empty_of_planesOf found) short
  have region : (workspace.konnect.managedRegion.bind fun region =>
      orUndefined (normalizeRegion region)) = some entry.2.region := by
    rw [standsFor.region, Option.bind_some]
    exact normalizeRegion_of_active (active_of_loaded loaded)
  have readBack : managedProject input.coordinatorWorkspaceId entry.1
      (migrateWorkspace platform.toStorage workspace) =
        some ⟨entry.1, entry.2.id, entry.2.region⟩ :=
    managedProject_eq managedBy controlPlane region
  rw [managedKey, stored, Option.bind_some, readBack]
  rfl

end Progressed

end Placed

/-! ## How a run ends -/

section Ends

variable {platform} {remote} {input} {catalog started : Catalog Content} {drawn : ℕ}

variable (remote) in
/-- A run that starts gets through if there is space, and raises between two projects if not. -/
theorem syncKonnectCatalog_cases (isStarted : startSync input catalog = .ok started)
    (fresh : Fresh platform catalog drawn) :
    (∃ interrupted later placed,
      syncKonnectCatalog platform remote input drawn catalog = .error interrupted ∧
      Placement platform input started interrupted.catalog later placed ∧
      ¬ GetsThrough platform remote input catalog) ∨
    (∃ state placed result,
      syncKonnectCatalog platform remote input drawn catalog = .ok result ∧
      Progress platform remote input started input.regions state placed ∧
      Finished platform input started state result ∧
      GetsThrough platform remote input catalog) := by
  have ready : Ready platform input started := started_ready isStarted
  have initial : Progress platform remote input started [] (initialState started drawn) [] := by
    refine ⟨Placement.refl ?_, .nil, by simp [initialState], rfl⟩
    rw [Fresh, started_ids isStarted]
    exact fresh
  simp only [getsThrough_iff isStarted, syncKonnectCatalog, isStarted]
  rcases syncRegions_spec ready input.regions initial (by simpa using input.regions_nodup) with
    ⟨state, placed, isState, progress⟩ | ⟨interrupted, later, placed, raised, placement, tooMany⟩
  · rw [List.nil_append] at progress
    rcases finishSync_spec ready progress with ⟨result, isResult, finished⟩
    refine .inr ⟨state, placed, result, by simp only [isState, isResult], progress, finished, ?_⟩
    rw [← progress.length]
    exact state.catalog.fits
  · refine .inl ⟨interrupted, later, placed, by simp only [raised], placement, ?_⟩
    exact not_le.mpr tooMany

/-- What the coordinator does not manage is left alone, however a run ends. -/
theorem leavesOthersAlone (fresh : Fresh platform catalog drawn) :
    LeavesOthersAlone platform input catalog
      (catalogAfter (syncKonnectCatalog platform remote input drawn catalog)) := by
  intro id idMem different unmanaged
  cases isStarted : startSync input catalog with
  | error interrupted =>
      simp only [syncKonnectCatalog, isStarted, catalogAfter, startSync_error isStarted]
  | ok started =>
      have startedUnmanaged : managedKey platform input.coordinatorWorkspaceId started id =
          none := by
        rw [managedKey_congr (started_read isStarted different), unmanaged]
      have unplaced : ∀ {changed : Catalog Content} {later : ℕ}
          {placed : List (String × KonnectControlPlane)},
          Placement platform input started changed later placed →
            changed.projects.read id = catalog.projects.read id := by
        intro changed later placed placement
        rw [placement.others id, started_read isStarted different]
        intro isPlaced
        have managed := placement.managed id isPlaced (by rwa [started_ids isStarted])
        rw [startedUnmanaged] at managed
        exact absurd managed (by simp)
      rcases syncKonnectCatalog_cases remote isStarted fresh with
        ⟨interrupted, later, placed, raised, placement, _⟩ |
          ⟨state, placed, result, returned, progress, finished, _⟩
      · rw [raised, catalogAfter]
        exact unplaced placement
      · rw [returned, catalogAfter, finished.others id _ different]
        · exact unplaced progress.placement
        · intro isDeleted
          have managed := managed_of_deletedIds isDeleted
          rw [startedUnmanaged] at managed
          exact absurd managed (by simp)

section Returned

variable (isStarted : startSync input catalog = .ok started)
  {state : SyncState Content} {placed : List (String × KonnectControlPlane)}
  {result : SyncResult Content}
  (progress : Progress platform remote input started input.regions state placed)
  (finished : Finished platform input started state result)

include isStarted progress finished

theorem project_of_deleted {id : String} (idMem : id ∈ catalog.ids)
    (deleted : id ∉ result.catalog.ids) :
    ∃ project ∈ managedBefore platform input catalog, project.workspaceId = id ∧
      project.region ∈ state.successfulRegions ∧
        project ∉ retained (managedProjects platform input.coordinatorWorkspaceId started)
          state.discovered := by
  have inState : id ∈ state.catalog.ids :=
    progress.placement.mem_ids (by rwa [started_ids isStarted])
  rw [finished.ids, List.mem_filter, not_and, decide_eq_true_eq, not_not] at deleted
  have isDeleted := deleted inState
  rcases Option.isSome_iff_exists.mp (managed_of_deletedIds isDeleted) with ⟨key, isKey⟩
  have projectMem : (⟨id, key.2, key.1⟩ : ManagedKonnectProject) ∈
      managedProjects platform input.coordinatorWorkspaceId started :=
    mem_managedProjects_iff.mpr isKey
  rcases (mem_deleteWorkspaceIds_iff managedProjects_nodup projectMem).mp isDeleted with
    ⟨inRegion, notRetained⟩
  rw [managedProjects_started isStarted] at projectMem
  exact ⟨_, projectMem, rfl, inRegion, notRetained⟩

omit isStarted progress in
theorem managedKey_result {id : String} (idMem : id ∈ result.catalog.ids)
    (different : id ≠ input.coordinatorWorkspaceId) :
    managedKey platform input.coordinatorWorkspaceId result.catalog id =
      managedKey platform input.coordinatorWorkspaceId state.catalog id := by
  rw [finished.ids, List.mem_filter, decide_eq_true_eq] at idMem
  exact managedKey_congr (finished.others id idMem.2 different)

theorem managedKey_result_of_placed {entry : String × KonnectControlPlane}
    (entryMem : entry ∈ placed) (short : utf16Length entry.2.id ≤ 500) :
    managedKey platform input.coordinatorWorkspaceId result.catalog entry.1 =
      some entry.2.key := by
  have ready : Ready platform input started := started_ready isStarted
  have isKey := managedKey_of_placed progress ready entryMem short
  rw [managedKey_result finished _ _, isKey]
  · rw [finished.ids, List.mem_filter, decide_eq_true_eq]
    exact ⟨mem_ids_of_managedKey isKey, not_deleted_of_placed progress entryMem⟩
  · rintro isCoordinator
    apply progress.placement.coordinator ready
    rw [← isCoordinator]
    exact List.mem_map_of_mem entryMem

/-- Without a gap that is none, a run deletes only what is stale. -/
theorem mayDelete_of_deleted {id : String} (idMem : id ∈ catalog.ids)
    (deleted : id ∉ result.catalog.ids)
    (refuses : SingaporeRefuses platform remote input catalog) :
    MayDelete platform remote input catalog result.catalog id := by
  rcases project_of_deleted isStarted progress finished idMem deleted with
    ⟨project, projectMem, rfl, inSuccessful, notRetained⟩
  rcases List.mem_filter.mp projectMem with ⟨managed, _⟩
  have startedMem : project ∈ managedProjects platform input.coordinatorWorkspaceId started := by
    rwa [managedProjects_started isStarted]
  rcases (progress.successful _).mp inSuccessful with ⟨inRegions, complete | gap⟩
  · refine ⟨project.key, mem_managedProjects_iff.mp managed, inRegions, .inl ⟨complete, ?_⟩⟩
    intro listed
    rcases List.mem_map.mp listed with ⟨plane, planeMem, planeKey⟩
    -- the first project of the control plane is retained
    have counted : 0 < (planesOf platform remote input project.region).countP
        fun plane => plane.key = project.key :=
      List.countP_pos_iff.mpr ⟨plane, planeMem, by simpa using planeKey⟩
    have isAvailable : project ∈ available
        (managedProjects platform input.coordinatorWorkspaceId started) project.key :=
      List.mem_filter.mpr ⟨startedMem, by simp⟩
    rcases List.exists_cons_of_ne_nil (List.ne_nil_of_mem isAvailable) with
      ⟨first, rest, availableEq⟩
    have firstKey : first.key = project.key := by
      have firstMem : first ∈ available
          (managedProjects platform input.coordinatorWorkspaceId started) project.key := by
        rw [availableEq]
        exact List.mem_cons_self
      simpa using List.of_mem_filter firstMem
    have firstRegion : first.region = project.region := congrArg Prod.fst firstKey
    have firstRetained : first ∈ retained
        (managedProjects platform input.coordinatorWorkspaceId started)
          (planesOf platform remote input first.region) := by
      rw [mem_retained_iff, firstKey, availableEq, firstRegion]
      rcases Nat.exists_eq_succ_of_ne_zero counted.ne' with ⟨n, countEq⟩
      rw [countEq, List.take_succ_cons]
      exact List.mem_cons_self
    have notFirst : first.workspaceId ≠ project.workspaceId := by
      intro sameId
      have same := List.inj_on_of_nodup_map managedProjects_nodup
        (mem_of_retained firstRetained) startedMem sameId
      apply notRetained
      rw [mem_retained_discovered_iff progress inRegions, ← same]
      exact firstRetained
    rw [← firstRegion] at inRegions complete
    rcases placed_of_retained progress inRegions complete firstRetained with
      ⟨placedPlane, samePlane, isPlaced⟩
    refine ⟨first.workspaceId, notFirst, ?_⟩
    have short : utf16Length placedPlane.id ≤ 500 := by
      have fits := fits_of_managedKey (mem_managedProjects_iff.mp
        (mem_of_retained firstRetained))
      rwa [← samePlane] at fits
    rw [← firstKey, ← samePlane]
    exact managedKey_result_of_placed isStarted progress finished isPlaced short
  · refine ⟨project.key, mem_managedProjects_iff.mp managed, inRegions, .inr ?_⟩
    rcases gap with ⟨failure, failed, isGap⟩
    simp only [isSingaporePermissionGap, Bool.decide_and, Bool.and_eq_true,
      decide_eq_true_eq, Bool.decide_eq_true] at isGap
    rw [isGap.1] at inRegions failed
    rcases refuses inRegions failure failed isGap.2 with ⟨body, rfl⟩ | noProjects
    · exact ⟨isGap.1, body, by rw [← isGap.1] at failed; exact failed⟩
    · exact absurd isGap.1 (noProjects project projectMem)

/-- A gap that is none costs the projects of the region. -/
theorem not_deletesOnlyStale (getsDeleted : ¬ SingaporeRefuses platform remote input catalog) :
    ¬ DeletesOnlyStale platform remote input catalog result.catalog := by
  intro onlyStale
  simp only [SingaporeRefuses, not_forall, not_or, not_exists, not_not] at getsDeleted
  rcases getsDeleted with ⟨inRegions, failure, failed, mentions, notRefused, project, projectMem,
    isSingapore⟩
  have noPlanes : planesOf platform remote input project.region = [] := by
    simp only [planesOf, isSingapore, failed]
  have startedMem : project ∈ managedProjects platform input.coordinatorWorkspaceId started := by
    rwa [managedProjects_started isStarted]
  rw [← isSingapore] at inRegions failed
  have isDeleted : project.workspaceId ∈ deletedIds platform input started state := by
    apply (mem_deleteWorkspaceIds_iff managedProjects_nodup startedMem).mpr
    refine ⟨(progress.successful _).mpr ⟨inRegions, .inr ⟨failure, failed, ?_⟩⟩, ?_⟩
    · simp [isSingaporePermissionGap, isSingapore, mentions]
    · rw [mem_retained_discovered_iff progress inRegions, mem_retained_iff, noPlanes]
      simp
  have missing : project.workspaceId ∉ result.catalog.ids := by
    rw [finished.ids, List.mem_filter, not_and, decide_eq_true_eq, not_not]
    exact fun _ => isDeleted
  have managed := mem_managedProjects_iff.mp (List.mem_of_mem_filter projectMem)
  rcases onlyStale _ (mem_ids_of_managedKey managed) missing with
    ⟨key, isKey, _, ⟨⟨planes, loaded, _⟩, _⟩ | ⟨_, body, refused⟩⟩
  · rw [managed, Option.some.injEq] at isKey
    rw [← isKey] at loaded
    have impossible := failed.symm.trans loaded
    exact absurd impossible (by simp)
  · rw [managed, Option.some.injEq] at isKey
    rw [← isKey] at refused
    have same := failed.symm.trans refused
    rw [Except.error.injEq] at same
    exact notRefused body same

/-! ## Fully successful runs -/

omit isStarted finished in
theorem successful_of_fullySuccessful (full : FullySuccessful platform remote input)
    {region : String} (inRegions : region ∈ input.regions) :
    region ∈ state.successfulRegions := by
  apply (progress.successful region).mpr
  refine ⟨inRegions, ?_⟩
  rcases full region inRegions with complete | ⟨isSingapore, body, refused⟩
  · exact .inl complete
  · refine .inr ⟨_, refused, ?_⟩
    have mentions : mentionsForbidden (Failure.answered 403 body).message = true := by
      have isMessage : (Failure.answered 403 body).message =
          "Konnect rejected the access token (403). Check its expiry and permissions." := by
        simp [Failure.message]
        rfl
      rw [isMessage]
      decide
    simp [isSingaporePermissionGap, isSingapore, mentions]

omit isStarted progress finished in
theorem complete_of_mem_planesOf (full : FullySuccessful platform remote input)
    {region : String} (inRegions : region ∈ input.regions) {plane : KonnectControlPlane}
    (planeMem : plane ∈ planesOf platform remote input region) :
    CompleteRegion platform remote input region := by
  rcases full region inRegions with complete | ⟨_, body, refused⟩
  · exact complete
  · rcases loaded_of_mem_planesOf planeMem with ⟨planes, loaded⟩
    rw [refused] at loaded
    exact absurd loaded (by simp)

omit isStarted finished in
theorem placed_planes (full : FullySuccessful platform remote input) :
    placed.map Prod.snd = input.regions.flatMap (planesOf platform remote input) := by
  have sameUpserts : input.regions.flatMap (reachedUpserts platform remote input started) =
      input.regions.flatMap (regionUpserts platform remote input started) := by
    apply List.flatMap_congr
    intro region regionMem
    rcases full region regionMem with complete | ⟨_, body, refused⟩
    · exact reachedUpserts_of_complete complete
    · have noPlanes : planesOf platform remote input region = [] := by
        simp only [planesOf, refused]
      have noLength := regionUpserts_length platform remote input started region
      rw [noPlanes, List.length_nil] at noLength
      rw [reachedUpserts, List.length_eq_zero_iff.mp noLength]
      rfl
  have samePlanes : (input.regions.flatMap (reachedUpserts platform remote input started)).map
      Upsert.controlPlane = placed.map Prod.snd :=
    map_eq_map_of_forall₂ progress.assigned fun upsert entry assigned =>
      assigned.controlPlane.symm
  rw [← samePlanes, sameUpserts, List.map_flatMap]
  apply List.flatMap_congr
  intro region _
  exact upserts_controlPlanes _ _ _

/-- After a fully successful run, only what was placed is managed in its regions. -/
theorem placed_of_managedKey (full : FullySuccessful platform remote input) {id : String}
    {key : ControlPlaneKey} (inRegions : key.1 ∈ input.regions)
    (managed : managedKey platform input.coordinatorWorkspaceId result.catalog id = some key) :
    ∃ entry ∈ placed, entry.1 = id := by
  have ready : Ready platform input started := started_ready isStarted
  have different : id ≠ input.coordinatorWorkspaceId := by
    rintro rfl
    have noKey := (startSync_ok isStarted).1.2.1
    rw [← finished.unmanaged] at noKey
    rw [managedKey, Catalog.stored, finished.coordinator] at managed
    simp only [Option.join_some, Option.bind_some, managedProject, migrateWorkspace,
      normalizeKonnect, noKey, cutOptional, Option.bind_none] at managed
    split at managed <;> exact absurd managed (by simp)
  have idMem := mem_ids_of_managedKey managed
  rw [managedKey_result finished idMem different] at managed
  rw [finished.ids, List.mem_filter, decide_eq_true_eq] at idMem
  by_contra notPlaced
  have unplaced : id ∉ placed.map Prod.fst := by
    intro isPlaced
    rcases List.mem_map.mp isPlaced with ⟨entry, entryMem, isId⟩
    exact notPlaced ⟨entry, entryMem, isId⟩
  rw [managedKey_congr (progress.placement.others id unplaced)] at managed
  have projectMem : (⟨id, key.2, key.1⟩ : ManagedKonnectProject) ∈
      managedProjects platform input.coordinatorWorkspaceId started :=
    mem_managedProjects_iff.mpr managed
  have isRetained : (⟨id, key.2, key.1⟩ : ManagedKonnectProject) ∈ retained
      (managedProjects platform input.coordinatorWorkspaceId started) state.discovered := by
    by_contra notRetained
    apply idMem.2
    exact (mem_deleteWorkspaceIds_iff managedProjects_nodup projectMem).mpr
      ⟨successful_of_fullySuccessful progress full inRegions, notRetained⟩
  rw [mem_retained_discovered_iff progress inRegions] at isRetained
  have counted : 0 < (planesOf platform remote input key.1).countP
      fun plane => plane.key = key := by
    rw [mem_retained_iff] at isRetained
    rcases Nat.eq_zero_or_pos ((planesOf platform remote input key.1).countP
      fun plane => plane.key = key) with noPlane | isPlane
    · have noTake := List.take_zero (l := available
        (managedProjects platform input.coordinatorWorkspaceId started) key)
      rw [← noPlane] at noTake
      exact absurd (noTake ▸ isRetained) (by simp)
    · exact isPlane
  rcases List.countP_pos_iff.mp counted with ⟨plane, planeMem, _⟩
  rcases placed_of_retained progress inRegions (complete_of_mem_planesOf full inRegions planeMem)
    isRetained with ⟨placedPlane, _, isPlaced⟩
  exact notPlaced ⟨_, isPlaced, rfl⟩

omit isStarted finished progress in
theorem planes_key_nodup (distinct : DistinctAndShort platform remote input) :
    ((input.regions.flatMap (planesOf platform remote input)).map
      KonnectControlPlane.key).Nodup := by
  rw [List.map_flatMap, List.nodup_flatMap]
  constructor
  · intro region regionMem
    have sameKeys : (planesOf platform remote input region).map KonnectControlPlane.key =
        ((planesOf platform remote input region).map KonnectControlPlane.id).map
          fun id => (region, id) := by
      rw [List.map_map]
      apply List.map_congr_left
      intro plane planeMem
      rw [KonnectControlPlane.key, region_of_planesOf planeMem]
      rfl
    rw [sameKeys]
    exact (distinct region regionMem).1.map fun first second same => (Prod.mk.inj same).2
  · apply input.regions_nodup.imp
    intro first second different key firstMem secondMem
    rcases List.mem_map.mp firstMem with ⟨firstPlane, firstFound, rfl⟩
    rcases List.mem_map.mp secondMem with ⟨secondPlane, secondFound, sameKey⟩
    apply different
    rw [← region_of_planesOf firstFound, ← region_of_planesOf secondFound]
    exact (congrArg Prod.fst sameKey).symm

omit isStarted finished in
theorem placed_keys (full : FullySuccessful platform remote input) :
    (placed.map fun entry => entry.2.key) =
      (input.regions.flatMap (planesOf platform remote input)).map KonnectControlPlane.key := by
  rw [← placed_planes progress full, List.map_map]
  rfl

/-- A fully successful run leaves one project for every control plane exactly if the identifiers
are different and short. -/
theorem oneProjectEach_iff (full : FullySuccessful platform remote input) :
    OneProjectEach platform remote input result.catalog ↔
      DistinctAndShort platform remote input := by
  have planes := placed_planes progress full
  have placed_of_plane : ∀ region ∈ input.regions,
      ∀ plane ∈ planesOf platform remote input region, ∃ entry ∈ placed, entry.2 = plane := by
    intro region regionMem plane planeMem
    have found : plane ∈ placed.map Prod.snd := by
      rw [planes, List.mem_flatMap]
      exact ⟨region, regionMem, planeMem⟩
    rcases List.mem_map.mp found with ⟨entry, entryMem, isPlane⟩
    exact ⟨entry, entryMem, isPlane⟩
  constructor
  · intro one
    have short : ∀ region ∈ input.regions, ∀ plane ∈ planesOf platform remote input region,
        utf16Length plane.id ≤ 500 := by
      intro region regionMem plane planeMem
      rcases one region regionMem plane planeMem with ⟨id, isKey, _⟩
      exact fits_of_managedKey isKey
    have shortPlaced : ∀ entry ∈ placed, utf16Length entry.2.id ≤ 500 := by
      intro entry entryMem
      rcases planesOf_of_placed progress entryMem with ⟨regionMem, planeMem⟩
      exact short _ regionMem _ planeMem
    have keysNodup : (placed.map fun entry => entry.2.key).Nodup := by
      apply List.Nodup.map_on _ progress.placement.nodup.of_map
      intro first firstMem second secondMem sameKey
      apply List.inj_on_of_nodup_map progress.placement.nodup firstMem secondMem
      rcases planesOf_of_placed progress firstMem with ⟨regionMem, planeMem⟩
      apply (one _ regionMem _ planeMem).unique
      · exact managedKey_result_of_placed isStarted progress finished firstMem
          (shortPlaced first firstMem)
      · rw [sameKey]
        exact managedKey_result_of_placed isStarted progress finished secondMem
          (shortPlaced second secondMem)
    intro region regionMem
    refine ⟨?_, short region regionMem⟩
    rw [placed_keys progress full, List.map_flatMap, List.nodup_flatMap] at keysNodup
    have inRegion := keysNodup.1 region regionMem
    apply List.Nodup.of_map (fun id => (region, id))
    rw [List.map_map]
    convert inRegion using 1
    apply List.map_congr_left
    intro plane planeMem
    rw [KonnectControlPlane.key, region_of_planesOf planeMem]
    rfl
  · intro distinct region regionMem plane planeMem
    have shortPlaced : ∀ entry ∈ placed, utf16Length entry.2.id ≤ 500 := by
      intro entry entryMem
      rcases planesOf_of_placed progress entryMem with ⟨regionMem, planeMem⟩
      exact (distinct _ regionMem).2 _ planeMem
    rcases placed_of_plane region regionMem plane planeMem with ⟨entry, entryMem, rfl⟩
    have isKey := managedKey_result_of_placed isStarted progress finished entryMem
      (shortPlaced entry entryMem)
    refine ⟨entry.1, isKey, ?_⟩
    intro other otherKey
    have inRegions : entry.2.key.1 ∈ input.regions := by
      rw [show entry.2.key.1 = entry.2.region from rfl, region_of_planesOf planeMem]
      exact regionMem
    rcases placed_of_managedKey isStarted progress finished full inRegions otherKey with
      ⟨otherEntry, otherMem, rfl⟩
    have sameKey := managedKey_result_of_placed isStarted progress finished otherMem
      (shortPlaced otherEntry otherMem)
    rw [otherKey, Option.some.injEq] at sameKey
    have keysNodup : (placed.map fun entry => entry.2.key).Nodup := by
      rw [placed_keys progress full]
      exact planes_key_nodup distinct
    rw [List.inj_on_of_nodup_map keysNodup otherMem entryMem sameKey.symm]

end Returned

/-! ## The next run -/

theorem planesOf_again {result : SyncResult Content} {syncedAt region : String}
    (enabled : result.coordinator.konnect.enabled = input.coordinator.konnect.enabled)
    (baseUrl : result.coordinator.konnect.baseUrl = input.coordinator.konnect.baseUrl)
    (token : result.coordinator.konnect.token = input.coordinator.konnect.token) :
    planesOf platform remote (input.again result syncedAt) region =
      planesOf platform remote input region := by
  simp only [planesOf, loadKonnectControlPlanesForRegion, konnectConfigForRegion,
    SyncInput.again, baseUrl]
  by_cases active : region ∉ activeKonnectRegions
  · simp only [if_pos active]
  · simp only [if_neg active]
    cases platform.regionalUrl input.coordinator.konnect.baseUrl region with
    | error message => rfl
    | ok url => simp only [enabled, token]

/-- A run that finds a project for every control plane that is listed, and none besides, creates
and deletes nothing. -/
theorem ids_of_matched (isStarted : startSync input catalog = .ok started)
    (fresh : Fresh platform catalog drawn)
    (matched : ∀ region ∈ input.regions, ∀ key : ControlPlaneKey, key.1 = region →
      ((planesOf platform remote input region).countP fun plane => plane.key = key) =
        (available (managedProjects platform input.coordinatorWorkspaceId started) key).length) :
    (catalogAfter (syncKonnectCatalog platform remote input drawn catalog)).ids =
      catalog.ids := by
  have nothingNew : creations
      (input.regions.flatMap (reachedUpserts platform remote input started)) = 0 := by
    rw [creations, List.countP_eq_zero]
    intro upsert upsertMem isNew
    rcases List.mem_flatMap.mp upsertMem with ⟨region, regionMem, isReached⟩
    have isUpsert := (reached_isInitial remote region 0 _).subset isReached
    simp only [regionUpserts, planKonnectCatalogReconciliation] at isUpsert
    rcases List.mem_map.mp isUpsert with ⟨⟨plane, project⟩, shifted, rfl⟩
    have isSome := allocate_isSome_of_enough (fun key => by
      by_cases inRegion : key.1 = region
      · exact (matched region regionMem key inRegion).le
      · have nowhere : ((planesOf platform remote input region).countP
            fun plane => plane.key = key) = 0 := by
          rw [List.countP_eq_zero]
          intro plane planeMem isKey
          rw [decide_eq_true_eq] at isKey
          apply inRegion
          rw [← region_of_planesOf planeMem, ← isKey]
          rfl
        rw [nowhere]
        exact Nat.zero_le _) _ shifted
    cases project with
    | none => exact absurd isSome (by simp)
    | some project => exact absurd isNew (by simp)
  rcases syncKonnectCatalog_cases remote isStarted fresh with
    ⟨interrupted, later, placed, raised, placement, tooMany⟩ |
      ⟨state, placed, result, returned, progress, finished, _⟩
  · rw [getsThrough_iff isStarted, nothingNew, Nat.add_zero] at tooMany
    exact absurd started.fits tooMany
  · have sameLength := progress.length
    rw [nothingNew, Nat.add_zero, progress.placement.ids, List.length_append] at sameLength
    have noneNew : (placed.map Prod.fst).filter (· ∉ started.ids) = [] :=
      List.length_eq_zero_iff.mp (by omega)
    have noneDeleted : ∀ id ∈ state.catalog.ids,
        id ∉ deletedIds platform input started state := by
      intro id _ isDeleted
      rcases Option.isSome_iff_exists.mp (managed_of_deletedIds isDeleted) with ⟨key, isKey⟩
      have projectMem : (⟨id, key.2, key.1⟩ : ManagedKonnectProject) ∈
          managedProjects platform input.coordinatorWorkspaceId started :=
        mem_managedProjects_iff.mpr isKey
      rcases (mem_deleteWorkspaceIds_iff managedProjects_nodup projectMem).mp isDeleted with
        ⟨inRegion, notRetained⟩
      have inRegions := ((progress.successful _).mp inRegion).1
      apply notRetained
      have isAvailable : (⟨id, key.2, key.1⟩ : ManagedKonnectProject) ∈ available
          (managedProjects platform input.coordinatorWorkspaceId started) key :=
        List.mem_filter.mpr ⟨projectMem, decide_eq_true rfl⟩
      rw [← List.take_length (l := available _ key), ← matched key.1 inRegions key rfl]
        at isAvailable
      rw [mem_retained_discovered_iff progress inRegions, mem_retained_iff]
      exact isAvailable
    rw [returned, catalogAfter, finished.ids, List.filter_eq_self.mpr, progress.placement.ids,
      noneNew, List.append_nil, started_ids isStarted]
    intro id idMem
    exact decide_eq_true (noneDeleted id idMem)

/-- After a fully successful run with different and short identifiers, the next one creates and
deletes none. -/
theorem secondRunStable (isStarted : startSync input catalog = .ok started)
    {state : SyncState Content} {placed : List (String × KonnectControlPlane)}
    {result : SyncResult Content}
    (progress : Progress platform remote input started input.regions state placed)
    (finished : Finished platform input started state result)
    (full : FullySuccessful platform remote input)
    (distinct : DistinctAndShort platform remote input) :
    SecondRunStable platform remote input result := by
  intro drawn syncedAt fresh
  cases againStarted : startSync (input.again result syncedAt) result.catalog with
  | error interrupted =>
      simp only [syncKonnectCatalog, againStarted, catalogAfter, Catalog.ids,
        startSync_error againStarted]
  | ok again =>
      apply ids_of_matched againStarted fresh
      intro region regionMem key inRegion
      have regionIn : region ∈ input.regions := regionMem
      rw [planesOf_again finished.enabled finished.baseUrl finished.token]
      have one := (oneProjectEach_iff isStarted progress finished full).mpr distinct
      have againKey : ∀ project : ManagedKonnectProject,
          project.workspaceId ≠ input.coordinatorWorkspaceId →
            (project ∈ managedProjects platform input.coordinatorWorkspaceId again ↔
              managedKey platform input.coordinatorWorkspaceId result.catalog
                project.workspaceId = some project.key) := by
        intro project different
        rw [mem_managedProjects_iff]
        rw [managedKey_congr (started_read againStarted different)]
      have notCoordinator : ∀ project ∈
          managedProjects platform input.coordinatorWorkspaceId again,
            project.workspaceId ≠ input.coordinatorWorkspaceId := by
        intro project projectMem isCoordinator
        have ready : Ready platform (input.again result syncedAt) again :=
          started_ready againStarted
        have managed := mem_managedProjects_iff.mp projectMem
        rw [isCoordinator] at managed
        have unmanaged : managedKey platform input.coordinatorWorkspaceId again
          input.coordinatorWorkspaceId = none := ready.unmanaged
        rw [unmanaged] at managed
        exact absurd managed (by simp)
      have keysNodup : ((planesOf platform remote input region).map
          KonnectControlPlane.key).Nodup := by
        have allNodup := planes_key_nodup distinct
        rw [List.map_flatMap, List.nodup_flatMap] at allNodup
        exact allNodup.1 region regionIn
      have counted : ((planesOf platform remote input region).countP
          fun plane => plane.key = key) =
            ((planesOf platform remote input region).map KonnectControlPlane.key).count key := by
        rw [List.count, List.countP_map]
        apply List.countP_congr
        intro plane _
        simp
      rw [counted]
      by_cases listed : key ∈
          (planesOf platform remote input region).map KonnectControlPlane.key
      · rw [List.count_eq_one_of_mem keysNodup listed]
        rcases List.mem_map.mp listed with ⟨plane, planeMem, rfl⟩
        rcases one region regionIn plane planeMem with ⟨id, isKey, isOnly⟩
        have different : id ≠ input.coordinatorWorkspaceId := by
          rcases placed_of_managedKey isStarted progress finished full
            (by rw [inRegion]; exact regionIn) isKey with ⟨entry, entryMem, rfl⟩
          intro isCoordinator
          apply progress.placement.coordinator (started_ready isStarted)
          rw [← isCoordinator]
          exact List.mem_map_of_mem entryMem
        have single : available (managedProjects platform input.coordinatorWorkspaceId again)
            plane.key = [⟨id, plane.id, plane.region⟩] := by
          apply List.perm_singleton.mp
          apply (List.perm_ext_iff_of_nodup (managedProjects_nodup.of_map.filter _)
            (List.nodup_singleton _)).mpr
          intro project
          simp only [List.mem_filter, decide_eq_true_eq, List.mem_singleton]
          constructor
          · rintro ⟨projectMem, sameKey⟩
            have managed := (againKey project (notCoordinator project projectMem)).mp projectMem
            rw [sameKey] at managed
            have isId := isOnly _ managed
            rcases project with ⟨projectId, controlPlaneId, projectRegion⟩
            simp only [ManagedKonnectProject.key, KonnectControlPlane.key, Prod.mk.injEq]
              at sameKey isId ⊢
            rw [isId, sameKey.1, sameKey.2]
          · rintro rfl
            exact ⟨(againKey _ different).mpr isKey, rfl⟩
        exact (congrArg List.length single).symm
      · rw [List.count_eq_zero_of_not_mem listed]
        symm
        rw [List.length_eq_zero_iff]
        apply List.filter_eq_nil_iff.mpr
        intro project projectMem isKey
        rw [decide_eq_true_eq] at isKey
        have managed := (againKey project (notCoordinator project projectMem)).mp projectMem
        rw [isKey] at managed
        have inRegions : key.1 ∈ input.regions := by
          rw [inRegion]
          exact regionIn
        rcases placed_of_managedKey isStarted progress finished full inRegions managed with
          ⟨entry, entryMem, sameId⟩
        rcases planesOf_of_placed progress entryMem with ⟨entryRegion, entryPlane⟩
        have entryKey := managedKey_result_of_placed isStarted progress finished entryMem
          ((distinct _ entryRegion).2 _ entryPlane)
        rw [sameId, managed, Option.some.injEq] at entryKey
        apply listed
        have samePlaneRegion : entry.2.region = region := by
          rw [← inRegion, entryKey]
          rfl
        rw [samePlaneRegion] at entryPlane
        rw [entryKey]
        exact List.mem_map_of_mem entryPlane

end Ends

/-! ## Every run -/

/-- A run keeps what it should exactly if Singapore refuses whenever it is taken to, and the
identifiers of the listed control planes are different and short. -/
theorem syncKeeps_iff (platform : Platform Content) (remote : Remote)
    (input : SyncInput Content) (drawn : ℕ) (catalog : Catalog Content)
    (fresh : Fresh platform catalog drawn) :
    SyncKeeps platform remote input drawn catalog ↔
      (GetsThrough platform remote input catalog →
        SingaporeRefuses platform remote input catalog ∧
          (FullySuccessful platform remote input →
            DistinctAndShort platform remote input)) := by
  cases isStarted : startSync input catalog with
  | error interrupted =>
      have raised : syncKonnectCatalog platform remote input drawn catalog =
          .error interrupted := by
        simp only [syncKonnectCatalog, isStarted]
      have notThrough : ¬ GetsThrough platform remote input catalog := by
        rintro ⟨starts, _⟩
        rcases starts.2.2.2 with ⟨loaded, isLoaded, active⟩
        have present := mem_ids_of_load isLoaded
        rw [active] at present
        rcases startSync_of_starts starts present with ⟨started, isStartedAfter⟩
        rw [isStarted] at isStartedAfter
        exact absurd isStartedAfter (by simp)
      refine iff_of_true ⟨?_, leavesOthersAlone fresh, ?_⟩
        (fun through => absurd through notThrough)
      · intro id idMem deleted
        rw [raised, catalogAfter, Catalog.ids, startSync_error isStarted] at deleted
        exact absurd idMem deleted
      · intro result returned
        rw [raised] at returned
        exact absurd returned (by simp)
  | ok started =>
      rcases syncKonnectCatalog_cases remote isStarted fresh with
        ⟨interrupted, later, placed, raised, placement, notThrough⟩ |
          ⟨state, placed, result, returned, progress, finished, through⟩
      · refine iff_of_true ⟨?_, leavesOthersAlone fresh, ?_⟩
          (fun through => absurd through notThrough)
        · intro id idMem deleted
          rw [raised, catalogAfter] at deleted
          exact absurd (placement.mem_ids (by rwa [started_ids isStarted])) deleted
        · intro result returned
          rw [raised] at returned
          exact absurd returned (by simp)
      · constructor
        · rintro ⟨onlyStale, _, atEnd⟩ _
          rw [returned, catalogAfter] at onlyStale
          constructor
          · by_contra notRefuses
            exact not_deletesOnlyStale isStarted progress finished notRefuses onlyStale
          · intro full
            exact (oneProjectEach_iff isStarted progress finished full).mp
              (atEnd result returned full).1
        · intro holds
          rcases holds through with ⟨refuses, distinct⟩
          refine ⟨?_, leavesOthersAlone fresh, ?_⟩
          · intro id idMem deleted
            rw [returned, catalogAfter] at deleted ⊢
            exact mayDelete_of_deleted isStarted progress finished idMem deleted refuses
          · intro other isOther full
            rw [returned, Except.ok.injEq] at isOther
            subst isOther
            exact ⟨(oneProjectEach_iff isStarted progress finished full).mpr (distinct full),
              secondRunStable isStarted progress finished full (distinct full)⟩

/-! ## An outage that mentions 403 -/

theorem validWorkspaceId_repr (n : ℕ) :
    validWorkspaceId ("konnect-" ++ Nat.repr (n % 1000)) = true := by
  have digits : ∀ letter ∈ Nat.toDigits 10 (n % 1000), isAlphanumeric letter = true := by
    intro letter letterMem
    rw [isAlphanumeric, Nat.isDigit_of_mem_toDigits (by decide) (by decide) letterMem,
      Bool.or_true]
  have short : (Nat.toDigits 10 (n % 1000)).length ≤ 3 :=
    (Nat.length_toDigits_le_iff (by decide) (by decide)).mpr (Nat.mod_lt n (by decide))
  have start : "konnect-".toList.length = 8 := by decide
  simp only [validWorkspaceId, String.toList_append, Nat.toList_repr, List.length_append,
    List.all_append, start, decide_eq_true_eq, Bool.and_eq_true]
  refine ⟨by omega, by omega, by decide, ?_⟩
  rw [List.all_eq_true]
  intro letter letterMem
  rw [digits letter letterMem, Bool.true_or, Bool.true_or]

/-- A platform for projects without content. -/
def plainPlatform : Platform Unit where
  migrateParts workspace := workspace
  blankContent content := content
  reconcile workspace _ syncedAt := {
    workspace := { workspace with
      konnect := { workspace.konnect with lastSyncedAt := some syncedAt } }
    services := zeroKonnectSyncCounts
    routes := zeroKonnectSyncCounts
    skippedRoutes := [] }
  keepsSettings _ _ _ := rfl
  regionalUrl _ region := .ok s!"https://{region}.api.konghq.com"
  isProtectedSecretReference _ := true
  projectUuid n := Nat.repr (n % 1000)
  environmentUuid n := Nat.repr (n % 1000)
  projectUuid_valid := validWorkspaceId_repr

/-- Every list fails: the gateway in front of the API cannot reach it. -/
def outage : Remote where
  controlPlanes _ := .error (.answered 502 "upstream connect error: 403 from origin")
  resources _ _ := .error (.raised "unreachable")

def homeWorkspace : Workspace Unit where
  name := "Home"
  environments := []
  activeEnvironmentId := ""
  konnect := { defaultKonnectConfig with
    enabled := true
    token := "\x7b\x7b vault.konnect \x7d\x7d" }
  content := ()

def gatewayWorkspace : Workspace Unit where
  name := "Gateway"
  environments := []
  activeEnvironmentId := ""
  konnect := { defaultKonnectConfig with
    managedByWorkspaceId := some "home"
    managedControlPlaneId := some "cp-one"
    managedRegion := some "sg" }
  content := ()

/-- A coordinator and a project that it manages in Singapore. -/
def twoProjects : Catalog Unit where
  activeWorkspaceId := "home"
  projects := ⟨[("home", some homeWorkspace), ("gateway", some gatewayWorkspace)],
    by decide⟩
  valid := by decide
  fits := by decide

def singaporeInput : SyncInput Unit where
  coordinator := homeWorkspace
  coordinatorWorkspaceId := "home"
  regions := ["sg"]
  regions_nodup := by decide
  syncedAt := "2025-01-01T00:00:00.000Z"

/-- The failure of Singapore is taken for a refusal, and the project is deleted. -/
theorem outage_deletes : ¬ SyncKeeps plainPlatform outage singaporeInput 0 twoProjects := by
  rintro ⟨onlyStale, _⟩
  have failed : loadKonnectControlPlanesForRegion plainPlatform outage
      singaporeInput.coordinator.konnect "sg" =
        .error (.answered 502 "upstream connect error: 403 from origin") := by
    rfl
  have isKey : managedKey plainPlatform "home" twoProjects "gateway" =
      some ("sg", "cp-one") := by
    decide
  rcases onlyStale "gateway" (by decide) (by decide) with
    ⟨key, otherKey, _, ⟨⟨planes, loaded, _⟩, _⟩ | ⟨_, body, refused⟩⟩
  · rw [show singaporeInput.coordinatorWorkspaceId = "home" from rfl, isKey,
      Option.some.injEq] at otherKey
    rw [← otherKey] at loaded
    exact absurd (failed.symm.trans loaded) (by simp)
  · rw [show singaporeInput.coordinatorWorkspaceId = "home" from rfl, isKey,
      Option.some.injEq] at otherKey
    rw [← otherKey] at refused
    have same := failed.symm.trans refused
    exact absurd same (by simp)

theorem twoProjects_fresh : Fresh plainPlatform twoProjects 0 := by
  rw [Fresh, List.nodup_append]
  refine ⟨twoProjects.projects.keys_nodup, ?_, ?_⟩
  · apply List.Nodup.map_on _ List.nodup_range'
    intro first firstMem second secondMem same
    have sameLetters := congrArg String.toList same
    simp only [projectId, String.toList_append, List.append_right_inj] at sameLetters
    have sameRest : first % 1000 = second % 1000 :=
      Nat.repr_inj.mp (String.toList_inj.mp sameLetters)
    have length : twoProjects.ids.length = 2 := by decide
    rw [List.mem_range'_1, length, maxCatalogWorkspaces] at firstMem secondMem
    omega
  · rintro id idMem _ drawnMem rfl
    rcases List.mem_map.mp drawnMem with ⟨n, _, isId⟩
    have firstLetter := congrArg (fun text : String => text.toList.head?) isId
    have letters : "konnect-".toList = 'k' :: "onnect-".toList := by decide
    simp only [projectId, String.toList_append, letters, List.cons_append, List.head?_cons]
      at firstLetter
    have ids : twoProjects.ids = ["home", "gateway"] := by decide
    rw [ids, List.mem_cons, List.mem_singleton] at idMem
    rcases idMem with rfl | rfl <;> exact absurd firstLetter (by decide)

/-- A control plane is listed in the US, and Singapore is not offered. -/
def refusal : Remote where
  controlPlanes region :=
    if region = "us" then .ok [.obj [("id", .str "cp-two"), ("name", .str "Payments")]]
    else .error (.answered 403 "Forbidden")
  resources _ _ := .ok ⟨[], []⟩

def bothRegions : SyncInput Unit where
  coordinator := homeWorkspace
  coordinatorWorkspaceId := "home"
  regions := ["us", "sg"]
  regions_nodup := by decide
  syncedAt := "2025-01-01T00:00:00.000Z"

/-- The project of a region that is not offered any more is deleted, and the control plane of the
other region gets one. -/
theorem refusal_keeps : SyncKeeps plainPlatform refusal bothRegions 0 twoProjects ∧
    (catalogAfter (syncKonnectCatalog plainPlatform refusal bothRegions 0 twoProjects)).ids =
      ["home", "konnect-0"] := by
  refine ⟨(syncKeeps_iff plainPlatform refusal bothRegions 0 twoProjects twoProjects_fresh).mpr
    fun _ => ⟨?_, fun _ => ?_⟩, by decide⟩
  · intro _ failure failed _
    have refused : loadKonnectControlPlanesForRegion plainPlatform refusal
        bothRegions.coordinator.konnect "sg" = .error (.answered 403 "Forbidden") := rfl
    exact .inl ⟨"Forbidden", Except.error.inj (failed.symm.trans refused)⟩
  · intro region regionMem
    rcases List.mem_pair.mp regionMem with rfl | rfl <;> decide

end Brunomnia.Konnect
