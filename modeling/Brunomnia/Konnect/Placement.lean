import Brunomnia.Konnect.CatalogSync

/-!
# What the loops of a synchronisation place

Every control plane that is reached is placed in a project of its own: the one that the plan
retains for it, or a new one. The catalog in the middle of a run is the one it began with and the
projects that were placed.
-/

namespace Brunomnia.Konnect

open Library

variable {Content : Type} (platform : Platform Content) (remote : Remote)
  (input : SyncInput Content)

/-! ## Managed projects -/

/-- The control plane that a project is read back to stand for. -/
def managedKey (coordinatorWorkspaceId : String) (catalog : Catalog Content) (id : String) :
    Option ControlPlaneKey :=
  (catalog.stored id).bind fun workspace =>
    (managedProject coordinatorWorkspaceId id
      (migrateWorkspace platform.toStorage workspace)).map ManagedKonnectProject.key

def managedProjects (coordinatorWorkspaceId : String) (catalog : Catalog Content) :
    List ManagedKonnectProject :=
  (existingProjects platform coordinatorWorkspaceId catalog).map Prod.fst

section Managed

variable {platform} {coordinatorWorkspaceId : String} {catalog : Catalog Content}

theorem workspaceId_of_managedProject {id : String} {workspace : Workspace Content}
    {project : ManagedKonnectProject}
    (managed : managedProject coordinatorWorkspaceId id workspace = some project) :
    project.workspaceId = id := by
  simp only [managedProject] at managed
  split at managed
  case isTrue => exact absurd managed (by simp)
  case isFalse =>
      split at managed
      · rw [Option.some.injEq] at managed
        rw [← managed]
      · exact absurd managed (by simp)

theorem managedProjects_eq : managedProjects platform coordinatorWorkspaceId catalog =
    catalog.ids.filterMap fun id => (catalog.stored id).bind fun workspace =>
      managedProject coordinatorWorkspaceId id
        (migrateWorkspace platform.toStorage workspace) := by
  simp only [managedProjects, existingProjects, List.map_filterMap]
  apply List.filterMap_congr
  intro id idMem
  simp only [Catalog.readCatalogWorkspace, if_neg (not_not.mpr idMem)]
  cases catalog.stored id with
  | none => rfl
  | some workspace => simp [Function.comp_def]

theorem mem_managedProjects_iff {project : ManagedKonnectProject} :
    project ∈ managedProjects platform coordinatorWorkspaceId catalog ↔
      managedKey platform coordinatorWorkspaceId catalog project.workspaceId =
        some project.key := by
  rw [managedProjects_eq, List.mem_filterMap]
  simp only [managedKey, Option.bind_eq_some_iff, Option.map_eq_some_iff]
  constructor
  · rintro ⟨id, _, workspace, stored, managed⟩
    rw [workspaceId_of_managedProject managed]
    exact ⟨workspace, stored, project, managed, rfl⟩
  · rintro ⟨workspace, stored, other, managed, sameKey⟩
    refine ⟨project.workspaceId, Catalog.stored_isSome_mem (by simp [stored]), workspace, stored,
      ?_⟩
    have sameId := workspaceId_of_managedProject managed
    have same : other = project := by
      rcases other with ⟨otherId, otherPlane, otherRegion⟩
      rcases project with ⟨id, plane, region⟩
      simp only [ManagedKonnectProject.key, Prod.mk.injEq] at sameKey sameId ⊢
      rw [sameKey.1, sameKey.2, sameId]
    rwa [same] at managed

theorem managedProjects_nodup :
    ((managedProjects platform coordinatorWorkspaceId catalog).map
      ManagedKonnectProject.workspaceId).Nodup := by
  rw [managedProjects_eq, List.map_filterMap]
  apply List.Nodup.filterMap _ catalog.projects.keys_nodup
  intro first second found foundFirst foundSecond
  have isId : ∀ id, found ∈ ((catalog.stored id).bind fun workspace =>
      managedProject coordinatorWorkspaceId id
        (migrateWorkspace platform.toStorage workspace)).map
          ManagedKonnectProject.workspaceId → found = id := by
    intro id foundMem
    rcases Option.map_eq_some_iff.mp foundMem with ⟨project, bound, rfl⟩
    rcases Option.bind_eq_some_iff.mp bound with ⟨workspace, _, managed⟩
    exact workspaceId_of_managedProject managed
  rw [← isId first foundFirst, ← isId second foundSecond]

theorem existingByWorkspaceId_isSome {id : String}
    (managed : (managedKey platform coordinatorWorkspaceId catalog id).isSome) :
    (existingByWorkspaceId (existingProjects platform coordinatorWorkspaceId catalog)
      id).isSome := by
  rcases Option.isSome_iff_exists.mp managed with ⟨key, isKey⟩
  have listed : (⟨id, key.2, key.1⟩ : ManagedKonnectProject) ∈
      managedProjects platform coordinatorWorkspaceId catalog :=
    mem_managedProjects_iff.mpr isKey
  rcases List.mem_map.mp listed with ⟨project, projectMem, isProject⟩
  simp only [existingByWorkspaceId, Option.isSome_map, List.find?_isSome]
  exact ⟨project, projectMem, by simp [isProject]⟩

theorem mem_ids_of_managedKey {id : String} {key : ControlPlaneKey}
    (managed : managedKey platform coordinatorWorkspaceId catalog id = some key) :
    id ∈ catalog.ids := by
  rcases Option.bind_eq_some_iff.mp managed with ⟨workspace, stored, _⟩
  exact Catalog.stored_isSome_mem (by simp [stored])

theorem fits_of_managedKey {id : String} {key : ControlPlaneKey}
    (managed : managedKey platform coordinatorWorkspaceId catalog id = some key) :
    utf16Length key.2 ≤ 500 := by
  rcases Option.bind_eq_some_iff.mp managed with ⟨workspace, _, isKey⟩
  rcases Option.map_eq_some_iff.mp isKey with ⟨project, isProject, rfl⟩
  simp only [managedProject] at isProject
  split at isProject
  case isTrue => exact absurd isProject (by simp)
  case isFalse =>
      split at isProject
      case h_1 controlPlaneId region isControlPlane isRegion =>
          rw [Option.some.injEq] at isProject
          rw [← isProject]
          exact utf16Length_of_cutOptional isControlPlane
      case h_2 => exact absurd isProject (by simp)

theorem managedKey_congr {other : Catalog Content} {id : String}
    (same : catalog.projects.read id = other.projects.read id) :
    managedKey platform coordinatorWorkspaceId catalog id =
      managedKey platform coordinatorWorkspaceId other id := by
  simp only [managedKey, Catalog.stored, same]

end Managed

/-! ## The plan -/

section Plan

variable {existing : List ManagedKonnectProject} {incoming : List KonnectControlPlane}
  {successfulRegions : List String}

def retained (existing : List ManagedKonnectProject) (incoming : List KonnectControlPlane) :
    List ManagedKonnectProject :=
  taken KonnectControlPlane.key (available existing) incoming

variable (existing) (incoming) (successfulRegions) in
@[simp]
theorem upserts_controlPlanes :
    (planKonnectCatalogReconciliation existing incoming successfulRegions).upserts.map
      Upsert.controlPlane = incoming := by
  simp only [planKonnectCatalogReconciliation, List.map_map]
  exact allocate_map_fst incoming

variable (existing) (incoming) (successfulRegions) in
theorem upserts_workspaceIds :
    (planKonnectCatalogReconciliation existing incoming successfulRegions).upserts.filterMap
      Upsert.workspaceId =
        (retained existing incoming).map ManagedKonnectProject.workspaceId := by
  simp only [planKonnectCatalogReconciliation, retained, taken, List.filterMap_map,
    List.map_filterMap]
  rfl

theorem mem_retained_iff {project : ManagedKonnectProject} :
    project ∈ retained existing incoming ↔ project ∈ (available existing project.key).take
      (incoming.countP fun plane => plane.key = project.key) := by
  simp only [retained, mem_taken_iff]
  constructor
  · rintro ⟨key, found⟩
    have isKey : project.key = key := by
      simpa using List.of_mem_filter (List.mem_of_mem_take found)
    rwa [isKey]
  · exact fun found => ⟨_, found⟩

theorem mem_of_retained {project : ManagedKonnectProject}
    (found : project ∈ retained existing incoming) : project ∈ existing :=
  List.mem_of_mem_filter (List.mem_of_mem_take (mem_retained_iff.mp found))

theorem upserts_workspaceIds_nodup
    (nodup : (existing.map ManagedKonnectProject.workspaceId).Nodup) :
    ((planKonnectCatalogReconciliation existing incoming successfulRegions).upserts.filterMap
      Upsert.workspaceId).Nodup := by
  rw [upserts_workspaceIds]
  apply List.Nodup.map_on
  · intro first firstMem second secondMem sameId
    exact List.inj_on_of_nodup_map nodup (mem_of_retained firstMem) (mem_of_retained secondMem)
      sameId
  · apply taken_nodup
    · intro key project projectMem
      simpa using List.of_mem_filter projectMem
    · exact fun key => nodup.of_map.filter _

theorem project_of_upsert {upsert : Upsert} {id : String}
    (upsertMem : upsert ∈
      (planKonnectCatalogReconciliation existing incoming successfulRegions).upserts)
    (hasId : upsert.workspaceId = some id) :
    ∃ project ∈ existing, project.workspaceId = id ∧
      project.key = upsert.controlPlane.key := by
  simp only [planKonnectCatalogReconciliation] at upsertMem
  rcases List.mem_map.mp upsertMem with ⟨⟨plane, project⟩, shifted, rfl⟩
  rcases Option.map_eq_some_iff.mp hasId with ⟨project, rfl, isId⟩
  have offered := mem_offers_of_allocated shifted
  have sameKey : project.key = plane.key := by simpa using List.of_mem_filter offered
  exact ⟨project, List.mem_of_mem_filter offered, isId, sameKey⟩

theorem mem_deleteWorkspaceIds_iff
    (nodup : (existing.map ManagedKonnectProject.workspaceId).Nodup)
    {project : ManagedKonnectProject} (projectMem : project ∈ existing) :
    project.workspaceId ∈ (planKonnectCatalogReconciliation existing incoming
        successfulRegions).deleteWorkspaceIds ↔
      project.region ∈ successfulRegions ∧ project ∉ retained existing incoming := by
  have retainedIds := upserts_workspaceIds existing incoming successfulRegions
  simp only [planKonnectCatalogReconciliation] at retainedIds ⊢
  simp only [retainedIds, List.mem_map, List.mem_filter, decide_eq_true_eq]
  have sameProject : ∀ other ∈ existing, other.workspaceId = project.workspaceId →
      other = project := fun other otherMem sameId =>
    List.inj_on_of_nodup_map nodup otherMem projectMem sameId
  constructor
  · rintro ⟨other, ⟨otherMem, inRegion, notRetained⟩, sameId⟩
    rw [sameProject other otherMem sameId] at inRegion notRetained
    exact ⟨inRegion, fun isRetained => notRetained ⟨project, isRetained, rfl⟩⟩
  · rintro ⟨inRegion, notRetained⟩
    refine ⟨project, ⟨projectMem, inRegion, ?_⟩, rfl⟩
    rintro ⟨other, otherRetained, sameId⟩
    rw [sameProject other (mem_of_retained otherRetained) sameId] at otherRetained
    exact notRetained otherRetained

end Plan

/-! ## The catalog in the middle of a run -/

/-- What a project keeps about its control plane. -/
structure StandsFor (coordinatorWorkspaceId : String) (workspace : Workspace Content)
    (plane : KonnectControlPlane) : Prop where
  managedBy : workspace.konnect.managedByWorkspaceId = some coordinatorWorkspaceId
  controlPlane : workspace.konnect.managedControlPlaneId = some plane.id
  region : workspace.konnect.managedRegion = some plane.region

/-- A catalog that a run can begin with: the coordinator is active and no managed project. -/
structure Ready (started : Catalog Content) : Prop where
  active : started.activeWorkspaceId = input.coordinatorWorkspaceId
  readable : (started.stored input.coordinatorWorkspaceId).isSome
  unmanaged : managedKey platform input.coordinatorWorkspaceId started
    input.coordinatorWorkspaceId = none

/-- The identifiers that can be drawn until the catalog is full are new and different. -/
def Fresh (catalog : Catalog Content) (drawn : ℕ) : Prop :=
  (catalog.ids ++ (List.range' drawn (maxCatalogWorkspaces - catalog.ids.length)).map
    (projectId platform)).Nodup

/-- The catalog after some control planes were placed in projects. -/
structure Placement (started catalog : Catalog Content) (drawn : ℕ)
    (placed : List (String × KonnectControlPlane)) : Prop where
  ids : catalog.ids = started.ids ++ (placed.map Prod.fst).filter (· ∉ started.ids)
  nodup : (placed.map Prod.fst).Nodup
  active : catalog.activeWorkspaceId = started.activeWorkspaceId
  stored : ∀ entry ∈ placed, ∃ workspace, catalog.stored entry.1 = some workspace ∧
    StandsFor input.coordinatorWorkspaceId workspace entry.2
  others : ∀ id ∉ placed.map Prod.fst, catalog.projects.read id = started.projects.read id
  managed : ∀ id ∈ placed.map Prod.fst, id ∈ started.ids →
    (managedKey platform input.coordinatorWorkspaceId started id).isSome
  fresh : Fresh platform catalog drawn

/-- An entry for a control plane: the project that the plan has for it, or a new one. -/
structure Assigned (started : Catalog Content) (upsert : Upsert)
    (entry : String × KonnectControlPlane) : Prop where
  controlPlane : entry.2 = upsert.controlPlane
  retained : ∀ id, upsert.workspaceId = some id → entry.1 = id
  created : upsert.workspaceId = none → entry.1 ∉ started.ids

section Placement

variable {platform} {input} {started catalog : Catalog Content} {drawn : ℕ}
  {placed : List (String × KonnectControlPlane)}

theorem Placement.refl (fresh : Fresh platform started drawn) :
    Placement platform input started started drawn [] where
  ids := by simp
  nodup := List.nodup_nil
  active := rfl
  stored := by simp
  others := by simp
  managed := by simp
  fresh := fresh

theorem Placement.mem_ids (placement : Placement platform input started catalog drawn placed)
    {id : String} (idMem : id ∈ started.ids) : id ∈ catalog.ids := by
  rw [placement.ids]
  exact List.mem_append_left _ idMem

theorem Placement.coordinator (ready : Ready platform input started)
    (placement : Placement platform input started catalog drawn placed) :
    input.coordinatorWorkspaceId ∉ placed.map Prod.fst := by
  intro idMem
  have managed := placement.managed _ idMem (Catalog.stored_isSome_mem ready.readable)
  rw [ready.unmanaged] at managed
  exact absurd managed (by simp)

theorem Placement.readable (ready : Ready platform input started)
    (placement : Placement platform input started catalog drawn placed) :
    (catalog.stored catalog.activeWorkspaceId).isSome := by
  rw [placement.active, ready.active, Catalog.stored,
    placement.others _ (placement.coordinator ready)]
  exact ready.readable

/-- Placing a control plane under an identifier that nothing was placed under. -/
theorem Placement.place (placement : Placement platform input started catalog drawn placed)
    {id : String} {plane : KonnectControlPlane} {workspace : Workspace Content}
    {changed : Catalog Content} {later : ℕ} (notPlaced : id ∉ placed.map Prod.fst)
    (ids : changed.ids = catalog.ids ++ [id].filter (· ∉ started.ids))
    (active : changed.activeWorkspaceId = catalog.activeWorkspaceId)
    (here : changed.projects.read id = some (some workspace))
    (elsewhere : ∀ other, other ≠ id → changed.projects.read other = catalog.projects.read other)
    (standsFor : StandsFor input.coordinatorWorkspaceId workspace plane)
    (managed : id ∈ started.ids →
      (managedKey platform input.coordinatorWorkspaceId started id).isSome)
    (fresh : Fresh platform changed later) :
    Placement platform input started changed later (placed ++ [(id, plane)]) := by
  refine ⟨?_, ?_, active.trans placement.active, ?_, ?_, ?_, fresh⟩
  · rw [ids, placement.ids, List.map_append, List.filter_append, List.append_assoc]
    rfl
  · rw [List.map_append, List.nodup_append]
    refine ⟨placement.nodup, by simp, ?_⟩
    rintro other otherMem _ idMem rfl
    have isId : other = id := by simpa using idMem
    exact notPlaced (isId ▸ otherMem)
  · intro entry entryMem
    rcases List.mem_append.mp entryMem with before | isNew
    · have different : entry.1 ≠ id := by
        rintro rfl
        exact notPlaced (List.mem_map_of_mem before)
      rw [Catalog.stored, elsewhere _ different]
      exact placement.stored entry before
    · rw [List.mem_singleton] at isNew
      rw [isNew, Catalog.stored, here]
      exact ⟨workspace, rfl, standsFor⟩
  · intro other otherNotPlaced
    rw [List.map_append, List.mem_append, not_or] at otherNotPlaced
    have different : other ≠ id := by
      rintro rfl
      exact otherNotPlaced.2 (by simp)
    rw [elsewhere _ different]
    exact placement.others other otherNotPlaced.1
  · intro other otherMem otherKnown
    rw [List.map_append, List.mem_append] at otherMem
    rcases otherMem with before | isNew
    · exact placement.managed other before otherKnown
    · have isId : other = id := by simpa using isNew
      rw [isId] at otherKnown ⊢
      exact managed otherKnown

theorem Placement.save (placement : Placement platform input started catalog drawn placed)
    {id : String} {plane : KonnectControlPlane} {workspace : Workspace Content}
    {saved : Catalog Content}
    (managed : (managedKey platform input.coordinatorWorkspaceId started id).isSome)
    (notPlaced : id ∉ placed.map Prod.fst)
    (projects : saved.projects = catalog.projects.replace id (some workspace))
    (active : saved.activeWorkspaceId = catalog.activeWorkspaceId)
    (standsFor : StandsFor input.coordinatorWorkspaceId workspace plane) :
    Placement platform input started saved drawn (placed ++ [(id, plane)]) := by
  have known : id ∈ started.ids := by
    rcases Option.isSome_iff_exists.mp managed with ⟨key, isKey⟩
    exact mem_ids_of_managedKey isKey
  have sameIds : saved.ids = catalog.ids := by
    rw [Catalog.ids, projects, Store.keys_replace]
    rfl
  apply placement.place notPlaced _ active _ _ standsFor (fun _ => managed)
  · rw [Fresh, sameIds]
    exact placement.fresh
  · simp [sameIds, known]
  · rw [projects]
    exact Store.read_replace_self _ (placement.mem_ids known)
  · intro other different
    rw [projects]
    exact Store.read_replace_of_ne _ different

theorem Placement.fresh_key
    (placement : Placement platform input started catalog drawn placed)
    (space : catalog.ids.length < maxCatalogWorkspaces) :
    projectId platform drawn ∉ catalog.projects.keys := by
  intro idMem
  have nodup := placement.fresh
  rw [Fresh, List.nodup_append] at nodup
  apply nodup.2.2 _ idMem _ _ rfl
  apply List.mem_map_of_mem
  rw [List.mem_range'_1]
  omega

/-- Creating a project under a new identifier. -/
theorem Placement.create
    (placement : Placement platform input started catalog drawn placed)
    (space : catalog.ids.length < maxCatalogWorkspaces)
    {plane : KonnectControlPlane} {workspace : Workspace Content} {created : Catalog Content}
    (projects : created.projects = catalog.projects.append (projectId platform drawn)
      (some workspace) (placement.fresh_key space))
    (active : created.activeWorkspaceId = catalog.activeWorkspaceId)
    (standsFor : StandsFor input.coordinatorWorkspaceId workspace plane) :
    Placement platform input started created (drawn + 1)
      (placed ++ [(projectId platform drawn, plane)]) := by
  have notPlaced : projectId platform drawn ∉ placed.map Prod.fst := by
    intro isPlaced
    rcases List.mem_map.mp isPlaced with ⟨entry, entryMem, isId⟩
    rcases placement.stored entry entryMem with ⟨found, stored, _⟩
    have idMem : entry.1 ∈ catalog.ids := Catalog.stored_isSome_mem (by simp [stored])
    exact placement.fresh_key space (isId ▸ idMem)
  have isNew : projectId platform drawn ∉ started.ids :=
    mt placement.mem_ids (placement.fresh_key space)
  have newIds : created.ids = catalog.ids ++ [projectId platform drawn] := by
    rw [Catalog.ids, projects, Store.keys_append]
    rfl
  apply placement.place notPlaced _ active _ _ standsFor (fun known => absurd known isNew)
  · have fewer : maxCatalogWorkspaces - catalog.ids.length =
        (maxCatalogWorkspaces - created.ids.length) + 1 := by
      rw [newIds, List.length_append, List.length_singleton]
      omega
    have nodup := placement.fresh
    rw [Fresh, fewer, List.range'_succ, List.map_cons, ← List.singleton_append,
      ← List.append_assoc, ← newIds] at nodup
    exact nodup
  · simp [newIds, isNew]
  · rw [projects]
    exact Store.read_append_self _
  · intro other different
    rw [projects]
    exact Store.read_append_of_ne _ different

end Placement

end Brunomnia.Konnect
