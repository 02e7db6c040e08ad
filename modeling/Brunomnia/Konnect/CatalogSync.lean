import Brunomnia.Konnect.Catalog
import Brunomnia.Library.Allocation

/-!
# Synchronising the catalog

A coordinator synchronises every region: it creates or updates one project for a control plane, and
deletes at the end the projects that it manages in a successful region and that no control plane
retains. How the resources of a control plane become collections is a parameter here; it leaves
the settings of a project alone.
-/

namespace Brunomnia.Konnect

open Library

/-! ## The plan -/

structure ManagedKonnectProject where
  workspaceId : String
  controlPlaneId : String
  region : String
  deriving DecidableEq

/-- `controlPlaneKey`: a region and the identifier of a control plane in it. -/
abbrev ControlPlaneKey := String × String

def ManagedKonnectProject.key (project : ManagedKonnectProject) : ControlPlaneKey :=
  (project.region, project.controlPlaneId)

def KonnectControlPlane.key (plane : KonnectControlPlane) : ControlPlaneKey :=
  (plane.region, plane.id)

structure Upsert where
  controlPlane : KonnectControlPlane
  workspaceId : Option String
  deriving DecidableEq

structure KonnectCatalogPlan where
  upserts : List Upsert
  deleteWorkspaceIds : List String
  deriving DecidableEq

/-- The projects of a control plane, in their order. -/
def available (existing : List ManagedKonnectProject) (key : ControlPlaneKey) :
    List ManagedKonnectProject :=
  existing.filter fun project => project.key = key

/-- Every control plane shifts the next project out of those that are available for it. -/
def planKonnectCatalogReconciliation (existing : List ManagedKonnectProject)
    (incoming : List KonnectControlPlane) (successfulRegions : List String) :
    KonnectCatalogPlan :=
  let shifted := allocate KonnectControlPlane.key (available existing) incoming
  let upserts := shifted.map fun (plane, project) =>
    { controlPlane := plane, workspaceId := project.map ManagedKonnectProject.workspaceId }
  let retainedWorkspaceIds := upserts.filterMap Upsert.workspaceId
  { upserts := upserts
    deleteWorkspaceIds := (existing.filter fun project =>
      project.region ∈ successfulRegions ∧ project.workspaceId ∉ retainedWorkspaceIds).map
        ManagedKonnectProject.workspaceId }

/-! ## What the synchronisation relies on -/

structure KonnectSyncCounts where
  total : ℕ
  created : ℕ
  updated : ℕ
  deleted : ℕ
  skipped : ℕ

def zeroKonnectSyncCounts : KonnectSyncCounts := ⟨0, 0, 0, 0, 0⟩

def mergeCounts (target source : KonnectSyncCounts) : KonnectSyncCounts where
  total := target.total + source.total
  created := target.created + source.created
  updated := target.updated + source.updated
  deleted := target.deleted + source.deleted
  skipped := target.skipped + source.skipped

structure KonnectSkippedRoute where
  routeName : String
  reason : String
  serviceName : String

structure Resources where
  services : List Json
  routes : List Json

structure Reconciled (Content : Type) where
  workspace : Workspace Content
  services : KonnectSyncCounts
  routes : KonnectSyncCounts
  skippedRoutes : List KonnectSkippedRoute

/-- `reconcileKonnectResources` -/
structure Reconciler (Content : Type) where
  reconcile : Workspace Content → Resources → String → Reconciled Content
  keepsSettings : ∀ workspace resources syncedAt,
    (reconcile workspace resources syncedAt).workspace.konnect =
      { workspace.konnect with lastSyncedAt := some syncedAt }

/-- `regionalUrl` is the address of a region of the endpoint that is configured, if the endpoint is
one that is accepted. What `crypto.randomUUID` gives to projects and to environments is in the
order of the calls. -/
structure Platform (Content : Type) extends Storage Content, Reconciler Content where
  regionalUrl : String → String → Except String String
  isProtectedSecretReference : String → Bool
  projectUuid : ℕ → String
  environmentUuid : ℕ → String
  projectUuid_valid : ∀ n, validWorkspaceId ("konnect-" ++ projectUuid n) = true

/-- What the remote API answers: the control planes of a region, and the resources of the control
plane at a position among them. -/
structure Remote where
  controlPlanes : String → Except Failure (List Json)
  resources : String → ℕ → Except Failure Resources

variable {Content : Type} (platform : Platform Content) (remote : Remote)

def konnectConfigForRegion (config : KonnectConfig) (region : String) :
    Except Failure KonnectConfig :=
  let shown := if region = "" then "none" else region
  if region ∉ activeKonnectRegions then
    .error (.raised s!"Unsupported Konnect region: {shown}.")
  else
    match platform.regionalUrl config.baseUrl region with
    | .ok baseUrl => .ok { config with baseUrl := baseUrl }
    | .error message => .error (.raised message)

def loadKonnectControlPlanesForRegion (config : KonnectConfig) (region : String) :
    Except Failure (List KonnectControlPlane) :=
  match konnectConfigForRegion platform config region with
  | .error failure => .error failure
  | .ok regional =>
      if ¬ regional.enabled then
        .error (.raised "Review and enable the Konnect integration before connecting.")
      else if ¬ platform.isProtectedSecretReference regional.token then
        .error (.raised ("Use a complete local-vault or approved external-vault reference " ++
          "for the Konnect access token."))
      else
        (remote.controlPlanes region).map fun records => parseKonnectControlPlanes records region

/-! ## Projects -/

def managedProjectMetadataChanged (workspace : Workspace Content) (plane : KonnectControlPlane) :
    Bool :=
  workspace.name ≠ plane.name ∨ workspace.konnect.managedControlPlaneId ≠ some plane.id ∨
    workspace.konnect.managedRegion ≠ some plane.region ∨
    workspace.konnect.managedClusterType ≠ some plane.clusterType ∨
    workspace.konnect.managedDeploymentType ≠ some plane.deploymentType

/-- The identifier of a new project. -/
def projectId (n : ℕ) : String :=
  "konnect-" ++ platform.projectUuid n

/-- A project with a root environment, and how many identifiers of environments have been drawn. -/
def ensureManagedEnvironment (workspace : Workspace Content) (plane : KonnectControlPlane)
    (drawn : ℕ) : Workspace Content × ℕ :=
  match workspace.environments.find? fun candidate => candidate.parentId = "" with
  | some root => ({ workspace with activeEnvironmentId := root.id }, drawn)
  | none =>
      let environment : Environment := {
        id := "konnect-environment-" ++ platform.environmentUuid drawn
        name := plane.name ++ " Environment"
        parentId := ""
        rows := [] }
      ({ workspace with
        activeEnvironmentId := environment.id
        environments := workspace.environments ++ [environment] }, drawn + 1)

def managedWorkspace (source : Workspace Content) (coordinatorWorkspaceId : String)
    (plane : KonnectControlPlane) (syncedAt : String) : Except Failure (Workspace Content) :=
  match konnectConfigForRegion platform source.konnect plane.region with
  | .error failure => .error failure
  | .ok regional => .ok { source with
      name := plane.name
      konnect := { source.konnect with
        enabled := false
        baseUrl := regional.baseUrl
        token := ""
        controlPlaneId := plane.id
        controlPlanes := [plane]
        managedByWorkspaceId := some coordinatorWorkspaceId
        managedControlPlaneId := some plane.id
        managedRegion := some plane.region
        managedClusterType := some plane.clusterType
        managedDeploymentType := some plane.deploymentType
        lastSyncedAt := some syncedAt } }

/-- The control plane that a project stands for, if the coordinator manages it. -/
def managedProject (coordinatorWorkspaceId id : String) (workspace : Workspace Content) :
    Option ManagedKonnectProject :=
  if workspace.konnect.managedByWorkspaceId ≠ some coordinatorWorkspaceId then none
  else
    match workspace.konnect.managedControlPlaneId, workspace.konnect.managedRegion with
    | some controlPlaneId, some region => some ⟨id, controlPlaneId, region⟩
    | _, _ => none

/-- The projects of the catalog that the coordinator manages; one that is unreadable is not
among them. -/
def existingProjects (coordinatorWorkspaceId : String) (catalog : Catalog Content) :
    List (ManagedKonnectProject × Workspace Content) :=
  catalog.ids.filterMap fun id =>
    match catalog.readCatalogWorkspace platform.toStorage id with
    | .ok workspace =>
        (managedProject coordinatorWorkspaceId id workspace).map fun project =>
          (project, workspace)
    | .error _ => none

def existingByWorkspaceId (existing : List (ManagedKonnectProject × Workspace Content))
    (id : String) : Option (Workspace Content) :=
  (existing.find? fun project => project.1.workspaceId = id).map Prod.snd

/-! ## The run -/

/-- The regions are different ones, as `activeKonnectRegions` are. -/
structure SyncInput (Content : Type) where
  coordinator : Workspace Content
  coordinatorWorkspaceId : String
  regions : List String
  regions_nodup : regions.Nodup
  syncedAt : String

structure SyncState (Content : Type) where
  catalog : Catalog Content
  drawn : ℕ
  environmentsDrawn : ℕ
  controlPlanes : KonnectSyncCounts
  services : KonnectSyncCounts
  routes : KonnectSyncCounts
  skippedRoutes : List KonnectSkippedRoute
  skippedRegions : List String
  successfulRegions : List String
  discovered : List KonnectControlPlane

/-- An exception, and the catalog at that moment. -/
structure Interrupted (Content : Type) where
  error : String
  catalog : Catalog Content

structure SyncResult (Content : Type) where
  controlPlanes : KonnectSyncCounts
  services : KonnectSyncCounts
  routes : KonnectSyncCounts
  skippedRoutes : List KonnectSkippedRoute
  skippedRegions : List String
  coordinator : Workspace Content
  catalog : Catalog Content

/-- An operation on the catalog that leaves it as it is when it raises. -/
def attempt (catalog : Catalog Content) :
    Except String (Catalog Content) → Except (Interrupted Content) (Catalog Content)
  | .ok changed => .ok changed
  | .error error => .error ⟨error, catalog⟩

section Run

variable (input : SyncInput Content)
  (existing : List (ManagedKonnectProject × Workspace Content))

/-- The project of a control plane after its resources were loaded. The settings of a coordinator
have every key, so that none of the project before is left. -/
def nextWorkspace (base : Workspace Content) (plane : KonnectControlPlane)
    (resources : Resources) : Except Failure (Workspace Content) × Reconciled Content :=
  let transient : Workspace Content := { base with
    konnect := { input.coordinator.konnect with
      enabled := true
      controlPlaneId := plane.id
      controlPlanes := [plane] } }
  let reconciled := platform.reconcile transient resources input.syncedAt
  (managedWorkspace platform reconciled.workspace input.coordinatorWorkspaceId plane
    input.syncedAt, reconciled)

def upsertControlPlane (state : SyncState Content) (upsert : Upsert) (resources : Resources) :
    Except (Interrupted Content) (SyncState Content) :=
  let plane := upsert.controlPlane
  let prior := upsert.workspaceId.bind (existingByWorkspaceId existing)
  let (base, environmentsDrawn) := ensureManagedEnvironment platform
    (prior.getD (createBlankWorkspace platform.toStorage plane.name input.coordinator.content))
    plane state.environmentsDrawn
  let (next, reconciled) := nextWorkspace platform input base plane resources
  match next with
  | .error failure => .error ⟨failure.message, state.catalog⟩
  | .ok next =>
      let reported := { state with
        services := mergeCounts state.services reconciled.services
        routes := mergeCounts state.routes reconciled.routes
        skippedRoutes := state.skippedRoutes ++ reconciled.skippedRoutes }
      match upsert.workspaceId, prior with
      | some workspaceId, some prior =>
          let updated := if managedProjectMetadataChanged prior plane then 1 else 0
          (attempt state.catalog (state.catalog.saveCatalogWorkspace workspaceId next)).map
            fun catalog => { reported with
              catalog := catalog
              environmentsDrawn := environmentsDrawn
              controlPlanes := { state.controlPlanes with
                updated := state.controlPlanes.updated + updated } }
      | _, _ =>
          (attempt state.catalog (state.catalog.createCatalogWorkspaceInactive next
            (projectId platform state.drawn))).map
            fun catalog => { reported with
              catalog := catalog
              drawn := state.drawn + 1
              environmentsDrawn := environmentsDrawn
              controlPlanes := { state.controlPlanes with
                created := state.controlPlanes.created + 1 } }

def SyncState.countControlPlane (state : SyncState Content) : SyncState Content :=
  { state with
    controlPlanes := { state.controlPlanes with total := state.controlPlanes.total + 1 } }

def SyncState.skipRegion (state : SyncState Content) (region : String) (failure : Failure) :
    SyncState Content :=
  { state with skippedRegions := state.skippedRegions ++ [skippedRegionMessage region failure] }

/-- The loop over the control planes of a region, from a position on; it says whether the region
failed. -/
def syncControlPlanes (region : String) : ℕ → List Upsert → SyncState Content →
    Except (Interrupted Content) (SyncState Content × Bool)
  | _, [], state => .ok (state, false)
  | index, upsert :: rest, state =>
      match remote.resources region index with
      | .error failure => .ok (state.countControlPlane.skipRegion region failure, true)
      | .ok resources =>
          match upsertControlPlane platform input existing state.countControlPlane upsert
              resources with
          | .error interrupted => .error interrupted
          | .ok next => syncControlPlanes region (index + 1) rest next

def SyncState.succeed (state : SyncState Content) (region : String) : SyncState Content :=
  { state with successfulRegions := state.successfulRegions ++ [region] }

def syncRegion (state : SyncState Content) (region : String) :
    Except (Interrupted Content) (SyncState Content) :=
  match loadKonnectControlPlanesForRegion platform remote input.coordinator.konnect region with
  | .error failure =>
      if isSingaporePermissionGap region failure then .ok (state.succeed region)
      else .ok (state.skipRegion region failure)
  | .ok planes =>
      let plan := planKonnectCatalogReconciliation (existing.map Prod.fst) planes []
      match syncControlPlanes platform remote input existing region 0 plan.upserts
          { state with discovered := state.discovered ++ planes } with
      | .error interrupted => .error interrupted
      | .ok (next, failed) => .ok (if failed then next else next.succeed region)

def syncRegions : List String → SyncState Content →
    Except (Interrupted Content) (SyncState Content)
  | [], state => .ok state
  | region :: rest, state =>
      match syncRegion platform remote input existing state region with
      | .error interrupted => .error interrupted
      | .ok next => syncRegions rest next

def deleteProjects : List String → SyncState Content →
    Except (Interrupted Content) (SyncState Content)
  | [], state => .ok state
  | workspaceId :: rest, state =>
      match state.catalog.deleteCatalogWorkspace workspaceId with
      | .error error => .error ⟨error, state.catalog⟩
      | .ok catalog => deleteProjects rest { state with
          catalog := catalog
          controlPlanes := { state.controlPlanes with
            deleted := state.controlPlanes.deleted + 1 } }

/-- The control planes that the coordinator shows afterwards: those of a region that failed stay
if they were not found again. -/
def shownControlPlanes (state : SyncState Content) : List KonnectControlPlane :=
  let failedRegionNames := state.skippedRegions.map fun entry =>
    String.ofList (entry.toList.takeWhile (· ≠ ':'))
  let retainedControlPlanes := input.coordinator.konnect.controlPlanes.filter fun plane =>
    plane.region ∈ failedRegionNames
  state.discovered ++ retainedControlPlanes.filter fun retained =>
    !(state.discovered.any fun plane => plane.key = retained.key)

def coordinatorAfter (state : SyncState Content) : Workspace Content :=
  let konnect := input.coordinator.konnect
  let shown := shownControlPlanes input state
  { input.coordinator with
    konnect := { konnect with
      controlPlanes := shown
      controlPlaneId :=
        if shown.any fun plane => plane.id = konnect.controlPlaneId then konnect.controlPlaneId
        else (shown.head?.map KonnectControlPlane.id).getD ""
      lastSyncedAt := some input.syncedAt } }

/-- From the deletions to the end. -/
def finishSync (state : SyncState Content) :
    Except (Interrupted Content) (SyncResult Content) :=
  let plan := planKonnectCatalogReconciliation (existing.map Prod.fst) state.discovered
    state.successfulRegions
  match deleteProjects plan.deleteWorkspaceIds state with
  | .error interrupted => .error interrupted
  | .ok state =>
      let coordinator := coordinatorAfter input state
      match attempt state.catalog
          (state.catalog.saveCatalogWorkspace input.coordinatorWorkspaceId coordinator) with
      | .error interrupted => .error interrupted
      | .ok saved =>
          match attempt saved saved.load with
          | .error interrupted => .error interrupted
          | .ok catalog =>
              if catalog.activeWorkspaceId ≠ input.coordinatorWorkspaceId then
                .error ⟨"The active local project changed during Konnect reconciliation.",
                  catalog⟩
              else .ok {
                controlPlanes := state.controlPlanes
                services := state.services
                routes := state.routes
                skippedRoutes := state.skippedRoutes
                skippedRegions := state.skippedRegions
                coordinator := coordinator
                catalog := catalog }

end Run

/-- The catalog as the loops find it: the coordinator was saved. -/
def startSync (input : SyncInput Content) (catalog : Catalog Content) :
    Except (Interrupted Content) (Catalog Content) :=
  if input.coordinatorWorkspaceId = "" then
    .error ⟨"The active local project is unavailable.", catalog⟩
  else if input.coordinator.konnect.managedControlPlaneId.isSome then
    .error ⟨"Run all-control-plane sync from a credential-owning local project, " ++
      "not a managed Konnect project.", catalog⟩
  else if ¬ input.coordinator.konnect.enabled then
    .error ⟨"Enable the Konnect integration before syncing.", catalog⟩
  else
    match attempt catalog catalog.load with
    | .error interrupted => .error interrupted
    | .ok initialCatalog =>
        if initialCatalog.activeWorkspaceId ≠ input.coordinatorWorkspaceId then
          .error ⟨"The Konnect coordinator is no longer the active local project.",
            initialCatalog⟩
        else
          attempt initialCatalog (initialCatalog.saveCatalogWorkspace
            input.coordinatorWorkspaceId input.coordinator)

def initialState (catalog : Catalog Content) (drawn : ℕ) : SyncState Content where
  catalog := catalog
  drawn := drawn
  environmentsDrawn := 0
  controlPlanes := zeroKonnectSyncCounts
  services := zeroKonnectSyncCounts
  routes := zeroKonnectSyncCounts
  skippedRoutes := []
  skippedRegions := []
  successfulRegions := []
  discovered := []

/-- A run, after some identifiers have been drawn. -/
def syncKonnectCatalog (input : SyncInput Content) (drawn : ℕ) (catalog : Catalog Content) :
    Except (Interrupted Content) (SyncResult Content) :=
  match startSync input catalog with
  | .error interrupted => .error interrupted
  | .ok started =>
      let existing := existingProjects platform input.coordinatorWorkspaceId started
      match syncRegions platform remote input existing input.regions
          (initialState started drawn) with
      | .error interrupted => .error interrupted
      | .ok state => finishSync input existing state

/-- The catalog that a run leaves, whether it returns or raises. -/
def catalogAfter : Except (Interrupted Content) (SyncResult Content) → Catalog Content
  | .ok result => result.catalog
  | .error interrupted => interrupted.catalog

end Brunomnia.Konnect
