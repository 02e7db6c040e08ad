import Brunomnia.Library.Runs
import Brunomnia.Projects.Files
import Brunomnia.Json

/-!
# Moving a file between workspaces

A file is moved with the evidence that its requests have left and with its file state, unless the
destination has one of the identities already.
-/

namespace Brunomnia.Projects

open Library

/-! ## The move -/

/-- `cloneWorkspaceFileState`; an inherited function cannot be cloned. -/
def cloneWorkspaceFileState (workspace : Workspace) (fileId : String) :
    Except String WorkspaceFileState :=
  if fileId = "" then .ok emptyWorkspaceFileState
  else
    match workspace.fileState fileId with
    | some state => .ok state
    | none =>
        if fileId ∈ inheritedFunctions then .error "DataCloneError"
        else .ok emptyWorkspaceFileState

def assertNoIdentityCollisions (target : Workspace) (ids : List String) : Except String Unit :=
  match ids.find? fun id => id ∈ target.projectIdentityIds with
  | none => .ok ()
  | some collision =>
      .error ("The destination project already contains resource identity '" ++ collision ++
        "'. Duplicate the file instead of moving it.")

structure Partition (Item : Type) where
  moved : List Item
  remaining : List Item

def partition {Item : Type} (items : List Item) (belongs : Item → Prop) [DecidablePred belongs] :
    Partition Item where
  moved := items.filter fun item => belongs item
  remaining := items.filter fun item => ¬ belongs item

def Workspace.requestIds (workspace : Workspace) : List String :=
  (workspace.collections.flatMap Collection.requests).map ApiRequest.id

def repairSourceCollections (workspace : Workspace) : Workspace :=
  if workspace.activeRequestId ∈ workspace.requestIds then workspace
  else { workspace with activeRequestId := workspace.requestIds.head?.getD "" }

def repairSourceEnvironments (workspace : Workspace) : Workspace :=
  if workspace.activeEnvironmentId ∈ workspace.environments.map Environment.id then workspace
  else
    { workspace with
      activeEnvironmentId := (workspace.environments.map Environment.id).head?.getD "" }

/-- One half of `splitResponseFilters`; a filter under `__proto__` gets lost. -/
def splitResponseFilters (filters : Option (Record Json)) (belongs : String → Prop)
    [DecidablePred belongs] : Record Json :=
  fun requestId =>
    if belongs requestId ∧ requestId ≠ "__proto__" then filters.bind fun record => record requestId
    else none

/-- A source and a target workspace. -/
structure Transfer where
  source : Workspace
  target : Workspace

section Moves

-- `left.localeCompare(right)`
variable (localeCompare : String → String → ℤ)

def moveCollectionOwnedResources (projects : Transfer) (collection : Collection) :
    Except String Transfer :=
  let source := projects.source
  let target := projects.target
  let requestIds := collection.requests.map ApiRequest.id
  let suites := partition source.testSuites fun suite => suite.collectionId = collection.id
  let suiteIds := suites.moved.map UnitTestSuite.id
  let unitTestResults := partition source.unitTestResults fun result => result.suiteId ∈ suiteIds
  let runnerReports := partition source.runnerReports fun report =>
    report.collectionId = collection.id
  let history := partition source.history fun entry => entry.requestId ∈ requestIds
  let responses := partition source.responses fun response => response.requestId ∈ requestIds
  let streamSessions := partition source.streamSessions fun session =>
    session.requestId ∈ requestIds
  let movedIds := [collection.id] ++ collection.folderList.map RequestFolder.id ++ requestIds ++
    collection.subEnvironmentList.map CollectionEnvironment.id ++
    suites.moved.flatMap (fun suite => [suite.id] ++ suite.tests.map UnitTest.id) ++
    unitTestResults.moved.map UnitTestRunResult.id ++
    runnerReports.moved.flatMap (fun report =>
      [report.id] ++ report.results.map RunnerItemResult.id) ++
    history.moved.map HistoryEntry.id ++ responses.moved.map StoredResponse.id ++
    streamSessions.moved.map StoredStreamSession.id
  (assertNoIdentityCollisions target movedIds).map fun _ =>
    { source :=
        { source with
          collections := source.collections.filter fun candidate => candidate.id ≠ collection.id
          testSuites := suites.remaining
          unitTestResults := unitTestResults.remaining
          runnerReports := runnerReports.remaining
          history := history.remaining
          responses := responses.remaining
          streamSessions := streamSessions.remaining
          responseFilters := some (splitResponseFilters source.responseFilters fun requestId =>
            requestId ∉ requestIds) }
      target :=
        { target with
          collections := target.collections ++ [collection]
          testSuites := target.testSuites ++ suites.moved
          unitTestResults := target.unitTestResults ++ unitTestResults.moved
          runnerReports := runnerReports.moved ++ target.runnerReports
          history := ((history.moved ++ target.history).insertionSort fun left right =>
            localeCompare right.createdAt left.createdAt ≤ 0).take 100
          responses := target.responses ++ responses.moved
          streamSessions := target.streamSessions ++ streamSessions.moved
          responseFilters := some ((target.responseFilters.getD Record.empty).spread
            (splitResponseFilters source.responseFilters fun requestId =>
              requestId ∈ requestIds))
          activeRequestId := (requestIds.head?).getD target.activeRequestId } }

def moveCollection (projects : Transfer) (id : String) : Except String Transfer :=
  match projects.source.collections.find? fun candidate => candidate.id = id with
  | none => .error "undefined"
  | some collection =>
      (moveCollectionOwnedResources localeCompare projects collection).map fun moved =>
        { moved with source := repairSourceCollections moved.source }

def moveDesign (projects : Transfer) (id : String) : Except String Transfer :=
  match projects.source.apiDesigns.find? fun candidate => candidate.id = id with
  | none => .error "undefined"
  | some design =>
      (assertNoIdentityCollisions projects.target [design.id]).bind fun _ =>
        let carried : Except String Transfer :=
          match projects.source.collections.find? fun collection =>
              some collection.id = design.generatedCollectionId with
          | none => .ok projects
          | some generated => moveCollectionOwnedResources localeCompare projects generated
        carried.map fun moved =>
          { source := repairSourceCollections
              { moved.source with
                apiDesigns := moved.source.apiDesigns.filter fun candidate =>
                  candidate.id ≠ design.id }
            target := { moved.target with apiDesigns := moved.target.apiDesigns ++ [design] } }

def moveMockServer (projects : Transfer) (id : String) : Except String Transfer :=
  match projects.source.mockServers.find? fun candidate => candidate.id = id with
  | none => .error "undefined"
  | some server =>
      (assertNoIdentityCollisions projects.target
          ([server.id] ++ server.routes.map MockRoute.id)).map fun _ =>
        { source :=
            { projects.source with
              mockServers := projects.source.mockServers.filter fun candidate =>
                candidate.id ≠ server.id }
          target :=
            { projects.target with mockServers := projects.target.mockServers ++ [server] } }

def moveEnvironments (projects : Transfer) (id : String) : Except String Transfer :=
  let branch := projectEnvironmentBranch projects.source.environments id
  let branchIds := branch.map Environment.id
  (assertNoIdentityCollisions projects.target branchIds).map fun _ =>
    { source := repairSourceEnvironments
        { projects.source with
          environments := projects.source.environments.filter fun environment =>
            environment.id ∉ branchIds }
      target :=
        { projects.target with
          environments := projects.target.environments ++ branch
          activeEnvironmentId := id } }

def moveMcpClient (projects : Transfer) (id : String) : Except String Transfer :=
  match projects.source.mcpClients.find? fun candidate => candidate.id = id with
  | none => .error "undefined"
  | some client =>
      let sessions := partition projects.source.mcpSessions fun session =>
        session.clientId = client.id
      (assertNoIdentityCollisions projects.target
          ([client.id] ++ sessions.moved.map McpHistorySession.id)).map fun _ =>
        { source :=
            { projects.source with
              mcpClients := projects.source.mcpClients.filter fun candidate =>
                candidate.id ≠ client.id
              mcpSessions := sessions.remaining }
          target :=
            { projects.target with
              mcpClients := projects.target.mcpClients ++ [client]
              mcpSessions := projects.target.mcpSessions ++ sessions.moved } }

/-- The records of a file, as the branches of `moveProjectWorkspace` move them. -/
def moveRecords (projects : Transfer) (summary : ProjectWorkspaceSummary) :
    Except String Transfer :=
  match summary.scope with
  | .collection => moveCollection localeCompare projects summary.id
  | .design => moveDesign localeCompare projects summary.id
  | .mockServer => moveMockServer projects summary.id
  | .environment => moveEnvironments projects summary.id
  | .mcp => moveMcpClient projects summary.id

/-- `moveProjectWorkspace`, for two workspaces that are not the same object. -/
def moveProjectWorkspace (projects : Transfer) (projectWorkspaceId : String) :
    Except String Transfer :=
  match projects.source.projectWorkspace projectWorkspaceId with
  | none => .error "The selected project file no longer exists."
  | some summary =>
      (moveRecords localeCompare projects summary).bind fun moved =>
        (cloneWorkspaceFileState moved.source summary.id).map fun fileState =>
          { source :=
              { moved.source with fileState := moved.source.fileState.delete summary.id }
            target :=
              { moved.target with
                fileState := moved.target.fileState.set summary.id fileState } }

end Moves

/-! ## Where the file is -/

section Files

variable {localeCompare : String → String → ℤ} {projects moved : Transfer}

theorem notMem_of_assertNoIdentityCollisions {target : Workspace} {ids : List String}
    (accepted : assertNoIdentityCollisions target ids = .ok ()) :
    ∀ id ∈ ids, id ∉ target.projectIdentityIds := by
  unfold assertNoIdentityCollisions at accepted
  split at accepted
  case h_1 noneFound =>
    intro id mem
    simpa using List.find?_eq_none.mp noneFound id mem
  case h_2 => cases accepted

/-- Two workspaces between which a file has been moved; it comes behind the files of its kind. -/
structure FileMoved (projects moved : Transfer) (file : ProjectWorkspaceSummary) : Prop where
  wasNew : ¬ projects.target.HasFile file
  isGone : ¬ moved.source.HasFile file
  hasCome : ∃ others, moved.target.fileIds file.scope =
    projects.target.fileIds file.scope ++ file.id :: others
  sameVersions : moved.source.version = projects.source.version ∧
    moved.target.version = projects.target.version

theorem not_hasFile_of_accepted {target : Workspace} {ids : List String}
    {file : ProjectWorkspaceSummary}
    (accepted : assertNoIdentityCollisions target ids = .ok ()) (mem : file.id ∈ ids) :
    ¬ target.HasFile file :=
  fun hasFile => notMem_of_assertNoIdentityCollisions accepted file.id mem
    (mem_projectIdentityIds_of_hasFile hasFile)

theorem repairSourceCollections_fileIds (workspace : Workspace)
    (scope : ProjectWorkspaceScope) :
    (repairSourceCollections workspace).fileIds scope = workspace.fileIds scope := by
  unfold repairSourceCollections
  split
  · rfl
  · cases scope <;> rfl

theorem repairSourceEnvironments_fileIds (workspace : Workspace)
    (scope : ProjectWorkspaceScope) :
    (repairSourceEnvironments workspace).fileIds scope = workspace.fileIds scope := by
  unfold repairSourceEnvironments
  split
  · rfl
  · cases scope <;> rfl

theorem repairSourceCollections_version (workspace : Workspace) :
    (repairSourceCollections workspace).version = workspace.version := by
  unfold repairSourceCollections
  split <;> rfl

theorem repairSourceEnvironments_version (workspace : Workspace) :
    (repairSourceEnvironments workspace).version = workspace.version := by
  unfold repairSourceEnvironments
  split <;> rfl

theorem moveCollection_fileMoved {file : ProjectWorkspaceSummary}
    (isCollection : file.scope = .collection)
    (accepted : moveCollection localeCompare projects file.id = .ok moved) :
    FileMoved projects moved file := by
  unfold moveCollection at accepted
  split at accepted
  case h_1 => cases accepted
  case h_2 collection found =>
    have sameId : collection.id = file.id := by simpa using List.find?_some found
    rcases map_eq_ok.mp accepted with ⟨carried, carriedEq, rfl⟩
    unfold moveCollectionOwnedResources at carriedEq
    rcases map_eq_ok.mp carriedEq with ⟨⟨⟩, free, rfl⟩
    refine ⟨not_hasFile_of_accepted free (by simp [sameId]), ?_, ⟨[], ?_⟩,
      repairSourceCollections_version _, rfl⟩
    · unfold Workspace.HasFile
      rw [repairSourceCollections_fileIds]
      simp [isCollection, Workspace.fileIds, sameId]
    · simp [isCollection, Workspace.fileIds, sameId]

/-- The resources of a collection come to the designs of neither workspace. -/
theorem moveCollectionOwnedResources_designs {collection : Collection}
    (accepted : moveCollectionOwnedResources localeCompare projects collection = .ok moved) :
    moved.source.version = projects.source.version ∧
      moved.target.version = projects.target.version ∧
      moved.target.apiDesigns = projects.target.apiDesigns := by
  rcases map_eq_ok.mp accepted with ⟨⟨⟩, _, rfl⟩
  exact ⟨rfl, rfl, rfl⟩

theorem moveDesign_fileMoved {file : ProjectWorkspaceSummary} (isDesign : file.scope = .design)
    (accepted : moveDesign localeCompare projects file.id = .ok moved) :
    FileMoved projects moved file := by
  unfold moveDesign at accepted
  split at accepted
  case h_1 => cases accepted
  case h_2 design found =>
    have sameId : design.id = file.id := by simpa using List.find?_some found
    rcases bind_eq_ok_iff.mp accepted with ⟨⟨⟩, free, rest⟩
    rcases map_eq_ok.mp rest with ⟨carried, carriedEq, rfl⟩
    have same : carried.source.version = projects.source.version ∧
        carried.target.version = projects.target.version ∧
        carried.target.apiDesigns = projects.target.apiDesigns := by
      split at carriedEq
      · cases carriedEq
        exact ⟨rfl, rfl, rfl⟩
      · exact moveCollectionOwnedResources_designs carriedEq
    refine ⟨not_hasFile_of_accepted free (by simp [sameId]), ?_, ⟨[], ?_⟩,
      (repairSourceCollections_version _).trans same.1, same.2.1⟩
    · unfold Workspace.HasFile
      rw [repairSourceCollections_fileIds]
      simp [isDesign, Workspace.fileIds, sameId]
    · simp [isDesign, Workspace.fileIds, sameId, same.2.2]

theorem moveMockServer_fileMoved {file : ProjectWorkspaceSummary}
    (isMockServer : file.scope = .mockServer)
    (accepted : moveMockServer projects file.id = .ok moved) :
    FileMoved projects moved file := by
  unfold moveMockServer at accepted
  split at accepted
  case h_1 => cases accepted
  case h_2 server found =>
    have sameId : server.id = file.id := by simpa using List.find?_some found
    rcases map_eq_ok.mp accepted with ⟨⟨⟩, free, rfl⟩
    refine ⟨not_hasFile_of_accepted free (by simp [sameId]), ?_, ⟨[], ?_⟩, rfl, rfl⟩
    · simp [Workspace.HasFile, isMockServer, Workspace.fileIds, sameId]
    · simp [isMockServer, Workspace.fileIds, sameId]

theorem moveEnvironments_fileMoved {file : ProjectWorkspaceSummary}
    (isEnvironment : file.scope = .environment) (present : projects.source.HasFile file)
    (accepted : moveEnvironments projects file.id = .ok moved) :
    FileMoved projects moved file := by
  rcases projectEnvironmentBranch_of_root (by
    simpa [Workspace.HasFile, isEnvironment, Workspace.fileIds] using present) with ⟨others, branch⟩
  have rootMem : file.id ∈
      (projectEnvironmentBranch projects.source.environments file.id).map Environment.id := by
    rw [branch]
    exact List.mem_cons_self
  rcases map_eq_ok.mp accepted with ⟨⟨⟩, free, rfl⟩
  refine ⟨not_hasFile_of_accepted free rootMem, ?_, ⟨others, ?_⟩,
    repairSourceEnvironments_version _, rfl⟩
  · unfold Workspace.HasFile
    rw [repairSourceEnvironments_fileIds, isEnvironment]
    simp only [Workspace.fileIds, List.mem_map, List.mem_filter, decide_eq_true_eq, not_exists]
    rintro environment ⟨⟨_, outside⟩, idEq⟩
    rcases List.mem_map.mp rootMem with ⟨root, mem, rootId⟩
    rw [idEq] at outside
    exact outside root ⟨mem, rootId⟩
  · simp only [isEnvironment, Workspace.fileIds, List.map_append, branch]

theorem moveMcpClient_fileMoved {file : ProjectWorkspaceSummary} (isMcp : file.scope = .mcp)
    (accepted : moveMcpClient projects file.id = .ok moved) :
    FileMoved projects moved file := by
  unfold moveMcpClient at accepted
  split at accepted
  case h_1 => cases accepted
  case h_2 client found =>
    have sameId : client.id = file.id := by simpa using List.find?_some found
    rcases map_eq_ok.mp accepted with ⟨⟨⟩, free, rfl⟩
    refine ⟨not_hasFile_of_accepted free (by simp [sameId]), ?_, ⟨[], ?_⟩, rfl, rfl⟩
    · simp [Workspace.HasFile, isMcp, Workspace.fileIds, sameId]
    · simp [isMcp, Workspace.fileIds, sameId]

theorem moveRecords_fileMoved {file : ProjectWorkspaceSummary}
    (present : projects.source.HasFile file)
    (accepted : moveRecords localeCompare projects file = .ok moved) :
    FileMoved projects moved file := by
  unfold moveRecords at accepted
  split at accepted
  case h_1 scope => exact moveCollection_fileMoved scope accepted
  case h_2 scope => exact moveDesign_fileMoved scope accepted
  case h_3 scope => exact moveMockServer_fileMoved scope accepted
  case h_4 scope => exact moveEnvironments_fileMoved scope present accepted
  case h_5 scope => exact moveMcpClient_fileMoved scope accepted

/-- A move that is accepted takes a file that the source lists and the target does not have
from the one to the other. -/
theorem moveProjectWorkspace_fileMoved {id : String}
    (accepted : moveProjectWorkspace localeCompare projects id = .ok moved) :
    ∃ file, projects.source.projectWorkspace id = some file ∧
      projects.source.HasFile file ∧ FileMoved projects moved file := by
  unfold moveProjectWorkspace at accepted
  split at accepted
  case h_1 => cases accepted
  case h_2 file selected =>
    have present := hasFile_of_projectWorkspace selected
    rcases bind_eq_ok_iff.mp accepted with ⟨carried, carriedEq, cloned⟩
    rcases map_eq_ok.mp cloned with ⟨fileState, _, rfl⟩
    have filesMoved := moveRecords_fileMoved present carriedEq
    have sameFiles (workspace : Workspace) (fileState : Record WorkspaceFileState) :
        ({ workspace with fileState := fileState }).fileIds file.scope =
          workspace.fileIds file.scope := by
      cases file.scope <;> rfl
    refine ⟨file, selected, present, filesMoved.wasNew, ?_, ?_, filesMoved.sameVersions⟩
    · rw [Workspace.HasFile, sameFiles]
      exact filesMoved.isGone
    · rw [sameFiles]
      exact filesMoved.hasCome

end Files

end Brunomnia.Projects
