import Brunomnia.Projects.Records

/-!
# Files of a project

The files of a project are its collections, designs, mock servers, environment trees and MCP
clients. A collection that a design has generated belongs to the design. A file is moved from
one project into another one with the evidence that its requests have left, unless an identity
that would move is there already.
-/

namespace Brunomnia.Projects

inductive ProjectWorkspaceScope where
  | collection
  | design
  | mockServer
  | environment
  | mcp
  deriving DecidableEq

def ProjectWorkspaceScope.label : ProjectWorkspaceScope → String
  | .collection => "Collection"
  | .design => "Document"
  | .mockServer => "Mock Server"
  | .environment => "Environment"
  | .mcp => "MCP Client"

structure ProjectWorkspaceSummary where
  id : String
  name : String
  scope : ProjectWorkspaceScope
  deriving DecidableEq

def environmentRoots (environments : List Environment) : List Environment :=
  environments.filter fun environment =>
    ∀ parentId ∈ environment.parent?, parentId ∉ environments.map Environment.id

namespace Workspace

variable (workspace : Workspace)

/-- The ids that designs name as their generated collections; an empty one names none. -/
def generatedCollectionIds : List String :=
  workspace.apiDesigns.flatMap fun design =>
    (design.generatedCollectionId.filter fun id => id ≠ "").toList

def listProjectWorkspaces : List ProjectWorkspaceSummary :=
  (workspace.collections.filter fun collection =>
      collection.id ∉ workspace.generatedCollectionIds).map
    (fun collection => ⟨collection.id, collection.name, .collection⟩) ++
  workspace.apiDesigns.map (fun design => ⟨design.id, design.name, .design⟩) ++
  workspace.mockServers.map (fun server => ⟨server.id, server.name, .mockServer⟩) ++
  (environmentRoots workspace.environments).map
    (fun environment => ⟨environment.id, environment.name, .environment⟩) ++
  workspace.mcpClients.map fun client => ⟨client.id, client.name, .mcp⟩

/-- The file that an id selects: the first one that is listed under it. -/
def projectWorkspace (projectWorkspaceId : String) : Option ProjectWorkspaceSummary :=
  workspace.listProjectWorkspaces.find? fun candidate => candidate.id = projectWorkspaceId

/-- `projectIdentityIds` -/
def projectIdentityIds : List String :=
  workspace.collections.flatMap (fun collection =>
    [collection.id] ++ collection.folderList.map RequestFolder.id ++
      collection.requests.map ApiRequest.id ++
      collection.subEnvironmentList.map CollectionEnvironment.id) ++
  workspace.apiDesigns.map ApiDesign.id ++
  workspace.mockServers.flatMap (fun server => [server.id] ++ server.routes.map MockRoute.id) ++
  workspace.environments.map Environment.id ++
  workspace.testSuites.flatMap (fun suite => [suite.id] ++ suite.tests.map UnitTest.id) ++
  workspace.unitTestResults.map UnitTestRunResult.id ++
  workspace.runnerReports.flatMap (fun report =>
    [report.id] ++ report.results.map RunnerItemResult.id) ++
  workspace.history.map HistoryEntry.id ++
  workspace.responses.map StoredResponse.id ++
  workspace.streamSessions.map StoredStreamSession.id ++
  workspace.mcpClients.map McpClient.id ++
  workspace.mcpSessions.map McpHistorySession.id

/-- The ids of the resources that are files of one kind. -/
def fileIds : ProjectWorkspaceScope → List String
  | .collection => workspace.collections.map Collection.id
  | .design => workspace.apiDesigns.map ApiDesign.id
  | .mockServer => workspace.mockServers.map MockServer.id
  | .environment => workspace.environments.map Environment.id
  | .mcp => workspace.mcpClients.map McpClient.id

/-- A workspace has the resource that a file is named after. -/
def HasFile (file : ProjectWorkspaceSummary) : Prop :=
  file.id ∈ workspace.fileIds file.scope

instance (file : ProjectWorkspaceSummary) : Decidable (workspace.HasFile file) :=
  inferInstanceAs (Decidable (_ ∈ _))

end Workspace

/-! ## Environment branches -/

/-- The loop of `environmentBranch`, for at most so many turns. -/
def projectEnvironmentBranchFrom (environments : List Environment) :
    ℕ → List String → List String → List Environment
  | 0, _, _ => []
  | _ + 1, _, [] => []
  | turns + 1, seen, currentId :: pending =>
      if currentId ∈ seen then projectEnvironmentBranchFrom environments turns seen pending
      else
        match environments.find? fun environment => environment.id = currentId with
        | none => projectEnvironmentBranchFrom environments turns (currentId :: seen) pending
        | some current =>
            current :: projectEnvironmentBranchFrom environments turns (currentId :: seen)
              (pending ++ (environments.filter fun environment =>
                environment.parentId.getD "" = currentId).map Environment.id)

/-- Every environment is put among the pending ones once, by its parent, and the root once
more. -/
def projectEnvironmentBranch (environments : List Environment) (rootId : String) :
    List Environment :=
  projectEnvironmentBranchFrom environments (environments.length + 1) [] [rootId]

theorem projectEnvironmentBranch_of_root {environments : List Environment} {rootId : String}
    (rootMem : rootId ∈ environments.map Environment.id) :
    ∃ others, (projectEnvironmentBranch environments rootId).map Environment.id =
      rootId :: others := by
  rcases List.mem_map.mp rootMem with ⟨root, mem, rfl⟩
  have present : (environments.find? fun environment => environment.id = root.id).isSome := by
    rw [List.find?_isSome]
    exact ⟨root, mem, by simp⟩
  rcases Option.isSome_iff_exists.mp present with ⟨found, foundEq⟩
  have sameId : found.id = root.id := by simpa using List.find?_some foundEq
  simp [projectEnvironmentBranch, projectEnvironmentBranchFrom, foundEq, sameId]

/-! ## What the list holds -/

theorem mem_projectIdentityIds_of_hasFile {workspace : Workspace}
    {file : ProjectWorkspaceSummary} (hasFile : workspace.HasFile file) :
    file.id ∈ workspace.projectIdentityIds := by
  unfold Workspace.HasFile Workspace.fileIds at hasFile
  unfold Workspace.projectIdentityIds
  simp only [List.mem_append]
  cases scopeEq : file.scope with
  | collection =>
      simp only [scopeEq, List.mem_map] at hasFile
      rcases hasFile with ⟨collection, mem, idEq⟩
      have listed : file.id ∈ workspace.collections.flatMap (fun collection =>
          [collection.id] ++ collection.folderList.map RequestFolder.id ++
            collection.requests.map ApiRequest.id ++
            collection.subEnvironmentList.map CollectionEnvironment.id) :=
        List.mem_flatMap.mpr ⟨collection, mem, by simp [idEq]⟩
      simp only [listed, true_or]
  | design =>
      simp only [scopeEq] at hasFile
      simp only [hasFile, true_or, or_true]
  | mockServer =>
      simp only [scopeEq, List.mem_map] at hasFile
      rcases hasFile with ⟨server, mem, idEq⟩
      have listed : file.id ∈ workspace.mockServers.flatMap (fun server =>
          [server.id] ++ server.routes.map MockRoute.id) :=
        List.mem_flatMap.mpr ⟨server, mem, by simp [idEq]⟩
      simp only [listed, true_or, or_true]
  | environment =>
      simp only [scopeEq] at hasFile
      simp only [hasFile, true_or, or_true]
  | mcp =>
      simp only [scopeEq] at hasFile
      simp only [hasFile, true_or, or_true]

theorem hasFile_of_mem {workspace : Workspace} {file : ProjectWorkspaceSummary}
    (listed : file ∈ workspace.listProjectWorkspaces) : workspace.HasFile file := by
  unfold Workspace.listProjectWorkspaces at listed
  simp only [List.mem_append, List.mem_map, List.mem_filter, environmentRoots] at listed
  unfold Workspace.HasFile Workspace.fileIds
  rcases listed with (((⟨collection, ⟨mem, _⟩, rfl⟩ | ⟨design, mem, rfl⟩) | ⟨server, mem, rfl⟩) |
    ⟨environment, ⟨mem, _⟩, rfl⟩) | ⟨client, mem, rfl⟩
  · exact List.mem_map_of_mem mem
  · exact List.mem_map_of_mem mem
  · exact List.mem_map_of_mem mem
  · exact List.mem_map_of_mem mem
  · exact List.mem_map_of_mem mem

theorem hasFile_of_projectWorkspace {workspace : Workspace} {id : String}
    {file : ProjectWorkspaceSummary} (selected : workspace.projectWorkspace id = some file) :
    workspace.HasFile file :=
  hasFile_of_mem (List.mem_of_find?_eq_some selected)

end Brunomnia.Projects
