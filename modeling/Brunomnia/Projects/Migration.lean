import Brunomnia.Library.Lists
import Brunomnia.Projects.Files

/-!
# What reading makes of a project

A project is migrated whenever it is read. The first 500 environments and the first 100 MCP clients
are kept; a parent that is missing or closes a cycle is cleared, and what is below a private
environment becomes private. How the rest is normalized is a parameter: it changes no identity and
no name of a file.
-/

namespace Brunomnia.Projects

open Library

/-- How reading normalizes what no list of files depends on. -/
structure Normalizers where
  /-- `cloneSeedWorkspace()`, for workspaces from before there were empty projects. -/
  seed : Workspace
  seedEnvironments : seed.environments.length ≤ 500
  collection : Collection → Collection
  resourceOrder : Collection → Collection
  environment : Environment → Environment
  design : ApiDesign → ApiDesign
  mcpClient : McpClient → McpClient
  /-- The evidence and the settings. -/
  rest : Workspace → Workspace

/-! ## Environments -/

/-- `forEach` with changes in place: what comes later sees what was changed before. -/
def updateEach (update : List Environment → Environment → Environment)
    (environments : List Environment) : List Environment :=
  (List.range environments.length).foldl
    (fun current index => current.modify index (update current)) environments

/-- The walk to the parents comes back to where it was, within so many turns. -/
def closesCycle (environments : List Environment) : ℕ → List String → Environment → Bool
  | 0, _, _ => false
  | turns + 1, visited, current =>
      match current.parent? with
      | none => false
      | some parentId =>
          if parentId ∈ visited then true
          else
            match environmentById environments parentId with
            | none => false
            | some parent => closesCycle environments turns (parentId :: visited) parent

def clearCycle (environments : List Environment) (environment : Environment) : Environment :=
  if closesCycle environments (environments.length + 1) [environment.id] environment then
    { environment with parentId := some "" }
  else environment

def clearMissingParent (environments : List Environment) (environment : Environment) :
    Environment :=
  let parentId := environment.parentId.getD ""
  { environment with
    parentId :=
      if parentId ≠ environment.id ∧ parentId ∈ environments.map Environment.id then
        environment.parentId
      else some "" }

def inheritPrivate (environments : List Environment) (environment : Environment) : Environment :=
  match environment.parent?.bind (environmentById environments) with
  | none => environment
  | some parent => if parent.isPrivate then { environment with isPrivate := true } else environment

def dropSharedSecrets (environment : Environment) : Environment :=
  if environment.isPrivate then environment
  else { environment with
    rows := environment.rows.filter fun row => row.valueType ≠ some .secret }

section Migration

variable (normalize : Normalizers)

def normalizeEnvironment (environment : Environment) : Environment :=
  { normalize.environment environment with
    id := environment.id
    name := environment.name
    parentId := some (environment.parentId.getD "")
    isPrivate := environment.isPrivate }

/-- A pass that changes nothing ends the loop, so that all passes may be made. -/
def normalizeEnvironments (environments fallback : List Environment) : List Environment :=
  if environments = [] then fallback
  else
    let normalized := (environments.take 500).map (normalizeEnvironment normalize)
    let linked := normalized.map (clearMissingParent normalized)
    let rooted := updateEach clearCycle linked
    ((updateEach inheritPrivate)^[rooted.length] rooted).map dropSharedSecrets

/-! ## The workspace -/

/-- A collection whose contents are changed. -/
def withContents (change : Collection → Collection) (collection : Collection) : Collection :=
  { change collection with id := collection.id, name := collection.name }

def normalizeDesign (design : ApiDesign) : ApiDesign :=
  { normalize.design design with
    id := design.id, name := design.name, generatedCollectionId := design.generatedCollectionId }

def normalizeMcpClients (clients : List McpClient) : List McpClient :=
  (clients.map fun client =>
    { normalize.mcpClient client with id := client.id, name := client.name }).take 100

def supportsEmptyProjects (workspace : Workspace) : Prop := 42 ≤ workspace.version

instance (workspace : Workspace) : Decidable (supportsEmptyProjects workspace) :=
  inferInstanceAs (Decidable (_ ≤ _))

def migrateWorkspace (workspace : Workspace) : Workspace :=
  let importedCollections := workspace.collections.map (withContents normalize.collection)
  let collections :=
    if importedCollections ≠ [] ∨ supportsEmptyProjects workspace then importedCollections
    else normalize.seed.collections
  { normalize.rest workspace with
    version := 52
    name := if workspace.name = "" then "Imported Workspace" else workspace.name
    collections := collections.map (withContents normalize.resourceOrder)
    environments := normalizeEnvironments normalize workspace.environments
      (if supportsEmptyProjects workspace then [] else normalize.seed.environments)
    apiDesigns := workspace.apiDesigns.map (normalizeDesign normalize)
    mockServers := workspace.mockServers
    mcpClients := normalizeMcpClients normalize workspace.mcpClients }

end Migration

/-! ## The files that are read -/

section Ids

variable {normalize : Normalizers} {workspace : Workspace}

theorem updateEach_ids {update : List Environment → Environment → Environment}
    (keepsId : ∀ environments environment, (update environments environment).id = environment.id)
    (environments : List Environment) :
    (updateEach update environments).map Environment.id = environments.map Environment.id := by
  rw [updateEach]
  refine List.foldlRecOn (List.range environments.length) _
    (motive := fun (current : List Environment) =>
      current.map Environment.id = environments.map Environment.id) rfl ?_
  intro current kept index _
  rw [map_modify_of_eq _ _ (keepsId current), kept]

theorem clearCycle_id (environments : List Environment) (environment : Environment) :
    (clearCycle environments environment).id = environment.id := by
  rw [clearCycle]
  split <;> rfl

theorem inheritPrivate_id (environments : List Environment) (environment : Environment) :
    (inheritPrivate environments environment).id = environment.id := by
  rw [inheritPrivate]
  split
  · rfl
  · split <;> rfl

theorem dropSharedSecrets_id (environment : Environment) :
    (dropSharedSecrets environment).id = environment.id := by
  rw [dropSharedSecrets]
  split <;> rfl

theorem inheritPrivate_iterate_ids (turns : ℕ) (environments : List Environment) :
    ((updateEach inheritPrivate)^[turns] environments).map Environment.id =
      environments.map Environment.id := by
  induction turns generalizing environments with
  | zero => rfl
  | succ turns ih => rw [Function.iterate_succ_apply, ih, updateEach_ids inheritPrivate_id]

theorem normalizeEnvironments_ids {environments fallback : List Environment}
    (few : fallback.length ≤ 500) :
    (normalizeEnvironments normalize environments fallback).map Environment.id =
      ((if environments = [] then fallback else environments).map Environment.id).take 500 := by
  rw [normalizeEnvironments]
  split
  case isTrue => rw [List.take_of_length_le (by simpa using few)]
  case isFalse =>
      have dropped : Environment.id ∘ dropSharedSecrets = Environment.id :=
        funext dropSharedSecrets_id
      simp only [List.map_map, dropped]
      rw [inheritPrivate_iterate_ids, updateEach_ids clearCycle_id, List.map_take]
      simp [Function.comp_def, clearMissingParent, normalizeEnvironment]

/-- How many files of a kind are read. -/
def fileLimit : ProjectWorkspaceScope → Option ℕ
  | .environment => some 500
  | .mcp => some 100
  | .collection | .design | .mockServer => none

/-- The first files of a kind, as many as are read. -/
def readIds (scope : ProjectWorkspaceScope) (ids : List String) : List String :=
  match fileLimit scope with
  | none => ids
  | some limit => ids.take limit

theorem mem_of_mem_readIds {scope : ProjectWorkspaceScope} {ids : List String} {id : String}
    (mem : id ∈ readIds scope ids) : id ∈ ids := by
  unfold readIds at mem
  split at mem
  · exact mem
  · exact List.mem_of_mem_take mem

theorem migrateWorkspace_environmentIds :
    (migrateWorkspace normalize workspace).environments.map Environment.id =
      ((if workspace.environments = [] then
          if supportsEmptyProjects workspace then [] else normalize.seed.environments
        else workspace.environments).map Environment.id).take 500 := by
  refine normalizeEnvironments_ids ?_
  split
  · exact Nat.zero_le _
  · exact normalize.seedEnvironments

theorem migrateWorkspace_fileIds (current : supportsEmptyProjects workspace)
    (scope : ProjectWorkspaceScope) :
    (migrateWorkspace normalize workspace).fileIds scope =
      readIds scope (workspace.fileIds scope) := by
  cases scope with
  | collection =>
      simp [migrateWorkspace, Workspace.fileIds, readIds, fileLimit, current, withContents,
        Function.comp_def]
  | design =>
      simp [migrateWorkspace, Workspace.fileIds, readIds, fileLimit, normalizeDesign,
        Function.comp_def]
  | mockServer => rfl
  | environment =>
      have listed : (if workspace.environments = [] then [] else workspace.environments) =
          workspace.environments := by
        split <;> simp_all
      simp only [Workspace.fileIds, readIds, fileLimit, migrateWorkspace_environmentIds,
        if_pos current, listed]
  | mcp =>
      simp [migrateWorkspace, Workspace.fileIds, readIds, fileLimit, normalizeMcpClients,
        Function.comp_def]

theorem readIds_migrateWorkspace (scope : ProjectWorkspaceScope) :
    readIds scope ((migrateWorkspace normalize workspace).fileIds scope) =
      (migrateWorkspace normalize workspace).fileIds scope := by
  cases scope with
  | collection | design | mockServer => rfl
  | environment =>
      apply List.take_of_length_le
      rw [Workspace.fileIds, migrateWorkspace_environmentIds]
      exact List.length_take_le _ _
  | mcp =>
      apply List.take_of_length_le
      simp [Workspace.fileIds, migrateWorkspace, normalizeMcpClients]

end Ids

end Brunomnia.Projects
