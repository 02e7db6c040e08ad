import Brunomnia.Collaboration.Workspace
import Brunomnia.Projects.Records

/-!
# Sharing a project

What leaves the device: the workspace that is synchronized, and the snapshots of single
resources. Private environments, secret rows and the runtime values of OAuth 2 stay behind.
-/

namespace Brunomnia.Projects

open Collaboration (CollaborationResource CollaborationResourceKind missingResource resourceKey)
open Library

/-! ## Public environments -/

/-- Walks up the parents, at most so many, until one is private or was visited before. -/
def isEffectivelyPrivate (environments : List Environment) :
    ℕ → List String → Environment → Bool
  | 0, _, _ => false
  | space + 1, visited, current =>
      if current.id ∈ visited then false
      else if current.isPrivate then true
      else
        match current.parent?.bind (environmentById environments) with
        | none => false
        | some parent => isEffectivelyPrivate environments space (current.id :: visited) parent

def isPublic (environments : List Environment) (environment : Environment) : Bool :=
  !isEffectivelyPrivate environments 500 [] environment

def publicEnvironments (environments : List Environment) : List Environment :=
  environments.filter (isPublic environments)

/-! ## Credentials -/

/-- An authentication without its runtime fields. -/
def AuthConfig.withoutRuntime (auth : AuthConfig) : AuthConfig :=
  { auth with
    code := ""
    codeVerifier := ""
    accessToken := ""
    identityToken := ""
    refreshToken := ""
    expiresAt := 0 }

def clearRuntimeFields (auth : AuthConfig) : AuthConfig :=
  if auth.type = .oauth2 then auth.withoutRuntime else auth

def ApiRequest.withAuth (change : AuthConfig → AuthConfig) (request : ApiRequest) : ApiRequest :=
  { request with auth := change request.auth }

def RequestFolder.withAuth (change : AuthConfig → AuthConfig) (folder : RequestFolder) :
    RequestFolder :=
  { folder with auth := folder.auth.map change }

def withoutCollectionTokens (collection : Collection) : Collection :=
  { collection with
    requests := collection.requests.map (ApiRequest.withAuth clearRuntimeFields)
    folders := some (collection.folderList.map (RequestFolder.withAuth clearRuntimeFields)) }

def withoutMcpTokens (client : McpClient) : McpClient :=
  { client with
    token := if client.authType = .oauth2 then "" else client.token
    oauthRefreshToken := ""
    oauthIdentityToken := ""
    oauthExpiresAt := 0
    oauthRegisteredClientId := ""
    oauthRegisteredClientSecret := ""
    oauthRegisteredClientIdIssuedAt := 0
    oauthRegisteredClientSecretExpiresAt := 0
    oauthRegisteredTokenEndpointAuthMethod := "none" }

def withoutOAuth2RuntimeCredentials (workspace : Workspace) : Workspace :=
  { workspace with
    collections := workspace.collections.map withoutCollectionTokens
    mcpClients := workspace.mcpClients.map withoutMcpTokens }

/-! ## Sub-environments -/

def isSecret (row : KeyValue) : Bool :=
  row.valueType = some .secret

def CollectionEnvironment.withoutSecrets (environment : CollectionEnvironment) :
    CollectionEnvironment :=
  { environment with rows := environment.rows.filter fun row => !isSecret row }

def sharedSubEnvironments (environments : List CollectionEnvironment) :
    List CollectionEnvironment :=
  (environments.filter fun environment => !environment.isPrivate).map
    CollectionEnvironment.withoutSecrets

def collectionWithoutPrivateEnvironments (collection : Collection) : Collection :=
  let subEnvironments := sharedSubEnvironments collection.subEnvironmentList
  { collection with
    subEnvironments := some subEnvironments
    activeSubEnvironmentId :=
      if ∃ environment ∈ subEnvironments,
          some environment.id = collection.activeSubEnvironmentId then
        collection.activeSubEnvironmentId
      else some "" }

/-! ## The shared workspace -/

/-- `shareableWorkspace`, with the preferences of a new workspace. -/
def shareableWorkspace (defaultPreferences : Json) (workspace : Workspace) : Workspace :=
  let environments := publicEnvironments workspace.environments
  withoutOAuth2RuntimeCredentials
    { workspace with
      collections := workspace.collections.map collectionWithoutPrivateEnvironments
      environments
      activeEnvironmentId :=
        if ∃ environment ∈ environments, environment.id = workspace.activeEnvironmentId then
          workspace.activeEnvironmentId
        else (environments.head?.map Environment.id).getD ""
      history := []
      runnerReports := []
      unitTestResults := []
      imports := []
      cookies := []
      fileState := Record.empty
      responses := []
      streamSessions := []
      mcpSessions := []
      certificates := emptyWorkspaceCertificates
      project := .obj [("mode", .str "local"), ("path", .str ""), ("remoteUrl", .str ""),
        ("remoteName", .str "origin"), ("authorName", .str ""), ("authorEmail", .str ""),
        ("autoSave", .bool true), ("gitCredentialId", .str "")]
      plugins := []
      pluginData := Record.empty
      activePluginTheme := ""
      ai := { workspace.ai with enabled := false, apiKey := "" }
      konnect :=
        { workspace.konnect with
          enabled := false
          token := ""
          controlPlanes := []
          controlPlaneId := ""
          managedByWorkspaceId := none
          managedControlPlaneId := none
          managedRegion := none
          managedClusterType := none
          managedDeploymentType := none }
      preferences := defaultPreferences
      collaboration :=
        { workspace.collaboration with
          path := ""
          stagedResourceKeys := []
          repository := .obj [("version", .num 1), ("activeBranches", .obj []),
            ("branches", .arr []), ("commits", .arr [])] } }

/-! ## Snapshots of resources -/

def clearOAuthRuntime (auth : AuthConfig) : AuthConfig :=
  clearRuntimeFields auth

/-- `collection` of `shareableCollection`. -/
def sanitizedCollection (collection : Collection) : Collection :=
  let sanitized := collectionWithoutPrivateEnvironments collection
  { sanitized with
    requests := sanitized.requests.map (ApiRequest.withAuth clearOAuthRuntime)
    folders := some (sanitized.folderList.map (RequestFolder.withAuth clearOAuthRuntime)) }

def shareableMcpClient (client : McpClient) : McpClient :=
  withoutMcpTokens client

/-- What a snapshot carries. -/
inductive Snapshot where
  | collection (collection : Collection) (testSuites : List UnitTestSuite)
  | environments (environments : List Environment)
  | apiDesign (apiDesign : Option ApiDesign)
  | mockServer (mockServer : Option MockServer)
  | mcpClient (mcpClient : Option McpClient)
  deriving DecidableEq

def shareableCollection (workspace : Workspace) (id : String) : Except String Snapshot :=
  match workspace.collections.find? fun candidate => candidate.id = id with
  | none => .error (missingResource (resourceKey .collection id))
  | some collection =>
      .ok (.collection (sanitizedCollection collection)
        (workspace.testSuites.filter fun suite => suite.collectionId = id))

/-- The ids at and below an environment, found in passes until one changes nothing. -/
def environmentBranchIds (environments : List Environment) (id : String) : List String :=
  closurePasses Environment.id Environment.parent? environments environments.length [id]

def environmentBranch (workspace : Workspace) (id : String) : Except String Snapshot :=
  let environments := publicEnvironments workspace.environments
  let branch := environments.filter fun environment =>
    decide (environment.id ∈ environmentBranchIds environments id)
  if ∃ environment ∈ branch, environment.id = id then .ok (.environments branch)
  else .error (missingResource (resourceKey .environment id))

def collaborationResources (workspace : Workspace) : List CollaborationResource :=
  let environments := publicEnvironments workspace.environments
  let resource := fun kind id name =>
    ({ key := resourceKey kind id, kind, id, name } : CollaborationResource)
  workspace.collections.map (fun collection =>
      resource .collection collection.id collection.name) ++
    (environments.filter fun environment =>
        !(environment.parent?.any fun parentId => parentId ∈ environments.map Environment.id)).map
      (fun environment => resource .environment environment.id environment.name) ++
    workspace.apiDesigns.map (fun design => resource .apiDesign design.id design.name) ++
    workspace.mockServers.map (fun server => resource .mockServer server.id server.name) ++
    workspace.mcpClients.map (fun client => resource .mcpClient client.id client.name)

def collaborationResourceSnapshot (workspace : Workspace) (key : String) :
    Except String Snapshot :=
  match (collaborationResources workspace).find? fun candidate => candidate.key = key with
  | none => .error (missingResource key)
  | some resource =>
      match resource.kind with
      | .collection => shareableCollection workspace resource.id
      | .environment => environmentBranch workspace resource.id
      | .apiDesign => .ok (.apiDesign
          (workspace.apiDesigns.find? fun candidate => candidate.id = resource.id))
      | .mockServer => .ok (.mockServer
          (workspace.mockServers.find? fun candidate => candidate.id = resource.id))
      | .mcpClient => .ok (.mcpClient
          ((workspace.mcpClients.find? fun candidate => candidate.id = resource.id).map
            shareableMcpClient))

end Brunomnia.Projects
