import Brunomnia.Library.OrderedMaps
import Brunomnia.Projects.Sharing

/-!
# Publishing a project and reading it back

A project goes out to a folder or to an encrypted file without the data of the device, and what
comes in is merged with the data that the device holds. The storage returns what it was given,
and a workspace that is read was migrated before, so that migrating it again changes nothing.
-/

namespace Brunomnia.Projects

open Library

/-! ## Writing a project folder -/

def emptyRepository : Json :=
  .obj [("version", .num 1), ("activeBranches", .obj []), ("branches", .arr []),
    ("commits", .arr [])]

/-- `projectWorkspace` of `writeProject`. -/
def projectWorkspace (workspace : Workspace) : Workspace :=
  let environments := publicEnvironments workspace.environments
  withoutOAuth2RuntimeCredentials
    { workspace with
      collections := workspace.collections.map collectionWithoutPrivateEnvironments
      cookies := []
      fileState := Record.empty
      certificates := emptyWorkspaceCertificates
      environments
      activeEnvironmentId :=
        if ∃ environment ∈ environments, environment.id = workspace.activeEnvironmentId then
          workspace.activeEnvironmentId
        else (environments.head?.map Environment.id).getD ""
      collaboration :=
        { path := ""
          stagedResourceKeys := []
          repository := emptyRepository
          content :=
            ((workspace.collaboration.content.spread [("mode", .str "off"),
              ("revision", .num 0), ("autoSync", .bool false)]).without "lastPulledAt").without
                "lastPushedAt" } }

/-! ## Private environments -/

def privateEnvironments (environments : List Environment) : List Environment :=
  environments.filter fun environment =>
    environment.id ∉ (publicEnvironments environments).map Environment.id

/-- The public environments that come in, but for those with the id of a private one. -/
def incomingEnvironments (current incoming : List Environment) : List Environment :=
  (publicEnvironments incoming).filter fun environment =>
    environment.id ∉ (privateEnvironments current).map Environment.id

def privateSubEnvironments (collection : Collection) : List CollectionEnvironment :=
  collection.subEnvironmentList.filter CollectionEnvironment.isPrivate

def mergePrivateCollectionEnvironments (current shared : List Collection) : List Collection :=
  shared.map fun collection =>
    match current.find? fun candidate => candidate.id = collection.id with
    | none => collectionWithoutPrivateEnvironments collection
    | some found =>
        let privateEnvironments := privateSubEnvironments found
        let privateIds := privateEnvironments.map CollectionEnvironment.id
        let sharedEnvironments := collection.subEnvironmentList.filter fun environment =>
          !environment.isPrivate && environment.id ∉ privateIds
        { collection with
          subEnvironments := some (sharedEnvironments ++ privateEnvironments)
          activeSubEnvironmentId :=
            if found.activeSubEnvironmentId.getD "" ∈ privateIds then
              found.activeSubEnvironmentId
            else if ∃ environment ∈ sharedEnvironments,
                some environment.id = collection.activeSubEnvironmentId then
              collection.activeSubEnvironmentId
            else some "" }

/-! ## Credentials -/

/-- `{ ...auth, ...runtimeFields(source) }`. -/
def AuthConfig.withRuntimeFields (auth source : AuthConfig) : AuthConfig :=
  { auth with
    code := source.code
    codeVerifier := source.codeVerifier
    accessToken := source.accessToken
    identityToken := source.identityToken
    refreshToken := source.refreshToken
    expiresAt := source.expiresAt }

/-- `{ ...client, ...mcpRuntimeFields(source) }`. -/
def McpClient.withRuntimeFields (client source : McpClient) : McpClient :=
  { client with
    token := source.token
    oauthRefreshToken := source.oauthRefreshToken
    oauthIdentityToken := source.oauthIdentityToken
    oauthExpiresAt := source.oauthExpiresAt
    oauthTokenPrefix := source.oauthTokenPrefix
    oauthRegisteredClientId := source.oauthRegisteredClientId
    oauthRegisteredClientSecret := source.oauthRegisteredClientSecret
    oauthRegisteredClientIdIssuedAt := source.oauthRegisteredClientIdIssuedAt
    oauthRegisteredClientSecretExpiresAt := source.oauthRegisteredClientSecretExpiresAt
    oauthRegisteredTokenEndpointAuthMethod := source.oauthRegisteredTokenEndpointAuthMethod }

def requestAuthKey (collection : Collection) (request : ApiRequest) : String :=
  s!"{collection.id}:request:{request.id}"

def folderAuthKey (collection : Collection) (folder : RequestFolder) : String :=
  s!"{collection.id}:folder:{folder.id}"

/-- What `localAuth` is filled with, in order. -/
def localAuth (workspace : Workspace) : List (String × AuthConfig) :=
  workspace.collections.flatMap fun collection =>
    collection.requests.map (fun request => (requestAuthKey collection request, request.auth)) ++
      collection.folderList.filterMap fun folder =>
        folder.auth.map fun auth => (folderAuthKey collection folder, auth)

def mergeAuth (workspace : Workspace) (key : String) (auth : AuthConfig) : AuthConfig :=
  match lastValue (localAuth workspace) key with
  | none => auth
  | some localValue =>
      if auth.type = .oauth2 ∧ localValue.type = .oauth2 then auth.withRuntimeFields localValue
      else auth

def mergeCollectionAuth (workspace : Workspace) (collection : Collection) : Collection :=
  { collection with
    requests := collection.requests.map fun request =>
      request.withAuth (mergeAuth workspace (requestAuthKey collection request))
    folders := some (collection.folderList.map fun folder =>
      folder.withAuth (mergeAuth workspace (folderAuthKey collection folder))) }

def mergeMcpClient (clients : List McpClient) (client : McpClient) : McpClient :=
  match Resources.lastWithId McpClient.id clients client.id with
  | none => client
  | some localValue =>
      if client.authType = .oauth2 ∧ localValue.authType = .oauth2 then
        client.withRuntimeFields localValue
      else client

def mergeLocalOAuth2RuntimeCredentials (current incoming : Workspace) : Workspace :=
  let sanitizedIncoming := withoutOAuth2RuntimeCredentials incoming
  { sanitizedIncoming with
    mcpClients := sanitizedIncoming.mcpClients.map (mergeMcpClient current.mcpClients)
    collections := sanitizedIncoming.collections.map (mergeCollectionAuth current) }

/-! ## Reading a project folder -/

/-- `readProject`, from the project that the folder holds. -/
def readProject (path : String) (project current : Workspace) : Workspace :=
  let privateEnvironments := privateEnvironments current.environments
  let merged : Workspace :=
    { project with
      version := 52
      history := current.history
      runnerReports := current.runnerReports
      unitTestResults := current.unitTestResults
      imports := current.imports
      cookies := []
      fileState := current.fileState
      responses := current.responses
      streamSessions := current.streamSessions
      mcpSessions := current.mcpSessions
      certificates := emptyWorkspaceCertificates
      plugins := current.plugins
      pluginData := current.pluginData
      activePluginTheme := current.activePluginTheme
      collaboration := current.collaboration
      environments :=
        incomingEnvironments current.environments project.environments ++ privateEnvironments
      activeEnvironmentId :=
        if ∃ environment ∈ privateEnvironments,
            environment.id = current.activeEnvironmentId then
          current.activeEnvironmentId
        else project.activeEnvironmentId
      project := current.project.spread
        [("mode", .str (if current.project.text "mode" = "git" then "git" else "folder")),
          ("path", .str path)] }
  mergeLocalOAuth2RuntimeCredentials current
    { merged with
      collections := mergePrivateCollectionEnvironments current.collections merged.collections }

/-! ## Pulling a revision -/

structure SyncPayload where
  revision : ℤ
  workspace : Workspace
  repository : Json

/-- `mergeSyncedWorkspace`, at the time of the pull. -/
def mergeSyncedWorkspace (now : String) (current : Workspace) (payload : SyncPayload) :
    Workspace :=
  let shared := payload.workspace
  let privateEnvironments := privateEnvironments current.environments
  let sharedEnvironments := incomingEnvironments current.environments shared.environments
  mergeLocalOAuth2RuntimeCredentials current
    { shared with
      collections := mergePrivateCollectionEnvironments current.collections shared.collections
      environments := sharedEnvironments ++ privateEnvironments
      activeEnvironmentId :=
        if ∃ environment ∈ privateEnvironments,
            environment.id = current.activeEnvironmentId then
          current.activeEnvironmentId
        else if ∃ environment ∈ sharedEnvironments,
            environment.id = shared.activeEnvironmentId then
          shared.activeEnvironmentId
        else ((sharedEnvironments ++ privateEnvironments).head?.map Environment.id).getD ""
      history := current.history
      runnerReports := current.runnerReports
      unitTestResults := current.unitTestResults
      imports := current.imports
      cookies := []
      fileState := current.fileState
      responses := current.responses
      streamSessions := current.streamSessions
      mcpSessions := current.mcpSessions
      certificates := emptyWorkspaceCertificates
      project := current.project
      plugins := current.plugins
      pluginData := current.pluginData
      activePluginTheme := current.activePluginTheme
      ai := current.ai
      konnect := current.konnect
      preferences := current.preferences
      collaboration :=
        { current.collaboration with
          stagedResourceKeys := []
          repository := payload.repository
          content := current.collaboration.content.spread
            [("mode", .str "encrypted-file"), ("revision", .num payload.revision),
              ("lastPulledAt", .str now)] }
      governance := shared.governance.spread
        [("currentMemberId", .str
          (if ∃ member ∈ shared.governance.list "members",
              member.id = current.governance.text "currentMemberId" then
            current.governance.text "currentMemberId"
          else shared.governance.text "currentMemberId"))] }

def pushedPayload (defaultPreferences : Json) (revision : ℤ) (workspace : Workspace) :
    SyncPayload :=
  ⟨revision, shareableWorkspace defaultPreferences workspace, workspace.collaboration.repository⟩

end Brunomnia.Projects
