import Brunomnia.Resources.Hierarchy

/-!
# Records of a project

A project is a workspace of records: collections with their requests and folders, designs,
mock servers, environments, MCP clients, and the evidence that requests leave behind. The
operations on whole projects read the links between the records and carry the rest along as
`content`.
-/

namespace Brunomnia.Projects

/-- A record with string keys. -/
abbrev Record (Value : Type) := String → Option Value

def Record.empty {Value : Type} : Record Value := fun _ => none

/-- `{ ...record, ...source }`. -/
def Record.spread {Value : Type} (record source : Record Value) : Record Value :=
  fun key => (source key).or (record key)

/-- `record[key] = value`, which sets no key called `__proto__`. -/
def Record.set {Value : Type} (record : Record Value) (key : String) (value : Value) :
    Record Value :=
  fun other => if other = key ∧ key ≠ "__proto__" then some value else record other

/-- `delete record[key]`. -/
def Record.delete {Value : Type} (record : Record Value) (key : String) : Record Value :=
  fun other => if other = key then none else record other

/-! ## Collections -/

inductive ValueType where
  | string
  | json
  | secret
  deriving DecidableEq

structure KeyValue where
  id : String
  valueType : Option ValueType
  content : Json
  deriving DecidableEq

structure MultipartPart where
  id : String
  content : Json
  deriving DecidableEq

inductive AuthType where
  | none
  | bearer
  | basic
  | apiKey
  | digest
  | oauth1
  | oauth2
  | ntlm
  | iam
  | hawk
  | asap
  | netrc
  deriving DecidableEq

structure AuthConfig where
  type : AuthType
  code : String
  codeVerifier : String
  accessToken : String
  identityToken : String
  refreshToken : String
  expiresAt : ℤ
  content : Json
  deriving DecidableEq

structure GrpcConfig where
  metadata : List KeyValue
  content : Json
  deriving DecidableEq

structure ApiRequest where
  id : String
  folderId : Option String
  pathParams : List KeyValue
  params : List KeyValue
  headers : List KeyValue
  formBody : List KeyValue
  multipartBody : List MultipartPart
  grpc : GrpcConfig
  auth : AuthConfig
  content : Json
  deriving DecidableEq

structure RequestFolder where
  id : String
  parentId : String
  headers : List KeyValue
  environment : List KeyValue
  auth : Option AuthConfig
  content : Json
  deriving DecidableEq

structure CollectionEnvironment where
  id : String
  rows : List KeyValue
  isPrivate : Bool
  content : Json
  deriving DecidableEq

structure Collection where
  id : String
  name : String
  requests : List ApiRequest
  folders : Option (List RequestFolder)
  resourceOrder : Option (List String)
  environment : Option (List KeyValue)
  subEnvironments : Option (List CollectionEnvironment)
  activeSubEnvironmentId : Option String
  content : Json
  deriving DecidableEq

namespace Collection

variable (collection : Collection)

/-- `collection.folders ?? []`. -/
def folderList : List RequestFolder :=
  collection.folders.getD []

/-- `collection.subEnvironments ?? []`. -/
def subEnvironmentList : List CollectionEnvironment :=
  collection.subEnvironments.getD []

/-- The hierarchy of requests and folders. -/
def hierarchy : Resources.Collection where
  id := collection.id
  expanded := true
  requests := collection.requests.map fun request => ⟨request.id, request.folderId, .null⟩
  folders := some (collection.folderList.map fun folder =>
    ⟨folder.id, folder.parentId, true, .null⟩)
  resourceOrder := collection.resourceOrder
  content := .null

end Collection

/-! ## Other project files -/

structure Environment where
  id : String
  name : String
  rows : List KeyValue
  parentId : Option String
  isPrivate : Bool
  content : Json
  deriving DecidableEq

/-- `environment.parentId`, when it is not empty. -/
def Environment.parent? (environment : Environment) : Option String :=
  environment.parentId.filter fun parentId => parentId ≠ ""

/-- The entry that a `Map` of environments keeps for an id. -/
def environmentById (environments : List Environment) (id : String) : Option Environment :=
  Resources.lastWithId Environment.id environments id

structure ApiDesign where
  id : String
  name : String
  generatedCollectionId : Option String
  content : Json
  deriving DecidableEq

structure MockRoute where
  id : String
  headers : List KeyValue
  content : Json
  deriving DecidableEq

structure MockServer where
  id : String
  name : String
  routes : List MockRoute
  content : Json
  deriving DecidableEq

inductive McpAuthType where
  | none
  | bearer
  | basic
  | oauth2
  deriving DecidableEq

structure McpClient where
  id : String
  name : String
  env : List KeyValue
  headers : List KeyValue
  authType : McpAuthType
  token : String
  oauthRefreshToken : String
  oauthIdentityToken : String
  oauthExpiresAt : ℤ
  oauthTokenPrefix : String
  oauthRegisteredClientId : String
  oauthRegisteredClientSecret : String
  oauthRegisteredClientIdIssuedAt : ℤ
  oauthRegisteredClientSecretExpiresAt : ℤ
  oauthRegisteredTokenEndpointAuthMethod : String
  content : Json
  deriving DecidableEq

/-! ## Suites and evidence -/

structure UnitTest where
  id : String
  requestId : Option String
  content : Json
  deriving DecidableEq

structure UnitTestSuite where
  id : String
  collectionId : String
  tests : List UnitTest
  content : Json
  deriving DecidableEq

structure UnitTestRunResult where
  id : String
  suiteId : String
  content : Json
  deriving DecidableEq

structure RunnerItemResult where
  id : String
  content : Json
  deriving DecidableEq

structure RunnerReport where
  id : String
  collectionId : String
  results : List RunnerItemResult
  content : Json
  deriving DecidableEq

structure HistoryEntry where
  id : String
  requestId : String
  createdAt : String
  content : Json
  deriving DecidableEq

structure StoredResponse where
  id : String
  requestId : String
  content : Json
  deriving DecidableEq

structure StoredStreamSession where
  id : String
  requestId : String
  content : Json
  deriving DecidableEq

structure McpHistorySession where
  id : String
  clientId : String
  content : Json
  deriving DecidableEq

structure CookieRecord where
  id : String
  content : Json
  deriving DecidableEq

structure WorkspaceFileState where
  cookies : List CookieRecord
  certificates : Json
  deriving DecidableEq

structure ImportRecord where
  id : String
  content : Json
  deriving DecidableEq

/-! ## Workspaces -/

structure AiSettings where
  enabled : Bool
  apiKey : String
  content : Json
  deriving DecidableEq

structure KonnectConfig where
  enabled : Bool
  token : String
  controlPlaneId : String
  controlPlanes : List Json
  managedByWorkspaceId : Option String
  managedControlPlaneId : Option String
  managedRegion : Option String
  managedClusterType : Option String
  managedDeploymentType : Option String
  content : Json
  deriving DecidableEq

structure CollaborationConfig where
  path : String
  stagedResourceKeys : List String
  repository : Json
  content : Json
  deriving DecidableEq

structure Workspace where
  version : ℕ
  name : String
  activeRequestId : String
  activeEnvironmentId : String
  collections : List Collection
  environments : List Environment
  history : List HistoryEntry
  apiDesigns : List ApiDesign
  mockServers : List MockServer
  testSuites : List UnitTestSuite
  unitTestResults : List UnitTestRunResult
  runnerReports : List RunnerReport
  imports : List ImportRecord
  cookies : List CookieRecord
  fileState : Record WorkspaceFileState
  responses : List StoredResponse
  streamSessions : List StoredStreamSession
  mcpSessions : List McpHistorySession
  responseFilters : Option (Record Json)
  certificates : Json
  project : Json
  plugins : List Json
  pluginData : Record Json
  activePluginTheme : String
  collaboration : CollaborationConfig
  governance : Json
  mcpClients : List McpClient
  ai : AiSettings
  konnect : KonnectConfig
  preferences : Json

/-- `emptyWorkspaceCertificates()`. -/
def emptyWorkspaceCertificates : Json :=
  .obj [("ca", .obj [("enabled", .bool false), ("pem", .str "")]), ("clients", .arr [])]

def emptyWorkspaceFileState : WorkspaceFileState :=
  ⟨[], emptyWorkspaceCertificates⟩

/-- A workspace that lists nothing. -/
def blankWorkspace (name : String) : Workspace where
  version := 52
  name := name
  activeRequestId := ""
  activeEnvironmentId := ""
  collections := []
  environments := []
  history := []
  apiDesigns := []
  mockServers := []
  testSuites := []
  unitTestResults := []
  runnerReports := []
  imports := []
  cookies := []
  fileState := Record.empty
  responses := []
  streamSessions := []
  mcpSessions := []
  responseFilters := some Record.empty
  certificates := emptyWorkspaceCertificates
  project := .null
  plugins := []
  pluginData := Record.empty
  activePluginTheme := ""
  collaboration := ⟨"", [], .null, .null⟩
  governance := .null
  mcpClients := []
  ai := ⟨false, "", .null⟩
  konnect := ⟨false, "", "", [], none, none, none, none, none, .null⟩
  preferences := .null

end Brunomnia.Projects
