import Brunomnia.Json
import Brunomnia.Library.Closure

/-!
# Shared resources of a workspace

A workspace holds its resources as JSON objects. Collaboration shares whole
resources: a collection with its test suites, a branch of public environments,
an API design, a mock server, or an MCP client. This file models how resources
are listed and what a snapshot of one carries; private sub-environments and the
runtime values of OAuth 2 never leave the workspace.
-/

namespace Brunomnia.Collaboration

open Brunomnia.Library

structure Workspace where
  collections : List Json
  environments : List Json
  apiDesigns : List Json
  mockServers : List Json
  mcpClients : List Json
  testSuites : List Json
  content : Json
  deriving DecidableEq

inductive CollaborationResourceKind where
  | collection
  | environment
  | apiDesign
  | mockServer
  | mcpClient
  deriving DecidableEq

/-- The text of a kind in a resource key. -/
def CollaborationResourceKind.text : CollaborationResourceKind → String
  | .collection => "collection"
  | .environment => "environment"
  | .apiDesign => "api-design"
  | .mockServer => "mock-server"
  | .mcpClient => "mcp-client"

structure CollaborationResource where
  key : String
  kind : CollaborationResourceKind
  id : String
  name : String
  deriving DecidableEq

def resourceKey (kind : CollaborationResourceKind) (id : String) : String :=
  kind.text ++ ":" ++ id

/-- The resource of an object in one of the lists. -/
def collaborationResource (kind : CollaborationResourceKind) (value : Json) :
    CollaborationResource :=
  { key := resourceKey kind value.id, kind, id := value.id, name := value.text "name" }

/-! ## Environments -/

/-- The entry a JavaScript `Map` keeps for an id: the last one inserted. -/
def lastWithId (values : List Json) (id : String) : Option Json :=
  values.reverse.find? fun value => value.id = id

/-- `environment.parentId`, when it is not empty. -/
def environmentParent (environment : Json) : Option String :=
  if environment.text "parentId" = "" then none else some (environment.text "parentId")

/-- Walk up the parents of an environment, at most as many as the fuel, until one is
private or was visited before. -/
def isEffectivelyPrivate (environments : List Json) : ℕ → List String → Json → Bool
  | 0, _, _ => false
  | fuel + 1, visited, current =>
      if current.id ∈ visited then false
      else if current.flag "private" then true
      else
        match (environmentParent current).bind (lastWithId environments) with
        | some parent => isEffectivelyPrivate environments fuel (current.id :: visited) parent
        | none => false

def isPublic (environments : List Json) (environment : Json) : Bool :=
  !isEffectivelyPrivate environments 500 [] environment

def publicEnvironments (environments : List Json) : List Json :=
  environments.filter (isPublic environments)

/-- The ids selected by adding children of selected environments until nothing changes. -/
def environmentBranchIds (environments : List Json) (id : String) : List String :=
  closurePasses Json.id environmentParent environments environments.length [id]

def missingResource (key : String) : String :=
  "Collaboration resource '" ++ key ++ "' no longer exists."

/-- The public environments at and below an environment. -/
def publicBranch (environments : List Json) (id : String) : List Json :=
  (publicEnvironments environments).filter fun environment =>
    decide (environment.id ∈ environmentBranchIds (publicEnvironments environments) id)

def environmentBranch (workspace : Workspace) (id : String) : Except String (List Json) :=
  let branch := publicBranch workspace.environments id
  if ∃ environment ∈ branch, environment.id = id then .ok branch
  else .error (missingResource (resourceKey .environment id))

/-- An environment at the top of a shared branch. -/
def isBranchRoot (environments : List Json) (environment : Json) : Bool :=
  match environmentParent environment with
  | none => true
  | some parent => decide (parent ∉ environments.map Json.id)

/-! ## Sanitized resources -/

/-- The runtime fields of an OAuth 2 configuration with their cleared values. -/
def clearedAuthFields : List (String × Json) :=
  [("code", .str ""), ("codeVerifier", .str ""), ("accessToken", .str ""),
    ("identityToken", .str ""), ("refreshToken", .str ""), ("expiresAt", .num 0)]

def clearOAuthRuntime (auth : Json) : Json :=
  if auth.text "type" = "oauth2" then auth.spread clearedAuthFields else auth

/-- The sub-environments of a collection that are not private, without secret variables. -/
def sharedSubEnvironments (collection : Json) : List Json :=
  ((collection.list "subEnvironments").filter fun environment =>
    !environment.flag "private").map fun environment =>
      environment.spread [("variables", .arr ((environment.list "variables").filter fun row =>
        row.text "valueType" ≠ "secret"))]

def collectionWithoutPrivateEnvironments (collection : Json) : Json :=
  let subEnvironments := sharedSubEnvironments collection
  let activeId := collection.text "activeSubEnvironmentId"
  collection.spread
    [("subEnvironments", .arr subEnvironments),
      ("activeSubEnvironmentId",
        .str (if ∃ environment ∈ subEnvironments, environment.id = activeId then activeId else ""))]

/-- `{ ...request, auth: change(request.auth) }`. -/
def withRequestAuth (change : Json → Json) (request : Json) : Json :=
  request.spread (((request.get? "auth").map fun auth => ("auth", change auth)).toList)

/-- `{ ...folder, auth: folder.auth ? change(folder.auth) : undefined }`. -/
def withFolderAuth (change : Json → Json) (folder : Json) : Json :=
  match (folder.get? "auth").filter Json.truthy with
  | some auth => folder.spread [("auth", change auth)]
  | none => folder.without "auth"

/-- Rewrite the authentication of every request and folder of a collection. -/
def withCollectionAuth (changeRequest changeFolder : Json → Json → Json) (collection : Json) :
    Json :=
  collection.spread
    [("requests", .arr ((collection.list "requests").map fun request =>
        withRequestAuth (changeRequest request) request)),
      ("folders", .arr ((collection.list "folders").map fun folder =>
        withFolderAuth (changeFolder folder) folder))]

def shareableCollection (workspace : Workspace) (id : String) : Except String Json :=
  match workspace.collections.find? fun candidate => candidate.id = id with
  | none => .error (missingResource (resourceKey .collection id))
  | some collection =>
      .ok (.obj [
        ("collection", withCollectionAuth (fun _ => clearOAuthRuntime) (fun _ => clearOAuthRuntime)
          (collectionWithoutPrivateEnvironments collection)),
        ("testSuites", .arr (workspace.testSuites.filter fun suite =>
          suite.text "collectionId" = id))])

/-- The runtime fields of an MCP client with their cleared values. The token stays
what it is unless it comes from OAuth 2. -/
def clearedMcpFields (client : Json) : List (String × Json) :=
  (if client.text "authType" = "oauth2" then [("token", .str "")] else []) ++
    [("oauthRefreshToken", .str ""), ("oauthIdentityToken", .str ""), ("oauthExpiresAt", .num 0),
      ("oauthRegisteredClientId", .str ""), ("oauthRegisteredClientSecret", .str ""),
      ("oauthRegisteredClientIdIssuedAt", .num 0),
      ("oauthRegisteredClientSecretExpiresAt", .num 0),
      ("oauthRegisteredTokenEndpointAuthMethod", .str "none")]

def shareableMcpClient (client : Json) : Json :=
  client.spread (clearedMcpFields client)

/-! ## Resources -/

def collaborationResources (workspace : Workspace) : List CollaborationResource :=
  let environments := publicEnvironments workspace.environments
  workspace.collections.map (collaborationResource .collection) ++
    (environments.filter (isBranchRoot environments)).map (collaborationResource .environment) ++
    workspace.apiDesigns.map (collaborationResource .apiDesign) ++
    workspace.mockServers.map (collaborationResource .mockServer) ++
    workspace.mcpClients.map (collaborationResource .mcpClient)

/-- `{ field: values.find(…) }`, without the member when there is no such value. -/
def objectOf (field : String) (value : Option Json) : Json :=
  .obj (value.map fun found => (field, found)).toList

def snapshotOf (workspace : Workspace) (kind : CollaborationResourceKind) (id : String) :
    Except String Json :=
  match kind with
  | .collection => shareableCollection workspace id
  | .environment =>
      (environmentBranch workspace id).map fun branch => .obj [("environments", .arr branch)]
  | .apiDesign => .ok (objectOf "apiDesign"
      (workspace.apiDesigns.find? fun candidate => candidate.id = id))
  | .mockServer => .ok (objectOf "mockServer"
      (workspace.mockServers.find? fun candidate => candidate.id = id))
  | .mcpClient => .ok (objectOf "mcpClient"
      ((workspace.mcpClients.find? fun candidate => candidate.id = id).map shareableMcpClient))

def collaborationResourceSnapshot (workspace : Workspace) (key : String) : Except String Json :=
  match (collaborationResources workspace).find? fun candidate => candidate.key = key with
  | none => .error (missingResource key)
  | some resource => snapshotOf workspace resource.kind resource.id

end Brunomnia.Collaboration
