import Brunomnia.Collaboration.Workspace

/-!
# Applying a snapshot

Checking out, merging and restoring write a snapshot back into the workspace.
Because snapshots carry no OAuth 2 runtime values, the values the workspace had
are merged back, over all collections and MCP clients. This file models
`applyCollaborationSnapshot` and `mergeLocalOAuth2RuntimeCredentials`.
-/

namespace Brunomnia.Collaboration

open Brunomnia.Library

/-! ## OAuth 2 runtime credentials -/

/-- Pick members of a value that are there, as its type promises. -/
def pick (value : Json) (keys : List String) : List (String × Json) :=
  keys.filterMap fun key => (value.get? key).map fun found => (key, found)

def runtimeFields (auth : Json) : List (String × Json) :=
  pick auth ["code", "codeVerifier", "accessToken", "identityToken", "refreshToken", "expiresAt"]

def mcpRuntimeFields (client : Json) : List (String × Json) :=
  pick client
    ["token", "oauthRefreshToken", "oauthIdentityToken", "oauthExpiresAt", "oauthTokenPrefix",
      "oauthRegisteredClientId", "oauthRegisteredClientSecret", "oauthRegisteredClientIdIssuedAt",
      "oauthRegisteredClientSecretExpiresAt", "oauthRegisteredTokenEndpointAuthMethod"]

def withoutCollectionTokens (collection : Json) : Json :=
  withCollectionAuth (fun _ => clearOAuthRuntime) (fun _ => clearOAuthRuntime) collection

/-- The same fields are cleared here and in a shared client. -/
def withoutMcpTokens (client : Json) : Json :=
  client.spread (clearedMcpFields client)

def withoutOAuth2RuntimeCredentials (workspace : Workspace) : Workspace :=
  { workspace with
    collections := workspace.collections.map withoutCollectionTokens
    mcpClients := workspace.mcpClients.map withoutMcpTokens }

def requestAuthKey (collection request : Json) : String :=
  collection.id ++ ":request:" ++ request.id

def folderAuthKey (collection folder : Json) : String :=
  collection.id ++ ":folder:" ++ folder.id

/-- The entries of `localAuth` in the order in which they are set. -/
def collectionAuthEntries (collection : Json) : List (String × Json) :=
  ((collection.list "requests").filterMap fun request =>
      (request.get? "auth").map fun auth => (requestAuthKey collection request, auth)) ++
    (collection.list "folders").filterMap fun folder =>
      ((folder.get? "auth").filter Json.truthy).map fun auth =>
        (folderAuthKey collection folder, auth)

def localAuth (workspace : Workspace) : List (String × Json) :=
  workspace.collections.flatMap collectionAuthEntries

/-- The value a `Map` keeps for a key: the last one set. -/
def lastValue (entries : List (String × Json)) (key : String) : Option Json :=
  entries.reverse.lookup key

def mergeAuth (entries : List (String × Json)) (key : String) (auth : Json) : Json :=
  match lastValue entries key with
  | some localValue =>
      if auth.text "type" = "oauth2" ∧ localValue.text "type" = "oauth2" then
        auth.spread (runtimeFields localValue)
      else auth
  | none => auth

def mergeClient (clients : List Json) (client : Json) : Json :=
  match lastWithId clients client.id with
  | some localValue =>
      if client.text "authType" = "oauth2" ∧ localValue.text "authType" = "oauth2" then
        client.spread (mcpRuntimeFields localValue)
      else client
  | none => client

def mergeCollectionAuth (entries : List (String × Json)) (collection : Json) : Json :=
  withCollectionAuth (fun request => mergeAuth entries (requestAuthKey collection request))
    (fun folder => mergeAuth entries (folderAuthKey collection folder)) collection

def mergeLocalOAuth2RuntimeCredentials (localWorkspace incoming : Workspace) : Workspace :=
  let sanitizedIncoming := withoutOAuth2RuntimeCredentials incoming
  { sanitizedIncoming with
    mcpClients := sanitizedIncoming.mcpClients.map (mergeClient localWorkspace.mcpClients)
    collections := sanitizedIncoming.collections.map
      (mergeCollectionAuth (localAuth localWorkspace)) }

/-! ## Snapshots -/

/-- The kind and id before and after the first colon of a key. A key without one
loses its last character to `slice(0, -1)`. -/
def splitResourceKey (key : String) : String × String :=
  let letters := key.toList
  if ':' ∈ letters then
    (String.ofList (letters.takeWhile (· ≠ ':')),
      String.ofList ((letters.dropWhile (· ≠ ':')).drop 1))
  else (String.ofList letters.dropLast, key)

def replaceById (values : List Json) (id : String) (value : Json) : List Json :=
  values.map fun candidate => if candidate.id = id then value else candidate

def applyCollectionSnapshot (workspace : Workspace) (id : String) (source : Json) :
    Except String Workspace :=
  match source.get? "collection", source.get? "testSuites" with
  | some (.obj collection), some (.arr testSuites) =>
      if (Json.obj collection).id ≠ id then
        .error "The collection snapshot identity does not match its resource."
      else
        .ok (mergeLocalOAuth2RuntimeCredentials workspace
          { workspace with
            collections := replaceById workspace.collections id (.obj collection)
            testSuites := (workspace.testSuites.filter fun suite =>
              suite.text "collectionId" ≠ id) ++ testSuites })
  | _, _ => .error "The collection snapshot is malformed."

def applyEnvironmentSnapshot (workspace : Workspace) (id : String) (source : Json) :
    Except String Workspace :=
  match source.get? "environments" with
  | some (.arr incoming) =>
      if ¬ ∃ environment ∈ incoming, environment.id = id then
        .error "The environment snapshot identity does not match its resource."
      else
        (environmentBranch workspace id).map fun branch =>
          { workspace with
            environments := (workspace.environments.filter fun environment =>
              decide (environment.id ∉ branch.map Json.id)) ++ incoming }
  | _ => .error "The environment snapshot is malformed."

/-- The single value of an API design, mock server or MCP client snapshot. -/
def snapshotValue (source : Json) (field id : String) : Except String Json :=
  match source.get? field with
  | some (.obj value) =>
      if (Json.obj value).id = id then .ok (.obj value)
      else .error "The collaboration snapshot identity does not match its resource."
  | _ => .error "The collaboration snapshot identity does not match its resource."

def applyCollaborationSnapshot (workspace : Workspace) (key : String) (snapshot : Json) :
    Except String Workspace :=
  let (kind, id) := splitResourceKey key
  if key.toList.head? = some ':' ∨ ¬ snapshot.isObject then
    .error "The collaboration snapshot is malformed."
  else if kind = "collection" then applyCollectionSnapshot workspace id snapshot
  else if kind = "environment" then applyEnvironmentSnapshot workspace id snapshot
  else if kind = "api-design" then
    (snapshotValue snapshot "apiDesign" id).map fun value =>
      { workspace with apiDesigns := replaceById workspace.apiDesigns id value }
  else if kind = "mock-server" then
    (snapshotValue snapshot "mockServer" id).map fun value =>
      { workspace with mockServers := replaceById workspace.mockServers id value }
  else if kind = "mcp-client" then
    (snapshotValue snapshot "mcpClient" id).map fun value =>
      mergeLocalOAuth2RuntimeCredentials workspace
        { workspace with mcpClients := replaceById workspace.mcpClients id value }
  else .error "The collaboration snapshot identity does not match its resource."

/-! ## Keys -/

theorem kind_text_no_colon (kind : CollaborationResourceKind) : ':' ∉ kind.text.toList := by
  cases kind <;> decide

@[simp]
theorem kind_text_inj {left right : CollaborationResourceKind} :
    left.text = right.text ↔ left = right := by
  cases left <;> cases right <;> decide

/-- A resource key splits into the kind and id it was made from. -/
theorem splitResourceKey_resourceKey (kind : CollaborationResourceKind) (id : String) :
    splitResourceKey (resourceKey kind id) = (kind.text, id) := by
  have letters : (resourceKey kind id).toList = kind.text.toList ++ ':' :: id.toList := by
    simp [resourceKey]
  have beforeColon : ∀ letter ∈ kind.text.toList, decide (letter ≠ ':') = true := by
    intro letter letterMem
    apply decide_eq_true
    rintro rfl
    exact kind_text_no_colon kind letterMem
  unfold splitResourceKey
  rw [letters]
  simp only [List.mem_append, List.mem_cons, true_or, or_true, if_true]
  rw [List.takeWhile_append_of_pos beforeColon, List.dropWhile_append_of_pos beforeColon]
  simp

theorem resourceKey_inj {leftKind rightKind : CollaborationResourceKind} {left right : String}
    (keyEq : resourceKey leftKind left = resourceKey rightKind right) :
    leftKind = rightKind ∧ left = right := by
  have split := congrArg splitResourceKey keyEq
  rw [splitResourceKey_resourceKey, splitResourceKey_resourceKey, Prod.mk.injEq,
    kind_text_inj] at split
  exact split

theorem resourceKey_head (kind : CollaborationResourceKind) (id : String) :
    (resourceKey kind id).toList.head? ≠ some ':' := by
  cases kind <;> simp [resourceKey, CollaborationResourceKind.text]

/-- The values a kind of resources is listed from. -/
def resourceValues (workspace : Workspace) : CollaborationResourceKind → List Json
  | .collection => workspace.collections
  | .environment => (publicEnvironments workspace.environments).filter
      (isBranchRoot (publicEnvironments workspace.environments))
  | .apiDesign => workspace.apiDesigns
  | .mockServer => workspace.mockServers
  | .mcpClient => workspace.mcpClients

/-- A resource of a kind with an id. -/
def Listed (workspace : Workspace) (kind : CollaborationResourceKind) (id : String) : Prop :=
  ∃ value ∈ resourceValues workspace kind, value.id = id

theorem mem_collaborationResources {workspace : Workspace} {resource : CollaborationResource} :
    resource ∈ collaborationResources workspace ↔
      ∃ value ∈ resourceValues workspace resource.kind,
        collaborationResource resource.kind value = resource := by
  constructor
  · intro resourceMem
    simp only [collaborationResources, List.mem_append, List.mem_map] at resourceMem
    rcases resourceMem with
      (((⟨value, valueMem, rfl⟩ | ⟨value, valueMem, rfl⟩) | ⟨value, valueMem, rfl⟩) |
        ⟨value, valueMem, rfl⟩) | ⟨value, valueMem, rfl⟩
    all_goals exact ⟨value, valueMem, rfl⟩
  · rintro ⟨value, valueMem, resourceEq⟩
    simp only [collaborationResources, List.mem_append, List.mem_map]
    cases kind : resource.kind with
    | collection =>
        rw [kind] at valueMem resourceEq
        exact Or.inl (Or.inl (Or.inl (Or.inl ⟨value, valueMem, resourceEq⟩)))
    | environment =>
        rw [kind] at valueMem resourceEq
        exact Or.inl (Or.inl (Or.inl (Or.inr ⟨value, valueMem, resourceEq⟩)))
    | apiDesign =>
        rw [kind] at valueMem resourceEq
        exact Or.inl (Or.inl (Or.inr ⟨value, valueMem, resourceEq⟩))
    | mockServer =>
        rw [kind] at valueMem resourceEq
        exact Or.inl (Or.inr ⟨value, valueMem, resourceEq⟩)
    | mcpClient =>
        rw [kind] at valueMem resourceEq
        exact Or.inr ⟨value, valueMem, resourceEq⟩

theorem resource_key_eq {workspace : Workspace} {resource : CollaborationResource}
    (resourceMem : resource ∈ collaborationResources workspace) :
    resource.key = resourceKey resource.kind resource.id := by
  rcases mem_collaborationResources.mp resourceMem with ⟨value, _, resourceEq⟩
  rw [← resourceEq]
  rfl

/-- A listed resource is found under its key. -/
theorem find_resource {workspace : Workspace} {kind : CollaborationResourceKind} {id : String}
    (listed : Listed workspace kind id) :
    ∃ resource, (collaborationResources workspace).find?
        (fun candidate => candidate.key = resourceKey kind id) = some resource ∧
      resource.kind = kind ∧ resource.id = id := by
  rcases listed with ⟨value, valueMem, rfl⟩
  cases found : (collaborationResources workspace).find?
      (fun candidate => candidate.key = resourceKey kind value.id) with
  | none =>
      have resourceMem : collaborationResource kind value ∈ collaborationResources workspace :=
        mem_collaborationResources.mpr ⟨value, valueMem, rfl⟩
      have absent := List.find?_eq_none.mp found _ resourceMem
      simp [collaborationResource] at absent
  | some resource =>
      have keyEq : resource.key = resourceKey kind value.id := by
        simpa using List.find?_some found
      have resourceMem := List.mem_of_find?_eq_some found
      rw [resource_key_eq resourceMem] at keyEq
      exact ⟨resource, rfl, resourceKey_inj keyEq⟩

theorem listed_of_find_resource {workspace : Workspace} {kind : CollaborationResourceKind}
    {id : String} {resource : CollaborationResource}
    (found : (collaborationResources workspace).find?
      (fun candidate => candidate.key = resourceKey kind id) = some resource) :
    resource.kind = kind ∧ resource.id = id ∧ Listed workspace kind id := by
  have keyEq : resource.key = resourceKey kind id := by simpa using List.find?_some found
  have resourceMem := List.mem_of_find?_eq_some found
  rw [resource_key_eq resourceMem] at keyEq
  rcases resourceKey_inj keyEq with ⟨rfl, rfl⟩
  rcases mem_collaborationResources.mp resourceMem with ⟨value, valueMem, resourceEq⟩
  exact ⟨rfl, rfl, value, valueMem, by rw [← resourceEq]; rfl⟩

theorem collaborationResourceSnapshot_of_listed {workspace : Workspace}
    {kind : CollaborationResourceKind} {id : String} (listed : Listed workspace kind id) :
    collaborationResourceSnapshot workspace (resourceKey kind id) =
      snapshotOf workspace kind id := by
  rcases find_resource listed with ⟨resource, found, rfl, rfl⟩
  rw [collaborationResourceSnapshot, found]

theorem listed_of_snapshot {workspace : Workspace} {kind : CollaborationResourceKind}
    {id : String} {snapshot : Json}
    (taken : collaborationResourceSnapshot workspace (resourceKey kind id) = .ok snapshot) :
    Listed workspace kind id ∧ snapshotOf workspace kind id = .ok snapshot := by
  unfold collaborationResourceSnapshot at taken
  split at taken
  · simp at taken
  · next resource found =>
      rcases listed_of_find_resource found with ⟨rfl, rfl, listed⟩
      exact ⟨listed, taken⟩

theorem applyCollaborationSnapshot_resourceKey (workspace : Workspace)
    (kind : CollaborationResourceKind) (id : String) (members : List (String × Json)) :
    applyCollaborationSnapshot workspace (resourceKey kind id) (.obj members) =
      match kind with
      | .collection => applyCollectionSnapshot workspace id (.obj members)
      | .environment => applyEnvironmentSnapshot workspace id (.obj members)
      | .apiDesign =>
          (snapshotValue (.obj members) "apiDesign" id).map fun value =>
            { workspace with apiDesigns := replaceById workspace.apiDesigns id value }
      | .mockServer =>
          (snapshotValue (.obj members) "mockServer" id).map fun value =>
            { workspace with mockServers := replaceById workspace.mockServers id value }
      | .mcpClient =>
          (snapshotValue (.obj members) "mcpClient" id).map fun value =>
            mergeLocalOAuth2RuntimeCredentials workspace
              { workspace with mcpClients := replaceById workspace.mcpClients id value } := by
  unfold applyCollaborationSnapshot
  rw [splitResourceKey_resourceKey]
  have notMalformed : ¬ ((resourceKey kind id).toList.head? = some ':' ∨
      ¬ (Json.obj members).isObject) := by
    simp [resourceKey_head, Json.isObject]
  dsimp only
  rw [if_neg notMalformed]
  cases kind <;> simp [CollaborationResourceKind.text]

/-! ## What snapshots hold -/

theorem mem_publicBranch_root {environments : List Json} {root : Json}
    (rootPublic : root ∈ publicEnvironments environments) :
    root ∈ publicBranch environments root.id := by
  refine List.mem_filter.mpr ⟨rootPublic, ?_⟩
  apply decide_eq_true
  exact mem_closurePasses_of_mem (by simp)

theorem environmentBranch_eq_ok_iff {workspace : Workspace} {id : String} {branch : List Json} :
    environmentBranch workspace id = .ok branch ↔
      branch = publicBranch workspace.environments id ∧
        ∃ environment ∈ branch, environment.id = id := by
  unfold environmentBranch
  dsimp only
  split
  · next rooted =>
      rw [Except.ok.injEq]
      constructor
      · rintro rfl
        exact ⟨rfl, rooted⟩
      · exact fun same => same.1.symm
  · next notRooted =>
      refine iff_of_false (by simp) ?_
      rintro ⟨rfl, rooted⟩
      exact notRooted rooted

theorem environmentBranch_of_listed {workspace : Workspace} {id : String}
    (listed : Listed workspace .environment id) :
    environmentBranch workspace id = .ok (publicBranch workspace.environments id) := by
  rcases listed with ⟨root, rootMem, rfl⟩
  have rootPublic := List.mem_of_mem_filter rootMem
  exact environmentBranch_eq_ok_iff.mpr ⟨rfl, root, mem_publicBranch_root rootPublic, rfl⟩

theorem snapshotOf_environment_cases {workspace : Workspace} {id : String} {snapshot : Json}
    (taken : snapshotOf workspace .environment id = .ok snapshot) :
    snapshot = .obj [("environments", .arr (publicBranch workspace.environments id))] ∧
      ∃ environment ∈ publicBranch workspace.environments id, environment.id = id := by
  unfold snapshotOf at taken
  cases branchEq : environmentBranch workspace id with
  | error message => simp [branchEq, Except.map] at taken
  | ok branch =>
      simp only [branchEq, Except.map, Except.ok.injEq] at taken
      rcases environmentBranch_eq_ok_iff.mp branchEq with ⟨rfl, rooted⟩
      exact ⟨taken.symm, rooted⟩

theorem exists_find_of_mem {values : List Json} {id : String}
    (present : ∃ value ∈ values, value.id = id) :
    ∃ value ∈ values, value.id = id ∧
      values.find? (fun candidate => candidate.id = id) = some value := by
  rcases present with ⟨value, valueMem, valueId⟩
  cases found : values.find? fun candidate => decide (candidate.id = id) with
  | none =>
      have absent := List.find?_eq_none.mp found value valueMem
      simp [valueId] at absent
  | some first =>
      exact ⟨first, List.mem_of_find?_eq_some found, by simpa using List.find?_some found, rfl⟩

theorem get?_objectOf (field : String) (value : Json) :
    (objectOf field (some value)).get? field = some value := by
  simp [objectOf, Json.get?, Json.members]

theorem snapshotValue_objectOf (field : String) {value : Json} (object : value.isObject) :
    snapshotValue (objectOf field (some value)) field value.id = .ok value := by
  unfold snapshotValue
  rw [get?_objectOf]
  cases value with
  | obj members => simp
  | null | bool | num | str | arr => simp [Json.isObject] at object

theorem applyEnvironmentSnapshot_of_listed {workspace : Workspace} {id : String}
    (listed : Listed workspace .environment id) {incoming : List Json}
    (rooted : ∃ environment ∈ incoming, environment.id = id) :
    applyEnvironmentSnapshot workspace id (.obj [("environments", .arr incoming)]) =
      .ok { workspace with
        environments := (workspace.environments.filter fun environment =>
          decide (environment.id ∉ (publicBranch workspace.environments id).map Json.id)) ++
            incoming } := by
  have found : (Json.obj [("environments", .arr incoming)]).get? "environments" =
      some (.arr incoming) := by
    simp [Json.get?, Json.members]
  unfold applyEnvironmentSnapshot
  rw [found, environmentBranch_of_listed listed]
  dsimp only
  rw [if_neg (not_not.mpr rooted)]
  rfl

end Brunomnia.Collaboration
