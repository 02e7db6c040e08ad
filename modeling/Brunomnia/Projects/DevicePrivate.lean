import Brunomnia.Projects.Ancestry

/-!
# Data that is private to a device

Two workspaces that differ only in data which is private to a device share the same, except
where the code keeps such data: in the runtime fields of an authentication whose type is not
OAuth 2, and in an environment whose private ancestors are out of reach of the walk upward.
-/

namespace Brunomnia.Projects

open Collaboration (CollaborationResource missingResource resourceKey)

/-! ## Lists that agree pairwise -/

section Pairwise

variable {Item Other : Type} {first second : List Item}

theorem map_eq_map_iff_forall₂ {change : Item → Other} :
    first.map change = second.map change ↔
      List.Forall₂ (fun left right => change left = change right) first second := by
  rw [← List.forall₂_eq_eq_eq, List.forall₂_map_left_iff, List.forall₂_map_right_iff]

theorem map_congr_of_map_eq {Read : Type} {change : Item → Other} {read : Item → Read}
    (same : first.map change = second.map change)
    (factors : ∀ left right, change left = change right → read left = read right) :
    first.map read = second.map read := by
  rw [map_eq_map_iff_forall₂] at same ⊢
  exact same.imp factors

theorem find?_map_congr {change : Item → Other} {wanted : Item → Bool}
    (same : first.map change = second.map change)
    (factors : ∀ left right, change left = change right → wanted left = wanted right) :
    (first.find? wanted).map change = (second.find? wanted).map change := by
  rw [map_eq_map_iff_forall₂] at same
  induction same with
  | nil => rfl
  | @cons left right first second head _ ih =>
      rw [List.find?_cons, List.find?_cons, factors left right head]
      cases wanted right with
      | true => exact congrArg some head
      | false => exact ih

theorem forall₂_congr_of_forall₂ {related before after : Item → Item → Prop}
    (pairs : List.Forall₂ related first second)
    (same : ∀ left right, related left right → (before left right ↔ after left right)) :
    List.Forall₂ before first second ↔ List.Forall₂ after first second := by
  induction pairs with
  | nil => simp
  | cons head _ ih => rw [List.forall₂_cons, List.forall₂_cons, same _ _ head, ih]

theorem filter_eq_filter_iff {choosesFirst choosesSecond : Item → Bool}
    (places : List.Forall₂ (fun left right => choosesFirst left = choosesSecond right)
      first second) :
    first.filter choosesFirst = second.filter choosesSecond ↔
      List.Forall₂ (fun left right => choosesFirst left = true → left = right) first second := by
  induction places with
  | nil => simp
  | @cons left right first second same _ ih =>
      rw [List.filter_cons, List.filter_cons, List.forall₂_cons, ← ih, ← same]
      by_cases chosen : choosesFirst left = true
      · simp [chosen]
      · simp [chosen]

/-- Lists of related items, apart from hidden ones on either side. -/
inductive SameApartFrom (hidden : Item → Prop) (related : Item → Item → Prop) :
    List Item → List Item → Prop where
  | nil : SameApartFrom hidden related [] []
  | skipFirst {item : Item} {first second : List Item} (isHidden : hidden item)
      (rest : SameApartFrom hidden related first second) :
      SameApartFrom hidden related (item :: first) second
  | skipSecond {item : Item} {first second : List Item} (isHidden : hidden item)
      (rest : SameApartFrom hidden related first second) :
      SameApartFrom hidden related first (item :: second)
  | both {left right : Item} {first second : List Item} (head : related left right)
      (rest : SameApartFrom hidden related first second) :
      SameApartFrom hidden related (left :: first) (right :: second)

theorem SameApartFrom.filter {hidden : Item → Prop} {related : Item → Item → Prop}
    {shown : Item → Bool} (same : SameApartFrom hidden related first second)
    (shows : ∀ item, shown item = true ↔ ¬ hidden item)
    (agree : ∀ left right, related left right → shown left = shown right) :
    List.Forall₂ related (first.filter shown) (second.filter shown) := by
  induction same with
  | nil => exact .nil
  | skipFirst isHidden _ ih =>
      rwa [List.filter_cons_of_neg fun isShown => (shows _).mp isShown isHidden]
  | skipSecond isHidden _ ih =>
      rwa [List.filter_cons_of_neg fun isShown => (shows _).mp isShown isHidden]
  | @both left right _ _ head _ ih =>
      rw [List.filter_cons, List.filter_cons, agree left right head]
      cases shown right with
      | true => exact .cons head ih
      | false => exact ih

end Pairwise

/-! ## What may differ -/

/-- Authentications that differ at most in their runtime fields. -/
def SameAuth (first second : AuthConfig) : Prop :=
  second = { first with
    code := second.code
    codeVerifier := second.codeVerifier
    accessToken := second.accessToken
    identityToken := second.identityToken
    refreshToken := second.refreshToken
    expiresAt := second.expiresAt }

structure SameRequest (first second : ApiRequest) : Prop where
  rest : second = { first with auth := second.auth }
  auth : SameAuth first.auth second.auth

structure SameFolder (first second : RequestFolder) : Prop where
  rest : second = { first with auth := second.auth }
  auth : Option.Rel SameAuth first.auth second.auth

/-- Sub-environments that differ at most in their secret rows. -/
structure SameSubEnvironment (first second : CollectionEnvironment) : Prop where
  rest : second = { first with rows := second.rows }
  rows : SameApartFrom (fun row : KeyValue => row.valueType = some .secret) Eq first.rows
    second.rows

/-- Collections that differ at most in the runtime fields of authentications, in their private
sub-environments and in secret rows of the others. -/
structure SameSharedCollection (first second : Collection) : Prop where
  rest : second = { first with
    requests := second.requests
    folders := second.folders
    subEnvironments := second.subEnvironments }
  requests : List.Forall₂ SameRequest first.requests second.requests
  folders : Option.Rel (List.Forall₂ SameFolder) first.folders second.folders
  subEnvironments : Option.Rel (SameApartFrom
      (fun environment : CollectionEnvironment => environment.isPrivate = true)
      SameSubEnvironment) first.subEnvironments second.subEnvironments

/-- Clients that differ at most in what OAuth 2 gave them. -/
def SameMcpClient (first second : McpClient) : Prop :=
  second = { first with
    token := if first.authType = .oauth2 then second.token else first.token
    oauthRefreshToken := second.oauthRefreshToken
    oauthIdentityToken := second.oauthIdentityToken
    oauthExpiresAt := second.oauthExpiresAt
    oauthRegisteredClientId := second.oauthRegisteredClientId
    oauthRegisteredClientSecret := second.oauthRegisteredClientSecret
    oauthRegisteredClientIdIssuedAt := second.oauthRegisteredClientIdIssuedAt
    oauthRegisteredClientSecretExpiresAt := second.oauthRegisteredClientSecretExpiresAt
    oauthRegisteredTokenEndpointAuthMethod := second.oauthRegisteredTokenEndpointAuthMethod }

/-- Environments that differ at most in the rows of a private one. -/
structure SameEnvironment (environments : List Environment) (first second : Environment) :
    Prop where
  rest : second = { first with rows := second.rows }
  rows : ¬ IsDevicePrivate environments first → first.rows = second.rows

/-- The workspaces differ only in data that is private to a device. The records not named here,
such as the history, the cookies and the certificates, may differ in everything. -/
structure SameShared (first second : Workspace) : Prop where
  version : first.version = second.version
  name : first.name = second.name
  activeRequestId : first.activeRequestId = second.activeRequestId
  activeEnvironmentId : first.activeEnvironmentId = second.activeEnvironmentId
  collections : List.Forall₂ SameSharedCollection first.collections second.collections
  environments : List.Forall₂ (SameEnvironment first.environments) first.environments
    second.environments
  apiDesigns : first.apiDesigns = second.apiDesigns
  mockServers : first.mockServers = second.mockServers
  testSuites : first.testSuites = second.testSuites
  responseFilters : first.responseFilters = second.responseFilters
  collaboration : first.collaboration = second.collaboration
  governance : first.governance = second.governance
  mcpClients : List.Forall₂ SameMcpClient first.mcpClients second.mcpClients
  ai : second.ai = { first.ai with apiKey := second.ai.apiKey }
  konnect : second.konnect = { first.konnect with token := second.konnect.token }

/-! ## Where it must not -/

/-- An authentication that keeps its runtime fields is the same. -/
def AuthAgrees (first second : AuthConfig) : Prop :=
  first.type ≠ .oauth2 → first = second

structure CollectionAgrees (first second : Collection) : Prop where
  requests : List.Forall₂ (fun left right => AuthAgrees left.auth right.auth) first.requests
    second.requests
  folders : List.Forall₂ (fun left right => ∀ leftAuth ∈ left.auth, ∀ rightAuth ∈ right.auth,
    AuthAgrees leftAuth rightAuth) first.folderList second.folderList

/-- The private data that the code keeps is the same: the runtime fields of authentications of
other types, and the rows of environments that the walk upward takes for public although an
ancestor is private. -/
structure KeptAgrees (first second : Workspace) : Prop where
  collections : List.Forall₂ CollectionAgrees first.collections second.collections
  environments : List.Forall₂ (fun left right => isPublic first.environments left = true →
    IsDevicePrivate first.environments left → left.rows = right.rows) first.environments
      second.environments

/-! ## Collections -/

theorem clearRuntimeFields_iff {first second : AuthConfig} (same : SameAuth first second) :
    clearRuntimeFields first = clearRuntimeFields second ↔ AuthAgrees first second := by
  have sameType : second.type = first.type := by rw [same]
  have cleared : first.withoutRuntime = second.withoutRuntime := by
    rw [same]
    rfl
  unfold clearRuntimeFields AuthAgrees
  by_cases oauth : first.type = .oauth2
  · rw [if_pos oauth, if_pos (sameType.trans oauth)]
    simp [cleared, oauth]
  · rw [if_neg oauth, if_neg (sameType ▸ oauth)]
    simp [oauth]

theorem request_withAuth_iff {first second : ApiRequest} (same : SameRequest first second) :
    first.withAuth clearRuntimeFields = second.withAuth clearRuntimeFields ↔
      AuthAgrees first.auth second.auth := by
  rw [← clearRuntimeFields_iff same.auth]
  constructor
  · exact congrArg ApiRequest.auth
  · intro cleared
    rw [same.rest]
    change ({ first with auth := _ } : ApiRequest) = { first with auth := _ }
    rw [cleared]

theorem folder_withAuth_iff {first second : RequestFolder} (same : SameFolder first second) :
    first.withAuth clearRuntimeFields = second.withAuth clearRuntimeFields ↔
      ∀ firstAuth ∈ first.auth, ∀ secondAuth ∈ second.auth,
        AuthAgrees firstAuth secondAuth := by
  have auths : first.auth.map clearRuntimeFields = second.auth.map clearRuntimeFields ↔
      ∀ firstAuth ∈ first.auth, ∀ secondAuth ∈ second.auth,
        AuthAgrees firstAuth secondAuth := by
    have sameAuth := same.auth
    generalize first.auth = left, second.auth = right at sameAuth ⊢
    cases sameAuth with
    | none => simp
    | some head => simp [clearRuntimeFields_iff head]
  rw [← auths]
  constructor
  · exact congrArg RequestFolder.auth
  · intro cleared
    rw [same.rest]
    change ({ first with auth := _ } : RequestFolder) = { first with auth := _ }
    rw [cleared]

theorem sharedSubEnvironments_congr {first second : List CollectionEnvironment}
    (same : SameApartFrom (fun environment : CollectionEnvironment =>
      environment.isPrivate = true) SameSubEnvironment first second) :
    sharedSubEnvironments first = sharedSubEnvironments second := by
  unfold sharedSubEnvironments
  rw [map_eq_map_iff_forall₂]
  have shows : ∀ environment : CollectionEnvironment,
      (!environment.isPrivate) = true ↔ ¬ environment.isPrivate = true := by simp
  have pairs := same.filter shows fun left right pair => by rw [pair.rest]
  refine pairs.imp fun left right pair => ?_
  have showsRow : ∀ row : KeyValue,
      (!isSecret row) = true ↔ ¬ row.valueType = some .secret := by
    simp [isSecret]
  have rows := pair.rows.filter showsRow fun _ _ equal => by rw [equal]
  rw [List.forall₂_eq_eq_eq] at rows
  rw [pair.rest]
  change ({ left with rows := _ } : CollectionEnvironment) = { left with rows := _ }
  rw [rows]

theorem SameSharedCollection.folderList {first second : Collection}
    (same : SameSharedCollection first second) :
    List.Forall₂ SameFolder first.folderList second.folderList := by
  unfold Collection.folderList
  have folders := same.folders
  generalize first.folders = left, second.folders = right at folders ⊢
  cases folders with
  | none => exact .nil
  | some pairs => exact pairs

theorem SameSharedCollection.sharedSubEnvironments {first second : Collection}
    (same : SameSharedCollection first second) :
    Projects.sharedSubEnvironments first.subEnvironmentList =
      Projects.sharedSubEnvironments second.subEnvironmentList := by
  unfold Collection.subEnvironmentList
  have subEnvironments := same.subEnvironments
  generalize first.subEnvironments = left, second.subEnvironments = right at subEnvironments ⊢
  cases subEnvironments with
  | none => rfl
  | some pairs => exact sharedSubEnvironments_congr pairs

theorem sanitized_iff {first second : Collection} (same : SameSharedCollection first second) :
    withoutCollectionTokens (collectionWithoutPrivateEnvironments first) =
        withoutCollectionTokens (collectionWithoutPrivateEnvironments second) ↔
      CollectionAgrees first second := by
  have requests := forall₂_congr_of_forall₂ same.requests fun _ _ => request_withAuth_iff
  have folders := forall₂_congr_of_forall₂ same.folderList fun _ _ => folder_withAuth_iff
  rw [← map_eq_map_iff_forall₂] at requests folders
  have agrees : CollectionAgrees first second ↔
      first.requests.map (ApiRequest.withAuth clearRuntimeFields) =
          second.requests.map (ApiRequest.withAuth clearRuntimeFields) ∧
        first.folderList.map (RequestFolder.withAuth clearRuntimeFields) =
          second.folderList.map (RequestFolder.withAuth clearRuntimeFields) := by
    rw [requests, folders]
    exact ⟨fun agrees => ⟨agrees.requests, agrees.folders⟩, fun both => ⟨both.1, both.2⟩⟩
  rw [agrees]
  constructor
  · intro equal
    exact ⟨congrArg Collection.requests equal,
      Option.some.inj (congrArg Collection.folders equal)⟩
  · rintro ⟨requestsEq, foldersEq⟩
    have rest := Collection.mk.inj same.rest
    unfold withoutCollectionTokens collectionWithoutPrivateEnvironments
    rw [Collection.mk.injEq]
    obtain ⟨id, name, _, _, order, environment, _, active, content⟩ := rest
    refine ⟨id.symm, name.symm, requestsEq, congrArg some foldersEq, order.symm, environment.symm,
      ?_, ?_, content.symm⟩
    · rw [same.sharedSubEnvironments]
    · simp only [same.sharedSubEnvironments, active]

/-! ## Environments -/

theorem SameEnvironment.withoutRows {environments : List Environment}
    {first second : Environment} (same : SameEnvironment environments first second) :
    first.withoutRows = second.withoutRows := by
  rw [same.rest]
  rfl

theorem publicEnvironments_iff {environments others : List Environment}
    (pairs : List.Forall₂ (SameEnvironment environments) environments others) :
    publicEnvironments environments = publicEnvironments others ↔
      List.Forall₂ (fun left right => isPublic environments left = true →
        IsDevicePrivate environments left → left.rows = right.rows) environments others := by
  have same : environments.map Environment.withoutRows = others.map Environment.withoutRows :=
    map_eq_map_iff_forall₂.mpr (pairs.imp fun _ _ pair => pair.withoutRows)
  have places : List.Forall₂ (fun left right => isPublic environments left =
      isPublic others right) environments others :=
    pairs.imp fun _ _ pair => isPublic_congr same pair.withoutRows
  refine (filter_eq_filter_iff places).trans (forall₂_congr_of_forall₂ pairs ?_)
  intro left right pair
  constructor
  · intro equal chosen _
    rw [equal chosen]
  · intro rowsAgree chosen
    have rows : left.rows = right.rows := by
      by_cases isPrivate : IsDevicePrivate environments left
      · exact rowsAgree chosen isPrivate
      · exact pair.rows isPrivate
    rw [pair.rest, ← rows]

/-! ## The shared workspace -/

theorem sanitizedCollections_iff {first second : Workspace} (same : SameShared first second) :
    first.collections.map sanitizedCollection = second.collections.map sanitizedCollection ↔
      List.Forall₂ CollectionAgrees first.collections second.collections := by
  rw [map_eq_map_iff_forall₂]
  exact forall₂_congr_of_forall₂ same.collections fun _ _ => sanitized_iff

theorem SameMcpClient.withoutMcpTokens {first second : McpClient}
    (same : SameMcpClient first second) :
    Projects.withoutMcpTokens first = Projects.withoutMcpTokens second := by
  have token : (if first.authType = .oauth2 then "" else first.token) =
      if first.authType = .oauth2 then "" else
        if first.authType = .oauth2 then second.token else first.token := by
    split
    · rfl
    · rfl
  rw [same]
  unfold Projects.withoutMcpTokens
  dsimp only
  rw [← token]

theorem SameShared.mcpClients_map {first second : Workspace} (same : SameShared first second) :
    first.mcpClients.map withoutMcpTokens = second.mcpClients.map withoutMcpTokens :=
  map_eq_map_iff_forall₂.mpr (same.mcpClients.imp fun _ _ => SameMcpClient.withoutMcpTokens)

theorem shareableWorkspace_iff (defaultPreferences : Json) {first second : Workspace}
    (same : SameShared first second) :
    shareableWorkspace defaultPreferences first =
        shareableWorkspace defaultPreferences second ↔ KeptAgrees first second := by
  have collections := sanitizedCollections_iff same
  have environments := publicEnvironments_iff same.environments
  constructor
  · intro equal
    have collectionsEq := congrArg Workspace.collections equal
    change (first.collections.map _).map _ = (second.collections.map _).map _ at collectionsEq
    rw [List.map_map, List.map_map] at collectionsEq
    exact ⟨collections.mp collectionsEq,
      environments.mp (congrArg Workspace.environments equal)⟩
  · rintro ⟨collectionsAgree, environmentsAgree⟩
    have collectionsEq := collections.mpr collectionsAgree
    have environmentsEq := environments.mpr environmentsAgree
    change first.collections.map
      (withoutCollectionTokens ∘ collectionWithoutPrivateEnvironments) =
        second.collections.map
          (withoutCollectionTokens ∘ collectionWithoutPrivateEnvironments) at collectionsEq
    have mcpClients : first.mcpClients.map withoutMcpTokens =
        second.mcpClients.map withoutMcpTokens := same.mcpClients_map
    unfold shareableWorkspace withoutOAuth2RuntimeCredentials
    simp only [List.map_map, collectionsEq, environmentsEq, same.version, same.name,
      same.activeRequestId, same.activeEnvironmentId, same.apiDesigns, same.mockServers,
      same.testSuites, same.responseFilters, same.collaboration, same.governance, mcpClients]
    rw [same.ai, same.konnect]

/-! ## Snapshots -/

structure SameSnapshots (first second : Workspace) : Prop where
  collections : first.collections.map sanitizedCollection =
    second.collections.map sanitizedCollection
  environments : publicEnvironments first.environments = publicEnvironments second.environments
  apiDesigns : first.apiDesigns = second.apiDesigns
  mockServers : first.mockServers = second.mockServers
  testSuites : first.testSuites = second.testSuites
  mcpClients : first.mcpClients.map shareableMcpClient =
    second.mcpClients.map shareableMcpClient

variable {first second : Workspace}

def collectionResource (collection : Collection) : CollaborationResource :=
  ⟨resourceKey .collection collection.id, .collection, collection.id, collection.name⟩

def mcpClientResource (client : McpClient) : CollaborationResource :=
  ⟨resourceKey .mcpClient client.id, .mcpClient, client.id, client.name⟩

theorem sanitizedCollection_label {left right : Collection}
    (equal : sanitizedCollection left = sanitizedCollection right) :
    left.id = right.id ∧ left.name = right.name := by
  have id := congrArg Collection.id equal
  have name := congrArg Collection.name equal
  exact ⟨id, name⟩

theorem shareableMcpClient_label {left right : McpClient}
    (equal : shareableMcpClient left = shareableMcpClient right) :
    left.id = right.id ∧ left.name = right.name := by
  have id := congrArg McpClient.id equal
  have name := congrArg McpClient.name equal
  exact ⟨id, name⟩

theorem SameSnapshots.resources (same : SameSnapshots first second) :
    collaborationResources first = collaborationResources second := by
  have collections : first.collections.map collectionResource =
      second.collections.map collectionResource := map_congr_of_map_eq same.collections
    fun left right equal => by
      obtain ⟨id, name⟩ := sanitizedCollection_label equal
      simp only [collectionResource, id, name]
  have mcpClients : first.mcpClients.map mcpClientResource =
      second.mcpClients.map mcpClientResource := map_congr_of_map_eq same.mcpClients
    fun left right equal => by
      obtain ⟨id, name⟩ := shareableMcpClient_label equal
      simp only [mcpClientResource, id, name]
  unfold collectionResource at collections
  unfold mcpClientResource at mcpClients
  unfold collaborationResources
  simp only [collections, mcpClients, same.environments, same.apiDesigns, same.mockServers]

theorem SameSnapshots.collection (same : SameSnapshots first second) (id : String) :
    shareableCollection first id = shareableCollection second id := by
  have found : (first.collections.find? fun candidate => candidate.id = id).map
      sanitizedCollection = (second.collections.find? fun candidate => candidate.id = id).map
        sanitizedCollection :=
    find?_map_congr same.collections fun left right equal => by
      rw [(sanitizedCollection_label equal).1]
  unfold shareableCollection
  cases firstFound : first.collections.find? fun candidate => candidate.id = id with
  | none =>
      cases secondFound : second.collections.find? fun candidate => candidate.id = id with
      | none => rfl
      | some right => simp [firstFound, secondFound] at found
  | some left =>
      cases secondFound : second.collections.find? fun candidate => candidate.id = id with
      | none => simp [firstFound, secondFound] at found
      | some right =>
          rw [firstFound, secondFound] at found
          dsimp only
          rw [Option.some.inj found, same.testSuites]

theorem SameSnapshots.environmentBranch (same : SameSnapshots first second) (id : String) :
    environmentBranch first id = environmentBranch second id := by
  unfold Projects.environmentBranch
  rw [same.environments]

theorem SameSnapshots.mcpClient (same : SameSnapshots first second) (id : String) :
    (first.mcpClients.find? fun candidate => candidate.id = id).map shareableMcpClient =
      (second.mcpClients.find? fun candidate => candidate.id = id).map shareableMcpClient :=
  find?_map_congr same.mcpClients fun left right equal => by
    rw [(shareableMcpClient_label equal).1]

theorem SameSnapshots.snapshot (same : SameSnapshots first second) (key : String) :
    collaborationResourceSnapshot first key = collaborationResourceSnapshot second key := by
  unfold collaborationResourceSnapshot
  rw [same.resources]
  cases (collaborationResources second).find? fun candidate => candidate.key = key with
  | none => rfl
  | some resource =>
      dsimp only
      cases resource.kind with
      | collection => exact same.collection resource.id
      | environment => exact same.environmentBranch resource.id
      | apiDesign => simp only [same.apiDesigns]
      | mockServer => simp only [same.mockServers]
      | mcpClient => simp only [same.mcpClient]

theorem SameShared.snapshots (same : SameShared first second)
    (agrees : KeptAgrees first second) : SameSnapshots first second where
  collections := (sanitizedCollections_iff same).mpr agrees.collections
  environments := (publicEnvironments_iff same.environments).mpr agrees.environments
  apiDesigns := same.apiDesigns
  mockServers := same.mockServers
  testSuites := same.testSuites
  mcpClients := same.mcpClients_map

/-- Workspaces that differ only in private data of the device share the same exactly when the
private data that the code keeps is the same. -/
theorem shared_iff_keptAgrees (defaultPreferences : Json) (first second : Workspace)
    (same : SameShared first second) :
    (shareableWorkspace defaultPreferences first =
          shareableWorkspace defaultPreferences second ∧
        ∀ key, collaborationResourceSnapshot first key =
          collaborationResourceSnapshot second key) ↔
      KeptAgrees first second := by
  have workspace := shareableWorkspace_iff defaultPreferences same
  constructor
  · rintro ⟨equal, _⟩
    exact workspace.mp equal
  · intro agrees
    exact ⟨workspace.mpr agrees, (same.snapshots agrees).snapshot⟩

/-- A request with the given authentication. -/
def requestWith (id : String) (auth : AuthConfig) : ApiRequest where
  id := id
  folderId := none
  pathParams := []
  params := []
  headers := []
  formBody := []
  multipartBody := []
  grpc := ⟨[], .null⟩
  auth := auth
  content := .null

/-- A collection that is authorized by a token, which is also in its sub-environments. -/
def tokenCollection (token : String) (ownEnvironments : List CollectionEnvironment) :
    Collection where
  id := "collection-1"
  name := "Payments"
  requests := [requestWith "request-1" ⟨.oauth2, "", "", token, "", token, 60, .str "client"⟩,
    requestWith "request-2" ⟨.bearer, "", "", "kept", "", "", 0, .null⟩]
  folders := some [⟨"folder-1", "", [], [], some ⟨.oauth2, token, token, "", token, "", 0, .null⟩,
    .null⟩]
  resourceOrder := none
  environment := none
  subEnvironments := some (⟨"shared", [⟨"row-1", none, .str "https"⟩,
    ⟨"row-2", some .secret, .str token⟩], false, .null⟩ :: ownEnvironments)
  activeSubEnvironmentId := some "shared"
  content := .null

/-- A private environment and one below it, both with a token, and one of the team. -/
def tokenEnvironments (token : String) : List Environment :=
  [⟨"own", "Own", [⟨"row-3", none, .str token⟩], none, true, .null⟩,
    ⟨"local", "Local", [⟨"row-4", none, .str token⟩], some "own", false, .null⟩,
    ⟨"team", "Team", [⟨"row-5", none, .str "https"⟩], none, false, .null⟩]

def tokenClient (token : String) : McpClient :=
  ⟨"client-1", "Tools", [], [], .oauth2, token, token, token, 60, "Bearer", token, token, 1, 2,
    "none", .null⟩

/-- A workspace that keeps a token in its collection, environments, client and settings. -/
def tokenWorkspace (token : String) (ownEnvironments : List CollectionEnvironment) : Workspace :=
  { blankWorkspace "Payments" with
    activeEnvironmentId := "team"
    collections := [tokenCollection token ownEnvironments]
    environments := tokenEnvironments token
    imports := [⟨token, .null⟩]
    project := .str token
    activePluginTheme := token
    mcpClients := [tokenClient token]
    ai := ⟨true, token, .null⟩
    konnect := ⟨true, token, "", [], none, none, none, none, none, .null⟩ }

theorem tokenEnvironments_private (token : String) :
    IsDevicePrivate (tokenEnvironments token)
        ⟨"own", "Own", [⟨"row-3", none, .str token⟩], none, true, .null⟩ ∧
      IsDevicePrivate (tokenEnvironments token)
        ⟨"local", "Local", [⟨"row-4", none, .str token⟩], some "own", false, .null⟩ :=
  ⟨⟨_, Relation.ReflTransGen.refl, rfl⟩, ⟨_, Relation.ReflTransGen.single rfl, rfl⟩⟩

theorem tokenWorkspace_sameShared (one two : String) :
    SameShared (tokenWorkspace one [⟨"mine", [], true, .null⟩]) (tokenWorkspace two []) := by
  have request : SameRequest
      (requestWith "request-1" ⟨.oauth2, "", "", one, "", one, 60, .str "client"⟩)
      (requestWith "request-1" ⟨.oauth2, "", "", two, "", two, 60, .str "client"⟩) := ⟨rfl, rfl⟩
  have subEnvironment : SameSubEnvironment
      ⟨"shared", [⟨"row-1", none, .str "https"⟩, ⟨"row-2", some .secret, .str one⟩], false, .null⟩
      ⟨"shared", [⟨"row-1", none, .str "https"⟩, ⟨"row-2", some .secret, .str two⟩], false,
        .null⟩ :=
    ⟨rfl, .both rfl (.skipFirst rfl (.skipSecond rfl .nil))⟩
  have collection : SameSharedCollection (tokenCollection one [⟨"mine", [], true, .null⟩])
      (tokenCollection two []) :=
    ⟨rfl, .cons request (.cons ⟨rfl, rfl⟩ .nil), .some (.cons ⟨rfl, .some rfl⟩ .nil),
      .some (.both subEnvironment (.skipFirst rfl .nil))⟩
  have privates := tokenEnvironments_private one
  have environments : List.Forall₂ (SameEnvironment (tokenEnvironments one))
      (tokenEnvironments one) (tokenEnvironments two) :=
    .cons ⟨rfl, fun notPrivate => absurd privates.1 notPrivate⟩
      (.cons ⟨rfl, fun notPrivate => absurd privates.2 notPrivate⟩
        (.cons ⟨rfl, fun _ => rfl⟩ .nil))
  exact ⟨rfl, rfl, rfl, rfl, .cons collection .nil, environments, rfl, rfl, rfl, rfl, rfl, rfl,
    .cons rfl .nil, rfl, rfl⟩

/-- Different tokens in all these places leave what is shared the same. -/
theorem tokenWorkspace_shared :
    shareableWorkspace .null (tokenWorkspace "one" [⟨"mine", [], true, .null⟩]) =
        shareableWorkspace .null (tokenWorkspace "two" []) ∧
      ∀ key, collaborationResourceSnapshot (tokenWorkspace "one" [⟨"mine", [], true, .null⟩]) key =
        collaborationResourceSnapshot (tokenWorkspace "two" []) key := by
  refine (shared_iff_keptAgrees .null _ _ (tokenWorkspace_sameShared "one" "two")).mpr
    ⟨.cons ⟨.cons ?_ (.cons (fun _ => rfl) .nil), .cons ?_ .nil⟩ .nil,
      .cons ?_ (.cons ?_ (.cons (fun _ _ => rfl) .nil))⟩
  · exact fun notOauth => absurd rfl notOauth
  · rintro _ ⟨⟩ _ ⟨⟩ notOauth
    exact absurd rfl notOauth
  · exact fun isShown => absurd isShown (by decide)
  · exact fun isShown => absurd isShown (by decide)

/-- Workspaces whose only request kept an access token after its type changed. -/
def bearerWorkspace (accessToken : String) : Workspace :=
  { blankWorkspace "Payments" with
    collections := [{
      id := "collection-1"
      name := "Payments"
      requests := [requestWith "request-1" ⟨.bearer, "", "", accessToken, "", "", 0, .null⟩]
      folders := none
      resourceOrder := none
      environment := none
      subEnvironments := none
      activeSubEnvironmentId := none
      content := .null }] }

theorem bearerWorkspace_sameShared (one two : String) :
    SameShared (bearerWorkspace one) (bearerWorkspace two) := by
  refine ⟨rfl, rfl, rfl, rfl, .cons ⟨rfl, .cons ⟨rfl, rfl⟩ .nil, .none, .none⟩ .nil, .nil, rfl,
    rfl, rfl, rfl, rfl, rfl, .nil, rfl, rfl⟩

/-- An access token of a bearer authentication is shared. -/
theorem bearerWorkspace_leaks :
    ¬ ∀ first second, SameShared first second →
      shareableWorkspace .null first = shareableWorkspace .null second ∧
        ∀ key, collaborationResourceSnapshot first key =
          collaborationResourceSnapshot second key := by
  intro independent
  have equal := (independent _ _ (bearerWorkspace_sameShared "one" "two")).1
  have tokens := congrArg (fun workspace => workspace.collections.map fun collection =>
    collection.requests.map fun request => request.auth.accessToken) equal
  revert tokens
  decide

/-- With few environments of distinct ids, only authentications of other types matter. -/
theorem keptAgrees_iff_of_few (nodup : (first.environments.map Environment.id).Nodup)
    (few : first.environments.length ≤ 500)
    (sameLength : first.environments.length = second.environments.length) :
    KeptAgrees first second ↔
      List.Forall₂ CollectionAgrees first.collections second.collections := by
  constructor
  · exact KeptAgrees.collections
  · intro collections
    refine ⟨collections, List.forall₂_iff_get.mpr ⟨sameLength, ?_⟩⟩
    intro index inFirst _ chosen isPrivate
    exact absurd isPrivate ((isPublic_iff nodup few (List.get_mem _ _)).mp chosen)

/-! ## Environments that are shared -/

/-- Of at most five hundred environments with distinct ids, those are shared that are not private
and have no private ancestor, whatever cycles the parents make. -/
theorem mem_sharedEnvironments_iff (defaultPreferences : Json) {workspace : Workspace}
    (nodup : (workspace.environments.map Environment.id).Nodup)
    (few : workspace.environments.length ≤ 500) (environment : Environment) :
    environment ∈ (shareableWorkspace defaultPreferences workspace).environments ↔
      environment ∈ workspace.environments ∧
        ¬ IsDevicePrivate workspace.environments environment := by
  change environment ∈ publicEnvironments workspace.environments ↔ _
  rw [publicEnvironments, List.mem_filter]
  exact and_congr_right fun listed => isPublic_iff nodup few listed

def staging : Environment := ⟨"staging", "Staging", [], some "team", false, .null⟩

/-- An environment below a private one, and two that are each other's parent. -/
def nestedEnvironments : List Environment :=
  [⟨"team", "Team", [], none, true, .null⟩, staging,
    ⟨"left", "Left", [], some "right", false, .null⟩,
    ⟨"right", "Right", [], some "left", false, .null⟩]

theorem staging_shared_iff :
    staging ∈ (shareableWorkspace .null
        { blankWorkspace "Payments" with environments := nestedEnvironments }).environments ↔
      staging ∈ nestedEnvironments ∧ ¬ IsDevicePrivate nestedEnvironments staging :=
  mem_sharedEnvironments_iff .null (by decide) (by decide) staging

end Brunomnia.Projects
