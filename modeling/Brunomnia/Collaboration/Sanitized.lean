import Brunomnia.Collaboration.Credentials
import Brunomnia.Library.Lists

/-!
# Sanitized collections and clients

The two ways through the workspace, for whole resources: a collection or client
of the workspace that is cleared and restored, and a shared one that is applied
and shared again.
-/

namespace Brunomnia.Collaboration

open Json
open Library (map_eq_self_iff)

/-! ## Collections -/

structure CollectionTyped (collection : Json) : Prop where
  object : collection.isObject
  requests : ∃ requests, collection.get? "requests" = some (.arr requests) ∧
    ∀ request ∈ requests, RequestTyped request
  folders : ∀ value, collection.get? "folders" = some value →
    ∃ folders, value = .arr folders ∧ ∀ folder ∈ folders, FolderTyped folder

/-- Every request and folder of a collection finds its own credentials, and the
collection has a list of folders. -/
structure CollectionKept (entries : List (String × Json)) (collection : Json) : Prop where
  foldersPresent : (collection.get? "folders").isSome
  requests : ∀ request ∈ collection.list "requests", ∀ auth, request.get? "auth" = some auth →
    CredentialKept entries (requestAuthKey collection request) auth
  folders : ∀ folder ∈ collection.list "folders", ∀ auth, folder.get? "auth" = some auth →
    CredentialKept entries (folderAuthKey collection folder) auth

section CollectionAuth

variable (changeRequest changeFolder : Json → Json → Json) (collection : Json)

theorem get?_withCollectionAuth_requests :
    (withCollectionAuth changeRequest changeFolder collection).get? "requests" =
      some (.arr ((collection.list "requests").map fun request =>
        withRequestAuth (changeRequest request) request)) :=
  get?_spread (by simp) (by simp)

theorem get?_withCollectionAuth_folders :
    (withCollectionAuth changeRequest changeFolder collection).get? "folders" =
      some (.arr ((collection.list "folders").map fun folder =>
        withFolderAuth (changeFolder folder) folder)) :=
  get?_spread (by simp) (by simp)

theorem get?_withCollectionAuth {key : String} (notRequests : key ≠ "requests")
    (notFolders : key ≠ "folders") :
    (withCollectionAuth changeRequest changeFolder collection).get? key = collection.get? key :=
  get?_spread_of_not_mem (by simp [notRequests, notFolders])

@[simp]
theorem withCollectionAuth_id :
    (withCollectionAuth changeRequest changeFolder collection).id = collection.id :=
  text_congr (get?_withCollectionAuth _ _ _ (by decide) (by decide))

end CollectionAuth

@[simp]
theorem withoutCollectionTokens_id (collection : Json) :
    (withoutCollectionTokens collection).id = collection.id :=
  withCollectionAuth_id _ _ _

@[simp]
theorem mergeCollectionAuth_id (entries : List (String × Json)) (collection : Json) :
    (mergeCollectionAuth entries collection).id = collection.id :=
  withCollectionAuth_id _ _ _

theorem withCollectionAuth_spread {collection : Json}
    (requestsPresent : (collection.get? "requests").isSome)
    (foldersPresent : (collection.get? "folders").isSome) (requests folders : Json)
    (changeRequest changeFolder : Json → Json → Json) :
    withCollectionAuth changeRequest changeFolder
        (collection.spread [("requests", requests), ("folders", folders)]) =
      collection.spread
        [("requests", .arr (((collection.spread [("requests", requests),
            ("folders", folders)]).list "requests").map fun request =>
              withRequestAuth (changeRequest request) request)),
          ("folders", .arr (((collection.spread [("requests", requests),
            ("folders", folders)]).list "folders").map fun folder =>
              withFolderAuth (changeFolder folder) folder))] := by
  unfold withCollectionAuth
  apply spread_spread (by simp)
  · simp [requestsPresent, foldersPresent]
  · simp

/-- Clearing and restoring a collection in one rewriting of its lists. -/
theorem mergeCollectionAuth_withoutCollectionTokens {collection : Json}
    (requestsPresent : (collection.get? "requests").isSome)
    (foldersPresent : (collection.get? "folders").isSome) (entries : List (String × Json)) :
    mergeCollectionAuth entries (withoutCollectionTokens collection) =
      collection.spread
        [("requests", .arr ((collection.list "requests").map fun request =>
            withRequestAuth (mergeAuth entries (requestAuthKey collection request) ∘
              clearOAuthRuntime) request)),
          ("folders", .arr ((collection.list "folders").map fun folder =>
            withFolderAuth (mergeAuth entries (folderAuthKey collection folder) ∘
              clearOAuthRuntime) folder))] := by
  have requestsList : (withoutCollectionTokens collection).list "requests" =
      (collection.list "requests").map (withRequestAuth clearOAuthRuntime) :=
    list_of_get? (get?_withCollectionAuth_requests _ _ _)
  have foldersList : (withoutCollectionTokens collection).list "folders" =
      (collection.list "folders").map (withFolderAuth clearOAuthRuntime) :=
    list_of_get? (get?_withCollectionAuth_folders _ _ _)
  have rewritten := withCollectionAuth_spread requestsPresent foldersPresent
    (.arr ((collection.list "requests").map (withRequestAuth clearOAuthRuntime)))
    (.arr ((collection.list "folders").map (withFolderAuth clearOAuthRuntime)))
    (fun request => mergeAuth entries
      (requestAuthKey (withoutCollectionTokens collection) request))
    (fun folder => mergeAuth entries (folderAuthKey (withoutCollectionTokens collection) folder))
  refine rewritten.trans ?_
  change collection.spread
    [("requests", .arr (((withoutCollectionTokens collection).list "requests").map _)),
      ("folders", .arr (((withoutCollectionTokens collection).list "folders").map _))] = _
  have requestsEq : ((collection.list "requests").map (withRequestAuth clearOAuthRuntime)).map
      (fun request => withRequestAuth (mergeAuth entries
        (requestAuthKey (withoutCollectionTokens collection) request)) request) =
      (collection.list "requests").map fun request =>
        withRequestAuth (mergeAuth entries (requestAuthKey collection request) ∘
          clearOAuthRuntime) request := by
    rw [List.map_map]
    apply List.map_congr_left
    intro request _
    simp only [Function.comp_apply, requestAuthKey, withoutCollectionTokens_id,
      withRequestAuth_id]
    exact withRequestAuth_withRequestAuth _ _ request
  have foldersEq : ((collection.list "folders").map (withFolderAuth clearOAuthRuntime)).map
      (fun folder => withFolderAuth (mergeAuth entries
        (folderAuthKey (withoutCollectionTokens collection) folder)) folder) =
      (collection.list "folders").map fun folder =>
        withFolderAuth (mergeAuth entries (folderAuthKey collection folder) ∘
          clearOAuthRuntime) folder := by
    rw [List.map_map]
    apply List.map_congr_left
    intro folder _
    simp only [Function.comp_apply, folderAuthKey, withoutCollectionTokens_id, withFolderAuth_id]
    exact withFolderAuth_withFolderAuth _ folder fun _ => clearOAuthRuntime_truthy
  rw [requestsList, foldersList, requestsEq, foldersEq]

def EntriesTyped (entries : List (String × Json)) : Prop :=
  ∀ entry ∈ entries, AuthTyped entry.2

theorem EntriesTyped.of_lastValue {entries : List (String × Json)} (typed : EntriesTyped entries)
    {key : String} {found : Json} (foundEq : lastValue entries key = some found) :
    AuthTyped found := by
  have mem : ∀ entries : List (String × Json), entries.lookup key = some found →
      ∃ entry ∈ entries, entry.2 = found := by
    intro entries
    induction entries with
    | nil => simp
    | cons entry rest ih =>
        intro lookupEq
        rw [lookup_cons_ite] at lookupEq
        split at lookupEq
        · exact ⟨entry, List.mem_cons_self, Option.some.inj lookupEq⟩
        · rcases ih lookupEq with ⟨other, otherMem, otherEq⟩
          exact ⟨other, List.mem_cons_of_mem _ otherMem, otherEq⟩
  rcases mem entries.reverse foundEq with ⟨entry, entryMem, rfl⟩
  exact typed entry (List.mem_reverse.mp entryMem)

/-- A collection of the workspace comes back unchanged exactly when its credentials
are found under their keys. -/
theorem mergeCollectionAuth_withoutCollectionTokens_iff {collection : Json}
    (typed : CollectionTyped collection) {entries : List (String × Json)}
    (entriesTyped : EntriesTyped entries) :
    mergeCollectionAuth entries (withoutCollectionTokens collection) = collection ↔
      CollectionKept entries collection := by
  rcases typed.requests with ⟨requests, requestsEq, requestsTyped⟩
  have requestsList : collection.list "requests" = requests := list_of_get? requestsEq
  by_cases foldersPresent : (collection.get? "folders").isSome
  swap
  · refine iff_of_false ?_ fun kept => foldersPresent kept.foldersPresent
    intro same
    apply foldersPresent
    rw [← same, mergeCollectionAuth, get?_withCollectionAuth_folders]
    rfl
  rcases Option.isSome_iff_exists.mp foldersPresent with ⟨foldersValue, foldersEq⟩
  rcases typed.folders foldersValue foldersEq with ⟨folders, rfl, foldersTyped⟩
  have foldersList : collection.list "folders" = folders := list_of_get? foldersEq
  have requestsPresent : (collection.get? "requests").isSome := by rw [requestsEq]; rfl
  rw [mergeCollectionAuth_withoutCollectionTokens requestsPresent foldersPresent,
    spread_eq_self_iff typed.object (by simp)]
  simp only [List.mem_cons, List.not_mem_nil, or_false, forall_eq_or_imp, forall_eq,
    requestsEq, foldersEq, requestsList, foldersList, Option.some.injEq, Json.arr.injEq]
  rw [eq_comm, map_eq_self_iff, eq_comm, map_eq_self_iff]
  have authKept : ∀ auth key, AuthTyped auth →
      ((mergeAuth entries key ∘ clearOAuthRuntime) auth = auth ↔
        CredentialKept entries key auth) := by
    intro auth key authTyped
    exact mergeAuth_clearOAuthRuntime_iff authTyped.object (fun _ => authTyped.runtime)
      fun found foundEq _ => (entriesTyped.of_lastValue foundEq).runtime
  constructor
  · rintro ⟨requestsKept, foldersKept⟩
    refine ⟨foldersPresent, ?_, ?_⟩
    · intro request requestMem auth authEq
      rw [requestsList] at requestMem
      have requestTyped := requestsTyped request requestMem
      rcases requestTyped.auth with ⟨typedAuth, typedAuthEq, authTyped⟩
      obtain rfl : typedAuth = auth := Option.some.inj (typedAuthEq.symm.trans authEq)
      exact (authKept _ _ authTyped).mp ((withRequestAuth_eq_self_iff requestTyped.object authEq
        _).mp (requestsKept request requestMem))
    · intro folder folderMem auth authEq
      rw [foldersList] at folderMem
      have folderTyped := foldersTyped folder folderMem
      exact (authKept _ _ (folderTyped.auth auth authEq)).mp
        ((withFolderAuth_eq_self_iff folderTyped _).mp (foldersKept folder folderMem) auth authEq)
  · intro kept
    refine ⟨fun request requestMem => ?_, fun folder folderMem => ?_⟩
    · have requestTyped := requestsTyped request requestMem
      rcases requestTyped.auth with ⟨auth, authEq, authTyped⟩
      apply (withRequestAuth_eq_self_iff requestTyped.object authEq _).mpr
      exact (authKept _ _ authTyped).mpr
        (kept.requests request (requestsList ▸ requestMem) auth authEq)
    · have folderTyped := foldersTyped folder folderMem
      apply (withFolderAuth_eq_self_iff folderTyped _).mpr
      intro auth authEq
      exact (authKept _ _ (folderTyped.auth auth authEq)).mpr
        (kept.folders folder (foldersList ▸ folderMem) auth authEq)

/-! ## Shared collections -/

theorem get?_shared_subEnvironments (collection : Json) :
    (collectionWithoutPrivateEnvironments collection).get? "subEnvironments" =
      some (.arr (sharedSubEnvironments collection)) :=
  get?_spread (by simp) (List.mem_cons_self)

theorem get?_shared_activeSubEnvironmentId (collection : Json) :
    (collectionWithoutPrivateEnvironments collection).get? "activeSubEnvironmentId" =
      some (.str (if ∃ environment ∈ sharedSubEnvironments collection,
        environment.id = collection.text "activeSubEnvironmentId"
          then collection.text "activeSubEnvironmentId" else "")) :=
  get?_spread (by simp)
    (List.mem_cons_of_mem _ List.mem_cons_self)

theorem get?_collectionWithoutPrivateEnvironments {collection : Json} {key : String}
    (notEnvironments : key ≠ "subEnvironments") (notActive : key ≠ "activeSubEnvironmentId") :
    (collectionWithoutPrivateEnvironments collection).get? key = collection.get? key :=
  get?_spread_of_not_mem (by simp [notEnvironments, notActive])

theorem sharedSubEnvironments_public {collection environment : Json}
    (environmentMem : environment ∈ sharedSubEnvironments collection) :
    environment.flag "private" = false := by
  rcases List.mem_map.mp environmentMem with ⟨original, originalMem, rfl⟩
  have originalPublic := (List.mem_filter.mp originalMem).2
  rw [flag, get?_spread_of_not_mem (by simp)]
  simpa [flag] using originalPublic

theorem sharedSubEnvironments_eq_self {collection other : Json}
    (shared : collection.list "subEnvironments" = sharedSubEnvironments other) :
    sharedSubEnvironments collection = sharedSubEnvironments other := by
  have publicOnly : ∀ environment ∈ sharedSubEnvironments other,
      (!environment.flag "private") = true := by
    intro environment environmentMem
    rw [sharedSubEnvironments_public environmentMem]
    rfl
  rw [sharedSubEnvironments, shared, List.filter_eq_self.mpr publicOnly, map_eq_self_iff]
  intro environment environmentMem
  rcases List.mem_map.mp environmentMem with ⟨original, _, rfl⟩
  apply (spread_eq_self_iff rfl (by simp)).mpr
  have assigned : (original.spread [("variables", .arr ((original.list "variables").filter
      fun row => row.text "valueType" ≠ "secret"))]).get? "variables" =
      some (.arr ((original.list "variables").filter
        fun row => row.text "valueType" ≠ "secret")) := by
    rw [get?_spread_singleton, if_pos rfl]
  simp only [List.mem_singleton, forall_eq, assigned, list_of_get? assigned,
    List.filter_filter, Bool.and_self]

theorem collectionWithoutPrivateEnvironments_eq_self {collection other : Json}
    (object : collection.isObject)
    (subEnvironments : collection.get? "subEnvironments" =
      (collectionWithoutPrivateEnvironments other).get? "subEnvironments")
    (active : collection.get? "activeSubEnvironmentId" =
      (collectionWithoutPrivateEnvironments other).get? "activeSubEnvironmentId") :
    collectionWithoutPrivateEnvironments collection = collection := by
  rw [get?_shared_subEnvironments] at subEnvironments
  rw [get?_shared_activeSubEnvironmentId] at active
  set activeId := if ∃ environment ∈ sharedSubEnvironments other,
    environment.id = other.text "activeSubEnvironmentId"
      then other.text "activeSubEnvironmentId" else "" with activeEq
  have sharedAgain := sharedSubEnvironments_eq_self (list_of_get? subEnvironments)
  have activeAgain : (if ∃ environment ∈ sharedSubEnvironments other, environment.id = activeId
      then activeId else "") = activeId := by
    by_cases selected : ∃ environment ∈ sharedSubEnvironments other, environment.id =
        other.text "activeSubEnvironmentId"
    · rw [activeEq, if_pos selected, if_pos selected]
    · rw [activeEq, if_neg selected, ite_self]
  unfold collectionWithoutPrivateEnvironments
  simp only [sharedAgain, text_of_get? active, activeAgain]
  apply (spread_eq_self_iff object (by simp)).mpr
  simp only [List.mem_cons, List.not_mem_nil, or_false, forall_eq_or_imp, forall_eq,
    subEnvironments, active, and_self]

def sharedCollection (collection : Json) : Json :=
  withCollectionAuth (fun _ => clearOAuthRuntime) (fun _ => clearOAuthRuntime)
    (collectionWithoutPrivateEnvironments collection)

@[simp]
theorem collectionWithoutPrivateEnvironments_id (collection : Json) :
    (collectionWithoutPrivateEnvironments collection).id = collection.id :=
  text_congr (get?_collectionWithoutPrivateEnvironments (by decide) (by decide))

@[simp]
theorem sharedCollection_id (collection : Json) :
    (sharedCollection collection).id = collection.id := by
  rw [sharedCollection, withCollectionAuth_id, collectionWithoutPrivateEnvironments_id]

theorem get?_sharedCollection_requests (collection : Json) :
    (sharedCollection collection).get? "requests" =
      some (.arr (((collectionWithoutPrivateEnvironments collection).list "requests").map
        (withRequestAuth clearOAuthRuntime))) :=
  get?_withCollectionAuth_requests _ _ _

theorem get?_sharedCollection_folders (collection : Json) :
    (sharedCollection collection).get? "folders" =
      some (.arr (((collectionWithoutPrivateEnvironments collection).list "folders").map
        (withFolderAuth clearOAuthRuntime))) :=
  get?_withCollectionAuth_folders _ _ _

/-- Replacing the lists of a shared collection by lists that clear to its own ones. -/
theorem sharedCollection_spread {collection : Json} {requests folders : List Json}
    (requestsCleared : (sharedCollection collection).get? "requests" =
      some (.arr (requests.map (withRequestAuth clearOAuthRuntime))))
    (foldersCleared : (sharedCollection collection).get? "folders" =
      some (.arr (folders.map (withFolderAuth clearOAuthRuntime)))) :
    sharedCollection ((sharedCollection collection).spread
        [("requests", .arr requests), ("folders", .arr folders)]) =
      sharedCollection collection := by
  have untouched : ∀ key, key ≠ "requests" → key ≠ "folders" →
      ((sharedCollection collection).spread
        [("requests", .arr requests), ("folders", .arr folders)]).get? key =
          (collectionWithoutPrivateEnvironments collection).get? key := by
    intro key notRequests notFolders
    rw [get?_spread_of_not_mem (by simp [notRequests, notFolders])]
    exact get?_withCollectionAuth _ _ _ notRequests notFolders
  have requestsList : ((sharedCollection collection).spread
      [("requests", .arr requests), ("folders", .arr folders)]).list "requests" = requests :=
    list_of_get? (get?_spread (by simp) (by simp))
  have foldersList : ((sharedCollection collection).spread
      [("requests", .arr requests), ("folders", .arr folders)]).list "folders" = folders :=
    list_of_get? (get?_spread (by simp) (by simp))
  rw [sharedCollection, collectionWithoutPrivateEnvironments_eq_self rfl
    (untouched _ (by decide) (by decide)) (untouched _ (by decide) (by decide)),
    withCollectionAuth_spread (by rw [requestsCleared]; rfl) (by rw [foldersCleared]; rfl),
    requestsList, foldersList]
  apply (spread_eq_self_iff rfl (by simp)).mpr
  simp only [List.mem_cons, List.not_mem_nil, or_false, forall_eq_or_imp, forall_eq,
    requestsCleared, foldersCleared, and_self]

/-- A shared collection that is applied and shared again comes out as it went in. -/
theorem sharedCollection_of_restored (entries : List (String × Json)) (collection : Json) :
    sharedCollection (mergeCollectionAuth entries
      (withoutCollectionTokens (sharedCollection collection))) = sharedCollection collection := by
  have requestsFound := get?_sharedCollection_requests collection
  have foldersFound := get?_sharedCollection_folders collection
  rw [mergeCollectionAuth_withoutCollectionTokens (by rw [requestsFound]; rfl)
    (by rw [foldersFound]; rfl), list_of_get? requestsFound, list_of_get? foldersFound]
  apply sharedCollection_spread
  · rw [requestsFound, List.map_map, List.map_map]
    congr 2
    apply List.map_congr_left
    intro request _
    simp only [Function.comp_apply, withRequestAuth_withRequestAuth]
    congr 1
    funext auth
    simp only [Function.comp_apply, clearOAuthRuntime_mergeAuth,
      clearOAuthRuntime_clearOAuthRuntime]
  · rw [foldersFound, List.map_map, List.map_map]
    congr 2
    apply List.map_congr_left
    intro folder _
    simp only [Function.comp_apply]
    rw [withFolderAuth_withFolderAuth _ folder fun _ => clearOAuthRuntime_truthy,
      withFolderAuth_withFolderAuth]
    · congr 1
      funext auth
      simp only [Function.comp_apply, clearOAuthRuntime_mergeAuth,
        clearOAuthRuntime_clearOAuthRuntime]
    · intro auth truthy
      exact mergeAuth_truthy (clearOAuthRuntime_truthy (clearOAuthRuntime_truthy truthy))

theorem snapshotOf_collection_cases {workspace : Workspace} {id : String} {snapshot : Json}
    (taken : snapshotOf workspace .collection id = .ok snapshot) :
    ∃ collection ∈ workspace.collections, collection.id = id ∧
      snapshot = .obj [("collection", sharedCollection collection),
        ("testSuites", .arr (workspace.testSuites.filter fun suite =>
          suite.text "collectionId" = id))] := by
  unfold snapshotOf shareableCollection at taken
  cases found : workspace.collections.find? fun candidate => decide (candidate.id = id) with
  | none => simp [found] at taken
  | some collection =>
      simp only [found, Except.ok.injEq] at taken
      refine ⟨collection, List.mem_of_find?_eq_some found, ?_, taken.symm⟩
      simpa using List.find?_some found

theorem applyCollectionSnapshot_shared (workspace : Workspace) (collection : Json)
    (testSuites : List Json) :
    applyCollectionSnapshot workspace collection.id
        (.obj [("collection", sharedCollection collection), ("testSuites", .arr testSuites)]) =
      .ok (mergeLocalOAuth2RuntimeCredentials workspace
        { workspace with
          collections := replaceById workspace.collections collection.id
            (sharedCollection collection)
          testSuites := (workspace.testSuites.filter fun suite =>
            suite.text "collectionId" ≠ collection.id) ++ testSuites }) := by
  have collectionFound : (Json.obj [("collection", sharedCollection collection),
      ("testSuites", .arr testSuites)]).get? "collection" =
        some (sharedCollection collection) := by
    simp [get?, members]
  have suitesFound : (Json.obj [("collection", sharedCollection collection),
      ("testSuites", .arr testSuites)]).get? "testSuites" = some (.arr testSuites) := by
    simp [get?, members, lookup_cons_ite]
  have sharedObject : .obj (sharedCollection collection).members = sharedCollection collection :=
    obj_members rfl
  unfold applyCollectionSnapshot
  rw [collectionFound, suitesFound, ← sharedObject]
  dsimp only
  rw [sharedObject, sharedCollection_id, if_neg (not_not.mpr rfl)]

/-! ## Clients -/

def mcpRuntimeKeys : List String :=
  ["token", "oauthRefreshToken", "oauthIdentityToken", "oauthExpiresAt", "oauthTokenPrefix",
    "oauthRegisteredClientId", "oauthRegisteredClientSecret", "oauthRegisteredClientIdIssuedAt",
    "oauthRegisteredClientSecretExpiresAt", "oauthRegisteredTokenEndpointAuthMethod"]

structure ClientTyped (client : Json) : Prop where
  object : client.isObject
  runtime : ∀ key ∈ mcpRuntimeKeys, (client.get? key).isSome

theorem clearedMcpFields_nodup (client : Json) :
    ((clearedMcpFields client).map Prod.fst).Nodup := by
  unfold clearedMcpFields
  split <;> decide

theorem clearedMcpFields_keys (client : Json) :
    ∀ update ∈ clearedMcpFields client,
      update.1 ∈ mcpRuntimeKeys ∧ update.1 ≠ "oauthTokenPrefix" := by
  unfold clearedMcpFields
  split <;> decide

/-- The runtime fields of an OAuth 2 client, all cleared but its token prefix. -/
theorem mem_clearedMcpFields_keys {client : Json} (oauth : client.text "authType" = "oauth2") :
    ∀ key ∈ mcpRuntimeKeys, key ≠ "oauthTokenPrefix" →
      key ∈ (clearedMcpFields client).map Prod.fst := by
  unfold clearedMcpFields
  rw [if_pos oauth]
  decide

theorem clearedMcpFields_congr {client other : Json}
    (same : client.text "authType" = other.text "authType") :
    clearedMcpFields client = clearedMcpFields other := by
  unfold clearedMcpFields
  rw [same]

theorem shareableMcpClient_authType (client : Json) :
    (shareableMcpClient client).text "authType" = client.text "authType" := by
  apply text_congr
  apply get?_spread_of_not_mem
  intro updated
  rcases List.mem_map.mp updated with ⟨update, updateMem, keyEq⟩
  have runtime := (clearedMcpFields_keys client update updateMem).1
  rw [keyEq] at runtime
  exact absurd runtime (by decide)

@[simp]
theorem shareableMcpClient_id (client : Json) : (shareableMcpClient client).id = client.id := by
  apply text_congr
  apply get?_spread_of_not_mem
  intro updated
  rcases List.mem_map.mp updated with ⟨update, updateMem, keyEq⟩
  have runtime := (clearedMcpFields_keys client update updateMem).1
  rw [keyEq] at runtime
  exact absurd runtime (by decide)

/-- The token prefix is no runtime field that sharing clears. -/
theorem get?_shareableMcpClient_prefix (client : Json) :
    (shareableMcpClient client).get? "oauthTokenPrefix" = client.get? "oauthTokenPrefix" := by
  apply get?_spread_of_not_mem
  intro updated
  rcases List.mem_map.mp updated with ⟨update, updateMem, keyEq⟩
  exact (clearedMcpFields_keys client update updateMem).2 keyEq

@[simp]
theorem mergeClient_id (clients : List Json) (client : Json) :
    (mergeClient clients client).id = client.id := by
  unfold mergeClient
  split
  · split
    · apply text_congr
      apply get?_spread_of_not_mem
      intro updated
      exact absurd ((pick_keys_sublist _ _).subset updated) (by decide)
    · rfl
  · rfl

theorem shareableMcpClient_shareableMcpClient (client : Json) :
    shareableMcpClient (shareableMcpClient client) = shareableMcpClient client := by
  apply (spread_eq_self_iff rfl (clearedMcpFields_nodup _)).mpr
  intro update updateMem
  rw [clearedMcpFields_congr (shareableMcpClient_authType client)] at updateMem
  exact get?_spread (clearedMcpFields_nodup client) updateMem

/-- An OAuth 2 client comes back unchanged; another one only if it has no OAuth 2
runtime values. -/
def ClientKept (client : Json) : Prop :=
  client.text "authType" = "oauth2" ∨
    ∀ update ∈ clearedMcpFields client, client.get? update.1 = some update.2

theorem mergeClient_withoutMcpTokens_iff {clients : List Json} {client : Json}
    (typed : ClientTyped client) (own : lastWithId clients client.id = some client) :
    mergeClient clients (withoutMcpTokens client) = client ↔ ClientKept client := by
  have authType : (withoutMcpTokens client).text "authType" = client.text "authType" :=
    shareableMcpClient_authType client
  have sameId : (withoutMcpTokens client).id = client.id := shareableMcpClient_id client
  unfold mergeClient ClientKept
  rw [sameId, own, authType]
  dsimp only
  by_cases oauth : client.text "authType" = "oauth2"
  · refine iff_of_true ?_ (Or.inl oauth)
    rw [if_pos ⟨oauth, oauth⟩]
    have keys : (mcpRuntimeFields client).map Prod.fst = mcpRuntimeKeys :=
      pick_keys_of_present typed.runtime
    have restored : (withoutMcpTokens client).spread (mcpRuntimeFields client) =
        client.spread (mcpRuntimeFields client) := by
      apply spread_spread (clearedMcpFields_nodup client)
      · intro update updateMem
        exact typed.runtime update.1 (mem_pick.mp updateMem).1
      · intro update updateMem
        rw [keys]
        exact Or.inl (clearedMcpFields_keys client update updateMem).1
    rw [restored]
    apply (spread_eq_self_iff typed.object (by rw [keys]; decide)).mpr
    exact fun update updateMem => (mem_pick.mp updateMem).2
  · rw [if_neg fun both => oauth both.1]
    simp only [oauth, false_or]
    exact spread_eq_self_iff typed.object (clearedMcpFields_nodup client)

/-- A shared client that is applied and shared again comes out as it went in, unless
the token prefix of an OAuth 2 client of the workspace replaced its own. -/
theorem shareableMcpClient_of_restored_iff {clients : List Json} {client : Json}
    (localTyped : ∀ found, lastWithId clients client.id = some found → ClientTyped found) :
    shareableMcpClient (mergeClient clients (withoutMcpTokens (shareableMcpClient client))) =
        shareableMcpClient client ↔
      ∀ found, lastWithId clients client.id = some found →
        client.text "authType" = "oauth2" → found.text "authType" = "oauth2" →
          found.get? "oauthTokenPrefix" = client.get? "oauthTokenPrefix" := by
  have cleared : withoutMcpTokens (shareableMcpClient client) = shareableMcpClient client :=
    shareableMcpClient_shareableMcpClient client
  rw [cleared]
  unfold mergeClient
  rw [shareableMcpClient_id, shareableMcpClient_authType]
  cases found : lastWithId clients client.id with
  | none => simp [shareableMcpClient_shareableMcpClient]
  | some localValue =>
      simp only [Option.some.injEq, forall_eq']
      by_cases oauth : client.text "authType" = "oauth2" ∧ localValue.text "authType" = "oauth2"
      swap
      · rw [if_neg oauth, shareableMcpClient_shareableMcpClient]
        exact iff_of_true rfl fun left right => absurd ⟨left, right⟩ oauth
      rw [if_pos oauth]
      simp only [oauth, true_implies]
      have typed := localTyped localValue found
      have sublist := pick_keys_sublist localValue mcpRuntimeKeys
      have prefixKept := get?_shareableMcpClient_prefix client
      have authType : ((shareableMcpClient client).spread (mcpRuntimeFields localValue)).text
          "authType" = client.text "authType" := by
        rw [← shareableMcpClient_authType client]
        apply text_congr
        apply get?_spread_of_not_mem
        exact fun updated => absurd (sublist.subset updated) (by decide)
      constructor
      · intro same
        rcases Option.isSome_iff_exists.mp (typed.runtime "oauthTokenPrefix" (by decide)) with
          ⟨content, contentEq⟩
        rw [← prefixKept, ← same, shareableMcpClient, get?_spread_of_not_mem, contentEq]
        · exact (get?_spread (sublist.nodup (by decide))
            (mem_pick.mpr ⟨by simp [mcpRuntimeKeys], contentEq⟩)).symm
        · intro updated
          rcases List.mem_map.mp updated with ⟨update, updateMem, keyEq⟩
          exact (clearedMcpFields_keys _ update updateMem).2 keyEq
      · intro same
        have restored : ((shareableMcpClient client).spread (mcpRuntimeFields localValue)).spread
            (clearedMcpFields client) = (shareableMcpClient client).spread
              (clearedMcpFields client) := by
          apply spread_spread (sublist.nodup (by decide))
          · intro update updateMem
            exact isSome_get?_spread (Or.inr (List.mem_map_of_mem updateMem))
          · intro update updateMem
            rcases mem_pick.mp updateMem with ⟨keyMem, contentEq⟩
            by_cases isPrefix : update.1 = "oauthTokenPrefix"
            · refine Or.inr ?_
              rw [isPrefix, prefixKept, ← same, ← isPrefix]
              exact contentEq
            · exact Or.inl (mem_clearedMcpFields_keys oauth.1 update.1 keyMem isPrefix)
        rw [shareableMcpClient, clearedMcpFields_congr authType, restored,
          ← clearedMcpFields_congr (shareableMcpClient_authType client)]
        exact shareableMcpClient_shareableMcpClient client

end Brunomnia.Collaboration
