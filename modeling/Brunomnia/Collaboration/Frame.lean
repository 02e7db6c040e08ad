import Brunomnia.Collaboration.Sanitized

/-!
# What applying a snapshot changes

Applying a snapshot of a resource is meant to change the shared contents of that
resource only. This file states that for all kinds of resources and proves
exactly when it holds: replacing a collection drops its private
sub-environments, restoring credentials rewrites other collections and clients,
and incoming ids may collide with ids outside of the resource.
-/

namespace Brunomnia.Collaboration

open Json

namespace Workspace

structure UniqueIds (workspace : Workspace) : Prop where
  collections : (workspace.collections.map Json.id).Nodup
  environments : (workspace.environments.map Json.id).Nodup
  apiDesigns : (workspace.apiDesigns.map Json.id).Nodup
  mockServers : (workspace.mockServers.map Json.id).Nodup
  mcpClients : (workspace.mcpClients.map Json.id).Nodup
  testSuites : (workspace.testSuites.map Json.id).Nodup

/-- The parts of the resource types that snapshots depend on. -/
structure Typed (workspace : Workspace) : Prop where
  collections : ∀ collection ∈ workspace.collections, CollectionTyped collection
  apiDesigns : ∀ design ∈ workspace.apiDesigns, design.isObject
  mockServers : ∀ server ∈ workspace.mockServers, server.isObject
  mcpClients : ∀ client ∈ workspace.mcpClients, ClientTyped client

end Workspace

def privateSubEnvironments (collection : Json) : List Json :=
  (collection.list "subEnvironments").filter fun environment => environment.flag "private"

/-- What snapshots never carry stays in the collection. -/
structure PrivateKept (before after : Json) : Prop where
  subEnvironments : ∀ environment ∈ privateSubEnvironments before,
    environment ∈ after.list "subEnvironments"
  active : ∀ environment ∈ privateSubEnvironments before,
    before.text "activeSubEnvironmentId" = environment.id →
      after.text "activeSubEnvironmentId" = environment.id

/-- The same values in the same order, except for the contents of changeable ones. -/
def OthersUnchanged (changeable : Json → Prop) (before after : List Json) : Prop :=
  List.Forall₂ (fun value value' =>
    value'.id = value.id ∧ (¬ changeable value → value' = value)) before after

/-- An application of a snapshot that changes the shared contents of its resource only. -/
structure ChangesOnly (before : Workspace) (kind : CollaborationResourceKind) (id : String)
    (snapshot : Json) (after : Workspace) : Prop where
  collections : OthersUnchanged (fun collection => kind = .collection ∧ collection.id = id)
    before.collections after.collections
  privateKept : kind = .collection → ∀ collection ∈ before.collections, collection.id = id →
    ∀ collection' ∈ after.collections, collection'.id = id → PrivateKept collection collection'
  otherEnvironments : (before.environments.filter fun environment =>
      decide (¬ (kind = .environment ∧
        environment.id ∈ (publicBranch before.environments id).map Json.id))).Sublist
    after.environments
  environments : ∀ environment ∈ after.environments, environment ∈ before.environments ∨
    (kind = .environment ∧ environment ∈ snapshot.list "environments")
  apiDesigns : OthersUnchanged (fun design => kind = .apiDesign ∧ design.id = id)
    before.apiDesigns after.apiDesigns
  mockServers : OthersUnchanged (fun server => kind = .mockServer ∧ server.id = id)
    before.mockServers after.mockServers
  mcpClients : OthersUnchanged (fun client => kind = .mcpClient ∧ client.id = id)
    before.mcpClients after.mcpClients
  testSuites : (after.testSuites.filter fun suite =>
      decide (¬ (kind = .collection ∧ suite.text "collectionId" = id))) =
    before.testSuites.filter fun suite =>
      decide (¬ (kind = .collection ∧ suite.text "collectionId" = id))
  content : after.content = before.content
  uniqueIds : after.UniqueIds

/-- When applying a snapshot changes the shared contents of its resource only. -/
def FrameSafe (workspace : Workspace) (kind : CollaborationResourceKind) (id : String)
    (snapshot : Json) : Prop :=
  match kind with
  | .collection =>
      (∀ collection ∈ workspace.collections, collection.id = id →
        privateSubEnvironments collection = []) ∧
      (∀ collection ∈ workspace.collections, collection.id ≠ id →
        CollectionKept (localAuth workspace) collection) ∧
      (∀ client ∈ workspace.mcpClients, ClientKept client) ∧
      ∀ suite ∈ workspace.testSuites, suite.text "collectionId" ≠ id →
        suite.id ∉ (snapshot.list "testSuites").map Json.id
  | .environment =>
      ∀ environment ∈ workspace.environments,
        environment.id ∉ (publicBranch workspace.environments id).map Json.id →
          environment.id ∉ (snapshot.list "environments").map Json.id
  | .apiDesign | .mockServer => True
  | .mcpClient =>
      (∀ collection ∈ workspace.collections, CollectionKept (localAuth workspace) collection) ∧
      ∀ client ∈ workspace.mcpClients, client.id ≠ id → ClientKept client

/-! ## Lists of values -/

theorem othersUnchanged_map_iff {changeable : Json → Prop} {values : List Json}
    {change : Json → Json} :
    OthersUnchanged changeable values (values.map change) ↔
      ∀ value ∈ values, (change value).id = value.id ∧
        (¬ changeable value → change value = value) := by
  rw [OthersUnchanged, List.forall₂_map_right_iff, List.forall₂_same]

theorem othersUnchanged_refl (changeable : Json → Prop) (values : List Json) :
    OthersUnchanged changeable values values := by
  rw [OthersUnchanged, List.forall₂_same]
  exact fun value _ => ⟨rfl, fun _ => rfl⟩

theorem OthersUnchanged.ids {changeable : Json → Prop} {before after : List Json}
    (unchanged : OthersUnchanged changeable before after) :
    after.map Json.id = before.map Json.id := by
  induction unchanged with
  | nil => rfl
  | cons head _ ih => rw [List.map_cons, List.map_cons, head.1, ih]

theorem lastWithId_of_mem {values : List Json} (nodup : (values.map Json.id).Nodup) {value : Json}
    (valueMem : value ∈ values) : lastWithId values value.id = some value := by
  cases found : lastWithId values value.id with
  | none =>
      have absent := List.find?_eq_none.mp found value (List.mem_reverse.mpr valueMem)
      simp at absent
  | some other =>
      have otherMem := List.mem_reverse.mp (List.mem_of_find?_eq_some found)
      have otherId : other.id = value.id := by simpa using List.find?_some found
      rw [List.inj_on_of_nodup_map nodup otherMem valueMem otherId]

theorem entriesTyped_localAuth {workspace : Workspace} (typed : workspace.Typed) :
    EntriesTyped (localAuth workspace) := by
  intro entry entryMem
  rcases List.mem_flatMap.mp entryMem with ⟨collection, collectionMem, entryMem⟩
  have collectionTyped := typed.collections collection collectionMem
  rcases List.mem_append.mp entryMem with requestEntry | folderEntry
  · rcases List.mem_filterMap.mp requestEntry with ⟨request, requestMem, entryEq⟩
    rcases Option.map_eq_some_iff.mp entryEq with ⟨auth, authEq, rfl⟩
    rcases collectionTyped.requests with ⟨requests, requestsEq, requestsTyped⟩
    rw [list_of_get? requestsEq] at requestMem
    rcases (requestsTyped request requestMem).auth with ⟨typedAuth, typedAuthEq, authTyped⟩
    obtain rfl : typedAuth = auth := Option.some.inj (typedAuthEq.symm.trans authEq)
    exact authTyped
  · rcases List.mem_filterMap.mp folderEntry with ⟨folder, folderMem, entryEq⟩
    rcases Option.map_eq_some_iff.mp entryEq with ⟨auth, authEq, rfl⟩
    have authFound := (Option.filter_eq_some_iff.mp authEq).1
    cases foldersEq : collection.get? "folders" with
    | none =>
        have empty : collection.list "folders" = [] := by rw [list, foldersEq]
        rw [empty] at folderMem
        simp at folderMem
    | some value =>
        rcases collectionTyped.folders value foldersEq with ⟨folders, rfl, foldersTyped⟩
        rw [list_of_get? foldersEq] at folderMem
        exact (foldersTyped folder folderMem).auth auth authFound

/-! ## Restoring credentials -/

section Restoring

variable {workspace : Workspace}

theorem restoredClients_othersUnchanged_iff (typed : workspace.Typed)
    (unique : workspace.UniqueIds) (changeable : Json → Prop) [DecidablePred changeable]
    (incoming : Json → Json) (sameId : ∀ client, (incoming client).id = client.id)
    (kept : ∀ client, ¬ changeable client → incoming client = client) :
    OthersUnchanged changeable workspace.mcpClients
        (((workspace.mcpClients.map incoming).map withoutMcpTokens).map
          (mergeClient workspace.mcpClients)) ↔
      ∀ client ∈ workspace.mcpClients, ¬ changeable client → ClientKept client := by
  rw [List.map_map, List.map_map, othersUnchanged_map_iff]
  refine forall₂_congr fun client clientMem => ?_
  have restored_iff := mergeClient_withoutMcpTokens_iff (typed.mcpClients client clientMem)
    (lastWithId_of_mem unique.mcpClients clientMem)
  simp only [Function.comp_apply, mergeClient_id]
  constructor
  · rintro ⟨_, unchanged⟩ other
    rw [kept client other] at unchanged
    exact restored_iff.mp (unchanged other)
  · intro clientKept
    refine ⟨(shareableMcpClient_id _).trans (sameId client), fun other => ?_⟩
    rw [kept client other]
    exact restored_iff.mpr (clientKept other)

theorem restoredCollections_othersUnchanged_iff (typed : workspace.Typed)
    (changeable : Json → Prop) [DecidablePred changeable]
    (incoming : Json → Json) (sameId : ∀ collection, (incoming collection).id = collection.id)
    (kept : ∀ collection, ¬ changeable collection → incoming collection = collection) :
    OthersUnchanged changeable workspace.collections
        (((workspace.collections.map incoming).map withoutCollectionTokens).map
          (mergeCollectionAuth (localAuth workspace))) ↔
      ∀ collection ∈ workspace.collections, ¬ changeable collection →
        CollectionKept (localAuth workspace) collection := by
  rw [List.map_map, List.map_map, othersUnchanged_map_iff]
  refine forall₂_congr fun collection collectionMem => ?_
  have restored_iff := mergeCollectionAuth_withoutCollectionTokens_iff
    (typed.collections collection collectionMem) (entriesTyped_localAuth typed)
  simp only [Function.comp_apply, mergeCollectionAuth_id, withoutCollectionTokens_id]
  constructor
  · rintro ⟨_, unchanged⟩ other
    rw [kept collection other] at unchanged
    exact restored_iff.mp (unchanged other)
  · intro collectionKept
    refine ⟨sameId collection, fun other => ?_⟩
    rw [kept collection other]
    exact restored_iff.mpr (collectionKept other)

end Restoring

/-! ## One kind at a time -/

theorem replaceById_eq_map (values : List Json) (id : String) (value : Json) :
    replaceById values id value =
      values.map fun candidate => if candidate.id = id then value else candidate := rfl

theorem replaceById_othersUnchanged {changeable : Json → Prop} (values : List Json) {value : Json}
    (allowed : ∀ candidate : Json, candidate.id = value.id → changeable candidate) :
    OthersUnchanged changeable values (replaceById values value.id value) := by
  rw [replaceById_eq_map, othersUnchanged_map_iff]
  intro candidate _
  by_cases idEq : candidate.id = value.id
  · exact ⟨by rw [if_pos idEq, idEq], fun other => absurd (allowed candidate idEq) other⟩
  · exact ⟨by rw [if_neg idEq], fun _ => by rw [if_neg idEq]⟩

theorem filter_environments_of_not_environment {kind : CollaborationResourceKind}
    (notEnvironment : kind ≠ .environment) (ids : List String) (environments : List Json) :
    (environments.filter fun environment =>
      decide (¬ (kind = .environment ∧ environment.id ∈ ids))) = environments := by
  apply List.filter_eq_self.mpr
  intro environment _
  simp [notEnvironment]

section Kinds

variable {workspace : Workspace} (typed : workspace.Typed) (unique : workspace.UniqueIds)

include unique in
theorem changesOnly_of_replaced_design {value snapshot : Json} :
    ChangesOnly workspace .apiDesign value.id snapshot
      { workspace with apiDesigns := replaceById workspace.apiDesigns value.id value } := by
  have designs : OthersUnchanged (fun design => CollaborationResourceKind.apiDesign = .apiDesign ∧
      design.id = value.id) workspace.apiDesigns
        (replaceById workspace.apiDesigns value.id value) :=
    replaceById_othersUnchanged _ fun _ idEq => ⟨rfl, idEq⟩
  constructor
  case apiDesigns => exact designs
  case privateKept => exact fun kind => absurd kind (by decide)
  case otherEnvironments =>
      rw [filter_environments_of_not_environment (by decide)]
  case environments => exact fun _ environmentMem => Or.inl environmentMem
  case testSuites => rfl
  case content => rfl
  case uniqueIds => exact { unique with apiDesigns := designs.ids ▸ unique.apiDesigns }
  all_goals exact othersUnchanged_refl _ _

include unique in
theorem changesOnly_of_replaced_server {value snapshot : Json} :
    ChangesOnly workspace .mockServer value.id snapshot
      { workspace with mockServers := replaceById workspace.mockServers value.id value } := by
  have servers : OthersUnchanged (fun server => CollaborationResourceKind.mockServer = .mockServer ∧
      server.id = value.id) workspace.mockServers
        (replaceById workspace.mockServers value.id value) :=
    replaceById_othersUnchanged _ fun _ idEq => ⟨rfl, idEq⟩
  constructor
  case mockServers => exact servers
  case privateKept => exact fun kind => absurd kind (by decide)
  case otherEnvironments =>
      rw [filter_environments_of_not_environment (by decide)]
  case environments => exact fun _ environmentMem => Or.inl environmentMem
  case testSuites => rfl
  case content => rfl
  case uniqueIds => exact { unique with mockServers := servers.ids ▸ unique.mockServers }
  all_goals exact othersUnchanged_refl _ _

include typed unique in
/-- Replacing a client also restores the credentials of all collections and clients. -/
theorem changesOnly_of_replaced_client_iff (value snapshot : Json) :
    ChangesOnly workspace .mcpClient value.id snapshot
        (mergeLocalOAuth2RuntimeCredentials workspace
          { workspace with mcpClients := replaceById workspace.mcpClients value.id value }) ↔
      FrameSafe workspace .mcpClient value.id snapshot := by
  have collections_iff := restoredCollections_othersUnchanged_iff typed
    (fun collection => CollaborationResourceKind.mcpClient = .collection ∧
      collection.id = value.id) id (fun _ => rfl) (fun _ _ => rfl)
  have clients_iff := restoredClients_othersUnchanged_iff typed unique
    (fun client => CollaborationResourceKind.mcpClient = .mcpClient ∧ client.id = value.id)
    (fun candidate => if candidate.id = value.id then value else candidate)
    (by
      intro client
      by_cases idEq : client.id = value.id
      · rw [if_pos idEq, idEq]
      · rw [if_neg idEq])
    (fun client other => if_neg fun idEq => other ⟨rfl, idEq⟩)
  simp only [List.map_id, reduceCtorEq, false_and, not_false_eq_true, true_implies]
    at collections_iff
  simp only [true_and] at clients_iff
  constructor
  · intro changes
    have clients := changes.mcpClients
    simp only [true_and] at clients
    have collections := changes.collections
    simp only [reduceCtorEq, false_and] at collections
    exact ⟨collections_iff.mp collections, clients_iff.mp clients⟩
  · rintro ⟨collectionsKept, clientsKept⟩
    have collections := collections_iff.mpr collectionsKept
    have clients := clients_iff.mpr clientsKept
    constructor
    case collections => simp only [reduceCtorEq, false_and]; exact collections
    case mcpClients => simp only [true_and]; exact clients
    case privateKept => exact fun kind => absurd kind (by decide)
    case otherEnvironments =>
        rw [filter_environments_of_not_environment (by decide)]
        exact List.Sublist.refl _
    case environments => exact fun _ environmentMem => Or.inl environmentMem
    case testSuites => rfl
    case content => rfl
    case uniqueIds =>
        exact { unique with
          collections := collections.ids ▸ unique.collections
          mcpClients := clients.ids ▸ unique.mcpClients }
    all_goals exact othersUnchanged_refl _ _

include unique in
/-- Incoming environments replace the current branch; only their ids can collide. -/
theorem changesOnly_of_replaced_environments_iff {id : String} {incoming : List Json}
    (incomingUnique : (incoming.map Json.id).Nodup) :
    ChangesOnly workspace .environment id (.obj [("environments", .arr incoming)])
        { workspace with
          environments := (workspace.environments.filter fun environment =>
            decide (environment.id ∉ (publicBranch workspace.environments id).map Json.id)) ++
              incoming } ↔
      FrameSafe workspace .environment id (.obj [("environments", .arr incoming)]) := by
  have incomingList : (Json.obj [("environments", .arr incoming)]).list "environments" =
      incoming := list_of_get? (by simp [get?, members])
  set outside := workspace.environments.filter fun environment =>
    decide (environment.id ∉ (publicBranch workspace.environments id).map Json.id) with outsideEq
  have outsideUnique : (outside.map Json.id).Nodup :=
    unique.environments.sublist (List.filter_sublist.map _)
  have unique_iff : ((outside ++ incoming).map Json.id).Nodup ↔
      FrameSafe workspace .environment id (.obj [("environments", .arr incoming)]) := by
    rw [List.map_append, List.nodup_append]
    unfold FrameSafe
    rw [incomingList]
    constructor
    · rintro ⟨_, _, disjoint⟩ environment environmentMem notBranch incomingMem
      refine disjoint environment.id (List.mem_map_of_mem ?_) environment.id incomingMem rfl
      exact List.mem_filter.mpr ⟨environmentMem, by simpa using notBranch⟩
    · intro safe
      refine ⟨outsideUnique, incomingUnique, ?_⟩
      rintro _ outsideMem _ incomingMem rfl
      rcases List.mem_map.mp outsideMem with ⟨environment, environmentMem, rfl⟩
      rcases List.mem_filter.mp environmentMem with ⟨environmentMem, notBranch⟩
      exact safe environment environmentMem (by simpa using notBranch) incomingMem
  constructor
  · exact fun changes => unique_iff.mp changes.uniqueIds.environments
  · intro safe
    constructor
    case privateKept => exact fun kind => absurd kind (by decide)
    case otherEnvironments =>
        simp only [true_and]
        exact List.sublist_append_left _ _
    case environments =>
        intro environment environmentMem
        rw [incomingList]
        rcases List.mem_append.mp environmentMem with outsideMem | incomingMem
        · exact Or.inl (List.mem_of_mem_filter outsideMem)
        · exact Or.inr ⟨rfl, incomingMem⟩
    case testSuites => rfl
    case content => rfl
    case uniqueIds => exact { unique with environments := unique_iff.mpr safe }
    all_goals exact othersUnchanged_refl _ _

include typed unique in
/-- Replacing a collection drops its private sub-environments, appends its test
suites, and restores the credentials of all collections and clients. -/
theorem changesOnly_of_replaced_collection_iff {shared : Json} {testSuites : List Json}
    (ownSuites : ∀ suite ∈ testSuites, suite.text "collectionId" = shared.id)
    (suitesUnique : (testSuites.map Json.id).Nodup) :
    let snapshot := Json.obj [("collection", sharedCollection shared),
      ("testSuites", .arr testSuites)]
    ChangesOnly workspace .collection shared.id snapshot
        (mergeLocalOAuth2RuntimeCredentials workspace
          { workspace with
            collections := replaceById workspace.collections shared.id (sharedCollection shared)
            testSuites := (workspace.testSuites.filter fun suite =>
              suite.text "collectionId" ≠ shared.id) ++ testSuites }) ↔
      FrameSafe workspace .collection shared.id snapshot := by
  intro snapshot
  have suitesList : snapshot.list "testSuites" = testSuites :=
    list_of_get? (by simp [snapshot, get?, members, lookup_cons_ite])
  set after := mergeLocalOAuth2RuntimeCredentials workspace
    { workspace with
      collections := replaceById workspace.collections shared.id (sharedCollection shared)
      testSuites := (workspace.testSuites.filter fun suite =>
        suite.text "collectionId" ≠ shared.id) ++ testSuites } with afterEq
  set incoming : Json → Json := fun candidate =>
    if candidate.id = shared.id then sharedCollection shared else candidate with incomingEq
  have incomingId : ∀ candidate, (incoming candidate).id = candidate.id := by
    intro candidate
    simp only [incomingEq]
    by_cases idEq : candidate.id = shared.id
    · rw [if_pos idEq, sharedCollection_id, idEq]
    · rw [if_neg idEq]
  have afterCollections : after.collections =
      ((workspace.collections.map incoming).map withoutCollectionTokens).map
        (mergeCollectionAuth (localAuth workspace)) := rfl
  have collections_iff := restoredCollections_othersUnchanged_iff typed
    (fun collection => CollaborationResourceKind.collection = .collection ∧
      collection.id = shared.id) incoming incomingId
    (fun _ other => if_neg fun idEq => other ⟨rfl, idEq⟩)
  have clients_iff := restoredClients_othersUnchanged_iff typed unique
    (fun client => CollaborationResourceKind.collection = .mcpClient ∧ client.id = shared.id)
    id (fun _ => rfl) (fun _ _ => rfl)
  simp only [true_and] at collections_iff
  simp only [List.map_id, reduceCtorEq, false_and, not_false_eq_true, true_implies] at clients_iff
  have afterSuites : after.testSuites = (workspace.testSuites.filter fun suite =>
      suite.text "collectionId" ≠ shared.id) ++ testSuites := rfl
  have suites_iff : (after.testSuites.map Json.id).Nodup ↔
      ∀ suite ∈ workspace.testSuites, suite.text "collectionId" ≠ shared.id →
        suite.id ∉ testSuites.map Json.id := by
    rw [afterSuites, List.map_append, List.nodup_append]
    constructor
    · rintro ⟨_, _, disjoint⟩ suite suiteMem other incomingMem
      refine disjoint suite.id (List.mem_map_of_mem ?_) suite.id incomingMem rfl
      exact List.mem_filter.mpr ⟨suiteMem, by simpa using other⟩
    · intro safe
      refine ⟨unique.testSuites.sublist (List.filter_sublist.map _), suitesUnique, ?_⟩
      rintro _ otherMem _ incomingMem rfl
      rcases List.mem_map.mp otherMem with ⟨suite, suiteMem, rfl⟩
      rcases List.mem_filter.mp suiteMem with ⟨suiteMem, other⟩
      exact safe suite suiteMem (by simpa using other) incomingMem
  -- The collection that is written back has the shared sub-environments only.
  have publicOnly : ∀ collection ∈ workspace.collections, collection.id = shared.id →
      ∃ collection' ∈ after.collections, collection'.id = shared.id ∧
        ∀ environment ∈ collection'.list "subEnvironments", environment.flag "private" = false := by
    intro collection collectionMem idEq
    refine ⟨mergeCollectionAuth (localAuth workspace)
      (withoutCollectionTokens (incoming collection)), ?_, ?_, ?_⟩
    · rw [afterCollections]
      exact List.mem_map_of_mem (List.mem_map_of_mem (List.mem_map_of_mem collectionMem))
    · rw [mergeCollectionAuth_id, withoutCollectionTokens_id, incomingId, idEq]
    · have written : (mergeCollectionAuth (localAuth workspace)
          (withoutCollectionTokens (incoming collection))).list "subEnvironments" =
            sharedSubEnvironments shared := by
        simp only [incomingEq]
        rw [if_pos idEq]
        apply list_of_get?
        rw [mergeCollectionAuth, get?_withCollectionAuth _ _ _ (by decide) (by decide),
          withoutCollectionTokens, get?_withCollectionAuth _ _ _ (by decide) (by decide),
          sharedCollection, get?_withCollectionAuth _ _ _ (by decide) (by decide),
          get?_shared_subEnvironments]
      rw [written]
      exact fun environment => sharedSubEnvironments_public
  constructor
  · intro changes
    refine ⟨?_, ?_, ?_, ?_⟩
    · intro collection collectionMem idEq
      rcases publicOnly collection collectionMem idEq with
        ⟨written, writtenMem, writtenId, isPublic⟩
      have kept :=
        changes.privateKept rfl collection collectionMem idEq written writtenMem writtenId
      rw [List.eq_nil_iff_forall_not_mem]
      intro environment environmentMem
      have isPrivate := (List.mem_filter.mp environmentMem).2
      rw [isPublic environment (kept.subEnvironments environment environmentMem)] at isPrivate
      simp at isPrivate
    · have collections := changes.collections
      simp only [true_and] at collections
      exact collections_iff.mp collections
    · have clients := changes.mcpClients
      simp only [reduceCtorEq, false_and] at clients
      exact clients_iff.mp clients
    · rw [suitesList]
      exact suites_iff.mp changes.uniqueIds.testSuites
  · rintro ⟨noPrivate, collectionsKept, clientsKept, suitesSafe⟩
    have collections := collections_iff.mpr collectionsKept
    have clients := clients_iff.mpr clientsKept
    rw [suitesList] at suitesSafe
    constructor
    case collections => simp only [true_and]; exact collections
    case mcpClients => simp only [reduceCtorEq, false_and]; exact clients
    case privateKept =>
        intro _ collection collectionMem idEq written _ _
        have none := noPrivate collection collectionMem idEq
        exact ⟨by simp [none], by simp [none]⟩
    case otherEnvironments =>
        rw [filter_environments_of_not_environment (by decide)]
        exact List.Sublist.refl _
    case environments => exact fun _ environmentMem => Or.inl environmentMem
    case testSuites =>
        simp only [true_and]
        rw [afterSuites, List.filter_append, List.filter_filter]
        have ownDropped : testSuites.filter (fun suite =>
            decide (¬ suite.text "collectionId" = shared.id)) = [] := by
          apply List.filter_eq_nil_iff.mpr
          intro suite suiteMem
          simp [ownSuites suite suiteMem]
        rw [ownDropped, List.append_nil]
        simp
    case content => rfl
    case uniqueIds =>
        exact { unique with
          collections := collections.ids ▸ unique.collections
          mcpClients := clients.ids ▸ unique.mcpClients
          testSuites := suites_iff.mpr suitesSafe }
    all_goals exact othersUnchanged_refl _ _

end Kinds

/-! ## All kinds -/

/-- Applying a snapshot of a resource of the workspace changes the shared contents of
that resource only, exactly when it is safe to apply. -/
theorem applyCollaborationSnapshot_changesOnly_iff {earlier workspace : Workspace}
    (earlierTyped : earlier.Typed) (earlierUnique : earlier.UniqueIds) (typed : workspace.Typed)
    (unique : workspace.UniqueIds) {resource : CollaborationResource}
    (resourceMem : resource ∈ collaborationResources workspace) {snapshot : Json}
    (taken : collaborationResourceSnapshot earlier resource.key = .ok snapshot) :
    (∃ after, applyCollaborationSnapshot workspace resource.key snapshot = .ok after ∧
        ChangesOnly workspace resource.kind resource.id snapshot after) ↔
      FrameSafe workspace resource.kind resource.id snapshot := by
  rw [resource_key_eq resourceMem] at taken ⊢
  rcases mem_collaborationResources.mp resourceMem with ⟨value, valueMem, valueEq⟩
  have listed : Listed workspace resource.kind resource.id :=
    ⟨value, valueMem, by rw [← valueEq]; rfl⟩
  rcases listed_of_snapshot taken with ⟨earlierListed, taken⟩
  generalize resource.id = id at taken listed earlierListed ⊢
  cases kind : resource.kind with
  | collection =>
      rw [kind] at taken
      rcases snapshotOf_collection_cases taken with ⟨shared, _, rfl, rfl⟩
      rw [applyCollaborationSnapshot_resourceKey]
      dsimp only
      rw [applyCollectionSnapshot_shared]
      simp only [Except.ok.injEq, exists_eq_left']
      apply changesOnly_of_replaced_collection_iff typed unique
      · intro suite suiteMem
        simpa using (List.mem_filter.mp suiteMem).2
      · exact earlierUnique.testSuites.sublist (List.filter_sublist.map _)
  | environment =>
      rw [kind] at taken listed
      rcases snapshotOf_environment_cases taken with ⟨rfl, rooted⟩
      rw [applyCollaborationSnapshot_resourceKey]
      dsimp only
      rw [applyEnvironmentSnapshot_of_listed listed rooted]
      simp only [Except.ok.injEq, exists_eq_left']
      apply changesOnly_of_replaced_environments_iff unique
      exact earlierUnique.environments.sublist
        ((List.filter_sublist.trans List.filter_sublist).map _)
  | apiDesign =>
      rw [kind] at taken earlierListed
      rcases exists_find_of_mem earlierListed with ⟨design, designMem, rfl, found⟩
      have designFound : earlier.apiDesigns.find? (fun candidate => candidate.id = design.id) =
          some design := found
      simp only [snapshotOf, designFound, Except.ok.injEq] at taken
      rw [← taken]
      refine iff_of_true ?_ trivial
      have applied := snapshotValue_objectOf "apiDesign"
        (earlierTyped.apiDesigns design designMem)
      refine ⟨_, ?_, changesOnly_of_replaced_design unique⟩
      rw [objectOf, applyCollaborationSnapshot_resourceKey]
      dsimp only
      rw [← objectOf, applied]
      rfl
  | mockServer =>
      rw [kind] at taken earlierListed
      rcases exists_find_of_mem earlierListed with ⟨server, serverMem, rfl, found⟩
      have serverFound : earlier.mockServers.find? (fun candidate => candidate.id = server.id) =
          some server := found
      simp only [snapshotOf, serverFound, Except.ok.injEq] at taken
      rw [← taken]
      refine iff_of_true ?_ trivial
      have applied := snapshotValue_objectOf "mockServer"
        (earlierTyped.mockServers server serverMem)
      refine ⟨_, ?_, changesOnly_of_replaced_server unique⟩
      rw [objectOf, applyCollaborationSnapshot_resourceKey]
      dsimp only
      rw [← objectOf, applied]
      rfl
  | mcpClient =>
      rw [kind] at taken earlierListed
      rcases exists_find_of_mem earlierListed with ⟨client, clientMem, rfl, found⟩
      have clientFound : earlier.mcpClients.find? (fun candidate => candidate.id = client.id) =
          some client := found
      simp only [snapshotOf, clientFound, Option.map_some, Except.ok.injEq] at taken
      rw [← taken, objectOf, applyCollaborationSnapshot_resourceKey]
      dsimp only
      have applied := snapshotValue_objectOf "mcpClient"
        (show (shareableMcpClient client).isObject from rfl)
      rw [shareableMcpClient_id] at applied
      rw [← objectOf, applied]
      simp only [Except.map, Except.ok.injEq, exists_eq_left']
      have replaced_iff := changesOnly_of_replaced_client_iff typed unique
        (shareableMcpClient client) (objectOf "mcpClient" (some (shareableMcpClient client)))
      rwa [shareableMcpClient_id] at replaced_iff

/-- A collection with the given sub-environments and no requests. -/
def plainCollection (id : String) (subEnvironments : List Json) (activeId : String) : Json :=
  .obj [("id", .str id), ("requests", .arr []), ("folders", .arr []),
    ("subEnvironments", .arr subEnvironments), ("activeSubEnvironmentId", .str activeId)]

def collectionsWorkspace (collections : List Json) : Workspace where
  collections := collections
  environments := []
  apiDesigns := []
  mockServers := []
  mcpClients := []
  testSuites := []
  content := .null

theorem plainCollection_typed (id : String) (subEnvironments : List Json) (activeId : String) :
    CollectionTyped (plainCollection id subEnvironments activeId) where
  object := rfl
  requests := ⟨[], by simp [plainCollection, get?, members, lookup_cons_ite], by simp⟩
  folders := by
    intro value found
    refine ⟨[], ?_, by simp⟩
    simpa [plainCollection, get?, members, lookup_cons_ite, eq_comm] using found

theorem plainCollections_typed {collections : List Json}
    (plain : ∀ collection ∈ collections, CollectionTyped collection) :
    (collectionsWorkspace collections).Typed :=
  ⟨plain, by simp [collectionsWorkspace], by simp [collectionsWorkspace],
    by simp [collectionsWorkspace]⟩

theorem collectionsWorkspace_uniqueIds {collections : List Json}
    (nodup : (collections.map Json.id).Nodup) : (collectionsWorkspace collections).UniqueIds :=
  ⟨nodup, by simp [collectionsWorkspace], by simp [collectionsWorkspace],
    by simp [collectionsWorkspace], by simp [collectionsWorkspace],
    by simp [collectionsWorkspace]⟩

/-- A private sub-environment, selected in its collection. -/
def localEnvironment : Json :=
  .obj [("id", .str "local"), ("variables", .arr []), ("private", .bool true)]

def localWorkspace : Workspace :=
  collectionsWorkspace [plainCollection "orders" [localEnvironment] "local"]

def ordersSnapshot : Json :=
  .obj [("collection", plainCollection "orders" [] ""), ("testSuites", .arr [])]

/-- Writing the snapshot of a collection back loses its private sub-environment. -/
theorem private_environment_lost :
    localWorkspace.Typed ∧ localWorkspace.UniqueIds ∧
      collaborationResourceSnapshot localWorkspace "collection:orders" = .ok ordersSnapshot ∧
      ¬ ∃ after, applyCollaborationSnapshot localWorkspace "collection:orders" ordersSnapshot =
          .ok after ∧
        ChangesOnly localWorkspace .collection "orders" ordersSnapshot after := by
  refine ⟨plainCollections_typed ?_, collectionsWorkspace_uniqueIds (by decide), by decide, ?_⟩
  · intro collection collectionMem
    rw [List.mem_singleton.mp collectionMem]
    exact plainCollection_typed _ _ _
  · rintro ⟨after, applied, changes⟩
    have written : applyCollaborationSnapshot localWorkspace "collection:orders" ordersSnapshot =
        .ok (collectionsWorkspace [plainCollection "orders" [] ""]) := by decide
    rw [written, Except.ok.injEq] at applied
    subst after
    have kept := changes.privateKept rfl (plainCollection "orders" [localEnvironment] "local")
      (by decide) (by decide) (plainCollection "orders" [] "") (by decide) (by decide)
    exact absurd (kept.subEnvironments localEnvironment (by decide)) (by decide)

def siblingsWorkspace : Workspace :=
  collectionsWorkspace [plainCollection "orders" [] "", plainCollection "billing" [] ""]

theorem sibling_unchanged :
    ∃ after, applyCollaborationSnapshot siblingsWorkspace "collection:orders" ordersSnapshot =
        .ok after ∧
      ChangesOnly siblingsWorkspace .collection "orders" ordersSnapshot after := by
  have typed : siblingsWorkspace.Typed := by
    apply plainCollections_typed
    simp [plainCollection_typed]
  have unique : siblingsWorkspace.UniqueIds := collectionsWorkspace_uniqueIds (by decide)
  have listed : ⟨"collection:orders", .collection, "orders", ""⟩ ∈
      collaborationResources siblingsWorkspace := by decide
  refine (applyCollaborationSnapshot_changesOnly_iff typed unique typed unique listed
    (by decide)).mpr ?_
  refine ⟨by decide, ?_, by simp [siblingsWorkspace, collectionsWorkspace],
    by simp [siblingsWorkspace, collectionsWorkspace]⟩
  intro collection collectionMem other
  simp only [siblingsWorkspace, collectionsWorkspace, List.mem_cons, List.not_mem_nil,
    or_false] at collectionMem
  rcases collectionMem with rfl | rfl
  · exact absurd (by decide) other
  · have noRequests : (plainCollection "billing" [] "").list "requests" = [] := by decide
    have noFolders : (plainCollection "billing" [] "").list "folders" = [] := by decide
    exact ⟨by decide, by simp [noRequests], by simp [noFolders]⟩

end Brunomnia.Collaboration
