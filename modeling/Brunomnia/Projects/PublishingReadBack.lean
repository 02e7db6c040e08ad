import Brunomnia.Projects.Ancestry
import Brunomnia.Projects.Publishing

/-!
# What a device reads back of its own project

A device that reads the project it wrote, or pulls the revision it pushed, has its own workspace
again exactly if every value that stayed behind is found again: ids tell environments apart,
credentials are filed under keys of their own, and a client that holds OAuth values uses OAuth.
-/

namespace Brunomnia.Projects

open Library

/-! ## Loaded workspaces -/

structure LoadedCollection (collection : Collection) : Prop where
  folders : collection.folders = some collection.folderList
  activeSubEnvironmentId : collection.activeSubEnvironmentId = some "" ∨
    ∃ environment ∈ collection.subEnvironmentList,
      some environment.id = collection.activeSubEnvironmentId
  subEnvironments : collection.subEnvironments = some collection.subEnvironmentList
  secrets : ∀ environment ∈ collection.subEnvironmentList, environment.isPrivate = false →
    ∀ row ∈ environment.rows, isSecret row = false

/-- What loading gives a workspace. -/
structure Loaded (workspace : Workspace) : Prop where
  version : workspace.version = 52
  collections : ∀ collection ∈ workspace.collections, LoadedCollection collection
  activeEnvironmentId : (workspace.environments = [] ∧ workspace.activeEnvironmentId = "") ∨
    ∃ environment ∈ workspace.environments, environment.id = workspace.activeEnvironmentId
  cookies : workspace.cookies = []
  certificates : workspace.certificates = emptyWorkspaceCertificates
  governance : ∃ members, workspace.governance = .obj members
  currentMemberId : ∃ id, workspace.governance.get? "currentMemberId" = some (.str id)

/-! ## The same workspace -/

structure SameCollection (first second : Collection) : Prop where
  subEnvironments : first.subEnvironmentList.Perm second.subEnvironmentList
  rest : { first with subEnvironments := second.subEnvironments } = second

/-- The workspaces agree up to the order of environments and the fields that say where and when
the project was stored. -/
structure SameUpToOrder (first second : Workspace) : Prop where
  environments : first.environments.Perm second.environments
  collections : List.Forall₂ SameCollection first.collections second.collections
  project : first.project.membersExcept ["mode", "path"] =
    second.project.membersExcept ["mode", "path"]
  collaborationPath : first.collaboration.path = second.collaboration.path
  repository : first.collaboration.repository = second.collaboration.repository
  collaboration :
    first.collaboration.content.membersExcept ["mode", "revision", "lastPulledAt"] =
      second.collaboration.content.membersExcept ["mode", "revision", "lastPulledAt"]
  rest : { first with
    environments := second.environments
    collections := second.collections
    project := second.project
    collaboration := second.collaboration } = second

/-! ## Values that are found again -/

/-- A collection has the private sub-environments of the one that its id finds, and selects the
same one of them. -/
structure SharesPrivate (found collection : Collection) : Prop where
  apart : ∀ environment ∈ collection.subEnvironmentList, environment.isPrivate = false →
    environment.id ∉ (privateSubEnvironments found).map CollectionEnvironment.id
  held : (privateSubEnvironments found).Perm (privateSubEnvironments collection)
  selected : found.activeSubEnvironmentId.getD "" ∈
      (privateSubEnvironments found).map CollectionEnvironment.id →
    found.activeSubEnvironmentId = collection.activeSubEnvironmentId
  notSelected : found.activeSubEnvironmentId.getD "" ∉
      (privateSubEnvironments found).map CollectionEnvironment.id →
    collection.activeSubEnvironmentId.getD "" ∈
      (privateSubEnvironments found).map CollectionEnvironment.id →
    collection.activeSubEnvironmentId = some ""

/-- An authentication that is filed later under the same key has the same runtime values. -/
def SharesRuntime (last auth : AuthConfig) : Prop :=
  if last.type = .oauth2 then auth.withRuntimeFields last = auth else auth.withoutRuntime = auth

/-- A client with OAuth has the values of the one that its id finds, and a client without holds
none. -/
def SharesTokens (found client : McpClient) : Prop :=
  if client.authType = .oauth2 ∧ found.authType = .oauth2 then
    client.withRuntimeFields found = client
  else withoutMcpTokens client = client

structure FindsItsOwn (workspace : Workspace) : Prop where
  environments : ∀ environment ∈ workspace.environments,
    isPublic workspace.environments environment = false →
      environment.id ∉ (publicEnvironments workspace.environments).map Environment.id
  collections : ∀ collection ∈ workspace.collections,
    ∀ found ∈ workspace.collections.find? fun candidate => candidate.id = collection.id,
      SharesPrivate found collection
  credentials : ∀ entry ∈ localAuth workspace, entry.2.type = .oauth2 →
    ∀ last ∈ lastValue (localAuth workspace) entry.1, SharesRuntime last entry.2
  mcpClients : ∀ client ∈ workspace.mcpClients,
    ∀ found ∈ Resources.lastWithId McpClient.id workspace.mcpClients client.id,
      SharesTokens found client

/-! ## Environments -/

section Environments

variable {environments : List Environment}

theorem isEffectivelyPrivate_of_isPrivate (environments : List Environment)
    {environment : Environment}
    (isPrivate : environment.isPrivate = true) (space : ℕ) :
    isEffectivelyPrivate environments (space + 1) [] environment = true := by
  simp [isEffectivelyPrivate, isPrivate]

theorem isPublic_of_none_isPrivate
    (none : ∀ environment ∈ environments, environment.isPrivate = false) {environment : Environment}
    (mem : environment ∈ environments) : isPublic environments environment = true := by
  have walk (space : ℕ) (visited : List String) (current : Environment)
      (currentMem : current ∈ environments) :
      isEffectivelyPrivate environments space visited current = false := by
    induction space generalizing visited current with
    | zero => rfl
    | succ space ih =>
        simp only [isEffectivelyPrivate, none current currentMem]
        cases parentEq : current.parent?.bind (environmentById environments) with
        | none => simp
        | some parent => simp [ih _ parent (IsParent.mem parentEq)]
  simp [isPublic, walk _ _ _ mem]

theorem publicEnvironments_publicEnvironments (environments : List Environment) :
    publicEnvironments (publicEnvironments environments) = publicEnvironments environments := by
  apply List.filter_eq_self.mpr
  intro environment mem
  apply isPublic_of_none_isPrivate _ mem
  intro other otherMem
  have otherPublic := (List.mem_filter.mp otherMem).2
  by_contra isPrivate
  have found := isEffectivelyPrivate_of_isPrivate environments
    (Bool.eq_true_of_not_eq_false isPrivate) 499
  simp [isPublic, found] at otherPublic

theorem mem_privateEnvironments {environment : Environment} :
    environment ∈ privateEnvironments environments ↔
      environment ∈ environments ∧
        environment.id ∉ (publicEnvironments environments).map Environment.id := by
  simp [privateEnvironments]

theorem incomingEnvironments_public (environments : List Environment) :
    incomingEnvironments environments (publicEnvironments environments) =
      publicEnvironments environments := by
  unfold incomingEnvironments
  rw [publicEnvironments_publicEnvironments]
  apply List.filter_eq_self.mpr
  intro environment mem
  apply decide_eq_true
  intro sameId
  rcases List.mem_map.mp sameId with ⟨other, otherMem, idEq⟩
  apply (mem_privateEnvironments.mp otherMem).2
  rw [idEq]
  exact List.mem_map_of_mem mem

theorem environments_perm_iff :
    (publicEnvironments environments ++ privateEnvironments environments).Perm environments ↔
      ∀ environment ∈ environments, isPublic environments environment = false →
        environment.id ∉ (publicEnvironments environments).map Environment.id := by
  constructor
  · intro perm environment mem isPrivate
    rcases List.mem_append.mp (perm.mem_iff.mpr mem) with shared | held
    · have isPublic := (List.mem_filter.mp shared).2
      rw [isPrivate] at isPublic
      cases isPublic
    · exact (mem_privateEnvironments.mp held).2
  · intro apart
    have held : privateEnvironments environments =
        environments.filter fun environment => !isPublic environments environment := by
      apply List.filter_congr
      intro environment mem
      cases publicEq : isPublic environments environment with
      | true =>
          have shared : environment ∈ publicEnvironments environments :=
            List.mem_filter.mpr ⟨mem, publicEq⟩
          simpa using ⟨environment, shared, rfl⟩
      | false => simpa using apart environment mem publicEq
    rw [held]
    exact List.filter_append_perm _ environments

theorem activeEnvironmentId_restored {active : String}
    (selected : (environments = [] ∧ active = "") ∨
      ∃ environment ∈ environments, environment.id = active) :
    (∃ environment ∈ privateEnvironments environments, environment.id = active) ∨
      (∃ environment ∈ publicEnvironments environments, environment.id = active) ∨
      (environments = [] ∧ active = "") := by
  rcases selected with empty | ⟨environment, mem, rfl⟩
  · exact Or.inr (Or.inr empty)
  · by_cases shared : environment.id ∈ (publicEnvironments environments).map Environment.id
    · rcases List.mem_map.mp shared with ⟨other, otherMem, sameId⟩
      exact Or.inr (Or.inl ⟨other, otherMem, sameId⟩)
    · exact Or.inl ⟨environment, mem_privateEnvironments.mpr ⟨mem, shared⟩, rfl⟩

end Environments

/-! ## Collections -/

theorem withoutSecrets_of_loaded {collection : Collection} (loaded : LoadedCollection collection)
    {environment : CollectionEnvironment} (mem : environment ∈ collection.subEnvironmentList)
    (shared : environment.isPrivate = false) : environment.withoutSecrets = environment := by
  have kept : environment.rows.filter (fun row => !isSecret row) = environment.rows := by
    apply List.filter_eq_self.mpr
    intro row rowMem
    simp [loaded.secrets environment mem shared row rowMem]
  simp only [CollectionEnvironment.withoutSecrets, kept]

theorem sharedSubEnvironments_of_loaded {collection : Collection}
    (loaded : LoadedCollection collection) :
    sharedSubEnvironments collection.subEnvironmentList =
      collection.subEnvironmentList.filter fun environment => !environment.isPrivate := by
  unfold sharedSubEnvironments
  have same : ∀ environment ∈ collection.subEnvironmentList.filter
      (fun environment => !environment.isPrivate), environment.withoutSecrets = environment := by
    intro environment mem
    rcases List.mem_filter.mp mem with ⟨listed, shared⟩
    exact withoutSecrets_of_loaded loaded listed (by simpa using shared)
  exact (List.map_congr_left same).trans (List.map_id _)

/-- The collection that leaves the device. -/
def publishedCollection (collection : Collection) : Collection :=
  withoutCollectionTokens (collectionWithoutPrivateEnvironments collection)

/-- The sub-environments and the selection that a collection gets back. -/
def restoredSubEnvironments (found collection : Collection) : Collection :=
  let privateIds := (privateSubEnvironments found).map CollectionEnvironment.id
  let sharedEnvironments := (publishedCollection collection).subEnvironmentList.filter
    fun environment => !environment.isPrivate && environment.id ∉ privateIds
  { publishedCollection collection with
    subEnvironments := some (sharedEnvironments ++ privateSubEnvironments found)
    activeSubEnvironmentId :=
      if found.activeSubEnvironmentId.getD "" ∈ privateIds then found.activeSubEnvironmentId
      else if ∃ environment ∈ sharedEnvironments,
          some environment.id = (publishedCollection collection).activeSubEnvironmentId then
        (publishedCollection collection).activeSubEnvironmentId
      else some "" }

theorem mergePrivate_published {current : List Collection} {collections : List Collection}
    (present : ∀ collection ∈ collections, collection ∈ current) :
    mergePrivateCollectionEnvironments current (collections.map publishedCollection) =
      collections.map fun collection =>
        match current.find? fun candidate => candidate.id = collection.id with
        | none => collection
        | some found => restoredSubEnvironments found collection := by
  unfold mergePrivateCollectionEnvironments
  rw [List.map_map]
  apply List.map_congr_left
  intro collection mem
  have sameId : (publishedCollection collection).id = collection.id := rfl
  simp only [Function.comp_apply, sameId]
  cases found : current.find? fun candidate => candidate.id = collection.id with
  | none => simpa using List.find?_eq_none.mp found collection (present collection mem)
  | some found => rfl

section SubEnvironments

variable {found collection : Collection}

def publicSubEnvironments (collection : Collection) : List CollectionEnvironment :=
  collection.subEnvironmentList.filter fun environment => !environment.isPrivate

theorem subEnvironments_perm (collection : Collection) :
    (publicSubEnvironments collection ++ privateSubEnvironments collection).Perm
      collection.subEnvironmentList := by
  apply List.perm_append_comm.trans
  exact List.filter_append_perm _ _

/-- The sub-environments that the merge keeps of what was published. -/
def keptSubEnvironments (found collection : Collection) : List CollectionEnvironment :=
  (publishedCollection collection).subEnvironmentList.filter fun environment =>
    !environment.isPrivate &&
      environment.id ∉ (privateSubEnvironments found).map CollectionEnvironment.id

theorem publishedCollection_subEnvironmentList (loaded : LoadedCollection collection) :
    (publishedCollection collection).subEnvironmentList = publicSubEnvironments collection :=
  sharedSubEnvironments_of_loaded loaded

theorem mem_keptSubEnvironments (loaded : LoadedCollection collection)
    {environment : CollectionEnvironment} :
    environment ∈ keptSubEnvironments found collection ↔
      environment ∈ publicSubEnvironments collection ∧
        environment.id ∉ (privateSubEnvironments found).map CollectionEnvironment.id := by
  unfold keptSubEnvironments
  rw [publishedCollection_subEnvironmentList loaded]
  simp only [publicSubEnvironments, List.mem_filter, Bool.and_eq_true, Bool.not_eq_true',
    decide_eq_true_eq]
  constructor
  · rintro ⟨⟨listed, shared⟩, _, apart⟩
    exact ⟨⟨listed, shared⟩, apart⟩
  · rintro ⟨⟨listed, shared⟩, apart⟩
    exact ⟨⟨listed, shared⟩, shared, apart⟩

theorem keptSubEnvironments_eq (loaded : LoadedCollection collection)
    (apart : ∀ environment ∈ collection.subEnvironmentList, environment.isPrivate = false →
      environment.id ∉ (privateSubEnvironments found).map CollectionEnvironment.id) :
    keptSubEnvironments found collection = publicSubEnvironments collection := by
  unfold keptSubEnvironments
  rw [publishedCollection_subEnvironmentList loaded]
  apply List.filter_eq_self.mpr
  intro environment mem
  rcases List.mem_filter.mp mem with ⟨listed, shared⟩
  have isPublic : environment.isPrivate = false := by simpa using shared
  simpa [isPublic] using apart environment listed isPublic

theorem subEnvironments_perm_iff (found : Collection) (loaded : LoadedCollection collection) :
    (keptSubEnvironments found collection ++ privateSubEnvironments found).Perm
        collection.subEnvironmentList ↔
      (∀ environment ∈ collection.subEnvironmentList, environment.isPrivate = false →
        environment.id ∉ (privateSubEnvironments found).map CollectionEnvironment.id) ∧
      (privateSubEnvironments found).Perm (privateSubEnvironments collection) := by
  have noneKept : (keptSubEnvironments found collection).filter
      CollectionEnvironment.isPrivate = [] := by
    apply List.filter_eq_nil_iff.mpr
    intro environment mem
    have shared := (List.mem_filter.mp ((mem_keptSubEnvironments loaded).mp mem).1).2
    simpa using shared
  have allHeld : (privateSubEnvironments found).filter CollectionEnvironment.isPrivate =
      privateSubEnvironments found := by simp [privateSubEnvironments]
  constructor
  · intro perm
    refine ⟨?_, ?_⟩
    · intro environment listed shared
      rcases List.mem_append.mp (perm.mem_iff.mpr listed) with kept | held
      · exact ((mem_keptSubEnvironments loaded).mp kept).2
      · have isPrivate := (List.mem_filter.mp held).2
        rw [shared] at isPrivate
        cases isPrivate
    · have filtered := perm.filter CollectionEnvironment.isPrivate
      rw [List.filter_append, noneKept, allHeld] at filtered
      exact filtered
  · rintro ⟨apart, held⟩
    rw [keptSubEnvironments_eq loaded apart]
    exact (held.append_left _).trans (subEnvironments_perm collection)

/-- What the merge selects, given the sub-environments that it gives back. -/
theorem selection_iff (loaded : LoadedCollection collection)
    (apart : ∀ environment ∈ collection.subEnvironmentList, environment.isPrivate = false →
      environment.id ∉ (privateSubEnvironments found).map CollectionEnvironment.id)
    (held : (privateSubEnvironments found).Perm (privateSubEnvironments collection)) :
    (restoredSubEnvironments found collection).activeSubEnvironmentId =
        collection.activeSubEnvironmentId ↔
      SharesPrivate found collection := by
  have kept := keptSubEnvironments_eq loaded apart
  have active : (publishedCollection collection).activeSubEnvironmentId =
      if ∃ environment ∈ publicSubEnvironments collection,
          some environment.id = collection.activeSubEnvironmentId then
        collection.activeSubEnvironmentId
      else some "" := by
    rw [← publishedCollection_subEnvironmentList loaded]
    rfl
  have restored : (restoredSubEnvironments found collection).activeSubEnvironmentId =
      if found.activeSubEnvironmentId.getD "" ∈
          (privateSubEnvironments found).map CollectionEnvironment.id then
        found.activeSubEnvironmentId
      else if ∃ environment ∈ keptSubEnvironments found collection,
          some environment.id = (publishedCollection collection).activeSubEnvironmentId then
        (publishedCollection collection).activeSubEnvironmentId
      else some "" := rfl
  rw [restored, kept, active]
  by_cases isSelected : found.activeSubEnvironmentId.getD "" ∈
      (privateSubEnvironments found).map CollectionEnvironment.id
  · rw [if_pos isSelected]
    refine ⟨?_, ?_⟩
    · intro same
      exact ⟨apart, held, fun _ => same, fun notSelected => absurd isSelected notSelected⟩
    · intro shares
      exact shares.selected isSelected
  · rw [if_neg isSelected]
    by_cases shared : ∃ environment ∈ publicSubEnvironments collection,
        some environment.id = collection.activeSubEnvironmentId
    · rw [if_pos shared, if_pos shared]
      refine ⟨fun _ => ?_, fun _ => rfl⟩
      refine ⟨apart, held, fun selected => absurd selected isSelected, ?_⟩
      rcases shared with ⟨environment, mem, sameId⟩
      rcases List.mem_filter.mp mem with ⟨listed, isPublic⟩
      intro _ isPrivate
      rw [← sameId, Option.getD_some] at isPrivate
      exact absurd isPrivate (apart environment listed (by simpa using isPublic))
    · rw [if_neg shared, ite_self]
      constructor
      · intro same
        exact ⟨apart, held, fun selected => absurd selected isSelected, fun _ _ => same.symm⟩
      · intro shares
        rcases loaded.activeSubEnvironmentId with empty | ⟨environment, listed, sameId⟩
        · exact empty.symm
        · have isPrivate : environment.isPrivate = true := by
            by_contra isPublic
            exact shared
              ⟨environment, List.mem_filter.mpr ⟨listed, by simpa using isPublic⟩, sameId⟩
          have heldHere : environment ∈ privateSubEnvironments found :=
            held.mem_iff.mpr (List.mem_filter.mpr ⟨listed, isPrivate⟩)
          refine (shares.notSelected isSelected ?_).symm
          rw [← sameId]
          exact List.mem_map_of_mem heldHere

end SubEnvironments

/-! ## Credentials -/

theorem clearRuntimeFields_clearRuntimeFields (auth : AuthConfig) :
    clearRuntimeFields (clearRuntimeFields auth) = clearRuntimeFields auth := by
  by_cases oauth : auth.type = .oauth2
  · simp [clearRuntimeFields, oauth, AuthConfig.withoutRuntime]
  · simp [clearRuntimeFields, oauth]

/-- A cleared authentication gets its values back exactly if the last one that is filed under
its key has them. -/
theorem mergeAuth_cleared_iff {workspace : Workspace} {key : String} {auth : AuthConfig}
    (filed : (key, auth) ∈ localAuth workspace) :
    mergeAuth workspace key (clearRuntimeFields auth) = auth ↔
      (auth.type = .oauth2 → ∀ last ∈ lastValue (localAuth workspace) key,
        SharesRuntime last auth) := by
  by_cases oauth : auth.type = .oauth2
  · have cleared : clearRuntimeFields auth = auth.withoutRuntime := by
      simp [clearRuntimeFields, oauth]
    rw [cleared]
    cases found : lastValue (localAuth workspace) key with
    | none =>
        have absent := (lastValue_eq_none_iff _ _).mp found
        exact absurd (List.mem_map_of_mem filed) absent
    | some last =>
        have sameType : auth.withoutRuntime.type = .oauth2 := oauth
        have overwritten : auth.withoutRuntime.withRuntimeFields last =
            auth.withRuntimeFields last := rfl
        simp only [mergeAuth, found, sameType, true_and, overwritten, oauth, forall_const,
          Option.mem_some, forall_eq', SharesRuntime]
        split <;> rfl
  · have kept : clearRuntimeFields auth = auth := by simp [clearRuntimeFields, oauth]
    rw [kept]
    simp only [oauth, IsEmpty.forall_iff, iff_true]
    unfold mergeAuth
    cases lastValue (localAuth workspace) key with
    | none => rfl
    | some last => simp [oauth]

theorem mem_localAuth {workspace : Workspace} {entry : String × AuthConfig} :
    entry ∈ localAuth workspace ↔ ∃ collection ∈ workspace.collections,
      (∃ request ∈ collection.requests, (requestAuthKey collection request, request.auth) = entry) ∨
      ∃ folder ∈ collection.folderList, ∃ auth ∈ folder.auth,
        (folderAuthKey collection folder, auth) = entry := by
  simp only [localAuth, List.mem_flatMap, List.mem_append, List.mem_map, List.mem_filterMap,
    Option.map_eq_some_iff, Option.mem_def]

/-- The credentials of a collection come back. -/
structure CredentialsRestored (workspace : Workspace) (collection : Collection) : Prop where
  requests : ∀ request ∈ collection.requests,
    mergeAuth workspace (requestAuthKey collection request) (clearRuntimeFields request.auth) =
      request.auth
  folders : ∀ folder ∈ collection.folderList, ∀ auth ∈ folder.auth,
    mergeAuth workspace (folderAuthKey collection folder) (clearRuntimeFields auth) = auth

theorem credentials_iff {workspace : Workspace} :
    (∀ collection ∈ workspace.collections, CredentialsRestored workspace collection) ↔
      ∀ entry ∈ localAuth workspace, entry.2.type = .oauth2 →
        ∀ last ∈ lastValue (localAuth workspace) entry.1, SharesRuntime last entry.2 := by
  constructor
  · intro restored entry mem
    rcases mem_localAuth.mp mem with
      ⟨collection, collectionMem, ⟨request, requestMem, rfl⟩ | ⟨folder, folderMem, auth, has, rfl⟩⟩
    · exact (mergeAuth_cleared_iff mem).mp
        ((restored collection collectionMem).requests request requestMem)
    · exact (mergeAuth_cleared_iff mem).mp
        ((restored collection collectionMem).folders folder folderMem auth has)
  · intro shares collection collectionMem
    refine ⟨?_, ?_⟩
    · intro request requestMem
      have mem := mem_localAuth.mpr
        ⟨collection, collectionMem, Or.inl ⟨request, requestMem, rfl⟩⟩
      exact (mergeAuth_cleared_iff mem).mpr (shares _ mem)
    · intro folder folderMem auth has
      have mem := mem_localAuth.mpr
        ⟨collection, collectionMem, Or.inr ⟨folder, folderMem, auth, has, rfl⟩⟩
      exact (mergeAuth_cleared_iff mem).mpr (shares _ mem)

/-! ## The collection that comes back -/

def readBackCollection (workspace : Workspace) (found collection : Collection) : Collection :=
  mergeCollectionAuth workspace
    (withoutCollectionTokens (restoredSubEnvironments found collection))

theorem withAuth_eq_self_iff {change : AuthConfig → AuthConfig} {request : ApiRequest} :
    request.withAuth change = request ↔ change request.auth = request.auth := by
  cases request
  simp [ApiRequest.withAuth]

theorem folder_withAuth_eq_self_iff {change : AuthConfig → AuthConfig} {folder : RequestFolder} :
    folder.withAuth change = folder ↔ ∀ auth ∈ folder.auth, change auth = auth := by
  rcases folder with ⟨id, parentId, headers, environment, auth, content⟩
  cases auth <;> simp [RequestFolder.withAuth]

theorem readBackCollection_requests (workspace : Workspace) (found collection : Collection) :
    (readBackCollection workspace found collection).requests =
      collection.requests.map fun request => request.withAuth fun auth =>
        mergeAuth workspace (requestAuthKey collection request) (clearRuntimeFields auth) := by
  have requests : (readBackCollection workspace found collection).requests =
      ((collection.requests.map (ApiRequest.withAuth clearRuntimeFields)).map
        (ApiRequest.withAuth clearRuntimeFields)).map fun request =>
          request.withAuth (mergeAuth workspace (requestAuthKey collection request)) := rfl
  rw [requests, List.map_map, List.map_map]
  apply List.map_congr_left
  intro request _
  simp only [Function.comp_apply, ApiRequest.withAuth, clearRuntimeFields_clearRuntimeFields,
    requestAuthKey]

theorem readBackCollection_folders (workspace : Workspace) (found collection : Collection) :
    (readBackCollection workspace found collection).folders =
      some (collection.folderList.map fun folder => folder.withAuth fun auth =>
        mergeAuth workspace (folderAuthKey collection folder) (clearRuntimeFields auth)) := by
  have folders : (readBackCollection workspace found collection).folders =
      some (((collection.folderList.map (RequestFolder.withAuth clearRuntimeFields)).map
        (RequestFolder.withAuth clearRuntimeFields)).map fun folder =>
          folder.withAuth (mergeAuth workspace (folderAuthKey collection folder))) := rfl
  rw [folders, List.map_map, List.map_map]
  apply congrArg some
  apply List.map_congr_left
  intro folder _
  simp only [Function.comp_apply, RequestFolder.withAuth, Option.map_map, folderAuthKey]
  cases folder.auth <;> simp [clearRuntimeFields_clearRuntimeFields]

theorem sameCollection_readBack_iff {workspace : Workspace} {found collection : Collection}
    (loaded : LoadedCollection collection) :
    SameCollection (readBackCollection workspace found collection) collection ↔
      SharesPrivate found collection ∧ CredentialsRestored workspace collection := by
  have requests := readBackCollection_requests workspace found collection
  have folders := readBackCollection_folders workspace found collection
  have active : (readBackCollection workspace found collection).activeSubEnvironmentId =
      (restoredSubEnvironments found collection).activeSubEnvironmentId := rfl
  have credentials : ((readBackCollection workspace found collection).requests =
        collection.requests ∧
      (readBackCollection workspace found collection).folders = collection.folders) ↔
        CredentialsRestored workspace collection := by
    rw [requests, folders, loaded.folders, Option.some.injEq, map_eq_self_iff, map_eq_self_iff]
    simp only [withAuth_eq_self_iff, folder_withAuth_eq_self_iff]
    exact ⟨fun ⟨ofRequests, ofFolders⟩ => ⟨ofRequests, ofFolders⟩,
      fun restored => ⟨restored.requests, restored.folders⟩⟩
  have perm := subEnvironments_perm_iff found loaded
  constructor
  · intro same
    rcases perm.mp same.subEnvironments with ⟨apart, held⟩
    refine ⟨?_, ?_⟩
    · have sameActive := congrArg Collection.activeSubEnvironmentId same.rest
      exact (selection_iff loaded apart held).mp sameActive
    · have sameRequests := congrArg Collection.requests same.rest
      have sameFolders := congrArg Collection.folders same.rest
      exact credentials.mp ⟨sameRequests, sameFolders⟩
  · rintro ⟨shares, restored⟩
    refine ⟨perm.mpr ⟨shares.apart, shares.held⟩, ?_⟩
    have selection := (selection_iff loaded shares.apart shares.held).mpr shares
    rcases credentials.mpr restored with ⟨sameRequests, sameFolders⟩
    have rebuilt : { readBackCollection workspace found collection with
        subEnvironments := collection.subEnvironments } =
        { collection with
          requests := (readBackCollection workspace found collection).requests
          folders := (readBackCollection workspace found collection).folders
          activeSubEnvironmentId :=
            (readBackCollection workspace found collection).activeSubEnvironmentId } := rfl
    rw [rebuilt, sameRequests, sameFolders, active, selection]

/-! ## Clients -/

theorem withoutMcpTokens_withoutMcpTokens (client : McpClient) :
    withoutMcpTokens (withoutMcpTokens client) = withoutMcpTokens client := by
  by_cases oauth : client.authType = .oauth2
  · simp [withoutMcpTokens, oauth]
  · simp [withoutMcpTokens, oauth]

theorem mergeMcpClient_cleared_iff {clients : List McpClient} {client : McpClient}
    (mem : client ∈ clients) :
    mergeMcpClient clients (withoutMcpTokens (withoutMcpTokens client)) = client ↔
      ∀ found ∈ Resources.lastWithId McpClient.id clients client.id,
        SharesTokens found client := by
  rw [withoutMcpTokens_withoutMcpTokens]
  have sameId : (withoutMcpTokens client).id = client.id := rfl
  have sameType : (withoutMcpTokens client).authType = client.authType := rfl
  unfold mergeMcpClient
  rw [sameId, sameType]
  cases foundEq : Resources.lastWithId McpClient.id clients client.id with
  | none =>
      have absent := List.find?_eq_none.mp foundEq client (List.mem_reverse.mpr mem)
      simp at absent
  | some found =>
      have overwritten : (withoutMcpTokens client).withRuntimeFields found =
          client.withRuntimeFields found := rfl
      simp only [overwritten, Option.mem_some, forall_eq', SharesTokens]
      split <;> rfl

/-! ## The workspace that comes back -/

section Workspaces

variable {workspace : Workspace}

/-- The collections after one round, through either channel. -/
def readBackCollections (workspace : Workspace) : List Collection :=
  (((mergePrivateCollectionEnvironments workspace.collections
    ((workspace.collections.map collectionWithoutPrivateEnvironments).map
      withoutCollectionTokens)).map withoutCollectionTokens).map (mergeCollectionAuth workspace))

def readBackClients (workspace : Workspace) : List McpClient :=
  ((workspace.mcpClients.map withoutMcpTokens).map withoutMcpTokens).map
    (mergeMcpClient workspace.mcpClients)

theorem readBackCollections_iff (loaded : Loaded workspace) :
    List.Forall₂ SameCollection (readBackCollections workspace) workspace.collections ↔
      (∀ collection ∈ workspace.collections,
        ∀ found ∈ workspace.collections.find? fun candidate => candidate.id = collection.id,
          SharesPrivate found collection) ∧
      ∀ collection ∈ workspace.collections, CredentialsRestored workspace collection := by
  have published : (workspace.collections.map collectionWithoutPrivateEnvironments).map
      withoutCollectionTokens = workspace.collections.map publishedCollection := by
    rw [List.map_map]
    rfl
  unfold readBackCollections
  rw [published, mergePrivate_published fun _ mem => mem, List.map_map, List.map_map,
    List.forall₂_map_left_iff, List.forall₂_same, ← forall₂_and]
  apply forall₂_congr
  intro collection mem
  simp only [Function.comp_apply]
  cases foundEq : workspace.collections.find? fun candidate => candidate.id = collection.id with
  | none => simpa using List.find?_eq_none.mp foundEq collection mem
  | some found =>
      simp only [Option.mem_some, forall_eq']
      exact sameCollection_readBack_iff (loaded.collections collection mem)

theorem readBackClients_iff :
    readBackClients workspace = workspace.mcpClients ↔
      ∀ client ∈ workspace.mcpClients,
        ∀ found ∈ Resources.lastWithId McpClient.id workspace.mcpClients client.id,
          SharesTokens found client := by
  unfold readBackClients
  rw [List.map_map, List.map_map, map_eq_self_iff]
  apply forall₂_congr
  intro client mem
  exact mergeMcpClient_cleared_iff mem

/-- What a channel must give back when it gives back everything else. -/
theorem sameUpToOrder_iff (loaded : Loaded workspace) {result : Workspace}
    (environments : result.environments =
      publicEnvironments workspace.environments ++ privateEnvironments workspace.environments)
    (collections : result.collections = readBackCollections workspace)
    (mcpClients : result.mcpClients = readBackClients workspace)
    (others : SameUpToOrder { result with
      environments := workspace.environments
      collections := workspace.collections
      mcpClients := workspace.mcpClients } workspace) :
    SameUpToOrder result workspace ↔ FindsItsOwn workspace := by
  constructor
  · intro same
    have perm := same.environments
    rw [environments] at perm
    have pairs := same.collections
    rw [collections] at pairs
    have clients := congrArg Workspace.mcpClients same.rest
    change result.mcpClients = workspace.mcpClients at clients
    rw [mcpClients] at clients
    rcases (readBackCollections_iff loaded).mp pairs with ⟨shares, restored⟩
    exact ⟨environments_perm_iff.mp perm, shares, credentials_iff.mp restored,
      readBackClients_iff.mp clients⟩
  · intro own
    refine ⟨?_, ?_, others.project, others.collaborationPath, others.repository,
      others.collaboration, ?_⟩
    · rw [environments]
      exact environments_perm_iff.mpr own.environments
    · rw [collections]
      exact (readBackCollections_iff loaded).mpr
        ⟨own.collections, credentials_iff.mpr own.credentials⟩
    · have clients : result.mcpClients = workspace.mcpClients := by
        rw [mcpClients]
        exact readBackClients_iff.mpr own.mcpClients
      have rest := others.rest
      rw [← clients] at rest
      exact rest

theorem projectWorkspace_activeEnvironmentId (defaultPreferences : Json) (loaded : Loaded workspace)
    (notPrivate : ¬ ∃ environment ∈ privateEnvironments workspace.environments,
      environment.id = workspace.activeEnvironmentId) :
    (projectWorkspace workspace).activeEnvironmentId = workspace.activeEnvironmentId ∧
      (shareableWorkspace defaultPreferences workspace).activeEnvironmentId =
        workspace.activeEnvironmentId := by
  have selected : (if ∃ environment ∈ publicEnvironments workspace.environments,
        environment.id = workspace.activeEnvironmentId then workspace.activeEnvironmentId
      else ((publicEnvironments workspace.environments).head?.map Environment.id).getD "") =
        workspace.activeEnvironmentId := by
    rcases activeEnvironmentId_restored loaded.activeEnvironmentId with
      isPrivate | isPublic | ⟨empty, noneActive⟩
    · exact absurd isPrivate notPrivate
    · rw [if_pos isPublic]
    · simp [empty, publicEnvironments, noneActive]
  exact ⟨selected, selected⟩

theorem readProject_activeEnvironmentId (loaded : Loaded workspace) (path : String) :
    (readProject path (projectWorkspace workspace) workspace).activeEnvironmentId =
      workspace.activeEnvironmentId := by
  change (if ∃ environment ∈ privateEnvironments workspace.environments,
      environment.id = workspace.activeEnvironmentId then workspace.activeEnvironmentId
    else (projectWorkspace workspace).activeEnvironmentId) = _
  split
  case isTrue => rfl
  case isFalse notPrivate =>
    exact (projectWorkspace_activeEnvironmentId .null loaded notPrivate).1

theorem mergeSyncedWorkspace_activeEnvironmentId (loaded : Loaded workspace)
    (defaultPreferences : Json) (now : String) (revision : ℤ) :
    (mergeSyncedWorkspace now workspace
      (pushedPayload defaultPreferences revision workspace)).activeEnvironmentId =
        workspace.activeEnvironmentId := by
  have incoming : incomingEnvironments workspace.environments
      (shareableWorkspace defaultPreferences workspace).environments =
        publicEnvironments workspace.environments := incomingEnvironments_public _
  change (if ∃ environment ∈ privateEnvironments workspace.environments,
      environment.id = workspace.activeEnvironmentId then workspace.activeEnvironmentId
    else if ∃ environment ∈ incomingEnvironments workspace.environments
        (shareableWorkspace defaultPreferences workspace).environments,
        environment.id = (shareableWorkspace defaultPreferences workspace).activeEnvironmentId then
      (shareableWorkspace defaultPreferences workspace).activeEnvironmentId
    else ((incomingEnvironments workspace.environments
        (shareableWorkspace defaultPreferences workspace).environments ++
      privateEnvironments workspace.environments).head?.map Environment.id).getD "") = _
  rw [incoming]
  split
  case isTrue => rfl
  case isFalse notPrivate =>
    rw [(projectWorkspace_activeEnvironmentId defaultPreferences loaded notPrivate).2]
    rcases activeEnvironmentId_restored loaded.activeEnvironmentId with
      isPrivate | isPublic | ⟨empty, noneActive⟩
    · exact absurd isPrivate notPrivate
    · rw [if_pos isPublic]
    · simp [empty, publicEnvironments, privateEnvironments, noneActive]

theorem currentMemberId_restored (loaded : Loaded workspace) :
    workspace.governance.spread [("currentMemberId", .str
      (if ∃ member ∈ workspace.governance.list "members",
          member.id = workspace.governance.text "currentMemberId" then
        workspace.governance.text "currentMemberId"
      else workspace.governance.text "currentMemberId"))] = workspace.governance := by
  rcases loaded.governance with ⟨members, governance⟩
  rcases loaded.currentMemberId with ⟨id, current⟩
  rw [ite_self, Json.text_of_get? current]
  rw [governance] at current ⊢
  apply Json.spread_of_get?
  intro update mem
  rw [List.mem_singleton] at mem
  rw [mem, current]

/-- A project folder gives the workspace back exactly if it finds what stayed behind. -/
theorem readProject_iff (loaded : Loaded workspace) (path : String) :
    SameUpToOrder (readProject path (projectWorkspace workspace) workspace) workspace ↔
      FindsItsOwn workspace := by
  apply sameUpToOrder_iff loaded
  · exact congrArg (· ++ privateEnvironments workspace.environments)
      (incomingEnvironments_public workspace.environments)
  · rfl
  · rfl
  · refine ⟨List.Perm.refl _, List.forall₂_same.mpr fun _ _ => ⟨List.Perm.refl _, rfl⟩, ?_, rfl,
      rfl, rfl, ?_⟩
    · apply Json.membersExcept_spread
      simp
    · have rebuilt (active : String)
          (sameActive : (readProject path (projectWorkspace workspace)
            workspace).activeEnvironmentId = active) :
          ({ readProject path (projectWorkspace workspace) workspace with
            environments := workspace.environments
            collections := workspace.collections
            mcpClients := workspace.mcpClients
            project := workspace.project
            collaboration := workspace.collaboration } : Workspace) =
          { workspace with
            version := 52
            cookies := []
            certificates := emptyWorkspaceCertificates
            activeEnvironmentId := active } := by
        subst sameActive
        rfl
      apply (rebuilt _ (readProject_activeEnvironmentId loaded path)).trans
      rw [← loaded.version, ← loaded.cookies, ← loaded.certificates]

/-- So does a revision that was pushed. -/
theorem mergeSyncedWorkspace_iff (loaded : Loaded workspace) (defaultPreferences : Json)
    (now : String) (revision : ℤ) :
    SameUpToOrder (mergeSyncedWorkspace now workspace
        (pushedPayload defaultPreferences revision workspace)) workspace ↔
      FindsItsOwn workspace := by
  apply sameUpToOrder_iff loaded
  · exact congrArg (· ++ privateEnvironments workspace.environments)
      (incomingEnvironments_public workspace.environments)
  · rfl
  · rfl
  · refine ⟨List.Perm.refl _, List.forall₂_same.mpr fun _ _ => ⟨List.Perm.refl _, rfl⟩, rfl, rfl,
      rfl, ?_, ?_⟩
    · apply Json.membersExcept_spread
      simp
    · have rebuilt (active : String) (governance : Json)
          (sameActive : (mergeSyncedWorkspace now workspace
            (pushedPayload defaultPreferences revision workspace)).activeEnvironmentId = active)
          (sameGovernance : (mergeSyncedWorkspace now workspace
            (pushedPayload defaultPreferences revision workspace)).governance = governance) :
          ({ mergeSyncedWorkspace now workspace
              (pushedPayload defaultPreferences revision workspace) with
            environments := workspace.environments
            collections := workspace.collections
            mcpClients := workspace.mcpClients
            project := workspace.project
            collaboration := workspace.collaboration } : Workspace) =
          { workspace with
            cookies := []
            certificates := emptyWorkspaceCertificates
            governance := governance
            activeEnvironmentId := active } := by
        subst sameActive sameGovernance
        rfl
      have active :=
        mergeSyncedWorkspace_activeEnvironmentId loaded defaultPreferences now revision
      have governance := currentMemberId_restored loaded
      apply (rebuilt workspace.activeEnvironmentId workspace.governance active governance).trans
      rw [← loaded.cookies, ← loaded.certificates]

/-- Either channel gives the workspace back exactly if it finds what stayed behind. -/
theorem publishing_readsBack_iff (loaded : Loaded workspace) (path : String)
    (defaultPreferences : Json) (now : String) (revision : ℤ) :
    (SameUpToOrder (readProject path (projectWorkspace workspace) workspace) workspace ↔
      FindsItsOwn workspace) ∧
    (SameUpToOrder (mergeSyncedWorkspace now workspace
        (pushedPayload defaultPreferences revision workspace)) workspace ↔
      FindsItsOwn workspace) := by
  refine ⟨?_, ?_⟩
  · exact readProject_iff loaded path
  · exact mergeSyncedWorkspace_iff loaded defaultPreferences now revision

end Workspaces

/-! ## Distinct ids -/

/-- With distinct ids and keys, all that can be lost is what a client without OAuth holds. -/
theorem findsItsOwn_iff_of_distinct {workspace : Workspace}
    (environments : (workspace.environments.map Environment.id).Nodup)
    (collections : (workspace.collections.map Collection.id).Nodup)
    (subEnvironments : ∀ collection ∈ workspace.collections,
      (collection.subEnvironmentList.map CollectionEnvironment.id).Nodup)
    (keys : ((localAuth workspace).map Prod.fst).Nodup)
    (mcpClients : (workspace.mcpClients.map McpClient.id).Nodup) :
    FindsItsOwn workspace ↔
      ∀ client ∈ workspace.mcpClients, client.authType ≠ .oauth2 →
        withoutMcpTokens client = client := by
  have ownClient (client : McpClient) (mem : client ∈ workspace.mcpClients) (found : McpClient)
      (foundEq : found ∈ Resources.lastWithId McpClient.id workspace.mcpClients client.id) :
      found = client := by
    have foundMem := List.mem_reverse.mp (List.mem_of_find?_eq_some foundEq)
    have sameId : found.id = client.id := by simpa using List.find?_some foundEq
    exact List.inj_on_of_nodup_map mcpClients foundMem mem sameId
  constructor
  · intro own client mem notOAuth
    cases foundEq : Resources.lastWithId McpClient.id workspace.mcpClients client.id with
    | none =>
        have absent := List.find?_eq_none.mp foundEq client (List.mem_reverse.mpr mem)
        simp at absent
    | some found =>
        have shares := own.mcpClients client mem found foundEq
        simpa [SharesTokens, notOAuth] using shares
  · intro holdNone
    refine ⟨?_, ?_, ?_, ?_⟩
    · intro environment mem isPrivate sameId
      rcases List.mem_map.mp sameId with ⟨other, otherMem, idEq⟩
      rcases List.mem_filter.mp otherMem with ⟨listed, isPublic⟩
      rw [List.inj_on_of_nodup_map environments listed mem idEq, isPrivate] at isPublic
      cases isPublic
    · intro collection mem found foundEq
      have foundMem := List.mem_of_find?_eq_some foundEq
      have sameId : found.id = collection.id := by simpa using List.find?_some foundEq
      rw [List.inj_on_of_nodup_map collections foundMem mem sameId]
      refine ⟨?_, List.Perm.refl _, fun _ => rfl, fun absent present => absurd present absent⟩
      intro environment listed isPublic present
      rcases List.mem_map.mp present with ⟨other, otherMem, idEq⟩
      rcases List.mem_filter.mp otherMem with ⟨otherListed, isPrivate⟩
      rw [List.inj_on_of_nodup_map (subEnvironments collection mem) otherListed listed idEq,
        isPublic] at isPrivate
      cases isPrivate
    · rintro ⟨key, auth⟩ mem oauth last found
      have same := List.inj_on_of_nodup_map keys (mem_of_lastValue found) mem rfl
      rw [(Prod.mk.injEq _ _ _ _).mp same |>.2]
      rw [SharesRuntime, if_pos oauth]
      rfl
    · intro client mem found foundEq
      rw [ownClient client mem found foundEq]
      by_cases oauth : client.authType = .oauth2
      · rw [SharesTokens, if_pos ⟨oauth, oauth⟩]
        rfl
      · simpa [SharesTokens, oauth] using holdNone client mem oauth

/-! ## A client that gave up OAuth -/

/-- A client with a bearer token that still holds the refresh token of its former OAuth. -/
def formerOAuthClient : McpClient where
  id := "client"
  name := "Client"
  env := []
  headers := []
  authType := .bearer
  token := "bearer"
  oauthRefreshToken := "refresh"
  oauthIdentityToken := ""
  oauthExpiresAt := 0
  oauthTokenPrefix := "Bearer"
  oauthRegisteredClientId := ""
  oauthRegisteredClientSecret := ""
  oauthRegisteredClientIdIssuedAt := 0
  oauthRegisteredClientSecretExpiresAt := 0
  oauthRegisteredTokenEndpointAuthMethod := "none"
  content := .null

def formerOAuthWorkspace : Workspace :=
  { blankWorkspace "Project" with
    mcpClients := [formerOAuthClient]
    governance := .obj [("members", .arr [.obj [("id", .str "owner")]]),
      ("currentMemberId", .str "owner")] }

theorem loaded_formerOAuthWorkspace : Loaded formerOAuthWorkspace := by
  refine ⟨rfl, ?_, Or.inl ⟨rfl, rfl⟩, rfl, rfl, ⟨_, rfl⟩, ⟨"owner", by decide⟩⟩
  intro collection mem
  cases mem

/-- The refresh token does not survive either channel. -/
theorem formerOAuthWorkspace_losesToken :
    Loaded formerOAuthWorkspace ∧
      ¬ SameUpToOrder
        (readProject "project" (projectWorkspace formerOAuthWorkspace) formerOAuthWorkspace)
        formerOAuthWorkspace ∧
      ¬ SameUpToOrder (mergeSyncedWorkspace "now" formerOAuthWorkspace
        (pushedPayload .null 1 formerOAuthWorkspace)) formerOAuthWorkspace := by
  refine ⟨loaded_formerOAuthWorkspace, ?_, ?_⟩
  · intro same
    have clients := congrArg Workspace.mcpClients same.rest
    change [withoutMcpTokens (withoutMcpTokens formerOAuthClient)] = [formerOAuthClient] at clients
    revert clients
    decide
  · intro same
    have clients := congrArg Workspace.mcpClients same.rest
    change [withoutMcpTokens (withoutMcpTokens formerOAuthClient)] = [formerOAuthClient] at clients
    revert clients
    decide

/-- A private environment, its selection and the tokens of a client with OAuth. -/
def privateWorkspace : Workspace :=
  { formerOAuthWorkspace with
    environments :=
      [⟨"base", "Base", [], none, false, .null⟩, ⟨"device", "Device", [], some "base", true, .null⟩]
    activeEnvironmentId := "device"
    mcpClients := [{ formerOAuthClient with authType := .oauth2 }] }

theorem publishing_readsBack_private :
    Loaded privateWorkspace ∧
      SameUpToOrder (readProject "project" (projectWorkspace privateWorkspace) privateWorkspace)
        privateWorkspace := by
  have loaded : Loaded privateWorkspace := by
    refine ⟨rfl, ?_, Or.inr ?_, rfl, rfl, ⟨_, rfl⟩, ⟨"owner", by decide⟩⟩
    · intro collection mem
      cases mem
    · exact ⟨⟨"device", "Device", [], some "base", true, .null⟩, by simp [privateWorkspace], rfl⟩
  refine ⟨loaded, ?_⟩
  apply (publishing_readsBack_iff loaded "project" .null "now" 1).1.mpr
  rw [findsItsOwn_iff_of_distinct (by decide) (by decide) (by decide) (by decide) (by decide)]
  intro client mem notOAuth
  rw [List.mem_singleton.mp mem] at notOAuth
  exact absurd rfl notOAuth

end Brunomnia.Projects
