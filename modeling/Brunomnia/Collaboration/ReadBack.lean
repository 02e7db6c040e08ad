import Brunomnia.Collaboration.Frame
import Brunomnia.Collaboration.Retention

/-!
# Reading a snapshot back

A resource that a snapshot was applied to should have that snapshot. This holds for
collections, API designs and mock servers; the token prefix of an OAuth 2 client
and the privacy and parents of environments decide it for the other kinds. Right
after a checkout or a restore the resource is then not dirty.
-/

namespace Brunomnia.Collaboration

open Brunomnia.Library Json

/-- The environments of the workspace that a snapshot of a branch does not replace. -/
def environmentsOutside (environments : List Json) (id : String) : List Json :=
  environments.filter fun environment =>
    decide (environment.id ∉ (publicBranch environments id).map Json.id)

/-- Incoming environments read back as a branch: all of them are public next to the
environments outside, no public environment outside has an id or a parent among
them, and no public environment is the parent of their root. -/
structure EnvironmentsReadBack (outside : List Json) (id : String) (incoming : List Json) :
    Prop where
  incomingPublic : ∀ environment ∈ incoming, isPublic (outside ++ incoming) environment
  outsideApart : ∀ environment ∈ outside, isPublic (outside ++ incoming) environment →
    environment.id ∉ incoming.map Json.id ∧
      ∀ parent, environmentParent environment = some parent → parent ∉ incoming.map Json.id
  rooted : ∃ root ∈ incoming, root.id = id ∧ ∀ parent, environmentParent root = some parent →
    parent ∉ (publicEnvironments (outside ++ incoming)).map Json.id

/-- When a snapshot that is applied to a resource is its snapshot afterwards. -/
def ReadsBack (workspace : Workspace) (kind : CollaborationResourceKind) (id : String)
    (snapshot : Json) : Prop :=
  match kind with
  | .collection | .apiDesign | .mockServer => True
  | .environment =>
      EnvironmentsReadBack (environmentsOutside workspace.environments id) id
        (snapshot.list "environments")
  | .mcpClient =>
      ∀ client, snapshot.get? "mcpClient" = some client → client.text "authType" = "oauth2" →
        ∀ found, lastWithId workspace.mcpClients id = some found →
          found.text "authType" = "oauth2" →
            found.get? "oauthTokenPrefix" = client.get? "oauthTokenPrefix"

/-- The snapshot of a resource after one was applied is the applied one. -/
def SnapshotRestored (workspace : Workspace) (key : String) (snapshot : Json) : Prop :=
  ∃ after, applyCollaborationSnapshot workspace key snapshot = .ok after ∧
    collaborationResourceSnapshot after key = .ok snapshot

/-! ## Replaced values -/

theorem find?_replaced {values : List Json} {id : String} {change : Json → Json} {result : Json}
    (sameId : ∀ value, (change value).id = value.id)
    (replaced : ∀ value, value.id = id → change value = result)
    (present : ∃ value ∈ values, value.id = id) :
    (values.map change).find? (fun candidate => candidate.id = id) = some result := by
  have presentAfter : ∃ value ∈ values.map change, value.id = id := by
    rcases present with ⟨value, valueMem, valueId⟩
    exact ⟨change value, List.mem_map_of_mem valueMem, (sameId value).trans valueId⟩
  rcases exists_find_of_mem presentAfter with ⟨found, foundMem, foundId, foundEq⟩
  rcases List.mem_map.mp foundMem with ⟨value, _, rfl⟩
  rw [foundEq, replaced value ((sameId value).symm.trans foundId)]

theorem find?_replaceById {values : List Json} {value : Json}
    (present : ∃ candidate ∈ values, candidate.id = value.id) :
    (replaceById values value.id value).find? (fun candidate => candidate.id = value.id) =
      some value := by
  apply find?_replaced _ _ present
  · intro candidate
    by_cases idEq : candidate.id = value.id
    · rw [if_pos idEq, idEq]
    · rw [if_neg idEq]
  · exact fun candidate idEq => if_pos idEq

theorem listed_of_find {workspace : Workspace} {kind : CollaborationResourceKind} {id : String}
    {value : Json} (found : (resourceValues workspace kind).find?
      (fun candidate => candidate.id = id) = some value) : Listed workspace kind id :=
  ⟨value, List.mem_of_find?_eq_some found, by simpa using List.find?_some found⟩

section Kinds

variable {workspace : Workspace}

theorem design_restored {design : Json} (object : design.isObject)
    (listed : Listed workspace .apiDesign design.id) :
    SnapshotRestored workspace (resourceKey .apiDesign design.id)
      (objectOf "apiDesign" (some design)) := by
  have found := find?_replaceById listed
  refine ⟨{ workspace with apiDesigns := replaceById workspace.apiDesigns design.id design },
    ?_, ?_⟩
  · rw [objectOf, applyCollaborationSnapshot_resourceKey]
    dsimp only
    rw [← objectOf, snapshotValue_objectOf "apiDesign" object]
    rfl
  · rw [collaborationResourceSnapshot_of_listed (listed_of_find found), snapshotOf]
    exact congrArg (fun value => Except.ok (objectOf "apiDesign" value)) found

theorem server_restored {server : Json} (object : server.isObject)
    (listed : Listed workspace .mockServer server.id) :
    SnapshotRestored workspace (resourceKey .mockServer server.id)
      (objectOf "mockServer" (some server)) := by
  have found := find?_replaceById listed
  refine ⟨{ workspace with mockServers := replaceById workspace.mockServers server.id server },
    ?_, ?_⟩
  · rw [objectOf, applyCollaborationSnapshot_resourceKey]
    dsimp only
    rw [← objectOf, snapshotValue_objectOf "mockServer" object]
    rfl
  · rw [collaborationResourceSnapshot_of_listed (listed_of_find found), snapshotOf]
    exact congrArg (fun value => Except.ok (objectOf "mockServer" value)) found

theorem collection_restored {collection : Json} {testSuites : List Json}
    (ownSuites : ∀ suite ∈ testSuites, suite.text "collectionId" = collection.id)
    (listed : Listed workspace .collection collection.id) :
    SnapshotRestored workspace (resourceKey .collection collection.id)
      (.obj [("collection", sharedCollection collection), ("testSuites", .arr testSuites)]) := by
  set restored := mergeCollectionAuth (localAuth workspace)
    (withoutCollectionTokens (sharedCollection collection)) with restoredEq
  have applied := applyCollectionSnapshot_shared workspace collection testSuites
  set after := mergeLocalOAuth2RuntimeCredentials workspace
    { workspace with
      collections := replaceById workspace.collections collection.id (sharedCollection collection)
      testSuites := (workspace.testSuites.filter fun suite =>
        suite.text "collectionId" ≠ collection.id) ++ testSuites } with afterEq
  have afterCollections : after.collections = workspace.collections.map fun candidate =>
      mergeCollectionAuth (localAuth workspace) (withoutCollectionTokens
        (if candidate.id = collection.id then sharedCollection collection else candidate)) := by
    rw [afterEq]
    simp only [mergeLocalOAuth2RuntimeCredentials, withoutOAuth2RuntimeCredentials,
      replaceById_eq_map, List.map_map]
    rfl
  have found : after.collections.find? (fun candidate => candidate.id = collection.id) =
      some restored := by
    rw [afterCollections]
    apply find?_replaced _ _ listed
    · intro candidate
      rw [mergeCollectionAuth_id, withoutCollectionTokens_id]
      by_cases idEq : candidate.id = collection.id
      · rw [if_pos idEq, sharedCollection_id, idEq]
      · rw [if_neg idEq]
    · intro candidate idEq
      rw [if_pos idEq]
  have suites : after.testSuites.filter (fun suite => suite.text "collectionId" = collection.id) =
      testSuites := by
    change ((workspace.testSuites.filter fun suite =>
      decide (suite.text "collectionId" ≠ collection.id)) ++ testSuites).filter _ = _
    rw [List.filter_append, List.filter_filter]
    have noOthers : workspace.testSuites.filter (fun suite =>
        decide (suite.text "collectionId" = collection.id) &&
          decide (suite.text "collectionId" ≠ collection.id)) = [] := by
      apply List.filter_eq_nil_iff.mpr
      simp
    have allOwn : testSuites.filter (fun suite =>
        decide (suite.text "collectionId" = collection.id)) = testSuites := by
      apply List.filter_eq_self.mpr
      simpa using ownSuites
    rw [noOthers, allOwn, List.nil_append]
  have same : sharedCollection restored = sharedCollection collection :=
    sharedCollection_of_restored _ _
  refine ⟨after, ?_, ?_⟩
  · rw [applyCollaborationSnapshot_resourceKey]
    exact applied
  · rw [collaborationResourceSnapshot_of_listed (listed_of_find found), snapshotOf,
      shareableCollection, found]
    simp only [suites]
    rw [← same]
    rfl

/-- Only the token prefix of an OAuth 2 client decides whether a client is read back. -/
theorem client_restored_iff (localTyped : ∀ client ∈ workspace.mcpClients, ClientTyped client)
    {client : Json} (listed : Listed workspace .mcpClient client.id) :
    SnapshotRestored workspace (resourceKey .mcpClient client.id)
        (objectOf "mcpClient" (some (shareableMcpClient client))) ↔
      ReadsBack workspace .mcpClient client.id
        (objectOf "mcpClient" (some (shareableMcpClient client))) := by
  set restored := mergeClient workspace.mcpClients
    (withoutMcpTokens (shareableMcpClient client)) with restoredEq
  set after := mergeLocalOAuth2RuntimeCredentials workspace
    { workspace with
      mcpClients := replaceById workspace.mcpClients client.id (shareableMcpClient client) }
    with afterEq
  have applied : applyCollaborationSnapshot workspace (resourceKey .mcpClient client.id)
      (objectOf "mcpClient" (some (shareableMcpClient client))) = .ok after := by
    have value := snapshotValue_objectOf "mcpClient"
      (show (shareableMcpClient client).isObject from rfl)
    rw [shareableMcpClient_id] at value
    rw [objectOf, applyCollaborationSnapshot_resourceKey]
    dsimp only
    rw [← objectOf, value]
    rfl
  have found : after.mcpClients.find? (fun candidate => candidate.id = client.id) =
      some restored := by
    have afterClients : after.mcpClients = workspace.mcpClients.map fun candidate =>
        mergeClient workspace.mcpClients (withoutMcpTokens
          (if candidate.id = client.id then shareableMcpClient client else candidate)) := by
      rw [afterEq]
      simp only [mergeLocalOAuth2RuntimeCredentials, withoutOAuth2RuntimeCredentials,
        replaceById_eq_map, List.map_map]
      rfl
    rw [afterClients]
    apply find?_replaced _ _ listed
    · intro candidate
      rw [mergeClient_id]
      by_cases idEq : candidate.id = client.id
      · rw [if_pos idEq, idEq]
        exact (shareableMcpClient_id _).trans (shareableMcpClient_id _)
      · rw [if_neg idEq]
        exact shareableMcpClient_id _
    · intro candidate idEq
      rw [if_pos idEq]
  have localFound : ∀ value, lastWithId workspace.mcpClients client.id = some value →
      ClientTyped value := by
    intro value valueFound
    exact localTyped value (List.mem_reverse.mp (List.mem_of_find?_eq_some valueFound))
  have same_iff := shareableMcpClient_of_restored_iff localFound
  have readBack : collaborationResourceSnapshot after (resourceKey .mcpClient client.id) =
      .ok (objectOf "mcpClient" (some (shareableMcpClient restored))) := by
    rw [collaborationResourceSnapshot_of_listed (listed_of_find found), snapshotOf, found]
    rfl
  have objectOf_inj : ∀ left right : Json,
      objectOf "mcpClient" (some left) = objectOf "mcpClient" (some right) ↔ left = right := by
    simp [objectOf]
  have condition_iff : ReadsBack workspace .mcpClient client.id
      (objectOf "mcpClient" (some (shareableMcpClient client))) ↔
        shareableMcpClient restored = shareableMcpClient client := by
    rw [same_iff]
    simp only [ReadsBack, get?_objectOf, Option.some.injEq, forall_eq',
      shareableMcpClient_authType, get?_shareableMcpClient_prefix]
    exact ⟨fun kept found foundEq oauth => kept oauth found foundEq,
      fun kept oauth found foundEq => kept found foundEq oauth⟩
  rw [condition_iff]
  constructor
  · rintro ⟨other, otherApplied, otherRead⟩
    rw [applied, Except.ok.injEq] at otherApplied
    subst other
    rw [readBack, Except.ok.injEq, objectOf_inj] at otherRead
    exact otherRead
  · exact fun same => ⟨after, applied, by rw [readBack, same]⟩

end Kinds

/-! ## Environments -/

section Environments

variable {environments : List Json} {id : String}

/-- One environment is below another one. -/
abbrev Below (environments : List Json) (child ancestor : String) : Prop :=
  Relation.ReflTransGen (Linked Json.id environmentParent environments) child ancestor

theorem mem_environmentBranchIds {child : String} :
    child ∈ environmentBranchIds environments id ↔ Below environments child id := by
  rw [environmentBranchIds, mem_closurePasses_length_iff le_rfl]
  simp

theorem mem_publicBranch {environment : Json} :
    environment ∈ publicBranch environments id ↔
      environment ∈ publicEnvironments environments ∧
        Below (publicEnvironments environments) environment.id id := by
  rw [publicBranch, List.mem_filter, decide_eq_true_eq, mem_environmentBranchIds]

theorem isBranchRoot_iff {environment : Json} :
    isBranchRoot environments environment ↔
      ∀ parent, environmentParent environment = some parent →
        parent ∉ environments.map Json.id := by
  unfold isBranchRoot
  cases environmentParent environment with
  | none => simp
  | some parent => simp

/-- What is below the root of a branch is so within the branch. -/
theorem below_publicBranch {child : String}
    (below : Below (publicEnvironments environments) child id) :
    Below (publicBranch environments id) child id := by
  induction below using Relation.ReflTransGen.head_induction_on with
  | refl => exact Relation.ReflTransGen.refl
  | head link rest ih =>
      rcases link with ⟨environment, environmentMem, rfl, parentEq⟩
      have inBranch : environment ∈ publicBranch environments id :=
        mem_publicBranch.mpr ⟨environmentMem,
          Relation.ReflTransGen.head ⟨environment, environmentMem, rfl, parentEq⟩ rest⟩
      exact Relation.ReflTransGen.head ⟨environment, inBranch, rfl, parentEq⟩ ih

theorem Below.mono {finer coarser : List Json} {child : String}
    (subset : ∀ environment ∈ finer, environment ∈ coarser) (below : Below finer child id) :
    Below coarser child id := by
  refine Relation.ReflTransGen.mono ?_ _ _ below
  rintro child parent ⟨environment, environmentMem, idEq, parentEq⟩
  exact ⟨environment, subset environment environmentMem, idEq, parentEq⟩

theorem filter_append_eq_right_iff {outside incoming : List Json} {test : Json → Bool} :
    (outside ++ incoming).filter test = incoming ↔
      (∀ value ∈ outside, ¬ test value) ∧ ∀ value ∈ incoming, test value := by
  constructor
  · intro same
    have allPass : ∀ value ∈ incoming, test value := by
      intro value valueMem
      rw [← same] at valueMem
      exact (List.mem_filter.mp valueMem).2
    rw [List.filter_append, List.filter_eq_self.mpr allPass, List.append_left_eq_self,
      List.filter_eq_nil_iff] at same
    exact ⟨same, allPass⟩
  · rintro ⟨nonePass, allPass⟩
    rw [List.filter_append, List.filter_eq_self.mpr allPass, List.filter_eq_nil_iff.mpr nonePass,
      List.nil_append]

theorem publicBranch_eq_filter :
    publicBranch environments id = environments.filter fun environment =>
      isPublic environments environment &&
        decide (environment.id ∈ environmentBranchIds (publicEnvironments environments) id) := by
  rw [publicBranch, publicEnvironments, List.filter_filter]
  apply List.filter_congr
  intro environment _
  exact Bool.and_comm _ _

/-- The branch of a root that reads incoming environments back. -/
theorem readsBack_iff {outside incoming earlier : List Json}
    (incomingEq : incoming = publicBranch earlier id)
    (rooted : ∃ root ∈ incoming, root.id = id) :
    (publicBranch (outside ++ incoming) id = incoming ∧
        ∃ root ∈ publicEnvironments (outside ++ incoming), root.id = id ∧
          isBranchRoot (publicEnvironments (outside ++ incoming)) root) ↔
      EnvironmentsReadBack outside id incoming := by
  rw [publicBranch_eq_filter, filter_append_eq_right_iff]
  simp only [Bool.and_eq_true, decide_eq_true_eq, mem_environmentBranchIds, isBranchRoot_iff]
  have mem_public : ∀ environment, environment ∈ publicEnvironments (outside ++ incoming) ↔
      (environment ∈ outside ∨ environment ∈ incoming) ∧
        isPublic (outside ++ incoming) environment := by
    intro environment
    rw [publicEnvironments, List.mem_filter, List.mem_append]
  constructor
  · rintro ⟨⟨outsideFails, incomingPass⟩, root, rootMem, rootId, isRoot⟩
    have outsideApart : ∀ environment ∈ outside,
        isPublic (outside ++ incoming) environment →
          environment.id ∉ incoming.map Json.id ∧
            ∀ parent, environmentParent environment = some parent →
              parent ∉ incoming.map Json.id := by
      intro environment environmentMem environmentPublic
      have notBelow : ¬ Below (publicEnvironments (outside ++ incoming)) environment.id id :=
        fun below => outsideFails environment environmentMem ⟨environmentPublic, below⟩
      constructor
      · intro shared
        rcases List.mem_map.mp shared with ⟨other, otherMem, idEq⟩
        exact notBelow (idEq ▸ (incomingPass other otherMem).2)
      · intro parent parentEq shared
        rcases List.mem_map.mp shared with ⟨other, otherMem, rfl⟩
        have inPublic := (mem_public environment).mpr ⟨Or.inl environmentMem, environmentPublic⟩
        exact notBelow (Relation.ReflTransGen.head ⟨environment, inPublic, rfl, parentEq⟩
          (incomingPass other otherMem).2)
    refine ⟨fun environment environmentMem => (incomingPass environment environmentMem).1,
      outsideApart, root, ?_, rootId, isRoot⟩
    rcases (mem_public root).mp rootMem with ⟨rootOutside | rootIncoming, rootPublic⟩
    · rcases rooted with ⟨other, otherMem, otherId⟩
      exact absurd (List.mem_map.mpr ⟨other, otherMem, otherId.trans rootId.symm⟩)
        (outsideApart root rootOutside rootPublic).1
    · exact rootIncoming
  · rintro ⟨incomingPublic, outsideApart, root, rootMem, rootId, isRoot⟩
    have incomingSubset : ∀ environment ∈ incoming,
        environment ∈ publicEnvironments (outside ++ incoming) :=
      fun environment environmentMem =>
        (mem_public environment).mpr ⟨Or.inr environmentMem, incomingPublic _ environmentMem⟩
    -- Everything below the root has the id of an incoming environment.
    have onlyIncoming : ∀ child, Below (publicEnvironments (outside ++ incoming)) child id →
        child ∈ incoming.map Json.id := by
      intro child below
      induction below using Relation.ReflTransGen.head_induction_on with
      | refl => exact List.mem_map.mpr ⟨root, rootMem, rootId⟩
      | head link _ ih =>
          rcases link with ⟨environment, environmentMem, rfl, parentEq⟩
          rcases (mem_public environment).mp environmentMem with ⟨outer | inner, isPub⟩
          · exact absurd ih ((outsideApart environment outer isPub).2 _ parentEq)
          · exact List.mem_map_of_mem inner
    refine ⟨⟨?_, ?_⟩, root, incomingSubset root rootMem, rootId, isRoot⟩
    · rintro environment environmentMem ⟨isPub, below⟩
      exact (outsideApart environment environmentMem isPub).1 (onlyIncoming _ below)
    · intro environment environmentMem
      refine ⟨incomingPublic environment environmentMem, ?_⟩
      apply Below.mono incomingSubset
      rw [incomingEq] at environmentMem ⊢
      exact below_publicBranch (mem_publicBranch.mp environmentMem).2

theorem environment_restored_iff {workspace : Workspace}
    (listed : Listed workspace .environment id) {earlier : List Json}
    (rooted : ∃ root ∈ publicBranch earlier id, root.id = id) :
    SnapshotRestored workspace (resourceKey .environment id)
        (.obj [("environments", .arr (publicBranch earlier id))]) ↔
      ReadsBack workspace .environment id
        (.obj [("environments", .arr (publicBranch earlier id))]) := by
  set incoming := publicBranch earlier id with incomingEq
  set after : Workspace := { workspace with
    environments := environmentsOutside workspace.environments id ++ incoming } with afterEq
  have applied : applyCollaborationSnapshot workspace (resourceKey .environment id)
      (.obj [("environments", .arr incoming)]) = .ok after := by
    rw [applyCollaborationSnapshot_resourceKey]
    exact applyEnvironmentSnapshot_of_listed listed rooted
  have incomingList : (Json.obj [("environments", .arr incoming)]).list "environments" =
      incoming := list_of_get? (by simp [get?, members])
  have listedAfter : Listed after .environment id ↔
      ∃ root ∈ publicEnvironments after.environments, root.id = id ∧
        isBranchRoot (publicEnvironments after.environments) root := by
    simp only [Listed, resourceValues, List.mem_filter]
    exact exists_congr fun root => by tauto
  unfold ReadsBack
  dsimp only
  rw [incomingList, ← readsBack_iff incomingEq rooted]
  constructor
  · rintro ⟨other, otherApplied, otherRead⟩
    rw [applied, Except.ok.injEq] at otherApplied
    subst other
    rcases listed_of_snapshot otherRead with ⟨isListed, taken⟩
    have branchEq := (snapshotOf_environment_cases taken).1
    simp only [Json.obj.injEq, List.cons.injEq, Prod.mk.injEq, true_and, and_true,
      Json.arr.injEq] at branchEq
    exact ⟨branchEq.symm, listedAfter.mp isListed⟩
  · rintro ⟨branchEq, isRooted⟩
    have isListed := listedAfter.mpr isRooted
    refine ⟨after, applied, ?_⟩
    rw [collaborationResourceSnapshot_of_listed isListed, snapshotOf,
      environmentBranch_of_listed isListed]
    have same : publicBranch after.environments id = incoming := branchEq
    rw [same]
    rfl

end Environments

/-! ## All kinds -/

/-- A snapshot that is applied is the snapshot of its resource afterwards, exactly if
it reads back. -/
theorem snapshotRestored_iff {earlier workspace : Workspace} (earlierTyped : earlier.Typed)
    (typed : workspace.Typed) {resource : CollaborationResource}
    (resourceMem : resource ∈ collaborationResources workspace) {snapshot : Json}
    (taken : collaborationResourceSnapshot earlier resource.key = .ok snapshot) :
    SnapshotRestored workspace resource.key snapshot ↔
      ReadsBack workspace resource.kind resource.id snapshot := by
  rw [resource_key_eq resourceMem] at taken ⊢
  rcases mem_collaborationResources.mp resourceMem with ⟨value, valueMem, valueEq⟩
  have listed : Listed workspace resource.kind resource.id :=
    ⟨value, valueMem, by rw [← valueEq]; rfl⟩
  rcases listed_of_snapshot taken with ⟨earlierListed, taken⟩
  generalize resource.id = id at taken listed earlierListed ⊢
  cases kind : resource.kind with
  | collection =>
      rw [kind] at taken listed
      rcases snapshotOf_collection_cases taken with ⟨shared, _, rfl, rfl⟩
      refine iff_of_true (collection_restored ?_ listed) trivial
      intro suite suiteMem
      simpa using (List.mem_filter.mp suiteMem).2
  | environment =>
      rw [kind] at taken listed
      rcases snapshotOf_environment_cases taken with ⟨rfl, rooted⟩
      exact environment_restored_iff listed rooted
  | apiDesign =>
      rw [kind] at taken earlierListed listed
      rcases exists_find_of_mem earlierListed with ⟨design, designMem, rfl, found⟩
      have designFound : earlier.apiDesigns.find? (fun candidate => candidate.id = design.id) =
          some design := found
      simp only [snapshotOf, designFound, Except.ok.injEq] at taken
      rw [← taken]
      exact iff_of_true (design_restored (earlierTyped.apiDesigns design designMem) listed) trivial
  | mockServer =>
      rw [kind] at taken earlierListed listed
      rcases exists_find_of_mem earlierListed with ⟨server, serverMem, rfl, found⟩
      have serverFound : earlier.mockServers.find? (fun candidate => candidate.id = server.id) =
          some server := found
      simp only [snapshotOf, serverFound, Except.ok.injEq] at taken
      rw [← taken]
      exact iff_of_true (server_restored (earlierTyped.mockServers server serverMem) listed) trivial
  | mcpClient =>
      rw [kind] at taken earlierListed listed
      rcases exists_find_of_mem earlierListed with ⟨client, clientMem, rfl, found⟩
      have clientFound : earlier.mcpClients.find? (fun candidate => candidate.id = client.id) =
          some client := found
      simp only [snapshotOf, clientFound, Option.map_some, Except.ok.injEq] at taken
      rw [← taken]
      exact client_restored_iff typed.mcpClients listed

/-! ## Clean after a checkout or a restore -/

theorem mem_dirtyCollaborationResources {workspace : Workspace}
    {repository : CollaborationRepository} {key : String} :
    key ∈ dirtyCollaborationResources workspace repository ↔
      (∃ resource ∈ collaborationResources workspace, resource.key = key) ∧
        (collaborationResourceSnapshot workspace key).toOption ≠
          (branchHead repository key (activeCollaborationBranch repository key)).map
            CollaborationCommit.snapshot := by
  rw [dirtyCollaborationResources, List.mem_map]
  constructor
  · rintro ⟨resource, resourceMem, rfl⟩
    rcases List.mem_filter.mp resourceMem with ⟨listed, differs⟩
    exact ⟨⟨resource, listed, rfl⟩, by simpa using differs⟩
  · rintro ⟨⟨resource, listed, rfl⟩, differs⟩
    exact ⟨resource, List.mem_filter.mpr ⟨listed, by simpa using differs⟩, rfl⟩

/-- A commit that can be checked out and restored without leaving its resource dirty. -/
structure LeavesClean (dateParse : String → ℤ) (workspace : Workspace)
    (repository : CollaborationRepository) (commit : CollaborationCommit)
    (actor now identifier : String) : Prop where
  restored : SnapshotRestored workspace commit.resourceKey commit.snapshot
  checkout : ∀ name branch, findBranch repository commit.resourceKey name = some branch →
    headCommit repository branch = some commit →
      ∃ result, checkoutCollaborationBranch workspace repository commit.resourceKey name =
          .ok result ∧
        commit.resourceKey ∉ dirtyCollaborationResources result.1 result.2
  restore : ∃ result, restoreCollaborationCommit dateParse workspace repository commit.id actor
      now identifier = .ok result ∧
    commit.resourceKey ∉ dirtyCollaborationResources result.1 result.2.1

section Clean

variable {dateParse : String → ℤ} {workspace : Workspace} {repository : CollaborationRepository}
  {commit : CollaborationCommit}

theorem checkout_clean (restored : SnapshotRestored workspace commit.resourceKey commit.snapshot)
    {name : String} (named : name ≠ "") {branch : CollaborationBranch}
    (found : findBranch repository commit.resourceKey name = some branch)
    (isHead : headCommit repository branch = some commit) :
    ∃ result, checkoutCollaborationBranch workspace repository commit.resourceKey name =
        .ok result ∧
      commit.resourceKey ∉ dirtyCollaborationResources result.1 result.2 := by
  rcases restored with ⟨after, applied, readBack⟩
  set checkedOut : CollaborationRepository := { repository with
    activeBranches := setActiveBranch repository.activeBranches commit.resourceKey name }
    with checkedOutEq
  refine ⟨(after, checkedOut), ?_, ?_⟩
  · rw [checkoutCollaborationBranch, found]
    simp only [isHead, applied]
    rfl
  · have active : activeCollaborationBranch checkedOut commit.resourceKey = name := by
      rw [activeCollaborationBranch, checkedOutEq]
      simp only [lookup_setActiveBranch]
      exact if_neg named
    have foundAfter : findBranch checkedOut commit.resourceKey name = some branch := found
    have headAfter : headCommit checkedOut branch = some commit := isHead
    rw [mem_dirtyCollaborationResources, readBack, active, branchHead, foundAfter,
      Option.bind_some, headAfter]
    exact fun dirty => dirty.2 rfl

theorem restore_clean_iff (sound : repository.Sound) (commitMem : commit ∈ repository.commits)
    (restored : SnapshotRestored workspace commit.resourceKey commit.snapshot)
    {actor now identifier : String}
    (unused : identifier ∉ repository.commits.map CollaborationCommit.id)
    (nonempty : identifier ≠ "") :
    (∃ result, restoreCollaborationCommit dateParse workspace repository commit.id actor now
        identifier = .ok result ∧
      commit.resourceKey ∉ dirtyCollaborationResources result.1 result.2.1) ↔
      ((commitsOf repository commit.resourceKey).filter fun other =>
        decide (dateParse now ≤ dateParse other.createdAt)).length < maxCommitsPerResource := by
  rcases restored with ⟨after, applied, readBack⟩
  set restoring := restoringCommit repository commit actor now identifier with restoringEq
  have fresh : Fresh repository restoring := ⟨unused, nonempty⟩
  have accepted : restoreCollaborationCommit dateParse workspace repository commit.id actor now
      identifier = .ok (after, addCommit dateParse repository restoring, restoring) := by
    rw [restoreCollaborationCommit, sound.findCommit_eq commitMem]
    simp only [applied]
    rfl
  have kept_iff := mem_addCommit_self dateParse sound fresh
  have head := branchHead_addCommit dateParse sound fresh
  have listed : ∃ resource ∈ collaborationResources after, resource.key = commit.resourceKey := by
    unfold collaborationResourceSnapshot at readBack
    split at readBack
    · simp at readBack
    · rename_i resource found
      exact ⟨resource, List.mem_of_find?_eq_some found, by simpa using List.find?_some found⟩
  have dirty_iff : commit.resourceKey ∈ dirtyCollaborationResources after
      (addCommit dateParse repository restoring) ↔
        restoring ∉ (addCommit dateParse repository restoring).commits := by
    rw [mem_dirtyCollaborationResources, and_iff_right listed, readBack]
    change some commit.snapshot ≠ Option.map _ (branchHead _ restoring.resourceKey
      restoring.branch) ↔ _
    rw [head]
    split
    · rename_i kept
      exact iff_of_false (not_not.mpr rfl) (not_not.mpr kept)
    · rename_i dropped
      exact iff_of_true (by simp) dropped
  have newest_iff : restoring ∈ (addCommit dateParse repository restoring).commits ↔
      ((commitsOf repository commit.resourceKey).filter fun other =>
        decide (dateParse now ≤ dateParse other.createdAt)).length < maxCommitsPerResource :=
    kept_iff
  rw [← newest_iff, accepted]
  simp only [Except.ok.injEq, exists_eq_left', dirty_iff, not_not]

end Clean

/-- A commit can be read back, checked out and restored without leaving its resource
dirty, exactly if its snapshot reads back and a commit made now is retained. -/
theorem leavesClean_iff {dateParse : String → ℤ} {earlier workspace : Workspace}
    (earlierTyped : earlier.Typed) (typed : workspace.Typed) {resource : CollaborationResource}
    (resourceMem : resource ∈ collaborationResources workspace)
    {repository : CollaborationRepository} (sound : repository.Sound)
    (named : ∀ branch ∈ repository.branches, branch.name ≠ "") {commit : CollaborationCommit}
    (commitMem : commit ∈ repository.commits) (keyEq : commit.resourceKey = resource.key)
    (taken : collaborationResourceSnapshot earlier resource.key = .ok commit.snapshot)
    {actor now identifier : String}
    (unused : identifier ∉ repository.commits.map CollaborationCommit.id)
    (nonempty : identifier ≠ "") :
    LeavesClean dateParse workspace repository commit actor now identifier ↔
      ReadsBack workspace resource.kind resource.id commit.snapshot ∧
        ((commitsOf repository resource.key).filter fun other =>
          decide (dateParse now ≤ dateParse other.createdAt)).length < maxCommitsPerResource := by
  have restored_iff := snapshotRestored_iff earlierTyped typed resourceMem taken
  rw [← keyEq] at restored_iff ⊢
  constructor
  · rintro ⟨restored, _, restore⟩
    exact ⟨restored_iff.mp restored,
      (restore_clean_iff sound commitMem restored unused nonempty).mp restore⟩
  · rintro ⟨readsBack, newest⟩
    have restored := restored_iff.mpr readsBack
    refine ⟨restored, fun name branch found isHead => ?_,
      (restore_clean_iff sound commitMem restored unused nonempty).mpr newest⟩
    rcases findBranch_spec found with ⟨branchMem, _, rfl⟩
    exact checkout_clean restored (named branch branchMem) found isHead

theorem shopWorkspace_typed (spec : String) : (shopWorkspace spec).Typed := by
  constructor <;> simp [shopWorkspace, shopDesign, isObject]

/-- The first design can be restored over the second one. -/
theorem shopCommit_leavesClean :
    LeavesClean parseDay (shopWorkspace "v2") branchedSession.repository shopCommit "Ada"
      secondDay "cc" := by
  have listed : ⟨shopKey, .apiDesign, "shop", ""⟩ ∈
      collaborationResources (shopWorkspace "v2") := by decide
  exact (leavesClean_iff (shopWorkspace_typed "v1") (shopWorkspace_typed "v2") listed
    branchedSession_restored.issued.sound (by decide) (by decide) rfl (by decide) (by decide)
    (by decide)).mpr ⟨trivial, by decide⟩

/-- An MCP client that authenticates with OAuth 2. -/
def toolsClient (tokenPrefix : String) : Json :=
  .obj [("id", .str "tools"), ("authType", .str "oauth2"), ("token", .str ""),
    ("oauthRefreshToken", .str ""), ("oauthIdentityToken", .str ""), ("oauthExpiresAt", .num 0),
    ("oauthTokenPrefix", .str tokenPrefix), ("oauthRegisteredClientId", .str ""),
    ("oauthRegisteredClientSecret", .str ""), ("oauthRegisteredClientIdIssuedAt", .num 0),
    ("oauthRegisteredClientSecretExpiresAt", .num 0),
    ("oauthRegisteredTokenEndpointAuthMethod", .str "none")]

def toolsWorkspace (tokenPrefix : String) : Workspace where
  collections := []
  environments := []
  apiDesigns := []
  mockServers := []
  mcpClients := [toolsClient tokenPrefix]
  testSuites := []
  content := .obj []

def toolsSnapshot : Json :=
  .obj [("mcpClient", toolsClient "Bearer")]

theorem toolsWorkspace_typed (tokenPrefix : String) : (toolsWorkspace tokenPrefix).Typed := by
  refine ⟨by simp [toolsWorkspace], by simp [toolsWorkspace], by simp [toolsWorkspace], ?_⟩
  intro client clientMem
  rw [toolsWorkspace, List.mem_singleton] at clientMem
  subst client
  refine ⟨rfl, ?_⟩
  simp [mcpRuntimeKeys, toolsClient, get?, members, lookup_cons_ite]

/-- Applying the snapshot of a client keeps the token prefix of the workspace. -/
theorem token_prefix_not_restored :
    (toolsWorkspace "Bearer").Typed ∧ (toolsWorkspace "Token").Typed ∧
      collaborationResourceSnapshot (toolsWorkspace "Bearer") "mcp-client:tools" =
        .ok toolsSnapshot ∧
      "mcp-client:tools" ∈ (collaborationResources (toolsWorkspace "Token")).map
        CollaborationResource.key ∧
      ¬ SnapshotRestored (toolsWorkspace "Token") "mcp-client:tools" toolsSnapshot := by
  refine ⟨toolsWorkspace_typed _, toolsWorkspace_typed _, by decide, by decide, ?_⟩
  rintro ⟨after, applied, readBack⟩
  have unchanged : applyCollaborationSnapshot (toolsWorkspace "Token") "mcp-client:tools"
      toolsSnapshot = .ok (toolsWorkspace "Token") := by decide
  rw [unchanged, Except.ok.injEq] at applied
  subst after
  exact absurd readBack (by decide)

end Brunomnia.Collaboration
