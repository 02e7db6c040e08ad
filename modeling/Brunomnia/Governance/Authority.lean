import Brunomnia.Governance.Enforced
import Brunomnia.Governance.Logins

/-!
# What a member can change

A change that an editor or a viewer proposes leaves the resources alone that they may not edit.
The governance changes if the proposal passes for a login: it differs from the current one only
in the fields that a login writes, and its log begins with login events. Such proposals need not
record a login, and a login does not pass once the log is full.
-/

namespace Brunomnia.Governance

variable {lowerCase : String → String} {current proposed : GovernanceConfig}

/-! ## Proposals that pass for a login -/

/-- The proposal differs only in the fields that a login writes. -/
structure DiffersAsLogins (current proposed : GovernanceConfig) : Prop where
  settings : SameSettings current proposed
  currentMember : ∃ member ∈ proposed.members, member.id = proposed.currentMemberId ∧
    member.active = true
  memberCount : current.members.length = proposed.members.length
  members : ∀ member ∈ proposed.members, ∃ previous,
    current.members.find? (fun candidate => candidate.id = member.id) = some previous ∧
      SameStanding previous member
  audit : ∃ added, proposed.audit = added ++ current.audit ∧
    ∀ event ∈ added, event.action = "sso.login"

theorem audit_iff {first second : List AuditEvent} :
    (second.length ≤ first.length ∧
        (∀ event ∈ first.take (first.length - second.length), event.action = "sso.login") ∧
        first.drop (first.length - second.length) = second) ↔
      ∃ added, first = added ++ second ∧ ∀ event ∈ added, event.action = "sso.login" := by
  constructor
  · rintro ⟨_, logins, rest⟩
    refine ⟨first.take (first.length - second.length), ?_, logins⟩
    calc
      first = first.take (first.length - second.length) ++
          first.drop (first.length - second.length) := (List.take_append_drop _ first).symm
      _ = first.take (first.length - second.length) ++ second := by rw [rest]
  · rintro ⟨added, rfl, logins⟩
    have count : (added ++ second).length - second.length = added.length := by simp
    refine ⟨by simp, ?_, ?_⟩
    · simpa only [count, List.take_left'] using logins
    · simp only [count, List.drop_left']

theorem currentGovernanceMember_isSome_iff {governance : GovernanceConfig} :
    (currentGovernanceMember governance).isSome = true ↔
      ∃ member ∈ governance.members, member.id = governance.currentMemberId ∧
        member.active = true := by
  simp [currentGovernanceMember]

theorem authenticationOnly_iff :
    authenticationOnlyGovernanceUpdate current proposed = true ↔
      current.sso.enabled = true ∧ DiffersAsLogins current proposed := by
  simp only [authenticationOnlyGovernanceUpdate]
  constructor
  · intro accepted
    split at accepted
    case isTrue => cases accepted
    case isFalse disabled =>
    split at accepted
    case isTrue => cases accepted
    case isFalse compared =>
    split at accepted
    case isTrue => cases accepted
    case isFalse counted =>
    split at accepted
    case isTrue => cases accepted
    case isFalse checked =>
    simp only [ne_eq, not_or, not_not] at compared counted
    simp only [Bool.not_eq_true', not_or, Bool.not_eq_false, not_lt] at checked disabled
    simp only [Bool.and_eq_true, List.all_eq_true, decide_eq_true_eq] at accepted checked
    rcases compared with ⟨organization, sso, scim, policy, teams, resourceGrants⟩
    refine ⟨disabled, ⟨organization, sso, scim, policy, teams, resourceGrants⟩, ?_, counted.2, ?_,
      audit_iff.mp ⟨checked.2, accepted.1, accepted.2⟩⟩
    · apply currentGovernanceMember_isSome_iff.mp
      simpa [Option.isSome_iff_ne_none] using counted.1
    · intro member memberMem
      rcases (Option.any_eq_true _ _).mp (checked.1 member memberMem) with ⟨previous, found, same⟩
      simp only [decide_eq_true_eq] at same
      exact ⟨previous, found, same.1, same.2.1, same.2.2.1, same.2.2.2⟩
  · rintro ⟨enabled, differs⟩
    rcases audit_iff.mpr differs.audit with ⟨longer, logins, rest⟩
    have found := currentGovernanceMember_isSome_iff.mpr differs.currentMember
    have settings := differs.settings
    have checked : (proposed.members.all fun member =>
        (current.members.find? fun candidate => candidate.id = member.id).any fun previous =>
          previous.email = member.email ∧ previous.role = member.role ∧
            previous.active = member.active ∧ previous.source = member.source) = true := by
      rw [List.all_eq_true]
      intro member memberMem
      rcases differs.members member memberMem with ⟨previous, found, same⟩
      rw [found]
      simp [same.email, same.role, same.active, same.source]
    rw [if_neg (by simp [enabled]), if_neg, if_neg, if_neg]
    · simpa [rest] using logins
    · rw [checked]
      simpa using longer
    · simpa [differs.memberCount, Option.isSome_iff_ne_none] using found
    · simp [settings.organization, settings.sso, settings.scim, settings.policy, settings.teams,
        settings.resourceGrants]

/-! ## Logins -/

/-- Members with one id have one standing. -/
def ConsistentMembers (governance : GovernanceConfig) : Prop :=
  ∀ member ∈ governance.members, ∀ previous ∈ governance.members.find? fun candidate =>
    candidate.id = member.id, SameStanding previous member

theorem consistentMembers_of_nodup {governance : GovernanceConfig}
    (nodup : (governance.members.map GovernanceMember.id).Nodup) :
    ConsistentMembers governance := by
  intro member memberMem previous found
  have same : previous.id = member.id := by simpa using List.find?_some found
  obtain rfl := List.inj_on_of_nodup_map nodup (List.mem_of_find?_eq_some found) memberMem same
  exact ⟨rfl, rfl, rfl, rfl⟩

theorem auditLimit_pos (governance : GovernanceConfig) : 1 ≤ auditLimit governance := by
  simp only [auditLimit]
  apply Nat.le_floor
  rw [Nat.cast_one]
  exact le_min (by norm_num) (le_max_left _ _)

/-- What a login does: it writes some fields of members, and one event. -/
structure LoginSpec (current next : GovernanceConfig) (change : GovernanceMember → GovernanceMember)
    (member : GovernanceMember) (event : AuditEvent) : Prop where
  member_mem : member ∈ current.members
  active : member.active = true
  id : ∀ candidate, (change candidate).id = candidate.id
  standing : ∀ candidate, SameStanding candidate (change candidate)
  action : event.action = "sso.login"
  next_eq : next =
    { current with
      currentMemberId := member.id
      members := current.members.map change
      audit := (event :: current.audit).take (auditLimit current) }

theorem IsLogin.spec {next : GovernanceConfig} (login : IsLogin lowerCase current next) :
    ∃ change member event, LoginSpec current next change member event := by
  rcases login with ⟨identity, now, uuid, _, login⟩
  rcases applyAuthenticatedIdentity_eq_ok_iff.mp login with ⟨_, member, found, rfl⟩
  refine ⟨_, member, _, List.mem_of_find?_eq_some found,
    (find_identified_iff.mp found).2.1, ?_, ?_, ?_, rfl⟩
  · intro candidate
    split <;> rfl
  · intro candidate
    split
    · exact candidate.authenticated_standing _ _ _
    · exact ⟨rfl, rfl, rfl, rfl⟩
  · rfl

theorem take_eq_append_iff {events : List AuditEvent} {event : AuditEvent} {limit : ℕ}
    (login : event.action = "sso.login") :
    (∃ added, (event :: events).take limit = added ++ events ∧
        ∀ other ∈ added, other.action = "sso.login") ↔
      events.length < limit ∨ (event :: events).take limit = events := by
  constructor
  · rintro ⟨added, takeEq, _⟩
    by_cases room : events.length < limit
    · exact .inl room
    · right
      have lengths := congrArg List.length takeEq
      simp only [List.length_take, List.length_cons, List.length_append] at lengths
      have noneAdded : added = [] := List.length_eq_zero_iff.mp (by omega)
      rw [takeEq, noneAdded, List.nil_append]
  · rintro (room | full)
    · refine ⟨[event], ?_, by simpa using login⟩
      rw [List.take_of_length_le (by simpa using room), List.singleton_append]
    · exact ⟨[], by simpa using full, by simp⟩

/-- A login passes exactly if members are consistent and its event fits into the log. -/
theorem LoginSpec.differsAsLogins_iff {next : GovernanceConfig}
    {change : GovernanceMember → GovernanceMember} {member : GovernanceMember}
    {event : AuditEvent} (spec : LoginSpec current next change member event) :
    DiffersAsLogins current next ↔ ConsistentMembers current ∧
      (current.audit.length < auditLimit current ∨ next.audit = current.audit) := by
  have fits : _ ↔ current.audit.length < auditLimit current ∨
      (event :: current.audit).take (auditLimit current) = current.audit :=
    take_eq_append_iff spec.action
  obtain rfl := spec.next_eq
  constructor
  · intro differs
    refine ⟨?_, fits.mp differs.audit⟩
    intro candidate candidateMem previous found
    rcases differs.members _ (List.mem_map_of_mem candidateMem) with
      ⟨other, otherFound, standing⟩
    rw [spec.id] at otherFound
    obtain rfl : previous = other := Option.some.inj (found.symm.trans otherFound)
    exact standing.trans (spec.standing candidate).symm
  · rintro ⟨consistent, room⟩
    refine ⟨⟨rfl, rfl, rfl, rfl, rfl, rfl⟩, ?_, by simp, ?_, fits.mpr room⟩
    · refine ⟨change member, List.mem_map_of_mem spec.member_mem, spec.id member, ?_⟩
      exact (spec.standing member).active.symm.trans spec.active
    · intro changed changedMem
      rcases List.mem_map.mp changedMem with ⟨candidate, candidateMem, rfl⟩
      have isSome : (current.members.find? fun other => other.id = candidate.id).isSome := by
        rw [List.find?_isSome]
        exact ⟨candidate, candidateMem, by simp⟩
      rcases Option.isSome_iff_exists.mp isSome with ⟨previous, found⟩
      rw [spec.id]
      exact ⟨previous, found,
        (consistent candidate candidateMem previous found).trans (spec.standing candidate)⟩

/-! ## What is expected of a change -/

/-- The workspace with other evidence of the device, other selections and other governance. -/
def withLocalData (current other : GovernedWorkspace) : GovernedWorkspace :=
  { current with
    activeRequestId := other.activeRequestId
    activeEnvironmentId := other.activeEnvironmentId
    history := other.history
    unitTestResults := other.unitTestResults
    runnerReports := other.runnerReports
    cookies := other.cookies
    fileState := other.fileState
    responses := other.responses
    streamSessions := other.streamSessions
    mcpSessions := other.mcpSessions
    responseFilters := other.responseFilters
    certificates := other.certificates
    activePluginTheme := other.activePluginTheme
    preferences := other.preferences
    governance := other.governance }

/-- The resources that the member may not edit are unchanged, and none is removed. -/
def ResourcesGuarded {Item : Type} (ident : Item → String) (access : String → Access)
    (current after : List Item) : Prop :=
  ∃ kept added, after = kept ++ added ∧
    List.Forall₂ (fun item kept => ident kept = ident item ∧
      (access (ident item) ≠ .editor → kept = item)) current kept

structure NoEscalation (lowerCase : String → String) (current proposed : GovernedWorkspace)
    (member : GovernanceMember) : Prop where
  governance : (enforceWorkspaceMutationAuthority current proposed).governance =
      current.governance ∨
    IsLogin lowerCase current.governance
      (enforceWorkspaceMutationAuthority current proposed).governance
  logins : current.governance.sso.enabled = true →
    IsLogin lowerCase current.governance proposed.governance →
    (enforceWorkspaceMutationAuthority current proposed).governance = proposed.governance
  collections : ResourcesGuarded Projects.Collection.id
    (fun id => resourceAccess current.governance .collection id member.id) current.collections
    (enforceWorkspaceMutationAuthority current proposed).collections
  apiDesigns : ResourcesGuarded Projects.ApiDesign.id
    (fun id => resourceAccess current.governance .apiDesign id member.id) current.apiDesigns
    (enforceWorkspaceMutationAuthority current proposed).apiDesigns
  viewer : member.role = .viewer →
    enforceWorkspaceMutationAuthority current proposed =
      withLocalData current (enforceWorkspaceMutationAuthority current proposed)

/-- A proposal that writes only what logins write records one, and one that records a login has
room for it in the log. -/
structure LoginsRecognized (lowerCase : String → String) (current proposed : GovernanceConfig) :
    Prop where
  passing : DiffersAsLogins current proposed → proposed = current ∨
    RecordsLogin lowerCase current proposed
  login : SameSettings current proposed → RecordsLogin lowerCase current proposed →
    proposed = current ∨ ConsistentMembers current ∧
      (current.audit.length < auditLimit current ∨ proposed.audit = current.audit)

/-! ## When it holds -/

section Enforced

variable {workspace change : GovernedWorkspace} {member : GovernanceMember}

theorem resourcesGuarded_enforced {Item : Type} (ident : Item → String)
    (access : String → Access) (role : GovernanceRole) (items proposedItems : List Item) :
    ResourcesGuarded ident access items
      (enforcedResources ident (fun id => access id = .editor) role items proposedItems) := by
  rcases enforcedResources_keptInPlace role items proposedItems with
    ⟨kept, added, equal, inPlace, _⟩
  refine ⟨kept, added, equal, inPlace.imp ?_⟩
  rintro item after ⟨sameId, same⟩
  exact ⟨sameId, fun notEditor => same (by simpa using notEditor)⟩

theorem enforced_governance (change : GovernedWorkspace)
    (isMember : currentGovernanceMember workspace.governance = some member)
    (restricted : member.role = .editor ∨ member.role = .viewer) :
    (enforceWorkspaceMutationAuthority workspace change).governance =
      enforcedGovernance workspace.governance change.governance := by
  simp only [enforceWorkspaceMutationAuthority, isMember]
  rcases restricted with role | role <;> simp [role]

theorem enforced_collections
    (isMember : currentGovernanceMember workspace.governance = some member)
    (restricted : member.role = .editor ∨ member.role = .viewer) :
    (enforceWorkspaceMutationAuthority workspace change).collections =
      enforcedResources Projects.Collection.id
        (fun id => resourceAccess workspace.governance .collection id member.id = .editor)
        member.role workspace.collections change.collections := by
  simp only [enforceWorkspaceMutationAuthority, isMember]
  rcases restricted with role | role <;> simp [role]

theorem enforced_apiDesigns
    (isMember : currentGovernanceMember workspace.governance = some member)
    (restricted : member.role = .editor ∨ member.role = .viewer) :
    (enforceWorkspaceMutationAuthority workspace change).apiDesigns =
      enforcedResources Projects.ApiDesign.id
        (fun id => resourceAccess workspace.governance .apiDesign id member.id = .editor)
        member.role workspace.apiDesigns change.apiDesigns := by
  simp only [enforceWorkspaceMutationAuthority, isMember]
  rcases restricted with role | role <;> simp [role]

theorem find_member (isMember : currentGovernanceMember workspace.governance = some member) :
    workspace.governance.members.find? (fun candidate =>
      candidate.id = member.id ∧ candidate.active) = some member := by
  have matching := List.find?_some isMember
  simp only [decide_eq_true_eq] at matching
  rw [matching.1]
  exact isMember

/-- A viewer edits no resource. -/
theorem resourceAccess_viewer
    (isMember : currentGovernanceMember workspace.governance = some member)
    (role : member.role = .viewer) (resourceType : ResourceType) (id : String) :
    resourceAccess workspace.governance resourceType id member.id ≠ .editor := by
  simp only [resourceAccess, find_member isMember, role, reduceCtorEq, or_self, ↓reduceIte]
  split_ifs <;> simp

theorem enforcedResources_viewer {Item : Type} (ident : Item → String)
    {access : String → Access} (notEditor : ∀ id, access id ≠ .editor)
    (items proposedItems : List Item) :
    enforcedResources ident (fun id => access id = .editor) .viewer items proposedItems =
      items := by
  obtain ⟨kept, added, equal, inPlace, noneAdded⟩ : ∃ kept added, enforcedResources ident
      (fun id => access id = .editor) .viewer items proposedItems = kept ++ added ∧
        KeptInPlace ident (fun id => access id = .editor) items kept ∧
        (GovernanceRole.viewer ≠ .editor → added = []) :=
    enforcedResources_keptInPlace .viewer items proposedItems
  rw [equal, noneAdded (by simp), List.append_nil]
  exact inPlace.eq_of_noneEditable fun item _ => by simpa using notEditor (ident item)

theorem enforced_viewer (isMember : currentGovernanceMember workspace.governance = some member)
    (role : member.role = .viewer) :
    enforceWorkspaceMutationAuthority workspace change =
      withLocalData workspace (enforceWorkspaceMutationAuthority workspace change) := by
  have collections := enforcedResources_viewer Projects.Collection.id
    (resourceAccess_viewer isMember role .collection) workspace.collections change.collections
  have apiDesigns := enforcedResources_viewer Projects.ApiDesign.id
    (resourceAccess_viewer isMember role .apiDesign) workspace.apiDesigns change.apiDesigns
  simp only [enforceWorkspaceMutationAuthority, isMember, role, collections, apiDesigns]
  simp [withLocalData]

/-- A change is no escalation exactly if what passes for a login records one, and if there is
room for a login that is recorded. -/
theorem noEscalation_iff (lowerCase : String → String) (workspace change : GovernedWorkspace)
    (member : GovernanceMember)
    (isMember : currentGovernanceMember workspace.governance = some member)
    (restricted : member.role = .editor ∨ member.role = .viewer) :
    NoEscalation lowerCase workspace change member ↔
      (workspace.governance.sso.enabled = true →
        LoginsRecognized lowerCase workspace.governance change.governance) := by
  have governance := enforced_governance change isMember restricted
  constructor
  · intro safe enabled
    constructor
    · intro passing
      have accepted := authenticationOnly_iff.mpr ⟨enabled, passing⟩
      have result := safe.governance
      rw [governance, enforcedGovernance, if_pos accepted] at result
      exact result.imp_right fun login => (isLogin_iff.mp login).2
    · intro settings recorded
      have login := isLogin_iff.mpr ⟨settings, recorded⟩
      have taken := safe.logins enabled login
      rw [governance, enforcedGovernance] at taken
      split at taken
      case isTrue accepted =>
        rcases login.spec with ⟨_, _, _, spec⟩
        exact .inr (spec.differsAsLogins_iff.mp (authenticationOnly_iff.mp accepted).2)
      case isFalse => exact .inl taken.symm
  · intro recognized
    refine ⟨?_, ?_, ?_, ?_, enforced_viewer isMember⟩
    · rw [governance, enforcedGovernance]
      split
      case isFalse => exact .inl rfl
      case isTrue accepted =>
        rcases authenticationOnly_iff.mp accepted with ⟨enabled, passing⟩
        exact ((recognized enabled).passing passing).imp_right fun recorded =>
          isLogin_iff.mpr ⟨passing.settings, recorded⟩
    · intro enabled login
      rw [governance, enforcedGovernance]
      split
      case isTrue => rfl
      case isFalse rejected =>
        rcases isLogin_iff.mp login with ⟨settings, recorded⟩
        rcases (recognized enabled).login settings recorded with same | fits
        · exact same.symm
        · rcases login.spec with ⟨_, _, _, spec⟩
          exact absurd (authenticationOnly_iff.mpr
            ⟨enabled, spec.differsAsLogins_iff.mpr fits⟩) rejected
    · rw [enforced_collections isMember restricted]
      exact resourcesGuarded_enforced _ _ _ _ _
    · rw [enforced_apiDesigns isMember restricted]
      exact resourcesGuarded_enforced _ _ _ _ _

end Enforced

/-! ## Proposals that are no logins -/

def teamMember (id email : String) (role : GovernanceRole) : GovernanceMember :=
  ⟨id, id, email, role, true, .manual, "", [], ""⟩

/-- An organization with single sign-on, an owner and a viewer. -/
def teamGovernance (currentMemberId : String) : GovernanceConfig where
  currentMemberId := currentMemberId
  members := [teamMember "olga" "olga@shop.test" .owner, teamMember "vera" "vera@shop.test" .viewer]
  teams := []
  resourceGrants := []
  organization := ⟨[⟨"domain-1", "shop.test", "proof", "2026-07-21"⟩], .null⟩
  sso := ⟨true, .null⟩
  scim := .null
  policy := ⟨500, .null⟩
  audit := []

def teamWorkspace (governance : GovernanceConfig) : GovernedWorkspace where
  name := "Shop"
  activeRequestId := ""
  activeEnvironmentId := ""
  collections := []
  environments := []
  history := []
  apiDesigns := []
  mockServers := []
  testSuites := []
  unitTestResults := []
  runnerReports := []
  imports := []
  cookies := []
  fileState := Projects.Record.empty
  responses := []
  streamSessions := []
  mcpSessions := []
  responseFilters := none
  certificates := .null
  project := .null
  plugins := []
  pluginData := Projects.Record.empty
  activePluginTheme := ""
  collaboration := ⟨"", [], .null, .null⟩
  governance := governance
  mcpClients := []
  ai := ⟨false, "", .null⟩
  konnect := ⟨false, "", "", [], none, none, none, none, none, .null⟩
  preferences := .null

/-- The organization with a team for designers, after a first login. -/
def designersGovernance : GovernanceConfig :=
  { teamGovernance "olga" with
    currentMemberId := "vera"
    teams := [⟨"team-1", "designers", "directory-9", .scim, []⟩]
    audit := [⟨"audit-0d9f3f52-6c38-4b5e-9a41-1f0f0f4be001", "2026-07-20T08:30:00.000Z", "olga",
      "sso.login", "SAML login for olga@shop.test."⟩] }

/-- The viewer after the login of 2026-07-21 at noon, which puts her into the team. -/
def signedInVera : GovernanceMember :=
  { teamMember "vera" "vera@shop.test" .viewer with
    name := "Vera"
    externalId := "subject-7"
    teamIds := ["team-1"]
    lastAuthenticatedAt := "2026-07-21T12:00:00.000Z" }

def veraLogin : AuditEvent :=
  ⟨"audit-5a8a3c77-20f1-4c0e-8d55-7be1c2a90d34", "2026-07-21T12:00:00.000Z", "vera", "sso.login",
    "OIDC login for vera@shop.test."⟩

def signedInGovernance : GovernanceConfig :=
  { designersGovernance with
    members := [teamMember "olga" "olga@shop.test" .owner, signedInVera]
    audit := veraLogin :: designersGovernance.audit }

theorem signedInGovernance_recordsLogin :
    RecordsLogin toLowerCase designersGovernance signedInGovernance := by
  refine ⟨⟨"subject-7", " Vera@Shop.test ", " Vera ", ["directory-9"], .oidc⟩,
    teamMember "vera" "vera@shop.test" .viewer, veraLogin, ?_⟩
  refine ⟨by decide, rfl, ⟨[teamMember "olga" "olga@shop.test" .owner], [], rfl, by decide⟩,
    ⟨⟨"domain-1", "shop.test", "proof", "2026-07-21"⟩, by decide⟩, rfl, ?_,
    ⟨⟨1784635200000, by decide⟩, by decide⟩,
    ⟨"5a8a3c77-20f1-4c0e-8d55-7be1c2a90d34", by decide⟩, rfl, rfl, by decide, by decide⟩
  refine .cons ⟨fun same => absurd same (by decide), fun _ => rfl⟩
    (.cons ⟨fun _ => ?_, fun other => absurd rfl other⟩ .nil)
  exact signedIn_iff.mpr (by decide)

/-- The login of a viewer who joins a team by it is no escalation. -/
theorem designersWorkspace_noEscalation :
    NoEscalation toLowerCase (teamWorkspace designersGovernance)
      (teamWorkspace signedInGovernance) (teamMember "vera" "vera@shop.test" .viewer) :=
  (noEscalation_iff toLowerCase (teamWorkspace designersGovernance)
    (teamWorkspace signedInGovernance) (teamMember "vera" "vera@shop.test" .viewer) (by decide)
    (by decide)).mpr fun _ =>
      ⟨fun _ => .inr signedInGovernance_recordsLogin,
        fun _ _ => .inr ⟨consistentMembers_of_nodup (by decide), .inl (by decide)⟩⟩

/-- A viewer who proposes to be the owner is. -/
theorem viewer_becomes_owner :
    ¬ ∀ (workspace change : GovernedWorkspace) (member : GovernanceMember),
      currentGovernanceMember workspace.governance = some member →
      member.role = .editor ∨ member.role = .viewer → NoEscalation id workspace change member := by
  intro safe
  have result := (safe (teamWorkspace (teamGovernance "vera"))
    (teamWorkspace (teamGovernance "olga")) (teamMember "vera" "vera@shop.test" .viewer)
    (by decide) (by decide)).governance
  have taken : (enforceWorkspaceMutationAuthority (teamWorkspace (teamGovernance "vera"))
      (teamWorkspace (teamGovernance "olga"))).governance = teamGovernance "olga" := by decide
  rw [taken] at result
  rcases result with same | login
  · revert same
    decide
  · rcases login.spec with ⟨_, _, event, spec⟩
    have logged : (teamGovernance "olga").audit = (event :: (teamGovernance "vera").audit).take
        (auditLimit (teamGovernance "vera")) := congrArg GovernanceConfig.audit spec.next_eq
    have lengths := congrArg List.length logged
    rw [List.length_take] at lengths
    change 0 = min _ 1 at lengths
    have room := auditLimit_pos (teamGovernance "vera")
    omega

end Brunomnia.Governance
