import Brunomnia.Library.OrderedMaps
import Brunomnia.Projects.Records
import Brunomnia.Strings

/-!
# Governance

Who the members of an organization are, what the current one may see and edit, and what a
workspace makes of a change that the current member proposes. Lower case is a parameter, since
it is a table of the runtime.
-/

namespace Brunomnia.Governance

open Library
open Projects (ApiDesign Collection Environment McpClient MockServer Record)

/-! ## Records -/

inductive GovernanceRole where
  | owner
  | admin
  | editor
  | viewer
  deriving DecidableEq

inductive MemberSource where
  | manual
  | scim
  deriving DecidableEq

structure GovernanceMember where
  id : String
  name : String
  email : String
  role : GovernanceRole
  active : Bool
  source : MemberSource
  externalId : String
  teamIds : List String
  lastAuthenticatedAt : String
  deriving DecidableEq

structure GovernanceTeam where
  id : String
  name : String
  externalId : String
  source : MemberSource
  memberIds : List String
  deriving DecidableEq

inductive ResourceType where
  | collection
  | apiDesign
  deriving DecidableEq

inductive SubjectType where
  | member
  | team
  deriving DecidableEq

inductive Access where
  | none
  | viewer
  | editor
  deriving DecidableEq

/-- A grant; its access is `viewer` or `editor`. -/
structure GovernanceResourceGrant where
  id : String
  resourceType : ResourceType
  resourceId : String
  subjectType : SubjectType
  subjectId : String
  access : Access
  deriving DecidableEq

structure VerifiedDomain where
  id : String
  domain : String
  challenge : String
  verifiedAt : String
  deriving DecidableEq

structure OrganizationConfig where
  domains : List VerifiedDomain
  content : Json
  deriving DecidableEq

structure SsoConfig where
  enabled : Bool
  content : Json
  deriving DecidableEq

structure GovernancePolicy where
  auditRetention : ℚ
  content : Json
  deriving DecidableEq

structure AuditEvent where
  id : String
  timestamp : String
  actorId : String
  action : String
  detail : String
  deriving DecidableEq

structure GovernanceConfig where
  currentMemberId : String
  members : List GovernanceMember
  teams : List GovernanceTeam
  resourceGrants : List GovernanceResourceGrant
  organization : OrganizationConfig
  sso : SsoConfig
  scim : Json
  policy : GovernancePolicy
  audit : List AuditEvent
  deriving DecidableEq

structure GovernedWorkspace where
  name : String
  activeRequestId : String
  activeEnvironmentId : String
  collections : List Collection
  environments : List Environment
  history : List Projects.HistoryEntry
  apiDesigns : List ApiDesign
  mockServers : List MockServer
  testSuites : List Projects.UnitTestSuite
  unitTestResults : List Projects.UnitTestRunResult
  runnerReports : List Projects.RunnerReport
  imports : List Projects.ImportRecord
  cookies : List Projects.CookieRecord
  fileState : Record Projects.WorkspaceFileState
  responses : List Projects.StoredResponse
  streamSessions : List Projects.StoredStreamSession
  mcpSessions : List Projects.McpHistorySession
  responseFilters : Option (Record Json)
  certificates : Json
  project : Json
  plugins : List Json
  pluginData : Record Json
  activePluginTheme : String
  collaboration : Projects.CollaborationConfig
  governance : GovernanceConfig
  mcpClients : List McpClient
  ai : Projects.AiSettings
  konnect : Projects.KonnectConfig
  preferences : Json

/-! ## The audit log -/

/-- How many events the log keeps. -/
def auditLimit (governance : GovernanceConfig) : ℕ :=
  let retention := governance.policy.auditRetention
  ⌊min 10000 (max 1 (if retention = 0 then 500 else retention))⌋₊

/-- `audit`, at the time `now` and with the identifier that was drawn. -/
def audit (governance : GovernanceConfig) (actorId action detail now identifier : String) :
    GovernanceConfig :=
  { governance with
    audit := ((⟨identifier, now, actorId, action, detail⟩ : AuditEvent) ::
      governance.audit).take (auditLimit governance) }

/-! ## Access -/

def currentGovernanceMember (governance : GovernanceConfig) : Option GovernanceMember :=
  governance.members.find? fun member => member.id = governance.currentMemberId ∧ member.active

def grantsForResource (governance : GovernanceConfig) (resourceType : ResourceType)
    (resourceId : String) : List GovernanceResourceGrant :=
  governance.resourceGrants.filter fun grant =>
    grant.resourceType = resourceType ∧ grant.resourceId = resourceId

def resourceAccess (governance : GovernanceConfig) (resourceType : ResourceType)
    (resourceId memberId : String) : Access :=
  match governance.members.find? fun candidate => candidate.id = memberId ∧ candidate.active with
  | none => .none
  | some member =>
      if member.role = .owner ∨ member.role = .admin then .editor
      else
        let grants := grantsForResource governance resourceType resourceId
        if grants = [] then if member.role = .editor then .editor else .viewer
        else
          let matching := grants.filter fun grant =>
            if grant.subjectType = .member then grant.subjectId = member.id
            else grant.subjectId ∈ member.teamIds
          if matching.any fun grant => grant.access = .editor then
            if member.role = .editor then .editor else .viewer
          else if matching.any fun grant => grant.access = .viewer then .viewer
          else .none

def canAccessResource (governance : GovernanceConfig) (resourceType : ResourceType)
    (resourceId : String) : Bool :=
  resourceAccess governance resourceType resourceId governance.currentMemberId ≠ .none

def workspaceForCurrentMember (workspace : GovernedWorkspace) : GovernedWorkspace :=
  let collections := workspace.collections.filter fun collection =>
    canAccessResource workspace.governance .collection collection.id
  let apiDesigns := workspace.apiDesigns.filter fun design =>
    canAccessResource workspace.governance .apiDesign design.id
  { workspace with
    collections
    apiDesigns
    activeRequestId :=
      if workspace.activeRequestId ∈ collections.flatMap fun collection =>
          collection.requests.map Projects.ApiRequest.id then workspace.activeRequestId
      else ((collections.head?.bind fun collection => collection.requests.head?).map
        Projects.ApiRequest.id).getD "" }

/-! ## Proposed changes -/

def authenticationOnlyGovernanceUpdate (current proposed : GovernanceConfig) : Bool :=
  if !current.sso.enabled then false
  else if current.organization ≠ proposed.organization ∨ current.sso ≠ proposed.sso ∨
      current.scim ≠ proposed.scim ∨ current.policy ≠ proposed.policy ∨
      current.teams ≠ proposed.teams ∨ current.resourceGrants ≠ proposed.resourceGrants then false
  else if (currentGovernanceMember proposed).isNone ∨
      current.members.length ≠ proposed.members.length then false
  else
    let identityFieldsOnly := proposed.members.all fun member =>
      (current.members.find? fun candidate => candidate.id = member.id).any fun previous =>
        previous.email = member.email ∧ previous.role = member.role ∧
          previous.active = member.active ∧ previous.source = member.source
    if !identityFieldsOnly ∨ proposed.audit.length < current.audit.length then false
    else
      let added := proposed.audit.length - current.audit.length
      (proposed.audit.take added).all (fun event => event.action = "sso.login") &&
        proposed.audit.drop added = current.audit

/-- `map.delete(key)`. -/
def deleteEntry {Item : Type} (entries : List (String × Item)) (key : String) :
    List (String × Item) :=
  entries.filter fun entry => entry.1 ≠ key

/-- The loop over the resources that there are: what becomes of them, and which of the proposed
ones are left over. -/
def enforceResources {Item : Type} (ident : Item → String) (mayEdit : String → Bool) :
    List Item → List (String × Item) → List Item × List (String × Item)
  | [], proposed => ([], proposed)
  | item :: items, proposed =>
      let rest := enforceResources ident mayEdit items (deleteEntry proposed (ident item))
      let kept := if mayEdit (ident item) then (lastValue proposed (ident item)).getD item
        else item
      (kept :: rest.1, rest.2)

/-- The resources after a change: an editor may add some. -/
def enforcedResources {Item : Type} (ident : Item → String) (mayEdit : String → Bool)
    (role : GovernanceRole) (current proposed : List Item) : List Item :=
  let enforced := enforceResources ident mayEdit current
    (orderedMap (proposed.map fun item => (ident item, item)))
  if role = .editor then enforced.1 ++ enforced.2.map Prod.snd else enforced.1

def enforcedGovernance (current proposed : GovernanceConfig) : GovernanceConfig :=
  if authenticationOnlyGovernanceUpdate current proposed then proposed else current

def enforceWorkspaceMutationAuthority (current proposed : GovernedWorkspace) :
    GovernedWorkspace :=
  match currentGovernanceMember current.governance with
  | none => proposed
  | some member =>
      if member.role = .owner ∨ member.role = .admin then proposed
      else
        let collections := enforcedResources Collection.id
          (fun id => resourceAccess current.governance .collection id member.id = .editor)
          member.role current.collections proposed.collections
        let apiDesigns := enforcedResources ApiDesign.id
          (fun id => resourceAccess current.governance .apiDesign id member.id = .editor)
          member.role current.apiDesigns proposed.apiDesigns
        let governance := enforcedGovernance current.governance proposed.governance
        if member.role = .editor then { proposed with collections, apiDesigns, governance }
        else
          { proposed with
            name := current.name
            collections
            environments := current.environments
            apiDesigns
            mockServers := current.mockServers
            testSuites := current.testSuites
            imports := current.imports
            project := current.project
            plugins := current.plugins
            pluginData := current.pluginData
            collaboration := current.collaboration
            governance
            mcpClients := current.mcpClients
            ai := current.ai
            konnect := current.konnect }

/-! ## Logins -/

inductive SsoProtocol where
  | oidc
  | saml
  deriving DecidableEq

/-- `protocol.toUpperCase()`. -/
def SsoProtocol.upperCase : SsoProtocol → String
  | oidc => "OIDC"
  | saml => "SAML"

structure AuthenticatedIdentity where
  subject : String
  email : String
  name : String
  groups : List String
  protocol : SsoProtocol

section Login

variable (lowerCase : String → String)

def normalizeEmail (email : String) : String :=
  lowerCase (trim email)

/-- What stands behind the first `@`, up to the next one. -/
def emailDomain (email : String) : String :=
  String.ofList (((normalizeEmail lowerCase email).toList.splitOn '@')[1]?.getD [])

def verifiedDomains (governance : GovernanceConfig) : List VerifiedDomain :=
  governance.organization.domains.filter fun domain => domain.verifiedAt ≠ ""

def identityEmailIsAllowed (governance : GovernanceConfig) (email : String) : Bool :=
  let domain := emailDomain lowerCase email
  domain ≠ "" ∧ (verifiedDomains governance).any fun candidate => candidate.domain = domain

/-- A member after a login. -/
def GovernanceMember.authenticated (member : GovernanceMember) (identity : AuthenticatedIdentity)
    (matchingTeamIds : List String) (now : String) : GovernanceMember :=
  { member with
    name := if trim identity.name = "" then member.name else trim identity.name
    externalId := if member.externalId = "" then identity.subject else member.externalId
    teamIds := (member.teamIds ++ matchingTeamIds).eraseDups
    lastAuthenticatedAt := now }

def applyAuthenticatedIdentity (governance : GovernanceConfig) (identity : AuthenticatedIdentity)
    (now identifier : String) : Except String GovernanceConfig :=
  let email := normalizeEmail lowerCase identity.email
  if !identityEmailIsAllowed lowerCase governance email then
    .error "The authenticated email does not use a verified organization domain."
  else
    match governance.members.find? fun candidate =>
        normalizeEmail lowerCase candidate.email = email ∧ candidate.active with
    | none => .error ("The authenticated identity is not an active organization member. " ++
        "Invite or provision the user first.")
    | some member =>
        let matchingTeamIds := (governance.teams.filter fun team =>
          identity.groups.any fun group =>
            lowerCase group = lowerCase team.name ∨ group = team.externalId).map GovernanceTeam.id
        let members := governance.members.map fun candidate =>
          if candidate.id = member.id then
            candidate.authenticated identity matchingTeamIds now
          else candidate
        .ok (audit { governance with currentMemberId := member.id, members } member.id
          "sso.login" (identity.protocol.upperCase ++ " login for " ++ email ++ ".") now
          identifier)

end Login

end Brunomnia.Governance
