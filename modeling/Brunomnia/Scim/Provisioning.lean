import Brunomnia.Library.Lists
import Brunomnia.Scim.Records

/-!
# Users and groups that a SCIM client provisions

A user is found by the id of the path, then by the external id, then by the e-mail; a group by
the id, then by the external id. A patch is folded into the value that a replacement would bring.
-/

namespace Brunomnia.Scim

open Library

/-- What a request draws: the random part of a new id, and the order in which a hash set lists
its strings. -/
structure Draw where
  uuid : String
  hashOrder : List String → List String
  hashOrder_perm : ∀ ids, (hashOrder ids).Perm ids

/-! ## Users -/

def bodyEmail (value : Json) : String :=
  toAsciiLowercase (bodyString value "userName")

def bodyActive (value : Json) : Bool :=
  ((value.get? "active").bind fun active =>
    match active with
    | .bool flag => some flag
    | _ => none).getD true

/-- The member at `match_index`. -/
def matchedMember (members : List GovernanceMember) (value : Json) (existingId : Option String) :
    Option GovernanceMember :=
  let externalId := bodyString value "externalId"
  ((existingId.bind fun id => members.find? fun member => member.id = id).or
    (if externalId = "" then none
    else members.find? fun member => member.externalId = externalId)).or
      (members.find? fun member => eqIgnoreAsciiCase member.email (bodyEmail value))

def isActiveOwner (member : GovernanceMember) : Bool :=
  member.active && member.role = "owner"

def activeOwnerCount (members : List GovernanceMember) : ℕ :=
  (members.filter isActiveOwner).length

def userFromBody (draw : Draw) (governance : GovernanceConfig) (value : Json)
    (existingId : Option String) : Except Reply GovernanceMember :=
  let email := bodyEmail value
  let externalId := bodyString value "externalId"
  let name := bodyString value "displayName"
  let active := bodyActive value
  if validEmail email = false then
    .error (scimError .badRequest "SCIM users require a valid userName email address.")
  else
    match matchedMember governance.members value existingId with
    | some current =>
        if current.source = "manual" ∧ existingId ≠ none then
          .error (scimError .conflict
            "SCIM cannot modify a manually managed user until the IdP provisions that email.")
        else if current.role = "owner" ∧ current.active = true ∧ active = false ∧
            activeOwnerCount governance.members = 1 then
          .error (scimError .conflict
            "SCIM cannot deactivate the last active organization owner.")
        else
          .ok { current with
            email
            name := if name = "" then current.name else name
            active
            source := "scim"
            externalId }
    | none =>
        .ok {
          id := "scim-user-" ++ draw.uuid
          name := if name = "" then email else name
          email
          role := "editor"
          active
          source := "scim"
          externalId
          teamIds := []
          lastAuthenticatedAt := "" }

def saveUser (governance : GovernanceConfig) (member : GovernanceMember) : GovernanceConfig :=
  { governance with members := upsertBy GovernanceMember.id governance.members member }

/-! ## Groups -/

/-- The strings under `value` of the listed values. -/
def memberValues (members : List Json) : List String :=
  members.filterMap fun member => (member.get? "value").bind string?

def groupMemberIds (draw : Draw) (value : Json) : List String :=
  draw.hashOrder ((memberValues (value.list "members")).take 10000).dedup

def syncTeamIds (teamId : String) (memberIds : List String) (member : GovernanceMember) :
    GovernanceMember :=
  if member.id ∈ memberIds then
    if teamId ∈ member.teamIds then member
    else { member with teamIds := member.teamIds ++ [teamId] }
  else { member with teamIds := member.teamIds.filter fun id => id ≠ teamId }

def syncTeamMembers (governance : GovernanceConfig) (teamId : String)
    (memberIds : List String) : GovernanceConfig :=
  { governance with members := governance.members.map (syncTeamIds teamId memberIds) }

/-- The team at `index`. -/
def matchedTeam (teams : List GovernanceTeam) (value : Json) (existingId : Option String) :
    Option GovernanceTeam :=
  let externalId := bodyString value "externalId"
  (existingId.bind fun id => teams.find? fun team => team.id = id).or
    (if externalId = "" then none else teams.find? fun team => team.externalId = externalId)

/-- The members of the group that exist. -/
def listedMemberIds (draw : Draw) (governance : GovernanceConfig) (value : Json) :
    List String :=
  (groupMemberIds draw value).filter fun id =>
    governance.members.any fun member => member.id = id

/-- The team that `upsert_group` stores. -/
def teamFromBody (draw : Draw) (governance : GovernanceConfig) (value : Json)
    (existingId : Option String) : Except Reply GovernanceTeam :=
  let name := bodyString value "displayName"
  let externalId := bodyString value "externalId"
  if name = "" ∨ 500 < name.utf8ByteSize then
    .error (scimError .badRequest "SCIM groups require a displayName of at most 500 bytes.")
  else
    match matchedTeam governance.teams value existingId with
    | some current =>
        if current.source = "manual" ∧ existingId ≠ none then
          .error (scimError .conflict
            "SCIM cannot modify a manually managed team until the IdP provisions it.")
        else
          .ok { current with
            name
            externalId
            source := "scim"
            memberIds := listedMemberIds draw governance value }
    | none =>
        .ok {
          id := "scim-team-" ++ draw.uuid
          name
          externalId
          source := "scim"
          memberIds := listedMemberIds draw governance value }

def saveTeam (governance : GovernanceConfig) (team : GovernanceTeam) : GovernanceConfig :=
  let synced := syncTeamMembers governance team.id team.memberIds
  { synced with teams := upsertBy GovernanceTeam.id synced.teams team }

def upsertGroup (draw : Draw) (governance : GovernanceConfig) (value : Json)
    (existingId : Option String) : Except Reply (GovernanceConfig × GovernanceTeam) :=
  (teamFromBody draw governance value existingId).map fun team => (saveTeam governance team, team)

def deleteTeam (governance : GovernanceConfig) (team : GovernanceTeam) : GovernanceConfig :=
  syncTeamMembers
    { governance with
      teams := governance.teams.filter fun candidate => candidate.id ≠ team.id } team.id []

/-! ## Patches -/

def patchOperations (value : Json) : List Json :=
  match (value.get? "Operations").or (value.get? "operations") with
  | some (.arr operations) => operations
  | _ => []

def operationName (operation : Json) : String :=
  toAsciiLowercase (bodyString operation "op")

def operationPath (operation : Json) : String :=
  bodyString operation "path"

def operationValue (operation : Json) : Json :=
  (operation.get? "value").getD .null

def mergesObject (operation : Json) : Bool :=
  operationPath operation = "" && (operationValue operation).isObject

def addsOrReplaces (operation : Json) : Bool :=
  operationName operation = "add" ∨ operationName operation = "replace"

def userJsonStub (member : GovernanceMember) : Json :=
  .obj [("externalId", .str member.externalId), ("userName", .str member.email),
    ("displayName", .str member.name), ("active", .bool member.active)]

def patchUserStep (value operation : Json) : Json :=
  if mergesObject operation then value.spread (operationValue operation).members
  else if addsOrReplaces operation then
    value.spread [(operationPath operation, operationValue operation)]
  else value

def patchUserValue (current : GovernanceMember) (patch : Json) : Json :=
  (patchOperations patch).foldl patchUserStep (userJsonStub current)

def groupJsonStub (team : GovernanceTeam) : Json :=
  .obj [("externalId", .str team.externalId), ("displayName", .str team.name),
    ("members", .arr (team.memberIds.map fun id => .obj [("value", .str id)]))]

def targetsMembers (operation : Json) : Bool :=
  eqIgnoreAsciiCase (operationPath operation) "members"

/-- The members after an operation whose path is `members`. -/
def patchMembers (target : List Json) (operation : Json) : List Json :=
  let incoming : List Json :=
    match operationValue operation with
    | .arr items => items
    | _ => []
  if operationName operation = "remove" then
    target.filter fun member =>
      match (member.get? "value").bind string? with
      | none => true
      | some id => id ∉ memberValues incoming
  else if operationName operation = "replace" then incoming
  else if operationName operation = "add" then target ++ incoming
  else target

/-- One operation; without a result it panics, since the members are no array. -/
def patchGroupStep (value operation : Json) : Option Json :=
  if mergesObject operation then some (value.spread (operationValue operation).members)
  else if targetsMembers operation then
    match value.get? "members" with
    | some (.arr target) => some (value.spread [("members", .arr (patchMembers target operation))])
    | _ => none
  else if addsOrReplaces operation then
    some (value.spread [(operationPath operation, operationValue operation)])
  else some value

def patchGroupValue (current : GovernanceTeam) (patch : Json) : Option Json :=
  (patchOperations patch).foldlM patchGroupStep (groupJsonStub current)

end Brunomnia.Scim
