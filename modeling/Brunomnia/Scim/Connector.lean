import Brunomnia.Scim.Provisioning

/-!
# The SCIM connector

One request at a time changes the governance or is refused.
-/

namespace Brunomnia.Scim

/-- The parts of the path behind `/scim/v2` that are not empty. -/
def segments (path : String) : List String :=
  let letters := path.toList
  let base := "/scim/v2".toList
  let relative := if base.isPrefixOf letters then letters.drop base.length else letters
  ((relative.splitOn '/').filter fun segment => segment ≠ []).map String.ofList

/-- The value between `lead"` and a last quote. -/
def filterValue (lead filter : String) : Option String :=
  let letters := filter.toList
  let lead := lead.toList ++ ['"']
  if lead.isPrefixOf letters ∧ (letters.drop lead.length).getLast? = some '"' then
    some (String.ofList (letters.drop lead.length).dropLast)
  else none

def listedUsers (governance : GovernanceConfig) (filter : String) : List GovernanceMember :=
  let members := governance.members.filter fun member => member.source = "scim"
  match filterValue "userName eq " filter with
  | some value => members.filter fun member => eqIgnoreAsciiCase member.email value
  | none =>
      match filterValue "externalId eq " filter with
      | some value => members.filter fun member => member.externalId = value
      | none => members

def listedGroups (governance : GovernanceConfig) (filter : String) : List GovernanceTeam :=
  let teams := governance.teams.filter fun team => team.source = "scim"
  match filterValue "displayName eq " filter with
  | some value => teams.filter fun team => eqIgnoreAsciiCase team.name value
  | none =>
      match filterValue "externalId eq " filter with
      | some value => teams.filter fun team => team.externalId = value
      | none => teams

def findUser (governance : GovernanceConfig) (id : String) : Option GovernanceMember :=
  governance.members.find? fun member => member.id = id && member.source = "scim"

def findGroup (governance : GovernanceConfig) (id : String) : Option GovernanceTeam :=
  governance.teams.find? fun team => team.id = id && team.source = "scim"

def malformedBody : Reply :=
  scimError .badRequest "The SCIM JSON body is malformed."

def userNotFound : Reply :=
  scimError .notFound "SCIM user not found."

def groupNotFound : Reply :=
  scimError .notFound "SCIM group not found."

/-- Read a user from a value and store it. -/
def provisionUser (draw : Draw) (governance : GovernanceConfig) (value : Json)
    (existingId : Option String) (reply : GovernanceConfig → GovernanceMember → Reply) :
    GovernanceConfig × Reply :=
  match userFromBody draw governance value existingId with
  | .error refusal => (governance, refusal)
  | .ok member => (saveUser governance member, reply (saveUser governance member) member)

/-- Store the group of a value. -/
def provisionGroup (draw : Draw) (governance : GovernanceConfig) (value : Json)
    (existingId : Option String) (reply : GovernanceConfig → GovernanceTeam → Reply) :
    GovernanceConfig × Reply :=
  match upsertGroup draw governance value existingId with
  | .error refusal => (governance, refusal)
  | .ok (saved, team) => (saved, reply saved team)

def serviceProviderConfig : Json :=
  .obj [("schemas", .arr [.str "urn:ietf:params:scim:schemas:core:2.0:ServiceProviderConfig"]),
    ("patch", .obj [("supported", .bool true)]),
    ("bulk", .obj [("supported", .bool false), ("maxOperations", .num 0),
      ("maxPayloadSize", .num 0)]),
    ("filter", .obj [("supported", .bool true), ("maxResults", .num 1000)]),
    ("changePassword", .obj [("supported", .bool false)]),
    ("sort", .obj [("supported", .bool false)]),
    ("etag", .obj [("supported", .bool false)]),
    ("authenticationSchemes", .arr [.obj [("type", .str "oauthbearertoken"),
      ("name", .str "Bearer Token"),
      ("description", .str "OS-protected Brunomnia SCIM connector token"),
      ("specUri", .str "https://www.rfc-editor.org/rfc/rfc6750")]])]

def resourceTypes : List Json :=
  [.obj [("id", .str "User"), ("name", .str "User"), ("endpoint", .str "/Users"),
      ("schema", .str scimUserSchema)],
    .obj [("id", .str "Group"), ("name", .str "Group"), ("endpoint", .str "/Groups"),
      ("schema", .str scimGroupSchema)]]

def schemas : List Json :=
  [.obj [("id", .str scimUserSchema), ("name", .str "User"),
      ("description", .str "Brunomnia organization user")],
    .obj [("id", .str scimGroupSchema), ("name", .str "Group"),
      ("description", .str "Brunomnia organization team")]]

/-- `handle_scim`; without a result it panics. -/
def handleScim (draw : Draw) (governance : GovernanceConfig) (request : Request) :
    Option (GovernanceConfig × Reply) :=
  let filter := (request.query "filter").getD ""
  match request.method, segments request.path with
  | .get, ["ServiceProviderConfig"] =>
      some (governance,
        ⟨.ok, serviceProviderConfig, "Read service-provider configuration."⟩)
  | .get, ["ResourceTypes"] =>
      some (governance,
        ⟨.ok, listResponse resourceTypes request.query, "Read SCIM resource types."⟩)
  | .get, ["Schemas"] =>
      some (governance, ⟨.ok, listResponse schemas request.query, "Read SCIM schemas."⟩)
  | .get, ["Users"] =>
      some (governance, ⟨.ok, listResponse
        ((listedUsers governance filter).map (userJson governance)) request.query,
        "Listed SCIM users."⟩)
  | .post, ["Users"] =>
      match request.body with
      | none => some (governance, malformedBody)
      | some value =>
          some (provisionUser draw governance value none fun saved member =>
            ⟨.created, userJson saved member, s!"Provisioned SCIM user {member.email}."⟩)
  | .get, ["Users", id] =>
      match findUser governance id with
      | none => some (governance, userNotFound)
      | some member =>
          some (governance, ⟨.ok, userJson governance member, s!"Read SCIM user {id}."⟩)
  | .put, ["Users", id] =>
      match request.body with
      | none => some (governance, malformedBody)
      | some value =>
          some (provisionUser draw governance value (some id) fun saved member =>
            ⟨.ok, userJson saved member, s!"Replaced SCIM user {member.email}."⟩)
  | .patch, ["Users", id] =>
      match request.body with
      | none => some (governance, malformedBody)
      | some patch =>
          match findUser governance id with
          | none => some (governance, userNotFound)
          | some current =>
              some (provisionUser draw governance (patchUserValue current patch) (some id)
                fun saved member =>
                  ⟨.ok, userJson saved member, s!"Patched SCIM user {member.email}."⟩)
  | .delete, ["Users", id] =>
      match findUser governance id with
      | none => some (governance, userNotFound)
      | some current =>
          some (provisionUser draw governance
            ((userJsonStub current).spread [("active", .bool false)]) (some id)
            fun _ _ => ⟨.noContent, .null, s!"Deactivated SCIM user {id}."⟩)
  | .get, ["Groups"] =>
      some (governance, ⟨.ok, listResponse
        ((listedGroups governance filter).map (groupJson governance)) request.query,
        "Listed SCIM groups."⟩)
  | .post, ["Groups"] =>
      match request.body with
      | none => some (governance, malformedBody)
      | some value =>
          some (provisionGroup draw governance value none fun saved team =>
            ⟨.created, groupJson saved team, s!"Provisioned SCIM group {team.name}."⟩)
  | .get, ["Groups", id] =>
      match findGroup governance id with
      | none => some (governance, groupNotFound)
      | some team =>
          some (governance, ⟨.ok, groupJson governance team, s!"Read SCIM group {id}."⟩)
  | .put, ["Groups", id] =>
      match request.body with
      | none => some (governance, malformedBody)
      | some value =>
          some (provisionGroup draw governance value (some id) fun saved team =>
            ⟨.ok, groupJson saved team, s!"Replaced SCIM group {team.name}."⟩)
  | .patch, ["Groups", id] =>
      match request.body with
      | none => some (governance, malformedBody)
      | some patch =>
          match findGroup governance id with
          | none => some (governance, groupNotFound)
          | some current =>
              (patchGroupValue current patch).map fun value =>
                provisionGroup draw governance value (some id) fun saved team =>
                  ⟨.ok, groupJson saved team, s!"Patched SCIM group {team.name}."⟩
  | .delete, ["Groups", id] =>
      match findGroup governance id with
      | none => some (governance, groupNotFound)
      | some team =>
          some (deleteTeam governance team,
            ⟨.noContent, .null, s!"Deleted SCIM group {team.name}."⟩)
  | _, _ => some (governance, scimError .notFound "SCIM endpoint not found.")

end Brunomnia.Scim
