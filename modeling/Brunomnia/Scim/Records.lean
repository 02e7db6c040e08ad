import Brunomnia.Json
import Brunomnia.Multipart.Parser

/-!
# The governance that SCIM provisions

The members and teams of an organization as the connector holds them, and how it shows them.
A number in JSON is whole, and the order of the keys of an object says nothing.
-/

namespace Brunomnia.Scim

open Codegen (lowerText)
open Multipart (isRustWhitespace rustTrim)

structure GovernanceMember where
  id : String
  name : String
  email : String
  role : String
  active : Bool
  source : String
  externalId : String
  teamIds : List String
  lastAuthenticatedAt : String
  deriving DecidableEq

structure GovernanceTeam where
  id : String
  name : String
  externalId : String
  source : String
  memberIds : List String
  deriving DecidableEq

/-- What the connector reads of `GovernanceConfig`, with `scim.public_base_url`. -/
structure GovernanceConfig where
  members : List GovernanceMember
  teams : List GovernanceTeam
  publicBaseUrl : String
  deriving DecidableEq

/-! ## Requests and responses -/

inductive Method where
  | get
  | post
  | put
  | patch
  | delete
  | other
  deriving DecidableEq

/-- A request: the path and the query of its URI, and the body if it is JSON. -/
structure Request where
  method : Method
  path : String
  query : String → Option String
  body : Option Json

inductive StatusCode where
  | ok
  | created
  | noContent
  | badRequest
  | notFound
  | conflict
  deriving DecidableEq

def StatusCode.number : StatusCode → ℕ
  | .ok => 200
  | .created => 201
  | .noContent => 204
  | .badRequest => 400
  | .notFound => 404
  | .conflict => 409

structure Reply where
  status : StatusCode
  value : Json
  detail : String

def Reply.IsError (reply : Reply) : Prop :=
  400 ≤ reply.status.number

def scimUserSchema : String := "urn:ietf:params:scim:schemas:core:2.0:User"

def scimGroupSchema : String := "urn:ietf:params:scim:schemas:core:2.0:Group"

def scimListSchema : String := "urn:ietf:params:scim:api:messages:2.0:ListResponse"

def scimErrorSchema : String := "urn:ietf:params:scim:api:messages:2.0:Error"

def scimError (status : StatusCode) (detail : String) : Reply where
  status := status
  value := .obj [("schemas", .arr [.str scimErrorSchema]),
    ("status", .str (toString status.number)), ("detail", .str detail)]
  detail := detail

/-! ## Strings -/

def toAsciiLowercase (text : String) : String :=
  String.ofList (lowerText text.toList)

/-- `first.eq_ignore_ascii_case(second)`. -/
def eqIgnoreAsciiCase (first second : String) : Bool :=
  toAsciiLowercase first = toAsciiLowercase second

def string? : Json → Option String
  | .str content => some content
  | _ => none

/-- The string under a key, without the space around it. -/
def bodyString (value : Json) (key : String) : String :=
  String.ofList (rustTrim (((value.get? key).bind string?).getD "").toList)

def validEmail (email : String) : Bool :=
  match email.toList.splitOn '@' with
  | [name, domain] =>
      name ≠ [] && domain.contains '.' && !(email.toList.any isRustWhitespace) &&
        email.utf8ByteSize ≤ 1000
  | _ => false

/-- `text.parse::<usize>()`. -/
def parseUsize (text : String) : Option ℕ :=
  let digits := if text.toList.head? = some '+' then text.toList.tail else text.toList
  let number := digits.foldl (fun value digit => 10 * value + (digit.toNat - '0'.toNat)) 0
  if digits ≠ [] ∧ digits.all Char.isDigit ∧ number < 2 ^ 64 then some number else none

def trimEndSlashes (text : String) : String :=
  String.ofList (text.toList.reverse.dropWhile (· = '/')).reverse

/-! ## Showing members and teams -/

def scimLocation (governance : GovernanceConfig) (kind id : String) : String :=
  let base := trimEndSlashes governance.publicBaseUrl
  if base = "" then s!"/scim/v2/{kind}/{id}" else s!"{base}/{kind}/{id}"

def userJson (governance : GovernanceConfig) (member : GovernanceMember) : Json :=
  let groups := (governance.teams.filter fun team => team.memberIds.contains member.id).map
    fun team => Json.obj [("value", .str team.id), ("display", .str team.name),
      ("$ref", .str (scimLocation governance "Groups" team.id))]
  .obj [("schemas", .arr [.str scimUserSchema]),
    ("id", .str member.id),
    ("externalId", .str member.externalId),
    ("userName", .str member.email),
    ("displayName", .str member.name),
    ("name", .obj [("formatted", .str member.name)]),
    ("active", .bool member.active),
    ("groups", .arr groups),
    ("meta", .obj [("resourceType", .str "User"),
      ("location", .str (scimLocation governance "Users" member.id))])]

def groupJson (governance : GovernanceConfig) (team : GovernanceTeam) : Json :=
  let members := team.memberIds.filterMap fun memberId =>
    (governance.members.find? fun member => member.id = memberId).map fun member =>
      Json.obj [("value", .str member.id), ("display", .str member.email),
        ("$ref", .str (scimLocation governance "Users" member.id))]
  .obj [("schemas", .arr [.str scimGroupSchema]),
    ("id", .str team.id),
    ("externalId", .str team.externalId),
    ("displayName", .str team.name),
    ("members", .arr members),
    ("meta", .obj [("resourceType", .str "Group"),
      ("location", .str (scimLocation governance "Groups" team.id))])]

def listResponse (resources : List Json) (query : String → Option String) : Json :=
  let start := max (((query "startIndex").bind parseUsize).getD 1) 1
  let count := min (((query "count").bind parseUsize).getD 100) 1000
  let page := (resources.drop (start - 1)).take count
  .obj [("schemas", .arr [.str scimListSchema]),
    ("totalResults", .num resources.length),
    ("startIndex", .num start),
    ("itemsPerPage", .num page.length),
    ("Resources", .arr page)]

end Brunomnia.Scim
