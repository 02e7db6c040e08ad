import Brunomnia.Json
import Brunomnia.Codegen.Text

/-!
# Requests of Postman collections

An item of a collection becomes a request with a URL, rows, a body, authentication and scripts. The
warnings of an import and the fields that only remember the source are left out, except for
authentication of other types, which is kept nowhere else.
-/

namespace Brunomnia.Postman

open Codegen (Text trimText lowerText upperText)

/-! ## Values -/

def asRecord (value : Option Json) : Option Json :=
  value.filter Json.isObject

def asArray : Option Json → List Json
  | some (.arr items) => items
  | _ => []

def asStringOr (fallback : String) : Option Json → String
  | some (.str text) => text
  | _ => fallback

def asString (value : Option Json) : String :=
  asStringOr "" value

/-- A member of a record that may be missing. -/
def member (value : Option Json) (key : String) : Option Json :=
  value.bind fun value => value.get? key

/-- `first ?? second` -/
def orElse (first second : Option Json) : Option Json :=
  if first = none ∨ first = some .null then second else first

/-- `first || second` for texts. -/
def orText (first second : String) : String :=
  if first = "" then second else first

/-! ## Identifiers -/

def charCodes (letter : Char) : List ℕ :=
  if letter.toNat < 65536 then [letter.toNat]
  else [55296 + (letter.toNat - 65536) / 1024, 56320 + (letter.toNat - 65536) % 1024]

/-- The 32 bits of `hash(value)`. -/
def hash (value : String) : ℕ :=
  (value.toList.flatMap charCodes).foldl
    (fun output code => ((output ^^^ code) * 16777619) % 4294967296) 2166136261

def digitLetter (digit : ℕ) : Char :=
  if digit < 10 then Char.ofNat (48 + digit) else Char.ofNat (87 + digit)

/-- `value.toString(36)` -/
def base36 (value : ℕ) : String :=
  if value = 0 then "0" else String.ofList ((Nat.digits 36 value).reverse.map digitLetter)

/-- The text that an identifier is the hash of. -/
def sourceText (format value : String) (index : ℕ) : String :=
  format ++ ":" ++ value ++ ":" ++ toString index

def sourceId (kind format value : String) (index : ℕ) : String :=
  kind ++ "-" ++ base36 (hash (sourceText format value index))

def postmanFormat : String :=
  "postman-2"

/-! ## Rows -/

structure KeyValue where
  id : String
  name : String
  value : String
  enabled : Bool
  description : String
  deriving DecidableEq

/-- The rows of an array; values that are no records have none. -/
def keyValues (input : Option Json) (label : String) : List KeyValue :=
  (asArray input).zipIdx.filterMap fun (entry, index) =>
    if entry.isObject then
      some ⟨label ++ "-" ++ toString index, entry.text "key", entry.text "value",
        !entry.flag "disabled", entry.text "description"⟩
    else none

/-- `value.split(/\r?\n/)` -/
def linesOf (value : Text) : List Text :=
  (value.splitOn '\n').zipIdx.map fun (line, index) =>
    if index + 1 < (value.splitOn '\n').length ∧ line.getLast? = some '\r' then line.dropLast
    else line

def headerLines (value label : String) : List KeyValue :=
  (linesOf value.toList).zipIdx.filterMap fun (line, index) =>
    if ':' ∈ line then
      some ⟨label ++ "-" ++ toString index,
        String.ofList (trimText (line.takeWhile fun letter => letter ≠ ':')),
        String.ofList (trimText (line.dropWhile fun letter => letter ≠ ':').tail), true, ""⟩
    else none

def postmanHeaders (value : Option Json) (label : String) : List KeyValue :=
  match value with
  | some (.str text) => headerLines text label
  | _ => keyValues value label

/-! ## URLs -/

def isWordLetter (letter : Char) : Bool :=
  letter.isAlphanum || letter = '_'

def isNameStart (letter : Char) : Bool :=
  letter.isAlpha || letter = '_'

/-- The longest start that matches `[A-Za-z_][\w-]*`. -/
def nameAt : Text → Text
  | [] => []
  | letter :: rest =>
      if isNameStart letter then
        letter :: rest.takeWhile fun letter => isWordLetter letter || letter = '-'
      else []

/-- `url.replace(/:([A-Za-z_][\w-]*)/g, …)`, where names get braces around them. The letters of
the last name are skipped. -/
def replaceNamesFrom : ℕ → Text → Text
  | _, [] => []
  | skipped + 1, _ :: rest => replaceNamesFrom skipped rest
  | 0, letter :: rest =>
      if letter = ':' ∧ nameAt rest ≠ [] then
        '\x7b' :: nameAt rest ++ '\x7d' :: replaceNamesFrom (nameAt rest).length rest
      else letter :: replaceNamesFrom 0 rest

def replaceNames (url : Text) : Text :=
  replaceNamesFrom 0 url

def stripQuery (url : Text) : Text :=
  url.takeWhile fun letter => letter ≠ '?'

/-- The texts of an array, or the text itself. -/
def joined (separator : String) (value : Option Json) : String :=
  match value with
  | some (.arr items) => separator.intercalate (items.map fun item => asString (some item))
  | _ => asString value

def postmanUrl (value : Option Json) : String :=
  match value with
  | some (.str url) => url
  | _ =>
      match asRecord value with
      | none => ""
      | some url =>
          match url.get? "raw" with
          | some (.str raw) => raw
          | _ =>
              let protocol := asStringOr "https" (url.get? "protocol")
              let host := joined "." (url.get? "host")
              let path := joined "/" (url.get? "path")
              protocol ++ "://" ++ host ++ if path = "" then "" else "/" ++ path

/-- The query of the URL is given by rows. -/
def splitsQuery (value : Option Json) : Bool :=
  match member (asRecord value) "query" with
  | some (.arr _) => true
  | _ => false

def importedUrl (value : Option Json) : Text :=
  let url := (postmanUrl value).toList
  replaceNames (if splitsQuery value then stripQuery url else url)

/-! ## Authentication -/

def authProperty (auth : Json) (type key : String) : String :=
  match (auth.list type).find? fun item => item.isObject && item.get? "key" = some (.str key) with
  | some item => item.text "value"
  | none => ""

def postmanSignatureMethod (value : String) : String :=
  let normalized := String.ofList ((upperText value.toList).map fun letter =>
    if letter = '_' then '-' else letter)
  if normalized ∈ ["HMAC-SHA1", "HMAC-SHA256", "RSA-SHA1", "PLAINTEXT"] then normalized
  else "HMAC-SHA1"

/-- A field of an authentication, with how it is read from the properties. -/
structure AuthField where
  name : String
  read : (String → String) → String

/-- The field has the text of a property. -/
def copied (name key : String) : AuthField :=
  ⟨name, fun property => property key⟩

/-- The field has the text of a property, or a default. -/
def withDefault (name key standard : String) : AuthField :=
  ⟨name, fun property => orText (property key) standard⟩

/-- The types that are known, under their own name and with their fields. -/
def authFields : String → Option (String × List AuthField)
  | "basic" => some ("basic", [copied "username" "username", copied "password" "password"])
  | "bearer" => some ("bearer", [copied "token" "token"])
  | "apikey" => some ("api-key", [withDefault "apiKeyName" "key" "X-API-Key",
      copied "apiKeyValue" "value",
      ⟨"apiKeyLocation", fun property =>
        if property "in" = "query" ∨ property "in" = "queryParams" then "query" else "header"⟩])
  | "digest" => some ("digest", [copied "username" "username", copied "password" "password"])
  | "oauth1" => some ("oauth1", [copied "consumerKey" "consumerKey",
      copied "consumerSecret" "consumerSecret", copied "tokenKey" "token",
      copied "tokenSecret" "tokenSecret",
      ⟨"oauth1SignatureMethod", fun property =>
        postmanSignatureMethod (property "signatureMethod")⟩,
      copied "realm" "realm", withDefault "version" "version" "1.0", copied "nonce" "nonce",
      copied "timestamp" "timestamp", copied "verifier" "verifier",
      copied "callback" "callback"])
  | "oauth2" => some ("oauth2", [copied "accessToken" "accessToken",
      ⟨"tokenPrefix", fun property =>
        orText (property "headerPrefix") (orText (property "tokenType") "Bearer")⟩])
  | "ntlm" => some ("ntlm", [copied "username" "username", copied "password" "password",
      copied "ntlmDomain" "domain", withDefault "ntlmWorkstation" "workstation" "BRUNOMNIA"])
  | "hawk" => some ("hawk", [copied "hawkId" "authId", copied "hawkKey" "authKey",
      copied "hawkExt" "ext",
      ⟨"hawkAlgorithm", fun property =>
        if lowerText (property "algorithm").toList = "sha1".toList then "sha1" else "sha256"⟩])
  | "awsv4" => some ("iam", [copied "awsAccessKeyId" "accessKey",
      copied "awsSecretAccessKey" "secretKey", copied "awsSessionToken" "sessionToken",
      withDefault "awsRegion" "region" "us-east-1",
      withDefault "awsService" "service" "execute-api"])
  | _ => none

/-- What a request keeps of an authentication: nothing, the fields of a known type, or the value as
it is. -/
inductive RequestAuth where
  | untouched
  | configured (type : String) (fields : List (String × String))
  | preserved (auth : Json)
  deriving DecidableEq

/-- The authentication, given how its properties are read. -/
def authWith (property : Json → String → String → String) (rawAuth : Option Json) : RequestAuth :=
  match asRecord rawAuth with
  | none => .untouched
  | some auth =>
      let type := auth.text "type"
      if type = "" ∨ type = "noauth" then .untouched
      else
        match authFields type with
        | some (ownType, fields) =>
            .configured ownType
              (fields.map fun field => (field.name, field.read (property auth type)))
        | none => .preserved auth

def applyPostmanAuth (rawAuth : Option Json) : RequestAuth :=
  authWith authProperty rawAuth

/-! ## Bodies -/

inductive BodyMode where
  | none
  | json
  | text
  | formUrlEncoded
  | multipart
  | binary
  deriving DecidableEq

structure Part where
  id : String
  name : String
  value : String
  enabled : Bool
  description : String
  isFile : Bool
  multiline : Bool
  fileName : String
  contentType : String
  deriving DecidableEq

/-- What the body of an item sets, with the type of the content, if one is added. -/
structure RequestBody where
  mode : Option BodyMode
  body : String := ""
  formBody : List KeyValue := []
  multipartBody : List Part := []
  graphql : Option (String × String) := none
  contentType : Option String := none
  deriving DecidableEq

/-- `/^\s*[\[{]/.test(body)` -/
def looksLikeJson (body : Text) : Bool :=
  (body.dropWhile isWhiteSpace).head?.any fun letter => letter = '[' || letter = '\x7b'

def partsOf (input : Option Json) (label : String) : List Part :=
  (asArray input).zipIdx.filterMap fun (entry, index) =>
    if entry.isObject then
      some ⟨label ++ "-" ++ toString index, entry.text "key", entry.text "value",
        !entry.flag "disabled", entry.text "description", entry.get? "type" = some (.str "file"),
        '\n' ∈ (entry.text "value").toList, entry.text "src", entry.text "contentType"⟩
    else none

/-- The body of a request; how values are written as JSON is a parameter. -/
def applyPostmanBody (stringify : Json → String) (requestId : String) (rawBody : Option Json) :
    RequestBody :=
  let body := asRecord rawBody
  match asString (member body "mode") with
  | "" => { mode := some .none }
  | "raw" =>
      let content := asString (member body "raw")
      let language := asString (member (asRecord (member (asRecord (member body "options")) "raw"))
        "language")
      if language = "json" || looksLikeJson content.toList then
        { mode := some .json, body := content, contentType := some "application/json" }
      else { mode := some .text, body := content, contentType := some "text/plain" }
  | "urlencoded" =>
      { mode := some .formUrlEncoded
        formBody := keyValues (member body "urlencoded") (requestId ++ "-form")
        contentType := some "application/x-www-form-urlencoded" }
  | "formdata" =>
      { mode := some .multipart
        multipartBody := partsOf (member body "formdata") (requestId ++ "-part")
        contentType := some "multipart/form-data" }
  | "graphql" =>
      let graphql := asRecord (member body "graphql")
      { mode := some .none
        graphql := some (asString (member graphql "query"),
          match member graphql "variables" with
          | some (.str content) => content
          | given => stringify ((orElse given none).getD (.obj [])))
        contentType := some "application/json" }
  | "file" => { mode := some .binary }
  | _ => { mode := none }

/-- The row of the content's type is added if no header has its name. -/
def contentTypeRows (requestId : String) (headers : List KeyValue) (contentType : Option String) :
    List KeyValue :=
  match contentType with
  | none => []
  | some value =>
      if headers.any fun header => lowerText header.name.toList = "content-type".toList then []
      else [⟨requestId ++ "-content-type", "Content-Type", value, true, ""⟩]

end Brunomnia.Postman
