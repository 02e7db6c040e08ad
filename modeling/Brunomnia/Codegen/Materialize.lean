import Brunomnia.Codegen.Text

/-!
# Materialised requests

What a generated snippet sends: the request with its templates resolved, its
authorization among the headers, and its body encoded. The headers are a record, so of
two rows with one name the last value stays.
-/

namespace Brunomnia.Codegen

structure KeyValue where
  name : Text
  value : Text
  enabled : Bool
  deriving DecidableEq

inductive BodyMode where
  | none
  | json
  | text
  | formUrlencoded
  | multipart
  | binary
  deriving DecidableEq

inductive AuthType where
  | none
  | bearer
  | basic
  | apiKey
  | oauth2
  | other
  deriving DecidableEq

inductive ApiKeyLocation where
  | header
  | query
  deriving DecidableEq

structure AuthConfig where
  type : AuthType
  disabled : Bool
  token : Text
  pfx : Text
  username : Text
  password : Text
  apiKeyName : Text
  apiKeyValue : Text
  apiKeyLocation : ApiKeyLocation
  accessToken : Text
  tokenPrefix : Text
  deriving DecidableEq

structure BinaryBody where
  mimeType : Text
  dataBase64 : Text
  deriving DecidableEq

/-- A request of the HTTP protocol. -/
structure ApiRequest where
  method : Text
  url : Text
  pathParams : List KeyValue
  params : List KeyValue
  headers : List KeyValue
  encodeUrl : Bool
  bodyMode : BodyMode
  renderBodyTemplates : Bool
  body : Text
  formBody : List KeyValue
  multipartBody : List KeyValue
  binaryBody : Option BinaryBody
  auth : AuthConfig
  deriving DecidableEq

inductive MaterializedBody where
  | text (value : Text)
  | bytes (contentType : Text) (dataBase64 : Text) (replaceContentType : Bool)
  deriving DecidableEq

structure MaterializedRequest where
  method : Text
  url : Text
  headers : List (Text × Text)
  body : Option MaterializedBody
  deriving DecidableEq

/-- What the platform does: parsing a URL to add or set query parameters, and the bytes of
multipart forms with their boundary. -/
structure Platform where
  appendQuery : Text → List (Text × Text) → Option Text
  setQuery : Text → Text → Text → Option Text
  encodeMultipart : (Text → Text) → List KeyValue → Text × Text
  isBase64 : Text → Bool

def isMethodCharacter (letter : Char) : Bool :=
  letter.isUpper || letter.isDigit || letter ∈ "!#$%&'*+.^_`|~-".toList

def normalizeHttpMethod (value fallback : Text) : Text :=
  let method := upperText (trimText value)
  if method ≠ [] ∧ method.length ≤ 32 ∧ ∀ letter ∈ method, isMethodCharacter letter then method
  else fallback

section Materialize

variable (platform : Platform) (values : Text → Option Text)

/-- The URL with its path parameters, or none where its query parameters make it invalid. -/
def buildRequestUrl (request : ApiRequest) : Option Text :=
  let pathParams := request.pathParams.filter fun parameter =>
    parameter.enabled && trimText parameter.name ≠ []
  let rawUrl := pathParams.foldl
    (fun url parameter =>
      let name := trimText (resolveTemplate values parameter.name)
      let rawValue := resolveTemplate values parameter.value
      replaceAfter ('{' :: name ++ ['}'])
        (if request.encodeUrl then encodeURIComponent rawValue else rawValue) 0 url)
    (resolveTemplate values request.url)
  let params := (request.params.filter fun param =>
    param.enabled && trimText param.name ≠ []).map fun param =>
      (resolveTemplate values param.name, resolveTemplate values param.value)
  if params = [] then some rawUrl
  else if request.encodeUrl then platform.appendQuery rawUrl params
  else
    let base := rawUrl.takeWhile fun letter => letter ≠ '#'
    let hash := rawUrl.dropWhile fun letter => letter ≠ '#'
    let separator : Text :=
      if '?' ∈ base then
        if base.getLast? = some '?' ∨ base.getLast? = some '&' then [] else ['&']
      else ['?']
    let query := List.intercalate ['&'] (params.map fun param => param.1 ++ '=' :: param.2)
    some (base ++ separator ++ query ++ hash)

def resolvedHeaders (request : ApiRequest) : List KeyValue :=
  request.headers.map fun header =>
    { header with
      name := resolveTemplate values header.name
      value := resolveTemplate values header.value }

/-- The header that the authorization of a request adds. -/
def authHeaders (auth : AuthConfig) : List KeyValue :=
  if auth.disabled then []
  else
    match auth.type with
    | .bearer =>
        if auth.token = [] then []
        else
          let resolved := resolveTemplate values auth.pfx
          let scheme := if resolved = [] then "Bearer".toList else resolved
          [⟨"Authorization".toList,
            trimText (scheme ++ ' ' :: resolveTemplate values auth.token), true⟩]
    | .basic =>
        if auth.username = [] ∧ auth.password = [] then []
        else
          let credentials := resolveTemplate values auth.username ++
            ':' :: resolveTemplate values auth.password
          [⟨"Authorization".toList,
            "Basic ".toList ++ base64 (credentials.flatMap String.utf8EncodeChar), true⟩]
    | .apiKey =>
        if auth.apiKeyLocation = .header ∧ auth.apiKeyName ≠ [] then
          [⟨resolveTemplate values auth.apiKeyName, resolveTemplate values auth.apiKeyValue, true⟩]
        else []
    | _ => []

def oauth2Headers (auth : AuthConfig) : List KeyValue :=
  if auth.disabled = false ∧ auth.type = .oauth2 ∧ auth.accessToken ≠ [] then
    let token := resolveTemplate values auth.accessToken
    let resolved := resolveTemplate values auth.tokenPrefix
    let scheme := if resolved = [] then "Bearer".toList else resolved
    [⟨"Authorization".toList,
      if scheme = "NO_PREFIX".toList then token else trimText (scheme ++ ' ' :: token), true⟩]
  else []

def headerRecord (rows : List KeyValue) : List (Text × Text) :=
  (rows.filter fun row => row.enabled && trimText row.name ≠ []).foldl
    (fun headers row => recordSet headers (trimText row.name) row.value) []

def isContentType (name : Text) : Bool :=
  lowerText name = "content-type".toList

def addContentType (headers : List (Text × Text)) (value : Text) : List (Text × Text) :=
  if ∃ header ∈ headers, isContentType header.1 then headers
  else recordSet headers "Content-Type".toList value

def removeContentType (headers : List (Text × Text)) : List (Text × Text) :=
  headers.filter fun header => !isContentType header.1

def renderBody (request : ApiRequest) (value : Text) : Text :=
  if request.renderBodyTemplates then resolveTemplate values value else value

def materializeBody (request : ApiRequest) : Option MaterializedBody :=
  if request.method = "GET".toList ∨ request.method = "HEAD".toList then none
  else
    match request.bodyMode with
    | .none => none
    | .json | .text => some (.text (renderBody values request request.body))
    | .formUrlencoded =>
        let rows := request.formBody.filter fun row => row.enabled && row.name ≠ []
        some (.text (formToString (rows.map fun row =>
          (renderBody values request row.name, renderBody values request row.value))))
    | .multipart =>
        let (boundary, dataBase64) :=
          platform.encodeMultipart (renderBody values request) request.multipartBody
        some (.bytes ("multipart/form-data; boundary=".toList ++ boundary) dataBase64 true)
    | .binary =>
        match request.binaryBody with
        | none => none
        | some binary =>
            if platform.isBase64 binary.dataBase64 then
              some (.bytes binary.mimeType binary.dataBase64 false)
            else none

def materializeUrl (request : ApiRequest) : Text :=
  let url := (buildRequestUrl platform values request).getD
    ((buildRequestUrl platform values { request with params := [] }).getD [])
  if request.auth.disabled = false ∧ request.auth.type = .apiKey ∧
      request.auth.apiKeyLocation = .query ∧ request.auth.apiKeyName ≠ [] then
    (platform.setQuery url (resolveTemplate values request.auth.apiKeyName)
      (resolveTemplate values request.auth.apiKeyValue)).getD url
  else url

/-- The header rows; an authored authorization replaces the configured one. -/
def materializeHeaderRows (request : ApiRequest) : List KeyValue :=
  let authored := resolvedHeaders values request
  if authored.any fun header =>
      header.enabled && lowerText (trimText header.name) = "authorization".toList then authored
  else authored ++ authHeaders values request.auth ++ oauth2Headers values request.auth

/-- The content types that the mode and the body of a request add to its headers. -/
def withContentType (request : ApiRequest) (body : Option MaterializedBody)
    (headers : List (Text × Text)) : List (Text × Text) :=
  let headers :=
    if request.bodyMode = .json then addContentType headers "application/json".toList else headers
  let headers :=
    if request.bodyMode = .formUrlencoded then
      addContentType headers "application/x-www-form-urlencoded".toList
    else headers
  match body with
  | some (.bytes contentType _ replaceContentType) =>
      if contentType = [] then headers
      else if replaceContentType then
        recordSet (removeContentType headers) "Content-Type".toList contentType
      else addContentType headers contentType
  | _ => headers

def materialize (request : ApiRequest) : MaterializedRequest :=
  let body := materializeBody platform values request
  { method := request.method
    url := materializeUrl platform values request
    headers :=
      withContentType request body (headerRecord (materializeHeaderRows values request))
    body }

end Materialize

/-! ## The snippet -/

/-- A value in single quotes. A single quote in it stands in double quotes. -/
def shell (value : Text) : Text :=
  '\'' :: value.flatMap (fun letter => if letter = '\'' then "'\"'\"'".toList else [letter]) ++
    ['\'']

/-- The parts of the command that a text body or none makes. -/
def curlParts (request : MaterializedRequest) : List Text :=
  ("curl --request ".toList ++ request.method) :: ("  --url ".toList ++ shell request.url) ::
    (request.headers.map fun header =>
      "  --header ".toList ++ shell (header.1 ++ ": ".toList ++ header.2)) ++
    match request.body with
    | some (.text value) => ["  --data-raw ".toList ++ shell value]
    | some (.bytes _ _ _) => ["  --data-binary @\"$payload_file\"".toList]
    | none => []

def curlSnippet (request : MaterializedRequest) : Text :=
  let command := List.intercalate " \\\n".toList (curlParts request)
  match request.body with
  | some (.bytes _ dataBase64 _) =>
      "payload_file=\"$(mktemp)\"\ntrap 'rm -f \"$payload_file\"' EXIT\nif ! printf %s ".toList ++
        shell dataBase64 ++
        " | base64 --decode > \"$payload_file\" 2>/dev/null; then\n  printf %s ".toList ++
        shell dataBase64 ++ " | base64 -D > \"$payload_file\"\nfi\n\n".toList ++ command
  | _ => command

end Brunomnia.Codegen
