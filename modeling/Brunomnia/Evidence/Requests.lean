import Brunomnia.Evidence.Texts
import Brunomnia.Library.Placeholders

/-!
# What evidence is taken from

The requests of a collection as far as a report shows them: the URL and the headers that a
request is sent with, and a summary of its body that names its fields but not their values.
Query parameters and header lines whose names tell of a secret are redacted.
-/

namespace Brunomnia.Evidence

open Library

def code (letter : Char) : UInt16 :=
  UInt16.ofNat letter.toNat

/-- `\s` -/
def isWhiteSpace (unit : UInt16) : Bool :=
  unit.toNat ∈ [9, 10, 11, 12, 13, 32, 160, 5760, 8232, 8233, 8239, 8287, 12288, 65279] ∨
    (8192 ≤ unit.toNat ∧ unit.toNat ≤ 8202)

/-- `value.trim()` -/
def trim (value : Text) : Text :=
  ((value.dropWhile isWhiteSpace).reverse.dropWhile isWhiteSpace).reverse

/-- `value.toLowerCase()` on ASCII letters, the only ones that a pattern without `u` folds. -/
def foldCase (value : Text) : Text :=
  value.map fun unit => if 65 ≤ unit.toNat ∧ unit.toNat ≤ 90 then unit + 32 else unit

def join (separator : Text) (pieces : List Text) : Text :=
  List.intercalate separator pieces

def decimal (number : ℕ) : Text :=
  text (toString number)

/-! ## Templates -/

/-- The name in a template: without the white space around it, unless there is nothing else. -/
def templateName (content : Text) : Text :=
  if trim content = [] then content.drop (content.length - 1) else trim content

/-- The match of `{{\s*([^{}]+?)\s*}}` that a text starts with, as its name and its length. -/
def templateAt (value : Text) : Option (Text × ℕ) :=
  if [code '{', code '{'] <+: value then
    let content := (value.drop 2).takeWhile fun unit => unit ≠ code '{' ∧ unit ≠ code '}'
    if content ≠ [] ∧ [code '}', code '}'] <+: value.drop (2 + content.length) then
      some (templateName content, content.length + 4)
    else none
  else none

def resolveAfter (values : Text → Option Text) : ℕ → Text → Text
  | _, [] => []
  | skipped + 1, _ :: rest => resolveAfter values skipped rest
  | 0, unit :: rest =>
      match templateAt (unit :: rest) with
      | none => unit :: resolveAfter values 0 rest
      | some (name, length) =>
          (values name).getD ((unit :: rest).take length) ++
            resolveAfter values (length - 1) rest

def resolveTemplate (value : Text) (values : Text → Option Text) : Text :=
  resolveAfter values 0 value

/-! ## Encodings -/

def hexDigit (value : ℕ) : UInt16 :=
  if value < 10 then UInt16.ofNat (48 + value) else UInt16.ofNat (87 + value)

def upperHexDigit (value : ℕ) : UInt16 :=
  if value < 10 then UInt16.ofNat (48 + value) else UInt16.ofNat (55 + value)

def percentEncode (byte : UInt8) : Text :=
  [code '%', upperHexDigit (byte.toNat / 16), upperHexDigit (byte.toNat % 16)]

def isUriUnreserved (letter : Char) : Bool :=
  letter.isAlphanum || letter ∈ "-_.!~*'()".toList

/-- `encodeURIComponent(value)`, which throws at a surrogate without its other half. -/
def encodeURIComponent (value : Text) : Option Text :=
  (codePoints value).foldr
    (fun point encoded =>
      match point with
      | .surrogate _ => none
      | .scalar letter =>
          encoded.map fun rest =>
            (if isUriUnreserved letter then letterUnits letter
              else (String.utf8EncodeChar letter).flatMap percentEncode) ++ rest)
    (some [])

/-- A byte of `URLSearchParams.toString()`. -/
def formByte (byte : UInt8) : Text :=
  let letter := Char.ofNat byte.toNat
  if letter = ' ' then [code '+']
  else if letter.isAlphanum || letter ∈ "*-._".toList then [code letter]
  else percentEncode byte

def encodeForm (value : Text) : Text :=
  (encode value).flatMap formByte

/-- `new URLSearchParams(entries).toString()` -/
def formToString (entries : List (Text × Text)) : Text :=
  join [code '&'] (entries.map fun entry =>
    encodeForm entry.1 ++ code '=' :: encodeForm entry.2)

def unicodeEscape (number : ℕ) : Text :=
  [code '\\', code 'u', hexDigit (number / 4096), hexDigit (number / 256 % 16),
    hexDigit (number / 16 % 16), hexDigit (number % 16)]

def quotedPoint : CodePoint → Text
  | .surrogate unit => unicodeEscape unit.toNat
  | .scalar letter =>
      match letter.toNat with
      | 8 => [code '\\', code 'b']
      | 9 => [code '\\', code 't']
      | 10 => [code '\\', code 'n']
      | 12 => [code '\\', code 'f']
      | 13 => [code '\\', code 'r']
      | 34 => [code '\\', code '"']
      | 92 => [code '\\', code '\\']
      | number => if number < 32 then unicodeEscape number else letterUnits letter

/-- `JSON.stringify(value)` for a string. -/
def quoted (value : Text) : Text :=
  code '"' :: (codePoints value).flatMap quotedPoint ++ [code '"']

/-- `JSON.stringify(members)` for an object of strings. -/
def quotedMembers (members : List (Text × Text)) : Text :=
  code '{' :: join [code ','] (members.map fun member =>
    quoted member.1 ++ code ':' :: quoted member.2) ++ [code '}']

def base64Digit (value : ℕ) : UInt16 :=
  code ("ABCDEFGHIJKLMNOPQRSTUVWXYZabcdefghijklmnopqrstuvwxyz0123456789+/".toList.getD value '=')

/-- `btoa(String.fromCharCode(...bytes))` -/
def btoa : List UInt8 → Text
  | [] => []
  | [first] =>
      [base64Digit (first.toNat / 4), base64Digit (first.toNat % 4 * 16), code '=', code '=']
  | [first, second] =>
      [base64Digit (first.toNat / 4), base64Digit (first.toNat % 4 * 16 + second.toNat / 16),
        base64Digit (second.toNat % 16 * 4), code '=']
  | first :: second :: third :: rest =>
      base64Digit (first.toNat / 4) :: base64Digit (first.toNat % 4 * 16 + second.toNat / 16) ::
        base64Digit (second.toNat % 16 * 4 + third.toNat / 64) ::
          base64Digit (third.toNat % 64) :: btoa rest

def base64Bytes (value : Text) : ℕ :=
  let source := value.filter fun unit => !isWhiteSpace unit
  source.length * 3 / 4 -
    (if [code '=', code '='] <:+ source then 2 else if [code '='] <:+ source then 1 else 0)

/-! ## Requests -/

inductive Protocol where
  | http
  | graphql
  | websocket
  | socketio
  | sse
  | grpc
  deriving DecidableEq

inductive BodyMode where
  | none
  | json
  | text
  | formUrlencoded
  | multipart
  | binary
  deriving DecidableEq

structure KeyValue where
  name : Text
  value : Text
  enabled : Bool
  deriving DecidableEq

structure FilePayload where
  fileName : Text
  dataBase64 : Text
  deriving DecidableEq

structure MultipartPart extends KeyValue where
  isFile : Bool
  file : Option FilePayload
  fileName : Option Text
  deriving DecidableEq

inductive AuthType where
  | none
  | bearer
  | basic
  | apiKey
  | other
  deriving DecidableEq

structure AuthConfig where
  type : AuthType
  disabled : Bool
  token : Text
  scheme : Text
  username : Text
  password : Text
  apiKeyName : Text
  apiKeyValue : Text
  apiKeyInHeader : Bool
  deriving DecidableEq

structure GraphqlConfig where
  query : Text
  queryVariables : Text
  operationName : Text
  deriving DecidableEq

structure GrpcConfig where
  service : Text
  method : Text
  input : Text
  deriving DecidableEq

structure SocketIoConfig where
  eventName : Text
  args : List Text
  ack : Bool
  deriving DecidableEq

structure ApiRequest where
  protocol : Protocol
  method : Text
  url : Text
  pathParams : List KeyValue
  params : List KeyValue
  headers : List KeyValue
  encodeUrl : Bool
  bodyMode : BodyMode
  body : Text
  formBody : List KeyValue
  multipartBody : List MultipartPart
  binaryBody : Option FilePayload
  auth : AuthConfig
  graphql : GraphqlConfig
  grpc : GrpcConfig
  socketIo : SocketIoConfig
  deriving DecidableEq

/-- The class `URL` of the platform. Constructing a URL of a text that is none throws. -/
structure UrlClass where
  Url : Type
  construct : Text → Option Url
  searchKeys : Url → List Text
  searchSet : Url → Text → Text → Url
  searchAppend : Url → Text → Text → Url
  toText : Url → Text

section Requests

variable (platform : UrlClass)

/-- The URL with its path parameters, or none where building it throws. -/
def withPathParams (request : ApiRequest) (values : Text → Option Text) : Option Text :=
  (request.pathParams.filter fun parameter => parameter.enabled && trim parameter.name ≠ []).foldl
    (fun rawUrl parameter =>
      let name := trim (resolveTemplate parameter.name values)
      let rawValue := resolveTemplate parameter.value values
      let value := if request.encodeUrl then encodeURIComponent rawValue else some rawValue
      rawUrl.bind fun url =>
        value.map fun value => replaceEach (code '{' :: name ++ [code '}']) value 0 url)
    (some (resolveTemplate request.url values))

def buildRequestUrl (request : ApiRequest) (values : Text → Option Text) : Option Text :=
  (withPathParams request values).bind fun rawUrl =>
    let enabledParams := request.params.filter fun param =>
      param.enabled && trim param.name ≠ []
    let pairs := enabledParams.map fun param =>
      (resolveTemplate param.name values, resolveTemplate param.value values)
    if enabledParams = [] then some rawUrl
    else if request.encodeUrl then
      (platform.construct rawUrl).map fun url =>
        platform.toText (pairs.foldl (fun url pair => platform.searchAppend url pair.1 pair.2) url)
    else
      let base := rawUrl.takeWhile fun unit => unit ≠ code '#'
      let hash := rawUrl.dropWhile fun unit => unit ≠ code '#'
      let separator :=
        if code '?' ∈ base then
          if [code '?'] <:+ base ∨ [code '&'] <:+ base then [] else [code '&']
        else [code '?']
      let query := join [code '&'] (pairs.map fun pair => pair.1 ++ code '=' :: pair.2)
      some (base ++ separator ++ query ++ hash)

/-- The header that the authorization of a request adds. -/
def authHeaders (auth : AuthConfig) (values : Text → Option Text) : List KeyValue :=
  if auth.disabled then []
  else
    match auth.type with
    | .bearer =>
        if auth.token = [] then []
        else
          let resolved := resolveTemplate auth.scheme values
          let scheme := if resolved = [] then text "Bearer" else resolved
          [⟨text "Authorization",
            trim (scheme ++ code ' ' :: resolveTemplate auth.token values), true⟩]
    | .basic =>
        if auth.username = [] ∧ auth.password = [] then []
        else
          let credentials := resolveTemplate auth.username values ++
            code ':' :: resolveTemplate auth.password values
          [⟨text "Authorization", text "Basic " ++ btoa (encode credentials), true⟩]
    | .apiKey =>
        if auth.apiKeyInHeader ∧ auth.apiKeyName ≠ [] then
          [⟨resolveTemplate auth.apiKeyName values, resolveTemplate auth.apiKeyValue values,
            true⟩]
        else []
    | _ => []

def buildHeaders (request : ApiRequest) (values : Text → Option Text) : List KeyValue :=
  (request.headers.map fun header =>
    { header with
      name := resolveTemplate header.name values
      value := resolveTemplate header.value values }) ++
    authHeaders request.auth values

/-! ## Bodies -/

/-- The kinds of bodies that a report tells apart. -/
inductive BodyKind where
  | graphql
  | grpc
  | websocket
  | socketio
  | mode (mode : BodyMode)
  deriving DecidableEq

structure BodyMetadata where
  mode : BodyKind
  summary : Text
  bytes : ℕ
  estimated : Bool
  deriving DecidableEq

def partLabel (part : MultipartPart) : Text :=
  if part.isFile then
    let given := part.fileName.getD []
    let stored := (part.file.map FilePayload.fileName).getD []
    let fileName := if given ≠ [] then given else if stored ≠ [] then stored else text "file"
    part.name ++ text " (" ++ fileName ++ text ")"
  else part.name

def partBytes (values : Text → Option Text) (part : MultipartPart) : ℕ :=
  match part.isFile, part.file with
  | true, some file => base64Bytes file.dataBase64
  | _, _ => byteLength (resolveTemplate part.value values)

def requestBodyMetadata (request : ApiRequest) (values : Text → Option Text) : BodyMetadata :=
  match request.protocol with
  | .graphql =>
      let source := request.graphql.queryVariables
      let variablesText :=
        resolveTemplate (if source = [] then [code '{', code '}'] else source) values
      let operation := request.graphql.operationName
      let body := quotedMembers ([(text "query", request.graphql.query),
        (text "variables", variablesText)] ++
          if operation = [] then [] else [(text "operationName", operation)])
      ⟨.graphql, text "GraphQL query and variables", byteLength body, false⟩
  | .grpc =>
      let input := resolveTemplate request.grpc.input values
      ⟨.grpc, request.grpc.service ++ code '/' :: request.grpc.method, byteLength input, false⟩
  | .websocket =>
      let body := resolveTemplate request.body values
      ⟨.websocket, if body = [] then text "No startup frame" else text "Startup text frame",
        byteLength body, false⟩
  | .socketio =>
      let args := request.socketIo.args.map fun arg => resolveTemplate arg values
      let eventName := request.socketIo.eventName
      ⟨.socketio, (if eventName = [] then text "message" else eventName) ++ text " · " ++
          decimal args.length ++ text " args" ++
          (if request.socketIo.ack then text " · ack" else []),
        byteLength (code '[' :: join [code ','] (args.map quoted) ++ [code ']']), false⟩
  | .http | .sse =>
      match request.bodyMode with
      | .json | .text =>
          let body := resolveTemplate request.body values
          ⟨.mode request.bodyMode,
            (if request.bodyMode = .json then text "JSON" else text "Text") ++ text " body",
            byteLength body, false⟩
      | .formUrlencoded =>
          let fields := request.formBody.filter fun row => row.enabled && row.name ≠ []
          let body := formToString (fields.map fun row =>
            (resolveTemplate row.name values, resolveTemplate row.value values))
          ⟨.mode .formUrlencoded, decimal fields.length ++ text " fields: " ++
              join (text ", ") (fields.map KeyValue.name),
            byteLength body, false⟩
      | .multipart =>
          let parts := request.multipartBody.filter fun part => part.enabled && part.name ≠ []
          ⟨.mode .multipart, decimal parts.length ++ text " parts: " ++
              join (text ", ") (parts.map partLabel),
            (parts.map (partBytes values)).sum, true⟩
      | .binary =>
          match request.binaryBody with
          | some file =>
              ⟨.mode .binary, if file.fileName = [] then text "Binary file" else file.fileName,
                base64Bytes file.dataBase64, false⟩
          | none => ⟨.mode .binary, text "No request body", 0, false⟩
      | .none => ⟨.mode .none, text "No request body", 0, false⟩

/-! ## Redaction -/

def redacted : Text :=
  text "[redacted]"

def sensitiveWords : List Text :=
  ["authorization", "cookie", "token", "secret", "password", "passphrase", "apikey", "api-key",
    "api_key"].map text

def isNameSeparator (unit : UInt16) : Bool :=
  unit = code '-' || unit = code '_'

/-- Whether a text starts with a sensitive word that ends there or at a separator. -/
def startsSensitive (value : Text) : Bool :=
  sensitiveWords.any fun word =>
    word.isPrefixOf (foldCase value) && (value.drop word.length).head?.all isNameSeparator

/-- Whether such a word stands after a separator. -/
def followsSensitive : Text → Bool
  | [] => false
  | unit :: rest => isNameSeparator unit && startsSensitive rest || followsSensitive rest

def sensitiveName (name : Text) : Bool :=
  startsSensitive name || followsSensitive name

def redactSensitiveQuery (value : Text) : Text :=
  match platform.construct value with
  | none => value
  | some url =>
      platform.toText ((platform.searchKeys url).foldl
        (fun url name => if sensitiveName name then platform.searchSet url name redacted else url)
        url)

/-- The length of the match of `https?:\/\/[^\s]+` that a text starts with. -/
def linkLength (value : Text) : Option ℕ :=
  let start := if (text "https://").isPrefixOf (foldCase value) then 8
    else if (text "http://").isPrefixOf (foldCase value) then 7 else 0
  let rest := (value.drop start).takeWhile fun unit => !isWhiteSpace unit
  if start = 0 ∨ rest = [] then none else some (start + rest.length)

def redactLinks : ℕ → Text → Text
  | _, [] => []
  | skipped + 1, _ :: rest => redactLinks skipped rest
  | 0, unit :: rest =>
      match linkLength (unit :: rest) with
      | none => unit :: redactLinks 0 rest
      | some length =>
          redactSensitiveQuery platform ((unit :: rest).take length) ++
            redactLinks (length - 1) rest

def redactHeaderLine (line : Text) : Text :=
  let name := line.takeWhile fun unit => unit ≠ code ':'
  if code ':' ∉ line ∨ name = [] ∨ sensitiveName (trim name) = false then line
  else name ++ text ": [redacted]"

inductive TimelineName where
  | headerIn
  | dataIn
  | sslDataIn
  | headerOut
  | dataOut
  | sslDataOut
  | text
  deriving DecidableEq

/-- A number of milliseconds. -/
inductive Elapsed where
  | finite (milliseconds : ℚ)
  | notFinite
  deriving DecidableEq

structure ResponseTimelineEntry where
  name : TimelineName
  value : Text
  elapsedMs : Elapsed
  hidden : Option Bool
  deriving DecidableEq

def redactTimelineValue (entry : ResponseTimelineEntry) : Text :=
  match entry.name with
  | .text => redactLinks platform 0 entry.value
  | .headerIn | .headerOut =>
      join [code '\n'] ((entry.value.splitOn (code '\n')).map redactHeaderLine)
  | _ => entry.value

end Requests

end Brunomnia.Evidence
