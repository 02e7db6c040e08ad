import Brunomnia.Codegen.Materialize

/-!
# Reading cURL commands

The text of a shell is cut into commands and tokens, and the options of every command that
calls cURL become a request. What an option sets that no body, header, method or URL
depends on (time limits, proxies, certificates) is read and not kept here.
-/

namespace Brunomnia.Interchange

open Codegen

/-! ## Tokens -/

structure Tokenizer where
  commands : List (List Text)
  tokens : List Text
  token : Text
  quote : Option Char
  escaped : Bool
  deriving DecidableEq

def Tokenizer.pushToken (state : Tokenizer) : Tokenizer :=
  if state.token = [] then state
  else { state with tokens := state.tokens ++ [state.token], token := [] }

def Tokenizer.pushCommand (state : Tokenizer) : Tokenizer :=
  let state := state.pushToken
  if state.tokens = [] then state
  else { state with commands := state.commands ++ [state.tokens], tokens := [] }

def Tokenizer.read (state : Tokenizer) (letter : Char) : Tokenizer :=
  if state.escaped then
    { state with
      token := if letter = '\n' then state.token else state.token ++ [letter]
      escaped := false }
  else if letter = '\\' ∧ state.quote ≠ some '\'' then { state with escaped := true }
  else
    match state.quote with
    | some quote =>
        if letter = quote then { state with quote := none }
        else { state with token := state.token ++ [letter] }
    | none =>
        if letter = '"' ∨ letter = '\'' then { state with quote := some letter }
        else if letter = ';' ∨ letter = '\n' then state.pushCommand
        else if isWhiteSpace letter then state.pushToken
        else { state with token := state.token ++ [letter] }

def curlArguments (command : List Text) : Option (List Text) :=
  (command.findIdx? fun token => token = "curl".toList ∨ "/curl".toList <:+ token).map
    fun index => command.drop (index + 1)

def tokenize (source : Text) : List (List Text) :=
  (source.foldl Tokenizer.read ⟨[], [], [], none, false⟩).pushCommand.commands.filterMap
    curlArguments

/-! ## Options -/

inductive CurlOption where
  | request
  | header
  | data
  | dataUrlencode
  | form
  | user
  | bearer
  | url
  | cookie
  | timeout
  | proxy
  | json
  | certificate
  | key
  deriving DecidableEq

/-- The options with a value, in the order in which a token is compared with them. -/
def curlOptions : List (CurlOption × List Text) :=
  [(.request, ["-X".toList, "--request".toList]),
    (.header, ["-H".toList, "--header".toList]),
    (.data, ["-d".toList, "--data".toList, "--data-raw".toList, "--data-binary".toList]),
    (.dataUrlencode, ["--data-urlencode".toList]),
    (.form, ["-F".toList, "--form".toList]),
    (.user, ["-u".toList, "--user".toList]),
    (.bearer, ["--oauth2-bearer".toList]),
    (.url, ["--url".toList]),
    (.cookie, ["-b".toList, "--cookie".toList]),
    (.timeout, ["--max-time".toList]),
    (.proxy, ["-x".toList, "--proxy".toList]),
    (.json, ["--json".toList]),
    (.certificate, ["-E".toList, "--cert".toList]),
    (.key, ["--key".toList])]

/-- The value of an option in a token or in the one after it, and whether that is used. -/
def optionValue (token : Text) (next : Option Text) (option : Text) : Option (Text × Bool) :=
  let isLong := "--".toList <+: option
  if token = option then some (next.getD [], true)
  else if isLong ∧ option ++ ['='] <+: token then some (token.drop (option.length + 1), false)
  else if ¬isLong ∧ option <+: token then some (token.drop option.length, false)
  else none

def selectOption (token : Text) (next : Option Text) : Option (CurlOption × Text × Bool) :=
  curlOptions.findSome? fun entry =>
    (entry.2.findSome? (optionValue token next)).map fun found => (entry.1, found)

def parseHeader (value : Text) : Text × Text :=
  match splitFirst ':' value with
  | some (name, rest) => (trimText name, trimText rest)
  | none => (trimText value, [])

structure CurlState where
  method : Text
  url : Text
  forceGet : Bool
  headers : List (Text × Text)
  data : List Text
  urlEncoded : List Text
  forms : List Text
  username : Text
  password : Text
  bearer : Text
  deriving DecidableEq

def applyOption (state : CurlState) (option : CurlOption) (value : Text) : CurlState :=
  match option with
  | .request => { state with method := value }
  | .header => { state with headers := state.headers ++ [parseHeader value] }
  | .data => { state with data := state.data ++ [value] }
  | .dataUrlencode => { state with urlEncoded := state.urlEncoded ++ [value] }
  | .form => { state with forms := state.forms ++ [value] }
  | .user =>
      match value.splitOn ':' with
      | username :: password :: _ => { state with username, password }
      | _ => { state with username := value, password := [] }
  | .bearer => { state with bearer := value }
  | .url => { state with url := value }
  | .cookie => { state with headers := state.headers ++ [("Cookie".toList, value)] }
  | .json =>
      { state with
        data := state.data ++ [value]
        headers := state.headers ++ [("Content-Type".toList, "application/json".toList),
          ("Accept".toList, "application/json".toList)] }
  | .timeout | .proxy | .certificate | .key => state

/-- A token that is no option with a value: a flag, or the URL if there is none yet. -/
def applyToken (state : CurlState) (token : Text) : CurlState :=
  if token ∈ ["-G".toList, "--get".toList] then { state with forceGet := true }
  else if token ∈ ["-I".toList, "--head".toList] then { state with method := "HEAD".toList }
  else if ¬['-'] <+: token ∧ state.url = [] then { state with url := token }
  else state

/-- The loop over the arguments; `consumed` says that the last option took the next one. -/
def readArguments : CurlState → Bool → List Text → CurlState
  | state, _, [] => state
  | state, true, _ :: rest => readArguments state false rest
  | state, false, token :: rest =>
      match selectOption token rest.head? with
      | some (option, value, consumed) =>
          readArguments (applyOption state option value) consumed rest
      | none => readArguments (applyToken state token) false rest

/-! ## Requests -/

/-- An entry split at its first equals sign; nothing in it is decoded. -/
def entryRow (entry : Text) : KeyValue :=
  match splitFirst '=' entry with
  | some (name, value) => ⟨name, value, true⟩
  | none => ⟨entry, [], true⟩

def encodeUrlData (entry : Text) : Text :=
  match splitFirst '=' entry with
  | some (name, value) => name ++ '=' :: encodeURIComponent value
  | none => encodeURIComponent entry

def includesText (text pattern : Text) : Bool :=
  decide (pattern <:+: text)

def looksLikeJson (body : Text) : Bool :=
  (body.dropWhile isWhiteSpace).head? ∈ [some '[', some '{']

def inferBodyMode (contentType body : Text) : BodyMode :=
  if includesText contentType "json".toList || looksLikeJson body then .json
  else if includesText contentType "x-www-form-urlencoded".toList then .formUrlencoded
  else .text

def normalizeMethod (value : Text) : Text :=
  let method := normalizeHttpMethod value []
  if method = [] then "GET".toList else method

/-- `createBlankRequest`, of which an import replaces the method, URL and headers. -/
def blankRequest : ApiRequest where
  method := "GET".toList
  url := "https://".toList
  pathParams := []
  params := []
  headers := []
  encodeUrl := true
  bodyMode := .none
  renderBodyTemplates := true
  body := []
  formBody := []
  multipartBody := []
  binaryBody := none
  auth :=
    { type := .none
      disabled := false
      token := []
      pfx := "Bearer".toList
      username := []
      password := []
      apiKeyName := "X-API-Key".toList
      apiKeyValue := []
      apiKeyLocation := .header
      accessToken := []
      tokenPrefix := "Bearer".toList }

/-- With `-G` the data is part of the URL. -/
def forcedGet (state : CurlState) : CurlState :=
  if state.forceGet ∧ (state.data ≠ [] ∨ state.urlEncoded ≠ []) then
    let query := List.intercalate ['&'] (state.data ++ state.urlEncoded.map encodeUrlData)
    { state with
      url := state.url ++ (if '?' ∈ state.url then '&' else '?') :: query
      data := []
      urlEncoded := [] }
  else state

/-- The request with the body of a command: a form, encoded fields, or data. -/
def withCurlBody (request : ApiRequest) (state : CurlState) : ApiRequest :=
  if state.forms ≠ [] then
    { request with
      bodyMode := .multipart
      multipartBody := state.forms.map fun entry =>
        let row := entryRow entry
        { row with value := if row.value.head? = some '@' then [] else row.value } }
  else if state.urlEncoded ≠ [] then
    { request with bodyMode := .formUrlencoded, formBody := state.urlEncoded.map entryRow }
  else if state.data ≠ [] then
    let body := List.intercalate ['&'] state.data
    let contentType := ((request.headers.find? fun header =>
      lowerText header.name = "content-type".toList).map KeyValue.value).getD []
    let bodyMode := inferBodyMode contentType body
    { request with
      body, bodyMode
      formBody := if bodyMode = .formUrlencoded then (body.splitOn '&').map entryRow
        else request.formBody }
  else { request with bodyMode := .none }

def withCurlAuth (request : ApiRequest) (state : CurlState) : ApiRequest :=
  if state.bearer ≠ [] then
    { request with auth := { request.auth with type := .bearer, token := state.bearer } }
  else if state.username ≠ [] ∨ state.password ≠ [] then
    { request with
      auth := { request.auth with
        type := .basic
        username := state.username
        password := state.password } }
  else request

def requestOfState (state : CurlState) : ApiRequest :=
  let state := forcedGet state
  let hasBody := state.forms ≠ [] ∨ state.data ≠ [] ∨ state.urlEncoded ≠ []
  let inferredMethod :=
    if state.method ≠ [] then state.method else if hasBody then "POST".toList else "GET".toList
  let request :=
    { blankRequest with
      method := normalizeMethod inferredMethod
      url := state.url
      headers := state.headers.map fun header => ⟨header.1, header.2, true⟩ }
  withCurlAuth (withCurlBody request state) state

def parseCurlCommand (arguments : List Text) : ApiRequest :=
  requestOfState (readArguments ⟨[], [], false, [], [], [], [], [], [], []⟩ false arguments)

def importCurl (contents : Text) : List ApiRequest :=
  (tokenize contents).map parseCurlCommand

end Brunomnia.Interchange
