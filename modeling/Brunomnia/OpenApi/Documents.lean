import Brunomnia.Json

/-!
# OpenAPI documents

A document is analysed for mistakes and for its operations, and a collection is made that has a
request for every operation. How the texts of documents are parsed is a parameter, since the parser
is a package; so is how values are written as JSON. No ruleset is given.
-/

namespace Brunomnia.OpenApi

/-- The parser of documents, and `JSON.stringify` without and with indentation. -/
structure Platform where
  parse : String → Except String Json
  stringify : Json → String
  stringifyIndented : Json → String

/-! ## Issues and operations -/

inductive Severity where
  | error
  | warning
  deriving DecidableEq

structure OpenApiIssue where
  severity : Severity
  path : String
  message : String
  deriving DecidableEq

structure OpenApiParameter where
  name : String
  location : String
  required : Bool
  description : String
  value : String
  deriving DecidableEq

structure OpenApiOperation where
  id : String
  method : String
  path : String
  summary : String
  description : String
  parameters : List OpenApiParameter
  deriving DecidableEq

structure OpenApiAnalysis where
  document : Option Json
  issues : List OpenApiIssue
  operations : List OpenApiOperation
  title : String
  version : String

def operationMethods : List String :=
  ["get", "post", "put", "patch", "delete", "head", "options", "trace"]

def record (value : Option Json) : Option Json :=
  value.filter Json.isObject

/-- A member of a record that may be missing. -/
def member (value : Option Json) (key : String) : Option Json :=
  value.bind fun value => value.get? key

def asString : Option Json → String
  | some (.str text) => text
  | _ => ""

def isTruthy (value : Option Json) : Bool :=
  value.any Json.truthy

/-- `first ?? second` -/
def orElse (first second : Option Json) : Option Json :=
  if first = none ∨ first = some .null then second else first

def hasMembers (value : Option Json) : Bool :=
  value.any fun value => value.members ≠ []

def pathLabel (parts : List String) : String :=
  (".".intercalate parts).replace ".[" "["

/-! ## Names in paths -/

def isAlphanumeric (letter : Char) : Bool :=
  letter.isDigit || ('a' ≤ letter && letter ≤ 'z') || ('A' ≤ letter && letter ≤ 'Z')

/-- `path.replace(/[^a-z0-9]+/gi, '-')` -/
def hyphenated : List Char → List Char
  | [] => []
  | letter :: rest =>
      if isAlphanumeric letter then letter :: hyphenated rest
      else
        match rest with
        | [] => ['-']
        | next :: _ => if isAlphanumeric next then '-' :: hyphenated rest else hyphenated rest

/-- The names that `/{([^}]+)}/g` matches. -/
def placeholderNames (path : List Char) : List (List Char) :=
  match path with
  | [] => []
  | letter :: rest =>
      let name := rest.takeWhile fun letter => letter ≠ '}'
      let behind := rest.dropWhile fun letter => letter ≠ '}'
      if letter = '{' ∧ name ≠ [] ∧ behind ≠ [] then name :: placeholderNames behind.tail
      else placeholderNames rest
termination_by path.length
decreasing_by
  · have shorter := (List.dropWhile_suffix (l := rest) fun letter => letter ≠ '}').length_le
    simp only [List.length_cons, List.length_tail]
    omega
  · simp

/-! ## Analysis -/

variable (platform : Platform)

/-- The parameter that a value describes. -/
def parameterOf (rawParameter : Json) : Option OpenApiParameter :=
  match record (some rawParameter) with
  | none => none
  | some parameter =>
      match parameter.get? "name", parameter.get? "in" with
      | some (.str name), some (.str location) =>
          let schema := record (parameter.get? "schema")
          let sample := orElse (parameter.get? "example")
            (orElse (member schema "example") (member schema "default"))
          let value :=
            match sample with
            | none => ""
            | some (.str text) => text
            | some value => platform.stringify value
          some ⟨name, location, isTruthy (parameter.get? "required"),
            asString (parameter.get? "description"), value⟩
      | _, _ => none

/-- The parameters of a path are followed by those of the operation. -/
def parametersOf (pathItem operation : Json) : List OpenApiParameter :=
  (pathItem.list "parameters" ++ operation.list "parameters").filterMap (parameterOf platform)

/-- The operation's own identifier, or one that is made of its method and its path. -/
def operationIdOf (path method : String) (operation : Json) : String :=
  if operation.text "operationId" ≠ "" then operation.text "operationId"
  else method ++ "-" ++ String.ofList (hyphenated path.toList)

def operationOf (path method : String) (pathItem operation : Json) : OpenApiOperation where
  id := operationIdOf path method operation
  method := method.toUpper
  path := path
  summary :=
    match operation.get? "summary" with
    | some (.str summary) => summary
    | _ => operationIdOf path method operation
  description := asString (operation.get? "description")
  parameters := parametersOf platform pathItem operation

def operationIssues (path method : String) (pathItem operation : Json)
    (operationIds : List String) : List OpenApiIssue :=
  let operationPath := pathLabel ["paths", path, method]
  let operationId := operationIdOf path method operation
  let parameters := parametersOf platform pathItem operation
  (if isTruthy (operation.get? "operationId") then []
    else [⟨.warning, operationPath ++ ".operationId",
      "Add an operationId for stable generated request names."⟩]) ++
  (if operationId ∈ operationIds then
    [⟨.error, operationPath ++ ".operationId", "Duplicate operationId: " ++ operationId ++ "."⟩]
    else []) ++
  (if hasMembers (record (operation.get? "responses")) then []
    else [⟨.error, operationPath ++ ".responses", "Every operation needs at least one response."⟩])
  ++
  (placeholderNames path.toList).flatMap fun name =>
    if parameters.any fun parameter => parameter.location = "path" &&
        parameter.name = String.ofList name && parameter.required then []
    else [⟨.error, operationPath ++ ".parameters",
      "Path parameter \x7b" ++ String.ofList name ++ "\x7d must be declared and required."⟩]

/-- What the loops have found so far. -/
structure Findings where
  issues : List OpenApiIssue
  operations : List OpenApiOperation
  operationIds : List String

def analyzeOperation (path : String) (pathItem : Json) (findings : Findings)
    (entry : String × Json) : Findings :=
  if entry.1 ∉ operationMethods then findings
  else
    match record (some entry.2) with
    | none => findings
    | some operation =>
        { issues := findings.issues ++
            operationIssues platform path entry.1 pathItem operation findings.operationIds
          operations := findings.operations ++
            [operationOf platform path entry.1 pathItem operation]
          operationIds := findings.operationIds ++ [operationIdOf path entry.1 operation] }

def analyzePath (findings : Findings) (entry : String × Json) : Findings :=
  let checked : Findings :=
    if entry.1.toList.head? = some '/' then findings
    else { findings with
      issues := findings.issues ++
        [⟨.error, pathLabel ["paths", entry.1], "Path keys must begin with /."⟩] }
  match record (some entry.2) with
  | none => checked
  | some pathItem => pathItem.members.foldl (analyzeOperation platform entry.1 pathItem) checked

def documentIssues (document : Json) : List OpenApiIssue :=
  let info := record (document.get? "info")
  (if "3.".toList <+: (document.text "openapi").toList then []
    else [⟨.error, "openapi", "Brunomnia expects an OpenAPI 3.x document."⟩]) ++
  (if isTruthy (member info "title") then []
    else [⟨.error, "info.title", "Add an API title."⟩]) ++
  (if isTruthy (member info "version") then []
    else [⟨.error, "info.version", "Add an API version."⟩]) ++
  (if hasMembers (record (document.get? "paths")) then []
    else [⟨.error, "paths", "Define at least one API path."⟩])

/-- `Object.entries(paths ?? {})` -/
def pathEntries (document : Json) : List (String × Json) :=
  match record (document.get? "paths") with
  | some paths => paths.members
  | none => []

def analyzeOpenApi (contents : String) : OpenApiAnalysis :=
  match platform.parse contents with
  | .error message => ⟨none, [⟨.error, "$", message⟩], [], "Invalid document", ""⟩
  | .ok parsed =>
      match record (some parsed) with
      | none =>
          ⟨none, [⟨.error, "$", "The document root must be an object."⟩], [], "Invalid document",
            ""⟩
      | some document =>
          let info := record (document.get? "info")
          let findings := (pathEntries document).foldl (analyzePath platform)
            ⟨documentIssues document, [], []⟩
          { document := some document
            issues := findings.issues
            operations := findings.operations
            title :=
              match member info "title" with
              | some (.str title) => title
              | _ => "Untitled API"
            version := asString (member info "version") }

/-! ## Generation -/

theorem depth_lt_of_get? {value found : Json} {key : String}
    (isFound : value.get? key = some found) :
    found.depth < value.depth := by
  cases value with
  | obj members => exact Json.depth_lt_of_lookup isFound
  | _ => exact absurd isFound (by simp [Json.get?, Json.members])

theorem depth_lt_of_mem {value : Json} {entry : String × Json} (entryMem : entry ∈ value.members) :
    entry.2.depth < value.depth := by
  cases value with
  | obj members =>
      change entry ∈ members at entryMem
      induction members with
      | nil => exact absurd entryMem (by simp)
      | cons first rest ih =>
          simp only [Json.depth, Json.depthMembers] at ih ⊢
          rcases List.mem_cons.mp entryMem with rfl | inRest
          · omega
          · have below := ih inRest
            omega
  | _ => exact absurd entryMem (by simp [Json.members])

theorem record_eq_some {value : Option Json} {found : Json} (isRecord : record value = some found) :
    value = some found :=
  (Option.filter_eq_some_iff.mp isRecord).1

set_option linter.unusedVariables false in
/-- A value that fits a schema. -/
def exampleOf (schema : Json) : Json :=
  match schema.get? "example", schema.get? "default" with
  | some sample, _ => sample
  | none, some sample => sample
  | none, none =>
      let type := schema.get? "type"
      if type = some (.str "array") then
        match isItems : record (schema.get? "items") with
        | some items => .arr [exampleOf items]
        | none => .arr [.obj []]
      else if type = some (.str "object") ∨ isTruthy (schema.get? "properties") then
        match isProperties : record (schema.get? "properties") with
        | some properties =>
            .obj (properties.members.attach.map fun entry =>
              (entry.1.1,
                if entry.1.2.isObject then exampleOf entry.1.2 else .obj []))
        | none => .obj []
      else if type = some (.str "integer") ∨ type = some (.str "number") then .num 0
      else if type = some (.str "boolean") then .bool false
      else .str ""
termination_by schema.depth
decreasing_by
  · exact depth_lt_of_get? (record_eq_some isItems)
  · exact (depth_lt_of_mem entry.2).trans (depth_lt_of_get? (record_eq_some isProperties))

def schemaExample (schema : Option Json) : Json :=
  match schema with
  | none => .obj []
  | some schema => exampleOf schema

structure KeyValue where
  id : String
  name : String
  value : String
  enabled : Bool
  description : String
  deriving DecidableEq

inductive BodyMode where
  | json
  | none
  deriving DecidableEq

/-- The fields of a request that the generator sets. -/
structure ApiRequest where
  id : String
  name : String
  method : String
  url : String
  pathParams : List KeyValue
  params : List KeyValue
  headers : List KeyValue
  bodyMode : BodyMode
  body : String

structure Collection where
  id : String
  name : String
  requests : List ApiRequest

structure ApiDesign where
  id : String
  contents : String

/-- `server.replace(/\/$/, '')` -/
def withoutSlash (server : String) : String :=
  if server.toList.getLast? = some '/' then String.ofList server.toList.dropLast else server

/-- The first server, or a placeholder for it. -/
def baseUrlOf (document : Json) : String :=
  match (document.list "servers").head? with
  | some server =>
      match member (record (some server)) "url" with
      | some (.str server) => withoutSlash server
      | _ => "\x7b\x7b baseUrl \x7d\x7d"
  | none => "\x7b\x7b baseUrl \x7d\x7d"

/-- The row of a parameter. Parameters of a path are always enabled. -/
def rowOf (requestId location : String) (parameter : OpenApiParameter) : KeyValue where
  id := requestId ++ "-" ++ location ++ "-" ++ parameter.name
  name := parameter.name
  value := parameter.value
  enabled := location = "path" || parameter.required
  description := parameter.description

def rowsIn (requestId location : String) (parameters : List OpenApiParameter) : List KeyValue :=
  (parameters.filter fun parameter => parameter.location = location).map (rowOf requestId location)

def requestOf (design : ApiDesign) (document : Json) (operation : OpenApiOperation) (index : ℕ) :
    ApiRequest :=
  let id := "openapi-" ++ design.id ++ "-" ++ toString index
  let paths := record (document.get? "paths")
  let operationDocument :=
    record (member (record (member paths operation.path)) operation.method.toLower)
  let content := record (member (record (member operationDocument "requestBody")) "content")
  let mediaType := member content "application/json"
  let jsonSchema := record (member (record mediaType) "schema")
  let hasJson := jsonSchema.isSome || isTruthy mediaType
  { id := id
    name := operation.summary
    method := operation.method
    url := baseUrlOf document ++ operation.path
    pathParams := rowsIn id "path" operation.parameters
    params := rowsIn id "query" operation.parameters
    headers := rowsIn id "header" operation.parameters ++
      if hasJson then [⟨id ++ "-content-type", "Content-Type", "application/json", true, ""⟩]
      else []
    bodyMode := if hasJson then .json else .none
    body := if hasJson then platform.stringifyIndented (schemaExample jsonSchema) else "" }

def generateCollectionFromOpenApi (design : ApiDesign) : Except String Collection :=
  let analysis := analyzeOpenApi platform design.contents
  match analysis.document with
  | none => .error "Resolve OpenAPI errors before generating a collection."
  | some document =>
      if analysis.issues.any fun issue => issue.severity = .error then
        .error "Resolve OpenAPI errors before generating a collection."
      else
        .ok ⟨"collection-" ++ design.id, analysis.title,
          analysis.operations.zipIdx.map fun (operation, index) =>
            requestOf platform design document operation index⟩

end Brunomnia.OpenApi
