import Brunomnia.Library.Lists
import Brunomnia.OpenApi.Documents

/-!
# Collections of valid documents

A valid document has no mistakes, and its collection has one request for every operation, with one
row for every effective parameter. There are exceptions: the analysis also calls texts mistakes
that are empty and keys that are extensions, two operations may be given the same identifier, and a
parameter of a path that an operation replaces keeps its row.
-/

namespace Brunomnia.OpenApi

/-! ## Valid documents -/

/-- An operation with its path and its method. -/
structure OperationEntry where
  path : String
  pathItem : Json
  method : String
  operation : Json

def operationsOfPath (entry : String × Json) : List OperationEntry :=
  (entry.2.members.filter fun member => member.1 ∈ operationMethods).map fun member =>
    ⟨entry.1, entry.2, member.1, member.2⟩

def isPathKey (key : String) : Bool :=
  key.toList.head? = some '/'

/-- The operations of a document, in their order. -/
def operationsIn (document : Json) : List OperationEntry :=
  ((pathEntries document).filter fun entry => isPathKey entry.1).flatMap operationsOfPath

def parameterKey (parameter : Json) : String × String :=
  (parameter.text "name", parameter.text "in")

/-- The parameters of a path or an operation are described and unique. -/
structure ParametersValid (item : Json) : Prop where
  described : ∀ parameter ∈ item.list "parameters", parameter.isObject = true ∧
    ∃ name location, parameter.get? "name" = some (.str name) ∧
      parameter.get? "in" = some (.str location) ∧
      (location = "path" → parameter.get? "required" = some (.bool true))
  unique : ((item.list "parameters").map parameterKey).Nodup

structure IsOperation (entry : OperationEntry) : Prop where
  isObject : entry.operation.isObject = true
  responses : ∃ responses, entry.operation.get? "responses" = some (.obj responses) ∧
    responses ≠ []
  operationId : ∀ operationId, entry.operation.get? "operationId" = some operationId →
    ∃ text, operationId = .str text
  parameters : ParametersValid entry.operation
  placeholders : ∀ name ∈ placeholderNames entry.path.toList,
    ∃ parameter ∈ entry.pathItem.list "parameters" ++ entry.operation.list "parameters",
      parameterKey parameter = (String.ofList name, "path")

/-- The document is valid. Keys of paths start with a slash, or with the prefix of extensions. -/
structure IsValid (document : Json) : Prop where
  isObject : document.isObject = true
  openapi : "3.".toList <+: (document.text "openapi").toList
  info : ∃ info title version, document.get? "info" = some (.obj info) ∧
    Json.get? (.obj info) "title" = some (.str title) ∧
    Json.get? (.obj info) "version" = some (.str version)
  paths : ∃ paths, document.get? "paths" = some (.obj paths) ∧
    ∃ entry ∈ paths, isPathKey entry.1 = true
  keys : ∀ entry ∈ pathEntries document, isPathKey entry.1 = true ∨
    "x-".toList <+: entry.1.toList
  pathItems : ∀ entry ∈ pathEntries document, isPathKey entry.1 = true →
    entry.2.isObject = true ∧ ParametersValid entry.2
  operations : ∀ entry ∈ operationsIn document, IsOperation entry
  uniqueIds : (((operationsIn document).map fun entry => entry.operation.text "operationId").filter
    (· ≠ "")).Nodup

/-! ## What is expected -/

/-- The parameters of a path that the operation does not replace, and those of the operation. -/
def effectiveParameters (entry : OperationEntry) : List Json :=
  (entry.pathItem.list "parameters").filter (fun parameter =>
      parameterKey parameter ∉ (entry.operation.list "parameters").map parameterKey) ++
    entry.operation.list "parameters"

def effectiveRows (platform : Platform) (requestId location : String) (entry : OperationEntry) :
    List KeyValue :=
  rowsIn requestId location ((effectiveParameters entry).filterMap (parameterOf platform))

def contentTypeRows (request : ApiRequest) : List KeyValue :=
  if request.bodyMode = .json then
    [⟨request.id ++ "-content-type", "Content-Type", "application/json", true, ""⟩]
  else []

def rowIds (request : ApiRequest) : List String :=
  (request.pathParams ++ request.params ++ request.headers).map KeyValue.id

structure IsRequestFor (platform : Platform) (document : Json) (entry : OperationEntry)
    (request : ApiRequest) : Prop where
  method : request.method = entry.method.toUpper
  url : request.url = baseUrlOf document ++ entry.path
  pathRows : request.pathParams.Perm (effectiveRows platform request.id "path" entry)
  queryRows : request.params.Perm (effectiveRows platform request.id "query" entry)
  headerRows : request.headers.Perm
    (effectiveRows platform request.id "header" entry ++ contentTypeRows request)
  rowIds : (rowIds request).Nodup

/-- The analysis finds no mistake, and the collection has one request for every operation. -/
structure Generates (platform : Platform) (design : ApiDesign) (document : Json) : Prop where
  noErrors : ∀ issue ∈ (analyzeOpenApi platform design.contents).issues, issue.severity ≠ .error
  requests : ∃ collection, generateCollectionFromOpenApi platform design = .ok collection ∧
    List.Forall₂ (IsRequestFor platform document) (operationsIn document) collection.requests ∧
    (collection.requests.map ApiRequest.id).Nodup

/-- No title or version is empty, no path is an extension, the identifiers of the operations are
different, and no parameter is replaced that has a row. -/
structure IsUnambiguous (document : Json) : Prop where
  title : isTruthy (member (record (document.get? "info")) "title") = true
  version : isTruthy (member (record (document.get? "info")) "version") = true
  keys : ∀ entry ∈ pathEntries document, isPathKey entry.1 = true
  operationIds : ((operationsIn document).map fun entry =>
    operationIdOf entry.path entry.method entry.operation).Nodup
  noneReplaced : ∀ entry ∈ operationsIn document, ∀ parameter ∈ entry.pathItem.list "parameters",
    parameter.text "in" ∈ ["path", "query", "header"] →
      parameterKey parameter ∉ (entry.operation.list "parameters").map parameterKey

/-! ## Issues -/

def ErrorFree (issues : List OpenApiIssue) : Prop :=
  ∀ issue ∈ issues, issue.severity ≠ .error

@[simp]
theorem errorFree_append {first second : List OpenApiIssue} :
    ErrorFree (first ++ second) ↔ ErrorFree first ∧ ErrorFree second :=
  List.forall_mem_append

@[simp]
theorem errorFree_nil : ErrorFree [] := by
  simp [ErrorFree]

@[simp]
theorem errorFree_if {condition : Prop} [Decidable condition] {path message : String} :
    ErrorFree (if condition then [] else [⟨.error, path, message⟩]) ↔ condition := by
  split <;> simp_all [ErrorFree]

variable {platform : Platform}

theorem record_of_isObject {value : Json} (isObject : value.isObject = true) :
    record (some value) = some value := by
  simp [record, isObject]

theorem documentIssues_errorFree {document : Json} (valid : IsValid document) :
    ErrorFree (documentIssues document) ↔
      isTruthy (member (record (document.get? "info")) "title") = true ∧
        isTruthy (member (record (document.get? "info")) "version") = true := by
  rcases valid.paths with ⟨paths, isPaths, entry, entryMem, _⟩
  have hasPaths : hasMembers (record (document.get? "paths")) = true := by
    rw [isPaths]
    exact decide_eq_true (List.ne_nil_of_mem entryMem)
  simp only [documentIssues, errorFree_append, errorFree_if, hasPaths, and_true]
  exact ⟨fun ⟨⟨_, title⟩, version⟩ => ⟨title, version⟩,
    fun ⟨title, version⟩ => ⟨⟨valid.openapi, title⟩, version⟩⟩

/-! ## The loops over the paths -/

/-- What the analysis does with an operation. -/
def analyzeEntry (platform : Platform) (findings : Findings) (entry : OperationEntry) :
    Findings where
  issues := findings.issues ++ operationIssues platform entry.path entry.method entry.pathItem
    entry.operation findings.operationIds
  operations := findings.operations ++
    [operationOf platform entry.path entry.method entry.pathItem entry.operation]
  operationIds := findings.operationIds ++
    [operationIdOf entry.path entry.method entry.operation]

theorem foldl_analyzeOperation (path : String) (pathItem : Json)
    {members : List (String × Json)}
    (areObjects : ∀ member ∈ members, member.1 ∈ operationMethods → member.2.isObject = true)
    (findings : Findings) :
    members.foldl (analyzeOperation platform path pathItem) findings =
      ((members.filter fun member => member.1 ∈ operationMethods).map fun member =>
        (⟨path, pathItem, member.1, member.2⟩ : OperationEntry)).foldl (analyzeEntry platform)
          findings := by
  induction members generalizing findings with
  | nil => rfl
  | cons member members ih =>
      have restObjects := fun later laterMem =>
        areObjects later (List.mem_cons_of_mem member laterMem)
      rw [List.foldl_cons, ih restObjects]
      by_cases isMethod : member.1 ∈ operationMethods
      · have isObject := areObjects member List.mem_cons_self isMethod
        rw [List.filter_cons_of_pos (by simpa using isMethod), List.map_cons, List.foldl_cons]
        congr 1
        unfold analyzeOperation
        rw [if_neg (not_not.mpr isMethod), record_of_isObject isObject]
        rfl
      · rw [List.filter_cons_of_neg (by simpa using isMethod)]
        congr 1
        exact if_pos isMethod

theorem foldl_analyzePath {entries : List (String × Json)}
    (areKeys : ∀ entry ∈ entries, isPathKey entry.1 = true)
    (areItems : ∀ entry ∈ entries, entry.2.isObject = true)
    (areOperations : ∀ entry ∈ entries.flatMap operationsOfPath, entry.operation.isObject = true)
    (findings : Findings) :
    entries.foldl (analyzePath platform) findings =
      (entries.flatMap operationsOfPath).foldl (analyzeEntry platform) findings := by
  induction entries generalizing findings with
  | nil => rfl
  | cons entry entries ih =>
      rw [List.flatMap_cons] at areOperations
      have isKey : entry.1.toList.head? = some '/' := by
        simpa [isPathKey] using areKeys entry List.mem_cons_self
      have objects : ∀ member ∈ entry.2.members, member.1 ∈ operationMethods →
          member.2.isObject = true := by
        intro member memberMem isMethod
        apply areOperations ⟨entry.1, entry.2, member.1, member.2⟩
        apply List.mem_append_left
        exact List.mem_map.mpr
          ⟨member, List.mem_filter.mpr ⟨memberMem, decide_eq_true isMethod⟩, rfl⟩
      rw [List.foldl_cons, List.flatMap_cons, List.foldl_append,
        ih (fun later laterMem => areKeys later (List.mem_cons_of_mem entry laterMem))
          (fun later laterMem => areItems later (List.mem_cons_of_mem entry laterMem))
          (fun later laterMem => areOperations later (List.mem_append_right _ laterMem))]
      congr 1
      unfold analyzePath
      rw [if_pos isKey, record_of_isObject (areItems entry List.mem_cons_self)]
      exact foldl_analyzeOperation entry.1 entry.2 objects findings

theorem errorFree_of_foldl_operations {path : String} {pathItem : Json}
    {members : List (String × Json)} {findings : Findings}
    (errorFree :
      ErrorFree (members.foldl (analyzeOperation platform path pathItem) findings).issues) :
    ErrorFree findings.issues := by
  induction members generalizing findings with
  | nil => exact errorFree
  | cons member members ih =>
      have before := ih errorFree
      unfold analyzeOperation at before
      split at before
      case isTrue => exact before
      case isFalse =>
          split at before
          case h_1 => exact before
          case h_2 => exact (errorFree_append.mp before).1

theorem errorFree_of_analyzePath {findings : Findings} {entry : String × Json}
    (errorFree : ErrorFree (analyzePath platform findings entry).issues) :
    ErrorFree findings.issues ∧ isPathKey entry.1 = true := by
  have checked : ErrorFree (if entry.1.toList.head? = some '/' then findings
      else { findings with
        issues := findings.issues ++
          [⟨.error, pathLabel ["paths", entry.1], "Path keys must begin with /."⟩] }).issues := by
    unfold analyzePath at errorFree
    cases isItem : record (some entry.2) with
    | none =>
        simp only [isItem] at errorFree
        exact errorFree
    | some pathItem =>
        simp only [isItem] at errorFree
        exact errorFree_of_foldl_operations errorFree
  split at checked
  case isTrue isKey => exact ⟨checked, decide_eq_true isKey⟩
  case isFalse =>
      have isError := (errorFree_append.mp checked).2
      exact absurd rfl (isError _ List.mem_cons_self)

theorem errorFree_of_foldl_paths {entries : List (String × Json)} {findings : Findings}
    (errorFree : ErrorFree (entries.foldl (analyzePath platform) findings).issues) :
    ErrorFree findings.issues ∧ ∀ entry ∈ entries, isPathKey entry.1 = true := by
  induction entries generalizing findings with
  | nil => exact ⟨errorFree, by simp⟩
  | cons entry entries ih =>
      rcases ih errorFree with ⟨rest, restKeys⟩
      rcases errorFree_of_analyzePath rest with ⟨before, isKey⟩
      exact ⟨before, List.forall_mem_cons.mpr ⟨isKey, restKeys⟩⟩

/-! ## Operations -/

theorem list_of_text {parameter : Json} {key text : String}
    (isText : parameter.get? key = some (.str text)) : parameter.text key = text := by
  rw [Json.text, isText]

theorem pathParameters_valid {document : Json} (valid : IsValid document)
    {entry : OperationEntry} (entryMem : entry ∈ operationsIn document) :
    ParametersValid entry.pathItem := by
  rcases List.mem_flatMap.mp entryMem with ⟨path, pathMem, inPath⟩
  rcases List.mem_map.mp inPath with ⟨member, _, rfl⟩
  rcases List.mem_filter.mp pathMem with ⟨isEntry, isKey⟩
  exact (valid.pathItems path isEntry isKey).2

theorem parameterOf_described {parameter : Json} (isObject : parameter.isObject = true)
    {name location : String} (isName : parameter.get? "name" = some (.str name))
    (isLocation : parameter.get? "in" = some (.str location)) :
    ∃ found, parameterOf platform parameter = some found ∧ found.name = name ∧
      found.location = location ∧ found.required = isTruthy (parameter.get? "required") := by
  unfold parameterOf
  rw [record_of_isObject isObject]
  simp only [isName, isLocation]
  exact ⟨_, rfl, rfl, rfl, rfl⟩

theorem placeholders_declared {document : Json} (valid : IsValid document)
    {entry : OperationEntry} (entryMem : entry ∈ operationsIn document) :
    ∀ name ∈ placeholderNames entry.path.toList,
      (parametersOf platform entry.pathItem entry.operation).any (fun parameter =>
        parameter.location = "path" && parameter.name = String.ofList name &&
          parameter.required) = true := by
  intro name nameMem
  have isOperation := valid.operations entry entryMem
  rcases isOperation.placeholders name nameMem with ⟨parameter, parameterMem, isKey⟩
  rw [parameterKey, Prod.mk.injEq] at isKey
  have described : parameter.isObject = true ∧ ∃ name location,
      parameter.get? "name" = some (.str name) ∧ parameter.get? "in" = some (.str location) ∧
      (location = "path" → parameter.get? "required" = some (.bool true)) := by
    rcases List.mem_append.mp parameterMem with inPath | inOperation
    · exact (pathParameters_valid valid entryMem).described parameter inPath
    · exact isOperation.parameters.described parameter inOperation
  rcases described with ⟨isObject, own, location, isName, isLocation, required⟩
  rcases @parameterOf_described platform _ isObject _ _ isName isLocation with
    ⟨found, isFound, foundName, foundLocation, foundRequired⟩
  have isPath : location = "path" := (list_of_text isLocation).symm.trans isKey.2
  have sameName : own = String.ofList name := (list_of_text isName).symm.trans isKey.1
  rw [List.any_eq_true]
  refine ⟨found, List.mem_filterMap.mpr ⟨parameter, parameterMem, isFound⟩, ?_⟩
  rw [foundName, foundLocation, foundRequired, required isPath, isPath, sameName]
  simp [isTruthy, Json.truthy]

theorem operationIssues_errorFree {document : Json} (valid : IsValid document)
    {entry : OperationEntry} (entryMem : entry ∈ operationsIn document)
    (operationIds : List String) :
    ErrorFree (operationIssues platform entry.path entry.method entry.pathItem entry.operation
      operationIds) ↔
      operationIdOf entry.path entry.method entry.operation ∉ operationIds := by
  rcases (valid.operations entry entryMem).responses with ⟨responses, isResponses, notEmpty⟩
  have hasResponses : hasMembers (record (entry.operation.get? "responses")) = true := by
    rw [isResponses]
    exact decide_eq_true notEmpty
  have warned : ∀ path, ErrorFree (if isTruthy (entry.operation.get? "operationId") = true then []
      else [⟨.warning, path, "Add an operationId for stable generated request names."⟩]) := by
    intro path
    split <;> simp [ErrorFree]
  have declared : ∀ path, ErrorFree ((placeholderNames entry.path.toList).flatMap fun name =>
      if (parametersOf platform entry.pathItem entry.operation).any fun parameter =>
          parameter.location = "path" && parameter.name = String.ofList name &&
            parameter.required then []
      else [⟨.error, path,
        "Path parameter \x7b" ++ String.ofList name ++
          "\x7d must be declared and required."⟩]) := by
    intro path issue issueMem
    rcases List.mem_flatMap.mp issueMem with ⟨name, nameMem, isIssue⟩
    rw [if_pos (placeholders_declared valid entryMem name nameMem)] at isIssue
    exact absurd isIssue (by simp)
  have duplicate : ∀ path message, ErrorFree
      (if operationIdOf entry.path entry.method entry.operation ∈ operationIds then
        [⟨.error, path, message⟩] else []) ↔
      operationIdOf entry.path entry.method entry.operation ∉ operationIds := by
    intro path message
    split <;> simp_all [ErrorFree]
  simp only [operationIssues, errorFree_append, errorFree_if, hasResponses, and_true, duplicate]
  exact ⟨fun ⟨⟨_, fresh⟩, _⟩ => fresh, fun fresh => ⟨⟨warned _, fresh⟩, declared _⟩⟩

theorem foldl_analyzeEntry_operations (entries : List OperationEntry) (findings : Findings) :
    (entries.foldl (analyzeEntry platform) findings).operations =
      findings.operations ++ entries.map fun entry =>
        operationOf platform entry.path entry.method entry.pathItem entry.operation := by
  induction entries generalizing findings with
  | nil => simp
  | cons entry entries ih =>
      rw [List.foldl_cons, ih, List.map_cons]
      simp [analyzeEntry]

theorem foldl_analyzeEntry_errorFree {document : Json} (valid : IsValid document)
    {entries : List OperationEntry} (areEntries : ∀ entry ∈ entries, entry ∈ operationsIn document)
    (findings : Findings) :
    ErrorFree (entries.foldl (analyzeEntry platform) findings).issues ↔
      ErrorFree findings.issues ∧
        (entries.map fun entry =>
          operationIdOf entry.path entry.method entry.operation).Nodup ∧
        ∀ entry ∈ entries,
          operationIdOf entry.path entry.method entry.operation ∉ findings.operationIds := by
  induction entries generalizing findings with
  | nil => simp
  | cons entry entries ih =>
      rw [List.foldl_cons,
        ih fun later laterMem => areEntries later (List.mem_cons_of_mem _ laterMem)]
      simp only [analyzeEntry, errorFree_append, List.map_cons, List.nodup_cons, List.mem_map,
        List.forall_mem_cons, List.mem_append, List.mem_singleton, not_or,
        operationIssues_errorFree valid (areEntries entry List.mem_cons_self)]
      constructor
      · rintro ⟨⟨before, fresh⟩, different, others⟩
        refine ⟨before, ⟨?_, different⟩, fresh, fun later laterMem => (others later laterMem).1⟩
        rintro ⟨later, laterMem, same⟩
        exact (others later laterMem).2 same
      · rintro ⟨before, ⟨notLater, different⟩, fresh, others⟩
        refine ⟨⟨before, fresh⟩, different, fun later laterMem => ⟨others later laterMem, ?_⟩⟩
        exact fun same => notLater ⟨later, laterMem, same⟩

/-! ## The analysis -/

def findingsOf (platform : Platform) (document : Json) : Findings :=
  (pathEntries document).foldl (analyzePath platform) ⟨documentIssues document, [], []⟩

theorem analyzeOpenApi_of_parse {contents : String} {document : Json}
    (parses : platform.parse contents = .ok document) (valid : IsValid document) :
    (analyzeOpenApi platform contents).document = some document ∧
      (analyzeOpenApi platform contents).issues = (findingsOf platform document).issues ∧
      (analyzeOpenApi platform contents).operations =
        (findingsOf platform document).operations := by
  unfold analyzeOpenApi
  rw [parses]
  simp only [record_of_isObject valid.isObject]
  exact ⟨trivial, rfl, rfl⟩

theorem findingsOf_eq {document : Json} (valid : IsValid document)
    (areKeys : ∀ entry ∈ pathEntries document, isPathKey entry.1 = true) :
    findingsOf platform document =
      (operationsIn document).foldl (analyzeEntry platform) ⟨documentIssues document, [], []⟩ := by
  have allEntries : (pathEntries document).filter (fun entry => isPathKey entry.1) =
      pathEntries document := List.filter_eq_self.mpr areKeys
  have operations : operationsIn document = (pathEntries document).flatMap operationsOfPath := by
    rw [operationsIn, allEntries]
  rw [operations]
  apply foldl_analyzePath areKeys
  · exact fun entry entryMem => (valid.pathItems entry entryMem (areKeys entry entryMem)).1
  · intro entry entryMem
    rw [← operations] at entryMem
    exact (valid.operations entry entryMem).isObject

theorem findingsOf_errorFree {document : Json} (valid : IsValid document) :
    ErrorFree (findingsOf platform document).issues ↔
      isTruthy (member (record (document.get? "info")) "title") = true ∧
        isTruthy (member (record (document.get? "info")) "version") = true ∧
        (∀ entry ∈ pathEntries document, isPathKey entry.1 = true) ∧
        ((operationsIn document).map fun entry =>
          operationIdOf entry.path entry.method entry.operation).Nodup := by
  constructor
  · intro errorFree
    have areKeys := (errorFree_of_foldl_paths errorFree).2
    rw [findingsOf_eq valid areKeys,
      foldl_analyzeEntry_errorFree valid fun entry entryMem => entryMem] at errorFree
    have texts := (documentIssues_errorFree valid).mp errorFree.1
    exact ⟨texts.1, texts.2, areKeys, errorFree.2.1⟩
  · rintro ⟨title, version, areKeys, different⟩
    rw [findingsOf_eq valid areKeys,
      foldl_analyzeEntry_errorFree valid fun entry entryMem => entryMem]
    exact ⟨(documentIssues_errorFree valid).mpr ⟨title, version⟩, different, by simp⟩

end Brunomnia.OpenApi
