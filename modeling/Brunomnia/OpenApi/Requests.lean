import Brunomnia.OpenApi.Generation

/-!
# Requests of generated collections

Every operation has its own request. The rows of a request are those of the effective parameters
exactly if the operation replaces no parameter of its path that has a row.
-/

namespace Brunomnia.OpenApi

variable {platform : Platform}

/-! ## Rows -/

/-- A list from which some items are taken out shows as many as before exactly if only items were
taken out that it does not show. -/
theorem length_filterMap_filter {Item Shown : Type*} (shows : Item → Option Shown)
    (keeps : Item → Bool) (items : List Item) :
    ((items.filter keeps).filterMap shows).length ≤ (items.filterMap shows).length ∧
      (((items.filter keeps).filterMap shows).length = (items.filterMap shows).length ↔
        ∀ item ∈ items, (shows item).isSome = true → keeps item = true) := by
  induction items with
  | nil => simp
  | cons item items ih =>
      have fewer := ih.1
      cases isKept : keeps item with
      | false =>
          rw [List.filter_cons_of_neg (by simp [isKept])]
          cases isShown : shows item with
          | none =>
              rw [List.filterMap_cons_none isShown, List.forall_mem_cons, isShown]
              simpa using ih
          | some shown =>
              rw [List.filterMap_cons_some isShown, List.length_cons, List.forall_mem_cons, isShown,
                isKept]
              refine ⟨by omega, ?_⟩
              simp only [Option.isSome_some, Bool.false_eq_true, imp_false, not_true_eq_false,
                false_and, iff_false]
              omega
      | true =>
          rw [List.filter_cons_of_pos isKept]
          cases isShown : shows item with
          | none =>
              rw [List.filterMap_cons_none isShown, List.filterMap_cons_none isShown,
                List.forall_mem_cons, isShown]
              simpa using ih
          | some shown =>
              rw [List.filterMap_cons_some isShown, List.filterMap_cons_some isShown,
                List.forall_mem_cons, isKept]
              simpa using ih

/-- The row of a parameter, if it is in the location. -/
def locatedRow (platform : Platform) (requestId location : String) (parameter : Json) :
    Option KeyValue :=
  ((parameterOf platform parameter).filter fun found => found.location = location).map
    (rowOf requestId location)

theorem rowsIn_filterMap (requestId location : String) (parameters : List Json) :
    rowsIn requestId location (parameters.filterMap (parameterOf platform)) =
      parameters.filterMap (locatedRow platform requestId location) := by
  induction parameters with
  | nil => rfl
  | cons parameter parameters ih =>
      unfold rowsIn at ih ⊢
      cases isFound : parameterOf platform parameter with
      | none =>
          have noRow : locatedRow platform requestId location parameter = none := by
            rw [locatedRow, isFound]
            rfl
          rw [List.filterMap_cons_none isFound, List.filterMap_cons_none noRow, ih]
      | some found =>
          rw [List.filterMap_cons_some isFound]
          by_cases isLocated : found.location = location
          · have isRow : locatedRow platform requestId location parameter =
                some (rowOf requestId location found) := by
              rw [locatedRow, isFound, Option.filter_some, if_pos (decide_eq_true isLocated)]
              rfl
            rw [List.filter_cons_of_pos (by simpa using isLocated), List.map_cons,
              List.filterMap_cons_some isRow, ih]
          · have noRow : locatedRow platform requestId location parameter = none := by
              rw [locatedRow, isFound, Option.filter_some, if_neg (by simpa using isLocated)]
              rfl
            rw [List.filter_cons_of_neg (by simpa using isLocated),
              List.filterMap_cons_none noRow, ih]

theorem locatedRow_described {item parameter : Json} (valid : ParametersValid item)
    (parameterMem : parameter ∈ item.list "parameters") (requestId location : String) :
    (parameter.text "in" ≠ location → locatedRow platform requestId location parameter = none) ∧
      (parameter.text "in" = location → ∃ row,
        locatedRow platform requestId location parameter = some row ∧
          row.id = requestId ++ "-" ++ location ++ "-" ++ parameter.text "name") := by
  rcases valid.described parameter parameterMem with
    ⟨isObject, name, own, isName, isLocation, _⟩
  rcases @parameterOf_described platform _ isObject _ _ isName isLocation with
    ⟨found, isFound, foundName, foundLocation, _⟩
  rw [list_of_text isLocation, list_of_text isName, locatedRow, isFound, Option.filter_some,
    foundLocation]
  refine ⟨fun other => by rw [if_neg (by simpa using other), Option.map_none], fun same => ?_⟩
  rw [if_pos (decide_eq_true same)]
  exact ⟨_, rfl, by rw [rowOf, foundName]⟩

section Entry

variable {document : Json} (valid : IsValid document) {entry : OperationEntry}
  (entryMem : entry ∈ operationsIn document)

/-- No parameter in the location is replaced. -/
def NoneReplaced (entry : OperationEntry) (location : String) : Prop :=
  ∀ parameter ∈ entry.pathItem.list "parameters", parameter.text "in" = location →
    parameterKey parameter ∉ (entry.operation.list "parameters").map parameterKey

def allRows (platform : Platform) (requestId location : String) (entry : OperationEntry) :
    List KeyValue :=
  rowsIn requestId location (parametersOf platform entry.pathItem entry.operation)

include valid entryMem

theorem locatedRow_isSome_iff {parameter : Json}
    (parameterMem : parameter ∈ entry.pathItem.list "parameters") (requestId location : String) :
    (locatedRow platform requestId location parameter).isSome = true ↔
      parameter.text "in" = location := by
  have described := @locatedRow_described platform _ _ (pathParameters_valid valid entryMem)
    parameterMem requestId location
  by_cases isLocation : parameter.text "in" = location
  · rcases described.2 isLocation with ⟨row, isRow, _⟩
    simp [isRow, isLocation]
  · simp [described.1 isLocation, isLocation]

theorem allRows_perm_iff (requestId location : String) :
    (allRows platform requestId location entry).Perm
        (effectiveRows platform requestId location entry) ↔
      NoneReplaced entry location := by
  have isSome := fun parameter parameterMem =>
    @locatedRow_isSome_iff platform _ valid _ entryMem parameter parameterMem requestId location
  have counted := length_filterMap_filter (locatedRow platform requestId location)
    (fun parameter =>
      decide (parameterKey parameter ∉ (entry.operation.list "parameters").map parameterKey))
    (entry.pathItem.list "parameters")
  unfold allRows effectiveRows parametersOf effectiveParameters
  rw [rowsIn_filterMap, rowsIn_filterMap, List.filterMap_append, List.filterMap_append,
    List.perm_append_right_iff]
  have noneReplaced_iff : NoneReplaced entry location ↔
      ∀ parameter ∈ entry.pathItem.list "parameters",
        (locatedRow platform requestId location parameter).isSome = true →
          decide (parameterKey parameter ∉
            (entry.operation.list "parameters").map parameterKey) = true := by
    unfold NoneReplaced
    refine forall₂_congr fun parameter parameterMem => ?_
    rw [isSome parameter parameterMem, decide_eq_true_eq]
  rw [noneReplaced_iff, ← counted.2]
  constructor
  · exact fun perm => perm.length_eq.symm
  · intro sameLength
    have isSublist := (@List.filter_sublist _ (fun parameter =>
      decide (parameterKey parameter ∉ (entry.operation.list "parameters").map parameterKey))
      (entry.pathItem.list "parameters")).filterMap (locatedRow platform requestId location)
    rw [isSublist.eq_of_length sameLength]

theorem effectiveParameters_unique : ((effectiveParameters entry).map parameterKey).Nodup := by
  unfold effectiveParameters
  rw [List.map_append]
  apply List.nodup_append.mpr
  refine ⟨?_, (valid.operations entry entryMem).parameters.unique, ?_⟩
  · exact (pathParameters_valid valid entryMem).unique.sublist (List.filter_sublist.map _)
  · intro kept isKept own isOwn same
    rcases List.mem_map.mp isKept with ⟨parameter, parameterMem, rfl⟩
    have notReplaced := of_decide_eq_true (List.mem_filter.mp parameterMem).2
    exact notReplaced (same ▸ isOwn)

theorem effectiveRow_id {parameter : Json} (parameterMem : parameter ∈ effectiveParameters entry)
    {requestId location : String} {row : KeyValue}
    (isRow : locatedRow platform requestId location parameter = some row) :
    parameter.text "in" = location ∧
      row.id = requestId ++ "-" ++ location ++ "-" ++ parameter.text "name" := by
  have described : (parameter.text "in" ≠ location →
        locatedRow platform requestId location parameter = none) ∧
      (parameter.text "in" = location → ∃ row,
        locatedRow platform requestId location parameter = some row ∧
          row.id = requestId ++ "-" ++ location ++ "-" ++ parameter.text "name") := by
    rcases List.mem_append.mp parameterMem with inPath | inOperation
    · exact locatedRow_described (pathParameters_valid valid entryMem)
        (List.mem_of_mem_filter inPath) requestId location
    · exact locatedRow_described (valid.operations entry entryMem).parameters inOperation
        requestId location
  have isLocation : parameter.text "in" = location := by
    by_contra other
    rw [described.1 other] at isRow
    exact absurd isRow (by simp)
  rcases described.2 isLocation with ⟨found, isFound, isId⟩
  rw [isFound, Option.some.injEq] at isRow
  exact ⟨isLocation, isRow ▸ isId⟩

theorem effectiveRows_unique (requestId location : String) :
    ((effectiveRows platform requestId location entry).map KeyValue.id).Nodup := by
  have unique := effectiveParameters_unique valid entryMem
  unfold effectiveRows
  rw [rowsIn_filterMap]
  unfold List.Nodup at unique ⊢
  rw [List.pairwise_map] at unique
  rw [List.pairwise_map, List.pairwise_filterMap]
  refine unique.imp_of_mem fun {first second} firstMem secondMem different => ?_
  intro firstRow isFirst secondRow isSecond sameId
  rcases effectiveRow_id valid entryMem firstMem isFirst with ⟨firstLocation, firstId⟩
  rcases effectiveRow_id valid entryMem secondMem isSecond with ⟨secondLocation, secondId⟩
  rw [firstId, secondId] at sameId
  have sameName : first.text "name" = second.text "name" := by
    have sameLetters := congrArg String.toList sameId
    simp only [String.toList_append, List.append_cancel_left_eq] at sameLetters
    exact String.toList_inj.mp sameLetters
  exact different (Prod.ext sameName (firstLocation.trans secondLocation.symm))

theorem effectiveRows_letter {requestId location : String} {row : KeyValue}
    (rowMem : row ∈ effectiveRows platform requestId location entry) :
    (row.id.toList.drop (requestId.toList.length + 1)).head? =
      (location.toList ++ ['-']).head? := by
  unfold effectiveRows at rowMem
  rw [rowsIn_filterMap] at rowMem
  rcases List.mem_filterMap.mp rowMem with ⟨parameter, parameterMem, isRow⟩
  have isId := (effectiveRow_id valid entryMem parameterMem isRow).2
  have isDash : "-".toList = ['-'] := rfl
  rw [isId]
  simp only [String.toList_append, isDash, List.append_assoc, List.drop_append,
    List.length_singleton]
  simp [List.head?_append]

end Entry

/-! ## Requests -/

/-- The request that is made for an operation. -/
def requestFor (platform : Platform) (design : ApiDesign) (document : Json) (entry : OperationEntry)
    (index : ℕ) : ApiRequest :=
  requestOf platform design document
    (operationOf platform entry.path entry.method entry.pathItem entry.operation) index

theorem headers_requestFor (design : ApiDesign) (document : Json) (entry : OperationEntry)
    (index : ℕ) :
    (requestFor platform design document entry index).headers =
      allRows platform (requestFor platform design document entry index).id "header" entry ++
        contentTypeRows (requestFor platform design document entry index) := by
  unfold requestFor requestOf contentTypeRows
  dsimp only
  congr 1
  split
  case isTrue => rfl
  case isFalse => rfl

theorem requestFor_rowIds {document : Json} (valid : IsValid document) {entry : OperationEntry}
    (entryMem : entry ∈ operationsIn document) {request : ApiRequest}
    (pathRows : request.pathParams.Perm (effectiveRows platform request.id "path" entry))
    (queryRows : request.params.Perm (effectiveRows platform request.id "query" entry))
    (headerRows : request.headers.Perm
      (effectiveRows platform request.id "header" entry ++ contentTypeRows request)) :
    (rowIds request).Nodup := by
  have sameRows := (pathRows.append queryRows).append headerRows
  apply (sameRows.map KeyValue.id).nodup_iff.mpr
  have letters := fun location row rowMem =>
    @effectiveRows_letter platform _ valid _ entryMem request.id location row rowMem
  have contentType : ∀ row ∈ contentTypeRows request,
      (row.id.toList.drop (request.id.toList.length + 1)).head? = some 'c' := by
    intro row rowMem
    unfold contentTypeRows at rowMem
    split at rowMem
    case isTrue =>
        rw [List.mem_singleton.mp rowMem]
        simp [List.drop_append]
    case isFalse => exact absurd rowMem (by simp)
  have unique := fun location =>
    @effectiveRows_unique platform _ valid _ entryMem request.id location
  have apart : ∀ {first second : List KeyValue} {left right : Option Char}, left ≠ right →
      (∀ row ∈ first, (row.id.toList.drop (request.id.toList.length + 1)).head? = left) →
      (∀ row ∈ second, (row.id.toList.drop (request.id.toList.length + 1)).head? = right) →
      ∀ firstId ∈ first.map KeyValue.id, ∀ secondId ∈ second.map KeyValue.id,
        firstId ≠ secondId := by
    intro first second left right different firstLetter secondLetter firstId firstMem secondId
      secondMem same
    rcases List.mem_map.mp firstMem with ⟨firstRow, firstRowMem, rfl⟩
    rcases List.mem_map.mp secondMem with ⟨secondRow, secondRowMem, rfl⟩
    apply different
    rw [← firstLetter firstRow firstRowMem, ← secondLetter secondRow secondRowMem, same]
  simp only [List.map_append, List.nodup_append, List.mem_append]
  refine ⟨⟨unique "path", unique "query", ?_⟩, ⟨unique "header", ?_, ?_⟩, ?_⟩
  · exact apart (by decide) (letters "path") (letters "query")
  · unfold contentTypeRows
    split <;> simp
  · exact apart (by decide) (letters "header") contentType
  · rintro firstId (inPath | inQuery) secondId (inHeader | isType)
    · exact apart (by decide) (letters "path") (letters "header") _ inPath _ inHeader
    · exact apart (by decide) (letters "path") contentType _ inPath _ isType
    · exact apart (by decide) (letters "query") (letters "header") _ inQuery _ inHeader
    · exact apart (by decide) (letters "query") contentType _ inQuery _ isType

theorem requestFor_iff {document : Json} (valid : IsValid document) {entry : OperationEntry}
    (entryMem : entry ∈ operationsIn document) (design : ApiDesign) (index : ℕ) :
    IsRequestFor platform document entry (requestFor platform design document entry index) ↔
      NoneReplaced entry "path" ∧ NoneReplaced entry "query" ∧ NoneReplaced entry "header" := by
  have perm_iff := fun location => @allRows_perm_iff platform _ valid _ entryMem
    (requestFor platform design document entry index).id location
  constructor
  · intro isRequest
    refine ⟨(perm_iff "path").mp isRequest.pathRows, (perm_iff "query").mp isRequest.queryRows, ?_⟩
    have headerRows := isRequest.headerRows
    rw [headers_requestFor, List.perm_append_right_iff] at headerRows
    exact (perm_iff "header").mp headerRows
  · rintro ⟨path, query, header⟩
    have pathRows := (perm_iff "path").mpr path
    have queryRows := (perm_iff "query").mpr query
    have headerRows := ((perm_iff "header").mpr header).append_right
      (contentTypeRows (requestFor platform design document entry index))
    rw [← headers_requestFor] at headerRows
    exact ⟨rfl, rfl, pathRows, queryRows, headerRows,
      requestFor_rowIds valid entryMem pathRows queryRows headerRows⟩

theorem requests_iff {document : Json} (valid : IsValid document) (design : ApiDesign)
    {entries : List OperationEntry} (areEntries : ∀ entry ∈ entries, entry ∈ operationsIn document)
    (start : ℕ) :
    List.Forall₂ (IsRequestFor platform document) entries
        ((entries.zipIdx start).map fun (entry, index) =>
          requestFor platform design document entry index) ↔
      ∀ entry ∈ entries,
        NoneReplaced entry "path" ∧ NoneReplaced entry "query" ∧ NoneReplaced entry "header" := by
  induction entries generalizing start with
  | nil => simp
  | cons entry entries ih =>
      rw [List.zipIdx_cons, List.map_cons, List.forall₂_cons, List.forall_mem_cons,
        ih (fun later laterMem => areEntries later (List.mem_cons_of_mem entry laterMem)),
        requestFor_iff valid (areEntries entry List.mem_cons_self)]

theorem requestIds_nodup (design : ApiDesign) (document : Json)
    (operations : List OpenApiOperation) :
    ((operations.zipIdx.map fun (operation, index) =>
      requestOf platform design document operation index).map ApiRequest.id).Nodup := by
  have ids : (operations.zipIdx.map fun (operation, index) =>
      requestOf platform design document operation index).map ApiRequest.id =
        (operations.zipIdx.map Prod.snd).map fun index =>
          "openapi-" ++ design.id ++ "-" ++ toString index := by
    rw [List.map_map, List.map_map]
    rfl
  rw [ids, List.zipIdx_map_snd]
  apply List.Nodup.map _ List.nodup_range'
  intro first second same
  have sameLetters := congrArg String.toList same
  simp only [String.toList_append, List.append_cancel_left_eq] at sameLetters
  exact Nat.repr_inj.mp (String.toList_inj.mp sameLetters)

/-! ## Collections -/

theorem generates_iff {document : Json} (valid : IsValid document) (design : ApiDesign)
    (parses : platform.parse design.contents = .ok document) :
    Generates platform design document ↔
      ErrorFree (findingsOf platform document).issues ∧ ∀ entry ∈ operationsIn document,
        NoneReplaced entry "path" ∧ NoneReplaced entry "query" ∧ NoneReplaced entry "header" := by
  rcases analyzeOpenApi_of_parse parses valid with ⟨isDocument, areIssues, areOperations⟩
  rw [← requests_iff valid design (fun _ entryMem => entryMem) 0]
  have generated : ErrorFree (findingsOf platform document).issues →
      ∃ name, generateCollectionFromOpenApi platform design =
        .ok ⟨"collection-" ++ design.id, name,
          (operationsIn document).zipIdx.map fun (entry, index) =>
            requestFor platform design document entry index⟩ := by
    intro errorFree
    have areKeys := ((findingsOf_errorFree valid).mp errorFree).2.2.1
    have noError : ¬ (analyzeOpenApi platform design.contents).issues.any
        (fun issue => issue.severity = .error) = true := by
      rw [areIssues, List.any_eq_true]
      rintro ⟨issue, issueMem, isError⟩
      exact errorFree issue issueMem (of_decide_eq_true isError)
    refine ⟨(analyzeOpenApi platform design.contents).title, ?_⟩
    unfold generateCollectionFromOpenApi
    simp only [isDocument, if_neg noError, areOperations, findingsOf_eq valid areKeys,
      foldl_analyzeEntry_operations, List.nil_append, List.zipIdx_map, List.map_map]
    rfl
  constructor
  · intro generates
    have errorFree : ErrorFree (findingsOf platform document).issues := by
      rw [← areIssues]
      exact generates.noErrors
    rcases generated errorFree with ⟨name, isGenerated⟩
    rcases generates.requests with ⟨collection, isCollection, areRequests, _⟩
    rw [isGenerated, Except.ok.injEq] at isCollection
    exact ⟨errorFree, isCollection ▸ areRequests⟩
  · rintro ⟨errorFree, areRequests⟩
    rcases generated errorFree with ⟨name, isGenerated⟩
    refine ⟨areIssues ▸ errorFree, _, isGenerated, areRequests, ?_⟩
    have nodup := @requestIds_nodup platform design document ((operationsIn document).map
      fun entry => operationOf platform entry.path entry.method entry.pathItem entry.operation)
    simp only [List.zipIdx_map, List.map_map] at nodup ⊢
    exact nodup

/-- The collection of a valid document is complete exactly if nothing in it is ambiguous. -/
theorem generates_iff_isUnambiguous (platform : Platform) (design : ApiDesign) (document : Json)
    (parses : platform.parse design.contents = .ok document) (valid : IsValid document) :
    Generates platform design document ↔ IsUnambiguous document := by
  rw [generates_iff valid design parses, findingsOf_errorFree valid]
  constructor
  · rintro ⟨⟨title, version, keys, operationIds⟩, noneReplaced⟩
    refine ⟨title, version, keys, operationIds, ?_⟩
    intro entry entryMem parameter parameterMem isLocated
    rcases noneReplaced entry entryMem with ⟨path, query, header⟩
    simp only [List.mem_cons, List.not_mem_nil, or_false] at isLocated
    rcases isLocated with inPath | inQuery | inHeader
    · exact path parameter parameterMem inPath
    · exact query parameter parameterMem inQuery
    · exact header parameter parameterMem inHeader
  · intro unambiguous
    refine ⟨⟨unambiguous.title, unambiguous.version, unambiguous.keys, unambiguous.operationIds⟩,
      fun entry entryMem => ?_⟩
    have kept := unambiguous.noneReplaced entry entryMem
    refine ⟨?_, ?_, ?_⟩
    · exact fun parameter parameterMem inPath => kept parameter parameterMem (by simp [inPath])
    · exact fun parameter parameterMem inQuery => kept parameter parameterMem (by simp [inQuery])
    · exact fun parameter parameterMem inHeader => kept parameter parameterMem (by simp [inHeader])

/-! ## Documents -/

/-- A parser that knows one text. -/
def platformOf (contents : String) (document : Json) : Platform where
  parse text := if text = contents then .ok document else .error "Invalid YAML or JSON."
  stringify _ := ""
  stringifyIndented _ := ""

theorem parse_platformOf (contents : String) (document : Json) :
    (platformOf contents document).parse contents = .ok document :=
  if_pos rfl

def documentOf (paths : List (String × Json)) : Json :=
  .obj [("openapi", .str "3.0.0"),
    ("info", .obj [("title", .str "Pets"), ("version", .str "1.0.0")]), ("paths", .obj paths)]

def responsesOf (description : String) : Json :=
  .obj [("default", .obj [("description", .str description)])]

def parameterNamed (name location : String) : Json :=
  .obj [("name", .str name), ("in", .str location), ("required", .bool true)]

def petDocument : Json :=
  documentOf [("/pets", .obj [("parameters", .arr [parameterNamed "owner" "query"]),
    ("get", .obj [("parameters", .arr [parameterNamed "owner" "header"]),
      ("responses", responsesOf "Pets")]),
    ("post", .obj [("responses", responsesOf "Pet")])]),
    ("/owners", .obj [("get", .obj [("responses", responsesOf "Owners")])])]

def petContents : String :=
  "openapi: 3.0.0\ninfo:\n  title: Pets\n  version: 1.0.0\npaths:\n  /pets:\n    parameters:\n" ++
    "      - name: owner\n        in: query\n        required: true\n    get:\n" ++
    "      parameters:\n        - name: owner\n          in: header\n          required: true\n" ++
    "      responses:\n        default:\n          description: Pets\n" ++
    "    post:\n      responses:\n        default:\n          description: Pet\n" ++
    "  /owners:\n    get:\n      responses:\n        default:\n          description: Owners\n"

theorem parametersValid_of_named {item : Json} {parameters : List (String × String)}
    (areNamed : item.list "parameters" = parameters.map fun (name, location) =>
      parameterNamed name location)
    (unique : parameters.Nodup) : ParametersValid item := by
  have keys : (item.list "parameters").map parameterKey = parameters := by
    rw [areNamed, List.map_map]
    exact List.map_id parameters
  refine ⟨fun parameter parameterMem => ?_, keys.symm ▸ unique⟩
  rw [areNamed] at parameterMem
  rcases List.mem_map.mp parameterMem with ⟨⟨name, location⟩, _, rfl⟩
  exact ⟨rfl, name, location, rfl, rfl, fun _ => rfl⟩

theorem isOperation_of_responses {path method description : String} {pathItem : Json}
    {members : List (String × Json)} (noPlaceholder : placeholderNames path.toList = [])
    (responses : Json.get? (.obj members) "responses" = some (responsesOf description))
    (noId : Json.get? (.obj members) "operationId" = none)
    (parameters : ParametersValid (.obj members)) :
    IsOperation ⟨path, pathItem, method, .obj members⟩ where
  isObject := rfl
  responses := ⟨_, responses, by simp⟩
  operationId operationId isId := by
    rw [noId] at isId
    exact absurd isId (by simp)
  parameters := parameters
  placeholders name nameMem := by
    change name ∈ placeholderNames path.toList at nameMem
    rw [noPlaceholder] at nameMem
    exact absurd nameMem (by simp)

theorem petDocument_valid : IsValid petDocument where
  isObject := rfl
  openapi := by decide
  info := ⟨_, _, _, rfl, rfl, rfl⟩
  paths := ⟨_, rfl, _, List.mem_cons_self, by decide⟩
  keys := by decide
  pathItems entry entryMem _ := by
    rcases List.mem_pair.mp entryMem with rfl | rfl
    · exact ⟨rfl, @parametersValid_of_named _ [("owner", "query")] rfl (by decide)⟩
    · exact ⟨rfl, @parametersValid_of_named _ [] rfl (by decide)⟩
  operations entry entryMem := by
    rcases List.mem_cons.mp entryMem with rfl | entryMem
    · exact @isOperation_of_responses _ _ "Pets" _ _ (by simp [placeholderNames]) rfl rfl
        (@parametersValid_of_named _ [("owner", "header")] rfl (by decide))
    · rcases List.mem_pair.mp entryMem with rfl | rfl
      · exact @isOperation_of_responses _ _ "Pet" _ _ (by simp [placeholderNames]) rfl rfl
          (@parametersValid_of_named _ [] rfl (by decide))
      · exact @isOperation_of_responses _ _ "Owners" _ _ (by simp [placeholderNames]) rfl rfl
          (@parametersValid_of_named _ [] rfl (by decide))
  uniqueIds := by decide

/-- A parameter is kept if only its name comes again, and three operations have different
identifiers. -/
theorem petDocument_generates :
    Generates (platformOf petContents petDocument) ⟨"pets", petContents⟩ petDocument := by
  apply (generates_iff_isUnambiguous _ ⟨"pets", petContents⟩ _ (parse_platformOf _ _)
    petDocument_valid).mpr
  refine ⟨by decide, by decide, by decide, by decide, ?_⟩
  intro entry entryMem
  rcases List.mem_cons.mp entryMem with rfl | entryMem
  · decide
  · rcases List.mem_pair.mp entryMem with rfl | rfl <;> decide

def hyphenDocument : Json :=
  documentOf [("/a-b", .obj [("get", .obj [("responses", responsesOf "Both")])]),
    ("/a/b", .obj [("get", .obj [("responses", responsesOf "Both")])])]

def hyphenContents : String :=
  "openapi: 3.0.0\ninfo:\n  title: Pets\n  version: 1.0.0\npaths:\n" ++
    "  /a-b:\n    get:\n      responses:\n        default:\n          description: Both\n" ++
    "  /a/b:\n    get:\n      responses:\n        default:\n          description: Both\n"

/-- Two paths that differ in a slash are valid, and the second is called a duplicate. -/
theorem hyphenDocument_duplicate :
    IsValid hyphenDocument ∧
      ¬ Generates (platformOf hyphenContents hyphenDocument) ⟨"pets", hyphenContents⟩
        hyphenDocument := by
  have valid : IsValid hyphenDocument :=
    { isObject := rfl
      openapi := by decide
      info := ⟨_, _, _, rfl, rfl, rfl⟩
      paths := ⟨_, rfl, _, List.mem_cons_self, by decide⟩
      keys := by decide
      pathItems := by
        intro entry entryMem _
        simp only [hyphenDocument] at entryMem
        rcases List.mem_cons.mp entryMem with rfl | entryMem
        · exact ⟨rfl, @parametersValid_of_named _ [] rfl (by decide)⟩
        · rw [List.mem_singleton.mp entryMem]
          exact ⟨rfl, @parametersValid_of_named _ [] rfl (by decide)⟩
      operations := by
        intro entry entryMem
        rcases List.mem_cons.mp entryMem with rfl | entryMem
        · exact @isOperation_of_responses _ _ "Both" _ _ (by simp [placeholderNames]) rfl rfl
            (@parametersValid_of_named _ [] rfl (by decide))
        · rw [List.mem_singleton.mp entryMem]
          exact @isOperation_of_responses _ _ "Both" _ _ (by simp [placeholderNames]) rfl rfl
            (@parametersValid_of_named _ [] rfl (by decide))
      uniqueIds := by decide }
  refine ⟨valid, fun generates => ?_⟩
  have errorFree := ((generates_iff valid ⟨"pets", hyphenContents⟩
    (parse_platformOf _ _)).mp generates).1
  have different := ((findingsOf_errorFree valid).mp errorFree).2.2.2
  exact absurd different (by decide)

end Brunomnia.OpenApi
