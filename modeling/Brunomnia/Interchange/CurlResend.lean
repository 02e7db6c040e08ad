import Brunomnia.Codegen.Headers
import Brunomnia.Interchange.CurlReading

/-!
# Sending what was read back

The request that the import makes of a snippet, and what it sends: its templates are
resolved and its form is encoded although both were done for the snippet already.
-/

namespace Brunomnia.Interchange

open Codegen

/-! ## The imported request -/

/-- The value of the first header that is read as a content type. -/
def contentTypeOf (headers : List (Text × Text)) : Text :=
  (((headers.map importedHeader).find? fun row =>
    lowerText row.1 = "content-type".toList).map Prod.snd).getD []

def sentMode (request : MaterializedRequest) : BodyMode :=
  match request.body with
  | some (.text value) => inferBodyMode (contentTypeOf request.headers) value
  | _ => .none

def sentBody (request : MaterializedRequest) : Text :=
  match request.body with
  | some (.text value) => value
  | _ => []

def headerRow (header : Text × Text) : KeyValue :=
  ⟨header.1, header.2, true⟩

/-- What is read back from the snippet of a request. -/
def importedRequest (request : MaterializedRequest) : ApiRequest :=
  { blankRequest with
    method := normalizeMethod request.method
    url := request.url
    headers := (request.headers.map importedHeader).map headerRow
    bodyMode := sentMode request
    body := sentBody request
    formBody := if sentMode request = .formUrlencoded then
      ((sentBody request).splitOn '&').map entryRow else [] }

theorem contentTypeOf_eq (headers : List (Text × Text)) :
    ((((headers.map importedHeader).map headerRow).find? fun header =>
      lowerText header.name = "content-type".toList).map KeyValue.value).getD [] =
        contentTypeOf headers := by
  unfold contentTypeOf
  rw [List.find?_map, Option.map_map]
  rfl

theorem withCurlBody_none {state : CurlState} (noForms : state.forms = [])
    (noFields : state.urlEncoded = []) (noData : state.data = []) (request : ApiRequest) :
    withCurlBody request state = { request with bodyMode := .none } := by
  unfold withCurlBody
  rw [noForms, noFields, noData, if_neg (by simp), if_neg (by simp), if_neg (by simp)]

theorem withCurlBody_data {state : CurlState} (noForms : state.forms = [])
    (noFields : state.urlEncoded = []) {value : Text} (data : state.data = [value])
    (request : ApiRequest) :
    withCurlBody request state =
      let contentType := ((request.headers.find? fun header =>
        lowerText header.name = "content-type".toList).map KeyValue.value).getD []
      { request with
        body := value
        bodyMode := inferBodyMode contentType value
        formBody := if inferBodyMode contentType value = .formUrlencoded then
          (value.splitOn '&').map entryRow else request.formBody } := by
  have joined : List.intercalate ['&'] [value] = value := by simp [List.intercalate]
  unfold withCurlBody
  rw [noForms, noFields, data, if_neg (by simp), if_neg (by simp), if_pos (by simp), joined]

theorem requestOfState_snippetState {request : MaterializedRequest}
    (methodNotEmpty : request.method ≠ []) :
    requestOfState (snippetState request) = importedRequest request := by
  have sameState : forcedGet (snippetState request) = snippetState request := rfl
  have method : (snippetState request).method ≠ [] := methodNotEmpty
  have contentType := contentTypeOf_eq request.headers
  unfold requestOfState withCurlAuth
  rw [sameState]
  dsimp only
  rw [if_pos method, if_neg (by simp [snippetState]), if_neg (by simp [snippetState])]
  rcases bodyEq : request.body with _ | ⟨value⟩ | ⟨_, _, _⟩
  · rw [withCurlBody_none rfl rfl (by simp [snippetState, bodyData, bodyEq])]
    unfold importedRequest sentMode sentBody
    rw [bodyEq]
    rfl
  · rw [@withCurlBody_data _ rfl rfl value (by simp [snippetState, bodyData, bodyEq])]
    unfold importedRequest sentMode sentBody
    rw [bodyEq, ← contentType]
    rfl
  · rw [withCurlBody_none rfl rfl (by simp [snippetState, bodyData, bodyEq])]
    unfold importedRequest sentMode sentBody
    rw [bodyEq]
    rfl

/-! ## Sending the imported request -/

section Resent

variable (platform : Platform) (values : Text → Option Text)

/-- What is sent for a header that was read back. -/
def rereadHeader (header : Text × Text) : Text × Text :=
  (trimText (resolveTemplate values (importedHeader header).1),
    resolveTemplate values (importedHeader header).2)

def resentRecord (headers : List (Text × Text)) : List (Text × Text) :=
  setAll [] ((headers.map (rereadHeader values)).filter fun entry => entry.1 ≠ [])

def withModeType (mode : BodyMode) (headers : List (Text × Text)) : List (Text × Text) :=
  match mode with
  | .json => addContentType headers "application/json".toList
  | .formUrlencoded => addContentType headers "application/x-www-form-urlencoded".toList
  | _ => headers

/-- A form that was read back, encoded again. -/
def resentForm (value : Text) : Text :=
  formToString ((((value.splitOn '&').map entryRow).filter fun row => row.name ≠ []).map
    fun row => (resolveTemplate values row.name, resolveTemplate values row.value))

def resentText (mode : BodyMode) (value : Text) : Text :=
  if mode = .formUrlencoded then resentForm values value else resolveTemplate values value

theorem materializeHeaderRows_importedRequest (request : MaterializedRequest) :
    materializeHeaderRows values (importedRequest request) =
      resolvedHeaders values (importedRequest request) := by
  have noAuth : authHeaders values (importedRequest request).auth = [] := rfl
  have noOauth2 : oauth2Headers values (importedRequest request).auth = [] := rfl
  unfold materializeHeaderRows
  dsimp only
  rw [noAuth, noOauth2, List.append_nil, List.append_nil, ite_self]

theorem headerRecord_eq (rows : List KeyValue) :
    headerRecord rows =
      setAll [] ((rows.filter fun row => row.enabled && trimText row.name ≠ []).map
        fun row => (trimText row.name, row.value)) := by
  unfold headerRecord setAll
  rw [List.foldl_map]

theorem headerRecord_importedRequest (request : MaterializedRequest) :
    headerRecord (resolvedHeaders values (importedRequest request)) =
      resentRecord values request.headers := by
  have rows : resolvedHeaders values (importedRequest request) =
      request.headers.map fun header =>
        ⟨resolveTemplate values (importedHeader header).1,
          resolveTemplate values (importedHeader header).2, true⟩ := by
    unfold resolvedHeaders importedRequest
    dsimp only
    rw [List.map_map, List.map_map]
    rfl
  rw [headerRecord_eq, rows, resentRecord, List.filter_map, List.filter_map, List.map_map]
  rfl

theorem withContentType_textual (request : ApiRequest) {body : Option MaterializedBody}
    (textual : ∀ contentType dataBase64 replaceContentType,
      body ≠ some (.bytes contentType dataBase64 replaceContentType))
    (headers : List (Text × Text)) :
    withContentType request body headers = withModeType request.bodyMode headers := by
  unfold withContentType withModeType
  rcases body with _ | ⟨value⟩ | ⟨contentType, dataBase64, replaceContentType⟩
  · cases request.bodyMode <;> rfl
  · cases request.bodyMode <;> rfl
  · exact absurd rfl (textual contentType dataBase64 replaceContentType)

theorem inferBodyMode_cases (contentType body : Text) :
    inferBodyMode contentType body = .json ∨ inferBodyMode contentType body = .formUrlencoded ∨
      inferBodyMode contentType body = .text := by
  unfold inferBodyMode
  split
  · exact Or.inl rfl
  · split
    · exact Or.inr (Or.inl rfl)
    · exact Or.inr (Or.inr rfl)

theorem materializeBody_importedRequest (request : MaterializedRequest) :
    materializeBody platform values (importedRequest request) =
      if normalizeMethod request.method = "GET".toList ∨
          normalizeMethod request.method = "HEAD".toList then none
      else
        match request.body with
        | some (.text value) => some (.text (resentText values (sentMode request) value))
        | _ => none := by
  have method : (importedRequest request).method = normalizeMethod request.method := rfl
  have mode : (importedRequest request).bodyMode = sentMode request := rfl
  unfold materializeBody
  rw [method, mode]
  split
  · rfl
  · rcases bodyEq : request.body with _ | ⟨value⟩ | ⟨_, _, _⟩
    · have noMode : sentMode request = .none := by simp [sentMode, bodyEq]
      rw [noMode]
    · have body : (importedRequest request).body = value := by
        simp [importedRequest, sentBody, bodyEq]
      have form : sentMode request = .formUrlencoded →
          (importedRequest request).formBody = (value.splitOn '&').map entryRow := by
        intro isForm
        simp [importedRequest, sentBody, bodyEq, isForm]
      have modes : sentMode request = .json ∨ sentMode request = .formUrlencoded ∨
          sentMode request = .text := by
        unfold sentMode
        rw [bodyEq]
        exact inferBodyMode_cases _ _
      rcases modes with isJson | isForm | isText
      · rw [isJson]
        simp only [resentText, body]
        rfl
      · rw [isForm]
        simp only [form isForm, resentText]
        have enabled : ((value.splitOn '&').map entryRow).filter
            (fun row => row.enabled && row.name ≠ []) =
              ((value.splitOn '&').map entryRow).filter fun row => row.name ≠ [] := by
          apply List.filter_congr
          intro row rowMem
          obtain ⟨piece, _, rfl⟩ := List.mem_map.mp rowMem
          unfold entryRow
          split <;> rfl
        rw [enabled]
        rfl
      · rw [isText]
        simp only [resentText, body]
        rfl
    · have noMode : sentMode request = .none := by simp [sentMode, bodyEq]
      rw [noMode]

theorem materializeHeaders_importedRequest (request : MaterializedRequest) :
    (materialize platform values (importedRequest request)).headers =
      withModeType (sentMode request) (resentRecord values request.headers) := by
  have textual : ∀ contentType dataBase64 replaceContentType,
      materializeBody platform values (importedRequest request) ≠
        some (.bytes contentType dataBase64 replaceContentType) := by
    intro contentType dataBase64 replaceContentType
    rw [materializeBody_importedRequest]
    split
    · simp
    · split <;> simp
  unfold materialize
  dsimp only
  rw [materializeHeaderRows_importedRequest, headerRecord_importedRequest,
    withContentType_textual _ textual]
  rfl

end Resent

end Brunomnia.Interchange
