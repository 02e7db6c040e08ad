import Brunomnia.Codegen.Encoding
import Brunomnia.Interchange.CurlResend

/-!
# Snippets that come back

Which requests are sent again by what is read back from their snippet. A request differs
where a header is read as another one, a template resolves a second time, a form is
encoded a second time, or the mode of the body adds a content type.
-/

namespace Brunomnia.Interchange

open Codegen

/-! ## Forms -/

/-- A form without fields, or named fields of characters that are not encoded. -/
def IsPlainForm (value : Text) : Prop :=
  value = [] ∨
    ∀ piece ∈ value.splitOn '&', ∃ name field, piece = name ++ '=' :: field ∧ name ≠ [] ∧
      (∀ letter ∈ name, isFormUnreserved letter = true) ∧
      ∀ letter ∈ field, isFormUnreserved letter = true

theorem notMem_of_unreserved {text : Text} {letter : Char}
    (reserved : isFormUnreserved letter = false)
    (unreserved : ∀ other ∈ text, isFormUnreserved other = true) : letter ∉ text := by
  intro letterMem
  rw [unreserved letter letterMem] at reserved
  cases reserved

def encodeField (entry : Text × Text) : Text :=
  encodeForm entry.1 ++ '=' :: encodeForm entry.2

theorem formToString_eq (entries : List (Text × Text)) :
    formToString entries = List.intercalate ['&'] (entries.map encodeField) := rfl

theorem notMem_encodeForm (letter : Char) (reserved : isFormUnreserved letter = false)
    (notPercent : letter ≠ '%') (notPlus : letter ≠ '+') (text : Text) :
    letter ∉ encodeForm text := by
  intro letterMem
  rcases encodeForm_characters text letter letterMem with unreserved | isPercent | isPlus
  · rw [unreserved] at reserved
    cases reserved
  · exact notPercent isPercent
  · exact notPlus isPlus

theorem notMem_encodeField (entry : Text × Text) : '&' ∉ encodeField entry := by
  have notEncoded := notMem_encodeForm '&' (by decide) (by decide) (by decide)
  unfold encodeField
  rw [List.mem_append, List.mem_cons, not_or, not_or]
  exact ⟨notEncoded entry.1, by decide, notEncoded entry.2⟩

section Forms

variable (values : Text → Option Text)

/-- The field that is sent for one that was read back. -/
def resentField (row : KeyValue) : Text :=
  encodeField (resolveTemplate values row.name, resolveTemplate values row.value)

theorem resentForm_eq (value : Text) :
    resentForm values value =
      List.intercalate ['&'] ((((value.splitOn '&').map entryRow).filter
        fun row => row.name ≠ []).map (resentField values)) := by
  unfold resentForm
  rw [formToString_eq, List.map_map]
  rfl

theorem resolve_of_encodeForm {text : Text}
    (same : encodeForm (resolveTemplate values text) = text) :
    ∀ letter ∈ text, isFormUnreserved letter = true := by
  have noBrace : '{' ∉ text := by
    rw [← same]
    exact notMem_encodeForm _ (by decide) (by decide) (by decide) _
  have noSpace : ' ' ∉ text := by
    rw [← same]
    exact notMem_encodeForm _ (by decide) (by decide) (by decide) _
  rw [resolveTemplate_of_notMem values noBrace] at same
  exact unreserved_of_encodeForm noSpace same

theorem plain_of_resentField {piece : Text} (named : (entryRow piece).name ≠ [])
    (same : resentField values (entryRow piece) = piece) :
    ∃ name field, piece = name ++ '=' :: field ∧ name ≠ [] ∧
      (∀ letter ∈ name, isFormUnreserved letter = true) ∧
      ∀ letter ∈ field, isFormUnreserved letter = true := by
  have noEquals := notMem_encodeForm '=' (by decide) (by decide) (by decide)
    (resolveTemplate values (entryRow piece).name)
  have split : splitFirst '=' piece =
      some (encodeForm (resolveTemplate values (entryRow piece).name),
        encodeForm (resolveTemplate values (entryRow piece).value)) := by
    conv_lhs => rw [← same]
    exact splitFirst_append noEquals _
  have row : entryRow piece =
      ⟨encodeForm (resolveTemplate values (entryRow piece).name),
        encodeForm (resolveTemplate values (entryRow piece).value), true⟩ := by
    conv_lhs => rw [entryRow, split]
  have name : encodeForm (resolveTemplate values (entryRow piece).name) =
      (entryRow piece).name := (congrArg KeyValue.name row).symm
  have field : encodeForm (resolveTemplate values (entryRow piece).value) =
      (entryRow piece).value := (congrArg KeyValue.value row).symm
  refine ⟨(entryRow piece).name, (entryRow piece).value, ?_, named,
    resolve_of_encodeForm values name, resolve_of_encodeForm values field⟩
  rw [← name, ← field]
  exact same.symm

theorem entryRow_of_plain {name field : Text}
    (plain : ∀ letter ∈ name, isFormUnreserved letter = true) :
    entryRow (name ++ '=' :: field) = ⟨name, field, true⟩ := by
  unfold entryRow
  rw [splitFirst_append (notMem_of_unreserved (by decide) plain)]

theorem resentField_of_plain {name field : Text}
    (namePlain : ∀ letter ∈ name, isFormUnreserved letter = true)
    (fieldPlain : ∀ letter ∈ field, isFormUnreserved letter = true) :
    resentField values ⟨name, field, true⟩ = name ++ '=' :: field := by
  unfold resentField encodeField
  rw [resolveTemplate_of_notMem values (notMem_of_unreserved (by decide) namePlain),
    resolveTemplate_of_notMem values (notMem_of_unreserved (by decide) fieldPlain),
    encodeForm_of_unreserved namePlain, encodeForm_of_unreserved fieldPlain]

/-- A form is sent as it was read back if nothing in it is encoded. -/
theorem resentForm_eq_self_iff (value : Text) :
    resentForm values value = value ↔ IsPlainForm value := by
  rw [resentForm_eq]
  constructor
  · intro same
    by_cases noFields : (((value.splitOn '&').map entryRow).filter
        fun row => row.name ≠ []) = []
    · rw [noFields] at same
      exact Or.inl same.symm
    · right
      have pieces : value.splitOn '&' =
          (((value.splitOn '&').map entryRow).filter fun row => row.name ≠ []).map
            (resentField values) := by
        conv_lhs => rw [← same]
        apply List.splitOn_intercalate
        · intro piece pieceMem
          obtain ⟨row, _, rfl⟩ := List.mem_map.mp pieceMem
          exact notMem_encodeField _
        · simpa using noFields
      have allNamed : ((value.splitOn '&').map entryRow).filter
          (fun row => row.name ≠ []) = (value.splitOn '&').map entryRow := by
        have lengths := congrArg List.length pieces
        rw [List.length_map] at lengths
        apply List.filter_sublist.eq_of_length
        rw [← lengths, List.length_map]
      rw [allNamed, List.map_map] at pieces
      intro piece pieceMem
      have same : (resentField values ∘ entryRow) piece = id piece := by
        apply List.map_inj_left.mp _ piece pieceMem
        rw [← pieces, List.map_id]
      have named : (entryRow piece).name ≠ [] := by
        have isRow : entryRow piece ∈ ((value.splitOn '&').map entryRow).filter
            fun row => row.name ≠ [] := by
          rw [allNamed]
          exact List.mem_map_of_mem pieceMem
        simpa using (List.mem_filter.mp isRow).2
      exact plain_of_resentField values named same
  · rintro (rfl | plain)
    · rfl
    · have rows : ∀ piece ∈ value.splitOn '&', (entryRow piece).name ≠ [] ∧
          resentField values (entryRow piece) = piece := by
        intro piece pieceMem
        obtain ⟨name, field, rfl, named, namePlain, fieldPlain⟩ := plain piece pieceMem
        rw [entryRow_of_plain namePlain]
        exact ⟨named, resentField_of_plain values namePlain fieldPlain⟩
      have allNamed : ((value.splitOn '&').map entryRow).filter
          (fun row => row.name ≠ []) = (value.splitOn '&').map entryRow := by
        rw [List.filter_eq_self]
        intro row rowMem
        obtain ⟨piece, pieceMem, rfl⟩ := List.mem_map.mp rowMem
        simpa using (rows piece pieceMem).1
      have pieces : ((value.splitOn '&').map entryRow).map (resentField values) =
          value.splitOn '&' := by
        rw [List.map_map]
        conv_rhs => rw [← List.map_id (value.splitOn '&')]
        exact List.map_congr_left fun piece pieceMem => (rows piece pieceMem).2
      rw [allNamed, pieces, List.intercalate_splitOn]

end Forms

/-! ## Headers -/

/-- A name that is read back from the line of a header, and in which nothing resolves. -/
structure IsPlainName (name : Text) : Prop where
  noColon : ':' ∉ name
  noBrace : '{' ∉ name
  trimmed : trimText name = name

section Headers

variable (values : Text → Option Text)

theorem importedHeader_of_plain {name : Text} (plain : IsPlainName name) (value : Text) :
    importedHeader (name, value) = (name, trimText value) := by
  have line : headerLine (name, value) = name ++ ':' :: (' ' :: value) := by
    simp [headerLine]
  have spaceDropped : trimText (' ' :: value) = trimText value := rfl
  unfold importedHeader parseHeader
  rw [line, splitFirst_append plain.noColon]
  dsimp only
  rw [plain.trimmed, spaceDropped]

theorem rereadHeader_name {name : Text} (plain : IsPlainName name) (value : Text) :
    (rereadHeader values (name, value)).1 = name := by
  unfold rereadHeader
  rw [importedHeader_of_plain plain]
  dsimp only
  rw [resolveTemplate_of_notMem values plain.noBrace, plain.trimmed]

theorem plainName_of_index {header : Text × Text} (isIndex : isNamed header = false) :
    IsPlainName header.1 := by
  have digits : ∀ letter ∈ header.1, letter.isDigit = true := by
    intro letter letterMem
    by_contra notDigit
    have noIndex : arrayIndex header.1 = none :=
      if_pos (Or.inr (Or.inl ⟨letter, letterMem, Bool.not_eq_true _ ▸ notDigit⟩))
    simp [isNamed, noIndex] at isIndex
  refine ⟨?_, ?_, ?_⟩
  · intro isColon
    exact absurd (digits _ isColon) (by decide)
  · intro isBrace
    exact absurd (digits _ isBrace) (by decide)
  · apply trimText_of_notBlank
    intro letter letterMem
    apply notBlank_of_isMethodCharacter
    simp [isMethodCharacter, digits letter letterMem]

theorem isNamed_rereadHeader_of_index {header : Text × Text} (isIndex : isNamed header = false) :
    (rereadHeader values header).1 = header.1 :=
  rereadHeader_name values (plainName_of_index isIndex) header.2

/-- The record of the headers read back is as long as the headers only if each of them
comes back. -/
theorem resentRecord_perm {headers : List (Text × Text)}
    (full : (resentRecord values headers).length = headers.length) :
    (resentRecord values headers).Perm (headers.map (rereadHeader values)) ∧
      (resentRecord values headers).filter isNamed =
        (headers.map (rereadHeader values)).filter isNamed := by
  have atMost := length_setAll_le []
    ((headers.map (rereadHeader values)).filter fun entry => entry.1 ≠ [])
  have filtered := List.length_filter_le (fun entry : Text × Text => entry.1 ≠ [])
    (headers.map (rereadHeader values))
  rw [List.length_map] at filtered
  rw [List.length_nil, Nat.zero_add] at atMost
  unfold resentRecord at *
  have allNamed : (headers.map (rereadHeader values)).filter (fun entry => entry.1 ≠ []) =
      headers.map (rereadHeader values) := by
    apply List.filter_sublist.eq_of_length
    rw [List.length_map]
    omega
  rw [allNamed] at full ⊢
  have both := @setAll_of_length [] (headers.map (rereadHeader values)) (by simpa using full)
  simpa using both

/-- Headers that are read back as themselves in some order are each read back as itself. -/
theorem rereadHeader_fixed {headers : List (Text × Text)} (nodup : (keysOf headers).Nodup)
    (same : resentRecord values headers = headers) :
    ∀ header ∈ headers, rereadHeader values header = header := by
  obtain ⟨perm, filtered⟩ := resentRecord_perm values (congrArg List.length same)
  rw [same] at perm filtered
  have keysNodup : (headers.map fun header => (rereadHeader values header).1).Nodup := by
    have keysPerm := perm.map Prod.fst
    rw [List.map_map] at keysPerm
    exact keysPerm.nodup_iff.mp nodup
  have onIndices : ∀ header ∈ headers, isNamed header = false →
      rereadHeader values header = header := by
    intro header headerMem isIndex
    have reread : rereadHeader values header ∈ headers :=
      perm.mem_iff.mpr (List.mem_map_of_mem headerMem)
    exact List.inj_on_of_nodup_map nodup reread headerMem
      (isNamed_rereadHeader_of_index values isIndex)
  have staysNamed : ∀ header ∈ headers,
      isNamed (rereadHeader values header) = isNamed header := by
    intro header headerMem
    cases named : isNamed header with
    | false => rw [onIndices header headerMem named, named]
    | true =>
        by_contra notNamed
        rw [Bool.not_eq_true] at notNamed
        -- the index that the header became is read back from another header as well
        have reread : rereadHeader values header ∈ headers :=
          perm.mem_iff.mpr (List.mem_map_of_mem headerMem)
        have again := onIndices _ reread notNamed
        have sameHeader := List.inj_on_of_nodup_map keysNodup reread headerMem
          (congrArg Prod.fst again)
        rw [sameHeader, named] at notNamed
        cases notNamed
  have commutes : (headers.map (rereadHeader values)).filter isNamed =
      (headers.filter isNamed).map (rereadHeader values) := by
    rw [List.filter_map]
    exact congrArg _ (List.filter_congr staysNamed)
  rw [commutes] at filtered
  intro header headerMem
  cases named : isNamed header with
  | false => exact onIndices header headerMem named
  | true =>
      have inBoth : header ∈ headers.filter isNamed :=
        List.mem_filter.mpr ⟨headerMem, named⟩
      apply List.map_inj_left.mp _ header inBoth
      rw [← filtered]
      exact (List.map_id _).symm

/-! ## Content types -/

theorem plainName_contentType : IsPlainName "Content-Type".toList := by
  refine ⟨?_, ?_, ?_⟩
  · simp
  · simp
  · rfl

theorem contentType_mem_resentRecord {headers : List (Text × Text)} {value : Text}
    (mem : ("Content-Type".toList, value) ∈ headers) :
    ∃ header ∈ resentRecord values headers, isContentType header.1 = true := by
  have name := rereadHeader_name values plainName_contentType value
  have isKey : "Content-Type".toList ∈ keysOf (resentRecord values headers) := by
    unfold resentRecord
    rw [mem_keysOf_setAll]
    refine Or.inr ⟨?_, by decide⟩
    rw [← name]
    apply List.mem_map_of_mem
    rw [List.mem_filter]
    refine ⟨List.mem_map_of_mem mem, ?_⟩
    rw [name]
    rfl
  obtain ⟨header, headerMem, isName⟩ := List.mem_map.mp isKey
  refine ⟨header, headerMem, ?_⟩
  rw [isName]
  rfl

theorem addContentType_of_exists {headers : List (Text × Text)}
    (declared : ∃ header ∈ headers, isContentType header.1 = true) (value : Text) :
    addContentType headers value = headers :=
  if_pos declared

theorem mem_addContentType {headers : List (Text × Text)}
    (notDeclared : ¬∃ header ∈ headers, isContentType header.1 = true) (value : Text) :
    ("Content-Type".toList, value) ∈ addContentType headers value := by
  unfold addContentType
  rw [if_neg notDeclared]
  exact mem_recordSet headers value (by decide)

theorem withModeType_cases (mode : BodyMode) (headers : List (Text × Text)) :
    withModeType mode headers = headers ∨
      ((mode = .json ∨ mode = .formUrlencoded) ∧
        ∃ value, withModeType mode headers = addContentType headers value) := by
  cases mode with
  | json => exact Or.inr ⟨Or.inl rfl, _, rfl⟩
  | formUrlencoded => exact Or.inr ⟨Or.inr rfl, _, rfl⟩
  | none => exact Or.inl rfl
  | text => exact Or.inl rfl
  | multipart => exact Or.inl rfl
  | binary => exact Or.inl rfl

theorem resentRecord_of_withModeType {mode : BodyMode} {headers read : List (Text × Text)}
    (same : withModeType mode (resentRecord values read) = headers)
    (isRead : ∀ value, ("Content-Type".toList, value) ∈ headers →
      ("Content-Type".toList, value) ∈ read) : resentRecord values read = headers := by
  rcases withModeType_cases mode (resentRecord values read) with kept | ⟨_, value, added⟩
  · rw [← kept, same]
  · by_cases declared : ∃ header ∈ resentRecord values read, isContentType header.1 = true
    · rw [addContentType_of_exists declared] at added
      rw [← added, same]
    · have isHeader := mem_addContentType declared value
      rw [← added, same] at isHeader
      exact absurd (contentType_mem_resentRecord values (isRead value isHeader)) declared

theorem declared_of_withModeType {mode : BodyMode} {headers : List (Text × Text)}
    (isJson : mode = .json) (same : withModeType mode headers = headers) :
    ∃ header ∈ headers, isContentType header.1 = true := by
  by_contra notDeclared
  have isHeader := mem_addContentType notDeclared "application/json".toList
  rw [isJson] at same
  change _ ∈ withModeType .json headers at isHeader
  rw [same] at isHeader
  exact notDeclared ⟨_, isHeader, rfl⟩

theorem trimText_importedHeader (header : Text × Text) :
    trimText (importedHeader header).1 = (importedHeader header).1 := by
  unfold importedHeader parseHeader
  split
  · exact trimText_trimText _
  · exact trimText_trimText _

/-- The mode of a form is read off a content type. -/
theorem declared_of_form {request : MaterializedRequest}
    (fixed : ∀ header ∈ request.headers, rereadHeader values header = header)
    (isForm : sentMode request = .formUrlencoded) :
    ∃ header ∈ request.headers, isContentType header.1 = true := by
  have found : contentTypeOf request.headers ≠ [] := by
    intro noType
    unfold sentMode at isForm
    split at isForm
    · rw [noType] at isForm
      unfold inferBodyMode at isForm
      split at isForm
      · cases isForm
      · split at isForm
        case isTrue included => exact absurd included (by decide)
        case isFalse => cases isForm
    · cases isForm
  unfold contentTypeOf at found
  cases rowEq : (request.headers.map importedHeader).find? fun row =>
      lowerText row.1 = "content-type".toList with
  | none =>
      rw [rowEq] at found
      exact absurd rfl found
  | some row =>
      obtain ⟨header, headerMem, rfl⟩ := List.mem_map.mp (List.mem_of_find?_eq_some rowEq)
      have isName : lowerText (importedHeader header).1 = "content-type".toList := by
        simpa only [decide_eq_true_eq] using List.find?_some rowEq
      have noBrace : '{' ∉ (importedHeader header).1 := by
        intro isBrace
        have lowered : '{' ∈ lowerText (importedHeader header).1 :=
          List.mem_map.mpr ⟨'{', isBrace, rfl⟩
        rw [isName] at lowered
        exact absurd lowered (by simp)
      refine ⟨header, headerMem, ?_⟩
      have name : header.1 = (importedHeader header).1 := by
        conv_lhs => rw [← fixed header headerMem]
        unfold rereadHeader
        dsimp only
        rw [resolveTemplate_of_notMem values noBrace, trimText_importedHeader]
      unfold isContentType
      rw [name, isName]
      exact decide_eq_true rfl

end Headers

/-! ## Materialised requests -/

structure IsHeaderRecord (headers : List (Text × Text)) : Prop where
  record : IsRecord headers
  named : ∀ header ∈ headers, header.1 ≠ []

theorem IsHeaderRecord.set {headers : List (Text × Text)} (isHeaders : IsHeaderRecord headers)
    {key : Text} (notEmpty : key ≠ []) (value : Text) :
    IsHeaderRecord (recordSet headers key value) := by
  refine ⟨isHeaders.record.set key value, ?_⟩
  intro header headerMem
  have isKey : header.1 ∈ keysOf (recordSet headers key value) := List.mem_map_of_mem headerMem
  rcases mem_keysOf_recordSet.mp isKey with old | ⟨isNew, _⟩
  · obtain ⟨other, otherMem, sameName⟩ := List.mem_map.mp old
    rw [← sameName]
    exact isHeaders.named other otherMem
  · rw [isNew]
    exact notEmpty

theorem IsHeaderRecord.addContentType {headers : List (Text × Text)}
    (isHeaders : IsHeaderRecord headers) (value : Text) :
    IsHeaderRecord (addContentType headers value) := by
  unfold Codegen.addContentType
  split
  · exact isHeaders
  · exact isHeaders.set (by simp) value

theorem headerRecord_isHeaderRecord (rows : List KeyValue) :
    IsHeaderRecord (headerRecord rows) := by
  rw [headerRecord_eq]
  refine ⟨IsRecord.nil.setAll _, ?_⟩
  intro header headerMem
  have isKey := List.mem_map_of_mem (f := Prod.fst) headerMem
  rcases mem_keysOf_setAll.mp isKey with old | ⟨added, _⟩
  · exact absurd old List.not_mem_nil
  · obtain ⟨entry, entryMem, sameName⟩ := List.mem_map.mp added
    obtain ⟨row, rowMem, rfl⟩ := List.mem_map.mp entryMem
    rw [← sameName]
    have named := (List.mem_filter.mp rowMem).2
    rw [Bool.and_eq_true, decide_eq_true_eq] at named
    exact named.2

theorem withContentType_isHeaderRecord (request : ApiRequest) (body : Option MaterializedBody)
    {headers : List (Text × Text)} (isHeaders : IsHeaderRecord headers) :
    IsHeaderRecord (withContentType request body headers) := by
  have json : IsHeaderRecord (if request.bodyMode = .json then
      addContentType headers "application/json".toList else headers) := by
    split
    · exact isHeaders.addContentType _
    · exact isHeaders
  unfold withContentType
  generalize (if request.bodyMode = .json then
    addContentType headers "application/json".toList else headers) = withJson at json
  have form : IsHeaderRecord (if request.bodyMode = .formUrlencoded then
      addContentType withJson "application/x-www-form-urlencoded".toList else withJson) := by
    split
    · exact json.addContentType _
    · exact json
  dsimp only
  generalize (if request.bodyMode = .formUrlencoded then
    addContentType withJson "application/x-www-form-urlencoded".toList else withJson) =
      withForm at form
  rcases body with _ | ⟨value⟩ | ⟨contentType, dataBase64, replaceContentType⟩
  · exact form
  · exact form
  · dsimp only
    split
    · exact form
    · split
      · have removed : IsHeaderRecord (removeContentType withForm) :=
          ⟨form.record.sublist List.filter_sublist,
            fun header headerMem => form.named header (List.mem_filter.mp headerMem).1⟩
        exact removed.set (by simp) contentType
      · exact form.addContentType contentType

/-- What every materialised request satisfies. -/
structure IsSendable (request : MaterializedRequest) : Prop where
  headers : IsHeaderRecord request.headers
  bodiless : request.method = "GET".toList ∨ request.method = "HEAD".toList →
    request.body = none

theorem materialize_isSendable (platform : Platform) (values : Text → Option Text)
    (request : ApiRequest) : IsSendable (materialize platform values request) := by
  refine ⟨?_, fun bodiless => if_pos bodiless⟩
  exact withContentType_isHeaderRecord request (materializeBody platform values request)
    (headerRecord_isHeaderRecord (materializeHeaderRows values request))

/-! ## The round trip -/

/-- The snippet of a request is read as one request, which sends the same. -/
def RoundTrips (platform : Platform) (values : Text → Option Text)
    (request : MaterializedRequest) : Prop :=
  ∃ imported, importCurl (curlSnippet request) = [imported] ∧
    materialize platform values imported = request

/-- What a request needs to come back: a normal method without an apostrophe, a URL for the
option, no template that resolves, headers that are read as they are written, a form in
which nothing is encoded, and a content type if the body is taken for JSON. -/
structure ComesBack (values : Text → Option Text) (request : MaterializedRequest) : Prop where
  method : IsMethod request.method
  noApostrophe : '\'' ∉ request.method
  urlFound : UrlFound request
  url : resolveTemplate values request.url = request.url
  headers : ∀ header ∈ request.headers, rereadHeader values header = header
  body : ∀ value, request.body = some (.text value) →
    sentMode request ≠ .formUrlencoded → resolveTemplate values value = value
  form : ∀ value, request.body = some (.text value) →
    sentMode request = .formUrlencoded → IsPlainForm value
  declared : sentMode request = .json →
    ∃ header ∈ request.headers, isContentType header.1 = true

section RoundTrip

variable {platform : Platform} {values : Text → Option Text} {request : MaterializedRequest}

theorem isPlain_of_isMethodCharacter {letter : Char}
    (isMethod : isMethodCharacter letter = true) (notApostrophe : letter ≠ '\'') :
    IsPlain letter where
  notBackslash := by
    rintro rfl
    exact absurd isMethod (by decide)
  notDouble := by
    rintro rfl
    exact absurd isMethod (by decide)
  notSingle := notApostrophe
  notSemicolon := by
    rintro rfl
    exact absurd isMethod (by decide)
  notBlank := notBlank_of_isMethodCharacter isMethod

theorem importCurl_curlSnippet (textual : IsTextual request) (method : IsMethod request.method)
    (noApostrophe : '\'' ∉ request.method) :
    importCurl (curlSnippet request) =
      [requestOfState (readArguments initialState false
        ("--request".toList :: request.method :: optionTokens (snippetOptions request)))] := by
  have plain : ∀ letter ∈ request.method, IsPlain letter := by
    intro letter letterMem
    apply isPlain_of_isMethodCharacter (method.characters letter letterMem)
    rintro rfl
    exact noApostrophe letterMem
  unfold importCurl
  rw [tokenize_curlSnippet textual method.notEmpty plain]
  rfl

theorem normalizeMethod_of_isMethod {method : Text} (isMethod : IsMethod method) :
    normalizeMethod method = method := by
  unfold normalizeMethod
  dsimp only
  rw [normalizeHttpMethod_of_isMethod isMethod, if_neg isMethod.notEmpty]

theorem isMethod_normalizeMethod (value : Text) : IsMethod (normalizeMethod value) := by
  have get : IsMethod "GET".toList := ⟨by simp, by simp, by simp [isMethodCharacter]⟩
  unfold normalizeMethod
  dsimp only
  split
  · exact get
  case isFalse notEmpty =>
    rcases normalizeHttpMethod_cases value [] with isMethod | isEmpty
    · exact isMethod
    · exact absurd isEmpty notEmpty

theorem materializeBody_eq_iff (sendable : IsSendable request) (textual : IsTextual request)
    (method : IsMethod request.method) :
    materializeBody platform values (importedRequest request) = request.body ↔
      ∀ value, request.body = some (.text value) →
        resentText values (sentMode request) value = value := by
  rw [materializeBody_importedRequest, normalizeMethod_of_isMethod method]
  split
  case isTrue bodiless => simp [sendable.bodiless bodiless]
  case isFalse =>
    rcases bodyEq : request.body with _ | ⟨value⟩ | ⟨contentType, dataBase64, replaced⟩
    · simp
    · simp
    · exact absurd bodyEq (textual contentType dataBase64 replaced)

theorem resentText_eq_iff (mode : BodyMode) (value : Text) :
    resentText values mode value = value ↔
      (mode ≠ .formUrlencoded → resolveTemplate values value = value) ∧
        (mode = .formUrlencoded → IsPlainForm value) := by
  unfold resentText
  by_cases isForm : mode = .formUrlencoded
  · simp [isForm, resentForm_eq_self_iff]
  · simp [isForm]

/-- The headers that are sent for those that were read back. -/
theorem resentHeaders_eq_iff (sendable : IsSendable request) :
    withModeType (sentMode request) (resentRecord values request.headers) = request.headers ↔
      (∀ header ∈ request.headers, rereadHeader values header = header) ∧
        (sentMode request = .json →
          ∃ header ∈ request.headers, isContentType header.1 = true) := by
  constructor
  · intro same
    have kept := resentRecord_of_withModeType values same fun _ isHeader => isHeader
    refine ⟨rereadHeader_fixed values sendable.headers.record.nodup kept, ?_⟩
    intro isJson
    rw [kept] at same
    exact declared_of_withModeType isJson same
  · rintro ⟨fixed, declared⟩
    have rows : (request.headers.map (rereadHeader values)).filter (fun entry => entry.1 ≠ []) =
        request.headers := by
      rw [List.map_congr_left fixed, List.map_id', List.filter_eq_self]
      intro header headerMem
      simpa using sendable.headers.named header headerMem
    have kept : resentRecord values request.headers = request.headers := by
      unfold resentRecord
      rw [rows]
      exact setAll_of_isRecord (by simpa using sendable.headers.record)
    rw [kept]
    rcases withModeType_cases (sentMode request) request.headers with same | ⟨mode, value, added⟩
    · exact same
    · rw [added]
      apply addContentType_of_exists
      rcases mode with isJson | isForm
      · exact declared isJson
      · exact declared_of_form values fixed isForm

theorem materialize_importedRequest_iff (sendable : IsSendable request)
    (textual : IsTextual request) (method : IsMethod request.method) :
    materialize platform values (importedRequest request) = request ↔
      resolveTemplate values request.url = request.url ∧
        withModeType (sentMode request) (resentRecord values request.headers) =
          request.headers ∧
        materializeBody platform values (importedRequest request) = request.body := by
  have headers := materializeHeaders_importedRequest platform values request
  have parts : materialize platform values (importedRequest request) =
      ⟨normalizeMethod request.method, resolveTemplate values request.url,
        (materialize platform values (importedRequest request)).headers,
        materializeBody platform values (importedRequest request)⟩ := rfl
  rw [parts, headers, normalizeMethod_of_isMethod method]
  obtain ⟨requestMethod, url, requestHeaders, body⟩ := request
  simp

theorem roundTrips_of_comesBack (sendable : IsSendable request) (textual : IsTextual request)
    (safe : ComesBack values request) : RoundTrips platform values request := by
  refine ⟨importedRequest request, ?_, ?_⟩
  · rw [importCurl_curlSnippet textual safe.method safe.noApostrophe,
      readArguments_snippet safe.method.notEmpty safe.urlFound,
      requestOfState_snippetState safe.method.notEmpty]
  · rw [materialize_importedRequest_iff sendable textual safe.method]
    refine ⟨safe.url, ?_, ?_⟩
    · exact (resentHeaders_eq_iff sendable).mpr ⟨safe.headers, safe.declared⟩
    · rw [materializeBody_eq_iff sendable textual safe.method]
      intro value bodyEq
      rw [resentText_eq_iff]
      exact ⟨safe.body value bodyEq, safe.form value bodyEq⟩

/-! ## Requests that do not come back -/

/-- What an import sets of a request besides its headers and its body. -/
structure IsPlainRequest (state : CurlState) (imported : ApiRequest) : Prop where
  method : ∃ value, imported.method = normalizeMethod value
  url : imported.url = (forcedGet state).url
  pathParams : imported.pathParams = []
  params : imported.params = []
  auth : imported.auth.type ≠ .apiKey

theorem IsPlainRequest.withBody {state : CurlState} {imported : ApiRequest}
    (plain : IsPlainRequest state imported) (commandState : CurlState) :
    IsPlainRequest state (withCurlBody imported commandState) := by
  obtain ⟨method, url, pathParams, params, auth⟩ := plain
  unfold withCurlBody
  split
  · exact ⟨method, url, pathParams, params, auth⟩
  · split
    · exact ⟨method, url, pathParams, params, auth⟩
    · split
      · exact ⟨method, url, pathParams, params, auth⟩
      · exact ⟨method, url, pathParams, params, auth⟩

theorem IsPlainRequest.withAuth {state : CurlState} {imported : ApiRequest}
    (plain : IsPlainRequest state imported) (commandState : CurlState) :
    IsPlainRequest state (withCurlAuth imported commandState) := by
  obtain ⟨method, url, pathParams, params, auth⟩ := plain
  unfold withCurlAuth
  split
  · exact ⟨method, url, pathParams, params, by simp⟩
  · split
    · exact ⟨method, url, pathParams, params, by simp⟩
    · exact ⟨method, url, pathParams, params, auth⟩

theorem requestOfState_plain (state : CurlState) :
    IsPlainRequest state (requestOfState state) := by
  unfold requestOfState
  apply IsPlainRequest.withAuth
  apply IsPlainRequest.withBody
  exact ⟨⟨_, rfl⟩, rfl, rfl, rfl, by simp [blankRequest]⟩

theorem isMethod_of_roundTrips (comesBack : RoundTrips platform values request) :
    IsMethod request.method := by
  obtain ⟨imported, importedEq, same⟩ := comesBack
  have isImported : imported ∈ importCurl (curlSnippet request) := by simp [importedEq]
  obtain ⟨arguments, _, rfl⟩ := List.mem_map.mp isImported
  have method : (materialize platform values (parseCurlCommand arguments)).method =
      (parseCurlCommand arguments).method := rfl
  rw [← same, method]
  unfold parseCurlCommand
  obtain ⟨value, isNormal⟩ := (requestOfState_plain (readArguments initialState false
    arguments)).method
  rw [initialState] at isNormal
  rw [isNormal]
  exact isMethod_normalizeMethod value

theorem materializeUrl_requestOfState (state : CurlState) :
    materializeUrl platform values (requestOfState state) =
      resolveTemplate values (forcedGet state).url := by
  have plain := requestOfState_plain state
  unfold materializeUrl buildRequestUrl
  rw [plain.pathParams, plain.params, plain.url, if_neg fun isQuery => plain.auth isQuery.2.1]
  rfl

theorem url_of_dash {state : CurlState} (dash : state.url.head? = some '-') :
    resolveTemplate values (forcedGet state).url ≠ [] := by
  obtain ⟨rest, urlEq⟩ : ∃ rest, (forcedGet state).url = '-' :: rest := by
    obtain ⟨rest, urlEq⟩ := List.head?_eq_some_iff.mp dash
    unfold forcedGet
    split
    · dsimp only
      rw [urlEq]
      exact ⟨_, rfl⟩
    · exact ⟨rest, urlEq⟩
  rw [urlEq, resolveTemplate_cons values (by decide)]
  exact List.cons_ne_nil _ _

/-- A request without a URL comes back only if it has no header and no body. -/
theorem urlFound_of_roundTrips (textual : IsTextual request)
    (noApostrophe : '\'' ∉ request.method)
    (comesBack : RoundTrips platform values request) : UrlFound request := by
  have method := isMethod_of_roundTrips comesBack
  obtain ⟨imported, importedEq, same⟩ := comesBack
  rw [importCurl_curlSnippet textual method noApostrophe] at importedEq
  by_contra notFound
  have noUrl : request.url = [] := by
    by_contra urlNotEmpty
    exact notFound (Or.inl urlNotEmpty)
  rcases readArguments_noUrl method.notEmpty noUrl textual notFound with
    dash | ⟨header, headers, url, headersEq, dash, read⟩ | ⟨hasBody, url, read⟩
  · have url : (materialize platform values imported).url = [] := by rw [same, noUrl]
    rw [List.cons.injEq] at importedEq
    rw [← importedEq.1] at url
    change materializeUrl platform values _ = [] at url
    rw [materializeUrl_requestOfState] at url
    exact url_of_dash dash url
  · rw [read, @requestOfState_snippetState { request with url, headers } method.notEmpty,
      List.cons.injEq] at importedEq
    have sameHeaders : (materialize platform values imported).headers = request.headers := by
      rw [same]
    rw [← importedEq.1, materializeHeaders_importedRequest] at sameHeaders
    have kept := resentRecord_of_withModeType values sameHeaders (by
      intro value isHeader
      rw [headersEq] at isHeader
      rcases List.mem_cons.mp isHeader with isFirst | isRead
      · rw [← isFirst] at dash
        exact absurd dash (by simp)
      · exact isRead)
    have atMost := length_setAll_le []
      ((headers.map (rereadHeader values)).filter fun entry => entry.1 ≠ [])
    have filtered := List.length_filter_le (fun entry : Text × Text => entry.1 ≠ [])
      (headers.map (rereadHeader values))
    have lengths := congrArg List.length kept
    unfold resentRecord at lengths
    rw [headersEq, List.length_cons] at lengths
    rw [List.length_map] at filtered
    rw [List.length_nil, lengths] at atMost
    omega
  · rw [read, @requestOfState_snippetState { request with url, body := none } method.notEmpty,
      List.cons.injEq] at importedEq
    have sameBody : (materialize platform values imported).body = request.body := by rw [same]
    rw [← importedEq.1] at sameBody
    change materializeBody platform values _ = _ at sameBody
    rw [materializeBody_importedRequest] at sameBody
    apply hasBody
    rw [← sameBody]
    split <;> rfl

theorem comesBack_of_roundTrips (sendable : IsSendable request) (textual : IsTextual request)
    (noApostrophe : '\'' ∉ request.method)
    (comesBack : RoundTrips platform values request) : ComesBack values request := by
  have method := isMethod_of_roundTrips comesBack
  have urlFound := urlFound_of_roundTrips textual noApostrophe comesBack
  obtain ⟨imported, importedEq, same⟩ := comesBack
  rw [importCurl_curlSnippet textual method noApostrophe,
    readArguments_snippet method.notEmpty urlFound,
    requestOfState_snippetState method.notEmpty, List.cons.injEq] at importedEq
  rw [← importedEq.1, materialize_importedRequest_iff sendable textual method,
    resentHeaders_eq_iff sendable, materializeBody_eq_iff sendable textual method] at same
  obtain ⟨url, ⟨headers, declared⟩, body⟩ := same
  refine ⟨method, noApostrophe, urlFound, url, headers, ?_, ?_, declared⟩
  · intro value bodyEq
    exact ((resentText_eq_iff _ value).mp (body value bodyEq)).1
  · intro value bodyEq
    exact ((resentText_eq_iff _ value).mp (body value bodyEq)).2

end RoundTrip

/-- A materialised request comes back from its snippet if its parts survive, and unless
there is an apostrophe in its method, which no snippet quotes, only then. -/
theorem roundTrips_iff_comesBack (platform : Platform) (values : Text → Option Text)
    (request : ApiRequest) (textual : IsTextual (materialize platform values request)) :
    (ComesBack values (materialize platform values request) →
      RoundTrips platform values (materialize platform values request)) ∧
    ('\'' ∉ request.method →
      (RoundTrips platform values (materialize platform values request) ↔
        ComesBack values (materialize platform values request))) := by
  have sendable := materialize_isSendable platform values request
  refine ⟨roundTrips_of_comesBack sendable textual, ?_⟩
  intro noApostrophe
  exact ⟨comesBack_of_roundTrips sendable textual noApostrophe,
    roundTrips_of_comesBack sendable textual⟩

/-! ## Examples of both -/

/-- A platform for requests without query parameters and files. -/
def plainPlatform : Platform where
  appendQuery := fun _ _ => none
  setQuery := fun _ _ _ => none
  encodeMultipart := fun _ _ => ([], [])
  isBase64 := fun _ => false

def jsonRequest : ApiRequest :=
  { blankRequest with
    method := "POST".toList
    url := "https://api.test/items".toList
    headers := [⟨"Content-Type".toList, "application/json".toList, true⟩]
    bodyMode := .json
    body := "[1, 'two']".toList }

def formRequest : ApiRequest :=
  { blankRequest with
    method := "POST".toList
    url := "https://api.test/login".toList
    bodyMode := .formUrlencoded
    formBody := [⟨"name".toList, "a b".toList, true⟩] }

theorem jsonRequest_comesBack :
    ComesBack (fun _ => none) (materialize plainPlatform (fun _ => none) jsonRequest) := by
  have parts : materialize plainPlatform (fun _ => none) jsonRequest =
      ⟨"POST".toList, "https://api.test/items".toList,
        [("Content-Type".toList, "application/json".toList)],
        some (.text "[1, 'two']".toList)⟩ := rfl
  rw [parts]
  refine ⟨⟨by simp, by simp, by simp [isMethodCharacter]⟩, by simp, Or.inl (by simp), ?_, ?_, ?_,
    ?_, fun _ => ⟨_, List.mem_cons_self, rfl⟩⟩
  · exact resolveTemplate_of_notMem _ (by simp)
  · intro header headerMem
    rw [List.mem_singleton] at headerMem
    rw [headerMem]
    rfl
  · intro value bodyEq _
    obtain rfl : "[1, 'two']".toList = value := by simpa using bodyEq
    exact resolveTemplate_of_notMem _ (by simp)
  · intro value _ isForm
    exact absurd isForm (by decide)

theorem jsonRequest_roundTrips :
    RoundTrips plainPlatform (fun _ => none)
      (materialize plainPlatform (fun _ => none) jsonRequest) :=
  (roundTrips_iff_comesBack plainPlatform (fun _ => none) jsonRequest (by
    intro contentType dataBase64 replaced
    simp [materialize, materializeBody, jsonRequest])).1 jsonRequest_comesBack

theorem materialize_formRequest :
    materialize plainPlatform (fun _ => none) formRequest =
      ⟨"POST".toList, "https://api.test/login".toList,
        [("Content-Type".toList, "application/x-www-form-urlencoded".toList)],
        some (.text "name=a+b".toList)⟩ := rfl

/-- The space in a form is encoded as a plus sign, and the plus sign once more. -/
theorem formRequest_changes :
    normalizeHttpMethod formRequest.method [] = formRequest.method ∧
      IsTextual (materialize plainPlatform (fun _ => none) formRequest) ∧
      (∀ header ∈ (materialize plainPlatform (fun _ => none) formRequest).headers,
        trimText header.2 = header.2) ∧
      ¬RoundTrips plainPlatform (fun _ => none)
        (materialize plainPlatform (fun _ => none) formRequest) := by
  have sendable := materialize_isSendable plainPlatform (fun _ => none) formRequest
  have isPost : IsMethod formRequest.method :=
    ⟨by simp [formRequest], by simp [formRequest], by simp [formRequest, isMethodCharacter]⟩
  rw [materialize_formRequest] at sendable ⊢
  have textual : IsTextual ⟨"POST".toList, "https://api.test/login".toList,
      [("Content-Type".toList, "application/x-www-form-urlencoded".toList)],
      some (.text "name=a+b".toList)⟩ := by
    intro contentType dataBase64 replaced
    simp
  refine ⟨normalizeHttpMethod_of_isMethod isPost [], textual, ?_, ?_⟩
  · intro header headerMem
    rw [List.mem_singleton] at headerMem
    rw [headerMem]
    rfl
  intro comesBack
  have safe := comesBack_of_roundTrips sendable textual (by simp) comesBack
  rcases safe.form "name=a+b".toList rfl (by decide) with empty | plain
  · simp at empty
  · obtain ⟨name, field, isPiece, _, namePlain, fieldPlain⟩ :=
      plain "name=a+b".toList (by decide)
    have hasPlus : '+' ∈ name ++ '=' :: field := by
      rw [← isPiece]
      simp
    rw [List.mem_append, List.mem_cons] at hasPlus
    rcases hasPlus with inName | isEquals | inField
    · exact notMem_of_unreserved (by decide) namePlain inName
    · exact absurd isEquals (by decide)
    · exact notMem_of_unreserved (by decide) fieldPlain inField

end Brunomnia.Interchange
