import Brunomnia.Multipart.Delimiters

/-!
# Forms there and back

The mock server reads from a form of text parts an object that has for every name its value, or
the values in their order.
-/

namespace Brunomnia.Multipart

open Codegen Library

/-! ## Values of a name -/

def valuesOf (name : Text) (entries : List (Text × Text)) : List Json :=
  (entries.filter fun entry => entry.1 = name).map fun entry => .str (String.ofList entry.2)

/-- One value, or the array of several ones. -/
def joined : List Json → Option Json
  | [] => none
  | [value] => some value
  | values => some (.arr values)

/-- An object has for every name its values among the entries, and nothing else. -/
def HoldsFields (fields : List (String × Json)) (entries : List (Text × Text)) : Prop :=
  ∀ name, fields.lookup (String.ofList name) = joined (valuesOf name entries)

theorem valuesOf_append (name : Text) (entries : List (Text × Text)) (other value : Text) :
    valuesOf name (entries ++ [(other, value)]) =
      valuesOf name entries ++ if other = name then [.str (String.ofList value)] else [] := by
  rw [valuesOf, List.filter_append, List.map_append, valuesOf]
  congr 1
  by_cases same : other = name
  · simp [same]
  · simp [same]

theorem isText_of_mem_valuesOf {name : Text} {entries : List (Text × Text)} {value : Json}
    (valueMem : value ∈ valuesOf name entries) : ∃ text, value = .str text := by
  rcases List.mem_map.mp valueMem with ⟨entry, _, rfl⟩
  exact ⟨_, rfl⟩

/-- A value is added to the values of its name. -/
theorem HoldsFields.insert {fields : List (String × Json)} {entries : List (Text × Text)}
    (holds : HoldsFields fields entries) (name value : Text) :
    HoldsFields (insertRepeatedField fields name value) (entries ++ [(name, value)]) := by
  have inserted : ∃ content, insertRepeatedField fields name value =
      Json.assign fields (String.ofList name) content ∧
        some content = joined (valuesOf name entries ++ [.str (String.ofList value)]) := by
    have before := holds name
    rw [insertRepeatedField]
    rcases values : valuesOf name entries with _ | ⟨first, _ | ⟨second, rest⟩⟩
    · rw [values] at before
      simp only [before, joined]
      exact ⟨_, rfl, rfl⟩
    · have firstMem : first ∈ valuesOf name entries := by rw [values]; exact List.mem_cons_self
      rcases isText_of_mem_valuesOf firstMem with ⟨text, rfl⟩
      rw [values] at before
      simp only [before, joined]
      exact ⟨_, rfl, rfl⟩
    · rw [values] at before
      simp only [before, joined]
      exact ⟨_, rfl, rfl⟩
  rcases inserted with ⟨content, eq, contentEq⟩
  intro other
  rw [eq, Json.lookup_assign, valuesOf_append]
  by_cases same : other = name
  · rw [if_pos (congrArg String.ofList same), if_pos same.symm, contentEq, same]
  · have different : String.ofList other ≠ String.ofList name :=
      fun equal => same (String.ofList_injective equal)
    rw [if_neg different, if_neg (Ne.symm same), List.append_nil]
    exact holds other

theorem holdsFields_foldl {parts : List TextPart} {fields : List (String × Json)}
    {entries : List (Text × Text)} (holds : HoldsFields fields entries) :
    HoldsFields
      (parts.foldl (fun fields part => insertRepeatedField fields part.name part.value) fields)
      (entries ++ parts.map fun part => (part.name, part.value)) := by
  induction parts generalizing fields entries with
  | nil => simpa using holds
  | cons part parts ih =>
      have step := ih (holds.insert part.name part.value)
      rw [List.append_assoc] at step
      exact step

/-! ## Text parts -/

section Form

variable (values : Text → Option Text) (request : MultipartRequest)

def sentName (part : MultipartPart) : Text :=
  trimText (renderPart values request part.name)

def textPart (part : MultipartPart) : TextPart where
  name := sentName values request part
  contentType := replaceLineBreaks false
    (trimText (renderPart values request (part.contentType.getD [])))
  value := renderPart values request part.value

def enabledParts : List MultipartPart :=
  request.multipartBody.filter MultipartPart.enabled

/-- The enabled parts are texts with names that a header can hold, within the limits. -/
structure IsTextForm : Prop where
  texts : ∀ part ∈ enabledParts request, part.kind = .text
  named : ∀ part ∈ enabledParts request, sentName values request part ≠ []
  nameLine : ∀ part ∈ enabledParts request, IsLine (sentName values request part)
  noNul : ∀ part ∈ enabledParts request, Char.ofNat 0 ∉ sentName values request part
  partsFit : (enabledParts request).length ≤ maxMultipartParts
  namesFit : ∀ part ∈ enabledParts request,
    byteLength (sentName values request part) ≤ maxMultipartFieldNameBytes
  headersFit : ∀ part ∈ enabledParts request,
    byteLength (textPart values request part).headers ≤ maxMultipartHeaderBytes

end Form

theorem isLine_replaceLineBreaks (behindBreak : Bool) (text : Text) :
    IsLine (replaceLineBreaks behindBreak text) := by
  induction text generalizing behindBreak with
  | nil => exact ⟨by simp [replaceLineBreaks], by simp [replaceLineBreaks]⟩
  | cons letter text ih =>
      rw [replaceLineBreaks]
      split
      case isTrue =>
        split
        case isTrue => exact ih true
        case isFalse =>
          have space : IsLine [' '] := ⟨by decide, by decide⟩
          exact space.append (ih true)
      case isFalse plain =>
        rw [not_or] at plain
        have single : IsLine [letter] :=
          ⟨by simpa using Ne.symm plain.1, by simpa using Ne.symm plain.2⟩
        exact single.append (ih false)

theorem replaceLineBreaks_of_isLine {text : Text} (isLine : IsLine text) :
    replaceLineBreaks false text = text := by
  induction text with
  | nil => rfl
  | cons letter text ih =>
      rcases isLine with ⟨noReturn, noLineFeed⟩
      rw [List.mem_cons, not_or] at noReturn noLineFeed
      have plain : ¬(letter = '\r' ∨ letter = '\n') := by
        rintro (rfl | rfl)
        · exact noReturn.1 rfl
        · exact noLineFeed.1 rfl
      rw [replaceLineBreaks, if_neg plain, ih ⟨noReturn.2, noLineFeed.2⟩]

variable {values : Text → Option Text} {request : MultipartRequest}

namespace IsTextForm

theorem encodePart_fst (form : IsTextForm values request) {part : MultipartPart}
    (partMem : part ∈ enabledParts request) :
    (encodePart values request part).1 = some (textPart values request part).encoded := by
  have isText := form.texts part partMem
  have named := form.named part partMem
  have kept := replaceLineBreaks_of_isLine (form.nameLine part partMem)
  rw [sentName] at named kept
  simp only [encodePart, safeMultipartHeaderValue, kept, if_neg named, isText]
  rfl

theorem parts_eq (form : IsTextForm values request) :
    (encodedParts values request).filterMap Prod.fst =
      ((enabledParts request).map (textPart values request)).map TextPart.encoded := by
  rw [encodedParts, List.filterMap_map, List.map_map, ← List.filterMap_eq_map]
  apply List.filterMap_congr
  exact fun part partMem => form.encodePart_fst partMem

theorem acceptable (form : IsTextForm values request) :
    ∀ part ∈ (enabledParts request).map (textPart values request), Acceptable part := by
  intro part partMem
  rcases List.mem_map.mp partMem with ⟨source, sourceMem, rfl⟩
  exact
    { named := form.named source sourceMem
      nameLine := form.nameLine source sourceMem
      noNul := form.noNul source sourceMem
      nameFits := form.namesFit source sourceMem
      typeIsLine := isLine_replaceLineBreaks _ _
      headersFit := form.headersFit source sourceMem }

end IsTextForm

theorem partChunks_encoded (boundary : Text) (part : TextPart) :
    partChunks boundary part.encoded =
      utf8 (("--".toList ++ boundary) ++ ("\r\n".toList ++ part.text)) := by
  have blank : "\r\n\r\n".toList = "\r\n".toList ++ "\r\n".toList := by decide
  have type' : part.encoded.contentType = part.contentType := rfl
  have data : part.encoded.data = utf8 part.value := rfl
  unfold partChunks TextPart.text TextPart.headers TextPart.typeLine
  rewrite [type', data, blank]
  generalize "\r\n".toList = lineBreak, "--".toList = dashes, "Content-Type: ".toList = label,
    disposition part.encoded = header
  by_cases typed : part.contentType = []
  · simp only [if_pos typed, utf8_append, List.append_assoc, List.append_nil]
  · simp only [if_neg typed, utf8_append, List.append_assoc]

theorem bytes_eq (boundary : Text) (parts : List TextPart) :
    (parts.map TextPart.encoded).flatMap (partChunks boundary) ++
        utf8 ("--".toList ++ boundary ++ "--\r\n".toList) =
      utf8 (bodyText ("--".toList ++ boundary) parts) := by
  have chunks : (parts.map TextPart.encoded).flatMap (partChunks boundary) =
      utf8 (parts.flatMap fun part =>
        ("--".toList ++ boundary) ++ ("\r\n".toList ++ part.text)) := by
    rw [List.flatMap_map, utf8, List.flatMap_assoc]
    exact List.flatMap_congr fun part _ => partChunks_encoded boundary part
  rw [chunks, bodyText]
  exact (utf8_append _ _).symm

/-- The boundary of a form of texts occurs in no part, and the mock server reads from its body
the values of every name. -/
theorem parseMultipartFields_materializeMultipart (values : Text → Option Text)
    (request : MultipartRequest) (form : IsTextForm values request) :
    (∀ part ∈ enabledParts request,
      ¬(materializeMultipart values request).boundary <:+: (textPart values request part).text) ∧
    ∃ body fields,
      fromUtf8 (materializeMultipart values request).bytes = some body ∧
      parseMultipartFields body (materializeMultipart values request).boundary =
        some (.obj fields) ∧
      HoldsFields fields ((enabledParts request).map fun part =>
        (sentName values request part, renderPart values request part.value)) := by
  rcases multipartBoundary_isFree ((encodedParts values request).filterMap Prod.fst) with
    ⟨index, boundaryEq, free⟩
  have boundary : (materializeMultipart values request).boundary = boundaryText index := boundaryEq
  have bytes : (materializeMultipart values request).bytes =
      utf8 (bodyText ("--".toList ++ boundaryText index)
        ((enabledParts request).map (textPart values request))) := by
    rw [← bytes_eq, ← form.parts_eq, ← boundaryEq]
    rfl
  rw [form.parts_eq] at free
  have apart : ∀ part ∈ (enabledParts request).map (textPart values request),
      ¬boundaryText index <:+: part.text := fun part partMem => not_infix_text free partMem
  have apartDelimiter : ∀ part ∈ (enabledParts request).map (textPart values request),
      ¬"--".toList ++ boundaryText index <:+: part.text := by
    intro part partMem isInfix
    exact apart part partMem ((List.suffix_append _ _).isInfix.trans isInfix)
  have notEmpty : "--".toList ++ boundaryText index ≠ [] :=
    List.append_ne_nil_of_right_ne_nil _ (isUnquoted_boundaryText index).ne_nil
  have noLineFeed : '\n' ∉ "--".toList ++ boundaryText index := by
    rw [List.mem_append, not_or]
    exact ⟨by decide, (isUnquoted_boundaryText index).noLineFeed⟩
  generalize partsEq : (enabledParts request).map (textPart values request) = parts at *
  have fits : parts.length ≤ maxMultipartParts := by
    rw [← partsEq, List.length_map]
    exact form.partsFit
  have noPiece : ¬"--".toList ++ boundaryText index <:+: [] :=
    fun isInfix => notEmpty (List.infix_nil.mp isInfix)
  have first := findMultipartBoundary_bodyText notEmpty noLineFeed
    (show ([] ++ [] : Text) = [] ∨ _ from .inl rfl) (.inl rfl) noPiece parts
  simp only [List.nil_append, List.length_nil] at first
  have parsed : partsFrom (bodyText ("--".toList ++ boundaryText index) parts)
      ("--".toList ++ boundaryText index) (maxMultipartParts + 2)
      (lineAt ("--".toList ++ boundaryText index) [] parts) [] 0 =
        some (.obj (parts.foldl
          (fun fields part => insertRepeatedField fields part.name part.value) [])) :=
    partsFrom_bodyText notEmpty noLineFeed (partsEq ▸ form.acceptable) apartDelimiter (by omega)
      (by omega) [] []
  refine ⟨?_, bodyText ("--".toList ++ boundaryText index) parts,
    parts.foldl (fun fields part => insertRepeatedField fields part.name part.value) [],
    ?_, ?_, ?_⟩
  · intro part partMem
    rw [boundary]
    apply apart
    rw [← partsEq]
    exact List.mem_map_of_mem partMem
  · rw [bytes, fromUtf8_utf8]
  · rw [boundary, parseMultipartFields, first, Option.bind_some]
    exact parsed
  · have start : HoldsFields [] [] := fun _ => rfl
    have holds : HoldsFields _ ([] ++ parts.map fun part => (part.name, part.value)) :=
      holdsFields_foldl start
    rw [List.nil_append, ← partsEq, List.map_map] at holds
    rw [← partsEq]
    exact holds

/-- A name with signs, twice, and a value that looks like a boundary with a header. -/
def noteForm : MultipartRequest where
  renderBodyTemplates := false
  multipartBody :=
    [⟨" no\"te\\ ".toList, "\r\n----------------------------brunomnia-generated-0--\r\n".toList,
        true, .text, none, none, none⟩,
      ⟨"no\"te\\".toList, "\n\nContent-Disposition: form-data; name=\"x\"\r\n\r\n".toList, true,
        .text, some "text/plain".toList, none, none⟩]

theorem noteForm_isTextForm : IsTextForm (fun _ => none) noteForm where
  texts := by decide
  named := by decide
  nameLine := by
    intro part partMem
    have letters : ∀ part ∈ enabledParts noteForm,
        '\r' ∉ sentName (fun _ => none) noteForm part ∧
          '\n' ∉ sentName (fun _ => none) noteForm part := by decide
    exact ⟨(letters part partMem).1, (letters part partMem).2⟩
  noNul := by decide
  partsFit := by decide
  namesFit := by decide
  headersFit := by decide

/-- Both values are read, in their order. -/
theorem noteForm_fields :
    ∃ body fields,
      fromUtf8 (materializeMultipart (fun _ => none) noteForm).bytes = some body ∧
      parseMultipartFields body (materializeMultipart (fun _ => none) noteForm).boundary =
        some (.obj fields) ∧
      fields.lookup "no\"te\\" = some (.arr
        [.str "\r\n----------------------------brunomnia-generated-0--\r\n",
          .str "\n\nContent-Disposition: form-data; name=\"x\"\r\n\r\n"]) := by
  rcases (parseMultipartFields_materializeMultipart (fun _ => none) noteForm
    noteForm_isTextForm).2 with ⟨body, fields, decoded, parsed, holds⟩
  refine ⟨body, fields, decoded, parsed, ?_⟩
  have found := holds "no\"te\\".toList
  rw [String.ofList_toList] at found
  rw [found]
  decide

end Brunomnia.Multipart
