import Brunomnia.Codegen.Encoding
import Brunomnia.Multipart.Boundary
import Brunomnia.Multipart.Parser

/-!
# Reading what was written

The name of a part is read from its header as it was quoted, the value is what stands behind the
first blank line, and a line with the boundary is found behind every part.
-/

namespace Brunomnia.Multipart

open Codegen Library
open Streaming (textLines)

/-! ## Quoted names -/

def quoteLetter (letter : Char) : Text :=
  if letter = '\\' ∨ letter = '"' then ['\\', letter] else [letter]

theorem quoteMultipartParameter_eq (value : Text) :
    quoteMultipartParameter value = value.flatMap quoteLetter := by
  rw [quoteMultipartParameter, List.flatMap_assoc]
  apply List.flatMap_congr
  intro letter _
  by_cases backslash : letter = '\\'
  · simp [quoteLetter, backslash]
  · by_cases double : letter = '"'
    · simp [quoteLetter, double]
    · simp [quoteLetter, backslash, double]

theorem unescape_cons {letter : Char} (plain : letter ≠ '\\') (rest : Text) :
    unescape (letter :: rest) = (unescape rest).map fun text => letter :: text := by
  cases rest with
  | nil => simp [unescape, plain]
  | cons next rest => rw [unescape, if_neg plain]

theorem unescape_backslash (letter : Char) (rest : Text) :
    unescape ('\\' :: letter :: rest) = (unescape rest).map fun text => letter :: text := by
  rw [unescape, if_pos rfl]

theorem unescape_quoted (name : Text) : unescape (name.flatMap quoteLetter) = some name := by
  induction name with
  | nil => rfl
  | cons letter name ih =>
      rw [List.flatMap_cons, quoteLetter]
      split
      case isTrue => rw [List.cons_append, List.singleton_append, unescape_backslash, ih]; rfl
      case isFalse plain =>
        rw [not_or] at plain
        rw [List.singleton_append, unescape_cons plain.1, ih]
        rfl

theorem parametersFrom_quoted (target segment name more : Text) :
    parametersFrom target segment true false (name.flatMap quoteLetter ++ more) =
      parametersFrom target (segment ++ name.flatMap quoteLetter) true false more := by
  induction name generalizing segment with
  | nil => simp
  | cons letter name ih =>
      rw [List.flatMap_cons, List.append_assoc, quoteLetter]
      split
      case isTrue special =>
        have escape : parametersFrom target segment true false
            (['\\', letter] ++ (name.flatMap quoteLetter ++ more)) =
          parametersFrom target (segment ++ ['\\'] ++ [letter]) true false
            (name.flatMap quoteLetter ++ more) := by
          simp [parametersFrom]
        rw [escape, ih]
        simp
      case isFalse plain =>
        rw [not_or] at plain
        have step : parametersFrom target segment true false
            ([letter] ++ (name.flatMap quoteLetter ++ more)) =
          parametersFrom target (segment ++ [letter]) true false
            (name.flatMap quoteLetter ++ more) := by
          simp [parametersFrom, plain]
        rw [step, ih]
        simp

theorem parametersFrom_plain (target segment : Text) {text : Text}
    (plain : ∀ letter ∈ text, letter ≠ '"' ∧ letter ≠ ';') (more : Text) :
    parametersFrom target segment false false (text ++ more) =
      parametersFrom target (segment ++ text) false false more := by
  induction text generalizing segment with
  | nil => simp
  | cons letter text ih =>
      rw [List.forall_mem_cons] at plain
      rw [List.cons_append, parametersFrom]
      simp only [plain.1.1, plain.1.2, Bool.false_eq_true, if_false, false_and, and_false]
      rw [ih _ plain.2]
      simp

/-! ## Trimming -/

theorem rustTrim_eq {first last : Char} (middle : Text)
    (firstPlain : isRustWhitespace first = false) (lastPlain : isRustWhitespace last = false) :
    rustTrim (first :: middle ++ [last]) = first :: middle ++ [last] := by
  simp [rustTrim, firstPlain, lastPlain]

theorem rustTrim_space (text : Text) : rustTrim (' ' :: text) = rustTrim text := by
  have blank : isRustWhitespace ' ' = true := by decide
  rw [rustTrim, List.dropWhile_cons_of_pos blank, rustTrim]

/-! ## The header of a part -/

/-- The disposition of a text part behind its colon. -/
def dispositionValue (name : Text) : Text :=
  "form-data".toList ++ ';' :: (" name=".toList ++ '"' :: (name.flatMap quoteLetter ++ ['"']))

theorem headerParameter_dispositionValue (name : Text) :
    headerParameter (dispositionValue name) "name".toList = some name := by
  have split : splitFirst ';' (dispositionValue name) =
      some ("form-data".toList, " name=".toList ++ '"' :: (name.flatMap quoteLetter ++ ['"'])) := by
    have notMem : ';' ∉ "form-data".toList := by decide
    exact splitFirst_append notMem _
  have plain : ∀ letter ∈ " name=".toList, letter ≠ '"' ∧ letter ≠ ';' := by simp
  have opened : ∀ segment rest, parametersFrom "name".toList segment false false ('"' :: rest) =
      parametersFrom "name".toList (segment ++ ['"']) true false rest := by
    intro segment rest
    simp [parametersFrom]
  have closed : ∀ segment, parametersFrom "name".toList segment true false ['"'] =
      (segmentParameter "name".toList (segment ++ ['"'])).join := by
    intro segment
    simp [parametersFrom]
  have trimmed : rustTrim (" name=".toList ++ ['"'] ++ name.flatMap quoteLetter ++ ['"']) =
      "name".toList ++ '=' :: (['"'] ++ name.flatMap quoteLetter ++ ['"']) := by
    have inner := rustTrim_eq ("ame=\"".toList ++ name.flatMap quoteLetter)
      (show isRustWhitespace 'n' = false by decide)
      (show isRustWhitespace '"' = false by decide)
    have spaced := rustTrim_space ("name=".toList ++ ['"'] ++ name.flatMap quoteLetter ++ ['"'])
    simp only [String.reduceToList] at inner spaced ⊢
    simpa using spaced.trans (by simpa using inner)
  have segment : segmentParameter "name".toList
      (" name=".toList ++ ['"'] ++ name.flatMap quoteLetter ++ ['"']) = some (some name) := by
    have notMem : '=' ∉ "name".toList := by decide
    have quotes := rustTrim_eq (name.flatMap quoteLetter)
      (show isRustWhitespace '"' = false by decide)
      (show isRustWhitespace '"' = false by decide)
    have sameName : lowerText (rustTrim "name".toList) = lowerText "name".toList := by
      decide
    have value : parameterValue (['"'] ++ name.flatMap quoteLetter ++ ['"']) = some name := by
      have last : (['"'] ++ name.flatMap quoteLetter ++ ['"']).getLast? = some '"' :=
        List.getLast?_concat
      rw [parameterValue, if_pos ⟨rfl, last, by simp⟩]
      simpa using unescape_quoted name
    rw [segmentParameter, trimmed, splitFirst_append notMem]
    simp only [sameName, if_true]
    rw [← value]
    congr 1
    simpa using congrArg parameterValue quotes
  rw [headerParameter, split, Option.bind_some, parametersFrom_plain _ _ plain, opened,
    parametersFrom_quoted, closed]
  simpa using congrArg Option.join segment

/-! ## A part -/

/-- A text without line breaks. -/
structure IsLine (text : Text) : Prop where
  noReturn : '\r' ∉ text
  noLineFeed : '\n' ∉ text

theorem IsLine.append {left right : Text} (leftLine : IsLine left) (rightLine : IsLine right) :
    IsLine (left ++ right) where
  noReturn := by
    rw [List.mem_append, not_or]
    exact ⟨leftLine.noReturn, rightLine.noReturn⟩
  noLineFeed := by
    rw [List.mem_append, not_or]
    exact ⟨leftLine.noLineFeed, rightLine.noLineFeed⟩

/-- A text part in the characters of its header and its value. -/
structure TextPart where
  name : Text
  contentType : Text
  value : Text

namespace TextPart

def encoded (part : TextPart) : EncodedMultipartPart where
  contentType := part.contentType
  data := utf8 part.value
  fileName := none
  name := part.name

def typeLine (part : TextPart) : Text :=
  "Content-Type: ".toList ++ part.contentType

def headers (part : TextPart) : Text :=
  disposition part.encoded ++
    if part.contentType = [] then [] else "\r\n".toList ++ part.typeLine

def text (part : TextPart) : Text :=
  part.headers ++ ("\r\n\r\n".toList ++ part.value) ++ "\r\n".toList

end TextPart

theorem isLine_quoted {name : Text} (isLine : IsLine name) : IsLine (name.flatMap quoteLetter) := by
  have letters : ∀ letter ∈ name.flatMap quoteLetter, letter ∈ name ∨ letter = '\\' := by
    intro letter letterMem
    rcases List.mem_flatMap.mp letterMem with ⟨source, sourceMem, inQuoted⟩
    rw [quoteLetter] at inQuoted
    split at inQuoted
    case isTrue =>
      rcases List.mem_cons.mp inQuoted with rfl | same
      · exact .inr rfl
      · rw [List.mem_singleton.mp same]
        exact .inl sourceMem
    case isFalse =>
      rw [List.mem_singleton.mp inQuoted]
      exact .inl sourceMem
  constructor
  · intro letterMem
    exact (letters _ letterMem).elim isLine.noReturn (by decide)
  · intro letterMem
    exact (letters _ letterMem).elim isLine.noLineFeed (by decide)

theorem disposition_encoded (part : TextPart) :
    disposition part.encoded =
      "Content-Disposition".toList ++ ':' :: ' ' :: dispositionValue part.name := by
  have start : "Content-Disposition: form-data; name=\"".toList =
      "Content-Disposition".toList ++ ':' :: ' ' :: ("form-data".toList ++ ';' ::
        (" name=".toList ++ ['"'])) := by decide
  have name : part.encoded.name = part.name := rfl
  have noFile : part.encoded.fileName = none := rfl
  unfold disposition
  rw [start, quoteMultipartParameter_eq, name, noFile]
  unfold dispositionValue
  simp only [List.append_assoc, List.cons_append, List.nil_append, List.append_nil]

theorem isLine_disposition {part : TextPart} (isLine : IsLine part.name) :
    IsLine (disposition part.encoded) := by
  have quoted := isLine_quoted isLine
  have fixed : ∀ text ∈ ["Content-Disposition: form-data; name=\"".toList, ['"']], IsLine text := by
    have noReturn : ∀ text ∈ ["Content-Disposition: form-data; name=\"".toList, ['"']],
        '\r' ∉ text ∧ '\n' ∉ text := by decide
    exact fun text textMem => ⟨(noReturn text textMem).1, (noReturn text textMem).2⟩
  have name : part.encoded.name = part.name := rfl
  have noFile : part.encoded.fileName = none := rfl
  unfold disposition
  rw [quoteMultipartParameter_eq, name, noFile]
  simp only [List.append_nil]
  exact ((fixed _ List.mem_cons_self).append quoted).append
    (fixed _ (List.mem_cons_of_mem _ List.mem_cons_self))

theorem isLine_typeLine {part : TextPart} (isLine : IsLine part.contentType) :
    IsLine part.typeLine := by
  have fixed : '\r' ∉ "Content-Type: ".toList ∧ '\n' ∉ "Content-Type: ".toList := by
    decide
  exact IsLine.append ⟨fixed.1, fixed.2⟩ isLine

theorem textLines_headers {part : TextPart} (nameLine : IsLine part.name) :
    ∃ lines, textLines part.headers = disposition part.encoded :: lines := by
  have isLine := isLine_disposition nameLine
  by_cases typed : part.contentType = []
  · have notEmpty : disposition part.encoded ≠ [] := by
      rw [disposition_encoded]
      exact List.cons_ne_nil _ _
    refine ⟨[], ?_⟩
    rw [TextPart.headers, if_pos typed, List.append_nil, textLines,
      splitEnds_of_notMem isLine.noLineFeed]
    simp [notEmpty]
  · have returned : '\n' ∉ disposition part.encoded ++ ['\r'] := by
      rw [List.mem_append, not_or]
      exact ⟨isLine.noLineFeed, by decide⟩
    have broken : disposition part.encoded ++ ("\r\n".toList ++ part.typeLine) =
        (disposition part.encoded ++ ['\r']) ++ '\n' :: part.typeLine := by
      simp
    rw [TextPart.headers, if_neg typed, broken, textLines, splitEnds_append,
      splitEnds_of_notMem returned]
    simp [Streaming.stripCarriageReturn]

theorem dispositionValue_eq (name : Text) :
    ∃ middle, dispositionValue name = 'f' :: middle ++ ['"'] := by
  have start : "form-data".toList = 'f' :: "orm-data".toList := by decide
  refine ⟨"orm-data".toList ++ ';' :: (" name=".toList ++ '"' :: name.flatMap quoteLetter), ?_⟩
  unfold dispositionValue
  rw [start]
  simp only [List.append_assoc, List.cons_append]

theorem dispositionOf_headers {part : TextPart} (nameLine : IsLine part.name) :
    dispositionOf part.headers = some (dispositionValue part.name) := by
  rcases textLines_headers nameLine with ⟨lines, linesEq⟩
  rcases dispositionValue_eq part.name with ⟨middle, valueEq⟩
  have trimmed : rustTrim (' ' :: dispositionValue part.name) = dispositionValue part.name := by
    rw [rustTrim_space, valueEq]
    exact rustTrim_eq middle (by decide) (by decide)
  have ends : ((disposition part.encoded).reverse.dropWhile fun letter => letter = '\r').reverse =
      disposition part.encoded := by
    rw [disposition_encoded, valueEq, ← List.cons_append, ← List.cons_append, ← List.append_assoc,
      List.reverse_concat, List.dropWhile_cons_of_neg (by decide)]
    rw [List.reverse_cons, List.reverse_reverse]
  have notMem : ':' ∉ "Content-Disposition".toList := by decide
  have sameName : lowerText (rustTrim "Content-Disposition".toList) =
      "content-disposition".toList := by decide
  rw [dispositionOf, linesEq, List.findSome?_cons, ends, disposition_encoded,
    splitFirst_append notMem, Option.bind_some]
  simp only [sameName, if_true, trimmed]

/-- What the parser asks of a part. -/
structure Acceptable (part : TextPart) : Prop where
  named : part.name ≠ []
  nameLine : IsLine part.name
  noNul : Char.ofNat 0 ∉ part.name
  nameFits : byteLength part.name ≤ maxMultipartFieldNameBytes
  typeIsLine : IsLine part.contentType
  headersFit : byteLength part.headers ≤ maxMultipartHeaderBytes

theorem position_blankLine (more : Text) :
    position "\r\n\r\n".toList ("\r\n\r\n".toList ++ more) = some 0 := by
  have start : "\r\n\r\n".toList ++ more = '\r' :: ("\n\r\n".toList ++ more) := rfl
  have isPrefix : "\r\n\r\n".toList <+: '\r' :: ("\n\r\n".toList ++ more) :=
    ⟨more, rfl⟩
  rw [start, position, if_pos isPrefix]

theorem position_lineBreak (more : Text) :
    position "\r\n\r\n".toList ("\r\n".toList ++ 'C' :: more) =
      (position "\r\n\r\n".toList ('C' :: more)).map (· + 2) := by
  have start : "\r\n".toList ++ 'C' :: more = '\r' :: '\n' :: 'C' :: more := rfl
  have needle : "\r\n\r\n".toList = ['\r', '\n', '\r', '\n'] := by decide
  have notHere : ¬"\r\n\r\n".toList <+: '\r' :: '\n' :: 'C' :: more := by
    simp [needle]
  have notNext : ¬"\r\n\r\n".toList <+: '\n' :: 'C' :: more := by
    simp [needle]
  rw [start, position, if_neg notHere, position, if_neg notNext, Option.map_map]
  rfl

/-- The headers end at the first blank line. -/
theorem splitOnce_headers {part : TextPart} (acceptable : Acceptable part) :
    splitOnce "\r\n\r\n".toList (part.headers ++ ("\r\n\r\n".toList ++ part.value)) =
      some (part.headers, part.value) := by
  have isLine := isLine_disposition acceptable.nameLine
  have needle : "\r\n\r\n".toList = '\r' :: "\n\r\n".toList := by decide
  have found : position "\r\n\r\n".toList
      (part.headers ++ ("\r\n\r\n".toList ++ part.value)) = some part.headers.length := by
    have skip : ∀ {text : Text}, IsLine text → ∀ more,
        position "\r\n\r\n".toList (text ++ more) =
          (position "\r\n\r\n".toList more).map (· + text.length) := by
      intro text line more
      rw [needle]
      exact position_append_of_notMem line.noReturn more
    by_cases typed : part.contentType = []
    · rw [TextPart.headers, if_pos typed, List.append_nil, skip isLine, position_blankLine]
      simp
    · have typeLine := isLine_typeLine acceptable.typeIsLine
      have start : ∃ more, part.typeLine = 'C' :: more := ⟨_, rfl⟩
      rcases start with ⟨more, typeEq⟩
      rw [TextPart.headers, if_neg typed, List.append_assoc, skip isLine, List.append_assoc, typeEq,
        List.cons_append, position_lineBreak, ← List.cons_append, ← typeEq, skip typeLine,
        position_blankLine]
      simp
      omega
  have length : "\r\n\r\n".toList.length = 4 := rfl
  rw [splitOnce, found, Option.map_some, List.take_left]
  congr 2
  rw [← List.append_assoc, List.drop_append_of_le_length (by simp)]
  simp

theorem multipartPart_text {part : TextPart} (acceptable : Acceptable part) :
    multipartPart (part.headers ++ ("\r\n\r\n".toList ++ part.value)) =
      some (part.name, part.value) := by
  have refused : ¬(part.name = [] ∨ byteLength part.name > maxMultipartFieldNameBytes ∨
      '\r' ∈ part.name ∨ '\n' ∈ part.name ∨ Char.ofNat 0 ∈ part.name) := by
    rintro (empty | long | returned | broken | nul)
    · exact acceptable.named empty
    · exact absurd acceptable.nameFits (Nat.not_le.mpr long)
    · exact acceptable.nameLine.noReturn returned
    · exact acceptable.nameLine.noLineFeed broken
    · exact acceptable.noNul nul
  rw [multipartPart, splitOnce_headers acceptable, Option.orElse_eq_orElse, Option.orElse_eq_or,
    Option.some_or, Option.bind_some]
  simp only [gt_iff_lt, if_neg (Nat.not_lt.mpr acceptable.headersFit),
    dispositionOf_headers acceptable.nameLine, Option.bind_some,
    headerParameter_dispositionValue]
  exact if_neg refused

theorem stripLineEnd_text (part : TextPart) :
    stripLineEnd part.text = part.headers ++ ("\r\n\r\n".toList ++ part.value) := by
  have ends : "\r\n".toList <:+ part.text := ⟨_, rfl⟩
  have letters : "\r\n".toList = ['\r'] ++ ['\n'] := by decide
  rw [stripLineEnd, if_pos ends, TextPart.text, letters, ← List.append_assoc,
    List.dropLast_concat, List.dropLast_concat]

end Brunomnia.Multipart
