import Brunomnia.Multipart.Reading

/-!
# The lines of a body

A boundary that occurs in no text of a part occurs in no part, its header included. The parser
then finds exactly the lines that were written, and reads part after part.
-/

namespace Brunomnia.Multipart

open Codegen Library

/-! ## Parts without the boundary -/

theorem prefix_of_quoted {pattern name : Text} (noBackslash : '\\' ∉ pattern)
    (isPrefix : pattern <+: name.flatMap quoteLetter) : pattern <+: name := by
  induction name generalizing pattern with
  | nil => exact isPrefix
  | cons letter name ih =>
      cases pattern with
      | nil => exact List.nil_prefix
      | cons first pattern =>
          rw [List.mem_cons, not_or] at noBackslash
          rw [List.flatMap_cons, quoteLetter] at isPrefix
          split at isPrefix
          case isTrue =>
            exact absurd (List.cons_prefix_cons.mp isPrefix).1.symm noBackslash.1
          case isFalse =>
            rcases List.cons_prefix_cons.mp isPrefix with ⟨rfl, rest⟩
            exact List.cons_prefix_cons.mpr ⟨rfl, ih noBackslash.2 rest⟩

theorem infix_of_cons {pattern text : Text} {sign : Char} (notEmpty : pattern ≠ [])
    (notMem : sign ∉ pattern) (isInfix : pattern <:+: sign :: text) : pattern <:+: text := by
  have inText : pattern <:+: [] ++ sign :: text := isInfix
  rcases infix_of_append_cons notMem inText with inNothing | inRest
  · exact absurd (List.infix_nil.mp inNothing) notEmpty
  · exact inRest

/-- Quoting adds only signs, so that no text without them comes up. -/
theorem infix_of_quoted {pattern name : Text} (notEmpty : pattern ≠ [])
    (noBackslash : '\\' ∉ pattern) (noQuote : '"' ∉ pattern)
    (isInfix : pattern <:+: name.flatMap quoteLetter) : pattern <:+: name := by
  induction name with
  | nil => exact isInfix
  | cons letter name ih =>
      by_cases special : letter = '\\' ∨ letter = '"'
      · have notMem : letter ∉ pattern := by
          rcases special with rfl | rfl
          · exact noBackslash
          · exact noQuote
        rw [List.flatMap_cons, quoteLetter, if_pos special] at isInfix
        have behind := infix_of_cons notEmpty notMem (infix_of_cons notEmpty noBackslash isInfix)
        exact (ih behind).trans (List.suffix_cons letter name).isInfix
      · have quoted : quoteLetter letter = [letter] := if_neg special
        rw [List.flatMap_cons, quoted, List.singleton_append] at isInfix
        rcases List.infix_cons_iff.mp isInfix with isPrefix | inRest
        · apply List.IsPrefix.isInfix
          apply prefix_of_quoted noBackslash
          rw [List.flatMap_cons, quoted]
          exact isPrefix
        · exact (ih inRest).trans (List.suffix_cons letter name).isInfix

/-- A text without the signs and breaks of a header, and with a letter that its words lack. -/
structure IsUnquoted (pattern : Text) : Prop where
  noReturn : '\r' ∉ pattern
  noLineFeed : '\n' ∉ pattern
  noQuote : '"' ∉ pattern
  noBackslash : '\\' ∉ pattern
  noSpace : ' ' ∉ pattern
  hasB : 'b' ∈ pattern

theorem isUnquoted_boundaryText (index : ℕ) : IsUnquoted (boundaryText index) where
  noReturn := notMem_boundaryText (by decide) index
  noLineFeed := notMem_boundaryText (by decide) index
  noQuote := notMem_boundaryText (by decide) index
  noBackslash := notMem_boundaryText (by decide) index
  noSpace := notMem_boundaryText (by decide) index
  hasB := b_mem_boundaryText index

theorem IsUnquoted.ne_nil {pattern : Text} (unquoted : IsUnquoted pattern) : pattern ≠ [] :=
  List.ne_nil_of_mem unquoted.hasB

theorem IsUnquoted.not_infix {pattern text : Text} (unquoted : IsUnquoted pattern)
    (notMem : 'b' ∉ text) : ¬pattern <:+: text :=
  fun isInfix => notMem (isInfix.subset unquoted.hasB)

/-- What is a piece of the headers is a piece of the name or of the content type. -/
theorem infix_of_headers {pattern : Text} {part : TextPart} (unquoted : IsUnquoted pattern)
    (isInfix : pattern <:+: part.headers) :
    pattern <:+: part.name ∨ pattern <:+: part.contentType := by
  have start : "Content-Disposition".toList ++ ':' :: ' ' :: ("form-data".toList ++ ';' ::
      " name=".toList) = "Content-Disposition: form-data; name=".toList := by decide
  have dispositionEq : disposition part.encoded =
      "Content-Disposition: form-data; name=".toList ++
        '"' :: (part.name.flatMap quoteLetter ++ '"' :: []) := by
    rw [disposition_encoded, ← start]
    unfold dispositionValue
    simp only [List.append_assoc, List.cons_append]
  have inDisposition : pattern <:+: disposition part.encoded → pattern <:+: part.name := by
    intro inside
    rw [dispositionEq] at inside
    rcases infix_of_append_cons unquoted.noQuote inside with inStart | inside
    · exact absurd inStart (unquoted.not_infix (by decide))
    rcases infix_of_append_cons unquoted.noQuote inside with inName | inNothing
    · exact infix_of_quoted unquoted.ne_nil unquoted.noBackslash unquoted.noQuote inName
    · exact absurd inNothing (unquoted.not_infix (by decide))
  by_cases typed : part.contentType = []
  · rw [TextPart.headers, if_pos typed, List.append_nil] at isInfix
    exact .inl (inDisposition isInfix)
  · have typeEq : "\r\n".toList ++ part.typeLine =
        '\r' :: '\n' :: ("Content-Type:".toList ++ ' ' :: part.contentType) := rfl
    rw [TextPart.headers, if_neg typed, typeEq] at isInfix
    rcases infix_of_append_cons unquoted.noReturn isInfix with inside | inside
    · exact .inl (inDisposition inside)
    have inLine := infix_of_cons unquoted.ne_nil unquoted.noLineFeed inside
    rcases infix_of_append_cons unquoted.noSpace inLine with inStart | inType
    · exact absurd inStart (unquoted.not_infix (by decide))
    · exact .inr inType

theorem infix_of_text {pattern : Text} {part : TextPart} (unquoted : IsUnquoted pattern)
    (isInfix : pattern <:+: part.text) :
    pattern <:+: part.name ∨ pattern <:+: part.contentType ∨ pattern <:+: part.value := by
  have textEq : part.text =
      (part.headers ++ '\r' :: '\n' :: '\r' :: '\n' :: part.value) ++ '\r' :: '\n' :: [] := rfl
  rw [textEq] at isInfix
  rcases infix_of_append_cons unquoted.noReturn isInfix with inside | atEnd
  · rcases infix_of_append_cons unquoted.noReturn inside with inHeaders | behind
    · exact (infix_of_headers unquoted inHeaders).imp id .inl
    · right
      right
      apply infix_of_cons unquoted.ne_nil unquoted.noLineFeed
      apply infix_of_cons unquoted.ne_nil unquoted.noReturn
      exact infix_of_cons unquoted.ne_nil unquoted.noLineFeed behind
  · exact absurd atEnd (unquoted.not_infix (by decide))

theorem not_infix_text {index : ℕ} {parts : List TextPart}
    (free : IsFree (collisionInputs (parts.map TextPart.encoded)) (boundaryText index))
    {part : TextPart} (partMem : part ∈ parts) : ¬boundaryText index <:+: part.text := by
  intro isInfix
  have inputs : ∀ input ∈ [utf8 part.value, utf8 (part.name ++ '\n' :: [] ++
      '\n' :: part.contentType)], ¬utf8 (boundaryText index) <:+: input := by
    intro input inputMem
    apply free
    apply List.mem_flatMap.mpr ⟨part.encoded, List.mem_map_of_mem partMem, inputMem⟩
  simp only [List.forall_mem_cons] at inputs
  rcases infix_of_text (isUnquoted_boundaryText index) isInfix with inName | inType | inValue
  · apply inputs.2.1
    apply isInfix_utf8 (inName.trans _)
    rw [List.append_assoc]
    exact (List.prefix_append _ _).isInfix
  · apply inputs.2.1
    apply isInfix_utf8 (inType.trans _)
    exact ((List.suffix_cons '\n' part.contentType).trans (List.suffix_append _ _)).isInfix
  · exact inputs.1 (isInfix_utf8 inValue)

/-! ## The lines with the boundary -/

/-- A body from the first delimiter on. -/
def bodyText (delimiter : Text) (parts : List TextPart) : Text :=
  (parts.flatMap fun part => delimiter ++ ("\r\n".toList ++ part.text)) ++
    (delimiter ++ "--\r\n".toList)

/-- The line that a body begins with, behind other text. -/
def lineAt (delimiter before : Text) : List TextPart → MultipartBoundary
  | [] => ⟨before.length, before.length + delimiter.length + 4, true⟩
  | _ :: _ => ⟨before.length, before.length + delimiter.length + 2, false⟩

theorem bodyText_cons (delimiter : Text) (part : TextPart) (parts : List TextPart) :
    bodyText delimiter (part :: parts) =
      delimiter ++ ("\r\n".toList ++ (part.text ++ bodyText delimiter parts)) := by
  simp only [bodyText, List.flatMap_cons, List.append_assoc]

theorem delimiterLine_bodyText (delimiter before : Text) (parts : List TextPart) :
    delimiterLine (before ++ bodyText delimiter parts) delimiter before.length =
      some ((lineAt delimiter before parts).afterLine,
        (lineAt delimiter before parts).closing) := by
  have suffix : ∀ rest, (before ++ (delimiter ++ rest)).drop (before.length + delimiter.length) =
      rest := by
    intro rest
    rw [← List.append_assoc, ← List.length_append, List.drop_left]
  cases parts with
  | nil =>
      have body : bodyText delimiter [] = delimiter ++ "--\r\n".toList := rfl
      rw [delimiterLine, body, suffix]
      rfl
  | cons part parts =>
      have returned : "\r\n".toList <+: "\r\n".toList ++ (part.text ++ bodyText delimiter parts) :=
        List.prefix_append _ _
      have notClosing :
          ¬"--".toList <+: "\r\n".toList ++ (part.text ++ bodyText delimiter parts) := by
        intro closing
        have same := (List.prefix_of_prefix_length_le closing returned (by decide)).eq_of_length rfl
        exact absurd same (by decide)
      rw [delimiterLine, bodyText_cons, suffix]
      simp only [if_neg notClosing, if_pos returned]
      rfl

/-- The next delimiter behind a text that does not have it. -/
theorem findMultipartBoundary_bodyText {delimiter : Text} (notEmpty : delimiter ≠ [])
    (noLineFeed : '\n' ∉ delimiter) {front between : Text}
    (lineStart : front ++ between = [] ∨ (front ++ between).getLast? = some '\n')
    (ends : between = [] ∨ between.getLast? = some '\n') (apart : ¬delimiter <:+: between)
    (parts : List TextPart) :
    findMultipartBoundary ((front ++ between) ++ bodyText delimiter parts) delimiter front.length =
      some (lineAt delimiter (front ++ between) parts) := by
  have begins : ∃ rest, bodyText delimiter parts = delimiter ++ rest := by
    cases parts with
    | nil => exact ⟨_, rfl⟩
    | cons part parts => exact ⟨_, bodyText_cons delimiter part parts⟩
  rcases begins with ⟨rest, bodyEq⟩
  have lastNotMem : ∀ letter, between.getLast? = some letter → letter ∉ delimiter := by
    intro letter last
    rcases ends with rfl | isLineFeed
    · cases last
    · rw [isLineFeed, Option.some.injEq] at last
      rw [← last]
      exact noLineFeed
  have found : position delimiter (((front ++ between) ++ bodyText delimiter parts).drop
      front.length) = some between.length := by
    rw [List.append_assoc, List.drop_left, bodyEq]
    exact position_append_of_not_infix notEmpty lastNotMem apart rest
  have start : (lineAt delimiter (front ++ between) parts).start = (front ++ between).length := by
    cases parts <;> rfl
  have atLineStart : (front ++ between).length = 0 ∨
      ((front ++ between) ++ bodyText delimiter parts)[(front ++ between).length - 1]? =
        some '\n' := by
    rcases lineStart with empty | last
    · exact .inl (by rw [empty]; rfl)
    · right
      have positive : 0 < (front ++ between).length := by
        apply List.length_pos_of_ne_nil
        rintro empty
        rw [empty] at last
        cases last
      rw [List.getElem?_append_left (by omega), ← List.getLast?_eq_getElem?]
      exact last
  rw [findMultipartBoundary, findFrom, found]
  simp only [← List.length_append, delimiterLine_bodyText, if_pos atLineStart]
  rw [← start]

/-- The parser reads part after part. -/
theorem partsFrom_bodyText {delimiter : Text} (notEmpty : delimiter ≠ [])
    (noLineFeed : '\n' ∉ delimiter) {parts : List TextPart}
    (acceptable : ∀ part ∈ parts, Acceptable part)
    (apart : ∀ part ∈ parts, ¬delimiter <:+: part.text) {fuel partCount : ℕ}
    (enough : parts.length < fuel) (few : partCount + parts.length ≤ maxMultipartParts)
    (before : Text) (fields : List (String × Json)) :
    partsFrom (before ++ bodyText delimiter parts) delimiter fuel (lineAt delimiter before parts)
        fields partCount =
      some (.obj (parts.foldl
        (fun fields part => insertRepeatedField fields part.name part.value) fields)) := by
  induction parts generalizing fuel partCount before fields with
  | nil =>
      cases fuel with
      | zero => exact absurd enough (Nat.not_lt_zero _)
      | succ fuel => rfl
  | cons part parts ih =>
      rw [List.forall_mem_cons] at acceptable apart
      rw [List.length_cons] at enough few
      cases fuel with
      | zero => exact absurd enough (Nat.not_lt_zero _)
      | succ fuel =>
          have afterLine : (lineAt delimiter before (part :: parts)).afterLine =
              (before ++ (delimiter ++ "\r\n".toList)).length := by
            simp [lineAt, Nat.add_assoc]
          have open' : (lineAt delimiter before (part :: parts)).closing = false := rfl
          have textEnds : ∀ front : Text, (front ++ part.text).getLast? = some '\n' := by
            intro front
            have split : front ++ part.text = (front ++ (part.headers ++ ("\r\n\r\n".toList ++
                part.value) ++ ['\r'])) ++ ['\n'] := by
              have last : "\r\n".toList = ['\r'] ++ ['\n'] := by decide
              rw [TextPart.text, last]
              simp only [List.append_assoc]
            rw [split, List.getLast?_concat]
          have body : before ++ bodyText delimiter (part :: parts) =
              ((before ++ (delimiter ++ "\r\n".toList)) ++ part.text) ++
                bodyText delimiter parts := by
            rw [bodyText_cons]
            simp only [List.append_assoc]
          have found := findMultipartBoundary_bodyText notEmpty noLineFeed
            (.inr (textEnds (before ++ (delimiter ++ "\r\n".toList))))
            (.inr (textEnds [])) apart.1 parts
          have next : (lineAt delimiter ((before ++ (delimiter ++ "\r\n".toList)) ++ part.text)
              parts).start = ((before ++ (delimiter ++ "\r\n".toList)) ++ part.text).length := by
            cases parts <;> rfl
          have section' : ((((before ++ (delimiter ++ "\r\n".toList)) ++ part.text) ++
              bodyText delimiter parts).drop (before ++ (delimiter ++ "\r\n".toList)).length).take
                (((before ++ (delimiter ++ "\r\n".toList)) ++ part.text).length -
                  (before ++ (delimiter ++ "\r\n".toList)).length) = part.text := by
            rw [List.append_assoc (before ++ (delimiter ++ "\r\n".toList)), List.drop_left,
              List.length_append, Nat.add_sub_cancel_left, List.take_left]
          have inLimit : ¬partCount + 1 > maxMultipartParts := by omega
          rw [partsFrom, open', body, afterLine, found]
          simp only [Bool.false_eq_true, if_false, Option.bind_some, next, section',
            stripLineEnd_text, multipartPart_text acceptable.1, if_neg inLimit]
          rw [ih acceptable.2 apart.2 (by omega) (by omega)]
          rfl

end Brunomnia.Multipart
