import Brunomnia.Codegen.Text
import Brunomnia.Json
import Brunomnia.Library.Splitting
import Brunomnia.Streaming.SseParser

/-!
# Reading multipart forms

The mock server cuts a body at the lines with the boundary, reads the name in the headers of
every part, and collects the values of a name. An index counts characters.
-/

namespace Brunomnia.Multipart

open Codegen Library
open Streaming (textLines)

/-- The characters of `char::is_whitespace`. -/
def isRustWhitespace (letter : Char) : Bool :=
  letter.toNat ∈ [9, 10, 11, 12, 13, 32, 133, 160, 5760, 8232, 8233, 8239, 8287, 12288] ∨
    (8192 ≤ letter.toNat ∧ letter.toNat ≤ 8202)

def rustTrim (text : Text) : Text :=
  ((text.dropWhile isRustWhitespace).reverse.dropWhile isRustWhitespace).reverse

/-! ## Parameters of a header -/

/-- The text behind its backslashes, unless the last one stands alone. -/
def unescape : Text → Option Text
  | [] => some []
  | [letter] => if letter = '\\' then none else some [letter]
  | letter :: next :: rest =>
      if letter = '\\' then (unescape rest).map fun text => next :: text
      else (unescape (next :: rest)).map fun text => letter :: text

/-- A value in quotes is unescaped. -/
def parameterValue (value : Text) : Option Text :=
  if value.head? = some '"' ∧ value.getLast? = some '"' ∧ 2 ≤ value.length then
    unescape value.tail.dropLast
  else some value

/-- The result for a parameter, if it is the one that is looked for. -/
def segmentParameter (target segment : Text) : Option (Option Text) :=
  match splitFirst '=' (rustTrim segment) with
  | some (name, value) =>
      if lowerText (rustTrim name) = lowerText target then some (parameterValue (rustTrim value))
      else none
  | none => none

/-- The parameters from a segment on, in quotes or not, behind a backslash or not. -/
def parametersFrom (target : Text) : Text → Bool → Bool → Text → Option Text
  | segment, quote, escaped, [] =>
      if escaped ∨ quote then none else (segmentParameter target segment).join
  | segment, quote, escaped, letter :: rest =>
      if escaped then parametersFrom target (segment ++ [letter]) quote false rest
      else if letter = '\\' ∧ quote then parametersFrom target (segment ++ [letter]) quote true rest
      else if letter = '"' then parametersFrom target (segment ++ [letter]) (!quote) false rest
      else if letter = ';' ∧ quote = false then
        match segmentParameter target segment with
        | some result => result
        | none => parametersFrom target [] quote false rest
      else parametersFrom target (segment ++ [letter]) quote false rest

def headerParameter (header target : Text) : Option Text :=
  (splitFirst ';' header).bind fun split => parametersFrom target [] false false split.2

/-! ## Lines with the boundary -/

structure MultipartBoundary where
  start : ℕ
  afterLine : ℕ
  closing : Bool
  deriving DecidableEq

/-- Where the line of a delimiter ends, and whether it closes the body. -/
def delimiterLine (body delimiter : Text) (start : ℕ) : Option (ℕ × Bool) :=
  let suffix := body.drop (start + delimiter.length)
  if "--".toList <+: suffix then
    let afterClose := suffix.drop 2
    if afterClose = [] then some (body.length, true)
    else if "\r\n".toList <+: afterClose then some (start + delimiter.length + 4, true)
    else if "\n".toList <+: afterClose then some (start + delimiter.length + 3, true)
    else none
  else if "\r\n".toList <+: suffix then some (start + delimiter.length + 2, false)
  else if "\n".toList <+: suffix then some (start + delimiter.length + 1, false)
  else none

/-- The next line with the delimiter. The cursor goes forward, so that the length of the body is
fuel enough. -/
def findFrom (body delimiter : Text) : ℕ → ℕ → Option MultipartBoundary
  | 0, _ => none
  | fuel + 1, cursor =>
      match position delimiter (body.drop cursor) with
      | none => none
      | some relativeStart =>
          let start := cursor + relativeStart
          let atLineStart := start = 0 ∨ body[start - 1]? = some '\n'
          match delimiterLine body delimiter start with
          | some (afterLine, closing) =>
              if atLineStart then some ⟨start, afterLine, closing⟩
              else findFrom body delimiter fuel (start + delimiter.length)
          | none => findFrom body delimiter fuel (start + delimiter.length)

def findMultipartBoundary (body delimiter : Text) (cursor : ℕ) : Option MultipartBoundary :=
  findFrom body delimiter (body.length + 1) cursor

/-! ## Parts -/

def maxMultipartParts : ℕ := 100

def maxMultipartHeaderBytes : ℕ := 16000

def maxMultipartFieldNameBytes : ℕ := 1000

/-- `text.len()` -/
def byteLength (text : Text) : ℕ :=
  (text.map Char.utf8Size).sum

/-- `text.split_once(separator)` -/
def splitOnce (separator text : Text) : Option (Text × Text) :=
  (position separator text).map fun index =>
    (text.take index, text.drop (index + separator.length))

/-- The value of the first header that has a disposition. -/
def dispositionOf (headers : Text) : Option Text :=
  (textLines headers).findSome? fun line =>
    (splitFirst ':' (line.reverse.dropWhile fun letter => letter = '\r').reverse).bind
      fun (name, value) =>
        if lowerText (rustTrim name) = "content-disposition".toList then some (rustTrim value)
        else none

def multipartPart (part : Text) : Option (Text × Text) :=
  (splitOnce "\r\n\r\n".toList part <|> splitOnce "\n\n".toList part).bind
    fun (headers, value) =>
      if byteLength headers > maxMultipartHeaderBytes then none
      else
        (dispositionOf headers).bind fun disposition =>
          (headerParameter disposition "name".toList).bind fun name =>
            if name = [] ∨ byteLength name > maxMultipartFieldNameBytes ∨
                '\r' ∈ name ∨ '\n' ∈ name ∨ Char.ofNat 0 ∈ name then none
            else some (name, value)

def insertRepeatedField (fields : List (String × Json)) (name value : Text) :
    List (String × Json) :=
  let key := String.ofList name
  let value := Json.str (String.ofList value)
  match fields.lookup key with
  | some (.arr values) => Json.assign fields key (.arr (values ++ [value]))
  | some previous => Json.assign fields key (.arr [previous, value])
  | none => Json.assign fields key value

/-- The part without the line break in front of the next boundary. -/
def stripLineEnd (part : Text) : Text :=
  if "\r\n".toList <:+ part then part.dropLast.dropLast
  else if "\n".toList <:+ part then part.dropLast
  else part

/-- The loop over the parts, of which there are not more than the limit. -/
def partsFrom (body delimiter : Text) : ℕ → MultipartBoundary → List (String × Json) → ℕ →
    Option Json
  | 0, _, _, _ => none
  | fuel + 1, current, fields, partCount =>
      if current.closing then some (.obj fields)
      else
        (findMultipartBoundary body delimiter current.afterLine).bind fun next =>
          let part := stripLineEnd
            ((body.drop current.afterLine).take (next.start - current.afterLine))
          if partCount + 1 > maxMultipartParts then none
          else
            (multipartPart part).bind fun (name, value) =>
              partsFrom body delimiter fuel next (insertRepeatedField fields name value)
                (partCount + 1)

def parseMultipartFields (body boundary : Text) : Option Json :=
  let delimiter := "--".toList ++ boundary
  (findMultipartBoundary body delimiter 0).bind fun first =>
    partsFrom body delimiter (maxMultipartParts + 2) first [] 0

end Brunomnia.Multipart
