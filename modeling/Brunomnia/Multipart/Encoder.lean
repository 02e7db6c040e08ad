import Brunomnia.Codegen.Text

/-!
# Multipart forms

The parts of a form are written one after the other, each behind a line with the boundary, with
their name in a header. The boundary is the first one that occurs in none of the parts.
-/

namespace Brunomnia.Multipart

open Codegen

inductive PartKind where
  | text
  | file
  deriving DecidableEq

structure FileAttachment where
  fileName : Text
  mimeType : Text
  dataBase64 : Text

structure MultipartPart where
  name : Text
  value : Text
  enabled : Bool
  kind : PartKind
  contentType : Option Text
  fileName : Option Text
  file : Option FileAttachment

structure MultipartRequest where
  renderBodyTemplates : Bool
  multipartBody : List MultipartPart

structure EncodedMultipartPart where
  contentType : Text
  data : List UInt8
  fileName : Option Text
  name : Text

/-! ## Texts and bytes -/

def utf8 (text : Text) : List UInt8 :=
  text.flatMap String.utf8EncodeChar

def includesBytes (value search : List UInt8) : Bool :=
  search ≠ [] ∧ search <:+: value

/-- The value of a character of the alphabet. -/
def base64Value (letter : Char) : Option ℕ :=
  base64Alphabet.idxOf? letter

def base64Bytes : List ℕ → List UInt8
  | first :: second :: third :: fourth :: rest =>
      UInt8.ofNat (first * 4 + second / 16) :: UInt8.ofNat (second % 16 * 16 + third / 4) ::
        UInt8.ofNat (third % 4 * 64 + fourth) :: base64Bytes rest
  | [first, second, third] =>
      [UInt8.ofNat (first * 4 + second / 16), UInt8.ofNat (second % 16 * 16 + third / 4)]
  | [first, second] => [UInt8.ofNat (first * 4 + second / 16)]
  | _ => []

/-- `atob`, which skips white space and takes a text with or without its padding. -/
def decodeBase64 (value : Text) : Option (List UInt8) :=
  let stripped := value.filter fun letter => letter ∉ ['\t', '\n', '\x0c', '\r', ' ']
  let unpadded :=
    if stripped.length % 4 = 0 then
      if "==".toList <:+ stripped then stripped.dropLast.dropLast
      else if "=".toList <:+ stripped then stripped.dropLast
      else stripped
    else stripped
  if unpadded.length % 4 = 1 then none else (unpadded.mapM base64Value).map base64Bytes

/-! ## Parts -/

/-- `value.replace(/[\r\n]+/g, ' ')`, behind a line break or not. -/
def replaceLineBreaks : Bool → Text → Text
  | _, [] => []
  | behindBreak, letter :: rest =>
      if letter = '\r' ∨ letter = '\n' then
        if behindBreak then replaceLineBreaks true rest else ' ' :: replaceLineBreaks true rest
      else letter :: replaceLineBreaks false rest

/-- The value of a header, and the warning where it had line breaks. -/
def safeMultipartHeaderValue (value label : Text) : Text × List Text :=
  let safe := replaceLineBreaks false value
  (safe, if safe = value then []
    else
      [label ++ " line breaks were replaced to keep the generated multipart headers valid.".toList])

def quoteMultipartParameter (value : Text) : Text :=
  (value.flatMap fun letter => if letter = '\\' then ['\\', '\\'] else [letter]).flatMap
    fun letter => if letter = '"' then ['\\', '"'] else [letter]

/-- `left || right` -/
def orElseText (left : Option Text) (right : Text) : Text :=
  match left with
  | some value => if value = [] then right else value
  | none => right

section Materialize

variable (values : Text → Option Text) (request : MultipartRequest)

def renderPart (value : Text) : Text :=
  if request.renderBodyTemplates then resolveTemplate values value else value

/-- The part that is sent, if it has a name and its file can be read, with the warnings. -/
def encodePart (part : MultipartPart) : Option EncodedMultipartPart × List Text :=
  let (name, nameWarnings) := safeMultipartHeaderValue
    (trimText (renderPart values request part.name)) "Multipart field name".toList
  if name = [] then (none, nameWarnings)
  else
    let (contentType, typeWarnings) := safeMultipartHeaderValue
      (trimText (renderPart values request (part.contentType.getD [])))
      ("Multipart field '".toList ++ name ++ "' content type".toList)
    let warnings := nameWarnings ++ typeWarnings
    match part.kind with
    | .text =>
        (some
          { contentType, data := utf8 (renderPart values request part.value), fileName := none,
            name }, warnings)
    | .file =>
        match part.file with
        | none =>
            (none, warnings ++ ["Multipart file field '".toList ++ name ++
              "' was omitted because no file is attached.".toList])
        | some file =>
            match decodeBase64 file.dataBase64 with
            | none =>
                (none, warnings ++ ["Multipart file field '".toList ++ name ++
                  "' was omitted because its saved bytes are not valid Base64.".toList])
            | some data =>
                let (fileName, fileWarnings) := safeMultipartHeaderValue
                  (renderPart values request
                    (orElseText part.fileName (orElseText (some file.fileName) "file".toList)))
                  ("Multipart field '".toList ++ name ++ "' filename".toList)
                let (effectiveType, effectiveWarnings) := safeMultipartHeaderValue
                  (orElseText (some contentType)
                    (orElseText (some file.mimeType) "application/octet-stream".toList))
                  ("Multipart field '".toList ++ name ++ "' content type".toList)
                (some { contentType := effectiveType, data, fileName := some fileName, name },
                  warnings ++ fileWarnings ++ effectiveWarnings)

/-- The enabled parts with their warnings. -/
def encodedParts : List (Option EncodedMultipartPart × List Text) :=
  (request.multipartBody.filter MultipartPart.enabled).map (encodePart values request)

end Materialize

/-! ## The boundary -/

def boundaryText (index : ℕ) : Text :=
  "--------------------------brunomnia-generated-".toList ++ (Nat.repr index).toList

def collisionInputs (parts : List EncodedMultipartPart) : List (List UInt8) :=
  parts.flatMap fun part =>
    [part.data, utf8 (part.name ++ '\n' :: part.fileName.getD [] ++ '\n' :: part.contentType)]

/-- The first boundary from an index on that occurs in none of the inputs. -/
def boundaryFrom (inputs : List (List UInt8)) : ℕ → ℕ → Text
  | 0, index => boundaryText index
  | fuel + 1, index =>
      if inputs.any fun input => includesBytes input (utf8 (boundaryText index)) then
        boundaryFrom inputs fuel (index + 1)
      else boundaryText index

/-- Inputs have fewer pieces than these. -/
def pieceBound (inputs : List (List UInt8)) : ℕ :=
  (inputs.map fun input => (input.length + 1) ^ 2).sum

def multipartBoundary (parts : List EncodedMultipartPart) : Text :=
  boundaryFrom (collisionInputs parts) (pieceBound (collisionInputs parts) + 1) 0

/-! ## The body -/

def disposition (part : EncodedMultipartPart) : Text :=
  "Content-Disposition: form-data; name=\"".toList ++ quoteMultipartParameter part.name ++ ['"'] ++
    match part.fileName with
    | none => []
    | some fileName => "; filename=\"".toList ++ quoteMultipartParameter fileName ++ ['"']

def partChunks (boundary : Text) (part : EncodedMultipartPart) : List UInt8 :=
  utf8 ("--".toList ++ boundary ++ "\r\n".toList ++ disposition part ++ "\r\n".toList) ++
    (if part.contentType = [] then []
      else utf8 ("Content-Type: ".toList ++ part.contentType ++ "\r\n".toList)) ++
    (utf8 "\r\n".toList ++ part.data ++ utf8 "\r\n".toList)

structure MaterializedMultipart where
  boundary : Text
  bytes : List UInt8
  warnings : List Text

def MaterializedMultipart.dataBase64 (form : MaterializedMultipart) : Text :=
  base64 form.bytes

def materializeMultipart (values : Text → Option Text) (request : MultipartRequest) :
    MaterializedMultipart :=
  let encoded := encodedParts values request
  let parts := encoded.filterMap Prod.fst
  let boundary := multipartBoundary parts
  { boundary
    bytes := parts.flatMap (partChunks boundary) ++
      utf8 ("--".toList ++ boundary ++ "--\r\n".toList)
    warnings := encoded.flatMap Prod.snd }

end Brunomnia.Multipart
