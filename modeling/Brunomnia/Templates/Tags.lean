import Brunomnia.Codegen.Headers
import Brunomnia.Library.Pairs

/-!
# Template tags

A dialog writes template tags, with each argument in quotes, and the renderer finds them in a text
and reads their arguments. The renderer ends a tag at the first `%}`, within quotes too, and takes
the white space around every argument away after it has read it.
-/

namespace Brunomnia.Templates

open Codegen (Text trimText templateAt)
open Library

/-! ## Writing tags -/

inductive TemplateTagKind where
  | environment
  | faker
  | uuid
  | now
  | os
  | base64
  | hash
  | jsonpath
  | cookie
  | response
  | request
  | prompt
  | file
  | external
  deriving DecidableEq

/-- What a dialog builds: an expression, or a tag with its name and its arguments. -/
inductive BuiltTag where
  | expression (content : Text)
  | tag (name : Text) (arguments : List Text)
  deriving DecidableEq

def escapeLetter (letter : Char) : Text :=
  if letter = '\\' then ['\\', '\\'] else if letter = '\'' then ['\\', '\''] else [letter]

def escaped (value : Text) : Text :=
  value.flatMap escapeLetter

def quoted (value : Text) : Text :=
  ['\''] ++ escaped value ++ ['\'']

def quotedList (values : List Text) : Text :=
  List.intercalate [',', ' '] (values.map quoted)

def tag (name : Text) (values : List Text) : Text :=
  ['{', '%', ' '] ++ name ++ (if values ≠ [] then ' ' :: quotedList values else []) ++
    [' ', '%', '}']

def BuiltTag.text : BuiltTag → Text
  | .expression content => ['{', '{', ' '] ++ content ++ [' ', '}', '}']
  | .tag name arguments => Templates.tag name arguments

section Building

variable (values : Text → Option Text)

/-- `values[field] || fallback` -/
def orElse (field fallback : String) : Text :=
  match values field.toList with
  | some value => if value = [] then fallback.toList else value
  | none => fallback.toList

/-- What `buildTemplateTag` puts together. It throws for an environment value without a name. -/
def builtTag (kind : TemplateTagKind) : Option BuiltTag :=
  match kind with
  | .environment => (values "name".toList).map fun name => .expression (trimText name)
  | .faker => some (.expression ("faker.".toList ++ orElse values "name" "randomUUID"))
  | .uuid => some (.tag "uuid".toList [orElse values "version" "v4"])
  | .now => some (.tag "now".toList
      [orElse values "format" "iso-8601", orElse values "formatTemplate" ""])
  | .os => some (.tag "os".toList [orElse values "function" "arch", orElse values "path" ""])
  | .base64 => some (.tag "base64".toList
      [orElse values "operation" "encode", orElse values "encoding" "normal",
        orElse values "value" ""])
  | .hash => some (.tag "hash".toList
      [orElse values "algorithm" "sha256", orElse values "output" "hex",
        orElse values "value" ""])
  | .jsonpath => some (.tag "jsonpath".toList
      [orElse values "value" "\x7b\x7d", orElse values "path" "$"])
  | .cookie =>
      if orElse values "url" "" ≠ [] then
        some (.tag "cookie".toList [orElse values "url" "", orElse values "name" ""])
      else some (.tag "cookie".toList [orElse values "name" ""])
  | .response => some (.tag "response".toList
      [orElse values "attribute" "body", orElse values "request" "", orElse values "path" "",
        orElse values "resendBehavior" "never", orElse values "maxAge" "60"])
  | .request => some (.tag "request".toList
      [orElse values "attribute" "url", orElse values "name" "",
        orElse values "folderIndex" "0"])
  | .prompt => some (.tag "prompt".toList
      [orElse values "title" "", orElse values "label" "", orElse values "value" "",
        orElse values "storageKey" "", orElse values "maskText" "false",
        orElse values "saveLastValue" "true"])
  | .file => some (.tag "file".toList [orElse values "path" ""])
  | .external => some (.tag "external".toList
      [orElse values "provider" "aws", orElse values "reference" "", orElse values "scope" "",
        orElse values "field" "", orElse values "version" ""])

def buildTemplateTag (kind : TemplateTagKind) : Option Text :=
  (builtTag values kind).map BuiltTag.text

end Building

/-! ## Reading arguments -/

/-- The loop of `tagArguments`: the text, the values, the value at hand, the quote it is in, and
whether the next character is escaped. -/
def tagArgumentsFrom : Text → List Text → Text → Option Char → Bool → List Text × Text
  | [], values, value, _, _ => (values, value)
  | letter :: rest, values, value, quote, true =>
      tagArgumentsFrom rest values (value ++ [letter]) quote false
  | letter :: rest, values, value, some quote, false =>
      if letter = '\\' then tagArgumentsFrom rest values value (some quote) true
      else if letter = quote then tagArgumentsFrom rest values value none false
      else tagArgumentsFrom rest values (value ++ [letter]) (some quote) false
  | letter :: rest, values, value, none, false =>
      if letter = '"' ∨ letter = '\'' then tagArgumentsFrom rest values value (some letter) false
      else if letter = ',' then tagArgumentsFrom rest (values ++ [trimText value]) [] none false
      else tagArgumentsFrom rest values (value ++ [letter]) none false

def tagArguments (source : Text) : List Text :=
  let read := tagArgumentsFrom (trimText source) [] [] none false
  if trimText read.2 ≠ [] ∨ ',' ∈ source then read.1 ++ [trimText read.2] else read.1

/-! ## Rendering -/

/-- What a text is rendered with: the values of the context and of the outside. A tag or a name
for which nothing can be made throws. -/
structure TemplateContext where
  variableValues : Text → Option Text
  uuid : Option Text
  randomUUID : Text
  timestamp : Text
  isoTimestamp : Text
  renderFakerValue : Text → Option Text
  resolveRawTag : Text → List Text → Option Text

section Rendering

variable (context : TemplateContext)

/-- The value of a name between braces; the text with the braces stays if there is none. -/
def environmentValue (matched name : Text) : Option Text :=
  let trimmed := trimText name
  if "faker.".toList <+: trimmed then
    let fakerName := trimmed.drop 6
    match context.uuid with
    | some uuid =>
        if fakerName = "guid".toList ∨ fakerName = "randomUUID".toList then some uuid
        else context.renderFakerValue fakerName
    | none => context.renderFakerValue fakerName
  else if trimmed = "$randomUUID".toList ∨ trimmed = "$guid".toList then
    some (context.uuid.getD context.randomUUID)
  else if trimmed = "$timestamp".toList then some context.timestamp
  else if trimmed = "$isoTimestamp".toList then some context.isoTimestamp
  else if "$random".toList <+: trimmed then context.renderFakerValue (trimmed.drop 1)
  else some ((context.variableValues trimmed).getD matched)

/-- `renderEnvironmentValues`; `skipped` characters still belong to the last match. -/
def renderEnvironmentAfter : ℕ → Text → Option Text
  | _, [] => some []
  | skipped + 1, _ :: rest => renderEnvironmentAfter skipped rest
  | 0, letter :: rest =>
      match templateAt (letter :: rest) with
      | none => (renderEnvironmentAfter 0 rest).map (letter :: ·)
      | some (name, length) =>
          (environmentValue context ((letter :: rest).take length) name).bind fun replacement =>
            (renderEnvironmentAfter (length - 1) rest).map (replacement ++ ·)

def renderEnvironmentValues (source : Text) : Option Text :=
  renderEnvironmentAfter context 0 source

def isNameLetter (letter : Char) : Bool :=
  letter.isAlphanum || letter ∈ ['_', '-']

/-- The tag that a text starts with: its name, the source of its arguments, and its length. -/
def rawTagAt (text : Text) : Option (Text × Text × ℕ) :=
  if ['{', '%'] <+: text then
    match (text.drop 2).dropWhile isWhiteSpace with
    | [] => none
    | initial :: others =>
        if initial.isAlpha then
          let behind := (others.dropWhile isNameLetter).dropWhile isWhiteSpace
          (untilPair '%' '}' behind).map fun source =>
            (initial :: others.takeWhile isNameLetter, source,
              text.length - behind.length + source.length + 2)
        else none
  else none

/-- The calls of `resolveRawTag` in the order in which they are made, and the text, unless a call
throws. -/
def renderTagsAfter : ℕ → Text → List (Text × List Text) × Option Text
  | _, [] => ([], some [])
  | skipped + 1, _ :: rest => renderTagsAfter skipped rest
  | 0, letter :: rest =>
      match rawTagAt (letter :: rest) with
      | none =>
          let rendered := renderTagsAfter 0 rest
          (rendered.1, rendered.2.map (letter :: ·))
      | some (name, source, length) =>
          let call := (name, tagArguments source)
          match context.resolveRawTag call.1 call.2 with
          | none => ([call], none)
          | some replacement =>
              let rendered := renderTagsAfter (length - 1) rest
              (call :: rendered.1, rendered.2.map (replacement ++ ·))

def renderTags (source : Text) : List (Text × List Text) × Option Text :=
  renderTagsAfter context 0 source

def renderTemplate (source : Text) : List (Text × List Text) × Option Text :=
  match renderEnvironmentValues context source with
  | none => ([], none)
  | some output => renderTags context output

end Rendering

end Brunomnia.Templates
