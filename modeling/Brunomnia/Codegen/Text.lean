import Brunomnia.Strings

/-!
# Texts of requests

The string operations that building and reading requests use, on the characters of a
string: trimming, substitution, encodings, and the records of JavaScript, whose keys keep
the order in which they were set except that array indices come first.
-/

namespace Brunomnia.Codegen

abbrev Text := List Char

/-- Named, so that every test for a text in a list of texts carries the same proof. -/
instance instLawfulBEqText : LawfulBEq Text := inferInstance

def trimText (text : Text) : Text :=
  ((text.dropWhile isWhiteSpace).reverse.dropWhile isWhiteSpace).reverse

def lowerText (text : Text) : Text :=
  text.map Char.toLower

/-- The capitals of a character, as far as they are ASCII. -/
def upperChar (letter : Char) : Text :=
  match letter.toNat with
  | 223 => ['S', 'S']
  | 305 => ['I']
  | 383 => ['S']
  | 64256 => ['F', 'F']
  | 64257 => ['F', 'I']
  | 64258 => ['F', 'L']
  | 64259 => ['F', 'F', 'I']
  | 64260 => ['F', 'F', 'L']
  | 64261 => ['S', 'T']
  | 64262 => ['S', 'T']
  | _ => [letter.toUpper]

def upperText (text : Text) : Text :=
  text.flatMap upperChar

/-- `text.split(pattern).join(value)` for a pattern that is not empty; `skipped` characters
still belong to the last occurrence. -/
def replaceAfter (pattern value : Text) : ℕ → Text → Text
  | _, [] => []
  | skipped + 1, _ :: rest => replaceAfter pattern value skipped rest
  | 0, letter :: rest =>
      if pattern <+: letter :: rest then
        value ++ replaceAfter pattern value (pattern.length - 1) rest
      else letter :: replaceAfter pattern value 0 rest

/-- The text up to the first separator and the text after it. -/
def splitFirst (separator : Char) (text : Text) : Option (Text × Text) :=
  if separator ∈ text then
    some (text.takeWhile fun letter => letter ≠ separator,
      (text.dropWhile fun letter => letter ≠ separator).tail)
  else none

/-! ## Encodings -/

def hexDigit (value : ℕ) : Char :=
  if value < 10 then Char.ofNat (48 + value) else Char.ofNat (55 + value)

def percentEncode (letter : Char) : Text :=
  (String.utf8EncodeChar letter).flatMap fun byte =>
    ['%', hexDigit (byte.toNat / 16), hexDigit (byte.toNat % 16)]

/-- The characters that `encodeURIComponent` leaves. -/
def isUriUnreserved (letter : Char) : Bool :=
  letter.isAlphanum || letter ∈ "-_.!~*'()".toList

def encodeURIComponent (text : Text) : Text :=
  text.flatMap fun letter => if isUriUnreserved letter then [letter] else percentEncode letter

/-- The characters that `URLSearchParams` leaves. -/
def isFormUnreserved (letter : Char) : Bool :=
  letter.isAlphanum || letter ∈ "*-._".toList

def encodeFormChar (letter : Char) : Text :=
  if isFormUnreserved letter then [letter]
  else if letter = ' ' then ['+']
  else percentEncode letter

def encodeForm (text : Text) : Text :=
  text.flatMap encodeFormChar

/-- `URLSearchParams.toString()`. -/
def formToString (entries : List (Text × Text)) : Text :=
  List.intercalate ['&'] (entries.map fun entry => encodeForm entry.1 ++ '=' :: encodeForm entry.2)

def base64Alphabet : Text :=
  "ABCDEFGHIJKLMNOPQRSTUVWXYZabcdefghijklmnopqrstuvwxyz0123456789+/".toList

def base64Digit (value : ℕ) : Char :=
  base64Alphabet.getD value '='

def base64 : List UInt8 → Text
  | [] => []
  | [first] =>
      [base64Digit (first.toNat / 4), base64Digit (first.toNat % 4 * 16), '=', '=']
  | [first, second] =>
      [base64Digit (first.toNat / 4), base64Digit (first.toNat % 4 * 16 + second.toNat / 16),
        base64Digit (second.toNat % 16 * 4), '=']
  | first :: second :: third :: rest =>
      base64Digit (first.toNat / 4) :: base64Digit (first.toNat % 4 * 16 + second.toNat / 16) ::
        base64Digit (second.toNat % 16 * 4 + third.toNat / 64) ::
          base64Digit (third.toNat % 64) :: base64 rest

/-! ## Templates -/

/-- The name in a template: without the white space around it, unless there is nothing else. -/
def templateName (content : Text) : Text :=
  if trimText content = [] then content.drop (content.length - 1) else trimText content

/-- The template that a text starts with, as its name and its length. -/
def templateAt (text : Text) : Option (Text × ℕ) :=
  if ['{', '{'] <+: text then
    let content := (text.drop 2).takeWhile fun letter => letter ≠ '{' ∧ letter ≠ '}'
    if content ≠ [] ∧ ['}', '}'] <+: text.drop (2 + content.length) then
      some (templateName content, content.length + 4)
    else none
  else none

def resolveAfter (values : Text → Option Text) : ℕ → Text → Text
  | _, [] => []
  | skipped + 1, _ :: rest => resolveAfter values skipped rest
  | 0, letter :: rest =>
      match templateAt (letter :: rest) with
      | none => letter :: resolveAfter values 0 rest
      | some (name, length) =>
          (values name).getD ((letter :: rest).take length) ++
            resolveAfter values (length - 1) rest

def resolveTemplate (values : Text → Option Text) (text : Text) : Text :=
  resolveAfter values 0 text

/-! ## Records -/

def arrayIndex (key : Text) : Option ℕ :=
  if key = [] ∨ (∃ digit ∈ key, digit.isDigit = false) ∨ (key.head? = some '0' ∧ key ≠ ['0']) then
    none
  else
    let index := key.foldl (fun number digit => 10 * number + (digit.toNat - 48)) 0
    if index < 2 ^ 32 - 1 then some index else none

/-- Whether a key stands in front of another one that is set after it. Different keys have
different indices. -/
def precedes (key later : Text) : Bool :=
  match arrayIndex key, arrayIndex later with
  | some index, some laterIndex => index ≤ laterIndex
  | some _, none => true
  | none, some _ => false
  | none, none => true

/-- `record[key] = value`. Setting `__proto__` makes no entry. -/
def recordSet (entries : List (Text × Text)) (key value : Text) : List (Text × Text) :=
  if key = "__proto__".toList then entries
  else if key ∈ entries.map Prod.fst then
    entries.map fun entry => if entry.1 = key then (key, value) else entry
  else
    (entries.takeWhile fun entry => precedes entry.1 key) ++
      (key, value) :: entries.dropWhile fun entry => precedes entry.1 key

end Brunomnia.Codegen
