import Brunomnia.Codegen.Materialize
import Brunomnia.Library.Transducers
import Brunomnia.Multipart.Encoder

/-!
# String literals of generated code

Generated code has the strings of a request as literals of its language. The writers are those of
the code generator; the readers follow the grammars of the languages: words of the POSIX shell,
single quoted strings of Ruby and PHP, raw strings of Rust, strings of C and of OCaml, which are
sequences of bytes, and verbatim strings of PowerShell, which ends them at typographic quotes too.
-/

namespace Brunomnia.Codegen

open Library
open Multipart (utf8)

/-! ## Writers -/

/-- Backslashes are doubled first, and then quotes get a backslash. -/
def singleQuoted (value : Text) : Text :=
  let doubled := value.flatMap fun letter => if letter = '\\' then ['\\', '\\'] else [letter]
  ['\''] ++ doubled.flatMap (fun letter => if letter = '\'' then ['\\', '\''] else [letter]) ++
    ['\'']

/-- The hashes are made more until the value does not have a quote with as many. -/
def rustHashes (value : Text) (hashes : ℕ) : ℕ :=
  if '"' :: List.replicate hashes '#' <:+: value then rustHashes value (hashes + 1) else hashes
termination_by value.length - hashes
decreasing_by
  have fits := List.IsInfix.length_le ‹_›
  simp only [List.length_cons, List.length_replicate] at fits
  omega

def rustRaw (value : Text) : Text :=
  let hashes := List.replicate (rustHashes value 0) '#'
  ['r'] ++ hashes ++ ['"'] ++ value ++ ['"'] ++ hashes

def escapedByte (escapeByte : UInt8 → Text) (byte : UInt8) : Text :=
  if byte = 34 then ['\\', '"']
  else if byte = 92 then ['\\', '\\']
  else if 32 ≤ byte ∧ byte ≤ 126 then [Char.ofNat byte.toNat]
  else escapeByte byte

def escapedByteString (bytes : List UInt8) (escapeByte : UInt8 → Text) : Text :=
  ['"'] ++ bytes.flatMap (escapedByte escapeByte) ++ ['"']

/-- `byte.toString(base).padStart(3, '0')` for a base in which a byte has at most three digits. -/
def threeDigits (base : ℕ) (byte : UInt8) : Text :=
  [byte.toNat / base ^ 2, byte.toNat / base % base, byte.toNat % base].map Nat.digitChar

def cBytes (bytes : List UInt8) : Text :=
  escapedByteString bytes fun byte => '\\' :: threeDigits 8 byte

def cString (value : Text) : Text :=
  cBytes (utf8 value)

def ocamlBytes (bytes : List UInt8) : Text :=
  escapedByteString bytes fun byte => '\\' :: threeDigits 10 byte

def ocamlString (value : Text) : Text :=
  ocamlBytes (utf8 value)

def powershellString (value : Text) : Text :=
  ['\''] ++ value.flatMap (fun letter => if letter = '\'' then ['\'', '\''] else [letter]) ++ ['\'']

/-! ## Words of the shell -/

inductive ShellState where
  | bare
  | bareEscape
  | single
  | double
  | doubleEscape
  deriving DecidableEq

/-- What ends or expands a word outside of quotes. -/
def isShellSpecial (letter : Char) : Bool :=
  letter ∈ "|&;<>()$ \t\n*?[]#~=%!\x60\x7b\x7d".toList

/-- An expansion within a word is refused, since the word is then no literal. -/
def shellStep : Reader ShellState Char Char
  | .bare, letter =>
      if letter = '\'' then some (.single, [])
      else if letter = '"' then some (.double, [])
      else if letter = '\\' then some (.bareEscape, [])
      else if isShellSpecial letter then none
      else some (.bare, [letter])
  | .bareEscape, letter => some (.bare, if letter = '\n' then [] else [letter])
  | .single, letter => if letter = '\'' then some (.bare, []) else some (.single, [letter])
  | .double, letter =>
      if letter = '"' then some (.bare, [])
      else if letter = '\\' then some (.doubleEscape, [])
      else if letter ∈ ['$', '\x60'] then none
      else some (.double, [letter])
  | .doubleEscape, letter =>
      if letter = '\n' then some (.double, [])
      else if letter ∈ ['$', '\x60', '"', '\\'] then some (.double, [letter])
      else some (.double, ['\\', letter])

def readShell (literal : Text) : Option Text :=
  Reader.read shellStep .bare (· = .bare) literal

/-! ## Single quoted strings -/

inductive QuotedState where
  | before
  | inside
  | escape
  | behind
  deriving DecidableEq

/-- Only quotes and backslashes are escaped; a backslash in front of others stands for itself. -/
def singleQuotedStep : Reader QuotedState Char Char
  | .before, letter => if letter = '\'' then some (.inside, []) else none
  | .inside, letter =>
      if letter = '\'' then some (.behind, [])
      else if letter = '\\' then some (.escape, [])
      else some (.inside, [letter])
  | .escape, letter =>
      if letter ∈ ['\'', '\\'] then some (.inside, [letter])
      else some (.inside, ['\\', letter])
  | .behind, _ => none

def readSingleQuoted (literal : Text) : Option Text :=
  Reader.read singleQuotedStep .before (· = .behind) literal

/-! ## Raw strings -/

/-- The text in front of the first occurrence of a pattern, and the text behind it. -/
def cutAt (pattern : Text) : Text → Option (Text × Text)
  | [] => if pattern = [] then some ([], []) else none
  | letter :: rest =>
      if pattern <+: letter :: rest then some ([], (letter :: rest).drop pattern.length)
      else (cutAt pattern rest).map fun (front, behind) => (letter :: front, behind)

/-- Line ends of two characters are read as one. -/
def joinLineEnds : Text → Text
  | '\r' :: '\n' :: rest => '\n' :: joinLineEnds rest
  | letter :: rest => letter :: joinLineEnds rest
  | [] => []

def maxRustHashes : ℕ := 255

/-- A raw string ends at the first quote with as many hashes as it starts with. It has no carriage
return. -/
def readRustRaw (literal : Text) : Option Text :=
  match joinLineEnds literal with
  | 'r' :: rest =>
      let hashes := rest.takeWhile fun letter => letter = '#'
      match rest.dropWhile fun letter => letter = '#' with
      | '"' :: body =>
          (cutAt ('"' :: hashes) body).bind fun (content, behind) =>
            if hashes.length ≤ maxRustHashes ∧ behind = [] ∧ '\r' ∉ content then some content
            else none
      | _ => none
  | _ => none

/-! ## Strings of bytes -/

def isOctalDigit (letter : Char) : Bool := '0' ≤ letter && letter ≤ '7'

def digitValue (letter : Char) : ℕ := letter.toNat - '0'.toNat

def hexDigitValue (letter : Char) : Option ℕ :=
  if letter.isDigit then some (letter.toNat - '0'.toNat)
  else if 'a' ≤ letter ∧ letter ≤ 'f' then some (letter.toNat - 'a'.toNat + 10)
  else if 'A' ≤ letter ∧ letter ≤ 'F' then some (letter.toNat - 'A'.toNat + 10)
  else none

inductive CState where
  | before
  | inside
  | escape
  | octal (digits value : ℕ)
  | hex (value : Option ℕ)
  | behind
  deriving DecidableEq

def cSimpleEscape (letter : Char) : Option UInt8 :=
  match letter with
  | '\'' => some 39
  | '"' => some 34
  | '?' => some 63
  | '\\' => some 92
  | 'a' => some 7
  | 'b' => some 8
  | 'f' => some 12
  | 'n' => some 10
  | 'r' => some 13
  | 't' => some 9
  | 'v' => some 11
  | _ => none

def byteOfCode (code : ℕ) : Option UInt8 :=
  if code < 256 then some (UInt8.ofNat code) else none

/-- A letter that no escape takes. -/
def cInsideStep (letter : Char) : Option (CState × List UInt8) :=
  if letter = '"' then some (.behind, [])
  else if letter = '\\' then some (.escape, [])
  else if letter = '\n' then none
  else some (.inside, String.utf8EncodeChar letter)

/-- A letter behind an escape that has ended. -/
def cAfterCode (code : ℕ) (letter : Char) : Option (CState × List UInt8) :=
  (byteOfCode code).bind fun byte =>
    (cInsideStep letter).map fun (next, given) => (next, byte :: given)

/-- An octal escape has up to three digits, a hexadecimal one has as many as there are. Universal
character names and trigraphs are not read. -/
def cStep : Reader CState Char UInt8
  | .before, letter => if letter = '"' then some (.inside, []) else none
  | .inside, letter => cInsideStep letter
  | .escape, letter =>
      if isOctalDigit letter then some (.octal 1 (digitValue letter), [])
      else if letter = 'x' then some (.hex none, [])
      else (cSimpleEscape letter).map fun byte => (.inside, [byte])
  | .octal digits value, letter =>
      if isOctalDigit letter then
        let code := 8 * value + digitValue letter
        if digits < 2 then some (.octal (digits + 1) code, [])
        else (byteOfCode code).map fun byte => (.inside, [byte])
      else cAfterCode value letter
  | .hex value, letter =>
      match hexDigitValue letter, value with
      | some digit, some value => some (.hex (some (16 * value + digit)), [])
      | some digit, none => some (.hex (some digit), [])
      | none, some value => cAfterCode value letter
      | none, none => none
  | .behind, _ => none

def readC (literal : Text) : Option (List UInt8) :=
  Reader.read cStep .before (· = .behind) literal

inductive OcamlState where
  | before
  | inside
  | escape
  | decimal (digits value : ℕ)
  | hex (digits value : ℕ)
  | octal (digits value : ℕ)
  | skipping
  | behind
  deriving DecidableEq

def ocamlSimpleEscape (letter : Char) : Option UInt8 :=
  match letter with
  | '\'' => some 39
  | '"' => some 34
  | '\\' => some 92
  | 'b' => some 8
  | 'n' => some 10
  | 'r' => some 13
  | 't' => some 9
  | ' ' => some 32
  | _ => none

def ocamlInsideStep (letter : Char) : Option (OcamlState × List UInt8) :=
  if letter = '"' then some (.behind, [])
  else if letter = '\\' then some (.escape, [])
  else some (.inside, String.utf8EncodeChar letter)

/-- Numeric escapes have exactly three decimal, two hexadecimal or three octal digits. A backslash
at the end of a line takes the blanks of the next one away. Unicode escapes are not read. -/
def ocamlStep : Reader OcamlState Char UInt8
  | .before, letter => if letter = '"' then some (.inside, []) else none
  | .inside, letter => ocamlInsideStep letter
  | .escape, letter =>
      if letter.isDigit then some (.decimal 1 (digitValue letter), [])
      else if letter = 'x' then some (.hex 0 0, [])
      else if letter = 'o' then some (.octal 0 0, [])
      else if letter = '\n' then some (.skipping, [])
      else (ocamlSimpleEscape letter).map fun byte => (.inside, [byte])
  | .decimal digits value, letter =>
      if letter.isDigit then
        let code := 10 * value + digitValue letter
        if digits < 2 then some (.decimal (digits + 1) code, [])
        else (byteOfCode code).map fun byte => (.inside, [byte])
      else none
  | .hex digits value, letter =>
      (hexDigitValue letter).bind fun digit =>
        let code := 16 * value + digit
        if digits < 1 then some (.hex (digits + 1) code, [])
        else (byteOfCode code).map fun byte => (.inside, [byte])
  | .octal digits value, letter =>
      if isOctalDigit letter then
        let code := 8 * value + digitValue letter
        if digits < 2 then some (.octal (digits + 1) code, [])
        else (byteOfCode code).map fun byte => (.inside, [byte])
      else none
  | .skipping, letter =>
      if letter ∈ [' ', '\t'] then some (.skipping, []) else ocamlInsideStep letter
  | .behind, _ => none

def readOcaml (literal : Text) : Option (List UInt8) :=
  Reader.read ocamlStep .before (· = .behind) literal

/-! ## Verbatim strings -/

/-- The characters that PowerShell takes for single quotes. -/
def isPowershellQuote (letter : Char) : Bool :=
  letter ∈ ['\'', '\u2018', '\u2019', '\u201a', '\u201b']

inductive VerbatimState where
  | before
  | inside
  | quote
  deriving DecidableEq

/-- Two quotes stand for the second one; one quote ends the string. -/
def powershellStep : Reader VerbatimState Char Char
  | .before, letter => if isPowershellQuote letter then some (.inside, []) else none
  | .inside, letter =>
      if isPowershellQuote letter then some (.quote, []) else some (.inside, [letter])
  | .quote, letter => if isPowershellQuote letter then some (.inside, [letter]) else none

def readPowershell (literal : Text) : Option Text :=
  Reader.read powershellStep .before (· = .quote) literal

end Brunomnia.Codegen
