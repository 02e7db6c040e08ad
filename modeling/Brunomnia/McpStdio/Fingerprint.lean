import Brunomnia.Library.Codes
import Brunomnia.Multipart.Parser
import Brunomnia.SerdeJson

/-!
# The fingerprint of a session

A session is reused for a call that would start the same process: the same command, arguments and
environment. The registry compares their JSON text. That text delimits itself, so that calls with
one fingerprint start the same process.
-/

namespace Brunomnia.Serde.Value

open Library

/-! ## Texts delimit themselves -/

def hexValue (letter : Char) : ℕ :=
  "0123456789abcdef".toList.idxOf letter

/-- Read the character that a JSON string goes on with. -/
def readEscaped : List Char → Option (Char × List Char)
  | '\\' :: 'b' :: rest => some (Char.ofNat 8, rest)
  | '\\' :: 'f' :: rest => some (Char.ofNat 12, rest)
  | '\\' :: 'n' :: rest => some ('\n', rest)
  | '\\' :: 'r' :: rest => some ('\r', rest)
  | '\\' :: 't' :: rest => some ('\t', rest)
  | '\\' :: 'u' :: '0' :: '0' :: high :: low :: rest =>
      some (Char.ofNat (16 * hexValue high + hexValue low), rest)
  | '\\' :: letter :: rest => some (letter, rest)
  | letter :: rest => some (letter, rest)
  | [] => none

theorem readEscaped_escaped (letter : Char) (rest : List Char) :
    readEscaped (escaped letter ++ rest) = some (letter, rest) := by
  by_cases control : letter.toNat < 32
  · have isLetter : letter = Char.ofNat letter.toNat := (Char.ofNat_toNat letter).symm
    rw [isLetter]
    generalize letter.toNat = code at control
    interval_cases code <;> rfl
  · have notControl (code : ℕ) (small : code < 32) : letter.toNat ≠ code := by omega
    have notLineFeed : letter ≠ '\n' := by
      rintro rfl
      exact control (by decide)
    have notReturn : letter ≠ '\r' := by
      rintro rfl
      exact control (by decide)
    have notTab : letter ≠ '\t' := by
      rintro rfl
      exact control (by decide)
    by_cases isQuote : letter = '"'
    · rw [isQuote]
      rfl
    · by_cases isBackslash : letter = '\\'
      · rw [isBackslash]
        rfl
      · rw [escaped, if_neg isQuote, if_neg isBackslash, if_neg (notControl 8 (by decide)),
          if_neg (notControl 12 (by decide)), if_neg notLineFeed, if_neg notReturn, if_neg notTab,
          if_neg control, List.singleton_append]
        simp [readEscaped, isBackslash]

theorem escaped_delimits : DelimitsItself escaped :=
  .of_reader readEscaped_escaped

theorem escaped_neverStarts : NeverStarts '"' escaped := by
  intro letter
  unfold escaped
  by_cases isQuote : letter = '"'
  · exact ⟨'\\', ['"'], by rw [if_pos isQuote], by decide⟩
  · rw [if_neg isQuote]
    split_ifs <;> exact ⟨_, _, rfl, by first | decide | exact isQuote⟩

theorem stringText_delimits : DelimitsItself stringText := by
  have toListInjective : Function.Injective String.toList := fun _ _ => String.toList_injective
  have closed := ((escaped_delimits.closed escaped_neverStarts).prefixed ['"']).comap
    toListInjective
  intro first second rest others same
  apply closed
  simpa only [stringText, List.append_assoc] using same

theorem stringText_neverStarts {symbol : Char} (different : '"' ≠ symbol) :
    NeverStarts symbol stringText :=
  fun value => ⟨'"', value.toList.flatMap escaped ++ ['"'], rfl, different⟩

theorem itemLetters_eq (items : List Value) :
    itemLetters items = List.intercalate [','] (items.map letters) := by
  induction items with
  | nil => rfl
  | cons item items ih =>
      cases items with
      | nil => simp [itemLetters, List.intercalate]
      | cons second rest =>
          rw [itemLetters, ih, List.map_cons, List.map_cons, List.map_cons,
            List.intercalate_cons_cons]

theorem array_delimits {Item : Type*} {value : Item → Value}
    (delimits : DelimitsItself fun item => (value item).letters)
    (opens : NeverStarts ']' fun item => (value item).letters) :
    DelimitsItself fun items : List Item => (array (items.map value)).letters := by
  have separated := (delimits.separated opens (by decide : ',' ≠ ']')).prefixed ['[']
  intro first second rest others same
  apply separated
  simpa only [letters, itemLetters_eq, List.map_map, Function.comp_def, List.append_assoc]
    using same

end Brunomnia.Serde.Value

namespace Brunomnia.McpStdio

open Serde Library
open Multipart (rustTrim)

/-! ## What is started -/

structure McpStdioEnvironmentVariable where
  name : String
  value : String
  deriving DecidableEq

/-- The part of a call that decides its session. -/
structure McpStdioInput where
  command : String
  args : List String
  env : List McpStdioEnvironmentVariable
  sessionKey : String
  deriving DecidableEq

/-- What a process is started with. -/
structure Launch where
  command : String
  args : List String
  env : List McpStdioEnvironmentVariable
  deriving DecidableEq

def McpStdioInput.launch (input : McpStdioInput) : Launch where
  command := String.ofList (rustTrim input.command.toList)
  args := input.args
  env := input.env

def McpStdioEnvironmentVariable.json (item : McpStdioEnvironmentVariable) : Value :=
  .object [("name", .string item.name), ("value", .string item.value)]

def Launch.json (launch : Launch) : Value :=
  .array [.string launch.command, .array (launch.args.map .string),
    .array (launch.env.map McpStdioEnvironmentVariable.json)]

def sessionFingerprint (input : McpStdioInput) : String :=
  input.launch.json.text

/-! ## One fingerprint, one process -/

theorem environmentVariable_delimits :
    DelimitsItself fun item : McpStdioEnvironmentVariable => item.json.letters := by
  have pair := (((Value.stringText_delimits.suffixed [',']).append
    ((Value.stringText_delimits.prefixed (Value.stringText "value" ++ [':'])).suffixed ['\x7d']))
      |>.prefixed (['\x7b'] ++ Value.stringText "name" ++ [':']))
  rintro ⟨firstName, firstValue⟩ ⟨secondName, secondValue⟩ rest others same
  have samePair := @pair (firstName, firstValue) (secondName, secondValue) rest others (by
    simpa only [McpStdioEnvironmentVariable.json, Value.letters, Value.memberLetters,
      List.append_assoc] using same)
  simpa using samePair

theorem environmentVariable_neverStarts :
    NeverStarts ']' fun item : McpStdioEnvironmentVariable => item.json.letters :=
  fun _ => ⟨'\x7b', _, rfl, by decide⟩

theorem fingerprint_injective : Function.Injective fun launch : Launch => launch.json.text := by
  have arguments : DelimitsItself fun args : List String =>
      (Value.array (args.map .string)).letters :=
    Value.array_delimits Value.stringText_delimits (Value.stringText_neverStarts (by decide))
  have environment := Value.array_delimits environmentVariable_delimits
    environmentVariable_neverStarts
  have parts := (((Value.stringText_delimits.suffixed [',']).append
    (arguments.suffixed [','])).append environment).prefixed ['[']
  rintro ⟨firstCommand, firstArgs, firstEnv⟩ ⟨secondCommand, secondArgs, secondEnv⟩ same
  have sameLetters := String.ofList_injective same
  have sameParts := @parts ((firstCommand, firstArgs), firstEnv)
    ((secondCommand, secondArgs), secondEnv) [']'] [']'] (by
      simpa only [Launch.json, Value.letters, Value.itemLetters, List.append_assoc]
        using sameLetters)
  simpa [and_assoc] using sameParts.1

end Brunomnia.McpStdio
