import Mathlib

/-!
# JSON values of the native side

The values that the native side reads and writes. Integers keep their value, other numbers the
shortest text that denotes them, and the members of an object are listed by key. A value has
one compact text, which is what is sent and what a message identity is looked up by.
-/

namespace Brunomnia.Serde

/-- The text of a number that is no integer: it has a fraction or an exponent. -/
structure FloatText where
  text : String
  fractional : text.toList.any (fun letter => letter = '.' || letter = 'e') = true

inductive Number where
  | integer (value : ℤ)
  | float (value : FloatText)

inductive Value where
  | null
  | bool (value : Bool)
  | number (value : Number)
  | string (value : String)
  | array (items : List Value)
  | object (members : List (String × Value))

namespace Value

/-! ## Reading -/

def get (value : Value) (key : String) : Option Value :=
  match value with
  | .object members => (members.find? fun member => member.1 = key).map Prod.snd
  | _ => none

def asStr : Value → Option String
  | .string value => some value
  | _ => none

def isString : Value → Bool
  | .string _ => true
  | _ => false

def isNumber : Value → Bool
  | .number _ => true
  | _ => false

def integer (value : ℤ) : Value := .number (.integer value)

/-! ## The text -/

def hexLetter (digit : ℕ) : Char :=
  "0123456789abcdef".toList.getD digit '0'

def escaped (letter : Char) : List Char :=
  if letter = '"' then ['\\', '"']
  else if letter = '\\' then ['\\', '\\']
  else if letter.toNat = 8 then ['\\', 'b']
  else if letter.toNat = 12 then ['\\', 'f']
  else if letter = '\n' then ['\\', 'n']
  else if letter = '\r' then ['\\', 'r']
  else if letter = '\t' then ['\\', 't']
  else if letter.toNat < 32 then
    ['\\', 'u', '0', '0', hexLetter (letter.toNat / 16), hexLetter (letter.toNat % 16)]
  else [letter]

def stringText (value : String) : List Char :=
  ['"'] ++ value.toList.flatMap escaped ++ ['"']

def numberText : Number → List Char
  | .integer value => (toString value).toList
  | .float value => value.text.toList

mutual

/-- `serde_json::to_string`. -/
def letters : Value → List Char
  | .null => "null".toList
  | .bool value => (if value then "true" else "false").toList
  | .number value => numberText value
  | .string value => stringText value
  | .array items => ['['] ++ itemLetters items ++ [']']
  | .object members => ['\x7b'] ++ memberLetters members ++ ['\x7d']

def itemLetters : List Value → List Char
  | [] => []
  | [item] => item.letters
  | item :: second :: rest => item.letters ++ [','] ++ itemLetters (second :: rest)

def memberLetters : List (String × Value) → List Char
  | [] => []
  | [(key, value)] => stringText key ++ [':'] ++ value.letters
  | (key, value) :: second :: rest =>
      stringText key ++ [':'] ++ value.letters ++ [','] ++ memberLetters (second :: rest)

end

def text (value : Value) : String := String.ofList value.letters

/-! ## Identities -/

theorem integerText_letter {value : ℤ} {letter : Char}
    (letterMem : letter ∈ numberText (.integer value)) :
    letter = '-' ∨ letter.isDigit = true := by
  cases value with
  | ofNat value =>
      have shape : numberText (.integer (.ofNat value)) = (Nat.repr value).toList := rfl
      rw [shape, Nat.toList_repr] at letterMem
      exact .inr (Nat.isDigit_of_mem_toDigits (by decide) (by decide) letterMem)
  | negSucc value =>
      have shape : numberText (.integer (.negSucc value)) = '-' :: (Nat.repr (value + 1)).toList :=
        String.toList_append
      rw [shape, List.mem_cons, Nat.toList_repr] at letterMem
      rcases letterMem with isSign | digits
      · exact .inl isSign
      · exact .inr (Nat.isDigit_of_mem_toDigits (by decide) (by decide) digits)

theorem integerText_ne_floatText (value : ℤ) (float : FloatText) :
    numberText (.integer value) ≠ numberText (.float float) := by
  intro same
  rcases List.any_eq_true.mp float.fractional with ⟨letter, letterMem, isMark⟩
  have plain := integerText_letter (same ▸ letterMem : letter ∈ numberText (.integer value))
  simp only [Bool.or_eq_true, decide_eq_true_eq] at isMark
  rcases isMark with rfl | rfl <;> revert plain <;> decide

theorem integerText_ne_stringText (value : ℤ) (string : String) :
    numberText (.integer value) ≠ stringText string := by
  intro same
  have quoteMem : '"' ∈ numberText (.integer value) := by
    rw [same]
    simp [stringText]
  have plain := integerText_letter quoteMem
  revert plain
  decide

theorem eq_integer_of_text {value : Value} {id : ℤ}
    (isIdentity : value.isString = true ∨ value.isNumber = true)
    (sameText : value.text = (integer id).text) : value = integer id := by
  have sameLetters : value.letters = numberText (.integer id) := String.ofList_injective sameText
  cases value with
  | string string => exact absurd sameLetters.symm (integerText_ne_stringText id string)
  | number number =>
      cases number with
      | integer value =>
          have same : toString value = toString id := String.toList_injective sameLetters
          rw [Int.repr_inj.mp same]
          rfl
      | float float => exact absurd sameLetters.symm (integerText_ne_floatText id float)
  | _ => simp [isString, isNumber] at isIdentity

theorem integer_text_injective {first second : ℤ}
    (same : (integer first).text = (integer second).text) : first = second := by
  have sameText : toString first = toString second :=
    String.toList_injective (String.ofList_injective same)
  exact Int.repr_inj.mp sameText

end Value

end Brunomnia.Serde
