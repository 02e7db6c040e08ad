import Mathlib

/-!
# Strings of the two runtimes

JavaScript measures and cuts strings in UTF-16 code units and trims a fixed set
of white space; Rust counts characters. A cut through a surrogate pair drops the
whole character here, where JavaScript keeps a lone half.
-/

namespace Brunomnia

/-- The number of UTF-16 code units of a character. -/
def utf16Units (letter : Char) : ℕ :=
  if letter.toNat < 65536 then 1 else 2

/-- `value.length` in JavaScript. -/
def utf16Length (value : String) : ℕ :=
  (value.toList.map utf16Units).sum

/-- The longest start of a list of characters with at most that many units. -/
def takeUnits : ℕ → List Char → List Char
  | _, [] => []
  | limit, letter :: rest =>
      if utf16Units letter ≤ limit then letter :: takeUnits (limit - utf16Units letter) rest
      else []

/-- `value.slice(0, limit)` in JavaScript. -/
def sliceUnits (value : String) (limit : ℕ) : String :=
  String.ofList (takeUnits limit value.toList)

/-- The characters of `\s`, which `trim` removes as well. -/
def isWhiteSpace (letter : Char) : Bool :=
  letter.toNat ∈ [9, 10, 11, 12, 13, 32, 160, 5760, 8232, 8233, 8239, 8287, 12288, 65279] ∨
    (8192 ≤ letter.toNat ∧ letter.toNat ≤ 8202)

/-- `value.trim()` in JavaScript. -/
def trim (value : String) : String :=
  String.ofList ((value.toList.dropWhile isWhiteSpace).reverse.dropWhile isWhiteSpace).reverse

/-- `text.toLowerCase()`, for the ASCII texts that branch names are. -/
def toLowerCase (text : String) : String :=
  String.ofList (text.toList.map Char.toLower)

def isAlphanumeric (letter : Char) : Bool :=
  letter.isAlpha || letter.isDigit

theorem takeUnits_eq_self {limit : ℕ} {letters : List Char}
    (fits : (letters.map utf16Units).sum ≤ limit) : takeUnits limit letters = letters := by
  induction letters generalizing limit with
  | nil => rfl
  | cons letter rest ih =>
      rw [List.map_cons, List.sum_cons] at fits
      rw [takeUnits, if_pos (by omega), ih (by omega)]

theorem takeUnits_length_le (limit : ℕ) (letters : List Char) :
    ((takeUnits limit letters).map utf16Units).sum ≤ limit := by
  induction letters generalizing limit with
  | nil => simp [takeUnits]
  | cons letter rest ih =>
      unfold takeUnits
      split
      · rw [List.map_cons, List.sum_cons]
        have tail := ih (limit - utf16Units letter)
        omega
      · simp

theorem sliceUnits_eq_self {value : String} {limit : ℕ} (fits : utf16Length value ≤ limit) :
    sliceUnits value limit = value := by
  rw [sliceUnits, takeUnits_eq_self fits, String.ofList_toList]

theorem utf16Length_sliceUnits_le (value : String) (limit : ℕ) :
    utf16Length (sliceUnits value limit) ≤ limit := by
  rw [sliceUnits, utf16Length, String.toList_ofList]
  exact takeUnits_length_le limit value.toList

end Brunomnia
