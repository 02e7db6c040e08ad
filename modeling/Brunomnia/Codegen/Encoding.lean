import Brunomnia.Codegen.Materialize

/-!
# Texts that stay as they are

Texts without braces hold no template, methods are normalised once, and form encoding
leaves only texts of unreserved characters.
-/

namespace Brunomnia.Codegen

/-! ## Templates -/

theorem templateAt_of_ne {letter : Char} (notBrace : letter ≠ '{') (rest : Text) :
    templateAt (letter :: rest) = none := by
  unfold templateAt
  rw [if_neg]
  intro isPrefix
  exact notBrace (List.cons_prefix_cons.mp isPrefix).1.symm

theorem resolveTemplate_cons (values : Text → Option Text) {letter : Char}
    (notBrace : letter ≠ '{') (rest : Text) :
    resolveTemplate values (letter :: rest) = letter :: resolveTemplate values rest := by
  unfold resolveTemplate
  rw [resolveAfter, templateAt_of_ne notBrace]

theorem resolveTemplate_of_notMem (values : Text → Option Text) {text : Text}
    (noBrace : '{' ∉ text) : resolveTemplate values text = text := by
  induction text with
  | nil => rfl
  | cons letter text ih =>
      rw [List.mem_cons, not_or] at noBrace
      rw [resolveTemplate_cons values (Ne.symm noBrace.1), ih noBrace.2]

/-! ## Splitting -/

theorem splitFirst_append {separator : Char} {before : Text} (notMem : separator ∉ before)
    (after : Text) :
    splitFirst separator (before ++ separator :: after) = some (before, after) := by
  have beforeAll : ∀ letter ∈ before, decide (letter ≠ separator) = true := by
    intro letter letterMem
    rw [decide_eq_true_eq]
    rintro rfl
    exact notMem letterMem
  unfold splitFirst
  rw [if_pos (by simp), List.takeWhile_append_of_pos beforeAll,
    List.dropWhile_append_of_pos beforeAll]
  simp

/-! ## Methods -/

theorem isMethodCharacter_cases {letter : Char} (isMethod : isMethodCharacter letter = true) :
    (48 ≤ letter.toNat ∧ letter.toNat ≤ 90) ∨ letter ∈ "!#$%&'*+.^_`|~-".toList := by
  unfold isMethodCharacter at isMethod
  rw [Bool.or_eq_true, Bool.or_eq_true, decide_eq_true_eq] at isMethod
  rcases isMethod with (isUpper | isDigit) | isSymbol
  · have bounds : 65 ≤ letter.toNat ∧ letter.toNat ≤ 90 := by
      simpa [Char.isUpper, UInt32.le_iff_toNat_le] using isUpper
    omega
  · have bounds : 48 ≤ letter.toNat ∧ letter.toNat ≤ 57 := by
      simpa [Char.isDigit, UInt32.le_iff_toNat_le] using isDigit
    omega
  · exact Or.inr isSymbol

theorem upperChar_of_isMethodCharacter {letter : Char}
    (isMethod : isMethodCharacter letter = true) : upperChar letter = [letter] := by
  rcases isMethodCharacter_cases isMethod with ⟨low, high⟩ | isSymbol
  · have kept : letter.toUpper = letter := by
      have notLower : ¬(97 ≤ letter.val.toNat ∧ letter.val.toNat ≤ 122) := by
        intro ⟨isLower, _⟩
        change letter.val.toNat ≤ 90 at high
        omega
      simp only [Char.toUpper, UInt32.le_iff_toNat_le]
      exact dif_neg notLower
    unfold upperChar
    split <;> first | omega | rw [kept]
  · simp only [String.reduceToList, List.mem_cons, List.not_mem_nil, or_false] at isSymbol
    rcases isSymbol with rfl | rfl | rfl | rfl | rfl | rfl | rfl | rfl | rfl | rfl | rfl | rfl |
      rfl | rfl | rfl <;> rfl

theorem notBlank_of_isMethodCharacter {letter : Char}
    (isMethod : isMethodCharacter letter = true) : isWhiteSpace letter = false := by
  rcases isMethodCharacter_cases isMethod with ⟨low, high⟩ | isSymbol
  · simp only [isWhiteSpace, List.mem_cons, List.not_mem_nil, or_false, decide_eq_false_iff_not]
    omega
  · simp only [String.reduceToList, List.mem_cons, List.not_mem_nil, or_false] at isSymbol
    rcases isSymbol with rfl | rfl | rfl | rfl | rfl | rfl | rfl | rfl | rfl | rfl | rfl | rfl |
      rfl | rfl | rfl <;> rfl

theorem trimText_of_notBlank {text : Text}
    (noBlank : ∀ letter ∈ text, isWhiteSpace letter = false) : trimText text = text := by
  have kept : ∀ letters : Text, (∀ letter ∈ letters, isWhiteSpace letter = false) →
      letters.dropWhile isWhiteSpace = letters := by
    intro letters noBlank
    cases letters with
    | nil => rfl
    | cons first rest =>
        rw [List.dropWhile_cons_of_neg]
        simp [noBlank first]
  unfold trimText
  rw [kept text noBlank, kept text.reverse fun letter letterMem =>
    noBlank letter (List.mem_reverse.mp letterMem), List.reverse_reverse]

/-- A method in its normal form. -/
structure IsMethod (method : Text) : Prop where
  notEmpty : method ≠ []
  short : method.length ≤ 32
  characters : ∀ letter ∈ method, isMethodCharacter letter = true

theorem normalizeHttpMethod_of_isMethod {method : Text} (isMethod : IsMethod method)
    (fallback : Text) : normalizeHttpMethod method fallback = method := by
  have trimmed : trimText method = method := trimText_of_notBlank fun letter letterMem =>
    notBlank_of_isMethodCharacter (isMethod.characters letter letterMem)
  have upper : upperText method = method := by
    unfold upperText
    rw [List.flatMap_congr fun letter letterMem =>
      upperChar_of_isMethodCharacter (isMethod.characters letter letterMem)]
    exact List.flatMap_singleton' method
  unfold normalizeHttpMethod
  dsimp only
  rw [trimmed, upper, if_pos ⟨isMethod.notEmpty, isMethod.short, isMethod.characters⟩]

theorem normalizeHttpMethod_cases (value fallback : Text) :
    IsMethod (normalizeHttpMethod value fallback) ∨
      normalizeHttpMethod value fallback = fallback := by
  unfold normalizeHttpMethod
  dsimp only
  split
  case isTrue accepted => exact Or.inl ⟨accepted.1, accepted.2.1, accepted.2.2⟩
  case isFalse => exact Or.inr rfl

/-! ## Forms -/

theorem length_percentEncode (letter : Char) : 3 ≤ (percentEncode letter).length := by
  have bytes : String.utf8EncodeChar letter ≠ [] := by
    intro noBytes
    have length := String.length_utf8EncodeChar letter
    rw [noBytes, List.length_nil] at length
    have positive := Char.utf8Size_pos letter
    omega
  unfold percentEncode
  cases byteEq : String.utf8EncodeChar letter with
  | nil => exact absurd byteEq bytes
  | cons byte rest => simp

theorem length_encodeFormChar (letter : Char) : 1 ≤ (encodeFormChar letter).length := by
  unfold encodeFormChar
  split
  · simp
  · split
    · simp
    · have long := length_percentEncode letter
      omega

theorem length_encodeForm (text : Text) : text.length ≤ (encodeForm text).length := by
  induction text with
  | nil => simp
  | cons letter text ih =>
      have first := length_encodeFormChar letter
      unfold encodeForm at *
      rw [List.flatMap_cons, List.length_append, List.length_cons]
      omega

theorem encodeForm_of_unreserved {text : Text}
    (unreserved : ∀ letter ∈ text, isFormUnreserved letter = true) : encodeForm text = text := by
  unfold encodeForm
  rw [List.flatMap_congr fun letter letterMem =>
    show encodeFormChar letter = [letter] from if_pos (unreserved letter letterMem)]
  exact List.flatMap_singleton' text

/-- Encoding leaves a text without spaces only if nothing in it is encoded. -/
theorem unreserved_of_encodeForm {text : Text} (noSpace : ' ' ∉ text)
    (same : encodeForm text = text) : ∀ letter ∈ text, isFormUnreserved letter = true := by
  induction text with
  | nil => simp
  | cons letter text ih =>
      rw [List.mem_cons, not_or] at noSpace
      have parts : encodeFormChar letter ++ encodeForm text = letter :: text := same
      by_cases unreserved : isFormUnreserved letter = true
      · rw [encodeFormChar, if_pos unreserved, List.singleton_append, List.cons.injEq] at parts
        intro other otherMem
        rcases List.mem_cons.mp otherMem with rfl | later
        · exact unreserved
        · exact ih noSpace.2 parts.2 other later
      · rw [encodeFormChar, if_neg unreserved, if_neg (Ne.symm noSpace.1)] at parts
        have lengths := congrArg List.length parts
        rw [List.length_append, List.length_cons] at lengths
        have first := length_percentEncode letter
        have others := length_encodeForm text
        omega

theorem hexDigit_form {value : ℕ} (small : value < 16) :
    isFormUnreserved (hexDigit value) = true := by
  interval_cases value <;> decide

theorem encodeForm_characters (text : Text) :
    ∀ letter ∈ encodeForm text,
      isFormUnreserved letter = true ∨ letter = '%' ∨ letter = '+' := by
  intro letter letterMem
  obtain ⟨source, _, isPart⟩ := List.mem_flatMap.mp letterMem
  unfold encodeFormChar at isPart
  split at isPart
  case isTrue unreserved =>
    rw [List.mem_singleton] at isPart
    subst isPart
    exact Or.inl unreserved
  case isFalse =>
    split at isPart
    case isTrue =>
      rw [List.mem_singleton] at isPart
      exact Or.inr (Or.inr isPart)
    case isFalse =>
      obtain ⟨byte, _, isDigit⟩ := List.mem_flatMap.mp isPart
      have byteSmall := byte.toNat_lt
      simp only [List.mem_cons, List.not_mem_nil, or_false] at isDigit
      rcases isDigit with rfl | rfl | rfl
      · exact Or.inr (Or.inl rfl)
      · exact Or.inl (hexDigit_form (by omega))
      · exact Or.inl (hexDigit_form (by omega))

end Brunomnia.Codegen
