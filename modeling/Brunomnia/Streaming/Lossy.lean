import Brunomnia.Library.Splitting

/-!
# Decoding bytes as text

The decoding of bytes that may not be UTF-8: every sequence that no character has becomes
one replacement character, as long as it could have been the start of one. An ASCII
byte never belongs to a longer sequence, so text can be split at it before or after
decoding.
-/

namespace Brunomnia.Streaming

open Library

def isContinuation (byte : ℕ) : Bool :=
  128 ≤ byte && byte ≤ 191

/-- The number of bytes of the character that a byte starts, 0 if it starts none. -/
def charWidth (first : ℕ) : ℕ :=
  if first < 128 then 1
  else if 194 ≤ first ∧ first ≤ 223 then 2
  else if 224 ≤ first ∧ first ≤ 239 then 3
  else if 240 ≤ first ∧ first ≤ 244 then 4
  else 0

/-- The second bytes that avoid overlong forms, surrogates and what is past the last
character. -/
def secondFits (first second : ℕ) : Bool :=
  if first = 224 then 160 ≤ second && second ≤ 191
  else if first = 237 then 128 ≤ second && second ≤ 159
  else if first = 240 then 144 ≤ second && second ≤ 191
  else if first = 244 then 128 ≤ second && second ≤ 143
  else isContinuation second

def replacementCharacter : Char := Char.ofNat 65533

/-- The character of a first byte and the up to three bytes after it, with the number of
those that it takes. -/
def decodeScalar (first second third fourth : ℕ) : Char × ℕ :=
  match charWidth first with
  | 1 => (Char.ofNat first, 0)
  | 2 =>
      if isContinuation second then (Char.ofNat ((first - 192) * 64 + (second - 128)), 1)
      else (replacementCharacter, 0)
  | 3 =>
      if secondFits first second then
        if isContinuation third then
          (Char.ofNat ((first - 224) * 4096 + (second - 128) * 64 + (third - 128)), 2)
        else (replacementCharacter, 1)
      else (replacementCharacter, 0)
  | 4 =>
      if secondFits first second then
        if isContinuation third then
          if isContinuation fourth then
            (Char.ofNat ((first - 240) * 262144 + (second - 128) * 4096 + (third - 128) * 64 +
              (fourth - 128)), 3)
          else (replacementCharacter, 2)
        else (replacementCharacter, 1)
      else (replacementCharacter, 0)
  | _ => (replacementCharacter, 0)

/-- The character that starts with a byte. What is missing after it reads as 0. -/
def decodeSequence (first : ℕ) (rest : List UInt8) : Char × ℕ :=
  decodeScalar first (rest.getD 0 0).toNat (rest.getD 1 0).toNat (rest.getD 2 0).toNat

/-- Decode after a number of bytes that belong to the last character. -/
def decodeAfter : ℕ → List UInt8 → List Char
  | _, [] => []
  | skipped + 1, _ :: rest => decodeAfter skipped rest
  | 0, first :: rest =>
      (decodeSequence first.toNat rest).1 :: decodeAfter (decodeSequence first.toNat rest).2 rest

/-- `String::from_utf8_lossy`. -/
def fromUtf8Lossy (bytes : List UInt8) : List Char :=
  decodeAfter 0 bytes

theorem secondFits_of_ascii {first second : ℕ} (ascii : second < 128) :
    secondFits first second = false := by
  unfold secondFits isContinuation
  split_ifs <;> simp <;> omega

theorem isContinuation_of_ascii {byte : ℕ} (ascii : byte < 128) :
    isContinuation byte = false := by
  simp [isContinuation]
  omega

theorem toNat_charOfNat (code : ℕ) :
    (Char.ofNat code).toNat = if code.isValidChar then code else 0 := by
  unfold Char.ofNat
  split
  · simp [*, Char.toNat, Char.ofNatAux]
  · simp [*, Char.toNat]

theorem decodeScalar_second {first second third fourth : ℕ} (ascii : second < 128) :
    decodeScalar first second third fourth = decodeScalar first 0 0 0 := by
  unfold decodeScalar
  rw [isContinuation_of_ascii ascii, isContinuation_of_ascii (show 0 < 128 by omega),
    secondFits_of_ascii ascii, secondFits_of_ascii (show 0 < 128 by omega)]
  split <;> simp

theorem decodeScalar_zero (first : ℕ) : (decodeScalar first 0 0 0).2 = 0 := by
  unfold decodeScalar
  rw [isContinuation_of_ascii (show 0 < 128 by omega),
    secondFits_of_ascii (show 0 < 128 by omega)]
  split <;> simp

theorem decodeScalar_third {first second third fourth : ℕ} (ascii : third < 128) :
    decodeScalar first second third fourth = decodeScalar first second 0 0 ∧
      (decodeScalar first second 0 0).2 ≤ 1 := by
  unfold decodeScalar
  rw [isContinuation_of_ascii ascii, isContinuation_of_ascii (show 0 < 128 by omega)]
  split <;> simp <;> split_ifs <;> simp

theorem decodeScalar_fourth {first second third fourth : ℕ} (ascii : fourth < 128) :
    decodeScalar first second third fourth = decodeScalar first second third 0 ∧
      (decodeScalar first second third 0).2 ≤ 2 := by
  unfold decodeScalar
  rw [isContinuation_of_ascii ascii, isContinuation_of_ascii (show 0 < 128 by omega)]
  split <;> simp <;> split_ifs <;> simp

theorem decodeScalar_le (first second third fourth : ℕ) :
    (decodeScalar first second third fourth).2 ≤ 3 := by
  unfold decodeScalar
  split
  · simp
  · split_ifs <;> simp
  · split_ifs <;> simp
  · split_ifs <;> simp
  · simp

section Ascii

variable {separator : UInt8}

theorem decodeSequence_ascii (ascii : separator.toNat < 128) (first : ℕ)
    (rest more : List UInt8) :
    decodeSequence first (rest ++ separator :: more) = decodeSequence first rest ∧
      (decodeSequence first rest).2 ≤ rest.length := by
  unfold decodeSequence
  rcases rest with _ | ⟨second, _ | ⟨third, _ | ⟨fourth, rest⟩⟩⟩
  · exact ⟨decodeScalar_second ascii, Nat.le_of_eq (decodeScalar_zero first)⟩
  · exact decodeScalar_third ascii
  · exact decodeScalar_fourth ascii
  · refine ⟨rfl, (decodeScalar_le _ _ _ _).trans ?_⟩
    simp

theorem decodeAfter_ascii (ascii : separator.toNat < 128) {skipped : ℕ} {first : List UInt8}
    (within : skipped ≤ first.length) (more : List UInt8) :
    decodeAfter skipped (first ++ separator :: more) =
      decodeAfter skipped first ++ Char.ofNat separator.toNat :: decodeAfter 0 more := by
  induction first generalizing skipped with
  | nil =>
      have noneSkipped : skipped = 0 := Nat.le_zero.mp within
      subst noneSkipped
      simp [decodeAfter, decodeSequence, decodeScalar, charWidth, ascii]
  | cons byte first ih =>
      cases skipped with
      | succ skipped => exact ih (Nat.le_of_succ_le_succ within)
      | zero =>
          have bounded := decodeSequence_ascii ascii byte.toNat first more
          simp only [List.cons_append, decodeAfter, bounded.1]
          rw [ih bounded.2]

theorem fromUtf8Lossy_append (separator : UInt8) (ascii : separator.toNat < 128)
    (first more : List UInt8) :
    fromUtf8Lossy (first ++ separator :: more) =
      fromUtf8Lossy first ++ Char.ofNat separator.toNat :: fromUtf8Lossy more :=
  decodeAfter_ascii ascii (Nat.zero_le _) more

/-- No other code than that of an ASCII character but 0 gives that character. -/
theorem charOfNat_ne_ascii {code : ℕ} (ascii : separator.toNat < 128)
    (positive : 0 < separator.toNat) (different : code ≠ separator.toNat) :
    Char.ofNat code ≠ Char.ofNat separator.toNat := by
  intro sameChar
  have sameCode := congrArg Char.toNat sameChar
  have separatorValid : separator.toNat.isValidChar := Or.inl (by omega)
  rw [toNat_charOfNat, toNat_charOfNat, if_pos separatorValid] at sameCode
  split at sameCode <;> omega

theorem decodeScalar_ascii {first : ℕ} (ascii : first < 128) (second third fourth : ℕ) :
    (decodeScalar first second third fourth).1 = Char.ofNat first := by
  simp [decodeScalar, charWidth, ascii]

/-- A longer sequence stands for a character that is not ASCII. -/
theorem decodeScalar_wide {first : ℕ} (wide : 128 ≤ first) (second third fourth : ℕ) :
    ∃ code ≥ 128, (decodeScalar first second third fourth).1 = Char.ofNat code := by
  have replaced : ∃ code ≥ 128, replacementCharacter = Char.ofNat code := ⟨65533, by omega, rfl⟩
  unfold decodeScalar
  have widths : charWidth first = 0 ∨ (charWidth first = 2 ∧ 194 ≤ first) ∨
      (charWidth first = 3 ∧ 224 ≤ first) ∨ (charWidth first = 4 ∧ 240 ≤ first) := by
    unfold charWidth
    split_ifs <;> omega
  have secondFits_ge : secondFits first second = true →
      128 ≤ second ∧ (first = 224 → 160 ≤ second) ∧ (first = 240 → 144 ≤ second) := by
    unfold secondFits isContinuation
    split_ifs <;> simp <;> omega
  rcases widths with width | ⟨width, least⟩ | ⟨width, least⟩ | ⟨width, least⟩
  · simpa [width] using replaced
  · simp only [width]
    split
    · dsimp only
      exact ⟨(first - 192) * 64 + (second - 128), by omega, rfl⟩
    · exact replaced
  · simp only [width]
    split
    case isTrue fits =>
      have secondLeast := secondFits_ge fits
      split
      · dsimp only
        exact ⟨(first - 224) * 4096 + (second - 128) * 64 + (third - 128), by omega, rfl⟩
      · exact replaced
    case isFalse => exact replaced
  · simp only [width]
    split
    case isTrue fits =>
      have secondLeast := secondFits_ge fits
      split
      · split
        · dsimp only
          exact ⟨(first - 240) * 262144 + (second - 128) * 4096 + (third - 128) * 64 +
            (fourth - 128), by omega, rfl⟩
        · exact replaced
      · exact replaced
    case isFalse => exact replaced

theorem decodeScalar_ne_ascii (ascii : separator.toNat < 128) (positive : 0 < separator.toNat)
    {first : ℕ} (different : first ≠ separator.toNat) (second third fourth : ℕ) :
    (decodeScalar first second third fourth).1 ≠ Char.ofNat separator.toNat := by
  by_cases firstAscii : first < 128
  · rw [decodeScalar_ascii firstAscii]
    exact charOfNat_ne_ascii ascii positive different
  · rcases decodeScalar_wide (Nat.le_of_not_lt firstAscii) second third fourth with
      ⟨code, wide, decoded⟩
    rw [decoded]
    exact charOfNat_ne_ascii ascii positive (by omega)

theorem notMem_decodeAfter (ascii : separator.toNat < 128) (positive : 0 < separator.toNat)
    {bytes : List UInt8} (notMem : separator ∉ bytes) (skipped : ℕ) :
    Char.ofNat separator.toNat ∉ decodeAfter skipped bytes := by
  induction bytes generalizing skipped with
  | nil => simp [decodeAfter]
  | cons first rest ih =>
      rw [List.mem_cons, not_or] at notMem
      cases skipped with
      | succ skipped => exact ih notMem.2 skipped
      | zero =>
          rw [decodeAfter, List.mem_cons, not_or]
          refine ⟨Ne.symm (decodeScalar_ne_ascii ascii positive ?_ _ _ _), ih notMem.2 _⟩
          intro sameByte
          exact notMem.1 (UInt8.toNat_inj.mp sameByte).symm

theorem splitEnds_fromUtf8Lossy (separator : UInt8) (ascii : separator.toNat < 128)
    (positive : 0 < separator.toNat) (bytes : List UInt8) :
    splitEnds (Char.ofNat separator.toNat) (fromUtf8Lossy bytes) =
      ((splitEnds separator bytes).1.map fromUtf8Lossy,
        fromUtf8Lossy (splitEnds separator bytes).2) := by
  induction lengthEq : bytes.length using Nat.strong_induction_on generalizing bytes with
  | _ length ih =>
      by_cases isMem : separator ∈ bytes
      · rcases List.append_of_mem isMem with ⟨first, rest, rfl⟩
        have firstShorter : first.length < length := by
          simp [← lengthEq]
        have restShorter : rest.length < length := by
          simp [← lengthEq]
          omega
        rw [fromUtf8Lossy_append separator ascii, splitEnds_append, splitEnds_append,
          ih _ firstShorter first rfl, ih _ restShorter rest rfl]
        simp
      · rw [splitEnds_of_notMem isMem, fromUtf8Lossy,
          splitEnds_of_notMem (notMem_decodeAfter ascii positive isMem 0)]
        simp

end Ascii

/-! ## Encoded text -/

theorem decodeScalar_two {first second : ℕ} (lower : 194 ≤ first) (upper : first ≤ 223)
    (fits : 128 ≤ second ∧ second ≤ 191) (third fourth : ℕ) :
    decodeScalar first second third fourth =
      (Char.ofNat ((first - 192) * 64 + (second - 128)), 1) := by
  have width : charWidth first = 2 := by
    rw [charWidth, if_neg (by omega), if_pos ⟨lower, upper⟩]
  simp [decodeScalar, width, isContinuation, fits]

theorem decodeScalar_three {first second third : ℕ} (lower : 224 ≤ first) (upper : first ≤ 239)
    (isSecond : secondFits first second = true) (thirdFits : 128 ≤ third ∧ third ≤ 191)
    (fourth : ℕ) :
    decodeScalar first second third fourth =
      (Char.ofNat ((first - 224) * 4096 + (second - 128) * 64 + (third - 128)), 2) := by
  have width : charWidth first = 3 := by
    rw [charWidth, if_neg (by omega), if_neg (by omega), if_pos ⟨lower, upper⟩]
  simp [decodeScalar, width, isContinuation, isSecond, thirdFits]

theorem decodeScalar_four {first second third fourth : ℕ} (lower : 240 ≤ first)
    (upper : first ≤ 244) (isSecond : secondFits first second = true)
    (thirdFits : 128 ≤ third ∧ third ≤ 191) (fourthFits : 128 ≤ fourth ∧ fourth ≤ 191) :
    decodeScalar first second third fourth =
      (Char.ofNat ((first - 240) * 262144 + (second - 128) * 4096 + (third - 128) * 64 +
        (fourth - 128)), 3) := by
  have width : charWidth first = 4 := by
    rw [charWidth, if_neg (by omega), if_neg (by omega), if_neg (by omega),
      if_pos ⟨lower, upper⟩]
  simp [decodeScalar, width, isContinuation, isSecond, thirdFits, fourthFits]

/-- The bytes of a character are decoded to it. -/
theorem decodeAfter_encode (letter : Char) (rest : List UInt8) :
    decodeAfter 0 (String.utf8EncodeChar letter ++ rest) = letter :: decodeAfter 0 rest := by
  have valid := letter.valid
  have isLetter := Char.ofNat_toNat letter
  change Char.ofNat letter.val.toNat = letter at isLetter
  simp only [UInt32.isValidChar, Nat.isValidChar] at valid
  unfold String.utf8EncodeChar
  generalize letter.val.toNat = code at valid isLetter ⊢
  have decodes : ∀ number, number = code → Char.ofNat number = letter := by
    rintro number rfl
    exact isLetter
  have byte : ∀ number < 256, (UInt8.ofNat number).toNat = number := by
    intro number small
    rw [UInt8.toNat_ofNat', Nat.mod_eq_of_lt small]
  dsimp only
  split
  case isTrue =>
    have scalar : ∀ second third fourth,
        decodeScalar code second third fourth = (Char.ofNat code, 0) := by
      intro second third fourth
      simp [decodeScalar, charWidth, show code < 128 by omega]
    simp only [List.cons_append, List.nil_append, decodeAfter, decodeSequence]
    rw [byte _ (by omega), scalar, isLetter]
  case isFalse =>
    split
    case isTrue =>
      have scalar := @decodeScalar_two (code / 64 % 32 + 192) (code % 64 + 128) (by omega)
        (by omega) (by omega)
      simp only [List.cons_append, List.nil_append, decodeAfter, decodeSequence,
        List.getD_cons_zero, List.getD_cons_succ]
      rw [byte _ (by omega), byte _ (by omega), scalar, decodes _ (by omega)]
      rfl
    case isFalse =>
      split
      case isTrue =>
        have fits : secondFits (code / 4096 % 16 + 224) (code / 64 % 64 + 128) = true := by
          unfold secondFits isContinuation
          split_ifs <;> simp <;> omega
        have scalar := @decodeScalar_three _ _ (code % 64 + 128) (by omega) (by omega) fits
          (by omega)
        simp only [List.cons_append, List.nil_append, decodeAfter, decodeSequence,
          List.getD_cons_zero, List.getD_cons_succ]
        rw [byte _ (by omega), byte _ (by omega), byte _ (by omega), scalar, decodes _ (by omega)]
        rfl
      case isFalse =>
        have fits : secondFits (code / 262144 % 8 + 240) (code / 4096 % 64 + 128) = true := by
          unfold secondFits isContinuation
          split_ifs <;> simp <;> omega
        have scalar := @decodeScalar_four _ _ (code / 64 % 64 + 128) (code % 64 + 128) (by omega)
          (by omega) fits (by omega) (by omega)
        simp only [List.cons_append, List.nil_append, decodeAfter, decodeSequence,
          List.getD_cons_zero, List.getD_cons_succ]
        rw [byte _ (by omega), byte _ (by omega), byte _ (by omega), byte _ (by omega), scalar,
          decodes _ (by omega)]
        rfl

theorem fromUtf8Lossy_encode (text : List Char) :
    fromUtf8Lossy (text.flatMap String.utf8EncodeChar) = text := by
  unfold fromUtf8Lossy
  induction text with
  | nil => rfl
  | cons letter rest ih => rw [List.flatMap_cons, decodeAfter_encode, ih]

end Brunomnia.Streaming
