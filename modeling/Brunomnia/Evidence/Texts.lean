import Brunomnia.Library.Budgets
import Brunomnia.Streaming.Lossy

/-!
# Texts as code units

The strings of JavaScript are UTF-16 code units, and half of a surrogate pair may stand without
the other one. This file reads a string as code points, as iterating over it does, and follows
it through `TextEncoder`, which puts the replacement character in the place of such a half, and
through a fatal `TextDecoder`, which drops a byte order mark.
-/

namespace Brunomnia.Evidence

open Library
open Streaming (replacementCharacter fromUtf8Lossy fromUtf8Lossy_encode decodeAfter
  decodeAfter_encode toNat_charOfNat)

abbrev Text := List UInt16

def isHighSurrogate (unit : UInt16) : Bool :=
  55296 ≤ unit.toNat && unit.toNat ≤ 56319

def isLowSurrogate (unit : UInt16) : Bool :=
  56320 ≤ unit.toNat && unit.toNat ≤ 57343

/-- A code point of a string: a character or a surrogate without its other half. -/
inductive CodePoint where
  | scalar (letter : Char)
  | surrogate (unit : UInt16)
  deriving DecidableEq

/-- The code point of a unit that is no half of a pair. -/
def unitPoint (unit : UInt16) : CodePoint :=
  if isHighSurrogate unit || isLowSurrogate unit then .surrogate unit
  else .scalar (Char.ofNat unit.toNat)

def pairLetter (high low : UInt16) : Char :=
  Char.ofNat (65536 + (high.toNat - 55296) * 1024 + (low.toNat - 56320))

/-- `[...value]` -/
def codePoints : Text → List CodePoint
  | [] => []
  | [unit] => [unitPoint unit]
  | first :: second :: rest =>
      if isHighSurrogate first && isLowSurrogate second then
        .scalar (pairLetter first second) :: codePoints rest
      else unitPoint first :: codePoints (second :: rest)

def letterUnits (letter : Char) : Text :=
  if letter.toNat < 65536 then [UInt16.ofNat letter.toNat]
  else
    [UInt16.ofNat (55296 + (letter.toNat - 65536) / 1024),
      UInt16.ofNat (56320 + (letter.toNat - 65536) % 1024)]

def ofLetters (letters : List Char) : Text :=
  letters.flatMap letterUnits

/-- A string literal. -/
def text (literal : String) : Text :=
  ofLetters literal.toList

/-- The character that stands for a code point in an encoding. -/
def CodePoint.letter : CodePoint → Char
  | .scalar letter => letter
  | .surrogate _ => replacementCharacter

/-- The number of bytes of a code point in UTF-8. -/
def CodePoint.size (point : CodePoint) : ℕ :=
  point.letter.utf8Size

def scalars (value : Text) : List Char :=
  (codePoints value).map CodePoint.letter

/-- `new TextEncoder().encode(value)` -/
def encode (value : Text) : List UInt8 :=
  (scalars value).flatMap String.utf8EncodeChar

/-- `new TextEncoder().encode(value).byteLength` -/
def byteLength (value : Text) : ℕ :=
  (encode value).length

def byteOrderMark : Char := Char.ofNat 65279

def dropMark : List Char → List Char
  | [] => []
  | letter :: rest => if letter = byteOrderMark then rest else letter :: rest

/-- The characters of bytes that are UTF-8, so that no sequence has to be replaced. -/
def decodeFatal (bytes : List UInt8) : Option (List Char) :=
  if (fromUtf8Lossy bytes).flatMap String.utf8EncodeChar = bytes then some (fromUtf8Lossy bytes)
  else none

/-- `new TextDecoder('utf-8', { fatal: true }).decode(bytes)`, without result where it throws. -/
def decode (bytes : List UInt8) : Option Text :=
  (decodeFatal bytes).map fun letters => ofLetters (dropMark letters)

/-! ## Characters -/

theorem toNat_bounds (letter : Char) :
    letter.toNat < 55296 ∨ 57343 < letter.toNat ∧ letter.toNat < 1114112 :=
  letter.valid

theorem codePoints_cons {unit : UInt16} (notHigh : isHighSurrogate unit = false) (rest : Text) :
    codePoints (unit :: rest) = unitPoint unit :: codePoints rest := by
  cases rest with
  | nil => rfl
  | cons second rest => simp [codePoints, notHigh]

/-- A character of a string is one code point. -/
theorem codePoints_letterUnits_append (letter : Char) (rest : Text) :
    codePoints (letterUnits letter ++ rest) = .scalar letter :: codePoints rest := by
  have bounds := toNat_bounds letter
  have isLetter := Char.ofNat_toNat letter
  unfold letterUnits
  split
  case isTrue plane =>
      have unit : (UInt16.ofNat letter.toNat).toNat = letter.toNat := by
        rw [UInt16.toNat_ofNat', Nat.mod_eq_of_lt plane]
      have notHigh : isHighSurrogate (UInt16.ofNat letter.toNat) = false := by
        simp only [isHighSurrogate, unit, Bool.and_eq_false_iff, decide_eq_false_iff_not]
        omega
      have notLow : isLowSurrogate (UInt16.ofNat letter.toNat) = false := by
        simp only [isLowSurrogate, unit, Bool.and_eq_false_iff, decide_eq_false_iff_not]
        omega
      rw [List.singleton_append, codePoints_cons notHigh, unitPoint, notHigh, notLow, unit,
        isLetter]
      rfl
  case isFalse beyond =>
      have high : (UInt16.ofNat (55296 + (letter.toNat - 65536) / 1024)).toNat =
          55296 + (letter.toNat - 65536) / 1024 := by
        rw [UInt16.toNat_ofNat', Nat.mod_eq_of_lt (by omega)]
      have low : (UInt16.ofNat (56320 + (letter.toNat - 65536) % 1024)).toNat =
          56320 + (letter.toNat - 65536) % 1024 := by
        rw [UInt16.toNat_ofNat', Nat.mod_eq_of_lt (by omega)]
      have isPair : (isHighSurrogate (UInt16.ofNat (55296 + (letter.toNat - 65536) / 1024)) &&
          isLowSurrogate (UInt16.ofNat (56320 + (letter.toNat - 65536) % 1024))) = true := by
        simp only [isHighSurrogate, isLowSurrogate, high, low, Bool.and_eq_true, decide_eq_true_eq]
        omega
      have code : 65536 + (55296 + (letter.toNat - 65536) / 1024 - 55296) * 1024 +
          (56320 + (letter.toNat - 65536) % 1024 - 56320) = letter.toNat := by omega
      rw [List.cons_append, List.cons_append, List.nil_append, codePoints, if_pos isPair,
        pairLetter, high, low, code, isLetter]

theorem codePoints_ofLetters (letters : List Char) :
    codePoints (ofLetters letters) = letters.map CodePoint.scalar := by
  induction letters with
  | nil => rfl
  | cons letter rest ih =>
      rw [ofLetters, List.flatMap_cons, codePoints_letterUnits_append, List.map_cons, ← ih]
      rfl

@[simp]
theorem scalars_ofLetters (letters : List Char) : scalars (ofLetters letters) = letters := by
  rw [scalars, codePoints_ofLetters, List.map_map]
  exact List.map_id letters

/-! ## Encoding -/

theorem length_encodeLetters (letters : List Char) :
    (letters.flatMap String.utf8EncodeChar).length = cost Char.utf8Size letters := by
  simp [List.length_flatMap, cost, String.length_utf8EncodeChar]

theorem byteLength_eq_cost (value : Text) :
    byteLength value = cost CodePoint.size (codePoints value) := by
  rw [byteLength, encode, length_encodeLetters, scalars, cost_map]
  rfl

theorem byteLength_ofLetters (letters : List Char) :
    byteLength (ofLetters letters) = cost Char.utf8Size letters := by
  rw [byteLength, encode, scalars_ofLetters, length_encodeLetters]

@[simp]
theorem byteLength_nil : byteLength [] = 0 := rfl

theorem decodeAfter_encodeLetters (letters : List Char) (rest : List UInt8) :
    decodeAfter 0 (letters.flatMap String.utf8EncodeChar ++ rest) =
      letters ++ decodeAfter 0 rest := by
  induction letters with
  | nil => rfl
  | cons letter tail ih =>
      rw [List.flatMap_cons, List.append_assoc, decodeAfter_encode, ih, List.cons_append]

theorem start_of_encode {letters other : List Char}
    (start : letters.flatMap String.utf8EncodeChar <+: other.flatMap String.utf8EncodeChar) :
    letters <+: other := by
  rcases start with ⟨rest, same⟩
  have decoded := congrArg (decodeAfter 0) same
  rw [decodeAfter_encodeLetters] at decoded
  exact ⟨decodeAfter 0 rest, decoded.trans (fromUtf8Lossy_encode other)⟩

theorem decodeFatal_eq_some_iff {bytes : List UInt8} {letters : List Char} :
    decodeFatal bytes = some letters ↔ letters.flatMap String.utf8EncodeChar = bytes := by
  unfold decodeFatal
  constructor
  · intro decoded
    split at decoded
    case isTrue exact =>
        rw [← Option.some.inj decoded]
        exact exact
    case isFalse => cases decoded
  · rintro rfl
    rw [fromUtf8Lossy_encode, if_pos rfl]

/-! ## Starts of texts -/

/-- A text is the start of another one, up to a border between characters. -/
def StartsText (kept source : Text) : Prop :=
  codePoints kept <+: codePoints source

/-- What a fatal decoder makes of the bytes of code points. -/
def cutText (part : List CodePoint) : Text :=
  ofLetters (dropMark (part.map CodePoint.letter))

/-- The code points that encoding and decoding keep: there are no halves of pairs among them,
and no byte order mark in front of anything but more of them. -/
def Readable (part : List CodePoint) : Prop :=
  (∀ point ∈ part, .scalar point.letter = point) ∧
    (part.head? = some (.scalar byteOrderMark) → ∀ point ∈ part, point = .scalar byteOrderMark)

instance : DecidablePred Readable :=
  fun _ => inferInstanceAs (Decidable (_ ∧ _))

instance (kept source : Text) : Decidable (StartsText kept source) :=
  inferInstanceAs (Decidable (_ <+: _))

theorem StartsText.refl (value : Text) : StartsText value value :=
  List.prefix_rfl

theorem codePoints_cutText (part : List CodePoint) :
    codePoints (cutText part) =
      (dropMark (part.map CodePoint.letter)).map CodePoint.scalar :=
  codePoints_ofLetters _

theorem letter_eq_mark_iff {point : CodePoint} :
    point.letter = byteOrderMark ↔ point = .scalar byteOrderMark := by
  cases point with
  | scalar letter => simp [CodePoint.letter]
  | surrogate unit => simp [CodePoint.letter, replacementCharacter, byteOrderMark]

theorem map_scalar_letter {part : List CodePoint}
    (whole : ∀ point ∈ part, .scalar point.letter = point) :
    (part.map CodePoint.letter).map CodePoint.scalar = part := by
  rw [List.map_map]
  conv_rhs => rw [← List.map_id part]
  exact List.map_congr_left whole

theorem all_marks_of_start {part : List CodePoint}
    (start : (part.map CodePoint.letter).map CodePoint.scalar <+: .scalar byteOrderMark :: part) :
    ∀ point ∈ part, point = .scalar byteOrderMark := by
  induction part with
  | nil => simp
  | cons point rest ih =>
      rw [List.map_cons, List.map_cons, List.cons_prefix_cons] at start
      have isMark : point = .scalar byteOrderMark :=
        letter_eq_mark_iff.mp (CodePoint.scalar.inj start.1)
      rw [isMark] at start
      intro other otherMem
      rcases List.mem_cons.mp otherMem with rfl | otherMem
      · exact isMark
      · exact ih start.2 other otherMem

/-- Decoding the bytes of a start of a text makes a start of the text exactly if these are
code points that decoding keeps. -/
theorem startsText_cutText_iff {part : List CodePoint} {source : Text}
    (start : part <+: codePoints source) : StartsText (cutText part) source ↔ Readable part := by
  rw [StartsText, codePoints_cutText]
  cases part with
  | nil => simp [dropMark, Readable]
  | cons point rest =>
      rw [List.map_cons, dropMark]
      split
      case isTrue marked =>
          have isMark := letter_eq_mark_iff.mp marked
          subst isMark
          constructor
          · intro starts
            have shorter : (rest.map CodePoint.letter).map CodePoint.scalar <+:
                .scalar byteOrderMark :: rest :=
              List.prefix_of_prefix_length_le starts start (by simp)
            have marks := all_marks_of_start shorter
            have all : ∀ other ∈ CodePoint.scalar byteOrderMark :: rest,
                other = .scalar byteOrderMark := by
              intro other otherMem
              rcases List.mem_cons.mp otherMem with rfl | otherMem
              · rfl
              · exact marks other otherMem
            refine ⟨?_, fun _ => all⟩
            intro other otherMem
            rw [all other otherMem]
            rfl
          · rintro ⟨whole, marks⟩
            have isRest := map_scalar_letter fun other isRest =>
              whole other (List.mem_cons_of_mem _ isRest)
            rw [isRest]
            refine List.IsPrefix.trans ?_ start
            have replicated : CodePoint.scalar byteOrderMark :: rest =
                List.replicate (rest.length + 1) (.scalar byteOrderMark) :=
              List.eq_replicate_of_mem (marks rfl)
            have restReplicated : rest = List.replicate rest.length (.scalar byteOrderMark) :=
              List.eq_replicate_of_mem fun other isRest =>
                marks rfl other (List.mem_cons_of_mem _ isRest)
            rw [replicated, List.replicate_succ', ← restReplicated]
            exact List.prefix_append _ _
      case isFalse plain =>
          have notMark : point ≠ .scalar byteOrderMark := fun isMark =>
            plain (letter_eq_mark_iff.mpr isMark)
          rw [← List.map_cons]
          constructor
          · intro starts
            have same : ((point :: rest).map CodePoint.letter).map CodePoint.scalar =
                point :: rest := by
              apply List.IsPrefix.eq_of_length
              · exact List.prefix_of_prefix_length_le starts start (by simp)
              · simp
            refine ⟨?_, ?_⟩
            · intro other isPart
              rw [← same] at isPart
              rcases List.mem_map.mp isPart with ⟨letter, -, rfl⟩
              rfl
            · intro isHead
              exact absurd (Option.some.inj isHead) notMark
          · rintro ⟨whole, _⟩
            rw [map_scalar_letter whole]
            exact start

end Brunomnia.Evidence
