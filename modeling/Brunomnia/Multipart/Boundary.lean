import Brunomnia.Multipart.Encoder
import Mathlib

/-!
# The boundary of a form

The search for a boundary ends, since texts have only finitely many pieces, and the boundary
that it finds occurs in no part.
-/

namespace Brunomnia.Multipart

open Codegen

/-! ## UTF-8 -/

/-- `String::from_utf8` -/
def fromUtf8 (bytes : List UInt8) : Option Text :=
  bytes.toByteArray.utf8Decode?.map Array.toList

theorem fromUtf8_utf8 (text : Text) : fromUtf8 (utf8 text) = some text := by
  have encoded : (utf8 text).toByteArray = text.utf8Encode := rfl
  rw [fromUtf8, encoded, List.utf8Decode?_utf8Encode, Option.map_some]

theorem utf8_of_fromUtf8 {bytes : List UInt8} {text : Text} (decoded : fromUtf8 bytes = some text) :
    utf8 text = bytes := by
  rcases Option.map_eq_some_iff.mp decoded with ⟨letters, found, rfl⟩
  have isSome : bytes.toByteArray.utf8Decode?.isSome := by rw [found]; rfl
  have encoded := @ByteArray.utf8Encode_get_utf8Decode? bytes.toByteArray isSome
  have isLetters : bytes.toByteArray.utf8Decode?.get isSome = letters := by simp [found]
  rw [isLetters] at encoded
  have same := congrArg (fun array : ByteArray => array.data.toList) encoded
  simpa [List.utf8Encode, utf8] using same

theorem utf8_injective : Function.Injective utf8 := by
  intro left right same
  have decoded := fromUtf8_utf8 left
  rw [same, fromUtf8_utf8] at decoded
  exact (Option.some.inj decoded).symm

theorem utf8_append (left right : Text) : utf8 (left ++ right) = utf8 left ++ utf8 right :=
  List.flatMap_append

theorem isInfix_utf8 {left right : Text} (isInfix : left <:+: right) :
    utf8 left <:+: utf8 right := by
  rcases isInfix with ⟨before, after, rfl⟩
  refine ⟨utf8 before, utf8 after, ?_⟩
  rw [utf8_append, utf8_append]

/-! ## Letters of a boundary -/

theorem boundaryText_letters {index : ℕ} {letter : Char} (letterMem : letter ∈ boundaryText index) :
    letter.isDigit = true ∨ letter ∈ "--------------------------brunomnia-generated-".toList := by
  rcases List.mem_append.mp letterMem with fixed | digits
  · exact .inr fixed
  · rw [Nat.toList_repr] at digits
    exact .inl (Nat.isDigit_of_mem_toDigits (by decide) (by decide) digits)

theorem notMem_boundaryText {letter : Char} (sign : letter ∈ ['\r', '\n', '"', '\\', ' '])
    (index : ℕ) : letter ∉ boundaryText index := by
  intro letterMem
  have signs : ∀ letter ∈ ['\r', '\n', '"', '\\', ' '], letter.isDigit = false ∧
      letter ∉ "--------------------------brunomnia-generated-".toList := by simp
  rcases boundaryText_letters letterMem with digit | fixed
  · rw [(signs letter sign).1] at digit
    cases digit
  · exact (signs letter sign).2 fixed

theorem b_mem_boundaryText (index : ℕ) : 'b' ∈ boundaryText index :=
  List.mem_append_left _ (by decide)

theorem boundaryText_injective : Function.Injective boundaryText := by
  intro left right same
  have digits := List.append_cancel_left same
  exact Nat.repr_injective (String.toList_injective digits)

/-! ## The search -/

/-- A boundary that occurs in no input. -/
def IsFree (inputs : List (List UInt8)) (boundary : Text) : Prop :=
  ∀ input ∈ inputs, ¬utf8 boundary <:+: input

theorem includesBytes_boundaryText (input : List UInt8) (index : ℕ) :
    includesBytes input (utf8 (boundaryText index)) = true ↔
      utf8 (boundaryText index) <:+: input := by
  have notEmpty : utf8 (boundaryText index) ≠ [] := by
    intro empty
    have letters := utf8_injective (show _ = utf8 [] from empty)
    have found := b_mem_boundaryText index
    rw [letters] at found
    cases found
  simp [includesBytes, notEmpty]

theorem boundaryFrom_isFree {inputs : List (List UInt8)} {fuel index : ℕ}
    (free : ∃ later < fuel, IsFree inputs (boundaryText (index + later))) :
    ∃ found, boundaryFrom inputs fuel index = boundaryText found ∧
      IsFree inputs (boundaryText found) := by
  induction fuel generalizing index with
  | zero =>
      rcases free with ⟨_, impossible, _⟩
      exact absurd impossible (Nat.not_lt_zero _)
  | succ fuel ih =>
      rw [boundaryFrom]
      split
      case isTrue taken =>
        apply ih
        rcases free with ⟨later, inFuel, isFree⟩
        cases later with
        | zero =>
            rcases List.any_eq_true.mp taken with ⟨input, inputMem, included⟩
            exact absurd ((includesBytes_boundaryText input index).mp included)
              (isFree input inputMem)
        | succ later =>
            refine ⟨later, by omega, ?_⟩
            rw [Nat.add_right_comm, Nat.add_assoc]
            exact isFree
      case isFalse notTaken =>
        refine ⟨index, rfl, ?_⟩
        intro input inputMem isInfix
        apply notTaken
        exact List.any_eq_true.mpr
          ⟨input, inputMem, (includesBytes_boundaryText input index).mpr isInfix⟩

/-- The pieces of the inputs, with repetitions. -/
def pieces (inputs : List (List UInt8)) : List (List UInt8) :=
  inputs.flatMap fun input => input.tails.flatMap List.inits

theorem mem_pieces {inputs : List (List UInt8)} {input piece : List UInt8}
    (inputMem : input ∈ inputs) (isInfix : piece <:+: input) : piece ∈ pieces inputs := by
  rcases List.infix_iff_prefix_suffix.mp isInfix with ⟨tail, isPrefix, isSuffix⟩
  apply List.mem_flatMap.mpr ⟨input, inputMem, ?_⟩
  exact List.mem_flatMap.mpr
    ⟨tail, (List.mem_tails _ _).mpr isSuffix, (List.mem_inits _ _).mpr isPrefix⟩

theorem length_pieces_le (inputs : List (List UInt8)) :
    (pieces inputs).length ≤ pieceBound inputs := by
  rw [pieces, List.length_flatMap, pieceBound]
  apply List.sum_le_sum
  intro input _
  rw [List.length_flatMap]
  have bound : ∀ size ∈ input.tails.map fun tail => tail.inits.length, size ≤ input.length + 1 := by
    intro size sizeMem
    rcases List.mem_map.mp sizeMem with ⟨tail, tailMem, rfl⟩
    have shorter := ((List.mem_tails _ _).mp tailMem).length_le
    rw [List.length_inits]
    omega
  have sum := List.sum_le_card_nsmul _ _ bound
  rw [List.length_map, List.length_tails, smul_eq_mul] at sum
  rw [sq]
  exact sum

theorem exists_isFree (inputs : List (List UInt8)) :
    ∃ index < pieceBound inputs + 1, IsFree inputs (boundaryText index) := by
  by_contra allTaken
  have taken : ∀ index < pieceBound inputs + 1, utf8 (boundaryText index) ∈ pieces inputs := by
    intro index inBound
    by_contra notPiece
    apply allTaken ⟨index, inBound, ?_⟩
    exact fun input inputMem isInfix => notPiece (mem_pieces inputMem isInfix)
  have nodup : ((List.range (pieceBound inputs + 1)).map fun index =>
      utf8 (boundaryText index)).Nodup :=
    List.nodup_range.map (utf8_injective.comp boundaryText_injective)
  have subset : ((List.range (pieceBound inputs + 1)).map fun index =>
      utf8 (boundaryText index)) ⊆ pieces inputs := by
    intro piece pieceMem
    rcases List.mem_map.mp pieceMem with ⟨index, indexMem, rfl⟩
    exact taken index (List.mem_range.mp indexMem)
  have longer := (nodup.subperm subset).length_le
  rw [List.length_map, List.length_range] at longer
  have bound := length_pieces_le inputs
  omega

theorem multipartBoundary_isFree (parts : List EncodedMultipartPart) :
    ∃ index, multipartBoundary parts = boundaryText index ∧
      IsFree (collisionInputs parts) (boundaryText index) := by
  apply boundaryFrom_isFree
  rcases exists_isFree (collisionInputs parts) with ⟨index, inBound, isFree⟩
  refine ⟨index, inBound, ?_⟩
  rw [Nat.zero_add]
  exact isFree

end Brunomnia.Multipart
