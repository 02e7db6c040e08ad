import Mathlib

/-!
# Little-endian numbers

A number is written as bytes, the smallest first, and is read back from its place among other
bytes.
-/

namespace Brunomnia.Library

/-- The bytes of a number, as many as the width says. -/
def littleEndian : ℕ → ℕ → List UInt8
  | 0, _ => []
  | width + 1, value => UInt8.ofNat value :: littleEndian width (value / 256)

def ofLittleEndian : List UInt8 → ℕ
  | [] => 0
  | byte :: rest => byte.toNat + 256 * ofLittleEndian rest

/-- The number at an offset. What is missing behind the bytes reads as zeros. -/
def readNumber (width : ℕ) (bytes : List UInt8) (offset : ℕ) : ℕ :=
  ofLittleEndian ((bytes.drop offset).take width)

@[simp]
theorem length_littleEndian (width value : ℕ) : (littleEndian width value).length = width := by
  induction width generalizing value with
  | zero => rfl
  | succ width ih => rw [littleEndian, List.length_cons, ih]

theorem ofLittleEndian_littleEndian {width value : ℕ} (fits : value < 256 ^ width) :
    ofLittleEndian (littleEndian width value) = value := by
  induction width generalizing value with
  | zero =>
      rw [Nat.pow_zero] at fits
      exact (Nat.lt_one_iff.mp fits).symm
  | succ width ih =>
      have rest : value / 256 < 256 ^ width := by
        rw [Nat.pow_succ] at fits
        exact Nat.div_lt_of_lt_mul (by omega)
      have isByte : (UInt8.ofNat value).toNat = value % 256 := UInt8.toNat_ofNat'
      rw [littleEndian, ofLittleEndian, ih rest, isByte]
      omega

/-- Numbers one behind the other, with their widths. -/
def writeFields (fields : List (ℕ × ℕ)) : List UInt8 :=
  fields.flatMap fun field => littleEndian field.1 field.2

theorem length_writeFields (fields : List (ℕ × ℕ)) :
    (writeFields fields).length = (fields.map Prod.fst).sum := by
  induction fields with
  | nil => rfl
  | cons field fields ih =>
      rw [writeFields, List.flatMap_cons, List.length_append, length_littleEndian, List.map_cons,
        List.sum_cons, ← ih]
      rfl

theorem readNumber_append (width : ℕ) (before after : List UInt8) (start : ℕ) :
    readNumber width (before ++ after) (before.length + start) = readNumber width after start := by
  rw [readNumber, readNumber, ← List.drop_drop, List.drop_left]

theorem readNumber_littleEndian {width value : ℕ} (fits : value < 256 ^ width)
    (after : List UInt8) : readNumber width (littleEndian width value ++ after) 0 = value := by
  rw [readNumber, List.drop_zero, List.take_left' (length_littleEndian width value),
    ofLittleEndian_littleEndian fits]

theorem readNumber_field {fields : List (ℕ × ℕ)} {index width value offset : ℕ}
    (isField : fields[index]? = some (width, value))
    (isOffset : ((fields.take index).map Prod.fst).sum = offset) (fits : value < 256 ^ width)
    (after : List UInt8) : readNumber width (writeFields fields ++ after) offset = value := by
  rcases List.getElem?_eq_some_iff.mp isField with ⟨inRange, isValue⟩
  have parts : fields = fields.take index ++ (width, value) :: fields.drop (index + 1) := by
    rw [← isValue, ← List.drop_eq_getElem_cons inRange, List.take_append_drop]
  have written : writeFields fields = writeFields (fields.take index) ++
      (littleEndian width value ++ writeFields (fields.drop (index + 1))) := by
    conv_lhs => rw [parts]
    rw [writeFields, List.flatMap_append, List.flatMap_cons]
    rfl
  have isLength : (writeFields (fields.take index)).length + 0 = offset := by
    rw [length_writeFields, isOffset, Nat.add_zero]
  rw [written, List.append_assoc, ← isLength, readNumber_append, List.append_assoc,
    readNumber_littleEndian fits]

end Brunomnia.Library
