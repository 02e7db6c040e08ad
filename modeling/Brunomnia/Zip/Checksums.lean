import Mathlib

/-!
# CRC-32

The checksum is computed byte by byte with a table. It is the one that shifts the bits of the bytes
through a register.
-/

namespace Brunomnia.Zip

abbrev Bytes := List UInt8

/-! ## The table -/

def shiftBit (crc : BitVec 32) : BitVec 32 :=
  if crc.getLsbD 0 then 0xedb88320#32 ^^^ (crc >>> 1) else crc >>> 1

def shiftBits : ℕ → BitVec 32 → BitVec 32
  | 0, crc => crc
  | count + 1, crc => shiftBits count (shiftBit crc)

def crcTable : List (BitVec 32) :=
  (List.range 256).map fun value => shiftBits 8 (BitVec.ofNat 32 value)

def ofByte (byte : UInt8) : BitVec 32 :=
  BitVec.ofNat 32 byte.toNat

def crcByte (crc : BitVec 32) (byte : UInt8) : BitVec 32 :=
  crcTable.getD ((crc ^^^ ofByte byte) &&& 0xff#32).toNat 0 ^^^ (crc >>> 8)

def crc32 (bytes : Bytes) : BitVec 32 :=
  bytes.foldl crcByte 0xffffffff#32 ^^^ 0xffffffff#32

/-! ## The register -/

def registerBit (register : BitVec 32) (bit : Bool) : BitVec 32 :=
  if register.getLsbD 0 ≠ bit then 0xedb88320#32 ^^^ (register >>> 1) else register >>> 1

/-- The bits of a byte, the lowest first. -/
def bitsOf (byte : UInt8) : List Bool :=
  (List.range 8).map fun index => byte.toNat.testBit index

/-- The checksum of the bits of all bytes. -/
def checksum (bytes : Bytes) : BitVec 32 :=
  (bytes.flatMap bitsOf).foldl registerBit 0xffffffff#32 ^^^ 0xffffffff#32

/-! ## Shifting -/

theorem xor_xor_cancel (common left right : BitVec 32) :
    (common ^^^ left) ^^^ (common ^^^ right) = left ^^^ right := by
  rw [BitVec.xor_comm common left, BitVec.xor_assoc, ← BitVec.xor_assoc common common right,
    BitVec.xor_self, BitVec.zero_xor]

theorem shiftBit_xor (left right : BitVec 32) :
    shiftBit (left ^^^ right) = shiftBit left ^^^ shiftBit right := by
  unfold shiftBit
  rw [BitVec.getLsbD_xor, BitVec.ushiftRight_xor_distrib]
  cases left.getLsbD 0 <;> cases right.getLsbD 0
  · rfl
  · simp only [Bool.false_xor, if_true, Bool.false_eq_true, if_false]
    rw [← BitVec.xor_assoc, BitVec.xor_comm (0xedb88320#32), BitVec.xor_assoc]
  · simp only [Bool.xor_false, if_true, Bool.false_eq_true, if_false]
    rw [BitVec.xor_assoc]
  · simp only [Bool.xor_self, if_true, Bool.false_eq_true, if_false]
    exact (xor_xor_cancel _ _ _).symm

theorem shiftBits_xor (count : ℕ) (left right : BitVec 32) :
    shiftBits count (left ^^^ right) = shiftBits count left ^^^ shiftBits count right := by
  induction count generalizing left right with
  | zero => rfl
  | succ count ih =>
      unfold shiftBits
      rw [shiftBit_xor, ih]

theorem shiftBits_of_low {count : ℕ} {crc : BitVec 32}
    (low : ∀ index < count, crc.getLsbD index = false) : shiftBits count crc = crc >>> count := by
  induction count generalizing crc with
  | zero => exact (BitVec.ushiftRight_zero crc).symm
  | succ count ih =>
      have first : shiftBit crc = crc >>> 1 := by
        rw [shiftBit, low 0 (by omega)]
        rfl
      have rest : ∀ index < count, (crc >>> 1).getLsbD index = false := by
        intro index below
        rw [BitVec.getLsbD_ushiftRight]
        exact low (1 + index) (by omega)
      rw [shiftBits, first, ih rest, ← BitVec.shiftRight_add, Nat.add_comm]

theorem ofByte_shift (byte : UInt8) : ofByte byte >>> 8 = 0#32 := by
  have small := byte.toNat_lt
  apply BitVec.eq_of_toNat_eq
  rw [BitVec.toNat_ushiftRight, ofByte, BitVec.toNat_ofNat, Nat.shiftRight_eq_div_pow]
  have zero : (0#32).toNat = 0 := rfl
  omega

theorem crcTable_getD (crc : BitVec 32) :
    crcTable.getD (crc &&& 0xff#32).toNat 0 = shiftBits 8 (crc &&& 0xff#32) := by
  have below : (crc &&& 0xff#32).toNat < 256 := by
    rw [BitVec.toNat_and]
    exact Nat.lt_succ_of_le Nat.and_le_right
  have inTable : (crc &&& 0xff#32).toNat < crcTable.length := by
    rw [crcTable, List.length_map, List.length_range]
    exact below
  rw [List.getD_eq_getElem _ _ inTable]
  simp only [crcTable, List.getElem_map, List.getElem_range, BitVec.ofNat_toNat,
    BitVec.setWidth_eq]

theorem crcByte_eq (crc : BitVec 32) (byte : UInt8) :
    crcByte crc byte = shiftBits 8 (crc ^^^ ofByte byte) := by
  have ones : ∀ index < 8, (0xff#32).getLsbD index = true := by decide
  have low : ∀ index < 8, ((crc ^^^ ofByte byte) ^^^
      ((crc ^^^ ofByte byte) &&& 0xff#32)).getLsbD index = false := by
    intro index below
    rw [BitVec.getLsbD_xor, BitVec.getLsbD_and, ones index below, Bool.and_true, Bool.xor_self]
  have high : ((crc ^^^ ofByte byte) &&& 0xff#32) >>> 8 = 0#32 := by
    rw [BitVec.ushiftRight_and_distrib]
    exact BitVec.and_zero
  have split : crc ^^^ ofByte byte = ((crc ^^^ ofByte byte) &&& 0xff#32) ^^^
      ((crc ^^^ ofByte byte) ^^^ ((crc ^^^ ofByte byte) &&& 0xff#32)) := by
    rw [BitVec.xor_comm (crc ^^^ ofByte byte) ((crc ^^^ ofByte byte) &&& 0xff#32),
      ← BitVec.xor_assoc, BitVec.xor_self, BitVec.zero_xor]
  rw [crcByte, crcTable_getD]
  conv_rhs => rw [split]
  rw [shiftBits_xor, shiftBits_of_low low, BitVec.ushiftRight_xor_distrib,
    BitVec.ushiftRight_xor_distrib, high, ofByte_shift, BitVec.xor_zero, BitVec.xor_zero]

/-! ## Bits -/

def ofBit (bit : Bool) : BitVec 32 :=
  if bit then 1#32 else 0#32

theorem registerBit_eq (register : BitVec 32) (bit : Bool) :
    registerBit register bit = shiftBit (register ^^^ ofBit bit) := by
  have shifted : (register ^^^ ofBit bit) >>> 1 = register >>> 1 := by
    rw [BitVec.ushiftRight_xor_distrib]
    cases bit <;> exact BitVec.xor_zero
  have lowest : (register ^^^ ofBit bit).getLsbD 0 = decide (register.getLsbD 0 ≠ bit) := by
    rw [BitVec.getLsbD_xor]
    cases bit <;> cases register.getLsbD 0 <;> rfl
  unfold registerBit shiftBit
  rw [shifted, lowest]
  simp only [decide_eq_true_eq]

/-- Taking in the low bits of a word is shifting the register with the word in it. -/
theorem foldl_registerBit {count : ℕ} {word : BitVec 32} (small : word >>> count = 0#32)
    (register : BitVec 32) :
    ((List.range count).map word.getLsbD).foldl registerBit register =
      shiftBits count (register ^^^ word) := by
  induction count generalizing word register with
  | zero =>
      rw [BitVec.ushiftRight_zero] at small
      rw [small, BitVec.xor_zero]
      rfl
  | succ count ih =>
      have bits : (List.range (count + 1)).map word.getLsbD =
          word.getLsbD 0 :: (List.range count).map (word >>> 1).getLsbD := by
        rw [List.range_succ_eq_map, List.map_cons, List.map_map]
        congr 1
        refine List.map_congr_left fun index _ => ?_
        rw [BitVec.getLsbD_ushiftRight, Nat.add_comm]
        rfl
      have rest : (word >>> 1) >>> count = 0#32 := by
        rw [← BitVec.shiftRight_add, Nat.add_comm, small]
      have even : shiftBit (word ^^^ ofBit (word.getLsbD 0)) = word >>> 1 := by
        have low : ∀ index < 1, (word ^^^ ofBit (word.getLsbD 0)).getLsbD index = false := by
          intro index below
          obtain rfl : index = 0 := by omega
          rw [BitVec.getLsbD_xor]
          cases word.getLsbD 0 <;> rfl
        have shifted := shiftBits_of_low low
        rw [BitVec.ushiftRight_xor_distrib] at shifted
        refine shifted.trans ?_
        cases word.getLsbD 0 <;> exact BitVec.xor_zero
      have split : register ^^^ word = (register ^^^ ofBit (word.getLsbD 0)) ^^^
          (word ^^^ ofBit (word.getLsbD 0)) := by
        rw [BitVec.xor_comm register (ofBit (word.getLsbD 0)),
          BitVec.xor_comm word (ofBit (word.getLsbD 0)), xor_xor_cancel]
      rw [bits, List.foldl_cons, ih rest, registerBit_eq, shiftBits, split,
        shiftBit_xor (register ^^^ ofBit (word.getLsbD 0)), even]

theorem foldl_bitsOf (register : BitVec 32) (byte : UInt8) :
    (bitsOf byte).foldl registerBit register = crcByte register byte := by
  have bits : bitsOf byte = (List.range 8).map (ofByte byte).getLsbD := by
    refine List.map_congr_left fun index indexMem => ?_
    have below := List.mem_range.mp indexMem
    rw [ofByte, BitVec.getLsbD_ofNat, decide_eq_true (show index < 32 by omega), Bool.true_and]
  rw [bits, foldl_registerBit (ofByte_shift byte), crcByte_eq]

theorem crc32_eq_checksum (bytes : Bytes) : crc32 bytes = checksum bytes := by
  unfold crc32 checksum
  congr 1
  rw [List.foldl_flatMap]
  congr 1
  funext register byte
  exact (foldl_bitsOf register byte).symm

end Brunomnia.Zip
