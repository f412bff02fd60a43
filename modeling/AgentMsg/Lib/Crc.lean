import Mathlib.Logic.Function.Iterate

/-!
# Cyclic redundancy checks

A check that takes the bits of a text from the low end, eight for each byte.  A step of
the remainder can be undone because the polynomial has its top bit: the top bit of the
result is the bit that was shifted out.  So each byte is a bijection of remainders, and
texts of which one byte differs have different checks.
-/

namespace Crc

/-- The parameters of a check of `w` bits. -/
structure Code (w : Nat) where
  polynomial : BitVec w
  start : BitVec w
  final : BitVec w
  top : polynomial.msb = true

namespace Code

variable {w : Nat} (code : Code w)

/-- Shift a bit out of the remainder. -/
def bitStep (remainder : BitVec w) : BitVec w :=
  if remainder.getLsbD 0 then (remainder >>> 1) ^^^ code.polynomial else remainder >>> 1

def byteStep (remainder : BitVec w) (byte : UInt8) : BitVec w :=
  code.bitStep^[8] (remainder ^^^ byte.toBitVec.setWidth w)

/-- The check of a text. -/
def check (bytes : List UInt8) : BitVec w :=
  bytes.foldl code.byteStep code.start ^^^ code.final

theorem msb_bitStep (remainder : BitVec w) :
    (code.bitStep remainder).msb = remainder.getLsbD 0 := by
  have shifted : (remainder >>> 1).msb = false := by
    rw [BitVec.msb_ushiftRight]
    rfl
  rw [bitStep]
  cases low : remainder.getLsbD 0 with
  | true =>
      rw [if_pos rfl, BitVec.msb_xor, shifted, code.top]
      rfl
  | false =>
      rw [if_neg Bool.false_ne_true, shifted]

theorem bitStep_injective : Function.Injective code.bitStep := by
  intro left right same
  have low : left.getLsbD 0 = right.getLsbD 0 := by
    rw [← code.msb_bitStep left, same, code.msb_bitStep]
  have shifted : left >>> 1 = right >>> 1 := by
    rw [bitStep, bitStep, low] at same
    cases bit : right.getLsbD 0 with
    | true =>
        rw [bit, if_pos rfl, if_pos rfl] at same
        exact (BitVec.xor_left_inj _).mp same
    | false =>
        rwa [bit, if_neg Bool.false_ne_true, if_neg Bool.false_ne_true] at same
  refine BitVec.eq_of_getLsbD_eq fun index _ => ?_
  cases index with
  | zero => exact low
  | succ index =>
      have bits := congrArg (fun word => BitVec.getLsbD word index) shifted
      simpa only [BitVec.getLsbD_ushiftRight, Nat.add_comm] using bits

/-- A byte is a one-to-one map of remainders. -/
theorem byteStep_left_injective (byte : UInt8) :
    Function.Injective fun remainder => code.byteStep remainder byte := by
  intro left right same
  exact (BitVec.xor_left_inj _).mp (code.bitStep_injective.iterate 8 same)

/-- Different bytes make different remainders of one. -/
theorem byteStep_right_injective (wide : 8 ≤ w) (remainder : BitVec w) :
    Function.Injective (code.byteStep remainder) := by
  intro left right same
  have extended : left.toBitVec.setWidth w = right.toBitVec.setWidth w :=
    (BitVec.xor_right_inj _).mp (code.bitStep_injective.iterate 8 same)
  have narrowed := congrArg (BitVec.setWidth 8) extended
  rw [BitVec.setWidth_setWidth_of_le _ wide, BitVec.setWidth_setWidth_of_le _ wide,
    BitVec.setWidth_eq, BitVec.setWidth_eq] at narrowed
  exact UInt8.toBitVec_inj.mp narrowed

theorem foldl_injective (bytes : List UInt8) :
    Function.Injective fun remainder => bytes.foldl code.byteStep remainder := by
  induction bytes with
  | nil => exact fun _ _ same => same
  | cons byte rest inductionHypothesis =>
      exact inductionHypothesis.comp (code.byteStep_left_injective byte)

/-- Texts of which one byte differs have different checks. -/
theorem check_ne_of_one_byte
    (wide : 8 ≤ w) {old new : UInt8} (differs : new ≠ old) (front back : List UInt8) :
    code.check (front ++ new :: back) ≠ code.check (front ++ old :: back) := by
  intro same
  rw [check, check, List.foldl_append, List.foldl_append] at same
  have ends := code.foldl_injective back ((BitVec.xor_left_inj _).mp same)
  exact differs (code.byteStep_right_injective wide _ ends)

end Code

/-- CRC-32 as Ethernet, zip and PNG use it. -/
def crc32 : Code 32 where
  polynomial := 0xEDB88320
  start := 0xFFFFFFFF
  final := 0xFFFFFFFF
  top := by decide

example : crc32.check [49, 50, 51, 52, 53, 54, 55, 56, 57] = 0xCBF43926 := by decide +kernel

end Crc
