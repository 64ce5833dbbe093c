import Mathlib
import Spreadsheet.Number.Binary

/-!
# Doubles and their patterns

A double is given by its bits, where only one pattern stands for the value that is not a number.  So a
double is put together again from its sign and its magnitude.

* `ofPattern_patternOf`: a double is put together from its sign and its magnitude.
* `eq_notANumber`: there is one double that is not a number.
-/

namespace Spreadsheet.Number

open Float.Model.Format (binary64)
open Float.Model.UnpackedFloat (unpackExponent unpackMantissa)

/-- **A double is put together from its sign and its magnitude.** -/
theorem ofPattern_patternOf (x : Float) : ofPattern (isNegative x) (patternOf x) = x := by
  have bound : x.toBits.toNat < 2 * signBit := x.toBits.toNat_lt
  have whole : (if isNegative x then signBit else 0) + patternOf x = x.toBits.toNat := by
    rw [isNegative, patternOf]
    by_cases negative : signBit ≤ x.toBits.toNat
    · rw [decide_eq_true negative, if_pos rfl, Nat.mod_eq_sub_mod negative,
        Nat.mod_eq_of_lt (by omega)]
      omega
    · rw [decide_eq_false negative, if_neg Bool.false_ne_true, Nat.mod_eq_of_lt (by omega)]
      omega
  rw [ofPattern, whole]
  show Float.ofBits (UInt64.ofNat x.toBits.toNat) = x
  rw [UInt64.ofNat_toNat, Float.ofBits_toBits]

theorem toNat_unpackExponent (b : BitVec binary64.numBits) :
    (unpackExponent b).toNat = b.toNat / fractionSize % 2048 := by
  simp [unpackExponent, BitVec.extractLsb, BitVec.extractLsb', Nat.shiftRight_eq_div_pow, fractionSize]

theorem toNat_unpackMantissa (b : BitVec binary64.numBits) :
    (unpackMantissa b).toNat = b.toNat % fractionSize := by
  simp [unpackMantissa, BitVec.extractLsb, BitVec.extractLsb', Nat.shiftRight_eq_div_pow, fractionSize]

/-- **There is one double that is not a number.** -/
theorem eq_notANumber {x : Float} (above : infinite < patternOf x) :
    x = ofPattern false notANumber := by
  have magnitude : infinite < x.toBits.toBitVec.toNat % signBit := above
  have bound : x.toBits.toBitVec.toNat < 2 * signBit := x.toBits.toNat_lt
  unfold infinite signBit at magnitude
  unfold signBit at bound
  have exponent : @unpackExponent binary64 x.toBits.toBitVec = -1#_ := by
    refine BitVec.eq_of_toNat_eq ?_
    rw [toNat_unpackExponent]
    show x.toBits.toBitVec.toNat / fractionSize % 2048 = 2047
    rw [fractionSize]
    omega
  have mantissa : @unpackMantissa binary64 x.toBits.toBitVec ≠ 0#_ := by
    intro zero
    have none := congrArg BitVec.toNat zero
    rw [toNat_unpackMantissa] at none
    replace none : x.toBits.toBitVec.toNat % fractionSize = 0 := none
    rw [fractionSize] at none
    omega
  have canonical := x.toModel.valid.eq_packedNaN exponent mantissa
  refine Float.toBits_inj.mp (UInt64.eq_of_toBitVec_eq ?_)
  exact canonical.trans (by decide +kernel)

end Spreadsheet.Number
