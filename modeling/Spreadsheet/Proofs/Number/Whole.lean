import Mathlib.Data.Rat.Floor
import Spreadsheet.Number.Shortest
import Spreadsheet.Proofs.Number.Bits

/-!
# Numbers as rational numbers

A finite double stands for a rational number.  When a double is used as a position, the digits after
its point are dropped, which is the floor of the rational number.

* `value? x`: the rational number that the double `x` stands for, if it is finite.
* `toModel_unpack`: what the parts of a double are when it has no sign.
* `not_lt_one`: a double that stands for `1` or more is not below the double `1`.
* `toNat_toUInt64`: as a whole number a double is the floor of what it stands for.
-/

namespace Spreadsheet.Number

open Float.Model.Format (binary64)
open Float.Model.UnpackedFloat

/-- The rational number that a double stands for, if it is finite. -/
def value? (x : Float) : Option ℚ :=
  let magnitude := fractionOf (patternOf x)
  if patternOf x < infinite then
    some ((if isNegative x then -1 else 1) * (magnitude.1 / magnitude.2))
  else none

def wholeOf (pattern : Nat) : Nat := (fractionOf pattern).1 / (fractionOf pattern).2

/-- A double that stands for `1` or more is finite and has no sign, and its whole part is the floor
of what it stands for. -/
theorem of_one_le_value {x : Float} {q : ℚ} (value : value? x = some q) (above : 1 ≤ q) :
    patternOf x < infinite ∧ isNegative x = false ∧ wholeOf (patternOf x) = ⌊q⌋₊ := by
  rw [value?, wholeOf] at *
  generalize fractionOf (patternOf x) = magnitude at *
  by_cases finite : patternOf x < infinite
  · rw [if_pos finite, Option.some.injEq] at value
    have size : (0 : ℚ) ≤ magnitude.1 / magnitude.2 :=
      div_nonneg (Nat.cast_nonneg _) (Nat.cast_nonneg _)
    cases front : isNegative x with
    | true =>
      rw [front, if_pos rfl] at value
      linarith
    | false =>
      rw [front, if_neg Bool.false_ne_true, one_mul] at value
      exact ⟨finite, rfl, by rw [← value, Nat.floor_div_eq_div]⟩
  · rw [if_neg finite] at value
    cases value

/-! ### The parts of a double -/

theorem toNat_unpackSign (b : BitVec binary64.numBits) :
    (unpackSign b).toNat = b.toNat / signBit % 2 := by
  simp [unpackSign, BitVec.extractLsb, BitVec.extractLsb', Nat.shiftRight_eq_div_pow, signBit]

theorem toNat_one_append (m : BitVec 52) : (1#1 ++ m).toNat = fractionSize + m.toNat := by
  rw [BitVec.toNat_append, ← Nat.shiftLeft_add_eq_or_of_lt m.isLt]
  rfl

/-- The parts of a finite double without a sign that is not zero. -/
theorem toModel_unpack {x : Float} (finite : patternOf x < infinite) (front : isNegative x = false)
    (nonzero : 0 < (Number.unpack (patternOf x)).1) :
    x.toModel.unpack =
      .finite .positive (Number.unpack (patternOf x)).1 ((Number.unpack (patternOf x)).2 - 1074)
        nonzero := by
  have small : patternOf x < signBit := Nat.mod_lt _ (by decide)
  have bits : x.toModel.toBits.toBitVec.toNat = patternOf x :=
    (Nat.mod_eq_of_lt (Nat.lt_of_not_le (of_decide_eq_false front))).symm
  have sign : @unpackSign binary64 x.toModel.toBits.toBitVec = 0#1 := by
    refine BitVec.eq_of_toNat_eq ?_
    rw [toNat_unpackSign, bits, Nat.div_eq_of_lt small]
    rfl
  have exponent := toNat_unpackExponent x.toModel.toBits.toBitVec
  have mantissa := toNat_unpackMantissa x.toModel.toBits.toBitVec
  have below : patternOf x / fractionSize < 2047 := by
    unfold infinite at finite
    unfold fractionSize
    omega
  rw [bits, Nat.mod_eq_of_lt (by omega)] at exponent
  rw [bits] at mantissa
  have special : @unpackExponent binary64 x.toModel.toBits.toBitVec ≠ -1#_ := by
    intro all
    rw [all] at exponent
    exact absurd (exponent.trans_lt below) (by decide)
  rw [Float.Model.unpack, Float.Model.UnpackedFloat.unpack]
  dsimp only
  rw [if_neg special, sign]
  rw [Number.unpack] at nonzero
  by_cases subnormal : @unpackExponent binary64 x.toModel.toBits.toBitVec = 0#_
  · have zero : patternOf x / fractionSize = 0 := by
      rw [← exponent, subnormal]
      rfl
    rw [if_pos zero] at nonzero
    have some : @unpackMantissa binary64 x.toModel.toBits.toBitVec ≠ 0#_ := by
      intro none
      rw [none] at mantissa
      exact absurd nonzero (by rw [← mantissa]; decide)
    rw [if_pos subnormal, dif_neg some, Float.Model.UnpackedFloat.finite.injEq, Number.unpack,
      if_pos zero]
    refine ⟨rfl, mantissa, ?_⟩
    rw [exponent, zero]
    rfl
  · have some : patternOf x / fractionSize ≠ 0 := by
      rw [← exponent]
      exact fun none => subnormal (BitVec.eq_of_toNat_eq none)
    rw [if_neg subnormal, Float.Model.UnpackedFloat.finite.injEq, Number.unpack, if_neg some]
    refine ⟨rfl, ?_, ?_⟩
    · rw [← mantissa]
      exact toNat_one_append _
    · rw [exponent]
      show ((patternOf x / fractionSize : Nat) : Int) - 1075 =
        ((patternOf x / fractionSize - 1 : Nat) : Int) - 1074
      omega

/-! ### A whole number from a double -/

theorem mantissa_shiftRight (em : ExtendedMantissa) (n : Nat) :
    (em >>> n).mantissa = em.mantissa / 2 ^ n := by
  induction n with
  | zero => exact (Nat.div_one _).symm
  | succ n ih =>
    show (em >>> n).mantissa / 2 = _
    rw [ih, Nat.div_div_eq_div_mul, ← Nat.pow_succ]

theorem unpack_lt (pattern : Nat) : (Number.unpack pattern).1 < 2 ^ 53 := by
  have fraction : pattern % fractionSize < fractionSize := Nat.mod_lt _ (by decide)
  rw [Number.unpack]
  unfold fractionSize at *
  split <;> dsimp only <;> omega

theorem wholeOf_eq (pattern : Nat) :
    wholeOf pattern = (Number.unpack pattern).1 <<< ((Number.unpack pattern).2 - 1074) /
      2 ^ (1074 - (Number.unpack pattern).2) := by
  rw [wholeOf, fractionOf]
  generalize Number.unpack pattern = parts
  dsimp only
  split
  · rename_i large
    rw [Nat.sub_eq_zero_of_le large, Nat.pow_zero]
  · rename_i small
    rw [Nat.sub_eq_zero_of_le (Nat.le_of_not_le small), Nat.one_shiftLeft, Nat.shiftLeft_zero]

theorem roundToInt_unpack (pattern : Nat) :
    roundToInt .positive (Number.unpack pattern).1 ((Number.unpack pattern).2 - 1074) =
      wholeOf pattern := by
  rw [wholeOf_eq]
  generalize Number.unpack pattern = parts
  obtain ⟨m, k⟩ := parts
  have up : ((k : Int) - 1074 - 0).toNat = k - 1074 := by omega
  have down : (0 - ((k : Int) - 1074 - ((k - 1074 : Nat) : Int))).toNat = 1074 - k := by omega
  simp only [roundToInt, decreaseExponent, shiftToExponent, mantissa_shiftRight, up, down]
  rfl

theorem unpack_pos {pattern : Nat} (above : 1 ≤ wholeOf pattern) :
    0 < (Number.unpack pattern).1 := by
  rw [wholeOf_eq] at above
  by_contra zero
  rw [Nat.eq_zero_of_not_pos zero, Nat.zero_shiftLeft, Nat.zero_div] at above
  exact absurd above (by decide)

/-- **As a whole number a double is the floor of what it stands for.** -/
theorem toNat_toUInt64 {x : Float} {q : ℚ} (value : value? x = some q) (above : 1 ≤ q)
    (below : ⌊q⌋₊ < 2 ^ 64) : x.toUInt64.toNat = ⌊q⌋₊ := by
  obtain ⟨finite, front, whole⟩ := of_one_le_value value above
  have nonzero := unpack_pos (whole.symm ▸ Nat.le_floor (by exact_mod_cast above))
  have rounded : x.toModel.unpack.toInt 0 (UInt64.size - 1) = ⌊q⌋₊ := by
    rw [toModel_unpack finite front nonzero, ← whole]
    exact roundToInt_unpack _
  show (UInt64.ofNatClamp (x.toModel.unpack.toInt 0 (UInt64.size - 1)).toNat).toNat = _
  rw [rounded, Int.toNat_natCast, UInt64.ofNatClamp, dif_pos (show _ < UInt64.size from below)]
  exact UInt64.toNat_ofNatLT

theorem lt_of_compare {m m' : Nat} {e e' : Int} {positive : 0 < m} {positive' : 0 < m'}
    (h : (Float.Model.UnpackedFloat.finite .positive m e positive).compare
      (.finite .positive m' e' positive') = some .lt) : e < e' ∨ e = e' ∧ m < m' := by
  have order : (compare e e').then (compare m m') = .lt := Option.some.inj h
  rwa [Ordering.then_eq_lt, compare_lt_iff_lt, compare_eq_iff_eq, compare_lt_iff_lt] at order

theorem not_lt_one {x : Float} {q : ℚ} (value : value? x = some q) (above : 1 ≤ q) :
    ¬ x < ofNat 1 := by
  obtain ⟨finite, front, whole⟩ := of_one_le_value value above
  have first : 1 ≤ wholeOf (patternOf x) := whole.symm ▸ Nat.le_floor (by exact_mod_cast above)
  have nonzero := unpack_pos first
  have one : patternOf (ofNat 1) = 0x3FF0000000000000 := by decide +kernel
  have oneParts := toModel_unpack (x := ofNat 1) (by rw [one]; decide) (by decide +kernel)
    (by rw [one]; decide)
  rw [wholeOf_eq, Nat.one_le_div_iff (Nat.two_pow_pos _)] at first
  have size : (Number.unpack (patternOf x)).1 < 2 ^ 53 := unpack_lt _
  intro below
  have compared : x.toModel.unpack.compare (ofNat 1).toModel.unpack = some .lt :=
    eq_of_beq (of_decide_eq_true below)
  rw [toModel_unpack finite front nonzero, oneParts] at compared
  have scale : (Number.unpack (patternOf (ofNat 1))).2 = 1022 := by rw [one]; decide
  have digits : (Number.unpack (patternOf (ofNat 1))).1 = 2 ^ 52 := by rw [one]; decide
  have order := lt_of_compare compared
  rw [scale, digits] at order
  rw [show (Number.unpack (patternOf x)).2 - 1074 = 0 by omega, Nat.shiftLeft_zero] at first
  rcases order with lower | ⟨same, fewer⟩
  · have wide : 2 ^ 53 ≤ 2 ^ (1074 - (Number.unpack (patternOf x)).2) :=
      Nat.pow_le_pow_right (by decide) (by omega)
    omega
  · rw [show 1074 - (Number.unpack (patternOf x)).2 = 52 by omega] at first
    omega

end Spreadsheet.Number
