import Mathlib.Tactic.Common
import Mathlib.Tactic.Ring
import Spreadsheet.Number.Shortest

/-!
# Decimals that read back

The nearest pattern depends on the value of a fraction only, and a magnitude is nearest to itself.  So
the search for a short decimal always ends with one that reads back: one that it has tried, or the
magnitude written exactly.

* `nearest_mul`, `ofDecimal_shift`: fractions and decimals of one value have one nearest pattern.
* `nearest_unpack`: a magnitude is nearest to itself.
* `pattern_shortest`: the shortest decimal reads back.
-/

namespace Spreadsheet.Number

/-! ### Nearest patterns -/

theorem roundDiv_mul (num den : Nat) {k : Nat} (h : 0 < k) :
    roundDiv (num * k) (den * k) = roundDiv num den := by
  have twice : 2 * (num % den * k) = 2 * (num % den) * k := (Nat.mul_assoc 2 _ k).symm
  have below : 2 * (num % den) * k < den * k ↔ 2 * (num % den) < den := Nat.mul_lt_mul_right h
  have tie : 2 * (num % den) * k = den * k ↔ 2 * (num % den) = den := Nat.mul_left_inj h.ne'
  simp only [roundDiv, Nat.mul_div_mul_right _ _ h, Nat.mul_mod_mul_right, twice, below, tie]

/-- **The nearest pattern depends on the value of a fraction only.** -/
theorem nearest_mul (num den : Nat) {k : Nat} (h : 0 < k) :
    nearest (num * k) (den * k) = nearest num den := by
  have steps : (num * k) <<< 1074 = num <<< 1074 * k := by
    rw [Nat.shiftLeft_eq, Nat.shiftLeft_eq, Nat.mul_right_comm]
  have scaled : ∀ j, (den * k) <<< j = den <<< j * k := by
    intro j
    rw [Nat.shiftLeft_eq, Nat.shiftLeft_eq, Nat.mul_right_comm]
  simp only [nearest, steps, scaled, Nat.mul_div_mul_right _ _ h, roundDiv_mul _ _ h]

theorem log2_shiftLeft {m : Nat} (low : 2 ^ 52 ≤ m) (high : m < 2 ^ 53) (k : Nat) :
    (m <<< k).log2 = 52 + k := by
  have shifted : 0 < 2 ^ k := Nat.two_pow_pos k
  have positive : m * 2 ^ k ≠ 0 := (Nat.mul_pos (by omega) shifted).ne'
  rw [Nat.shiftLeft_eq, Nat.log2_eq_iff positive, Nat.pow_add, Nat.add_right_comm, Nat.pow_add]
  exact ⟨Nat.mul_le_mul_right _ low, Nat.mul_lt_mul_of_pos_right high shifted⟩

/-- The significand and the scale of a finite pattern give the pattern, and the scale is what the size of
the magnitude asks for. -/
theorem unpack_spec (pattern : Nat) :
    ((unpack pattern).1 <<< (unpack pattern).2).log2 - 52 = (unpack pattern).2 ∧
      (unpack pattern).2 * fractionSize + (unpack pattern).1 = pattern := by
  have parts := Nat.div_add_mod pattern fractionSize
  have fraction : pattern % fractionSize < fractionSize := Nat.mod_lt _ (by decide)
  by_cases bottom : pattern / fractionSize = 0
  · have small : pattern < fractionSize := (Nat.div_eq_zero_iff.mp bottom).resolve_left (by decide)
    have log : pattern.log2 < 53 := by
      by_cases zero : pattern = 0
      · rw [zero]
        decide
      · exact (Nat.log2_lt zero).mpr (Nat.lt_trans small (by decide))
    rw [unpack, if_pos bottom, Nat.mod_eq_of_lt small]
    exact ⟨Nat.sub_eq_zero_of_le (Nat.le_of_lt_succ log), by omega⟩
  · have low : 2 ^ 52 ≤ fractionSize + pattern % fractionSize := Nat.le_add_right _ _
    have high : fractionSize + pattern % fractionSize < 2 ^ 53 := by
      unfold fractionSize at *
      omega
    rw [unpack, if_neg bottom, log2_shiftLeft low high]
    unfold fractionSize at *
    omega

/-- **A magnitude is nearest to itself.** -/
theorem nearest_unpack {pattern : Nat} (finite : pattern < infinite) {num den : Nat} (positive : 0 < den)
    (exact : num <<< 1074 = (unpack pattern).1 <<< (unpack pattern).2 * den) :
    nearest num den = pattern := by
  obtain ⟨scale, parts⟩ := unpack_spec pattern
  have rounded : ∀ m k, roundDiv (m <<< k * den) (den <<< k) = m := by
    intro m k
    have whole : m <<< k * den = den <<< k * m := by
      rw [Nat.shiftLeft_eq, Nat.shiftLeft_eq]
      ring
    have size : 0 < den <<< k := by
      rw [Nat.shiftLeft_eq]
      exact Nat.mul_pos positive (Nat.two_pow_pos k)
    rw [roundDiv, whole, Nat.mul_mod_right, Nat.mul_div_cancel_left _ size]
    exact if_pos (Or.inl size)
  rw [nearest, exact, Nat.mul_div_cancel _ positive, scale, rounded, parts]
  exact Nat.min_eq_left finite.le

/-! ### Decimal fractions -/

theorem powerOfTen_add (m n : Nat) : powerOfTen (m + n) = powerOfTen m * powerOfTen n :=
  Nat.pow_add 10 m n

theorem powerOfTen_pos (n : Nat) : 0 < powerOfTen n := Nat.pow_pos (by decide)

theorem toDigits_mul_powerOfTen {n : Nat} (h : 0 < n) (k : Nat) :
    Nat.toDigits 10 (n * powerOfTen k) = Nat.toDigits 10 n ++ List.replicate k '0' := by
  induction k with
  | zero =>
    rw [List.replicate_zero, List.append_nil]
    exact congrArg _ (Nat.mul_one n)
  | succ k ih =>
    have tens : n * powerOfTen (k + 1) = 10 * (n * powerOfTen k) + 0 := by
      rw [powerOfTen_add]
      show n * (powerOfTen k * 10) = _
      ring
    rw [tens, ← Nat.toDigits_append_toDigits (by decide) (Nat.mul_pos h (powerOfTen_pos k))
      (by decide), ih, List.append_assoc, List.replicate_succ', Nat.toDigits_zero]

theorem ofDecimal_eq {coefficient : Nat} {exponent : Int} (positive : 0 < coefficient) (a b : Nat)
    (size : exponent = a - b)
    (low : -400 ≤ (Nat.toDigits 10 coefficient).length + exponent)
    (high : (Nat.toDigits 10 coefficient).length + exponent ≤ 400) :
    ofDecimal coefficient exponent = nearest (coefficient * powerOfTen a) (powerOfTen b) := by
  rw [ofDecimal, if_neg (by omega), if_neg (by omega)]
  by_cases whole : 0 ≤ exponent
  · have split : a = exponent.toNat + b := by omega
    have scaled := nearest_mul (coefficient * powerOfTen exponent.toNat) 1 (powerOfTen_pos b)
    rw [Nat.one_mul] at scaled
    rw [if_pos whole, split, powerOfTen_add, ← Nat.mul_assoc, scaled]
  · have split : b = (-exponent).toNat + a := by omega
    rw [if_neg whole, split, powerOfTen_add, nearest_mul _ _ (powerOfTen_pos a)]

theorem ofDecimal_zero (exponent : Int) : ofDecimal 0 exponent = 0 := by
  rw [ofDecimal, if_pos (Or.inl rfl)]

/-- **The pattern depends on the value of a decimal fraction only.** -/
theorem ofDecimal_shift (coefficient : Nat) (exponent : Int) (k : Nat) :
    ofDecimal (coefficient * powerOfTen k) (exponent - k) = ofDecimal coefficient exponent := by
  by_cases zero : coefficient = 0
  · rw [zero, Nat.zero_mul, ofDecimal_zero, ofDecimal_zero]
  · have positive : 0 < coefficient := Nat.pos_of_ne_zero zero
    have digits := congrArg List.length (toDigits_mul_powerOfTen positive k)
    rw [List.length_append, List.length_replicate] at digits
    have shifted : 0 < coefficient * powerOfTen k := Nat.mul_pos positive (powerOfTen_pos k)
    have size : ((Nat.toDigits 10 (coefficient * powerOfTen k)).length : Int) + (exponent - k) =
        (Nat.toDigits 10 coefficient).length + exponent := by
      omega
    by_cases low : -400 ≤ (Nat.toDigits 10 coefficient).length + exponent
    · by_cases high : (Nat.toDigits 10 coefficient).length + exponent ≤ 400
      · rw [ofDecimal_eq positive exponent.toNat (-exponent).toNat (by omega) low high,
          ofDecimal_eq shifted exponent.toNat ((-exponent).toNat + k) (by omega) (by omega) (by omega),
          powerOfTen_add, Nat.mul_right_comm, nearest_mul _ _ (powerOfTen_pos k)]
      · rw [ofDecimal, ofDecimal, size, if_neg (by omega), if_pos (by omega),
          if_neg (by omega), if_pos (by omega)]
    · rw [ofDecimal, ofDecimal, size, if_pos (Or.inr (by omega)), if_pos (Or.inr (by omega))]

/-! ### Shortest decimals -/

theorem unpack_bounds {pattern : Nat} (finite : pattern < infinite) (positive : 0 < pattern) :
    0 < (unpack pattern).1 ∧ (unpack pattern).1 < 2 ^ 53 ∧ (unpack pattern).2 ≤ 2045 := by
  rw [unpack]
  unfold fractionSize infinite at *
  split <;> dsimp only <;> omega

theorem steps_lt : 1 <<< 1074 < powerOfTen 400 := by decide +kernel

theorem shiftLeft_le {m a b k : Nat} (h : m ≤ 2 ^ a) (fits : a + k ≤ b) : m <<< k ≤ 1 <<< b := by
  rw [Nat.shiftLeft_eq, Nat.shiftLeft_eq, Nat.one_mul]
  calc m * 2 ^ k ≤ 2 ^ a * 2 ^ k := Nat.mul_le_mul_right _ h
    _ = 2 ^ (a + k) := (Nat.pow_add 2 a k).symm
    _ ≤ 2 ^ b := Nat.pow_le_pow_right (by decide) fits

theorem powerOfTen_eq (j : Nat) : powerOfTen j = 1 <<< j * Nat.pow 5 j := by
  rw [Nat.shiftLeft_eq, Nat.one_mul]
  exact Nat.mul_pow 2 5 j

theorem powerOfTen_le {a b : Nat} (h : a ≤ b) : powerOfTen a ≤ powerOfTen b :=
  Nat.pow_le_pow_right (by decide) h

theorem length_toDigits_le {n k : Nat} (h : n < powerOfTen k) (positive : 0 < k) :
    (Nat.toDigits 10 n).length ≤ k := (Nat.length_toDigits_le_iff (by decide) positive).mpr h

/-- A fraction with a power of two below it has its first digit at most 400 places behind the point. -/
theorem le_length_toDigits {m j : Nat} (positive : 0 < m) (small : j ≤ 1074) :
    j ≤ (Nat.toDigits 10 (m * Nat.pow 5 j)).length + 400 := by
  by_contra far
  have below : m * Nat.pow 5 j < powerOfTen (Nat.toDigits 10 (m * Nat.pow 5 j)).length :=
    (Nat.length_toDigits_le_iff (by decide) Nat.length_toDigits_pos).mp (Nat.le_refl _)
  generalize (Nat.toDigits 10 (m * Nat.pow 5 j)).length = digits at *
  have fives : Nat.pow 5 j < powerOfTen digits :=
    Nat.lt_of_le_of_lt (Nat.le_mul_of_pos_left _ positive) below
  have twos : 1 <<< j < powerOfTen 400 :=
    Nat.lt_of_le_of_lt (shiftLeft_le (Nat.le_refl (2 ^ 0)) (by omega)) steps_lt
  have more : powerOfTen (400 + digits) ≤ powerOfTen j := powerOfTen_le (by omega)
  rw [powerOfTen_add, powerOfTen_eq j] at more
  exact Nat.not_lt.mpr more (Nat.mul_lt_mul'' twos fives)

/-- **A magnitude that is written exactly reads back to its pattern.** -/
theorem pattern_exactDecimal {pattern : Nat} (finite : pattern < infinite) (positive : 0 < pattern) :
    (exactDecimal pattern).pattern = pattern := by
  obtain ⟨some, size, scale⟩ := unpack_bounds finite positive
  have exact := @nearest_unpack pattern finite
  rw [exactDecimal]
  generalize unpack pattern = parts at *
  obtain ⟨m, k⟩ := parts
  dsimp only at *
  by_cases whole : 1074 ≤ k
  · rw [if_pos whole, Decimal.pattern]
    dsimp only
    have bound : m <<< (k - 1074) < powerOfTen 400 :=
      Nat.lt_of_le_of_lt (shiftLeft_le size.le (by omega)) steps_lt
    have digits := length_toDigits_le bound (by decide)
    have nonzero : 0 < m <<< (k - 1074) := by
      rw [Nat.shiftLeft_eq]
      exact Nat.mul_pos some (Nat.two_pow_pos _)
    rw [ofDecimal_eq nonzero 0 0 (by omega) (by omega) (by omega)]
    refine exact (powerOfTen_pos 0) ?_
    show (m <<< (k - 1074) * 1) <<< 1074 = m <<< k * 1
    rw [Nat.mul_one, Nat.mul_one, ← Nat.shiftLeft_add, Nat.sub_add_cancel whole]
  · rw [if_neg whole, Decimal.pattern]
    dsimp only
    obtain ⟨j, split⟩ : ∃ j, 1074 = k + j := ⟨1074 - k, by omega⟩
    have rest : 1074 - k = j := by omega
    rw [rest]
    have low := le_length_toDigits (j := j) some (by omega)
    have high : (Nat.toDigits 10 (m * Nat.pow 5 j)).length ≤ 400 + j := by
      refine length_toDigits_le ?_ (by omega)
      have few : m < powerOfTen 400 := Nat.lt_trans size (by decide +kernel)
      rw [powerOfTen_add]
      exact Nat.mul_lt_mul_of_lt_of_le few (Nat.pow_le_pow_left (by decide) j) (powerOfTen_pos j)
    have nonzero : 0 < m * Nat.pow 5 j := Nat.mul_pos some (Nat.pow_pos (by decide : 0 < 5))
    rw [ofDecimal_eq nonzero 0 j (by omega) (by omega) (by omega)]
    refine exact (powerOfTen_pos j) ?_
    show (m * Nat.pow 5 j * 1) <<< 1074 = m <<< k * powerOfTen j
    rw [split, powerOfTen_eq, Nat.shiftLeft_eq, Nat.shiftLeft_eq, Nat.shiftLeft_eq, Nat.pow_add]
    ring

/-- **The decimal with the fewest digits reads back to its pattern.** -/
theorem pattern_shortest {pattern : Nat} (finite : pattern < infinite) :
    (shortest pattern).pattern = pattern := by
  have search : 0 < pattern → ∀ fuel n, (shortestFrom pattern fuel n).pattern = pattern := by
    intro positive fuel
    induction fuel with
    | zero => exact fun _ => pattern_exactDecimal finite positive
    | succ fuel ih =>
      intro n
      rw [shortestFrom]
      dsimp only
      split
      · rename_i d found
        have same : (d.pattern == pattern) = true :=
          List.find?_some (p := fun d : Decimal => d.pattern == pattern) found
        exact beq_iff_eq.mp same
      · exact ih (n + 1)
  rw [shortest]
  split
  · rename_i zero
    rw [zero]
    rfl
  · exact search (Nat.pos_of_ne_zero ‹_›) 17 1

end Spreadsheet.Number
