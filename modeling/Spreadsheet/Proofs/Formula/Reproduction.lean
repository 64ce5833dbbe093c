import Spreadsheet.Proofs.Formula.Literal
import Spreadsheet.Proofs.Formula.Printing
import Spreadsheet.Proofs.Json.Scalar
import Spreadsheet.Proofs.Number.Bits

/-!
# What a literal says

The literal of a value is evaluated to the value, in whatever cell it stands, with two exceptions.
There is no literal for infinity and for the value that is not a number: their names are no formulas.
And what shows the status of a formula is a text like any other.

* `exists_parts`: the digits of a decimal in positional notation read back to its pattern.
* `parse_text_number`: the text of a finite number says the number.
* `CellValue.recovered`: the value that a literal is evaluated to.
* `evaluate_literal`: a literal has this value everywhere.
* `CellValue.recovered_eq_plain_iff`: which values come back.
-/

namespace Spreadsheet

/-! ### Decimals in positional notation -/

theorem exists_dropTrailingZeros (cs : List Char) :
    ∃ k, Number.dropTrailingZeros cs ++ List.replicate k '0' = cs := by
  have split := congrArg List.reverse (List.takeWhile_append_dropWhile (p := (· == '0')) (l := cs.reverse))
  rw [List.reverse_append, List.reverse_reverse] at split
  have zeros : cs.reverse.takeWhile (· == '0') =
      List.replicate (cs.reverse.takeWhile (· == '0')).length '0' := by
    rw [List.eq_replicate_iff]
    exact ⟨rfl, fun c hc => eq_of_beq (List.mem_takeWhile_imp (p := (· == '0')) hc)⟩
  rw [zeros, List.reverse_replicate] at split
  exact ⟨_, split⟩

theorem ofDigitChars_append_zeros (cs : List Char) (k : Nat) :
    Nat.ofDigitChars 10 (cs ++ List.replicate k '0') 0 =
      Nat.ofDigitChars 10 cs 0 * Number.powerOfTen k := by
  rw [Nat.ofDigitChars_append, Nat.ofDigitChars_replicate_zero, Nat.mul_comm]
  rfl

theorem ofDigitChars_zeros_append (cs : List Char) (k : Nat) :
    Nat.ofDigitChars 10 (List.replicate k '0' ++ cs) 0 = Nat.ofDigitChars 10 cs 0 := by
  rw [Nat.ofDigitChars_append, Nat.ofDigitChars_replicate_zero, Nat.mul_zero]

/-- **A decimal in positional notation** has a row of digits, and perhaps another one behind a point,
that read back to its pattern. -/
theorem exists_parts (d : Number.Decimal) :
    ∃ whole fraction : List Char,
      d.chars = whole ++ (if fraction = [] then [] else '.' :: fraction) ∧ whole ≠ [] ∧
      (∀ c ∈ whole ++ fraction, c.isDigit = true) ∧
      Number.ofDecimal (Nat.ofDigitChars 10 (whole ++ fraction) 0) (-(fraction.length : Int)) =
        d.pattern := by
  have digits := Json.isDigit_of_mem_toDigits (n := d.coefficient)
  have zeros : ∀ k, ∀ c ∈ List.replicate k '0', c.isDigit = true := fun _ => Json.isDigit_of_mem_zeros
  rw [Number.Decimal.chars, Number.Decimal.pattern]
  dsimp only
  by_cases big : 0 ≤ d.exponent
  · rw [if_pos big]
    by_cases zero : d.coefficient = 0
    · refine ⟨['0'], [], by rw [if_pos zero]; rfl, List.cons_ne_nil _ _, zeros 1, ?_⟩
      rw [zero, Number.ofDecimal_zero]
      rfl
    · have shift := Number.ofDecimal_shift d.coefficient d.exponent d.exponent.toNat
      have exponent : d.exponent - (d.exponent.toNat : Int) = 0 := by omega
      rw [exponent] at shift
      refine ⟨_, [], by rw [if_neg zero, if_pos rfl, List.append_nil],
        List.append_ne_nil_of_left_ne_nil Nat.toDigits_ne_nil _, ?_, ?_⟩
      · rw [List.append_nil]
        exact List.forall_mem_append.mpr ⟨digits, zeros _⟩
      · rw [List.append_nil, ofDigitChars_append_zeros, Nat.ofDigitChars_ten_toDigits]
        exact shift
  · rw [if_neg big]
    generalize hplaces : (-d.exponent).toNat = places
    generalize hpadded : List.replicate (places + 1 - (Nat.toDigits 10 d.coefficient).length) '0' ++
      Nat.toDigits 10 d.coefficient = padded
    have long : places < padded.length := by
      rw [← hpadded, List.length_append, List.length_replicate]
      omega
    have value : Nat.ofDigitChars 10 padded 0 = d.coefficient := by
      rw [← hpadded, ofDigitChars_zeros_append, Nat.ofDigitChars_ten_toDigits]
    have padding : ∀ c ∈ padded, c.isDigit = true := by
      rw [← hpadded]
      exact List.forall_mem_append.mpr ⟨zeros _, digits⟩
    have parts := List.take_append_drop (padded.length - places) padded
    have behind : (padded.drop (padded.length - places)).length = places := by
      rw [List.length_drop]
      omega
    generalize hwhole : padded.take (padded.length - places) = whole at *
    obtain ⟨k, rest⟩ := exists_dropTrailingZeros (padded.drop (padded.length - places))
    generalize Number.dropTrailingZeros (padded.drop (padded.length - places)) = fraction at *
    rw [← rest] at parts behind
    rw [List.length_append, List.length_replicate] at behind
    refine ⟨whole, fraction, ?_, ?_, ?_, ?_⟩
    · by_cases none : fraction = []
      · rw [if_pos none, if_pos (List.isEmpty_iff.mpr none), List.append_nil]
      · rw [if_neg none, if_neg (by rwa [List.isEmpty_iff])]
    · rw [← hwhole, Ne, List.take_eq_nil_iff, not_or]
      exact ⟨by omega, List.ne_nil_of_length_pos (by omega)⟩
    · intro c hc
      refine padding c ?_
      rw [← parts, ← List.append_assoc]
      exact List.mem_append_left _ hc
    · have shift := Number.ofDecimal_shift (Nat.ofDigitChars 10 (whole ++ fraction) 0)
        (-(fraction.length : Int)) k
      have exponent : -(fraction.length : Int) - k = d.exponent := by omega
      rw [← ofDigitChars_append_zeros, List.append_assoc, parts, value, exponent] at shift
      exact shift.symm

/-! ### Literals -/

namespace Formula

/-- **The digits of a decimal are a numeral**, with or without a `-` in front. -/
theorem exists_numeral (negative : Bool) (d : Number.Decimal) :
    ∃ n : Numeral, n.chars = (if negative then '-' :: d.chars else d.chars) ∧
      n.value = Number.ofPattern negative d.pattern := by
  obtain ⟨whole, fraction, chars, front, digits, value⟩ := exists_parts d
  by_cases empty : fraction = []
  · subst empty
    refine ⟨⟨negative, whole, none, digits, List.append_ne_nil_of_left_ne_nil front _,
      fun _ => front⟩, ?_, ?_⟩
    · rw [chars, if_pos rfl]
      rfl
    · rw [← value]
      rfl
  · refine ⟨⟨negative, whole, some fraction, digits, List.append_ne_nil_of_left_ne_nil front _,
      fun _ => front⟩, ?_, ?_⟩
    · rw [chars, if_neg empty]
      rfl
    · rw [← value]
      rfl

theorem tokens_of_readAs {t : Token} {formula : String} (h : ReadAs t formula.toList)
    (operand : t.isOperand = true) : tokens formula = .ok [t] := by
  have cut := h.tokenized operand endsOperand_nil .nil
  rw [List.append_nil] at cut
  exact tokens_eq_ok_iff_tokenized.mpr cut

/-- **The text of a finite number says the number.** -/
theorem parse_text_number {x : Float} (finite : Number.patternOf x < Number.infinite) :
    parse (Number.text x) = .ok (.number x) := by
  obtain ⟨n, chars, value⟩ := exists_numeral (Number.isNegative x)
    (Number.shortest (Number.patternOf x))
  rw [Number.pattern_shortest finite, Number.ofPattern_patternOf] at value
  have text : (Number.text x).toList = n.chars := by
    rw [Number.text, String.toList_ofList, Number.chars, if_neg (Nat.not_lt.mpr finite.le),
      if_neg finite.ne, chars]
  have read := n.readAs_chars
  rw [← text, value] at read
  rw [parse, tokens_of_readAs read rfl]
  rfl

end Formula

namespace CellValue

/-- What a cell holds whose formula is the literal of a value.  A number that is not finite has no
literal, only a name. -/
def recovered : CellValue → CellValue
  | pending _ => text ""
  | number x =>
    if Number.patternOf x < Number.infinite then number x
    else text ("Error in formula: " ++ Number.text x)
  | status s => text s
  | v => v

theorem recovered_ne_pending (v : CellValue) (f : String) : v.recovered ≠ pending f := by
  cases v with
  | number x =>
    rw [recovered]
    split <;> exact nofun
  | _ => exact nofun

/-- The value, where the status of a formula counts as a text. -/
def plain : CellValue → CellValue
  | status s => text s
  | v => v

/-- **The values that come back** are all but the numbers that are not finite. -/
theorem recovered_eq_plain_iff {v : CellValue} (settled : ∀ f, v ≠ pending f) :
    v.recovered = v.plain ↔ ∀ x, v = number x → Number.patternOf x < Number.infinite := by
  cases v with
  | pending f => exact absurd rfl (settled f)
  | number x =>
    rw [recovered]
    show (if _ then number x else _) = number x ↔ _
    constructor
    · rintro same y ⟨⟩
      by_contra large
      rw [if_neg large] at same
      cases same
    · intro finite
      rw [if_pos (finite x rfl)]
  | text s => exact iff_of_true rfl nofun
  | bool b => exact iff_of_true rfl nofun
  | status s => exact iff_of_true rfl nofun

end CellValue

namespace Formula

theorem isValid_text_number {x : Float} (large : ¬ Number.patternOf x < Number.infinite) :
    isValid (Number.text x) = false := by
  have names : ∀ name ∈ ["NaN", "-Inf", "+Inf"], isValid name = false := by decide +kernel
  refine names _ ?_
  rw [Number.text, Number.chars]
  dsimp only
  split
  · decide +kernel
  · rw [if_pos (by omega)]
    split <;> decide +kernel

theorem parse_quote (text : String) : parse (Text.quote text) = .ok (.text text) := by
  rw [parse, tokens_of_readAs (readAs_quote text) rfl]
  rfl

theorem not_callsRandom_quote (text : String) : ¬ CallsRandom (Text.quote text) := by
  rintro ⟨ts, ok, calls⟩
  rw [tokens_of_readAs (readAs_quote text) rfl] at ok
  cases ok
  exact absurd calls (by simp)

theorem parse_boolText (b : Bool) : parse (boolText b) = .ok (.bool b) := by
  rw [parse, tokens_of_readAs (readAs_bool b) rfl]
  rfl

/-- **A literal says its value everywhere**, as far as the value has a literal. -/
theorem evaluate_literal (view : CellView) (origin : CellId) (v : CellValue) :
    (evaluate view origin v.literal).toValue = v.recovered := by
  cases v with
  | pending f =>
    have none : tokens "" = .ok [] := by decide +kernel
    rw [CellValue.literal, evaluate, parse, none]
    rfl
  | text s =>
    rw [CellValue.literal, evaluate, parse_quote]
    rfl
  | status s =>
    rw [CellValue.literal, evaluate, parse_quote]
    rfl
  | bool b =>
    rw [CellValue.literal, evaluate, parse_boolText]
    rfl
  | number x =>
    rw [CellValue.literal, CellValue.recovered, evaluate]
    by_cases finite : Number.patternOf x < Number.infinite
    · rw [if_pos finite, parse_text_number finite]
      cases x with
      | plain x => rfl
      | minusNaN => exact absurd finite (by decide +kernel)
    · have invalid := isValid_text_number finite
      rw [isValid] at invalid
      rw [if_neg finite]
      cases read : parse (Number.text x) with
      | ok e =>
        rw [read] at invalid
        cases invalid
      | error e => rfl

end Formula

end Spreadsheet
