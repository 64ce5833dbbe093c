import Mathlib.Data.List.Basic
import Mathlib.Tactic.SplitIfs
import Spreadsheet.Json.Reader
import Spreadsheet.Json.Writer
import Spreadsheet.Proofs.Number.Shortest
import Spreadsheet.Proofs.Reference.RoundTrip

/-!
# Numbers and texts in JSON

A decimal fraction is written in one of several forms, and the reader puts its digits together to a
coefficient and an exponent that may differ from those that were written, but not in their value.  A
text is read as it was written.

* `Numeral.reread`: the number that the text of a number is read as.
* `Json.readNumeral?_numeralChars`: what is written is read in front of anything that does not go on.
* `Numeral.toFloat?_reread`: and it has the same nearest double.
* `Json.readString_quoted`: a text in quotes.
-/

namespace Spreadsheet

/-- The number that the text of a number is read as. -/
def Numeral.reread (n : Numeral) : Numeral :=
  ((Json.readNumeral? (Json.numeralChars n)).map (·.1)).getD n

namespace Json

def EndsNumeral (rest : List Char) : Prop :=
  ∀ c ∈ rest.head?, c.isDigit = false ∧ c ≠ '.' ∧ c ≠ 'e' ∧ c ≠ 'E'

/-! ### Digits -/

theorem readDigits?_append {ds rest : List Char} (digits : ∀ c ∈ ds, c.isDigit = true) (some : ds ≠ [])
    (stop : ∀ c ∈ rest.head?, c.isDigit = false) : readDigits? (ds ++ rest) = .some (ds, rest) := by
  obtain ⟨taken, left⟩ := takeWhile_append_of_head digits stop
  have nonempty : ds.isEmpty = false := List.isEmpty_eq_false_iff.mpr some
  rw [readDigits?, taken, left, nonempty]
  rfl

theorem isDigit_of_mem_toDigits {n : Nat} : ∀ c ∈ Nat.toDigits 10 n, c.isDigit = true :=
  fun _ mem => Nat.isDigit_of_mem_toDigits (by decide) (by decide) mem

theorem head_toDigits_ne_zero {n : Nat} (positive : 0 < n) :
    ∀ c ∈ (Nat.toDigits 10 n).head?, c ≠ '0' := by
  induction n using Nat.strongRecOn with
  | ind n ih =>
    rw [Nat.toDigits_eq_if (by decide)]
    split
    · rename_i small
      have single : ∀ n < 10, 0 < n → Nat.digitChar n ≠ '0' := by decide
      rintro c ⟨⟩
      exact single n small positive
    · rw [List.head?_append_of_ne_nil _ Nat.toDigits_ne_nil]
      exact ih (n / 10) (by omega) (by omega)

/-- A row of digits that may begin a number. -/
structure Whole (ds : List Char) : Prop where
  digits : ∀ c ∈ ds, c.isDigit = true
  some : ds ≠ []
  head : (decide (1 < ds.length) && ds.head? == .some '0') = false

theorem whole_single {c : Char} (digit : c.isDigit = true) : Whole [c] :=
  ⟨List.forall_mem_singleton.mpr digit, List.cons_ne_nil _ _, rfl⟩

/-- Digits that begin like those of a positive number may begin a number. -/
theorem whole_of_front {n : Nat} (positive : 0 < n) {ds : List Char}
    (digits : ∀ c ∈ ds, c.isDigit = true) (some : ds ≠ [])
    (first : ds.head? = (Nat.toDigits 10 n).head?) : Whole ds := by
  refine ⟨digits, some, ?_⟩
  rw [first]
  cases head : (Nat.toDigits 10 n).head? with
  | none => exact Bool.and_false _
  | some c =>
    have other : c ≠ '0' := head_toDigits_ne_zero positive c head
    simp [other]

theorem whole_toDigits (n : Nat) : Whole (Nat.toDigits 10 n) := by
  rcases Nat.eq_zero_or_pos n with rfl | positive
  · exact whole_single (by decide)
  · exact whole_of_front positive isDigit_of_mem_toDigits Nat.toDigits_ne_nil rfl

/-! ### Numbers -/

/-- The parts of a number after its sign. -/
structure Parts where
  whole : List Char
  fraction : List Char
  exponent : Option Int

/-- The text of the parts. -/
def Parts.chars (p : Parts) : List Char :=
  p.whole ++ ((if p.fraction = [] then [] else '.' :: p.fraction) ++
    p.exponent.elim [] exponentChars)

def Parts.decimal (p : Parts) : Number.Decimal :=
  ⟨Nat.ofDigitChars 10 (p.whole ++ p.fraction) 0, p.exponent.getD 0 - p.fraction.length⟩

/-- The parts are those of a number. -/
structure Parts.Proper (p : Parts) : Prop where
  whole : Whole p.whole
  fraction : ∀ c ∈ p.fraction, c.isDigit = true

theorem readExponent?_exponentChars (e : Int) {rest : List Char} (stop : EndsNumeral rest) :
    readExponent? (exponentChars e ++ rest) = some (some e, rest) := by
  have digits : readDigits? (Nat.toDigits 10 e.natAbs ++ rest) =
      some (Nat.toDigits 10 e.natAbs, rest) :=
    readDigits?_append isDigit_of_mem_toDigits Nat.toDigits_ne_nil fun c mem => (stop c mem).1
  rw [exponentChars]
  by_cases negative : e < 0
  · have back : -(e.natAbs : Int) = e := by omega
    rw [if_pos negative]
    show (readDigits? (Nat.toDigits 10 e.natAbs ++ rest)).bind _ = _
    rw [digits]
    show some (some (-(Nat.ofDigitChars 10 (Nat.toDigits 10 e.natAbs) 0 : Int)), rest) = _
    rw [Nat.ofDigitChars_ten_toDigits, back]
  · have back : (e.natAbs : Int) = e := by omega
    rw [if_neg negative]
    show (readDigits? (Nat.toDigits 10 e.natAbs ++ rest)).bind _ = _
    rw [digits]
    show some (some (Nat.ofDigitChars 10 (Nat.toDigits 10 e.natAbs) 0 : Int), rest) = _
    rw [Nat.ofDigitChars_ten_toDigits, back]

theorem readExponent?_none {rest : List Char} (stop : EndsNumeral rest) :
    readExponent? rest = some (none, rest) := by
  cases rest with
  | nil => rfl
  | cons c cs =>
    obtain ⟨-, -, small, capital⟩ := stop c rfl
    simp [readExponent?, small, capital]

theorem readExponent?_elim (exponent : Option Int) {rest : List Char} (stop : EndsNumeral rest) :
    readExponent? (exponent.elim [] exponentChars ++ rest) = some (exponent, rest) := by
  cases exponent with
  | none => exact readExponent?_none stop
  | some e => exact readExponent?_exponentChars e stop

/-- What follows the digits of a number does not go on with digits or with a point. -/
theorem head_exponent (exponent : Option Int) {rest : List Char} (stop : EndsNumeral rest) :
    ∀ c ∈ (exponent.elim [] exponentChars ++ rest).head?, c.isDigit = false ∧ c ≠ '.' := by
  cases exponent with
  | none => exact fun c mem => ⟨(stop c mem).1, (stop c mem).2.1⟩
  | some e =>
    intro c mem
    cases mem
    decide

theorem readFraction?_append {fraction : List Char} (digits : ∀ c ∈ fraction, c.isDigit = true)
    {tail : List Char} (stop : ∀ c ∈ tail.head?, c.isDigit = false ∧ c ≠ '.') :
    readFraction? ((if fraction = [] then [] else '.' :: fraction) ++ tail) =
      some (fraction, tail) := by
  by_cases empty : fraction = []
  · rw [if_pos empty, empty, List.nil_append]
    cases tail with
    | nil => rfl
    | cons c cs =>
      have other : c ≠ '.' := (stop c rfl).2
      simp [readFraction?, other]
  · rw [if_neg empty]
    exact readDigits?_append digits empty fun c mem => (stop c mem).1

/-- **The parts of a number are read** in front of anything that does not go on. -/
theorem readUnsigned?_parts (negative : Bool) {p : Parts} (proper : p.Proper) {rest : List Char}
    (stop : EndsNumeral rest) :
    readUnsigned? negative (p.chars ++ rest) =
      some (if !negative && p.fraction.isEmpty && p.exponent.isNone then
        .natural (Nat.ofDigitChars 10 (p.whole ++ p.fraction) 0)
        else .decimal negative p.decimal, rest) := by
  have tail := head_exponent p.exponent stop
  have first : readDigits? (p.chars ++ rest) =
      some (p.whole, (if p.fraction = [] then [] else '.' :: p.fraction) ++
        (p.exponent.elim [] exponentChars ++ rest)) := by
    rw [Parts.chars, List.append_assoc, List.append_assoc]
    refine readDigits?_append proper.whole.digits proper.whole.some ?_
    split
    · exact fun c mem => (tail c mem).1
    · intro c mem
      cases mem
      decide
  rw [readUnsigned?, first]
  simp only [Option.bind_eq_bind, Option.bind_some, proper.whole.head, Bool.false_eq_true, if_false,
    readFraction?_append proper.fraction tail, readExponent?_elim _ stop]
  split <;> rfl

theorem readNumeral?_parts (negative : Bool) {p : Parts} (proper : p.Proper) {rest : List Char}
    (stop : EndsNumeral rest) :
    readNumeral? ((if negative then ['-'] else []) ++ (p.chars ++ rest)) =
      some (if !negative && p.fraction.isEmpty && p.exponent.isNone then
        .natural (Nat.ofDigitChars 10 (p.whole ++ p.fraction) 0)
        else .decimal negative p.decimal, rest) := by
  rw [← readUnsigned?_parts negative proper stop]
  cases negative with
  | true => rfl
  | false =>
    obtain ⟨d, ds, front⟩ := List.exists_cons_of_ne_nil proper.whole.some
    have other : d ≠ '-' := by
      rintro rfl
      have digit := proper.whole.digits '-' (front ▸ List.mem_cons_self)
      exact absurd digit (by decide)
    rw [Parts.chars, front]
    simp [readNumeral?, other]

/-! ### The forms of a decimal fraction -/

/-- Adding zeros to a coefficient and taking them off the exponent does not change the pattern. -/
theorem pattern_of_shift {d e : Number.Decimal} (k : Nat)
    (coefficient : e.coefficient = d.coefficient * Number.powerOfTen k)
    (exponent : e.exponent = d.exponent - k) : e.pattern = d.pattern := by
  rw [Number.Decimal.pattern, coefficient, exponent, Number.ofDecimal_shift]
  rfl

def Writes (d : Number.Decimal) (cs : List Char) : Prop :=
  ∃ p : Parts, p.Proper ∧ (p.fraction.isEmpty && p.exponent.isNone) = false ∧ cs = p.chars ∧
    p.decimal.pattern = d.pattern

variable {d : Number.Decimal}

theorem isDigit_of_mem_zeros {k : Nat} : ∀ c ∈ List.replicate k '0', c.isDigit = true := by
  intro c mem
  rw [(List.mem_replicate.mp mem).2]
  decide

theorem writes_zero (zero : d.coefficient = 0) : Writes d ['0', '.', '0'] := by
  refine ⟨⟨['0'], ['0'], none⟩, ⟨whole_single (by decide), isDigit_of_mem_zeros (k := 1)⟩, rfl, rfl, ?_⟩
  rw [Number.Decimal.pattern, Number.Decimal.pattern, zero, Number.ofDecimal_zero]
  exact Number.ofDecimal_zero _

theorem writes_whole (positive : 0 < d.coefficient) (whole : 0 ≤ d.exponent) :
    Writes d (Nat.toDigits 10 d.coefficient ++ List.replicate d.exponent.toNat '0' ++ ['.', '0']) := by
  refine ⟨⟨Nat.toDigits 10 d.coefficient ++ List.replicate d.exponent.toNat '0', ['0'], none⟩,
    ⟨?_, isDigit_of_mem_zeros (k := 1)⟩, rfl, rfl, ?_⟩
  · refine whole_of_front positive ?_ (List.append_ne_nil_of_left_ne_nil Nat.toDigits_ne_nil _) ?_
    · exact List.forall_mem_append.mpr ⟨isDigit_of_mem_toDigits, isDigit_of_mem_zeros⟩
    · exact List.head?_append_of_ne_nil _ Nat.toDigits_ne_nil
  · refine pattern_of_shift (d.exponent.toNat + 1) ?_ ?_
    · rw [Parts.decimal, List.append_assoc, ← List.replicate_succ', Nat.ofDigitChars_append,
        Nat.ofDigitChars_ten_toDigits, Nat.ofDigitChars_replicate_zero, Nat.mul_comm]
      rfl
    · rw [Parts.decimal]
      dsimp only [Option.getD_none, List.length_singleton]
      omega

theorem writes_point (positive : 0 < d.coefficient) {k : Nat} (front : 0 < k)
    (behind : k < (Nat.toDigits 10 d.coefficient).length)
    (place : ((Nat.toDigits 10 d.coefficient).length : Int) + d.exponent = k) :
    Writes d ((Nat.toDigits 10 d.coefficient).take k ++
      '.' :: (Nat.toDigits 10 d.coefficient).drop k) := by
  have left : (Nat.toDigits 10 d.coefficient).take k ≠ [] := by
    rw [Ne, List.take_eq_nil_iff, not_or]
    exact ⟨Nat.ne_of_gt front, Nat.toDigits_ne_nil⟩
  have right : (Nat.toDigits 10 d.coefficient).drop k ≠ [] :=
    List.drop_eq_nil_iff.not.mpr (Nat.not_le.mpr behind)
  refine ⟨⟨(Nat.toDigits 10 d.coefficient).take k, (Nat.toDigits 10 d.coefficient).drop k, none⟩,
    ⟨whole_of_front positive ?_ left ?_, ?_⟩, ?_, ?_, ?_⟩
  · exact fun c mem => isDigit_of_mem_toDigits c (List.mem_of_mem_take mem)
  · rw [List.head?_take, if_neg (Nat.ne_of_gt front)]
  · exact fun c mem => isDigit_of_mem_toDigits c (List.mem_of_mem_drop mem)
  · rw [List.isEmpty_eq_false_iff.mpr right]
    rfl
  · rw [Parts.chars, if_neg right, Option.elim_none, List.append_nil]
  · refine pattern_of_shift 0 ?_ ?_
    · rw [Parts.decimal, List.take_append_drop, Nat.ofDigitChars_ten_toDigits]
      exact (Nat.mul_one _).symm
    · rw [Parts.decimal]
      dsimp only [Option.getD_none]
      rw [List.length_drop]
      omega

theorem writes_small {k : Nat}
    (place : ((Nat.toDigits 10 d.coefficient).length : Int) + d.exponent = -k) :
    Writes d ('0' :: '.' :: List.replicate k '0' ++ Nat.toDigits 10 d.coefficient) := by
  have some : List.replicate k '0' ++ Nat.toDigits 10 d.coefficient ≠ [] :=
    List.append_ne_nil_of_right_ne_nil _ Nat.toDigits_ne_nil
  refine ⟨⟨['0'], List.replicate k '0' ++ Nat.toDigits 10 d.coefficient, none⟩,
    ⟨whole_single (by decide), ?_⟩, ?_, ?_, ?_⟩
  · exact List.forall_mem_append.mpr ⟨isDigit_of_mem_zeros, isDigit_of_mem_toDigits⟩
  · rw [List.isEmpty_eq_false_iff.mpr some]
    rfl
  · rw [Parts.chars, if_neg some, Option.elim_none, List.append_nil]
    rfl
  · refine pattern_of_shift 0 ?_ ?_
    · show Nat.ofDigitChars 10 ('0' :: List.replicate k '0' ++ Nat.toDigits 10 d.coefficient) 0 = _
      rw [← List.replicate_succ, Nat.ofDigitChars_append, Nat.ofDigitChars_replicate_zero,
        Nat.mul_zero, Nat.ofDigitChars_ten_toDigits]
      exact (Nat.mul_one _).symm
    · rw [Parts.decimal]
      dsimp only [Option.getD_none]
      rw [List.length_append, List.length_replicate]
      omega

/-- A fraction with an exponent, and with a point after its first digit if it has more of them. -/
theorem writes_scientific {e : Int}
    (place : ((Nat.toDigits 10 d.coefficient).length : Int) + d.exponent - 1 = e) :
    Writes d (match Nat.toDigits 10 d.coefficient with
      | [digit] => digit :: exponentChars e
      | ds => ds.take 1 ++ '.' :: ds.drop 1 ++ exponentChars e) := by
  obtain ⟨digit, rest, split⟩ := List.exists_cons_of_ne_nil (@Nat.toDigits_ne_nil d.coefficient 10)
  have digits := isDigit_of_mem_toDigits (n := d.coefficient)
  rw [split] at digits place
  refine ⟨⟨[digit], rest, some e⟩, ⟨?_, ?_⟩, Bool.and_false _, ?_, ?_⟩
  · exact whole_single (digits digit List.mem_cons_self)
  · exact fun c mem => digits c (List.mem_cons_of_mem _ mem)
  · rw [split, Parts.chars]
    cases rest with
    | nil => rfl
    | cons next rest => exact List.append_assoc _ _ _
  · refine pattern_of_shift 0 ?_ ?_
    · rw [Parts.decimal, List.singleton_append, ← split, Nat.ofDigitChars_ten_toDigits]
      exact (Nat.mul_one _).symm
    · rw [Parts.decimal]
      rw [List.length_cons] at place
      dsimp only [Option.getD_some]
      omega

/-- **A decimal fraction is written** so that it is read as one with the same pattern. -/
theorem writes_decimalChars (d : Number.Decimal) : Writes d (decimalChars d) := by
  have some : 0 < (Nat.toDigits 10 d.coefficient).length := Nat.length_toDigits_pos
  rw [decimalChars]
  dsimp only
  split
  · exact writes_zero ‹_›
  · have positive : 0 < d.coefficient := Nat.pos_of_ne_zero ‹_›
    split
    · exact writes_whole positive (by omega)
    · split
      · exact writes_point positive (by omega) (by omega) (by omega)
      · split
        · exact writes_small (by omega)
        · exact writes_scientific rfl

theorem endsNumeral_nil : EndsNumeral [] := nofun

theorem readNumeral?_natural (n : Nat) {rest : List Char} (stop : EndsNumeral rest) :
    readNumeral? (Nat.toDigits 10 n ++ rest) = some (.natural n, rest) := by
  have read := readNumeral?_parts false (p := ⟨Nat.toDigits 10 n, [], none⟩)
    ⟨whole_toDigits n, nofun⟩ stop
  simpa [Parts.chars, Nat.ofDigitChars_ten_toDigits] using read

theorem exists_readNumeral?_decimal (negative : Bool) (d : Number.Decimal) :
    ∃ e : Number.Decimal, e.pattern = d.pattern ∧ ∀ rest, EndsNumeral rest →
      readNumeral? (numeralChars (.decimal negative d) ++ rest) = some (.decimal negative e, rest) := by
  obtain ⟨p, proper, fractional, written, same⟩ := writes_decimalChars d
  refine ⟨p.decimal, same, fun rest stop => ?_⟩
  rw [numeralChars, written, List.append_assoc, readNumeral?_parts negative proper stop,
    Bool.and_assoc, fractional, Bool.and_false]
  rfl

/-- **What is written is read** in front of anything that does not go on. -/
theorem readNumeral?_numeralChars (n : Numeral) {rest : List Char} (stop : EndsNumeral rest) :
    readNumeral? (numeralChars n ++ rest) = some (n.reread, rest) := by
  cases n with
  | natural n =>
    have alone := readNumeral?_natural n endsNumeral_nil
    rw [List.append_nil] at alone
    rw [Numeral.reread, numeralChars, readNumeral?_natural n stop, alone]
    rfl
  | decimal negative d =>
    obtain ⟨e, -, read⟩ := exists_readNumeral?_decimal negative d
    have alone := read [] endsNumeral_nil
    rw [List.append_nil] at alone
    rw [Numeral.reread, read rest stop, alone]
    rfl

end Json

theorem Numeral.reread_natural (n : Nat) : (natural n).reread = natural n := by
  have alone := Json.readNumeral?_natural n Json.endsNumeral_nil
  rw [List.append_nil] at alone
  rw [Numeral.reread, Json.numeralChars, alone]
  rfl

/-- **A number that is read again has the same nearest double.** -/
theorem Numeral.toFloat?_reread (n : Numeral) : n.reread.toFloat? = n.toFloat? := by
  cases n with
  | natural n => rw [reread_natural]
  | decimal negative d =>
    obtain ⟨e, same, read⟩ := Json.exists_readNumeral?_decimal negative d
    have alone := read [] Json.endsNumeral_nil
    rw [List.append_nil] at alone
    rw [Numeral.reread, alone]
    show finiteDouble? negative e.pattern = finiteDouble? negative d.pattern
    rw [same]

namespace Json

/-! ### Texts -/

theorem hexUnit?_of_readString {a b c d : Char} {tail : List Char}
    {read : Option (List Char) × List Char}
    (ok : readString ('\\' :: 'u' :: a :: b :: c :: d :: tail) = some read) :
    ∃ n, hexUnit? a b c d = some n := by
  cases unit : hexUnit? a b c d with
  | some n => exact ⟨n, rfl⟩
  | none =>
    by_cases next : ∃ a' b' c' d' cs, tail = '\\' :: 'u' :: a' :: b' :: c' :: d' :: cs
    · obtain ⟨a', b', c', d', cs, rfl⟩ := next
      rw [readString, unit] at ok
      cases ok
    · rw [readString, unit] at ok
      · cases ok
      · intro a' b' c' d' cs same
        exact next ⟨a', b', c', d', cs, same⟩

theorem hexUnit?_control : ∀ n < 32, ∃ a b c d,
    List.replicate (4 - (Nat.toDigits 16 n).length) '0' ++ Nat.toDigits 16 n = [a, b, c, d] ∧
      hexUnit? a b c d = some n := by
  have all : ∀ n < 32, (List.replicate (4 - (Nat.toDigits 16 n).length) '0' ++ Nat.toDigits 16 n) =
      ['0', '0', Nat.digitChar (n / 16), Nat.digitChar (n % 16)] ∧
      hexUnit? '0' '0' (Nat.digitChar (n / 16)) (Nat.digitChar (n % 16)) = some n := by decide +kernel
  exact fun n small => ⟨_, _, _, _, all n small⟩

theorem readString_plain {c : Char} (quote : c ≠ '"') (backslash : c ≠ '\\') (shown : ¬ c.toNat < 32)
    {tail : List Char} {read : Option (List Char) × List Char} (ok : readString tail = some read) :
    readString (c :: tail) = some (prepend (some c) read) := by
  rw [readString]
  · simp [backslash, shown, ok]
  all_goals simp [quote, backslash]

theorem readString_escaped {c e : Char} (known : escaped? c = some e) (notUnit : c ≠ 'u')
    {tail : List Char} {read : Option (List Char) × List Char} (ok : readString tail = some read) :
    readString ('\\' :: c :: tail) = some (prepend (some e) read) := by
  rw [readString]
  · simp [known, ok]
  all_goals simp [notUnit]

/-- A character that is written by its number is read, whether or not another one follows that is. -/
theorem readString_unit {a b c d : Char} {n : Nat} (unit : hexUnit? a b c d = some n)
    (whole : isFirstHalf n = false) {tail : List Char} {read : Option (List Char) × List Char}
    (ok : readString tail = some read) :
    readString ('\\' :: 'u' :: a :: b :: c :: d :: tail) =
      some (prepend (wholeCharacter? n) read) := by
  by_cases next : ∃ a' b' c' d' cs, tail = '\\' :: 'u' :: a' :: b' :: c' :: d' :: cs
  · obtain ⟨a', b', c', d', cs, rfl⟩ := next
    obtain ⟨m, second⟩ := hexUnit?_of_readString ok
    rw [readString]
    simp [unit, second, whole, ok]
  · rw [readString]
    · simp [unit, ok]
    · intro a' b' c' d' cs same
      exact next ⟨a', b', c', d', cs, same⟩

/-- **A character of a text is read.** -/
theorem readString_escapedChar (c : Char) {tail : List Char}
    {read : Option (List Char) × List Char} (ok : readString tail = some read) :
    readString (escapedChar c ++ tail) = some (prepend (some c) read) := by
  rw [escapedChar]
  split_ifs with special newline ret tab back feed control
  · refine readString_escaped ?_ ?_ ok
    · rw [escaped?, special]
      rfl
    · rintro rfl
      exact absurd special (by decide)
  · rw [beq_iff_eq.mp newline]
    exact readString_escaped rfl (by decide) ok
  · rw [beq_iff_eq.mp ret]
    exact readString_escaped rfl (by decide) ok
  · rw [beq_iff_eq.mp tab]
    exact readString_escaped rfl (by decide) ok
  · rw [← Char.ofNat_toNat c, beq_iff_eq.mp back]
    exact readString_escaped rfl (by decide) ok
  · rw [← Char.ofNat_toNat c, beq_iff_eq.mp feed]
    exact readString_escaped rfl (by decide) ok
  · obtain ⟨x, y, z, w, digits, unit⟩ := hexUnit?_control c.toNat control
    have first : isFirstHalf c.toNat = false := by
      rw [isFirstHalf, decide_eq_false (by omega), Bool.false_and]
    have second : isSecondHalf c.toNat = false := by
      rw [isSecondHalf, decide_eq_false (by omega), Bool.false_and]
    have whole : wholeCharacter? c.toNat = some c := by
      rw [wholeCharacter?, first, second, Char.ofNat_toNat]
      rfl
    rw [← whole, ← readString_unit unit first ok]
    dsimp only
    rw [List.cons_append, List.cons_append, List.cons_append, digits]
    rfl
  · rw [Bool.or_eq_true, not_or, beq_iff_eq, beq_iff_eq] at special
    exact readString_plain special.1 special.2 control ok

/-- **A text in quotes is read.** -/
theorem readString_quoted (s : String) (rest : List Char) :
    readString (s.toList.flatMap escapedChar ++ '"' :: rest) = some (some s.toList, rest) := by
  induction s.toList with
  | nil => rfl
  | cons c cs ih =>
    rw [List.flatMap_cons, List.append_assoc, readString_escapedChar c ih]
    rfl

end Json

end Spreadsheet
