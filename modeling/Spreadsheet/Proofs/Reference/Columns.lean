import Mathlib.Data.Nat.Digits.Defs
import Spreadsheet.Proofs.Reference.Spelling

/-!
# Columns and their letters

Letters are digits from 1 to 26 in base 26.  Columns are written from the last letter to the first and
read from the first to the last, and the two undo each other as long as the column fits 64 bits.

* `appendLetter_eq_bind`: what is checked when a letter is read.
* `columnValue_eq_ofDigits`: the column that letters stand for, as the value of digits.
* `columnOfLetters?_eq_none_iff`: which letters are refused.
* `columnOfLetters_inverse_and_none_iff`: columns and letters are in bijection.
-/

namespace Spreadsheet

/-- The number, if it fits 64 bits. -/
def fitting (n : Nat) : Option Nat := if n < coordinateLimit then some n else none

/-- A letter is read with two checks, one after the multiplication and one after the addition. -/
theorem appendLetter_eq_bind (column : Nat) (c : Char) :
    appendLetter column c =
      if c.isAlpha then (fitting (column * 26)).bind fun shifted => fitting (shifted + letterValue c)
      else none := by
  rw [appendLetter]
  by_cases alpha : c.isAlpha = true
  · by_cases product : column * 26 < coordinateLimit
    · simp [alpha, fitting, product]
    · have sum : ¬ column * 26 + letterValue c < coordinateLimit := by omega
      simp [alpha, fitting, product, sum]
  · simp [alpha]

/-! ### The value of letters -/

theorem columnValue_eq_ofDigits (letters : List Char) :
    columnValue letters = Nat.ofDigits 26 (letters.reverse.map letterValue) := by
  induction letters using List.reverseRecOn with
  | nil => rfl
  | append_singleton letters c ih =>
    rw [columnValue_concat, List.reverse_append, List.reverse_singleton, List.singleton_append,
      List.map_cons, Nat.ofDigits_cons, ← ih]
    omega

theorem columnValue_le_append (front rest : List Char) :
    columnValue front ≤ columnValue (front ++ rest) := by
  induction rest using List.reverseRecOn with
  | nil => rw [List.append_nil]
  | append_singleton rest c ih =>
    rw [← List.append_assoc, columnValue_concat]
    omega

theorem columnValue_columnLetters {column : Nat} (positive : 0 < column)
    (fits : column < coordinateLimit) : columnValue (columnLetters column) = column := by
  have read := columnOfLetters?_columnLetters positive
  rw [if_pos fits] at read
  exact ((columnOfLetters?_eq_some_iff (isAlpha_of_mem_columnLetters column)).mp read).1

/-! ### What is refused -/

theorem isAlpha_of_columnOfLetters? {cs : List Char} {column : Nat}
    (h : columnOfLetters? cs = some column) : ∀ c ∈ cs, c.isAlpha = true := by
  have all : ∀ (cs : List Char) (before : Nat), cs.foldlM appendLetter before = some column →
      ∀ c ∈ cs, c.isAlpha = true := by
    intro cs
    induction cs with
    | nil => exact fun _ _ _ none => absurd none List.not_mem_nil
    | cons d ds ih =>
      intro before h c hc
      rw [List.foldlM_cons] at h
      obtain ⟨next, first, rest⟩ := Option.bind_eq_some_iff.mp h
      rcases List.mem_cons.mp hc with rfl | hc
      · rw [appendLetter, Option.ite_none_right_eq_some, Bool.and_eq_true] at first
        exact first.1.1
      · exact ih next rest c hc
  rw [columnOfLetters?] at h
  split at h
  · cases h
  · exact all cs 0 h

/-- **Nothing is read** from no letters, from other characters, and from letters whose column does not
fit. -/
theorem columnOfLetters?_eq_none_iff (cs : List Char) :
    columnOfLetters? cs = none ↔ cs = [] ∨ (∃ c ∈ cs, c.isAlpha = false) ∨
      (∀ c ∈ cs, c.isAlpha = true) ∧ coordinateLimit ≤ columnValue cs := by
  by_cases alpha : ∀ c ∈ cs, c.isAlpha = true
  · have noOther : ¬ ∃ c ∈ cs, c.isAlpha = false := by
      rintro ⟨c, hc, other⟩
      exact Bool.false_ne_true (other.symm.trans (alpha c hc))
    have read : columnOfLetters? cs ≠ none ↔ cs ≠ [] ∧ columnValue cs < coordinateLimit := by
      rw [Option.ne_none_iff_exists']
      constructor
      · rintro ⟨column, h⟩
        obtain ⟨rfl, positive, fits⟩ := (columnOfLetters?_eq_some_iff alpha).mp h
        exact ⟨columnValue_pos_iff.mp positive, fits⟩
      · rintro ⟨letters, fits⟩
        exact ⟨_, (columnOfLetters?_eq_some_iff alpha).mpr ⟨rfl, columnValue_pos_iff.mpr letters, fits⟩⟩
    rw [or_iff_right noOther, and_iff_right alpha, ← not_iff_not, ← Ne, read, not_or, not_le]
  · have other : ∃ c ∈ cs, c.isAlpha = false := by
      simpa using alpha
    refine iff_of_true ?_ (Or.inr (Or.inl other))
    rw [Option.eq_none_iff_forall_ne_some]
    exact fun column h => alpha (isAlpha_of_columnOfLetters? h)

/-- **Columns and letters are in bijection.**  Every column from 1 on that fits is read from its letters,
and on the way no product and no sum is larger than the column itself.  Whatever is read as a column is
at least 1, and its letters are those of the column but for their case.  Only empty texts, texts with
other characters, and letters whose value in base 26 does not fit are refused. -/
theorem columnOfLetters_inverse_and_none_iff :
    (∀ column, 1 ≤ column → column < coordinateLimit →
      columnOfLetters? (columnLetters column) = some column ∧
        ∀ front c rest, columnLetters column = front ++ c :: rest →
          ∃ before, front.foldlM appendLetter 0 = some before ∧ before * 26 + letterValue c ≤ column) ∧
      (∀ (cs : List Char) (column : Nat), columnOfLetters? cs = some column →
        1 ≤ column ∧ columnLetters column = Text.capitals cs) ∧
      ∀ cs : List Char, columnOfLetters? cs = none ↔
        cs = [] ∨ (∃ c ∈ cs, c.isAlpha = false) ∨
          (∀ c ∈ cs, c.isAlpha = true) ∧
            coordinateLimit ≤ Nat.ofDigits 26 (cs.reverse.map letterValue) := by
  refine ⟨?_, ?_, ?_⟩
  · intro column positive fits
    refine ⟨(columnOfLetters?_columnLetters positive).trans (if_pos fits), ?_⟩
    intro front c rest split
    have value := columnValue_columnLetters positive fits
    have alpha := isAlpha_of_mem_columnLetters column
    rw [split] at value alpha
    have sum : columnValue front * 26 + letterValue c ≤ column := by
      rw [List.append_cons] at value
      rw [← columnValue_concat, ← value]
      exact columnValue_le_append (front ++ [c]) rest
    refine ⟨columnValue front, ?_, sum⟩
    rw [foldlM_appendLetter fun d hd => alpha d (List.mem_append_left _ hd), if_pos (by omega)]
  · intro cs column h
    obtain ⟨rfl, positive, -⟩ :=
      (columnOfLetters?_eq_some_iff (isAlpha_of_columnOfLetters? h)).mp h
    exact ⟨positive, columnLetters_columnValue (isAlpha_of_columnOfLetters? h)⟩
  · intro cs
    rw [columnOfLetters?_eq_none_iff, columnValue_eq_ofDigits]

/-- The last column, from its letters and back, and the letters after them, which do not fit. -/
theorem columnOfLetters_inverse_and_none_iff_last :
    columnOfLetters? "gKgwBylwrxTLPO".toList = some 18446744073709551615 ∧
      columnLetters 18446744073709551615 = "GKGWBYLWRXTLPO".toList ∧
      columnOfLetters? (columnLetters 18446744073709551615) = some 18446744073709551615 ∧
      columnOfLetters? "GKGWBYLWRXTLPP".toList = none := by
  have read : columnOfLetters? "gKgwBylwrxTLPO".toList = some 18446744073709551615 := by decide
  have letters := (columnOfLetters_inverse_and_none_iff.2.1 _ _ read).2
  have back := (columnOfLetters_inverse_and_none_iff.1 18446744073709551615 (by decide) (by decide)).1
  have alpha : ∀ c ∈ "GKGWBYLWRXTLPP".toList, c.isAlpha = true := List.all_eq_true.mp (by decide)
  have refused := (columnOfLetters_inverse_and_none_iff.2.2 "GKGWBYLWRXTLPP".toList).mpr
    (Or.inr (Or.inr ⟨alpha, by decide⟩))
  exact ⟨read, letters.trans (by decide), back, refused⟩

end Spreadsheet
