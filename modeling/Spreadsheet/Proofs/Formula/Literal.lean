import Spreadsheet.Grid.Input
import Spreadsheet.Proofs.Formula.Retargeting

/-!
# Literals have no references

* `mentions_eq_nil_of_numeric`: a text of digits, points and minus signs has no references.
* `mentions_literal`: neither has the literal of any value.
-/

namespace Spreadsheet

def isNumeric (c : Char) : Bool := c.isDigit || c == '.' || c == '-'

namespace Formula

theorem Lexed.mention?_of_isNumeric {due : Bool} {c : Char} {cs : List Char} {t : Token} {n : Nat}
    (h : Lexed due c cs t n) (numeric : isNumeric c = true) : t.mention? = none := by
  cases h with
  | leftParen | rightParen | comma | text | operator => rfl
  | quoted same =>
    rw [same] at numeric
    exact absurd numeric (by decide)
  | negative _ _ _ read =>
    obtain ⟨x, rfl⟩ := number_of_numberToken read
    rfl
  | function _ _ read =>
    obtain ⟨name, rfl⟩ := function_of_functionToken read
    rfl
  | word begins _ read =>
    have first : beginsNumber c = true := by
      simp only [isNumeric, Bool.or_eq_true, beq_iff_eq] at numeric
      rcases numeric with (digit | rfl) | rfl
      · simp [beginsNumber, digit]
      · decide
      · exact absurd begins (by decide)
    rw [wordToken, if_pos (by simp [first])] at read
    obtain ⟨x, rfl⟩ := number_of_numberToken read
    rfl

/-- **A text of digits, points and minus signs has no references.** -/
theorem mentions_eq_nil_of_numeric {formula : String}
    (h : ∀ c ∈ formula.toList, isNumeric c = true) : mentions formula = [] := by
  have all : ∀ {due : Bool} {cs : List Char} {ps : List Piece}, Pieced due cs ps →
      (∀ c ∈ cs, isNumeric c = true) → ps.filterMap Piece.mention? = [] := by
    intro due cs ps pieced
    induction pieced with
    | nil => exact fun _ => rfl
    | blank _ _ ih => exact fun h => ih fun c hc => h c (List.mem_cons_of_mem _ hc)
    | @token _ c cs t n ps _ lexed _ ih =>
      intro h
      have none : (Piece.token t (c :: cs.take n)).mention? = none := by
        rw [Piece.mention?, lexed.mention?_of_isNumeric (h c List.mem_cons_self)]
        rfl
      rw [List.filterMap_cons, none]
      exact ih fun d hd => h d (List.mem_cons_of_mem _ (List.mem_of_mem_drop hd))
  rw [mentions, piecesOrNone]
  cases ok : pieces formula with
  | error e => rfl
  | ok ps => exact all (pieces_eq_ok_iff.mp ok) h

end Formula

/-! ### Numbers -/

theorem isNumeric_of_isDigit {c : Char} (h : c.isDigit = true) : isNumeric c = true := by
  simp [isNumeric, h]

theorem isNumeric_of_parts {cs : List Char}
    (whole : (cs.takeWhile (· != '.')).all Char.isDigit = true)
    (fraction : ∀ c ds, cs.dropWhile (· != '.') = c :: ds → ds.all Char.isDigit = true) :
    ∀ c ∈ cs, isNumeric c = true := by
  intro c hc
  rw [← List.takeWhile_append_dropWhile (p := (· != '.')) (l := cs)] at hc
  rcases List.mem_append.mp hc with hc | hc
  · exact isNumeric_of_isDigit (List.all_eq_true.mp whole c hc)
  · have point := List.head?_dropWhile_not (· != '.') cs
    cases rest : cs.dropWhile (· != '.') with
    | nil =>
      rw [rest] at hc
      exact absurd hc nofun
    | cons d ds =>
      rw [rest] at hc point
      rcases List.mem_cons.mp hc with rfl | hc
      · simp at point
        rw [point]
        decide
      · exact isNumeric_of_isDigit (List.all_eq_true.mp (fraction d ds rest) c hc)

theorem isNumeric_of_unsigned {ds : List Char} (h : (!(ds.takeWhile (· != '.')).isEmpty &&
    (ds.takeWhile (· != '.')).all Char.isDigit &&
      match ds.dropWhile (· != '.') with
      | [] => true
      | _ :: fraction => !fraction.isEmpty && fraction.all Char.isDigit) = true) :
    ∀ c ∈ ds, isNumeric c = true := by
  rw [Bool.and_eq_true, Bool.and_eq_true] at h
  refine isNumeric_of_parts h.1.2 fun c fraction rest => ?_
  have last := h.2
  rw [rest] at last
  exact (Bool.and_eq_true _ _ ▸ last).2

theorem isNumeric_of_isNumberLiteral {cs : List Char} (h : isNumberLiteral cs = true) :
    ∀ c ∈ cs, isNumeric c = true := by
  by_cases signed : ∃ ds, cs = '-' :: ds
  · obtain ⟨ds, rfl⟩ := signed
    intro c hc
    rcases List.mem_cons.mp hc with rfl | hc
    · decide
    · exact isNumeric_of_unsigned h c hc
  · refine isNumeric_of_unsigned ?_
    rw [isNumberLiteral.eq_def] at h
    split at h
    · exact absurd ⟨_, rfl⟩ signed
    · exact h

theorem isNumeric_of_mem_decimal (d : Number.Decimal) : ∀ c ∈ d.chars, isNumeric c = true := by
  have digits : ∀ c ∈ Nat.toDigits 10 d.coefficient, isNumeric c = true := fun c hc =>
    isNumeric_of_isDigit (Nat.isDigit_of_mem_toDigits (by decide) (by decide) hc)
  have zeros : ∀ n, ∀ c ∈ List.replicate n '0', isNumeric c = true := by
    intro n c hc
    rw [(List.mem_replicate.mp hc).2]
    decide
  have padded : ∀ n, ∀ c ∈ List.replicate n '0' ++ Nat.toDigits 10 d.coefficient,
      isNumeric c = true := by
    intro n c hc
    rcases List.mem_append.mp hc with hc | hc
    · exact zeros n c hc
    · exact digits c hc
  have trimmed : ∀ cs : List Char, ∀ c ∈ Number.dropTrailingZeros cs, c ∈ cs := by
    intro cs c hc
    rw [Number.dropTrailingZeros, List.mem_reverse] at hc
    exact List.mem_reverse.mp ((List.dropWhile_sublist _).subset hc)
  intro c hc
  rw [Number.Decimal.chars] at hc
  dsimp only at hc
  split at hc
  · split at hc
    · rw [List.mem_singleton.mp hc]
      decide
    · rcases List.mem_append.mp hc with hc | hc
      · exact digits c hc
      · exact zeros _ c hc
  · split at hc
    · exact padded _ c (List.mem_of_mem_take hc)
    · rcases List.mem_append.mp hc with hc | hc
      · exact padded _ c (List.mem_of_mem_take hc)
      · rcases List.mem_cons.mp hc with rfl | hc
        · decide
        · exact padded _ c (List.mem_of_mem_drop (trimmed _ c hc))

/-- The text of a number is one of three names, or it has digits, points and minus signs only. -/
theorem text_number_cases (x : Float) :
    Number.text x ∈ ["NaN", "-Inf", "+Inf"] ∨ ∀ c ∈ (Number.text x).toList, isNumeric c = true := by
  rw [Number.text, Number.chars]
  dsimp only
  split
  · exact Or.inl (by decide +kernel)
  · split
    · split <;> exact Or.inl (by decide +kernel)
    · refine Or.inr fun c hc => ?_
      rw [String.toList_ofList] at hc
      split at hc
      · rcases List.mem_cons.mp hc with rfl | hc
        · decide
        · exact isNumeric_of_mem_decimal _ c hc
      · exact isNumeric_of_mem_decimal _ c hc

/-- **The literal of a value has no references.** -/
theorem mentions_literal (v : CellValue) : Formula.mentions v.literal = [] := by
  cases v with
  | pending f =>
    show Formula.mentions "" = []
    decide +kernel
  | text s => exact Formula.mentions_quote s
  | status s => exact Formula.mentions_quote s
  | bool b => cases b <;> decide +kernel
  | number x =>
    rcases text_number_cases x with named | numeric
    · have none : ∀ text ∈ ["NaN", "-Inf", "+Inf"], Formula.mentions text = [] := by decide +kernel
      exact none _ named
    · exact Formula.mentions_eq_nil_of_numeric numeric

end Spreadsheet
