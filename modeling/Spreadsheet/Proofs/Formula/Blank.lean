import Spreadsheet.Proofs.Formula.Literal
import Spreadsheet.Proofs.Grid.Writing

/-!
# Formulas without content

Quotes do not count as content.  A formula that can be stored and has no content is empty, or it is the
empty text.

* `isEmptyText_of_isValid`: among the formulas that can be read there are no others.
* `replaceMentions_of_isQuotes`: replacing references leaves no formula without content that had some.
* `inherited_isEmptyText`: edits hand this down.
-/

namespace Spreadsheet.Formula

def IsEmptyText (formula : String) : Prop := formula = "" ∨ formula = "\"\""

theorem evaluate_of_isEmptyText {formula : String} (h : IsEmptyText formula) (view : CellView)
    (origin : CellId) : evaluate view origin formula = .text "" := by
  rcases h with rfl | rfl
  · exact Grid.evaluate_empty view origin
  · have parsed : parse "\"\"" = .ok (.text "") := by
      rw [parse, show tokens "\"\"" = .ok [.text ""] from tokens_quote ""]
      rfl
    rw [evaluate, parsed]
    simp [Expr.eval]

theorem mentions_of_isEmptyText {formula : String} (h : IsEmptyText formula) :
    mentions formula = [] := by
  rcases h with rfl | rfl
  · exact Grid.mentions_empty
  · exact mentions_quote ""

def IsQuotes (cs : List Char) : Prop := ∀ c ∈ cs, c = '"'

theorem isEmptyText_of_no_quotes {formula : String} (h : ∀ c ∈ formula.toList, c ≠ '"')
    (quotes : IsQuotes formula.toList) : IsEmptyText formula := by
  refine Or.inl (String.toList_eq_nil_iff.mp (List.eq_nil_iff_forall_not_mem.mpr ?_))
  exact fun c hc => h c hc (quotes c hc)

/-! ### Formulas that can be read -/

theorem Lexed.mention?_of_quote {due : Bool} {cs : List Char} {t : Token} {n : Nat}
    (h : Lexed due '"' cs t n) : t.mention? = none := by
  cases h with
  | leftParen | rightParen | comma | text | operator => rfl
  | quoted same => exact absurd same (by decide)
  | negative same => exact absurd same (by decide)
  | function begins => exact absurd begins (by decide)
  | word begins => exact absurd begins (by decide)

theorem Pieced.of_isQuotes {due : Bool} {cs : List Char} {ps : List Piece}
    (h : Pieced due cs ps) (quotes : IsQuotes cs) :
    cs = [] ∨ ∃ cs' ps', cs = '"' :: '"' :: cs' ∧ Pieced false cs' ps' ∧
      ps.filterMap Piece.token? = .text "" :: ps'.filterMap Piece.token? := by
  cases h with
  | nil => exact Or.inl rfl
  | @blank _ c _ _ blank =>
    rw [quotes c List.mem_cons_self] at blank
    exact absurd blank (by decide)
  | @token _ c cs t n ps _ lexed rest =>
    have same : c = '"' := quotes c List.mem_cons_self
    subst same
    cases lexed with
    | text _ read =>
      cases cs with
      | nil => exact absurd read nofun
      | cons d cs =>
        have same : d = '"' := quotes d (by simp)
        subst same
        cases read
        exact Or.inr ⟨cs, ps, rfl, rest, rfl⟩
    | leftParen same | rightParen same | comma same | quoted same | negative same =>
      exact absurd same (by decide)
    | operator _ first => exact absurd first (by decide)
    | function begins | word begins => exact absurd begins (by decide)

theorem isEmptyText_of_isValid {formula : String} (valid : isValid formula = true)
    (quotes : IsQuotes formula.toList) : IsEmptyText formula := by
  obtain ⟨ps, e, ok, read⟩ := pieces_of_isValid valid
  have arranged := arranged_of_ofTokens read
  rcases (pieces_eq_ok_iff.mp ok).of_isQuotes quotes with empty | ⟨cs, ps', whole, rest, listed⟩
  · exact Or.inl (String.toList_eq_nil_iff.mp empty)
  · rw [listed] at arranged
    rw [whole] at quotes
    rcases rest.of_isQuotes fun c hc => quotes c (by simp [hc]) with rfl | ⟨_, _, -, -, next⟩
    · exact Or.inr (String.toList_inj.mp whole)
    · -- two texts cannot stand side by side
      rw [next] at arranged
      exact absurd (arranged.2.1.complete _ rfl (Or.inl rfl)) nofun

/-! ### Replaced references -/

theorem Mention.not_isQuotes_text (m : Mention) : ¬ IsQuotes m.text.toList := by
  obtain ⟨c, hc, digit⟩ := m.exists_digit_coordinates
  intro quotes
  rw [m.toList_text] at quotes
  rw [quotes c (List.mem_append_right _ hc)] at digit
  exact absurd digit (by decide)

/-- What comes to stand for the pieces of a text has content if there is a reference among them. -/
theorem Pieced.mention?_of_quotes {due : Bool} {cs : List Char} {ps : List Piece}
    (h : Pieced due cs ps) {replace : Mention → Option Mention}
    (quotes : IsQuotes (ps.flatMap (Piece.replaced fun m => (replace m).map Mention.text))) :
    ps.filterMap Piece.mention? = [] := by
  induction h with
  | nil => rfl
  | blank _ _ ih => exact ih fun c hc => quotes c (List.mem_cons_of_mem _ hc)
  | @token _ c cs t n ps _ lexed _ ih =>
    rw [List.flatMap_cons] at quotes
    rw [List.filterMap_cons, ih fun c hc => quotes c (List.mem_append_right _ hc)]
    have first := fun c hc => quotes c (List.mem_append_left _ hc)
    cases isMention : t.mention? with
    | none => rw [Piece.mention?, isMention]; rfl
    | some m =>
      rw [Piece.replaced, Piece.mention?, isMention] at first
      dsimp only [Option.map_some] at first
      cases replaced : replace m with
      | none =>
        rw [replaced] at first
        rw [first c List.mem_cons_self] at lexed
        cases isMention.symm.trans lexed.mention?_of_quote
      | some new =>
        rw [replaced] at first
        exact absurd first new.not_isQuotes_text

/-- A text without content is left when references are replaced only if there are none. -/
theorem replaceMentions_of_isQuotes {formula : String} {replace : Mention → Option Mention}
    (quotes : IsQuotes (replaceMentions (fun m => (replace m).map Mention.text) formula).toList) :
    replaceMentions (fun m => (replace m).map Mention.text) formula = formula := by
  refine replaceMentions_of_mentions_eq_nil ?_ _
  cases ok : pieces formula with
  | error e =>
    rw [mentions, piecesOrNone, ok]
    rfl
  | ok ps =>
    rw [replaceMentions, ok, String.toList_ofList] at quotes
    rw [mentions_of_pieces ok]
    exact (pieces_eq_ok_iff.mp ok).mention?_of_quotes quotes

/-! ### Literals -/

theorem isEmptyText_quote {text : String} (quotes : IsQuotes (Text.quote text).toList) :
    IsEmptyText (Text.quote text) := by
  rw [Text.quote, String.toList_ofList] at quotes
  cases cs : text.toList with
  | nil =>
    rw [Text.quote, cs]
    exact Or.inr rfl
  | cons c rest =>
    -- a quote in a text has a backslash in front of it
    rw [cs, Text.escape] at quotes
    split at quotes
    · exact absurd (quotes '\\' (by simp)) (by decide)
    · rename_i plain
      exact absurd (quotes c (by simp)) (by simp_all)

theorem isEmptyText_of_isNumeric {formula : String}
    (numeric : ∀ c ∈ formula.toList, isNumeric c = true) (quotes : IsQuotes formula.toList) :
    IsEmptyText formula := by
  refine isEmptyText_of_no_quotes ?_ quotes
  rintro _ hc rfl
  exact absurd (numeric _ hc) (by decide)

theorem isEmptyText_literal {v : CellValue} (quotes : IsQuotes v.literal.toList) :
    IsEmptyText v.literal := by
  cases v with
  | pending f => exact Or.inl rfl
  | text s | status s => exact isEmptyText_quote quotes
  | bool b => cases b <;> exact isEmptyText_of_no_quotes (by simp [CellValue.literal, boolText]) quotes
  | number x =>
    rcases text_number_cases x with named | numeric
    · have content : ∀ text ∈ ["NaN", "-Inf", "+Inf"], ∀ c ∈ text.toList, c ≠ '"' := by simp
      exact isEmptyText_of_no_quotes (content _ named) quotes
    · exact isEmptyText_of_isNumeric numeric quotes

theorem inherited_isEmptyText : Inherited fun f => IsQuotes f.toList → IsEmptyText f where
  empty _ := Or.inl rfl
  quote _ := isEmptyText_quote
  number _ literal := isEmptyText_of_isNumeric (isNumeric_of_isNumberLiteral literal)
  typed _ := isEmptyText_of_isValid
  literal _ := isEmptyText_literal
  relocate source target directory formula h quotes := by
    rw [relocate_eq] at quotes ⊢
    have same := replaceMentions_of_isQuotes quotes
    rw [same] at quotes ⊢
    exact h quotes
  retarget home newHome cut directory formula h quotes := by
    rw [retarget_eq] at quotes ⊢
    have same := replaceMentions_of_isQuotes quotes
    rw [same] at quotes ⊢
    exact h quotes

end Spreadsheet.Formula
