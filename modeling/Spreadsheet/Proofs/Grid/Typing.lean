import Spreadsheet.Proofs.Formula.Dependence
import Spreadsheet.Proofs.Grid.Batches
import Spreadsheet.Proofs.Grid.Literals
import Spreadsheet.Proofs.Grid.Preservation

/-!
# What is typed

A text that is no formula is stored as one: as itself if it has the form of a number, and in quotes
otherwise.  A pass reads the formula and gives the text back, or the number that it denotes.

* `Formula.Numeral.IsComplete`: a numeral with digits in front of its point and behind it.
* `isNumberLiteral_iff`: the texts that are taken for numbers are these numerals.
* `Denotes t v`: what a text says that is no formula.
* `Formula.IsConstant f v`: a formula that has one value everywhere.
* `Grid.typed_ofHistory`: cells hold what is typed into them or imported.
-/

namespace Spreadsheet

open Formula

/-! ### Numbers -/

def Formula.Numeral.IsComplete (n : Formula.Numeral) : Prop := n.whole ≠ [] ∧ n.fraction ≠ some []

namespace Formula.Numeral

variable {n : Formula.Numeral}

theorem span_point (n : Formula.Numeral) :
    n.magnitude.takeWhile (· != '.') = n.whole ∧
      n.magnitude.dropWhile (· != '.') = n.fraction.elim [] ('.' :: ·) := by
  have inner : ∀ c ∈ n.whole, (c != '.') = true := by
    intro c hc
    have digit := n.isDigit_of_mem_whole hc
    rw [bne_iff_ne]
    rintro rfl
    exact absurd digit (by decide)
  rw [magnitude, List.takeWhile_append_of_pos inner, List.dropWhile_append_of_pos inner]
  cases n.fraction with
  | none => exact ⟨List.append_nil _, rfl⟩
  | some ds => exact ⟨List.append_nil _, rfl⟩

end Formula.Numeral

/-- Is the text a row of digits, with another one behind a point if there is a point? -/
def isUnsignedLiteral (cs : List Char) : Bool :=
  let whole := cs.takeWhile (· != '.')
  !whole.isEmpty && whole.all Char.isDigit &&
    match cs.dropWhile (· != '.') with
    | [] => true
    | _ :: fraction => !fraction.isEmpty && fraction.all Char.isDigit

theorem isNumberLiteral_minus (cs : List Char) :
    isNumberLiteral ('-' :: cs) = isUnsignedLiteral cs := rfl

theorem isNumberLiteral_of_ne {cs : List Char} (other : ∀ ds, cs ≠ '-' :: ds) :
    isNumberLiteral cs = isUnsignedLiteral cs := by
  rw [isNumberLiteral]
  · rfl
  · exact other

theorem exists_numeral_of_isUnsignedLiteral (negative : Bool) {cs : List Char}
    (form : isUnsignedLiteral cs = true) :
    ∃ n : Formula.Numeral, n.IsComplete ∧ n.negative = negative ∧ n.magnitude = cs := by
  rw [isUnsignedLiteral] at form
  rw [Bool.and_eq_true, Bool.and_eq_true, Bool.not_eq_true', List.isEmpty_eq_false_iff,
    List.all_eq_true] at form
  obtain ⟨⟨front, digits⟩, behind⟩ := form
  have parts := List.takeWhile_append_dropWhile (p := (· != '.')) (l := cs)
  generalize cs.takeWhile (· != '.') = whole at *
  cases rest : cs.dropWhile (· != '.') with
  | nil =>
    rw [rest, List.append_nil] at parts
    refine ⟨⟨negative, whole, none, ?_, ?_, fun _ => front⟩, ⟨front, nofun⟩, rfl, ?_⟩
    · simpa using digits
    · simpa using front
    · simpa [Formula.Numeral.magnitude] using parts
  | cons c fraction =>
    have point : c = '.' := by
      have first := List.head?_dropWhile_not (p := (· != '.')) cs
      simpa [rest] using first
    rw [rest, point] at parts
    rw [rest, Bool.and_eq_true, Bool.not_eq_true', List.isEmpty_eq_false_iff,
      List.all_eq_true] at behind
    refine ⟨⟨negative, whole, some fraction, ?_, ?_, fun _ => front⟩, ⟨front, ?_⟩, rfl, ?_⟩
    · exact List.forall_mem_append.mpr ⟨digits, behind.2⟩
    · exact List.append_ne_nil_of_left_ne_nil front _
    · simpa using behind.1
    · simpa [Formula.Numeral.magnitude] using parts

theorem isUnsignedLiteral_magnitude {n : Formula.Numeral} (complete : n.IsComplete) :
    isUnsignedLiteral n.magnitude = true := by
  obtain ⟨front, behind⟩ := complete
  obtain ⟨whole, rest⟩ := n.span_point
  rw [isUnsignedLiteral, whole, rest, Bool.and_eq_true, Bool.and_eq_true, Bool.not_eq_true',
    List.isEmpty_eq_false_iff, List.all_eq_true]
  refine ⟨⟨front, fun c hc => n.isDigit_of_mem_whole hc⟩, ?_⟩
  cases fraction : n.fraction with
  | none => rfl
  | some ds =>
    rw [fraction] at behind
    have digits := n.digits
    rw [fraction] at digits
    rw [Option.elim_some, Bool.and_eq_true, Bool.not_eq_true', List.isEmpty_eq_false_iff,
      List.all_eq_true]
    exact ⟨fun none => behind (congrArg some none),
      fun c hc => digits c (List.mem_append_right _ hc)⟩

/-- **The texts that are taken for numbers** are the numerals with digits on both sides of the point. -/
theorem isNumberLiteral_iff (cs : List Char) :
    isNumberLiteral cs = true ↔ ∃ n : Formula.Numeral, n.IsComplete ∧ n.chars = cs := by
  constructor
  · intro form
    by_cases minus : ∃ ds, cs = '-' :: ds
    · obtain ⟨ds, rfl⟩ := minus
      rw [isNumberLiteral_minus] at form
      obtain ⟨n, complete, negative, rfl⟩ := exists_numeral_of_isUnsignedLiteral true form
      exact ⟨n, complete, by rw [Formula.Numeral.chars, if_pos negative]⟩
    · rw [isNumberLiteral_of_ne (not_exists.mp minus)] at form
      obtain ⟨n, complete, negative, rfl⟩ := exists_numeral_of_isUnsignedLiteral false form
      have plus : ¬ n.negative = true := Bool.eq_false_iff.mp negative
      exact ⟨n, complete, by rw [Formula.Numeral.chars, if_neg plus]⟩
  · rintro ⟨n, complete, rfl⟩
    have form := isUnsignedLiteral_magnitude complete
    rw [Formula.Numeral.chars]
    split
    · rw [isNumberLiteral_minus, form]
    · refine (isNumberLiteral_of_ne fun ds minus => ?_).trans form
      have digit : ∀ c ∈ n.magnitude.head?, c.isDigit = true := by
        intro c first
        refine n.isDigit_of_mem_whole (List.mem_of_mem_head? ?_)
        rw [Formula.Numeral.magnitude, List.head?_append_of_ne_nil _ complete.1] at first
        exact first
      rw [minus] at digit
      exact absurd (digit '-' rfl) (by decide)

/-! ### What texts say -/

/-- What a text says that is no formula: nothing, a number, or itself. -/
inductive Denotes : String → CellValue → Prop
  | nothing : Denotes "" (.text "")
  | number (n : Formula.Numeral) (complete : n.IsComplete) :
    Denotes (String.ofList n.chars) (.number n.value)
  | itself {text : String} (nonempty : text ≠ "")
    (other : ∀ n : Formula.Numeral, n.IsComplete → n.chars ≠ text.toList) : Denotes text (.text text)

theorem exists_denotes (text : String) : ∃ v, Denotes text v := by
  by_cases empty : text = ""
  · subst empty
    exact ⟨_, .nothing⟩
  · by_cases number : ∃ n : Formula.Numeral, n.IsComplete ∧ n.chars = text.toList
    · obtain ⟨n, complete, chars⟩ := number
      have denotes := Denotes.number n complete
      rw [chars, String.ofList_toList] at denotes
      exact ⟨_, denotes⟩
    · exact ⟨_, .itself empty fun n complete same => number ⟨n, complete, same⟩⟩

/-- A formula that has one value everywhere and refers to nothing. -/
structure Formula.IsConstant (formula : String) (v : CellValue) : Prop where
  mentions : mentions formula = []
  value : ∀ view origin, (evaluate view origin formula).toValue = v

theorem Formula.mentions_of_parse {formula : String} {e : Expr} (parsed : parse formula = .ok e)
    (none : e.leaves = []) : mentions formula = [] := by
  rw [leaves_of_parse parsed, List.map_eq_nil_iff] at none
  exact none

theorem Formula.isConstant_empty : IsConstant "" (.text "") where
  mentions := mentions_of_parse Grid.parse_empty rfl
  value view origin := by rw [Grid.evaluate_empty, Term.toValue]

theorem Formula.isConstant_quote (text : String) : IsConstant (Text.quote text) (.text text) where
  mentions := mentions_quote text
  value view origin := by
    rw [evaluate, parse_quote]
    rfl

theorem Formula.Numeral.isConstant (n : Formula.Numeral) :
    IsConstant (String.ofList n.chars) (.number n.value) := by
  have read := n.readAs_chars
  rw [← String.toList_ofList (l := n.chars)] at read
  have parsed : parse (String.ofList n.chars) = .ok (.number n.value) := by
    rw [parse, tokens_of_readAs read rfl]
    rfl
  refine ⟨mentions_of_parse parsed rfl, fun view origin => ?_⟩
  rw [evaluate, parsed]
  rfl

/-- **The literal of a text** has what the text denotes as its value. -/
theorem Denotes.isConstant {text : String} {v : CellValue} (denotes : Denotes text v) :
    IsConstant (literalFormula text) v := by
  cases denotes with
  | nothing => exact isConstant_empty
  | number n complete =>
    have form := (isNumberLiteral_iff n.chars).mpr ⟨n, complete, rfl⟩
    rw [literalFormula]
    split
    · rename_i empty
      rw [String.isEmpty_iff, String.ofList_eq_empty_iff] at empty
      rw [empty] at form
      exact absurd form (by decide)
    · rw [String.toList_ofList, if_pos form]
      exact n.isConstant
  | itself nonempty other =>
    have notNumber : ¬ isNumberLiteral text.toList = true := by
      rw [isNumberLiteral_iff]
      rintro ⟨n, complete, same⟩
      exact other n complete same
    rw [literalFormula, if_neg (by rwa [String.isEmpty_iff]), if_neg notNumber]
    exact isConstant_quote text

namespace Grid

variable {g g' : Grid} {hooks : Hooks} {x : CellId} {formula text : String} {v : CellValue}

theorem bare_ofFormula (formula : String) : (Cell.ofFormula formula).bare = .ofFormula formula := rfl

theorem resolved_of_isConstant (g : Grid) (sheet : Nat) (constant : IsConstant formula v) :
    g.resolved sheet (.ofFormula formula) = .ofFormula formula := by
  have none : Formula.reads sheet g.directory formula = .ok ∅ := by
    rw [Formula.reads, constant.mentions]
    rfl
  rw [resolved, show (Cell.ofFormula formula).formula = formula from rfl, none]
  rfl

/-- **A pass computes a constant** that has been written. -/
theorem value_recompute_of_isConstant (constant : IsConstant formula v) (linked : g.Linked)
    (completed : (g.recompute hooks).2.cancelled = false) (dirty : x ∈ g.dirty)
    (bare : (g.cell x).bare = .ofFormula formula) : (g.recompute hooks).1.value x = v := by
  have written : g.formula x = formula := congrArg Cell.formula bare
  have value : g.value x = .pending formula := congrArg Cell.value bare
  have notFilling : (g.cell x).isFilling = false := by
    have same : (g.cell x).value = .pending formula := value
    rw [Cell.isFilling, same]
  have settled : ∀ g' draws, g.Alike g' → g'.formulaValue x draws = v := by
    intro g' draws alike
    rw [formulaValue, alike.formula, written, constant.value]
  have plain : ∀ s, v ≠ .pending s := fun s =>
    settled g .zero (Alike.refl g) ▸ formulaValue_ne_pending g x .zero s
  rw [value_recompute_of_constant linked completed dirty (congrArg Cell.precedents bare) notFilling
    settled, value, CellValue.keep_pending _ plain]

theorem value_set_of_isConstant (regular : g.Regular) (idle : g.waiting = []) (inside : g.Has x)
    (plain : Input.FillsNone text) (constant : IsConstant (Input.ofText text).stored v) :
    ∃ g' outcome, g.apply hooks (.set x text) = .ok (g', outcome) ∧
      (outcome.report.cancelled = false → g'.value x = v) := by
  have wrote := write_set inside plain
  obtain ⟨outcome, applied, report⟩ := apply_of_write_of_idle hooks wrote idle
  refine ⟨_, outcome, applied, fun completed => ?_⟩
  rw [report] at completed
  refine value_recompute_of_isConstant constant (regular.wired.store x _).linked completed
    ((mem_dirty_store x _ x).mpr (Or.inr .refl)) ?_
  rw [bare_store, if_pos rfl, Cell.typed, resolved_of_isConstant g x.sheet constant, bare_ofFormula]

theorem mem_importUpdates_iff {index : Nat} {rows : List (List String)} {u : Update} :
    u ∈ importUpdates index rows ↔ ∃ r row c entry, rows[r]? = some row ∧ row[c]? = some entry ∧
      u = ⟨⟨index, r + 1, c + 1⟩, literalFormula (String.ofList (Text.trim entry.toList)), false⟩ := by
  simp only [importUpdates, List.mem_flatMap, List.mem_map, Prod.exists,
    List.mem_zipIdx_iff_getElem?]
  constructor
  · rintro ⟨row, r, here, entry, c, within, rfl⟩
    exact ⟨r, row, c, entry, here, within, rfl⟩
  · rintro ⟨r, row, c, entry, here, within, rfl⟩
    exact ⟨row, r, here, entry, c, within, rfl⟩

theorem exists_importRows {index : Nat} (rows : List (List String)) (draws : Nat → Draws)
    (idle : g.waiting = []) (known : index < g.sheets.length) :
    ∃ outcome, g.importRows index rows draws =
      .ok ((((g.growSheet index rows.length ((rows.map List.length).foldl max 0)).storeAll
        ((importUpdates index rows).map fun u => (u.cell, .ofFormula u.formula))).recompute
          { draws }).1, outcome) := by
  have plain : ∀ u ∈ importUpdates index rows, u.filling = false := by
    intro u mem
    obtain ⟨r, row, c, entry, -, -, rfl⟩ := mem_importUpdates_iff.mp mem
    rfl
  have found : g.sheet index = .ok g.sheets[index] := by
    rw [sheet, List.getElem?_eq_getElem known]
  rw [← updateAll_eq _ plain, importRows, found]
  dsimp only [bind, Except.bind, pure, Except.pure]
  rw [finish]
  dsimp only
  have none : ((((g.growSheet index rows.length ((rows.map List.length).foldl max 0)).updateAll
      (importUpdates index rows)).1.recompute { draws }).1.waiting.isEmpty) = true := by
    rw [recompute_waiting, updateAll_eq _ plain, (storeAll_fields _ _).2.2, List.isEmpty_iff]
    exact idle
  rw [if_pos none]
  exact ⟨_, rfl⟩

theorem value_importRows {index : Nat} {rows : List (List String)} {draws : Nat → Draws}
    {outcome : Outcome} (regular : g.Regular) (idle : g.waiting = []) (known : index < g.sheets.length)
    (done : g.importRows index rows draws = .ok (g', outcome)) {r c : Nat} {row : List String}
    {entry : String} (here : rows[r]? = some row) (within : row[c]? = some entry)
    (denotes : Denotes (String.ofList (Text.trim entry.toList)) v) :
    g'.value ⟨index, r + 1, c + 1⟩ = v := by
  obtain ⟨outcome', accepted⟩ := exists_importRows rows draws idle known
  cases done.symm.trans accepted
  have listed := List.mem_map_of_mem (f := fun u : Update => (u.cell, Cell.ofFormula u.formula))
    (mem_importUpdates_iff.mpr ⟨r, row, c, entry, here, within, rfl⟩ : _ ∈ importUpdates index rows)
  have linked := ((rewrites_storeAll _ ((importUpdates index rows).map fun u =>
    (u.cell, Cell.ofFormula u.formula))).regular (regular.growSheet index rows.length
      ((rows.map List.length).foldl max 0))).wired.linked
  refine value_recompute_of_isConstant denotes.isConstant linked
    (recompute_not_cancelled linked fun _ => rfl) (mem_dirty_storeAll (Or.inr ⟨_, listed⟩)) ?_
  rw [bare_storeAll_of_mem listed, resolved_of_isConstant _ _ denotes.isConstant]
  · exact bare_ofFormula _
  · intro cell written
    obtain ⟨u, mem, same⟩ := List.mem_map.mp written
    obtain ⟨r', row', c', entry', here', within', rfl⟩ := mem_importUpdates_iff.mp mem
    obtain ⟨place, rfl⟩ := Prod.mk.inj same
    obtain ⟨-, sameRow, sameCol⟩ := CellId.mk.inj place
    obtain rfl : r' = r := Nat.succ.inj sameRow
    obtain rfl : c' = c := Nat.succ.inj sameCol
    cases here.symm.trans here'
    cases within.symm.trans within'
    rfl

/-- **Typed text comes back.**  A cell of a grid with a history into which a text is typed that does
not begin with `=` has the value that the text denotes after the pass: the empty text, a number or the
text itself.  A text that begins with `=` and is no formula becomes a text that says so.  An import
stores what each of its entries denotes without the blanks at its ends, also if it begins with `=`. -/
theorem typed_ofHistory (options : Options) (history : List Action) (hooks : Hooks) :
    let g := ofHistory options history
    (∀ x, g.Has x →
      (∀ text v, text.toList.head? ≠ some '=' → Denotes text v →
        ∃ g' outcome, g.apply hooks (.set x text) = .ok (g', outcome) ∧
          (outcome.report.cancelled = false → g'.value x = v)) ∧
      ∀ f, Formula.isValid f = false →
        ∃ g' outcome, g.apply hooks (.set x ("=" ++ f)) = .ok (g', outcome) ∧
          (outcome.report.cancelled = false → g'.value x = .text ("Error in formula: " ++ f))) ∧
    ∀ index rows draws, index < g.sheets.length →
      ∃ g' outcome, g.importRows index rows draws = .ok (g', outcome) ∧
        ∀ r row c entry v, rows[r]? = some row → row[c]? = some entry →
          Denotes (String.ofList (Text.trim entry.toList)) v →
            g'.value ⟨index, r + 1, c + 1⟩ = v := by
  intro g
  have regular : g.Regular := regular_ofHistory options history
  have idle : g.waiting = [] := waiting_ofHistory options history
  refine ⟨fun x inside => ⟨fun text v first denotes => ?_, fun f bad => ?_⟩,
    fun index rows draws known => ?_⟩
  · have read : Input.ofText text = .literal (literalFormula text) := by
      rw [Input.ofText]
      split
      · rename_i opens
        rw [opens] at first
        exact absurd rfl first
      · rfl
    refine value_set_of_isConstant regular idle inside ?_ ?_
    · rw [Input.FillsNone, read]
      rintro _ ⟨⟩
    · rw [read]
      exact denotes.isConstant
  · have chars : ("=" ++ f).toList = '=' :: f.toList := by
      rw [String.toList_append]
      rfl
    have read : Input.ofText ("=" ++ f) = .invalid f := by
      rw [Input.ofText, chars]
      simp [bad]
    refine value_set_of_isConstant regular idle inside ?_ ?_
    · rw [Input.FillsNone, read]
      rintro _ ⟨⟩
    · rw [read]
      exact isConstant_quote _
  · obtain ⟨outcome, accepted⟩ := exists_importRows rows draws idle known
    exact ⟨_, outcome, accepted, fun r row c entry v here within denotes =>
      value_importRows regular idle known accepted here within denotes⟩

/-- A number with zeros at both ends, a text with what is escaped, a text that would be a reference,
an error that has quotes, and an import of what would be a formula. -/
theorem typed_ofHistory_escaped :
    let g := ofHistory {} [.edit {} (.set ⟨0, 2, 2⟩ "=A1+1")]
    let text := "\"é\\\n=A1"
    (∃ g' outcome, g.apply {} (.set ⟨0, 1, 1⟩ "-007.50") = .ok (g', outcome) ∧
        g'.value ⟨0, 1, 1⟩ = .number (Number.ofPattern true (Number.nearest 15 2))) ∧
      (∃ g' outcome, g.apply {} (.set ⟨0, 1, 1⟩ text) = .ok (g', outcome) ∧
        g'.value ⟨0, 1, 1⟩ = .text text) ∧
      (∃ g' outcome, g.apply {} (.set ⟨0, 1, 1⟩ "=\"A1") = .ok (g', outcome) ∧
        g'.value ⟨0, 1, 1⟩ = .text "Error in formula: \"A1") ∧
      ∃ g' outcome, g.importRows 1 [[], ["", " =B2 "]] = .ok (g', outcome) ∧
        g'.value ⟨1, 2, 2⟩ = .text "=B2" := by
  intro g text
  obtain ⟨typed, imported⟩ := typed_ofHistory {} [.edit {} (.set ⟨0, 2, 2⟩ "=A1+1")] {}
  obtain ⟨set, setInvalid⟩ := typed ⟨0, 1, 1⟩ (by decide +kernel)
  have itself : ∀ t : String, t ≠ "" → isNumberLiteral t.toList = false → Denotes t (.text t) :=
    fun t nonempty other => .itself nonempty fun n complete same =>
      absurd ((isNumberLiteral_iff t.toList).mpr ⟨n, complete, same⟩) (Bool.eq_false_iff.mp other)
  let seven : Formula.Numeral :=
    ⟨true, ['0', '0', '7'], some ['5', '0'], by simp, by simp, by simp⟩
  have number := Denotes.number seven ⟨by decide, by decide⟩
  rw [show String.ofList seven.chars = "-007.50" by decide +kernel] at number
  refine ⟨?_, ?_, ?_, ?_⟩
  · obtain ⟨g₁, outcome, applied, value⟩ := set _ _ (by decide) number
    obtain ⟨g₂, outcome', applied', completed⟩ := exists_of_apply g {} (.set ⟨0, 1, 1⟩ "-007.50")
      (by decide +kernel)
    cases applied.symm.trans applied'
    exact ⟨g₁, outcome, applied, (value completed).trans (by decide +kernel)⟩
  · obtain ⟨g₁, outcome, applied, value⟩ := set text _ (by decide) (itself text (by decide)
      (by decide +kernel))
    obtain ⟨g₂, outcome', applied', completed⟩ := exists_of_apply g {} (.set ⟨0, 1, 1⟩ text)
      (by decide +kernel)
    cases applied.symm.trans applied'
    exact ⟨g₁, outcome, applied, value completed⟩
  · obtain ⟨g₁, outcome, applied, value⟩ := setInvalid "\"A1" (by decide +kernel)
    obtain ⟨g₂, outcome', applied', completed⟩ := exists_of_apply g {} (.set ⟨0, 1, 1⟩ "=\"A1")
      (by decide +kernel)
    cases applied.symm.trans applied'
    exact ⟨g₁, outcome, applied, value completed⟩
  · obtain ⟨g₁, outcome, applied, value⟩ :=
      imported 1 [[], ["", " =B2 "]] (fun _ => .zero) (by decide +kernel)
    exact ⟨g₁, outcome, applied, value 1 _ 1 " =B2 " _ rfl rfl (itself _ (by decide)
      (by decide +kernel))⟩

end Grid

end Spreadsheet
