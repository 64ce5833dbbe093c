import Spreadsheet.Proofs.Formula.Dependence
import Spreadsheet.Proofs.Formula.Retargeting
import Spreadsheet.Proofs.Formula.Tables
import Spreadsheet.Proofs.Grid.History
import Spreadsheet.Proofs.Grid.Valuation
import Spreadsheet.Proofs.Number.Whole

/-!
# Looking up a text in a table

A look-up goes through the list of the terms of its range, which has them column by column.  What it
finds is said here with the rows and columns of the range instead.

* `Range.at`: a cell of a range by its row and column, counted from 0.
* `Block.get?_ofCells`, `Block.column_ofCells`: the rows and columns of the list are those of the
  range.
* `Finds`: what is found in a table.
* `finds_evaluate_lookUp`: this is what the call gives.
-/

namespace Spreadsheet

/-- The cell in a row and a column of a range, counted from 0. -/
def Range.at (r : BoundRange) (row col : Nat) : CellId := ⟨r.sheet, r.top + row, r.left + col⟩

/-- The terms of a range as a formula reads them. -/
def Block.ofCells (term : CellId → Term) (r : BoundRange) : Block Term :=
  ⟨r.height, r.width, r.cells.map term⟩

theorem getElem?_flatMap_of_length {α β : Type} {f : α → List β} {height : Nat}
    (same : ∀ a, (f a).length = height) {i : Nat} (inside : i < height) (l : List α) (j : Nat) :
    (l.flatMap f)[j * height + i]? = l[j]?.bind fun a => (f a)[i]? := by
  induction l generalizing j with
  | nil => simp
  | cons a l ih =>
    rw [List.flatMap_cons]
    cases j with
    | zero =>
      rw [Nat.zero_mul, Nat.zero_add, List.getElem?_append_left (by rw [same]; exact inside)]
      rfl
    | succ j =>
      rw [List.getElem?_append_right (by rw [same, Nat.succ_mul]; omega), same,
        show (j + 1) * height + i - height = j * height + i by rw [Nat.succ_mul]; omega, ih j]
      rfl

namespace Range

theorem getElem?_cells {r : BoundRange} {row col : Nat} (inRow : row < r.rowCount)
    (inCol : col < r.colCount) : r.cells[col * r.rowCount + row]? = some (r.at row col) := by
  rw [cells, getElem?_flatMap_of_length (fun _ => by simp) inRow, List.getElem?_range' inCol,
    Option.bind_some, List.getElem?_map, List.getElem?_range' inRow, Nat.one_mul, Nat.one_mul]
  rfl

theorem counts_of_fits {r : WrittenRange} (positive : r.Positive) (fits : r.Fits) :
    r.height = r.rowCount ∧ r.width = r.colCount :=
  counts_of_lt ⟨lt_min positive.1.1 positive.2.1, lt_min positive.1.2 positive.2.2⟩
    ⟨max_lt fits.1.1 fits.2.1, max_lt fits.1.2 fits.2.2⟩

end Range

namespace Block

variable {term : CellId → Term} {r : BoundRange}
  (counts : r.height = r.rowCount ∧ r.width = r.colCount)

include counts

/-- **The values of a range lie where they are looked for.** -/
theorem get?_ofCells {row col : Nat} (inRow : row < r.height) (inCol : col < r.width) :
    (ofCells term r).get? row col = some (term (r.at row col)) := by
  show (if row < r.height ∧ col < r.width then (r.cells.map term)[col * r.height + row]? else none) = _
  rw [if_pos ⟨inRow, inCol⟩, List.getElem?_map, counts.1,
    Range.getElem?_cells (counts.1 ▸ inRow) (counts.2 ▸ inCol)]
  rfl

theorem column_ofCells {col : Nat} (inCol : col < r.width) :
    (ofCells term r).column col = (List.range r.height).map fun row => term (r.at row col) := by
  refine List.ext_getElem? fun row => ?_
  show (((r.cells.map term).drop (col * r.height)).take r.height)[row]? = _
  rw [List.getElem?_take, List.getElem?_drop, List.getElem?_map, List.getElem?_map]
  split
  · rename_i inRow
    rw [List.getElem?_range inRow, counts.1,
      Range.getElem?_cells (counts.1 ▸ inRow) (counts.2 ▸ inCol)]
    rfl
  · rename_i outside
    rw [List.getElem?_eq_none (by rwa [List.length_range, ← Nat.not_lt])]
    rfl

end Block

namespace Formula

/-- The rows of a table, counted from 0, whose first cell shows the text. -/
def rowsShowing (view : CellView) (table : BoundRange) (needle : String) : Set Nat :=
  {row | row < table.height ∧ (view.term (table.at row 0)).toText = needle}

/-- What is found for a text in a column of a table, counted from 1. -/
inductive Finds (view : CellView) (table : BoundRange) (needle : String) (col : Nat) : Term → Prop
  /-- The term of the first row that shows the text. -/
  | found {row : Nat} (first : IsLeast (rowsShowing view table needle) row) :
    Finds view table needle col (view.term (table.at row (col - 1)))
  /-- No row shows the text. -/
  | missing (none : rowsShowing view table needle = ∅) :
    Finds view table needle col (.text "#NOTFOUND")

section

variable {view : CellView} {table : BoundRange}
  (counts : table.height = table.rowCount ∧ table.width = table.colCount)

include counts

theorem zero_lt_width : 0 < table.width := counts.2 ▸ Nat.succ_pos _

theorem rowsShowing_eq_empty {needle : String}
    (h : Function.rowOf? (.ofCells view.term table) needle = none) :
    rowsShowing view table needle = ∅ := by
  rw [Function.rowOf?, Block.column_ofCells counts (zero_lt_width counts),
    List.findIdx?_eq_none_iff] at h
  refine Set.eq_empty_iff_forall_notMem.mpr fun row shown => ?_
  have differs := h _ (List.mem_map.mpr ⟨row, List.mem_range.mpr shown.1, rfl⟩)
  exact beq_eq_false_iff_ne.mp differs shown.2

theorem isLeast_rowsShowing {needle : String} {row : Nat}
    (h : Function.rowOf? (.ofCells view.term table) needle = some row) :
    IsLeast (rowsShowing view table needle) row := by
  rw [Function.rowOf?, Block.column_ofCells counts (zero_lt_width counts),
    List.findIdx?_eq_some_iff_getElem] at h
  obtain ⟨inside, shown, earlier⟩ := h
  rw [List.getElem_map, List.getElem_range, beq_iff_eq] at shown
  rw [List.length_map, List.length_range] at inside
  refine ⟨⟨inside, shown⟩, fun other otherShown => ?_⟩
  by_contra before
  refine earlier other (Nat.lt_of_not_le before) ?_
  rw [List.getElem_map, List.getElem_range, beq_iff_eq]
  exact otherShown.2

theorem lookUp_ofCells {x : Float} {k : ℚ} (value : Number.value? x = some k) (first : 1 ≤ k)
    (last : ⌊k⌋₊ ≤ table.width) (needle : Term) :
    Finds view table needle.toText ⌊k⌋₊ (Function.lookUp needle (.ofCells view.term table) x) := by
  have col : x.toUInt64.toNat = ⌊k⌋₊ := Number.toNat_toUInt64 value first (last.trans_lt (wrap_lt _))
  have inside : ¬ (x < Number.ofNat 1 ∨ (Block.ofCells view.term table).width < ⌊k⌋₊) :=
    not_or.mpr ⟨Number.not_lt_one value first, Nat.not_lt.mpr last⟩
  have positive : 1 ≤ ⌊k⌋₊ := Nat.le_floor (by exact_mod_cast first)
  have before : (x.toUInt64 - 1).toNat = ⌊k⌋₊ - 1 := by
    rw [UInt64.toNat_sub_of_le _ _ (UInt64.le_iff_toNat_le.mpr (by rw [col]; exact positive)), col]
    rfl
  rw [Function.lookUp, col, if_neg inside, before]
  cases row : Function.rowOf? (.ofCells view.term table) needle.toText with
  | none => exact .missing (rowsShowing_eq_empty counts row)
  | some i =>
    have least := isLeast_rowsShowing counts row
    rw [Option.bind_some, Block.get?_ofCells counts least.1.1 (by omega), Option.getD_some]
    exact .found least

end

theorem evaluate_of_parse {view : CellView} {origin : CellId} {formula : String} {e : Expr}
    (parsed : parse formula = .ok e) (single : (e.eval view origin []).IsSingle) :
    evaluate view origin formula = e.eval view origin [] := by
  rw [evaluate, parsed]
  dsimp only
  split
  · rename_i b isRange
    exact absurd isRange (single b)
  · rfl

theorem Finds.isSingle {g : Grid} {draws : Draws} {table : BoundRange} {needle : String} {col : Nat}
    {t : Term} (h : Finds (g.view draws) table needle col t) : t.IsSingle := by
  cases h with
  | found => exact g.isSingle_view_term draws _
  | missing => exact nofun

theorem callTerm_lookup (view : CellView) (origin : CellId) (needle column : Term)
    (block : Block Term) (place : List Nat) :
    callTerm view origin place "VLOOKUP" [needle, .range block, column] =
      Function.lookUp needle block column.toNumber := by
  rw [callTerm, if_neg (by decide +kernel)]
  rfl

/-- **A look-up finds the first row that shows the text.**  Its range has a sheet, and the column is
counted from 1 and inside the range.  The terms of the range are all found by their rows and columns,
and a formula that looks something up has what is found as its term. -/
theorem finds_evaluate_lookUp {g : Grid} {origin : CellId} {r : WrittenRange} {table : BoundRange}
    (resolved : r.bind? origin.sheet g.directory = some table) {x : Double} {k : ℚ}
    (value : Number.value? x = some k) (first : 1 ≤ k) (last : ⌊k⌋₊ ≤ table.width) (draws : Draws) :
    (r.Positive → r.Fits →
      rangeTerm (g.view draws) origin r = .range (.ofCells (g.view draws).term table) ∧
      (∀ row < table.height, ∀ col < table.width,
        (Block.ofCells (g.view draws).term table).get? row col =
          some ((g.view draws).term (table.at row col))) ∧
      ∀ (place : List Nat) (needle column : Term), column.toNumber = x →
        Finds (g.view draws) table needle.toText ⌊k⌋₊ (callTerm (g.view draws) origin place "VLOOKUP"
          [needle, rangeTerm (g.view draws) origin r, column])) ∧
    ∀ (formula : String) (needle column : Expr),
      parse formula = .ok (.call "VLOOKUP" [needle, .range r, column]) →
      (column.eval (g.view draws) origin [2]).toNumber = x →
        Finds (g.view draws) table (needle.eval (g.view draws) origin [0]).toText ⌊k⌋₊
          (evaluate (g.view draws) origin formula) := by
  have terms : rangeTerm (g.view draws) origin r = .range (.ofCells (g.view draws).term table) := by
    rw [rangeTerm, show r.bind? origin.sheet (g.view draws).toDirectory = some table from resolved]
    rfl
  have counts : r.Positive → r.Fits →
      table.height = table.rowCount ∧ table.width = table.colCount := by
    intro positive fits
    rw [bind?_range] at resolved
    obtain ⟨sheet, -, rfl⟩ := Option.map_eq_some_iff.mp resolved
    exact Range.counts_of_fits positive fits
  have called : r.Positive → r.Fits → ∀ (place : List Nat) (needle column : Term),
      column.toNumber = x →
      Finds (g.view draws) table needle.toText ⌊k⌋₊ (callTerm (g.view draws) origin place "VLOOKUP"
        [needle, rangeTerm (g.view draws) origin r, column]) := by
    rintro positive fits place needle column rfl
    rw [terms, callTerm_lookup]
    exact lookUp_ofCells (counts positive fits) value first last needle
  refine ⟨fun positive fits => ⟨terms, fun row inRow col inCol =>
    Block.get?_ofCells (counts positive fits) inRow inCol, called positive fits⟩, fun formula needle column parsed number => ?_⟩
  have listed : Mention.range r ∈ (mentions formula).map Prod.fst := by
    rw [← leaves_of_parse parsed]
    simp [Expr.leaves, Expr.leavesAll]
  obtain ⟨m, mem, isRange⟩ := List.mem_map.mp listed
  have sound := sound_of_mem_mentions mem
  rw [isRange] at sound
  have finds := called sound.positive sound.fits [] (needle.eval (g.view draws) origin [0]) _ number
  rw [evaluate_of_parse parsed finds.isSingle]
  exact finds

theorem Finds.eq_of_isLeast {view : CellView} {table : BoundRange} {needle : String} {col row : Nat}
    {t : Term} (h : Finds view table needle col t)
    (first : IsLeast (rowsShowing view table needle) row) :
    t = view.term (table.at row (col - 1)) := by
  cases h with
  | found least => rw [least.unique first]
  | missing none => exact absurd first.1 (none ▸ Set.notMem_empty row)

/-- The corners of the range are the lower right one and the upper left one, two rows show the text, and
the number of the column has digits after its point. -/
theorem finds_evaluate_lookUp_second :
    let g := Grid.ofHistory {} [.edit {} (.batch
      [⟨0, 1, 1⟩, ⟨0, 2, 1⟩, ⟨0, 3, 1⟩, ⟨0, 1, 2⟩, ⟨0, 2, 2⟩, ⟨0, 3, 2⟩]
      ["b c", "b", "b", "one", "two", "three"])]
    let formula := "vlookup(\"b\", B3:$A1, 2.75)"
    let r : WrittenRange := ⟨⟨none, 3, 2, false, false⟩, ⟨none, 1, 1, false, true⟩⟩
    let table : BoundRange := ⟨⟨0, 3, 2, false, false⟩, ⟨0, 1, 1, false, true⟩⟩
    let x := Number.ofPattern false 0x4006000000000000
    r.bind? 0 g.directory = some table ∧ Number.value? x = some (11 / 4) ∧ r.Positive ∧ r.Fits ∧
      parse formula = .ok (.call "VLOOKUP" [.text "b", .range r, .number x]) ∧
      evaluate g.view ⟨0, 1, 4⟩ formula = .text "two" := by
  intro g formula r table x
  have resolved : r.bind? 0 g.directory = some table := by decide +kernel
  have value : Number.value? x = some (11 / 4) := by
    have pattern : Number.patternOf x = 0x4006000000000000 := by decide +kernel
    have magnitude : Number.fractionOf 0x4006000000000000 = (11 * 2 ^ 49, 2 ^ 51) := by decide +kernel
    have front : Number.isNegative x = false := by decide +kernel
    rw [Number.value?, pattern, magnitude, front, if_pos (by decide)]
    norm_num
  have parsed : parse formula = .ok (.call "VLOOKUP" [.text "b", .range r, .number x]) := by
    have lexed : tokens formula = .ok [.function "VLOOKUP", .leftParen, .text "b", .comma, .range r,
      .comma, .number x, .rightParen] := by decide +kernel
    rw [parse, lexed]
    rfl
  have whole : ⌊(11 / 4 : ℚ)⌋₊ = 2 := by norm_num
  obtain ⟨-, found⟩ := @finds_evaluate_lookUp g ⟨0, 1, 4⟩ _ _ resolved (.plain x) _ value (by norm_num)
    (by rw [whole]; decide) .zero
  have finds := found formula _ _ parsed rfl
  have first : IsLeast (rowsShowing g.view table "b") 1 := by
    refine ⟨⟨by decide, by decide +kernel⟩, fun row shown => Nat.one_le_iff_ne_zero.mpr ?_⟩
    rintro rfl
    exact absurd shown.2 (by decide +kernel)
  rw [whole] at finds
  have stored : g.value (table.at 1 1) = .text "two" := by decide +kernel
  refine ⟨resolved, value, by decide, by decide, parsed, (finds.eq_of_isLeast first).trans ?_⟩
  rw [Grid.view_term, stored]
  rfl

end Formula

end Spreadsheet
