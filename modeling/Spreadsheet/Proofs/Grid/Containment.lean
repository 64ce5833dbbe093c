import Spreadsheet.Proofs.Formula.Tables
import Spreadsheet.Proofs.Grid.Moving
import Spreadsheet.Proofs.Grid.Placement
import Spreadsheet.Proofs.Regression.Layout

/-!
# Cells inside sheets

Edits check where they write, and what is laid out or filled beyond the end of a sheet is left out.

* `Grid.Has g x`: the grid has the cell `x`, that is, one of its sheets contains it.
* `Grid.HasIf g counted x`: a sheet reaches the cell, and contains it if a condition holds.  What is laid
  out where coordinates are no words can come to row or column 0, which no sheet contains.
* `Grid.has_of_checkRange`, `Grid.hasIf_of_mem_mapping` and the others: cells that the grid has because
  an edit checks them, lays something out on them, or fills them.
* `Grid.has_of_mem_resolved`: a formula that is stored reads only cells that the grid has.
* `Grid.contains_line_iff` and `Grid.contains_behind_iff`: the cells of a line, and those after it.
* `Grid.Contained g`: every cell with a formula is one that the grid has.
* `Grid.Confined g g'`: the second grid has the same sheets, and its formulas stay inside them.
-/

namespace Spreadsheet

open Formula

theorem Formula.Mention.Positive.of_covers {m : Mention} (h : m.Positive) {row col : Nat}
    (covers : m.Covers row col) : 1 ≤ row ∧ 1 ≤ col := by
  cases m with
  | cell r =>
    obtain ⟨rfl, rfl⟩ := covers
    exact h
  | range r =>
    obtain ⟨top, -, left, -⟩ := covers
    exact ⟨Nat.le_trans (Nat.le_min.mpr ⟨h.1.1, h.2.1⟩) top,
      Nat.le_trans (Nat.le_min.mpr ⟨h.1.2, h.2.2⟩) left⟩

namespace Grid

variable {g g' g'' : Grid}

/-- A sheet of the grid contains the cell. -/
def Has (g : Grid) (x : CellId) : Prop :=
  ∃ s, g.sheets[x.sheet]? = some s ∧ s.contains x.row x.col = true

instance (g : Grid) : DecidablePred g.Has := fun x =>
  decidable_of_iff ((g.sheets[x.sheet]?).any (·.contains x.row x.col) = true) (by
    rw [Has, Option.any_eq_true])

theorem has_iff (x : CellId) : g.Has x ↔ ∃ bounds, g.directory.bounds? x.sheet = some bounds ∧
    1 ≤ x.row ∧ x.row ≤ bounds.rows ∧ 1 ≤ x.col ∧ x.col ≤ bounds.cols := by
  constructor
  · rintro ⟨s, found, inside⟩
    exact ⟨s.bounds, bounds?_of_sheet found, Sheet.contains_iff.mp inside⟩
  · rintro ⟨bounds, known, inside⟩
    obtain ⟨s, found, rfl⟩ := Option.map_eq_some_iff.mp known
    exact ⟨s, found, Sheet.contains_iff.mpr inside⟩

theorem Has.of_sheets {x : CellId} (h : g.Has x) (same : g'.sheets = g.sheets) : g'.Has x := by
  rw [Has, same]
  exact h

theorem Has.growSheet {x : CellId} (h : g.Has x) (index rows cols : Nat) :
    (g.growSheet index rows cols).Has x := by
  obtain ⟨s, found, inside⟩ := h
  refine ⟨_, getElem?_growSheet found index rows cols, ?_⟩
  split
  · simp only [Sheet.contains_iff, Sheet.grow, le_max_iff] at inside ⊢
    tauto
  · exact inside

/-- A sheet of the grid reaches the row and the column of the cell, and contains the cell if `counted`
holds. -/
def HasIf (g : Grid) (counted : Prop) (x : CellId) : Prop :=
  (∃ s, g.sheets[x.sheet]? = some s ∧ x.row ≤ s.rows ∧ x.col ≤ s.cols) ∧
    (counted → 1 ≤ x.row ∧ 1 ≤ x.col)

section

variable {counted : Prop} {x : CellId}

theorem Has.hasIf (h : g.Has x) : g.HasIf counted x := by
  obtain ⟨s, found, inside⟩ := h
  obtain ⟨row, rows, col, cols⟩ := Sheet.contains_iff.mp inside
  exact ⟨⟨s, found, rows, cols⟩, fun _ => ⟨row, col⟩⟩

theorem HasIf.has (h : g.HasIf counted x) (counts : counted) : g.Has x := by
  obtain ⟨⟨s, found, rows, cols⟩, first⟩ := h
  obtain ⟨row, col⟩ := first counts
  exact ⟨s, found, Sheet.contains_iff.mpr ⟨row, rows, col, cols⟩⟩

theorem HasIf.mono (h : g.HasIf counted x) {fewer : Prop} (weaker : fewer → counted) :
    g.HasIf fewer x :=
  ⟨h.1, fun counts => h.2 (weaker counts)⟩

theorem HasIf.of_sheets (h : g.HasIf counted x) (same : g'.sheets = g.sheets) :
    g'.HasIf counted x := by
  rw [HasIf, same]
  exact h

theorem HasIf.growSheet (h : g.HasIf counted x) (index rows cols : Nat) :
    (g.growSheet index rows cols).HasIf counted x := by
  obtain ⟨⟨s, found, inside⟩, first⟩ := h
  refine ⟨⟨_, getElem?_growSheet found index rows cols, ?_⟩, first⟩
  split
  · exact ⟨inside.1.trans (Nat.le_max_left _ _), inside.2.trans (Nat.le_max_left _ _)⟩
  · exact inside

theorem HasIf.addSheet (h : g.HasIf counted x) {name : String} (ok : g.addSheet name = .ok g') :
    g'.HasIf counted x := by
  rw [addSheet_eq ok]
  obtain ⟨⟨s, found, inside⟩, first⟩ := h
  have below := (List.getElem?_eq_some_iff.mp found).1
  exact ⟨⟨s, (List.getElem?_append_left below).trans found, inside⟩, first⟩

/-- The grid without a sheet has a cell in its new place. -/
theorem HasIf.of_restored {index : Nat} (h : g.HasIf counted (restored index x)) :
    (g.sheetRemoved index).HasIf counted x := by
  obtain ⟨⟨s, found, inside⟩, first⟩ := h
  rw [sheetRemoved_eq]
  refine ⟨⟨s, ?_, inside⟩, first⟩
  show (g.sheets.eraseIdx index)[x.sheet]? = some s
  rw [List.getElem?_eraseIdx, ← found, restored, restoredSheet]
  split <;> rfl

end

/-! ### What edits check and lay out -/

theorem has_of_checkInside {id : CellId} {place : String} (ok : g.checkInside id place = .ok ()) :
    g.Has id :=
  checkInside_eq_ok_iff.mp ok

theorem has_of_checkRange {r : BoundRange} (ok : g.checkRange r = .ok ()) {x : CellId}
    (mem : r.contains x = true) : g.Has x := by
  obtain ⟨bounds, known, top, left, bottom, right⟩ := bounds_of_checkRange ok
  rw [Range.contains_iff] at mem
  obtain ⟨sheet, mem⟩ := mem
  rw [has_iff, sheet]
  exact ⟨bounds, known, by omega⟩

theorem has_of_forM {ids : List CellId} (ok : ids.forM g.checkCell = .ok ()) :
    ∀ id ∈ ids, g.Has id := by
  induction ids with
  | nil => exact nofun
  | cons id ids ih =>
    obtain ⟨⟨⟩, inside, rest⟩ := ok_of_bind ok
    exact List.forall_mem_cons.mpr ⟨has_of_checkInside inside, ih rest⟩

/-- The grid has every cell that a block is laid out on, if the rows and columns are words. -/
theorem hasIf_of_mem_mapping {counted : Prop} {source destination : BoundRange}
    (fits : counted → source.FitsAt destination ∧ 1 ≤ destination.top ∧ 1 ≤ destination.left)
    {target id : CellId} (mem : (target, id) ∈ g.mapping source destination) :
    g.HasIf counted target := by
  obtain ⟨sheet, s, found, inside⟩ := mem_mapping mem
  refine ⟨⟨s, sheet ▸ found, inside⟩, fun counts => ?_⟩
  obtain ⟨fits, top, left⟩ := fits counts
  obtain ⟨row, col⟩ := le_of_mem_mapping fits mem
  exact ⟨top.trans row, left.trans col⟩

theorem HasIf.small {counted : Prop} {x : CellId} (h : g.HasIf counted x) (small : g.SizedBelow signedLimit) :
    x.row < signedLimit ∧ x.col < signedLimit := by
  obtain ⟨⟨s, found, rows, cols⟩, -⟩ := h
  obtain ⟨lowRows, lowCols⟩ := small s (List.mem_of_getElem? found)
  exact ⟨Nat.lt_of_le_of_lt rows lowRows, Nat.lt_of_le_of_lt cols lowCols⟩

theorem fitsAt_of_lt {source destination : BoundRange} (first : 1 ≤ source.top ∧ 1 ≤ source.left)
    (last : source.bottom < signedLimit ∧ source.right < signedLimit)
    (end_ : destination.bottom < signedLimit ∧ destination.right < signedLimit) :
    source.FitsAt destination := by
  have double : coordinateLimit = 2 * signedLimit := by decide
  have rows := source.top_le_bottom
  have cols := source.left_le_right
  have above := destination.top_le_bottom
  have before := destination.left_le_right
  rw [Range.FitsAt, Range.rowCount, Range.colCount]
  omega

/-- On small sheets blocks that are checked are laid out on words. -/
theorem fitsAt_of_checkRange (small : g.SizedBelow signedLimit) {source destination : BoundRange}
    (fromSheet : g.checkRange source = .ok ()) (ontoSheet : g.checkRange destination = .ok ()) :
    source.FitsAt destination ∧ 1 ≤ destination.top ∧ 1 ≤ destination.left := by
  have corner := one_le_of_checkRange ontoSheet
  exact ⟨fitsAt_of_lt (one_le_of_checkRange fromSheet) (small.of_checkRange fromSheet)
    (small.of_checkRange ontoSheet), corner⟩

theorem length_sortedRows (g : Grid) (range : BoundRange) (column : Nat) (ascending : Bool) :
    (g.sortedRows range column ascending).length = range.rowCount := by
  simp [sortedRows]

theorem has_of_mem_sorted {range : BoundRange} (ok : g.checkRange range = .ok ()) (column : Nat)
    (ascending : Bool) : ∀ u ∈ (g.sortedRows range column ascending).zipIdx.flatMap
      (fun (row, i) => (List.range' range.left range.colCount).map fun col =>
        g.copied ⟨range.sheet, row, col⟩ ⟨range.sheet, range.top + i, col⟩), g.Has u.cell := by
  intro u hu
  obtain ⟨⟨row, i⟩, mem, hu⟩ := List.mem_flatMap.mp hu
  obtain ⟨col, hcol, rfl⟩ := List.mem_map.mp hu
  have below : i < range.rowCount := by
    have := List.snd_lt_of_mem_zipIdx mem
    rwa [length_sortedRows] at this
  have rows := range.top_le_bottom
  have cols := range.left_le_right
  rw [List.mem_range'_1, Range.colCount] at hcol
  rw [Range.rowCount] at below
  refine has_of_checkRange ok ?_
  rw [Range.contains_iff]
  exact ⟨rfl, by simp only [copied]; omega⟩

theorem le_foldl_max {ns : List Nat} {n : Nat} (mem : n ∈ ns) (start : Nat) :
    n ≤ ns.foldl max start := by
  rw [List.foldl_max]
  exact Nat.le_trans (List.le_max?_getD_of_mem mem) (Nat.le_max_right _ _)

theorem has_of_mem_importUpdates {index : Nat} {rows : List (List String)}
    (known : ∃ s, g.sheets[index]? = some s) {u : Update} (mem : u ∈ importUpdates index rows) :
    (g.growSheet index rows.length ((rows.map List.length).foldl max 0)).Has u.cell := by
  obtain ⟨s, found⟩ := known
  obtain ⟨⟨row, r⟩, hrow, mem⟩ := List.mem_flatMap.mp mem
  obtain ⟨⟨text, c⟩, htext, rfl⟩ := List.mem_map.mp mem
  have below := List.snd_lt_of_mem_zipIdx hrow
  have within := List.snd_lt_of_mem_zipIdx htext
  have longest := le_foldl_max (List.mem_map_of_mem (f := List.length)
    (List.fst_mem_of_mem_zipIdx hrow)) 0
  refine ⟨s.grow rows.length ((rows.map List.length).foldl max 0), ?_, ?_⟩
  · rw [growSheet, List.getElem?_modify, found]
    simp
  · simp only [Sheet.contains_iff, Sheet.grow, le_max_iff]
    dsimp only at within longest
    omega

/-! ### What formulas fill -/

/-- The rows and the columns of all tables that a formula fills beside a cell are words. -/
def FitsBeside (view : CellView) (origin : CellId) (formula : String) : Prop :=
  ∀ e, parse formula = .ok e → ∀ call ∈ e.fillings, ∀ r,
    Regression.ofArguments (Expr.evalAll view origin call.1 0 call.2) = .ok r → r.FitsBeside origin

theorem exists_regression_of_mem_outputs {view : CellView} {origin : CellId} {formula : String}
    {o : Output} (mem : o ∈ outputs view origin formula) :
    ∃ e, parse formula = .ok e ∧ ∃ call ∈ e.fillings, ∃ r,
      Regression.ofArguments (Expr.evalAll view origin call.1 0 call.2) = .ok r ∧
        o ∈ r.outputs origin ((view.bounds? origin.sheet).getD ⟨origin.row, origin.col⟩) := by
  rw [outputs] at mem
  split at mem
  · exact absurd mem List.not_mem_nil
  · rename_i e parsed
    rw [e.outputs_eq_flatMap] at mem
    obtain ⟨call, listed, mem⟩ := List.mem_flatMap.mp mem
    rw [filled] at mem
    split at mem
    · rename_i r found
      exact ⟨e, parsed, call, listed, r, found, mem⟩
    · exact absurd mem List.not_mem_nil

theorem fitsBeside_of_namesFew {formula : String} (few : NamesFew formula) (g : Grid)
    (draws : Draws) {origin : CellId} (small : origin.row < signedLimit ∧ origin.col < signedLimit) :
    FitsBeside (g.view draws) origin formula := by
  intro e parsed call listed r found
  obtain ⟨fitted, coefficients⟩ := few.dimensions (g.isSingle_view_term draws) parsed listed found
  have double : coordinateLimit = 2 * signedLimit := by decide
  have room : 4 < signedLimit := by decide
  rw [Regression.FitsBeside]
  omega

/-- The grid has the cells that a formula fills in a cell that it has, if the rows and columns are
words. -/
theorem HasIf.of_mem_outputs {counted : Prop} {id : CellId} (h : g.HasIf counted id)
    {formula : String} {draws : Draws} (fits : counted → FitsBeside (g.view draws) id formula)
    {o : Output} (mem : o ∈ outputs (g.view draws) id formula) : g.HasIf counted o.cell := by
  obtain ⟨e, parsed, call, listed, r, found, mem⟩ := exists_regression_of_mem_outputs mem
  obtain ⟨⟨s, onSheet, rows, cols⟩, first⟩ := h
  have known : (g.view draws).bounds? id.sheet = some s.bounds := bounds?_of_sheet onSheet
  rw [known] at mem
  obtain ⟨sheet, inside⟩ := Regression.inside_of_mem_outputs mem
  refine ⟨⟨s, sheet ▸ onSheet, inside⟩, fun counts => ?_⟩
  have laidOut := Regression.laidOut (fits counts e parsed call listed r found) s.bounds
  obtain ⟨-, ⟨below, -⟩, beside, -⟩ := laidOut.inside o mem
  exact ⟨(first counts).1.trans below, (first counts).2.trans (Nat.le_of_lt beside)⟩

/-! ### What formulas read -/

theorem has_of_isInside {m : Mention} (positive : m.Positive) {sheet : Nat}
    (inside : m.isInside g.directory sheet = true) {x : CellId} (mem : x ∈ m.cellsOn sheet) :
    g.Has x := by
  have within := Mention.isInside_iff.mp inside x mem
  obtain ⟨-, covers⟩ := (m.mem_cellsOn sheet x).mp mem
  rw [isWithin] at within
  split at within
  · rename_i bounds known
    rw [Bool.and_eq_true, decide_eq_true_eq, decide_eq_true_eq] at within
    obtain ⟨row, col⟩ := positive.of_covers covers
    exact (has_iff x).mpr ⟨bounds, known, row, within.1, col, within.2⟩
  · cases within

theorem has_of_mem_resolved {sheet : Nat} {c : Cell} {x : CellId}
    (mem : x ∈ (g.resolved sheet c).precedents) : g.Has x := by
  cases filling : (g.resolved sheet c).isFilling with
  | true =>
    rw [resolved_inert g c sheet filling] at mem
    exact absurd mem Std.ExtTreeSet.not_mem_empty
  | false =>
    obtain ⟨m, hm, home, found, mem⟩ := (mem_resolved_precedents g sheet c filling x).mp mem
    have inside := isInside_of_resolved g sheet c filling m hm home found
    exact has_of_isInside (sound_of_mem_mentions hm).positive inside mem

/-! ### Lines -/

section

variable {kind : LineKind} {sheet line : Nat} {s : Sheet}

theorem growSheet_self (found : g.sheets[sheet]? = some s) (rows cols : Nat) :
    (g.growSheet sheet rows cols).sheets[sheet]? = some (s.grow rows cols) := by
  refine (getElem?_growSheet found sheet rows cols).trans ?_
  rw [if_pos rfl]

theorem bounds_lengthen (kind : LineKind) (found : g.sheets[sheet]? = some s) :
    (g.lengthen kind sheet s.bounds).directory.bounds? sheet = some (kind.grown s.bounds) := by
  refine (bounds?_of_sheet (getElem?_growSheet found ..)).trans (congrArg some ?_)
  cases kind <;> simp [Sheet.grow, Sheet.bounds, LineKind.grown]

theorem contains_line_iff (found : g.sheets[sheet]? = some s) (positive : 1 ≤ line)
    (within : line ≤ kind.count s.bounds) (first : 1 ≤ s.rows ∧ 1 ≤ s.cols) (x : CellId) :
    (kind.line sheet line s.bounds).contains x = true ↔ kind.On sheet line x ∧ g.Has x := by
  rw [LineKind.contains_line positive within first.1 first.2, LineKind.On, has_iff]
  refine Iff.trans (and_congr_right fun here => and_congr_right fun _ => ?_) and_assoc.symm
  rw [here, bounds?_of_sheet found]
  simp only [Option.some.injEq, exists_eq_left']
  tauto

theorem reaches_behind (later : line < kind.count s.bounds) (first : 1 ≤ s.rows ∧ 1 ≤ s.cols) :
    kind.Reaches (line + 1) s.bounds.rows s.bounds.cols := by
  cases kind with
  | row => exact ⟨later, first.2⟩
  | column => exact ⟨later, first.1⟩

/-- What comes after a line of a small sheet is laid out on words from this line on. -/
theorem fitsAt_behind (small : s.rows < signedLimit ∧ s.cols < signedLimit)
    (later : line < kind.count s.bounds) (first : 1 ≤ s.rows ∧ 1 ≤ s.cols) :
    (behind kind sheet line s.bounds).FitsAt (.single (kind.head sheet line)) := by
  obtain ⟨top, left, bottom, right⟩ := LineKind.corners_tail sheet (reaches_behind later first)
  have head := kind.one_le_head sheet (Nat.le_add_left 1 line)
  have below : (kind.head sheet line).row < signedLimit ∧ (kind.head sheet line).col < signedLimit := by
    have one : 1 < signedLimit := by decide
    cases kind with
    | row => exact ⟨Nat.lt_trans later small.1, one⟩
    | column => exact ⟨one, Nat.lt_trans later small.2⟩
  refine fitsAt_of_lt ?_ ?_ ⟨max_lt below.1 below.1, max_lt below.2 below.2⟩
  · rwa [behind, top, left]
  · rwa [behind, bottom, right]

/-- A range that moves by a line is laid out on words if there is a word for one line more. -/
theorem fitsAt_advance (kind : LineKind) {r : BoundRange} (rows : r.bottom + 2 ≤ coordinateLimit)
    (cols : r.right + 2 ≤ coordinateLimit) : r.FitsAt (kind.advance r) := by
  obtain ⟨-, ⟨top, left⟩, bottom, right⟩ := kind.corners_advance r
  have above := r.top_le_bottom
  have before := r.left_le_right
  rw [Range.FitsAt, Range.rowCount, Range.colCount, top, left, bottom, right]
  cases kind <;> dsimp only [LineKind.next] <;> omega

/-- The cells after a line are those that the grid has there. -/
theorem contains_behind_iff (later : line < kind.count s.bounds) (first : 1 ≤ s.rows ∧ 1 ≤ s.cols)
    (found : g.sheets[sheet]? = some s) (x : CellId) :
    (behind kind sheet line s.bounds).contains x = true ↔
      kind.OnOrAfter sheet (line + 1) x ∧ g.Has x := by
  rw [behind, LineKind.contains_tail (Nat.le_add_left 1 line) (reaches_behind later first),
    LineKind.OnOrAfter, has_iff]
  refine Iff.trans (and_congr_right fun here => and_congr_right fun _ => ?_) and_assoc.symm
  rw [here, bounds?_of_sheet found]
  simp only [Option.some.injEq, exists_eq_left']
  tauto

end

/-! ### Formulas inside sheets -/

/-- The grid has every cell with a formula. -/
def Contained (g : Grid) : Prop := ∀ x, g.formula x ≠ "" → g.Has x

theorem contained_growSheet (h : g.Contained) (index rows cols : Nat) :
    (g.growSheet index rows cols).Contained :=
  fun x written => (h x written).growSheet index rows cols

/-- A sheet of the grid reaches every cell with a formula, and contains it if `counted` holds. -/
def ContainedIf (g : Grid) (counted : Prop) : Prop := ∀ x, g.formula x ≠ "" → g.HasIf counted x

theorem Contained.containedIf (h : g.Contained) (counted : Prop) : g.ContainedIf counted :=
  fun x written => (h x written).hasIf

theorem ContainedIf.contained {counted : Prop} (h : g.ContainedIf counted) (counts : counted) :
    g.Contained :=
  fun x written => (h x written).has counts

theorem formula_ne_of_content {x : CellId} (content : (g.cell x).isBlank = false) :
    g.formula x ≠ "" := by
  intro empty
  have blank : (g.cell x).isBlank = true := by
    rw [Cell.isBlank, show (g.cell x).formula = "" from empty]
    rfl
  exact Bool.eq_false_iff.mp content blank

theorem Contained.isBlank (h : g.Contained) {x : CellId} (outside : ¬ g.Has x) :
    (g.cell x).isBlank = true := by
  by_contra content
  exact outside (h x (formula_ne_of_content (Bool.eq_false_iff.mpr content)))

section

variable {counted : Prop} {kind : LineKind} {sheet line : Nat} {s : Sheet}

theorem ContainedIf.extent_le (h : g.ContainedIf counted) (found : g.sheets[sheet]? = some s)
    (within : line ≤ kind.count s.bounds) (first : 1 ≤ s.rows ∧ 1 ≤ s.cols) :
    (g.extent sheet (kind.head sheet line).row (kind.head sheet line).col).1 ≤ s.rows ∧
      (g.extent sheet (kind.head sheet line).row (kind.head sheet line).col).2 ≤ s.cols := by
  rw [extent_le_iff]
  refine ⟨?_, ?_⟩
  · cases kind with
    | row => exact ⟨within, first.2⟩
    | column => exact ⟨first.1, within⟩
  · intro x here _ _ content
    obtain ⟨⟨s', found', row, col⟩, -⟩ := h x (formula_ne_of_content content)
    rw [here, found] at found'
    cases found'
    exact ⟨row, col⟩

/-- From a line that may be the one after the last, content reaches no further than the sheet with one
line more. -/
theorem ContainedIf.extent_le_grown (h : g.ContainedIf counted) (found : g.sheets[sheet]? = some s)
    (within : line ≤ kind.count s.bounds + 1) (first : 1 ≤ s.rows ∧ 1 ≤ s.cols) :
    (g.extent sheet (kind.head sheet line).row (kind.head sheet line).col).1 ≤
        (kind.grown s.bounds).rows ∧
      (g.extent sheet (kind.head sheet line).row (kind.head sheet line).col).2 ≤
        (kind.grown s.bounds).cols := by
  have grown : (g.lengthen kind sheet s.bounds).ContainedIf counted :=
    fun x written => (h x written).growSheet ..
  obtain ⟨longer, found', bounds⟩ := Option.map_eq_some_iff.mp (bounds_lengthen kind found)
  have size : longer.rows = (kind.grown s.bounds).rows ∧ longer.cols = (kind.grown s.bounds).cols := by
    rw [← bounds]
    exact ⟨rfl, rfl⟩
  rw [← size.1, ← size.2]
  refine grown.extent_le found' ?_ ?_
  · rw [bounds]
    cases kind <;> exact within
  · rw [size.1, size.2]
    cases kind
    · exact ⟨Nat.le_add_left _ _, first.2⟩
    · exact ⟨first.1, Nat.le_add_left _ _⟩

/-- What comes after a line that is inserted into a small sheet is laid out on words. -/
theorem ContainedIf.fitsAt_advance_reach (h : g.ContainedIf counted)
    (found : g.sheets[sheet]? = some s) (within : line ≤ kind.count s.bounds + 1)
    (first : 1 ≤ s.rows ∧ 1 ≤ s.cols) (small : s.rows < signedLimit ∧ s.cols < signedLimit) :
    (g.reach kind sheet line).FitsAt (kind.advance (g.reach kind sheet line)) := by
  have double : coordinateLimit = 2 * signedLimit := by decide
  have many : 2 < signedLimit := by decide
  have last := h.extent_le_grown found within first
  have grown : (kind.grown s.bounds).rows ≤ signedLimit ∧ (kind.grown s.bounds).cols ≤ signedLimit := by
    cases kind
    · exact ⟨small.1, Nat.le_of_lt small.2⟩
    · exact ⟨Nat.le_of_lt small.1, small.2⟩
  obtain ⟨-, -, bottom, right⟩ := LineKind.corners_tail sheet (g.reaches_extent kind sheet line)
  refine fitsAt_advance kind ?_ ?_ <;> rw [reach] <;> omega

/-- If there are words for two lines more, an insertion moves by a line what comes after its line. -/
theorem ContainedIf.editLine_insert (h : g.ContainedIf counted) (found : g.sheets[sheet]? = some s)
    {edit : LineEdit} (inserts : edit ≠ .delete) {id : CellId} (here : id.sheet = sheet)
    (within : kind.index id ≤ kind.count s.bounds) (first : 1 ≤ s.rows ∧ 1 ≤ s.cols)
    (room : kind.count s.bounds + 2 < coordinateLimit) :
    g.editLine kind edit id s.bounds =
      let source := g.reach kind sheet (edit.inserted kind id)
      (g.lengthen kind sheet s.bounds).cutBlock source (kind.advance source) := by
  subst here
  obtain ⟨rows, cols⟩ := h.extent_le_grown found (edit.inserted_le within) first
  refine Grid.editLine_insert kind inserts id (Nat.lt_of_succ_lt room)
    (Nat.lt_of_le_of_lt (Nat.succ_le_succ ?_) room)
  cases kind
  · exact rows
  · exact cols

/-- The grid has all cells from a line on, as far as there is content. -/
theorem ContainedIf.hasIf_of_contains_reach (h : g.ContainedIf counted)
    (found : g.sheets[sheet]? = some s) (positive : counted → 1 ≤ line)
    (within : line ≤ kind.count s.bounds) (first : 1 ≤ s.rows ∧ 1 ≤ s.cols) {x : CellId}
    (reached : (g.reach kind sheet line).contains x = true) : g.HasIf counted x := by
  obtain ⟨rows, cols⟩ := h.extent_le found within first
  obtain ⟨top, left, last, end_⟩ := LineKind.corners_tail sheet (g.reaches_extent kind sheet line)
  rw [Range.contains_iff, reach, LineKind.sheet_tail, top, left, last, end_] at reached
  obtain ⟨rfl, above, bottom, before, right⟩ := reached
  refine ⟨⟨s, found, bottom.trans rows, right.trans cols⟩, fun counts => ?_⟩
  obtain ⟨row, col⟩ := kind.one_le_head x.sheet (positive counts)
  exact ⟨row.trans above, col.trans before⟩

end

/-- The second grid has the same sheets, and its formulas lie inside them if those of the first do. -/
structure Confined (g g' : Grid) : Prop where
  sheets : g'.sheets = g.sheets
  contained : g.Contained → g'.Contained

theorem Confined.refl : Confined g g := ⟨rfl, id⟩

theorem Confined.trans (h : Confined g g') (h' : Confined g' g'') : Confined g g'' :=
  ⟨h'.sheets.trans h.sheets, fun contained => h'.contained (h.contained contained)⟩

theorem Confined.foldl {α : Type} {f : Grid → α → Grid} (items : List α)
    (step : ∀ item ∈ items, ∀ g', g'.sheets = g.sheets → Confined g' (f g' item)) :
    Confined g (items.foldl f g) :=
  List.foldlRecOn items f .refl fun g' before item mem =>
    before.trans (step item mem g' before.sheets)

theorem resolved_empty (sheet : Nat) {c : Cell} (h : c.formula = "") :
    (g.resolved sheet c).formula = "" := by
  rw [resolved]
  split
  · exact h
  · have none : reads sheet g.directory c.formula = .ok ∅ := by
      rw [reads, h, mentions_empty]
      rfl
    rw [none]
    exact h

theorem confined_store {id : CellId} {c : Cell} (empty : c.formula = "") :
    Confined g (g.store id c) where
  sheets := rfl
  contained h x written := by
    rw [formula_store] at written
    split at written
    · exact absurd (resolved_empty id.sheet empty) written
    · exact h x written

theorem confined_clearAll (ids : List CellId) : Confined g (g.clearAll ids).1 :=
  Confined.foldl ids fun _ _ _ _ => confined_store rfl

end Grid

end Spreadsheet
