import Mathlib.Data.List.Nodup
import Spreadsheet.Regression.LeastSquares

/-!
# The layout of a regression

Two tables stand side by side to the right of the cell that asks for a regression.  The first begins
with a row of headings and is one row longer than the fitted values; the second has a row for each
coefficient.  The lower edge and the right edge of the sheet cut both.  What is beyond the last row or
column that a word can name comes round to the first ones, so the layout is known where no cell of the
tables is so far away.

* `Regression.Laid`: the cells of the two tables with their values.
* `Regression.mem_block_iff_exists`: the block has these, with words as coordinates.
* `Regression.map_cell_block`: its cells are two strips, each of two columns.
* `Regression.FitsBeside`: the coordinates of the tables are words.
* `Regression.laidOut`: what is filled in a sheet of a given size.
-/

namespace Spreadsheet

def CellId.beside (origin : CellId) (row col : Nat) : CellId :=
  ⟨origin.sheet, origin.row + row, origin.col + col⟩

def CellId.wrapped (x : CellId) : CellId := ⟨x.sheet, wrap x.row, wrap x.col⟩

def CellId.strip (origin : CellId) (col height : Nat) : List CellId :=
  (List.range height).flatMap fun row => [origin.beside row col, origin.beside row (col + 1)]

namespace CellId

variable {origin x : CellId} {col height : Nat}

theorem beside_inj {row row' col' : Nat} :
    origin.beside row col = origin.beside row' col' ↔ row = row' ∧ col = col' := by
  simp [beside]

theorem mem_strip_iff : x ∈ origin.strip col height ↔
    ∃ row < height, x = origin.beside row col ∨ x = origin.beside row (col + 1) := by
  simp [strip]

theorem wrapped_of_lt (fits : x.row < coordinateLimit ∧ x.col < coordinateLimit) : x.wrapped = x := by
  rw [wrapped, wrap_of_lt fits.1, wrap_of_lt fits.2]

theorem nodup_strip (origin : CellId) (col height : Nat) : (origin.strip col height).Nodup := by
  rw [strip, List.nodup_flatMap]
  refine ⟨fun row _ => by simp [beside], List.nodup_range.imp ?_⟩
  intro row row' differ
  simp [Function.onFun, beside_inj, differ.symm]

theorem disjoint_strip {col' height' : Nat} (apart : col + 1 < col') :
    (origin.strip col height).Disjoint (origin.strip col' height') := by
  intro x mem mem'
  obtain ⟨row, -, here⟩ := mem_strip_iff.mp mem
  obtain ⟨row', -, there⟩ := mem_strip_iff.mp mem'
  rcases here with rfl | rfl <;> rcases there with same | same <;>
    obtain ⟨-, same⟩ := beside_inj.mp same <;> omega

end CellId

namespace Regression

variable {origin : CellId} {r : Regression} {o : Output}

/-- What stands in the two tables of a regression, before anything is cut off. -/
inductive Laid (origin : CellId) (r : Regression) : Output → Prop
  | fittedHeading : Laid origin r ⟨origin.beside 0 1, .text "y hat"⟩
  | residualHeading : Laid origin r ⟨origin.beside 0 2, .text "residuals"⟩
  | fitted {i : Nat} {fitted residual : Float} : r.fitted[i]? = some fitted →
      r.residuals[i]? = some residual → Laid origin r ⟨origin.beside (i + 1) 1, .number fitted⟩
  | residual {i : Nat} {fitted residual : Float} : r.fitted[i]? = some fitted →
      r.residuals[i]? = some residual → Laid origin r ⟨origin.beside (i + 1) 2, .number residual⟩
  | label {j : Nat} {beta : Float} : r.coefficients[j]? = some beta →
      Laid origin r ⟨origin.beside j 3, .text ("beta " ++ toString (j + 1))⟩
  | coefficient {j : Nat} {beta : Float} : r.coefficients[j]? = some beta →
      Laid origin r ⟨origin.beside j 4, .number beta⟩

/-- **The block** consists of the two tables, with words as coordinates. -/
theorem mem_block_iff_exists :
    o ∈ r.block origin ↔ ∃ o', Laid origin r o' ∧ o = ⟨o'.cell.wrapped, o'.value⟩ := by
  simp only [block, List.mem_append, List.mem_flatMap, List.mem_cons, List.not_mem_nil, or_false,
    Prod.exists, List.mem_zipIdx_iff_getElem?, List.getElem?_zip_eq_some]
  constructor
  · rintro (((rfl | rfl) | ⟨x, y, i, ⟨hx, hy⟩, rfl | rfl⟩) | ⟨beta, j, found, rfl | rfl⟩)
    · exact ⟨_, .fittedHeading, rfl⟩
    · exact ⟨_, .residualHeading, rfl⟩
    · exact ⟨_, .fitted hx hy, rfl⟩
    · exact ⟨_, .residual hx hy, rfl⟩
    · exact ⟨_, .label found, rfl⟩
    · exact ⟨_, .coefficient found, rfl⟩
  · rintro ⟨_, _ | _ | ⟨hx, hy⟩ | ⟨hx, hy⟩ | found | found, rfl⟩
    · exact Or.inl (Or.inl (Or.inl rfl))
    · exact Or.inl (Or.inl (Or.inr rfl))
    · exact Or.inl (Or.inr ⟨_, _, _, ⟨hx, hy⟩, Or.inl rfl⟩)
    · exact Or.inl (Or.inr ⟨_, _, _, ⟨hx, hy⟩, Or.inr rfl⟩)
    · exact Or.inr ⟨_, _, found, Or.inl rfl⟩
    · exact Or.inr ⟨_, _, found, Or.inr rfl⟩

/-- Where the rows of a table stand depends on their numbers only. -/
theorem map_cell_flatMap_zipIdx {α : Type} (items : List α) (place : α × Nat → List Output)
    (cells : Nat → List CellId) (placed : ∀ item, (place item).map Output.cell = cells item.2) :
    (items.zipIdx.flatMap place).map Output.cell = (List.range items.length).flatMap cells := by
  rw [List.map_flatMap, List.range_eq_range', ← List.zipIdx_map_snd, List.flatMap_map]
  exact congrArg (fun f => List.flatMap f _) (funext placed)

/-- **The cells of the block** are two strips of two columns, with words as coordinates. -/
theorem map_cell_block (origin : CellId) (r : Regression) : (r.block origin).map Output.cell =
    (origin.strip 1 ((r.fitted.zip r.residuals).length + 1) ++
      origin.strip 3 r.coefficients.length).map CellId.wrapped := by
  rw [block, List.map_append, List.map_append,
    map_cell_flatMap_zipIdx (r.fitted.zip r.residuals) _
      (fun i => [(origin.beside (i + 1) 1).wrapped, (origin.beside (i + 1) 2).wrapped]) fun _ => rfl,
    map_cell_flatMap_zipIdx r.coefficients _
      (fun i => [(origin.beside i 3).wrapped, (origin.beside i 4).wrapped]) fun _ => rfl,
    CellId.strip, CellId.strip, List.range_succ_eq_map, List.flatMap_cons, List.flatMap_map,
    List.map_append, List.map_append, List.map_flatMap, List.map_flatMap]
  rfl

/-- What is filled lies on the sheet of the origin, as far as this goes. -/
theorem inside_of_mem_outputs {bounds : Bounds} (mem : o ∈ r.outputs origin bounds) :
    o.cell.sheet = origin.sheet ∧ o.cell.row ≤ bounds.rows ∧ o.cell.col ≤ bounds.cols := by
  rw [outputs, List.mem_filter, Bool.and_eq_true, decide_eq_true_eq, decide_eq_true_eq,
    mem_block_iff_exists] at mem
  obtain ⟨⟨o', laid, rfl⟩, inside⟩ := mem
  refine ⟨?_, inside⟩
  cases laid <;> rfl

/-! ### Tables with words as coordinates -/

/-- The last row and the last column of the tables beside a cell are words. -/
def FitsBeside (r : Regression) (origin : CellId) : Prop :=
  origin.col + 4 < coordinateLimit ∧ origin.row + r.fitted.length < coordinateLimit ∧
    origin.row + r.coefficients.length ≤ coordinateLimit

instance (r : Regression) (origin : CellId) : Decidable (r.FitsBeside origin) :=
  inferInstanceAs (Decidable (_ ∧ _ ∧ _))

section

variable (fits : r.FitsBeside origin)

include fits

theorem FitsBeside.wrapped_beside {row col : Nat}
    (below : row ≤ r.fitted.length ∨ row < r.coefficients.length) (right : col ≤ 4) :
    (origin.beside row col).wrapped = origin.beside row col := by
  obtain ⟨cols, rows, rows'⟩ := fits
  exact CellId.wrapped_of_lt ⟨by dsimp only [CellId.beside]; omega,
    Nat.lt_of_le_of_lt (Nat.add_le_add_left right _) cols⟩

theorem Laid.wrapped_cell (h : Laid origin r o) : o.cell.wrapped = o.cell := by
  cases h with
  | fittedHeading | residualHeading => exact fits.wrapped_beside (Or.inl (Nat.zero_le _)) (by decide)
  | fitted found | residual found =>
    exact fits.wrapped_beside (Or.inl (List.getElem?_eq_some_iff.mp found).1) (by decide)
  | label found | coefficient found =>
    exact fits.wrapped_beside (Or.inr (List.getElem?_eq_some_iff.mp found).1) (by decide)

theorem mem_block_iff : o ∈ r.block origin ↔ Laid origin r o := by
  rw [mem_block_iff_exists]
  constructor
  · rintro ⟨o', laid, rfl⟩
    rwa [laid.wrapped_cell fits]
  · intro laid
    exact ⟨o, laid, by rw [laid.wrapped_cell fits]⟩

theorem nodup_map_cell_block : ((r.block origin).map Output.cell).Nodup := by
  have zipped : (r.fitted.zip r.residuals).length ≤ r.fitted.length := by
    rw [List.length_zip]
    exact Nat.min_le_left _ _
  have words : ∀ x ∈ origin.strip 1 ((r.fitted.zip r.residuals).length + 1) ++
      origin.strip 3 r.coefficients.length, x.wrapped = id x := by
    intro x mem
    rcases List.mem_append.mp mem with mem | mem
    · obtain ⟨row, below, rfl | rfl⟩ := CellId.mem_strip_iff.mp mem <;>
        exact fits.wrapped_beside (Or.inl (by omega)) (by decide)
    · obtain ⟨row, below, rfl | rfl⟩ := CellId.mem_strip_iff.mp mem <;>
        exact fits.wrapped_beside (Or.inr below) (by decide)
  rw [map_cell_block, List.map_congr_left words, List.map_id, List.nodup_append']
  exact ⟨origin.nodup_strip _ _, origin.nodup_strip _ _, CellId.disjoint_strip (by decide)⟩

end

/-- The outputs are those of a regression beside the cell `origin` of a sheet of the given size. -/
structure LaidOut (r : Regression) (origin : CellId) (bounds : Bounds) (outputs : List Output) :
    Prop where
  /-- No cell is filled twice. -/
  nodup : (outputs.map Output.cell).Nodup
  /-- The tables are filled in as far as they lie inside the sheet. -/
  mem_iff : ∀ o, o ∈ outputs ↔
    Laid origin r o ∧ o.cell.row ≤ bounds.rows ∧ o.cell.col ≤ bounds.cols
  ne_origin : ∀ o ∈ outputs, o.cell ≠ origin
  /-- All cells lie on the sheet, in no row above the origin and to the right of it. -/
  inside : ∀ o ∈ outputs, o.cell.sheet = origin.sheet ∧
    (origin.row ≤ o.cell.row ∧ o.cell.row ≤ bounds.rows) ∧
    origin.col < o.cell.col ∧ o.cell.col ≤ bounds.cols

theorem Laid.beyond (h : Laid origin r o) :
    o.cell.sheet = origin.sheet ∧ origin.row ≤ o.cell.row ∧ origin.col < o.cell.col := by
  cases h <;> simp [CellId.beside]

/-- **What a regression fills** in a sheet of a given size, if the coordinates are words. -/
theorem laidOut (fits : r.FitsBeside origin) (bounds : Bounds) :
    r.LaidOut origin bounds (r.outputs origin bounds) := by
  have mem_iff : ∀ o, o ∈ r.outputs origin bounds ↔
      Laid origin r o ∧ o.cell.row ≤ bounds.rows ∧ o.cell.col ≤ bounds.cols := by
    intro o
    rw [outputs, List.mem_filter, mem_block_iff fits, Bool.and_eq_true, decide_eq_true_eq,
      decide_eq_true_eq]
  constructor
  case nodup => exact (nodup_map_cell_block fits).sublist (List.filter_sublist.map _)
  case mem_iff => exact mem_iff
  case ne_origin =>
    rintro o mem rfl
    exact absurd ((mem_iff o).mp mem).1.beyond.2.2 (Nat.lt_irrefl _)
  case inside =>
    intro o mem
    obtain ⟨laid, row, col⟩ := (mem_iff o).mp mem
    obtain ⟨sheet, below, right⟩ := laid.beyond
    exact ⟨sheet, ⟨below, row⟩, right, col⟩

end Regression

end Spreadsheet
