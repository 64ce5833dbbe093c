import Spreadsheet.Proofs.Formula.Carrying
import Spreadsheet.Proofs.Formula.Recopying

/-!
# Formulas that stay in their row

A formula that refers to cells of its own row only, without pinning the row, refers to the same columns
of another row when it is copied there.

* `Mention.onRow row m`: the reference or range on another row.
* `StaysInRow block x directory formula`: a formula in the cell `x` refers to cells of its row in a
  block.
* `Mention.follows_onRow`: a reference follows its row.
* `StaysInRow.redirects`: so do all references of a copy.
-/

namespace Spreadsheet

namespace Formula

def Mention.corners : Mention → List WrittenReference
  | cell r => [r]
  | range r => [r.start, r.stop]

def Mention.onRow (row : Nat) : Mention → Mention
  | cell r => .cell { r with row }
  | range r => .range ⟨{ r.start with row }, { r.stop with row }⟩

def StaysInRow (block : BoundRange) (x : CellId) (directory : Directory) (formula : String) : Prop :=
  ∀ m ∈ mentions formula, m.1.sheet? x.sheet directory = some block.sheet ∧
    ∀ r ∈ m.1.corners, r.row = x.row ∧ r.fixedRow = false ∧ block.left ≤ r.col ∧ r.col ≤ block.right

instance (block : BoundRange) (x : CellId) (directory : Directory) (formula : String) :
    Decidable (StaysInRow block x directory formula) :=
  inferInstanceAs (Decidable (∀ m ∈ mentions formula, _ ∧ ∀ r ∈ m.1.corners, _))

theorem shift_onRow {r : WrittenReference} {d : Distance} {bounds : Bounds} {row : Nat}
    (small : bounds.rows < signedLimit ∧ bounds.cols < signedLimit)
    (rows : d.rows = (row : Int) - r.row) (cols : d.cols = 0) (free : r.fixedRow = false)
    (before : r.row ≤ bounds.rows) (after : 1 ≤ row ∧ row ≤ bounds.rows)
    (col : 1 ≤ r.col ∧ r.col ≤ bounds.cols) :
    (r.shift d true bounds).1 = { r with row } := by
  by_cases still : d = Distance.zero
  · have same : r.row = row := by
      rw [still, show Distance.zero.rows = 0 from rfl] at rows
      omega
    rw [still, Reference.shift_zero, ← same]
  · have first : (clampAxis (movedAxis r.row d.rows (true && r.fixedRow)) bounds.rows).1 = row := by
      rw [free]
      exact clampAxis_moved rfl after.1 after.2 (by omega) small.1 (by omega)
    -- A pinned column stays, and any other one moves by nothing.
    have pinned : movedAxis r.col d.cols (true && r.fixedCol) = movedAxis r.col 0 false := by
      rw [cols, movedAxis_zero, movedAxis_zero]
    have second : (clampAxis (movedAxis r.col d.cols (true && r.fixedCol)) bounds.cols).1 =
        r.col := by
      rw [pinned]
      exact clampAxis_moved rfl col.1 col.2 (by omega) small.2 (by omega)
    rw [Reference.shift_of_moves still, first, second]

theorem cells_of_row {r : BoundRange} {row : Nat} (start : r.start.row = row)
    (stop : r.stop.row = row) :
    r.cells = (List.range' r.left r.colCount).map fun col => ⟨r.sheet, row, col⟩ := by
  have top : r.top = row := by rw [Range.top, start, stop, Nat.min_self]
  have rowCount : r.rowCount = 1 := by
    rw [Range.rowCount, top, Range.bottom, start, stop, Nat.max_self, Nat.sub_self]
  rw [Range.cells, top, rowCount, List.map_eq_flatMap]
  rfl

theorem Mention.shifted_eq_onRow {m : Mention} {d : Distance} {bounds : Bounds} {row : Nat}
    (corners : ∀ r ∈ m.corners, (r.shift d true bounds).1 = { r with row }) :
    m.shifted d bounds = m.onRow row := by
  cases m with
  | cell r => exact congrArg Mention.cell (corners r List.mem_cons_self)
  | range r =>
    have start := corners r.start List.mem_cons_self
    have stop := corners r.stop (List.mem_cons_of_mem _ List.mem_cons_self)
    rw [shifted, start, stop, onRow]

theorem Mention.fits_onRow {m : Mention} (fits : m.Fits) {row : Nat} (below : row < coordinateLimit) :
    (m.onRow row).Fits := by
  cases m with
  | cell r => exact ⟨below, fits.2⟩
  | range r => exact ⟨⟨below, fits.1.2⟩, ⟨below, fits.2.2⟩⟩

theorem Mention.sheet?_onRow (m : Mention) (row home : Nat) (directory : Directory) :
    (m.onRow row).sheet? home directory = m.sheet? home directory := by
  cases m <;> rfl

/-- **A reference follows its row.** -/
theorem Mention.follows_onRow {m : Mention} {move : CellId → CellId} {sheet old new : Nat}
    (onOld : ∀ r ∈ m.corners, r.row = old)
    (moves : ∀ y ∈ m.cellsOn sheet, move y = ⟨sheet, new, y.col⟩) :
    m.Follows move sheet (m.onRow new) sheet := by
  cases m with
  | cell r =>
    refine ⟨rfl, ?_⟩
    have single := moves _ List.mem_cons_self
    exact congrArg (fun y => [y]) single.symm
  | range r =>
    have start := onOld r.start List.mem_cons_self
    have stop := onOld r.stop (List.mem_cons_of_mem _ List.mem_cons_self)
    have before := cells_of_row (r := r.onSheet sheet) start stop
    have after := cells_of_row (r := (⟨{ r.start with row := new }, { r.stop with row := new }⟩ :
      WrittenRange).onSheet sheet) rfl rfl
    constructor
    · refine congrArg some (Prod.ext ?_ rfl)
      show Range.height _ = Range.height _
      simp only [Range.height, Range.rowCount, Range.top, Range.bottom, start, stop, Nat.min_self,
        Nat.max_self, Nat.sub_self]
    · rw [onRow, cellsOn, cellsOn, after, before, List.map_map]
      refine List.map_congr_left fun col hcol => ?_
      refine (moves ⟨sheet, old, col⟩ ?_).symm
      rw [cellsOn, before]
      exact List.mem_map_of_mem hcol

section

variable {block : BoundRange} {directory : Directory} {bounds : Bounds} {x x' : CellId}
  {formula : String} (stays : StaysInRow block x directory formula)
  (hx : block.contains x = true)

include stays hx

theorem StaysInRow.of_reads {y : CellId} (reads : Reads x.sheet directory formula y) :
    block.contains y = true ∧ y.row = x.row := by
  obtain ⟨⟨m, text⟩, hm, sheet, found, hy⟩ := reads
  obtain ⟨onSheet, corners⟩ := stays _ hm
  dsimp only at found corners hy
  rw [found] at onSheet
  obtain rfl : sheet = block.sheet := Option.some.inj onSheet
  rw [Mention.mem_cellsOn] at hy
  obtain ⟨here, covered⟩ := hy
  have place : y.row = x.row ∧ block.left ≤ y.col ∧ y.col ≤ block.right := by
    cases m with
    | cell r =>
      obtain ⟨row, -, first, last⟩ := corners r List.mem_cons_self
      rw [covered.1, covered.2]
      exact ⟨row, first, last⟩
    | range r =>
      obtain ⟨row, -, first, last⟩ := corners r.start List.mem_cons_self
      obtain ⟨row', -, first', last'⟩ :=
        corners r.stop (List.mem_cons_of_mem _ List.mem_cons_self)
      obtain ⟨top, bottom, left, right⟩ := covered
      rw [Range.top] at top
      rw [Range.bottom] at bottom
      rw [Range.left] at left
      rw [Range.right] at right
      omega
  rw [Range.contains_iff] at hx ⊢
  omega

variable (agree : ∀ name index, directory.index? name = some index →
    directory.name? index = some name) (proper : directory.Proper)
  (known : directory.bounds? block.sheet = some bounds)
  (small : bounds.rows < signedLimit ∧ bounds.cols < signedLimit)
  (first : 1 ≤ block.top ∧ 1 ≤ block.left)
  (last : block.bottom ≤ bounds.rows ∧ block.right ≤ bounds.cols)
  (hx' : block.contains x' = true) (column : x'.col = x.col)

include agree known small first last hx' column

theorem StaysInRow.replacement_eq {m : Mention × List Char} (hm : m ∈ mentions formula) :
    replacement (relocated? x x' false directory) m.1 = m.1.onRow x'.row := by
  obtain ⟨onSheet, corners⟩ := stays m hm
  rw [Range.contains_iff] at hx hx'
  have within : x'.sheet = x.sheet := hx'.1.trans hx.1.symm
  have distance : distanceOf x x' false = ⟨(x'.row : Int) - x.row, (x'.col : Int) - x.col⟩ := by
    rw [distanceOf_copy, between_of_lt (by omega) (by omega)]
  rw [replacement_relocated?_within agree within distance (sound_of_mem_mentions hm) onSheet known]
  refine Mention.shifted_eq_onRow fun r hr => ?_
  obtain ⟨row, free, left, right⟩ := corners r hr
  exact shift_onRow small (by rw [row]) (by rw [column, Int.sub_self]) free (by omega) (by omega)
    (by omega)

include proper

/-- **The references of a copy in another row follow their row.** -/
theorem StaysInRow.redirects {move : CellId → CellId}
    (moves : ∀ y, block.contains y = true → y.row = x.row → move y = ⟨block.sheet, x'.row, y.col⟩) :
    Redirects move (relocated? x x' false directory) x.sheet x'.sheet directory formula where
  writable _ hm _ isNew := writable_relocated? isNew proper (sound_of_mem_mentions hm).positive
  fits m hm new isNew := by
    have same := stays.replacement_eq hx agree known small first last hx' column hm
    rw [replacement, isNew, Option.getD_some] at same
    rw [Range.contains_iff] at hx'
    have below : signedLimit ≤ coordinateLimit := by decide
    rw [same]
    exact Mention.fits_onRow (sound_of_mem_mentions hm).fits (by omega)
  follows m hm := by
    obtain ⟨onSheet, corners⟩ := stays m hm
    have same := stays.replacement_eq hx agree known small first last hx' column hm
    rw [same]
    refine ⟨block.sheet, block.sheet, onSheet, ?_, ?_⟩
    · rw [Range.contains_iff] at hx hx'
      rw [Mention.sheet?_onRow, hx'.1.trans hx.1.symm]
      exact onSheet
    · refine Mention.follows_onRow (fun r hr => (corners r hr).1) fun y hy => ?_
      obtain ⟨inside, row⟩ := stays.of_reads hx ⟨m, hm, block.sheet, onSheet, hy⟩
      exact moves y inside row

end

end Formula

end Spreadsheet
