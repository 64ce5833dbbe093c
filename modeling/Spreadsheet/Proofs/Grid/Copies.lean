import Spreadsheet.Proofs.Grid.Containment
import Spreadsheet.Proofs.Grid.Literals

/-!
# Copies of blocks

A block is copied as if all cells of the destination were written at once: each takes what the cell from
which it is copied has held before the edit, wherever the blocks lie and whether or not they overlap.

* `ColumnMajor`: one cell stands before another, column by column.
* `Grid.mapping_eq_of_smaller`: a block with fewer cells is repeated over the whole destination.
* `Grid.mapping_eq_of_larger`: any other block is laid out once, as far as the sheet goes.
* `Grid.stored g sheet formula`: the formula that a cell gets in which one is written.
* `Grid.formula_writeEach`: the formulas after a list of writes and a pass.
* `Grid.mapping_and_formula_of_copy`: which formulas the cells have after a copy.
-/

namespace Spreadsheet

open Range

/-! ### Tilings, cell by cell -/

/-- The cell stands in an earlier column, or above the other one in the same column. -/
def ColumnMajor (x y : CellId) : Prop := x.col < y.col ∨ x.col = y.col ∧ x.row < y.row

theorem Range.columnMajor_cells (r : BoundRange) : r.cells.Pairwise ColumnMajor := by
  rw [cells, List.pairwise_flatMap]
  constructor
  · intro col _
    rw [List.pairwise_map]
    exact (List.pairwise_lt_range' 1).imp fun below => Or.inr ⟨rfl, below⟩
  · refine (List.pairwise_lt_range' 1).imp fun before x hx y hy => ?_
    obtain ⟨row, -, rfl⟩ := List.mem_map.mp hx
    obtain ⟨row', -, rfl⟩ := List.mem_map.mp hy
    exact Or.inl before

instance : Std.Irrefl ColumnMajor where
  irrefl x := by simp [ColumnMajor]

/-- What is added up to the first number that is no word comes round to 0. -/
theorem wrap_add_sub_self {n : Nat} (fits : n ≤ coordinateLimit) :
    wrap (n + (coordinateLimit - n)) = 0 := by
  rw [Nat.add_sub_cancel' fits, wrap, Nat.mod_self]

/-- The cell of the source that stands in a cell of the destination when the source is repeated. -/
def Range.repeated (source destination : BoundRange) (x : CellId) : CellId :=
  ⟨source.sheet, source.top + (x.row - destination.top) % source.rowCount,
    source.left + (x.col - destination.left) % source.colCount⟩

/-- Is the cell inside a sheet of this size, as far as the last row and column go? -/
def Bounds.reaches (bounds : Bounds) (x : CellId) : Bool :=
  x.row ≤ bounds.rows && x.col ≤ bounds.cols

/-- The cells over which a block is laid out. -/
def Range.covered (source destination : BoundRange) : BoundRange :=
  if source.area < destination.area then destination else image source destination

theorem Range.area_eq_length_cells {r : BoundRange} (few : r.cells.length < coordinateLimit) :
    r.area = r.cells.length := by
  rw [length_cells] at few ⊢
  have rows : r.rowCount < coordinateLimit :=
    Nat.lt_of_le_of_lt (Nat.le_mul_of_pos_right _ (Nat.succ_pos _)) few
  have cols : r.colCount < coordinateLimit :=
    Nat.lt_of_le_of_lt (Nat.le_mul_of_pos_left _ (Nat.succ_pos _)) few
  rw [area, height, width, wrap_of_lt rows, wrap_of_lt cols, wrap_of_lt few]

section

variable {source destination : BoundRange} {bounds : Bounds}

theorem image_rowCount : (image source destination).rowCount = source.rowCount := by
  rw [rowCount, rowCount, image_top, image_bottom]
  omega

theorem image_colCount : (image source destination).colCount = source.colCount := by
  rw [colCount, colCount, image_left, image_right]
  omega

/-- The cells of an area that are in the sheet, each with the cell that is repeated there, if the rows
and the columns of the area are words. -/
theorem flatMap_filterMap_repeated (bounds : Bounds) {source area : BoundRange} (destination : BoundRange)
    (counts : source.height = source.rowCount ∧ source.width = source.colCount)
    (words : area.bottom < coordinateLimit ∧ area.right < coordinateLimit)
    (sheet : area.sheet = destination.sheet)
    (top : area.top = destination.top) (left : area.left = destination.left) :
    ((List.range area.colCount).flatMap fun i => (List.range area.rowCount).filterMap fun j =>
      let row := wrap (destination.top + j)
      let col := wrap (destination.left + i)
      if row ≤ bounds.rows ∧ col ≤ bounds.cols then
        some ((⟨destination.sheet, row, col⟩ : CellId),
          (⟨source.sheet, source.top + j % source.height, source.left + i % source.width⟩ : CellId))
      else none) =
    (area.cells.filter bounds.reaches).map fun x => (x, repeated source destination x) := by
  have above := area.top_le_bottom
  have beside := area.left_le_right
  rw [cells, List.range'_eq_map_range, List.range'_eq_map_range, sheet, top, left,
    List.flatMap_map, List.filter_flatMap, List.map_flatMap]
  refine List.flatMap_congr fun i hi => ?_
  rw [List.map_map, List.filter_map, List.map_map, ← List.filterMap_eq_map, List.filterMap_filter]
  refine List.filterMap_congr fun j hj => ?_
  rw [List.mem_range, colCount] at hi
  rw [List.mem_range, rowCount] at hj
  have row : wrap (destination.top + j) = destination.top + j := wrap_of_lt (by omega)
  have col : wrap (destination.left + i) = destination.left + i := wrap_of_lt (by omega)
  simp only [Function.comp_apply, Bounds.reaches, Bool.and_eq_true, decide_eq_true_eq, repeated,
    Nat.add_sub_cancel_left, row, col, counts]

/-- **A tiling lists the cells that are covered**, as far as they are in the sheet, if the rows and the
columns are words. -/
theorem tiling_eq (bounds : Bounds)
    (counts : source.height = source.rowCount ∧ source.width = source.colCount)
    (words : (covered source destination).bottom < coordinateLimit ∧
      (covered source destination).right < coordinateLimit) :
    tiling bounds source destination =
      ((covered source destination).cells.filter bounds.reaches).map fun x =>
        (x, repeated source destination x) := by
  rw [tiling]
  rw [covered] at words ⊢
  by_cases smaller : source.area < destination.area
  · simp only [smaller, if_true] at words ⊢
    exact flatMap_filterMap_repeated bounds destination counts words rfl rfl rfl
  · simp only [smaller, if_false] at words ⊢
    have laidOut := flatMap_filterMap_repeated bounds destination counts words rfl image_top image_left
    rw [image_rowCount, image_colCount] at laidOut
    exact laidOut

theorem cells_image : (image source destination).cells =
    source.cells.map (place source destination) := by
  have rows := @range'_moved source.top source.top destination.top (Nat.le_refl _) source.rowCount
  have cols := @range'_moved source.left source.left destination.left (Nat.le_refl _) source.colCount
  rw [Nat.sub_self, Nat.add_zero] at rows cols
  rw [cells, cells, image_top, image_left, image_rowCount, image_colCount, rows, cols, List.flatMap_map,
    List.map_flatMap]
  simp only [List.map_map]
  rfl

theorem repeated_place {x : CellId} (inside : source.contains x = true) :
    repeated source destination (place source destination x) = x := by
  rw [contains_iff] at inside
  obtain ⟨sheet, top, bottom, left, right⟩ := inside
  obtain ⟨s, row, col⟩ := x
  rw [repeated, place, Nat.add_sub_cancel_left, Nat.add_sub_cancel_left,
    Nat.mod_eq_of_lt (by rw [rowCount]; omega), Nat.mod_eq_of_lt (by rw [colCount]; omega)]
  simp only [CellId.mk.injEq] at *
  omega

end

namespace Grid

variable {g g' : Grid} {source destination : BoundRange} {x id : CellId}

section

variable (words : g.SizedBelow coordinateLimit) (acceptedSource : g.checkRange source = .ok ())
  (accepted : g.checkRange destination = .ok ())

include words acceptedSource

theorem counts_of_checkRange :
    source.height = source.rowCount ∧ source.width = source.colCount :=
  counts_of_lt (one_le_of_checkRange acceptedSource) (words.of_checkRange acceptedSource)

theorem mem_source_of_mem_mapping {target : CellId} (mem : (target, id) ∈ g.mapping source destination) :
    id ∈ source.cells := by
  obtain ⟨height, width⟩ := counts_of_checkRange words acceptedSource
  rw [mapping] at mem
  split at mem
  · exact absurd mem List.not_mem_nil
  · rw [tiling] at mem
    obtain ⟨i, -, mem⟩ := List.mem_flatMap.mp mem
    obtain ⟨j, -, mem⟩ := List.mem_filterMap.mp mem
    rw [Option.ite_none_right_eq_some] at mem
    obtain ⟨-, same⟩ := mem
    cases same
    rw [height, width, mem_cells_iff, contains_iff]
    have rows := Nat.mod_lt j (show 0 < source.rowCount from Nat.succ_pos _)
    have cols := Nat.mod_lt i (show 0 < source.colCount from Nat.succ_pos _)
    have above := source.top_le_bottom
    have beside := source.left_le_right
    rw [rowCount] at rows ⊢
    rw [colCount] at cols ⊢
    exact ⟨rfl, by dsimp only; omega⟩

include accepted

/-- **The pairs of a copy** are the cells that are covered and that the grid has, if the rows and the
columns that are covered are words. -/
theorem mapping_eq (fits : source.area < destination.area ∨ source.FitsAt destination) :
    g.mapping source destination =
      ((covered source destination).cells.filter fun x => g.Has x).map fun x =>
        (x, repeated source destination x) := by
  obtain ⟨top, left⟩ := one_le_of_checkRange accepted
  have corner : (covered source destination).sheet = destination.sheet ∧
      (covered source destination).top = destination.top ∧
        (covered source destination).left = destination.left := by
    rw [covered]
    split
    · exact ⟨rfl, rfl, rfl⟩
    · exact ⟨rfl, image_top, image_left⟩
  have last : (covered source destination).bottom < coordinateLimit ∧
      (covered source destination).right < coordinateLimit := by
    rw [covered]
    split
    · exact words.of_checkRange accepted
    · rename_i larger
      obtain ⟨⟨-, rows⟩, -, cols⟩ := fits.resolve_left larger
      rw [rowCount] at rows
      rw [colCount] at cols
      rw [image_bottom, image_right]
      omega
  have here : ∀ x ∈ (covered source destination).cells, x.sheet = destination.sheet ∧
      1 ≤ x.row ∧ 1 ≤ x.col := by
    intro x mem
    rw [mem_cells_iff, contains_iff, corner.1, corner.2.1, corner.2.2] at mem
    exact ⟨mem.1, Nat.le_trans top mem.2.1, Nat.le_trans left mem.2.2.2.1⟩
  obtain ⟨s, found, -⟩ := checkRange_eq_ok_iff.mp accepted
  rw [mapping, found]
  dsimp only
  rw [tiling_eq _ (counts_of_checkRange words acceptedSource) last, List.filter_congr]
  intro x mem
  obtain ⟨sheet, row, col⟩ := here x mem
  rw [Bool.eq_iff_iff, Bounds.reaches, Bool.and_eq_true, decide_eq_true_eq, decide_eq_true_eq,
    decide_eq_true_eq, has_iff, sheet, bounds?_of_sheet found]
  simp [row, col]

theorem columnMajor_mapping (fits : source.area < destination.area ∨ source.FitsAt destination) :
    ((g.mapping source destination).map Prod.fst).Pairwise ColumnMajor := by
  rw [mapping_eq words acceptedSource accepted fits, List.map_map]
  have listed := ((covered source destination).columnMajor_cells).filter fun x => decide (g.Has x)
  rwa [show Prod.fst ∘ (fun x => (x, repeated source destination x)) = id from rfl, List.map_id]

/-- A block with fewer cells than the destination is repeated over the whole destination. -/
theorem mapping_eq_of_smaller (smaller : source.area < destination.area) :
    g.mapping source destination =
      destination.cells.map fun x => (x, repeated source destination x) := by
  have all : destination.cells.filter (fun x => g.Has x) = destination.cells := by
    refine List.filter_eq_self.mpr fun x mem => decide_eq_true ?_
    exact has_of_checkRange accepted ((mem_cells_iff _ _).mp mem)
  rw [mapping_eq words acceptedSource accepted (Or.inl smaller), covered, if_pos smaller, all]

/-- Any other block is laid out once, as far as the sheet goes, if the rows and the columns on which it
is laid out are words. -/
theorem mapping_eq_of_larger (larger : destination.area ≤ source.area)
    (fits : source.FitsAt destination) :
    g.mapping source destination =
      (source.cells.filter fun x => g.Has (place source destination x)).map fun x =>
        (place source destination x, x) := by
  rw [mapping_eq words acceptedSource accepted (Or.inr fits), covered,
    if_neg (Nat.not_lt.mpr larger), cells_image, List.filter_map, List.map_map]
  refine List.map_congr_left fun x mem => ?_
  have inside := (mem_cells_iff _ _).mp (List.mem_of_mem_filter mem)
  exact congrArg (Prod.mk _) (repeated_place inside)

omit acceptedSource in
/-- If only cells that the grid has are written, then the rows and the columns are words: the first row
and the first column that are none would come round to 0. -/
theorem fitsAt_of_forall_has (larger : destination.area ≤ source.area)
    (all : ∀ pair ∈ g.mapping source destination, g.Has pair.1) : source.FitsAt destination := by
  obtain ⟨bottom, right⟩ := words.of_checkRange accepted
  obtain ⟨bounds, known, -, -, lastRow, lastCol⟩ := bounds_of_checkRange accepted
  obtain ⟨s, found, rfl⟩ := Option.map_eq_some_iff.mp known
  have above := destination.top_le_bottom
  have beside := destination.left_le_right
  have written : ∀ j < source.rowCount, ∀ i < source.colCount, wrap (destination.top + j) ≤ s.rows →
      wrap (destination.left + i) ≤ s.cols →
        0 < wrap (destination.top + j) ∧ 0 < wrap (destination.left + i) := by
    intro j hj i hi row col
    have mem : ((⟨destination.sheet, wrap (destination.top + j), wrap (destination.left + i)⟩ : CellId),
        (⟨source.sheet, source.top + j % source.height, source.left + i % source.width⟩ : CellId)) ∈
          g.mapping source destination := by
      rw [mapping, found]
      simp only [tiling, if_neg (Nat.not_lt.mpr larger)]
      refine List.mem_flatMap.mpr ⟨i, List.mem_range.mpr hi, ?_⟩
      exact List.mem_filterMap.mpr ⟨j, List.mem_range.mpr hj, if_pos ⟨row, col⟩⟩
    obtain ⟨_, -, low, -, left, -⟩ := (has_iff _).mp (all _ mem)
    exact ⟨low, left⟩
  have first : wrap destination.top ≤ s.rows ∧ wrap destination.left ≤ s.cols :=
    ⟨(wrap_le _).trans (above.trans lastRow), (wrap_le _).trans (beside.trans lastCol)⟩
  refine ⟨⟨bottom, ?_⟩, right, ?_⟩
  · by_contra beyond
    have round := wrap_add_sub_self (show destination.top ≤ coordinateLimit by omega)
    have low := (written (coordinateLimit - destination.top) (by omega) 0 (Nat.succ_pos _)
      (round ▸ Nat.zero_le _) first.2).1
    exact Nat.ne_of_gt low round
  · by_contra beyond
    have round := wrap_add_sub_self (show destination.left ≤ coordinateLimit by omega)
    have low := (written 0 (Nat.succ_pos _) (coordinateLimit - destination.left) (by omega) first.1
      (round ▸ Nat.zero_le _)).2
    exact Nat.ne_of_gt low round

end

/-! ### What is written -/

/-- The formula that a cell of a sheet gets in which one is written: the formula itself, or a text
that names the first of its references that cannot be found. -/
def stored (g : Grid) (sheet : Nat) (formula : String) : String :=
  match Formula.reads sheet g.directory formula with
  | .ok _ => formula
  | .error token => Text.quote ("#REF: " ++ token)

theorem formula_resolved (g : Grid) (sheet : Nat) (formula : String) :
    (g.resolved sheet (.ofFormula formula)).formula = g.stored sheet formula := by
  have notFilling : ¬ (Cell.ofFormula formula).isFilling = true := Bool.false_ne_true
  rw [resolved, stored, if_neg notFilling, show (Cell.ofFormula formula).formula = formula from rfl]
  cases Formula.reads sheet g.directory formula <;> rfl

theorem stored_literal (g : Grid) (sheet : Nat) (v : CellValue) :
    g.stored sheet v.literal = v.literal := by
  rw [← formula_resolved, resolved_literal]
  rfl

theorem formula_recompute (g : Grid) (hooks : Hooks) (x : CellId) :
    (g.recompute hooks).1.formula x = g.formula x :=
  (Pass.tells_settle hooks g).formula x

theorem eq_of_mem_writes {writes : List (CellId × String)}
    (unique : ∀ w ∈ writes, ∀ w' ∈ writes, w'.1 = w.1 → w' = w) {w : CellId × String}
    (mem : w ∈ writes) (c : Cell)
    (written : (w.1, c) ∈ writes.map fun w => (w.1, Cell.ofFormula w.2)) : c = .ofFormula w.2 := by
  obtain ⟨w', other, same⟩ := List.mem_map.mp written
  obtain ⟨here, rfl⟩ := Prod.mk.inj same
  rw [unique w mem w' other here]

def writeEach (g : Grid) (writes : List (CellId × String)) : Grid :=
  g.storeAll (writes.map fun w => (w.1, .ofFormula w.2))

theorem rewrites_writeEach (g : Grid) (writes : List (CellId × String)) :
    Rewrites (fun _ => True) g (g.writeEach writes) :=
  g.rewrites_storeAll _

theorem waiting_writeEach (g : Grid) (writes : List (CellId × String)) :
    (g.writeEach writes).waiting = g.waiting :=
  (g.storeAll_fields _).2.2

/-- **Simultaneous writes.**  If no cell is written in two ways, all formulas that are written are there
after the pass, and all other cells keep theirs. -/
theorem formula_writeEach {writes : List (CellId × String)}
    (unique : ∀ w ∈ writes, ∀ w' ∈ writes, w'.1 = w.1 → w' = w) (hooks : Hooks) :
    let g' := ((g.writeEach writes).recompute hooks).1
    (∀ w ∈ writes, g'.formula w.1 = g.stored w.1.sheet w.2) ∧
      ∀ x, x ∉ writes.map Prod.fst → g'.formula x = g.formula x := by
  intro g'
  have formula : ∀ x, g'.formula x = (g.writeEach writes).formula x := formula_recompute _ hooks
  constructor
  · rintro ⟨x, f⟩ mem
    have listed := List.mem_map_of_mem (f := fun w : CellId × String => (w.1, Cell.ofFormula w.2)) mem
    have bare := bare_storeAll_of_mem (g := g) listed (eq_of_mem_writes unique mem)
    have same : ((g.writeEach writes).cell x).bare.formula =
        (g.resolved x.sheet (.ofFormula f)).bare.formula := congrArg Cell.formula bare
    rw [formula, ← formula_resolved]
    exact same
  · intro x other
    rw [formula]
    refine (storeAll_of_not_mem fun c mem => other ?_).1
    obtain ⟨w, written, same⟩ := List.mem_map.mp mem
    cases same
    exact List.mem_map_of_mem written

def copyWrites (g : Grid) (source destination : BoundRange) : List (CellId × String) :=
  (g.mapping source destination).map fun pair => (pair.1,
    Formula.relocate pair.2 pair.1 false g.directory (g.formula pair.2))

def valueWrites (g : Grid) (source destination : BoundRange) : List (CellId × String) :=
  (g.mapping source destination).map fun pair => (pair.1, (g.value pair.2).literal)

theorem write_copy (words : g.SizedBelow coordinateLimit)
    (acceptedSource : g.checkRange source = .ok ())
    (accepted : g.checkRange destination = .ok ())
    (free : ∀ x ∈ source.cells, (g.cell x).isFilling = false) :
    ∃ written, g.write (.copy source destination) =
      .ok ((g.writeEach (g.copyWrites source destination), written), false) := by
  have written : (g.copyBlock source destination).1 = g.writeEach (g.copyWrites source destination) := by
    rw [copyBlock, updateAll_eq, writeEach, copyWrites, List.map_map, List.map_map]
    · rfl
    · intro u hu
      obtain ⟨pair, mem, rfl⟩ := List.mem_map.mp hu
      exact free pair.2 (mem_source_of_mem_mapping words acceptedSource mem)
  exact ⟨_, written ▸ (Writes.copy _ _ acceptedSource accepted).write_eq⟩

theorem write_copyValues_of_accepted (acceptedSource : g.checkRange source = .ok ())
    (accepted : g.checkRange destination = .ok ()) :
    ∃ written, g.write (.copyValues source destination) =
      .ok ((g.writeEach (g.valueWrites source destination), written), false) := by
  have wrote := (Writes.copyValues _ _ acceptedSource accepted).write_eq
  have same : (g.copyBlockValues source destination).1 =
      g.writeEach (g.valueWrites source destination) := by
    rw [writeEach, valueWrites, List.map_map]
    exact write_copyValues wrote
  exact ⟨_, same ▸ wrote⟩

/-- No cell is written in two ways if one formula is written for each pair of a tiling. -/
theorem mapping_unique (nodup : ((g.mapping source destination).map Prod.fst).Nodup)
    (f : CellId × CellId → String) :
    ∀ w ∈ (g.mapping source destination).map (fun pair => (pair.1, f pair)),
      ∀ w' ∈ (g.mapping source destination).map (fun pair => (pair.1, f pair)),
        w'.1 = w.1 → w' = w := by
  intro w hw w' hw' same
  refine List.inj_on_of_nodup_map ?_ hw' hw same
  rwa [List.map_map]

end Grid

end Spreadsheet
