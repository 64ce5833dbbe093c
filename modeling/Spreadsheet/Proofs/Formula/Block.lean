import Spreadsheet.Formula.Relocation
import Spreadsheet.Grid.Tiling
import Spreadsheet.Proofs.Formula.Reading

/-!
# Blocks that are laid out

A block that is not smaller than its destination is laid out once, from the first cell of the
destination.

* `Range.place source destination x`: where the cell `x` of the block comes to lie.
* `Range.image source destination`: the block of these places.
* `mem_tiling_iff`: what the tiling pairs.
* `shiftOnto?_of_contains`: a reference into the block goes where its cell goes, as far as signed 64-bit
  integers can say so.
-/

namespace Spreadsheet

namespace Range

variable (source destination : BoundRange)

/-- Where a cell of a block comes to lie when the block is laid out. -/
def place (x : CellId) : CellId :=
  ⟨destination.sheet, destination.top + (x.row - source.top),
    destination.left + (x.col - source.left)⟩

/-- Where a reference into a block comes to point when the block is laid out. -/
def placed (r : BoundReference) : BoundReference :=
  { r with
    sheet := destination.sheet
    row := (place source destination r.cell).row
    col := (place source destination r.cell).col }

/-- The block of cells on which a block is laid out. -/
def image : BoundRange :=
  block destination.sheet destination.top destination.left
    (destination.top + (source.bottom - source.top))
    (destination.left + (source.right - source.left))

variable {source destination}

theorem contains_iff (r : BoundRange) (x : CellId) :
    r.contains x = true ↔ x.sheet = r.sheet ∧ r.top ≤ x.row ∧ x.row ≤ r.bottom ∧
      r.left ≤ x.col ∧ x.col ≤ r.right := by
  simp only [contains, Bool.and_eq_true, beq_iff_eq, decide_eq_true_eq, and_assoc]

theorem mem_cells_iff (r : BoundRange) (x : CellId) : x ∈ r.cells ↔ r.contains x = true := by
  rw [Formula.mem_range_cells, contains_iff]

theorem start_mem_cells (r : BoundRange) : r.start.cell ∈ r.cells := by
  rw [Formula.mem_range_cells]
  exact ⟨rfl, Nat.min_le_left _ _, Nat.le_max_left _ _, Nat.min_le_left _ _, Nat.le_max_left _ _⟩

theorem stop_mem_cells {r : BoundRange} (sheets : r.stop.sheet = r.start.sheet) :
    r.stop.cell ∈ r.cells := by
  rw [Formula.mem_range_cells]
  exact ⟨sheets, Nat.min_le_right _ _, Nat.le_max_right _ _, Nat.min_le_right _ _,
    Nat.le_max_right _ _⟩

theorem image_top : (image source destination).top = destination.top :=
  Nat.min_eq_left (Nat.le_add_right _ _)

theorem image_bottom : (image source destination).bottom =
    destination.top + (source.bottom - source.top) := Nat.max_eq_right (Nat.le_add_right _ _)

theorem image_left : (image source destination).left = destination.left :=
  Nat.min_eq_left (Nat.le_add_right _ _)

theorem image_right : (image source destination).right =
    destination.left + (source.right - source.left) := Nat.max_eq_right (Nat.le_add_right _ _)

theorem contains_image_iff (x : CellId) :
    (image source destination).contains x = true ↔
      x.sheet = destination.sheet ∧ destination.top ≤ x.row ∧
        x.row ≤ destination.top + (source.bottom - source.top) ∧ destination.left ≤ x.col ∧
          x.col ≤ destination.left + (source.right - source.left) := by
  rw [contains_iff, image_top, image_bottom, image_left, image_right]
  rfl

theorem contains_image_place {x : CellId} (inside : source.contains x = true) :
    (image source destination).contains (place source destination x) = true := by
  rw [contains_iff] at inside
  obtain ⟨-, top, bottom, left, right⟩ := inside
  rw [contains_image_iff]
  refine ⟨rfl, ?_⟩
  dsimp only [place]
  omega

theorem top_le_bottom {S : Type} (r : Range S) : r.top ≤ r.bottom :=
  Nat.le_trans (Nat.min_le_left _ _) (Nat.le_max_left _ _)

theorem left_le_right {S : Type} (r : Range S) : r.left ≤ r.right :=
  Nat.le_trans (Nat.min_le_left _ _) (Nat.le_max_left _ _)

theorem length_cells (r : BoundRange) : r.cells.length = r.rowCount * r.colCount := by
  simp [cells, List.map_const', Nat.mul_comm]

theorem counts_of_lt {S : Type} {r : Range S} (first : 0 < r.top ∧ 0 < r.left)
    (last : r.bottom < coordinateLimit ∧ r.right < coordinateLimit) :
    r.height = r.rowCount ∧ r.width = r.colCount := by
  have rows := r.top_le_bottom
  have cols := r.left_le_right
  constructor
  · exact wrap_of_lt (by rw [rowCount]; omega)
  · exact wrap_of_lt (by rw [colCount]; omega)

theorem exists_place {x : CellId} (inside : (image source destination).contains x = true) :
    ∃ z, source.contains z = true ∧ place source destination z = x := by
  have rows := source.top_le_bottom
  have cols := source.left_le_right
  rw [contains_image_iff] at inside
  obtain ⟨sheet, top, bottom, left, right⟩ := inside
  refine ⟨⟨source.sheet, source.top + (x.row - destination.top),
    source.left + (x.col - destination.left)⟩, ?_, ?_⟩
  · rw [contains_iff]
    simp only [true_and]
    omega
  · obtain ⟨s, row, col⟩ := x
    simp only [place, CellId.mk.injEq] at *
    omega

theorem place_injective {x y : CellId} (hx : source.contains x = true)
    (hy : source.contains y = true)
    (same : place source destination x = place source destination y) : x = y := by
  rw [contains_iff] at hx hy
  obtain ⟨s, row, col⟩ := x
  obtain ⟨s', row', col'⟩ := y
  simp only [place, CellId.mk.injEq] at *
  omega

theorem range'_moved {first start offset : Nat} (h : first ≤ start) (n : Nat) :
    List.range' (offset + (start - first)) n =
      (List.range' start n).map fun i => offset + (i - first) := by
  refine List.ext_getElem (by simp) fun i _ _ => ?_
  simp only [List.getElem_range', List.getElem_map]
  omega

theorem placed_range (destination : BoundRange) {r : BoundRange}
    (start : source.contains r.start.cell = true) (stop : source.contains r.stop.cell = true) :
    let new : BoundRange := ⟨placed source destination r.start, placed source destination r.stop⟩
    new.height = r.height ∧ new.width = r.width ∧
      new.cells = r.cells.map (place source destination) := by
  intro new
  rw [contains_iff] at start stop
  have above : source.top ≤ r.top := Nat.le_min.mpr ⟨start.2.1, stop.2.1⟩
  have beside : source.left ≤ r.left := Nat.le_min.mpr ⟨start.2.2.2.1, stop.2.2.2.1⟩
  have top : new.top = destination.top + (r.top - source.top) := by
    simp only [new, Range.top, placed, place, Reference.cell] at *
    omega
  have left : new.left = destination.left + (r.left - source.left) := by
    simp only [new, Range.left, placed, place, Reference.cell] at *
    omega
  have rows : new.rowCount = r.rowCount := by
    simp only [new, rowCount, Range.top, Range.bottom, placed, place, Reference.cell] at *
    omega
  have cols : new.colCount = r.colCount := by
    simp only [new, colCount, Range.left, Range.right, placed, place, Reference.cell] at *
    omega
  refine ⟨congrArg wrap rows, congrArg wrap cols, ?_⟩
  rw [cells, cells, rows, cols, top, left, range'_moved beside, range'_moved above,
    List.flatMap_map, List.map_flatMap]
  simp only [List.map_map]
  rfl

end Range

/-! ### Tilings -/

section

variable {source destination : BoundRange} {bounds : Bounds}

open Range

/-- A position in a block is one modulo the length of the block as a word. -/
theorem mod_wrap {i n : Nat} (inside : i < n) (fits : n ≤ coordinateLimit) : i % wrap n = i := by
  rcases Nat.lt_or_eq_of_le fits with fits | rfl
  · rw [wrap_of_lt fits, Nat.mod_eq_of_lt inside]
  · rw [wrap, Nat.mod_self, Nat.mod_zero]

/-- **A tiling of a block that is not smaller** pairs each cell of the block with its place. -/
theorem mem_tiling_iff (larger : destination.area ≤ source.area)
    (rows : destination.top + (source.bottom - source.top) ≤ bounds.rows)
    (cols : destination.left + (source.right - source.left) ≤ bounds.cols)
    (sized : bounds.rows < coordinateLimit ∧ bounds.cols < coordinateLimit) (target id : CellId) :
    (target, id) ∈ tiling bounds source destination ↔
      source.contains id = true ∧ target = place source destination id := by
  have above := source.top_le_bottom
  have beside := source.left_le_right
  have row : ∀ j < source.rowCount, j % source.height = j ∧
      wrap (destination.top + j) = destination.top + j := by
    intro j hj
    rw [rowCount] at hj
    exact ⟨mod_wrap (by rwa [rowCount]) (by rw [rowCount]; omega), wrap_of_lt (by omega)⟩
  have col : ∀ i < source.colCount, i % source.width = i ∧
      wrap (destination.left + i) = destination.left + i := by
    intro i hi
    rw [colCount] at hi
    exact ⟨mod_wrap (by rwa [colCount]) (by rw [colCount]; omega), wrap_of_lt (by omega)⟩
  rw [tiling, if_neg (by simpa using larger), contains_iff]
  simp only [List.mem_flatMap, List.mem_filterMap, List.mem_range, Option.ite_none_right_eq_some,
    Option.some.injEq, Prod.mk.injEq]
  constructor
  · rintro ⟨i, hi, j, hj, -, rfl, rfl⟩
    rw [(row j hj).1, (row j hj).2, (col i hi).1, (col i hi).2]
    rw [colCount] at hi
    rw [rowCount] at hj
    simp only [place, CellId.mk.injEq, true_and]
    omega
  · rintro ⟨⟨sheet, top, bottom, left, right⟩, rfl⟩
    have hi : id.col - source.left < source.colCount := by rw [colCount]; omega
    have hj : id.row - source.top < source.rowCount := by rw [rowCount]; omega
    refine ⟨_, hi, _, hj, ?_⟩
    rw [(row _ hj).1, (row _ hj).2, (col _ hi).1, (col _ hi).2]
    refine ⟨by omega, rfl, ?_⟩
    obtain ⟨s, row, col⟩ := id
    simp only [CellId.mk.injEq] at *
    omega

end

/-! ### Signed coordinates -/

/-- Below this bound a coordinate is the same as a signed 64-bit integer. -/
def signedLimit : Nat := UInt64.size / 2

theorem bmod_of_lt_half {n m : Nat} (h : n < m / 2) : Int.bmod n m = n := by
  have small : (n : Int) % m = n := by
    rw [← Int.natCast_emod, Nat.mod_eq_of_lt (by omega)]
  rw [Int.bmod_eq_emod_of_lt]
  · exact small
  · omega

theorem signed_of_lt {n : Nat} (h : n < signedLimit) : signed n = n := bmod_of_lt_half h

theorem bmod_of_signed {a : Int} (low : -(signedLimit : Int) ≤ a) (high : a < signedLimit) :
    a.bmod UInt64.size = a := by
  have double : UInt64.size = 2 * signedLimit := by decide
  exact Int.bmod_eq_of_le_mul_two (by omega) (by omega)

theorem between_of_lt {x y : CellId} (rows : x.row < signedLimit ∧ y.row < signedLimit)
    (cols : x.col < signedLimit ∧ y.col < signedLimit) :
    Distance.between x y = ⟨(y.row : Int) - x.row, (y.col : Int) - x.col⟩ := by
  rw [Distance.between, signed_of_lt rows.1, signed_of_lt rows.2, signed_of_lt cols.1,
    signed_of_lt cols.2, bmod_of_signed (by omega) (by omega), bmod_of_signed (by omega) (by omega)]

def axisMove (distance : Int) (stays : Bool) : Int := if stays then 0 else distance

/-- The sum on an axis is a signed 64-bit integer. -/
def SumFits (coordinate : Nat) (distance : Int) (stays : Bool) : Prop :=
  -(signedLimit : Int) ≤ signed coordinate + axisMove distance stays ∧
    signed coordinate + axisMove distance stays < signedLimit

instance (coordinate : Nat) (distance : Int) (stays : Bool) :
    Decidable (SumFits coordinate distance stays) := inferInstanceAs (Decidable (_ ∧ _))

theorem movedAxis_of_sumFits {coordinate : Nat} {distance : Int} {stays : Bool}
    (fits : SumFits coordinate distance stays) :
    movedAxis coordinate distance stays = signed coordinate + axisMove distance stays := by
  obtain ⟨low, high⟩ := fits
  rw [axisMove] at low high ⊢
  rw [movedAxis]
  split
  · rw [Int.add_zero]
  · rename_i moves
    rw [if_neg moves] at low high
    exact bmod_of_signed low high

theorem clampAxis_moved {coordinate new bound : Nat} {distance : Int} {stays : Bool}
    (moves : stays = false) (positive : 1 ≤ new) (fits : new ≤ bound)
    (exact : (new : Int) = coordinate + distance) (small : bound < signedLimit)
    (small' : coordinate < signedLimit) :
    (clampAxis (movedAxis coordinate distance stays) bound).1 = new := by
  have least : max bound 1 = bound := by omega
  subst moves
  rw [movedAxis, if_neg (by decide), signed_of_lt small', ← exact,
    bmod_of_signed (by omega) (by omega), clampAxis, least, if_neg (by omega), signed_of_lt small,
    if_neg (by omega)]
  exact Int.toNat_natCast _

theorem shift_of_ne {r : BoundReference} {d : Distance} {honorFixed : Bool} {bounds : Bounds}
    {row col : Nat} (moves : d ≠ Distance.zero)
    (rows : (clampAxis (movedAxis r.row d.rows (honorFixed && r.fixedRow)) bounds.rows).1 = row)
    (cols : (clampAxis (movedAxis r.col d.cols (honorFixed && r.fixedCol)) bounds.cols).1 = col) :
    (r.shift d honorFixed bounds).1 = { r with row, col } := by
  rw [Reference.shift, if_neg moves, ← rows, ← cols]

section

variable {source destination : BoundRange} {bounds : Bounds} {directory : Directory}

open Range

/-- **A reference into the block goes where its cell goes.** -/
theorem shiftOnto?_of_contains (known : directory.bounds? destination.sheet = some bounds)
    (rows : destination.top + (source.bottom - source.top) ≤ bounds.rows)
    (cols : destination.left + (source.right - source.left) ≤ bounds.cols)
    (positive : 1 ≤ destination.top ∧ 1 ≤ destination.left)
    (small : bounds.rows < signedLimit ∧ bounds.cols < signedLimit)
    (small' : source.bottom < signedLimit ∧ source.right < signedLimit)
    {id : CellId} (inside : source.contains id = true) {r : BoundReference}
    (within : source.contains r.cell = true) :
    Formula.shiftOnto? r (Distance.between id (place source destination id)) false
      destination.sheet directory =
        some (placed source destination r) := by
  rw [contains_iff] at inside within
  obtain ⟨-, top, bottom, left, right⟩ := inside
  obtain ⟨-, top', bottom', left', right'⟩ := within
  obtain ⟨row, col⟩ : (place source destination id).row ≤ bounds.rows ∧
      (place source destination id).col ≤ bounds.cols := by
    dsimp only [place]
    omega
  obtain ⟨rows', cols'⟩ : destination.top + (r.row - source.top) ≤ bounds.rows ∧
      destination.left + (r.col - source.left) ≤ bounds.cols := by
    dsimp only [Reference.cell] at *
    omega
  rw [between_of_lt ⟨Nat.lt_of_le_of_lt bottom small'.1, Nat.lt_of_le_of_lt row small.1⟩
    ⟨Nat.lt_of_le_of_lt right small'.2, Nat.lt_of_le_of_lt col small.2⟩, Formula.shiftOnto?, known]
  refine congrArg some ?_
  dsimp only [placed, place, Reference.cell] at *
  by_cases still : (⟨((destination.top + (id.row - source.top) : Nat) : Int) - id.row,
      ((destination.left + (id.col - source.left) : Nat) : Int) - id.col⟩ : Distance) =
        Distance.zero
  · rw [Reference.shift, if_pos still]
    rw [Distance.zero, Distance.mk.injEq] at still
    rw [Reference.onSheet, Reference.mk.injEq]
    refine ⟨rfl, ?_, ?_, rfl, rfl⟩ <;> dsimp only <;> omega
  · rw [shift_of_ne still
      (clampAxis_moved (Bool.false_and _) (by omega) rows' (by dsimp only; omega) small.1 (by omega))
      (clampAxis_moved (Bool.false_and _) (by omega) cols' (by dsimp only; omega) small.2 (by omega))]
    rfl

end

end Spreadsheet
