import Mathlib.Tactic.ByContra
import Mathlib.Tactic.Tauto
import Spreadsheet.Proofs.Formula.Block
import Spreadsheet.Proofs.Grid.Acceptance

/-!
# Lines of a sheet

Rows and columns are treated alike.  An edit of a line is a cut of all that comes after it.

* `LineKind.index`, `LineKind.next`: the line of a cell, and the cell one line further.
* `LineKind.OnOrAfter`: the cell is on a line of a sheet or comes after it.
* `LineKind.tail`: the cells from a line on, up to a last row and column.
* `LineKind.place_advance` and `LineKind.next_place_head`: where a tail goes when it is moved by a line.
* `Grid.extent_le_iff`: how far content reaches.
* `Grid.reach g kind sheet line`: the cells from a line on, as far as there is content.
* `Grid.lengthen`, `Grid.cleared` and `Grid.deleted`: the grids that an edit of a line goes through.
* `Grid.editLine_insert` and `Grid.editLine_delete`: edits of lines as cuts.
* `Grid.editLine_induction`: what cuts keep, edits of lines keep.
-/

namespace Spreadsheet

open Range

namespace LineKind

/-- The line on which a cell lies. -/
def index : LineKind → CellId → Nat
  | row, x => x.row
  | column, x => x.col

/-- The cell one line further. -/
def next : LineKind → CellId → CellId
  | row, x => { x with row := x.row + 1 }
  | column, x => { x with col := x.col + 1 }

/-- The cell is on a line of a sheet. -/
def On (kind : LineKind) (sheet line : Nat) (x : CellId) : Prop :=
  x.sheet = sheet ∧ kind.index x = line

/-- The cell is on a line of a sheet or comes after it. -/
def OnOrAfter (kind : LineKind) (sheet line : Nat) (x : CellId) : Prop :=
  x.sheet = sheet ∧ line ≤ kind.index x

instance (kind : LineKind) (sheet line : Nat) (x : CellId) : Decidable (kind.On sheet line x) :=
  inferInstanceAs (Decidable (_ ∧ _))

instance (kind : LineKind) (sheet line : Nat) (x : CellId) : Decidable (kind.OnOrAfter sheet line x) :=
  inferInstanceAs (Decidable (_ ∧ _))

/-- The number of lines of a sheet. -/
def count : LineKind → Bounds → Nat
  | row, size => size.rows
  | column, size => size.cols

def grown : LineKind → Bounds → Bounds
  | row, size => { size with rows := size.rows + 1 }
  | column, size => { size with cols := size.cols + 1 }

def head : LineKind → Nat → Nat → CellId
  | row, sheet, line => ⟨sheet, line, 1⟩
  | column, sheet, line => ⟨sheet, 1, line⟩

def tail (kind : LineKind) (sheet line bottom right : Nat) : BoundRange :=
  ⟨(kind.head sheet line).reference, { sheet, row := bottom, col := right }⟩

/-- The cells of a line of a sheet. -/
def line : LineKind → Nat → Nat → Bounds → BoundRange
  | row, sheet, number, size => row.tail sheet number number size.cols
  | column, sheet, number, size => column.tail sheet number size.rows number

/-- The range one line further. -/
def advance : LineKind → BoundRange → BoundRange
  | row, r => ⟨{ r.start with row := r.start.row + 1 }, { r.stop with row := r.stop.row + 1 }⟩
  | column, r => ⟨{ r.start with col := r.start.col + 1 }, { r.stop with col := r.stop.col + 1 }⟩

variable {kind : LineKind} {sheet line bottom right : Nat}

theorem sheet_next (kind : LineKind) (x : CellId) : (kind.next x).sheet = x.sheet := by
  cases kind <;> rfl

theorem index_next (kind : LineKind) (x : CellId) : kind.index (kind.next x) = kind.index x + 1 := by
  cases kind <;> rfl

theorem onOrAfter_next {x : CellId} :
    kind.OnOrAfter sheet (line + 1) (kind.next x) ↔ kind.OnOrAfter sheet line x := by
  rw [OnOrAfter, OnOrAfter, sheet_next, index_next, Nat.add_le_add_iff_right]

theorem OnOrAfter.of_succ {x : CellId} (h : kind.OnOrAfter sheet (line + 1) x) :
    kind.OnOrAfter sheet line x :=
  ⟨h.1, Nat.le_of_succ_le h.2⟩

theorem next_injective (kind : LineKind) : Function.Injective kind.next := by
  rintro ⟨s, r, c⟩ ⟨s', r', c'⟩ same
  cases kind <;> simp_all [next]

theorem one_le_head (kind : LineKind) (sheet : Nat) (positive : 1 ≤ line) :
    1 ≤ (kind.head sheet line).row ∧ 1 ≤ (kind.head sheet line).col := by
  cases kind with
  | row => exact ⟨positive, Nat.le_refl 1⟩
  | column => exact ⟨Nat.le_refl 1, positive⟩

theorem sheet_single_head (kind : LineKind) (sheet line : Nat) :
    (single (kind.head sheet line)).sheet = sheet := by
  cases kind <;> rfl

theorem one_le_single_head (kind : LineKind) (sheet : Nat) (positive : 1 ≤ line) :
    1 ≤ (single (kind.head sheet line)).top ∧ 1 ≤ (single (kind.head sheet line)).left := by
  obtain ⟨row, col⟩ := kind.one_le_head sheet positive
  exact ⟨Nat.le_min.mpr ⟨row, row⟩, Nat.le_min.mpr ⟨col, col⟩⟩

def Reaches : LineKind → Nat → Nat → Nat → Prop
  | row, line, bottom, right => line ≤ bottom ∧ 1 ≤ right
  | column, line, bottom, right => line ≤ right ∧ 1 ≤ bottom

theorem corners_tail (sheet : Nat) (reaches : kind.Reaches line bottom right) :
    (kind.tail sheet line bottom right).top = (kind.head sheet line).row ∧
      (kind.tail sheet line bottom right).left = (kind.head sheet line).col ∧
      (kind.tail sheet line bottom right).bottom = bottom ∧
      (kind.tail sheet line bottom right).right = right := by
  cases kind <;>
  · simp only [Reaches] at reaches
    simp only [Range.top, Range.left, Range.bottom, Range.right, tail, head, CellId.reference]
    omega

theorem sheet_tail (kind : LineKind) (sheet line bottom right : Nat) :
    (kind.tail sheet line bottom right).sheet = sheet := by
  cases kind <;> rfl

theorem contains_tail (positive : 1 ≤ line) (reaches : kind.Reaches line bottom right) (x : CellId) :
    (kind.tail sheet line bottom right).contains x = true ↔
      x.sheet = sheet ∧ line ≤ kind.index x ∧ (1 ≤ x.row ∧ 1 ≤ x.col) ∧ x.row ≤ bottom ∧
        x.col ≤ right := by
  obtain ⟨top, left, last, end_⟩ := corners_tail sheet reaches
  rw [contains_iff, sheet_tail, top, left, last, end_]
  refine and_congr_right fun _ => ?_
  cases kind <;> simp only [head, index] <;> omega

theorem onOrAfter_of_contains (positive : 1 ≤ line) (reaches : kind.Reaches line bottom right)
    {x : CellId} (inside : (kind.tail sheet line bottom right).contains x = true) :
    kind.OnOrAfter sheet line x := by
  rw [contains_tail positive reaches] at inside
  exact ⟨inside.1, inside.2.1⟩

theorem contains_tail_of_next (positive : 1 ≤ line) (reaches : kind.Reaches line bottom right)
    {x : CellId} (after : kind.OnOrAfter sheet line x)
    (inside : (kind.tail sheet line bottom right).contains (kind.next x) = true) :
    (kind.tail sheet line bottom right).contains x = true := by
  obtain ⟨here, later⟩ := after
  rw [contains_tail positive reaches] at inside ⊢
  refine ⟨here, later, ?_⟩
  cases kind <;> simp only [next, index] at later inside ⊢ <;> omega

theorem contains_line {size : Bounds} (positive : 1 ≤ line) (inside : line ≤ kind.count size)
    (rows : 1 ≤ size.rows) (cols : 1 ≤ size.cols) (x : CellId) :
    (kind.line sheet line size).contains x = true ↔
      x.sheet = sheet ∧ kind.index x = line ∧ (1 ≤ x.row ∧ 1 ≤ x.col) ∧ x.row ≤ size.rows ∧
        x.col ≤ size.cols := by
  cases kind with
  | row =>
    have reaches : row.Reaches line line size.cols := ⟨Nat.le_refl _, cols⟩
    rw [LineKind.line, contains_tail positive reaches]
    simp only [index, count] at *
    omega
  | column =>
    have reaches : column.Reaches line size.rows line := ⟨Nat.le_refl _, rows⟩
    rw [LineKind.line, contains_tail positive reaches]
    simp only [index, count] at *
    omega

/-! ### Moving by a line -/

theorem corners_advance (kind : LineKind) (r : BoundRange) :
    (kind.advance r).sheet = r.sheet ∧
      ((kind.advance r).top = (kind.next ⟨r.sheet, r.top, r.left⟩).row ∧
        (kind.advance r).left = (kind.next ⟨r.sheet, r.top, r.left⟩).col) ∧
      (kind.advance r).bottom = (kind.next ⟨r.sheet, r.bottom, r.right⟩).row ∧
        (kind.advance r).right = (kind.next ⟨r.sheet, r.bottom, r.right⟩).col := by
  cases kind <;>
    simp [advance, next, Range.sheet, Range.top, Range.left, Range.bottom, Range.right,
      Nat.add_min_add_right, Nat.add_max_add_right]

theorem le_advance (kind : LineKind) (r : BoundRange) :
    r.top ≤ (kind.advance r).top ∧ r.left ≤ (kind.advance r).left := by
  obtain ⟨-, ⟨top, left⟩, -⟩ := corners_advance kind r
  rw [top, left]
  cases kind <;> simp [next]

theorem area_advance (kind : LineKind) (r : BoundRange) : (kind.advance r).area = r.area := by
  obtain ⟨-, ⟨top, left⟩, bottom, right⟩ := corners_advance kind r
  have rows := r.top_le_bottom
  have cols := r.left_le_right
  have rowCount : (kind.advance r).rowCount = r.rowCount := by
    rw [Range.rowCount, Range.rowCount, top, bottom]
    cases kind <;> simp only [next]
    omega
  have colCount : (kind.advance r).colCount = r.colCount := by
    rw [Range.colCount, Range.colCount, left, right]
    cases kind <;> simp only [next]
    omega
  rw [area, area, height, height, width, width, rowCount, colCount]

/-- A range that is laid out one line further takes each cell one line further. -/
theorem place_advance {r : BoundRange} {x : CellId} (inside : r.contains x = true) :
    place r (kind.advance r) x = kind.next x := by
  obtain ⟨sheet, ⟨top, left⟩, -⟩ := corners_advance kind r
  rw [contains_iff] at inside
  rw [place, sheet, top, left]
  obtain ⟨s, row, col⟩ := x
  cases kind <;> simp only [next, CellId.mk.injEq] at * <;> omega

theorem contains_image_advance {r : BoundRange} (x : CellId) :
    (image r (kind.advance r)).contains x = true ↔ ∃ z, r.contains z = true ∧ kind.next z = x := by
  constructor
  · intro covered
    obtain ⟨z, inside, rfl⟩ := exists_place covered
    exact ⟨z, inside, (place_advance inside).symm⟩
  · rintro ⟨z, inside, rfl⟩
    rw [← place_advance inside]
    exact contains_image_place inside

/-- A tail that is laid out from the line in front of it takes each cell one line back. -/
theorem next_place_head (reaches : kind.Reaches (line + 1) bottom right) {x : CellId}
    (inside : (kind.tail sheet (line + 1) bottom right).contains x = true) :
    kind.next (place (kind.tail sheet (line + 1) bottom right) (single (kind.head sheet line)) x) =
      x := by
  obtain ⟨top, left, -⟩ := corners_tail sheet reaches
  rw [contains_iff, sheet_tail, top, left] at inside
  rw [place, top, left]
  obtain ⟨s, row, col⟩ := x
  cases kind <;>
  · simp only [next, head, single, Range.sheet, Range.top, Range.left, CellId.reference,
      CellId.mk.injEq, Nat.min_self] at *
    omega

theorem contains_image_head (reaches : kind.Reaches (line + 1) bottom right) (x : CellId) :
    (image (kind.tail sheet (line + 1) bottom right) (single (kind.head sheet line))).contains x =
      true ↔ (kind.tail sheet (line + 1) bottom right).contains (kind.next x) = true := by
  constructor
  · intro covered
    obtain ⟨z, inside, rfl⟩ := exists_place covered
    rwa [next_place_head reaches inside]
  · intro inside
    rw [← kind.next_injective (next_place_head reaches inside)]
    exact contains_image_place inside

/-- What is done to each cell of a tail that is laid out from the line in front of it. -/
theorem forall_place_head_iff (reaches : kind.Reaches (line + 1) bottom right)
    {P : CellId → CellId → Prop} :
    let source := kind.tail sheet (line + 1) bottom right
    let destination := single (kind.head sheet line)
    (∀ x, source.contains x = true → P (place source destination x) x) ↔
      ∀ z, (image source destination).contains z = true → P z (kind.next z) := by
  intro source destination
  constructor
  · intro moved z covered
    obtain ⟨x, inside, rfl⟩ := exists_place covered
    have back : kind.next (place source destination x) = x := next_place_head reaches inside
    rw [back]
    exact moved x inside
  · intro covered x inside
    have back : kind.next (place source destination x) = x := next_place_head reaches inside
    have result := covered _ (contains_image_place inside)
    rwa [back] at result

end LineKind

/-! ### Edits of lines -/

/-- The line that an insertion makes. -/
def LineEdit.inserted (edit : LineEdit) (kind : LineKind) (id : CellId) : Nat :=
  kind.index id + if edit = .insertAfter then 1 else 0

theorem LineEdit.inserted_le (edit : LineEdit) {kind : LineKind} {id : CellId} {count : Nat}
    (within : kind.index id ≤ count) : edit.inserted kind id ≤ count + 1 := by
  rw [LineEdit.inserted]
  split <;> omega

namespace Grid

variable {g : Grid}

def further (counts : CellId × Cell → Bool) (last : Nat × Nat) (p : CellId × Cell) : Nat × Nat :=
  if counts p then (max last.1 p.1.row, max last.2 p.1.col) else last

theorem foldl_further_le_iff (counts : CellId × Cell → Bool) (rows cols : Nat)
    (cells : List (CellId × Cell)) (last : Nat × Nat) :
    (cells.foldl (further counts) last).1 ≤ rows ∧ (cells.foldl (further counts) last).2 ≤ cols ↔
      (last.1 ≤ rows ∧ last.2 ≤ cols) ∧
        ∀ p ∈ cells, counts p = true → p.1.row ≤ rows ∧ p.1.col ≤ cols := by
  induction cells generalizing last with
  | nil => simp
  | cons p cells ih =>
    rw [List.foldl_cons, ih, List.forall_mem_cons, further]
    cases counts p with
    | true =>
      simp only [if_true, forall_const, Nat.max_le]
      tauto
    | false => simp

/-- What the extent of a sheet stays below: where it is asked for, and all content from there on. -/
theorem extent_le_iff (g : Grid) (sheet top left rows cols : Nat) :
    (g.extent sheet top left).1 ≤ rows ∧ (g.extent sheet top left).2 ≤ cols ↔
      (top ≤ rows ∧ left ≤ cols) ∧ ∀ x, x.sheet = sheet → top ≤ x.row → left ≤ x.col →
        (g.cell x).isBlank = false → x.row ≤ rows ∧ x.col ≤ cols := by
  rw [extent, Std.ExtTreeMap.foldl_eq_foldl_toList]
  refine (foldl_further_le_iff (fun p => p.1.sheet == sheet && top ≤ p.1.row && left ≤ p.1.col &&
    !p.2.isBlank) rows cols _ _).trans (and_congr_right fun _ => ?_)
  simp only [Bool.and_eq_true, beq_iff_eq, decide_eq_true_eq, Bool.not_eq_true']
  constructor
  · intro stored x here below beside content
    rw [cell, Std.ExtTreeMap.getD_eq_getD_getElem?] at content
    cases found : g.cells[x]? with
    | none =>
      rw [found] at content
      exact absurd content (by decide)
    | some c =>
      rw [found] at content
      exact stored (x, c) (Std.ExtTreeMap.mem_toList_iff_getElem?_eq_some.mpr found)
        ⟨⟨⟨here, below⟩, beside⟩, content⟩
  · rintro all ⟨x, c⟩ mem ⟨⟨⟨here, below⟩, beside⟩, content⟩
    refine all x here below beside ?_
    rw [cell, Std.ExtTreeMap.getD_eq_getD_getElem?,
      Std.ExtTreeMap.mem_toList_iff_getElem?_eq_some.mp mem]
    exact content

theorem le_extent (g : Grid) (sheet top left : Nat) :
    top ≤ (g.extent sheet top left).1 ∧ left ≤ (g.extent sheet top left).2 :=
  ((g.extent_le_iff sheet top left _ _).mp ⟨Nat.le_refl _, Nat.le_refl _⟩).1

theorem index_of_contains (kind : LineKind) {id : CellId} {s : Sheet}
    (inside : s.contains id.row id.col = true) :
    (1 ≤ kind.index id ∧ kind.index id ≤ kind.count s.bounds) ∧ 1 ≤ s.rows ∧ 1 ≤ s.cols := by
  rw [Sheet.contains_iff] at inside
  cases kind <;> simp only [LineKind.index, LineKind.count, Sheet.bounds] <;> omega

/-- The cells from a line on, as far as there is content. -/
def reach (g : Grid) (kind : LineKind) (sheet line : Nat) : BoundRange :=
  let last := g.extent sheet (kind.head sheet line).row (kind.head sheet line).col
  kind.tail sheet line last.1 last.2

theorem reaches_extent (g : Grid) (kind : LineKind) (sheet line : Nat) :
    kind.Reaches line (g.extent sheet (kind.head sheet line).row (kind.head sheet line).col).1
      (g.extent sheet (kind.head sheet line).row (kind.head sheet line).col).2 := by
  obtain ⟨rows, cols⟩ := g.le_extent sheet (kind.head sheet line).row (kind.head sheet line).col
  cases kind with
  | row => exact ⟨rows, cols⟩
  | column => exact ⟨cols, rows⟩

theorem sheet_advance_reach (g : Grid) (kind : LineKind) (sheet line : Nat) :
    (kind.advance (g.reach kind sheet line)).sheet = sheet :=
  (kind.corners_advance _).1.trans (kind.sheet_tail ..)

theorem isBlank_of_not_reach (kind : LineKind) {sheet line : Nat} (positive : 1 ≤ line) {x : CellId}
    (after : kind.OnOrAfter sheet line x) (row : 1 ≤ x.row) (col : 1 ≤ x.col)
    (outside : (g.reach kind sheet line).contains x = false) : (g.cell x).isBlank = true := by
  by_contra content
  have within := ((g.extent_le_iff sheet (kind.head sheet line).row (kind.head sheet line).col _ _).mp
    ⟨Nat.le_refl _, Nat.le_refl _⟩).2 x after.1
  rw [← Bool.not_eq_true, reach, LineKind.contains_tail positive (g.reaches_extent kind sheet line)]
    at outside
  refine outside ⟨after.1, after.2, ⟨row, col⟩, within ?_ ?_ (Bool.eq_false_iff.mpr content)⟩
  · cases kind with
    | row => exact after.2
    | column => exact row
  · cases kind with
    | row => exact col
    | column => exact after.2

theorem one_le_advance_reach (g : Grid) (kind : LineKind) (sheet : Nat) {line : Nat}
    (positive : 1 ≤ line) : 1 ≤ (kind.advance (g.reach kind sheet line)).top ∧
      1 ≤ (kind.advance (g.reach kind sheet line)).left := by
  obtain ⟨row, col⟩ := kind.le_advance (g.reach kind sheet line)
  obtain ⟨top, left, -⟩ := LineKind.corners_tail sheet (g.reaches_extent kind sheet line)
  obtain ⟨first, first'⟩ := kind.one_le_head sheet positive
  exact ⟨by rw [reach] at *; omega, by rw [reach] at *; omega⟩

def lengthen (g : Grid) (kind : LineKind) (sheet : Nat) (size : Bounds) : Grid :=
  g.growSheet sheet (kind.grown size).rows (kind.grown size).cols

theorem editLine_insert_row {edit : LineEdit} (inserts : edit ≠ .delete) (id : CellId)
    (size : Bounds) :
    g.editLine .row edit id size =
      let first := wrap (edit.inserted .row id)
      let last := g.extent id.sheet first 1
      (g.growSheet id.sheet (wrap (size.rows + 1)) size.cols).cutBlock (g.reach .row id.sheet first)
        (.block id.sheet (wrap (first + 1)) 1 (wrap (last.1 + 1)) last.2) := by
  cases edit with
  | delete => exact absurd rfl inserts
  | insertBefore => rfl
  | insertAfter => rfl

theorem editLine_insert_column {edit : LineEdit} (inserts : edit ≠ .delete) (id : CellId)
    (size : Bounds) :
    g.editLine .column edit id size =
      let first := wrap (edit.inserted .column id)
      let last := g.extent id.sheet 1 first
      (g.growSheet id.sheet size.rows (wrap (size.cols + 1))).cutBlock
        (g.reach .column id.sheet first)
        (.block id.sheet 1 (wrap (first + 1)) last.1 (wrap (last.2 + 1))) := by
  cases edit with
  | delete => exact absurd rfl inserts
  | insertBefore => rfl
  | insertAfter => rfl

theorem wrap_le_of_le_succ {line count : Nat} (within : line ≤ count + 1) :
    wrap line ≤ max count (wrap (count + 1)) := by
  rcases Nat.le_or_eq_of_le_succ within with inside | rfl
  · exact Nat.le_trans (wrap_le line) (Nat.le_trans inside (Nat.le_max_left _ _))
  · exact Nat.le_max_right _ _

theorem exists_editLine_insert (kind : LineKind) {edit : LineEdit} (inserts : edit ≠ .delete)
    {id : CellId} {size : Bounds} (within : kind.index id ≤ kind.count size) :
    ∃ rows cols destination, g.editLine kind edit id size =
        (g.growSheet id.sheet rows cols).cutBlock
          (g.reach kind id.sheet (wrap (edit.inserted kind id))) destination ∧
      wrap (edit.inserted kind id) ≤ kind.count ⟨max size.rows rows, max size.cols cols⟩ := by
  have last := edit.inserted_le within
  cases kind with
  | row => exact ⟨_, _, _, editLine_insert_row inserts id size, wrap_le_of_le_succ last⟩
  | column => exact ⟨_, _, _, editLine_insert_column inserts id size, wrap_le_of_le_succ last⟩

theorem editLine_insert (kind : LineKind) {edit : LineEdit} (inserts : edit ≠ .delete) (id : CellId)
    {size : Bounds} (grows : kind.count size + 1 < coordinateLimit)
    (fits : kind.index (g.reach kind id.sheet (edit.inserted kind id)).stop.cell + 1 <
      coordinateLimit) :
    g.editLine kind edit id size =
      let source := g.reach kind id.sheet (edit.inserted kind id)
      (g.lengthen kind id.sheet size).cutBlock source (kind.advance source) := by
  cases kind with
  | row =>
    have grows : wrap (size.rows + 1) = size.rows + 1 := wrap_of_lt grows
    have last : (g.extent id.sheet (edit.inserted .row id) 1).1 + 1 < coordinateLimit := fits
    have reaches := (g.le_extent id.sheet (edit.inserted .row id) 1).1
    rw [editLine_insert_row inserts, wrap_of_lt (Nat.lt_of_le_of_lt reaches (Nat.lt_of_succ_lt last))]
    dsimp only
    rw [grows, wrap_of_lt last,
      wrap_of_lt (Nat.lt_of_le_of_lt (Nat.succ_le_succ reaches) last)]
    rfl
  | column =>
    have grows : wrap (size.cols + 1) = size.cols + 1 := wrap_of_lt grows
    have last : (g.extent id.sheet 1 (edit.inserted .column id)).2 + 1 < coordinateLimit := fits
    have reaches := (g.le_extent id.sheet 1 (edit.inserted .column id)).2
    rw [editLine_insert_column inserts,
      wrap_of_lt (Nat.lt_of_le_of_lt reaches (Nat.lt_of_succ_lt last))]
    dsimp only
    rw [grows, wrap_of_lt last,
      wrap_of_lt (Nat.lt_of_le_of_lt (Nat.succ_le_succ reaches) last)]
    rfl

def cleared (g : Grid) (kind : LineKind) (sheet line : Nat) (size : Bounds) : Grid :=
  (g.clearAll (kind.line sheet line size).cells).1

/-- The cells of a sheet after a line. -/
def behind (kind : LineKind) (sheet line : Nat) (size : Bounds) : BoundRange :=
  kind.tail sheet (line + 1) size.rows size.cols

/-- The grid in which a line is blank and all that comes after it has moved one line back. -/
def deleted (g : Grid) (kind : LineKind) (sheet line : Nat) (size : Bounds) : Grid :=
  if line < kind.count size then
    ((g.cleared kind sheet line size).cutBlock (behind kind sheet line size)
      (single (kind.head sheet line))).1
  else g.cleared kind sheet line size

theorem editLine_delete (kind : LineKind) (id : CellId) (size : Bounds) :
    (g.editLine kind .delete id size).1 = g.deleted kind id.sheet (kind.index id) size := by
  have fst_ite : ∀ (p : Prop) [Decidable p] (a b : Grid × List CellId),
      (if p then a else b).1 = if p then a.1 else b.1 := fun _ _ _ _ => apply_ite _ _ _ _
  cases kind <;> exact fst_ite _ _ _

/-- **What cuts keep** holds after an edit of a line, if it holds when the line is blank and when the
sheet has grown. -/
theorem editLine_induction {motive : Grid → Prop} (kind : LineKind) (edit : LineEdit) (id : CellId)
    (size : Bounds) (cleared : motive (g.cleared kind id.sheet (kind.index id) size))
    (grown : ∀ rows cols, motive (g.growSheet id.sheet rows cols))
    (cut : ∀ (g' : Grid) (source destination : BoundRange), motive g' →
      motive (g'.cutBlock source destination).1) :
    motive (g.editLine kind edit id size).1 := by
  by_cases deletes : edit = .delete
  · subst deletes
    rw [editLine_delete, deleted]
    split
    · exact cut _ _ _ cleared
    · exact cleared
  · cases kind with
    | row =>
      rw [editLine_insert_row deletes]
      exact cut _ _ _ (grown _ _)
    | column =>
      rw [editLine_insert_column deletes]
      exact cut _ _ _ (grown _ _)

end Grid

end Spreadsheet
