import Spreadsheet.Proofs.Formula.Rows
import Spreadsheet.Proofs.Grid.Copies
import Spreadsheet.Proofs.Grid.Detachment
import Spreadsheet.Proofs.Grid.Preservation
import Spreadsheet.Proofs.Value.Order

/-!
# Sorted ranges

A sort arranges the rows of a range by the values in one column.  The formulas of each row are copied
to its new place, all at once.

* `Range.arranged range rows x`: where a cell of the range goes.
* `Grid.pairwise_sortedRows` and `Grid.eq_sortedRows`: the rows are in the order of the values, with
  equal rows as they were, and this is the only such order.
* `Grid.arrange g range rows`: the rows of a range are copied to their places in any order.
* `Grid.KeepsRows g range`: the formulas of the range refer only to their own rows in it.
* `Grid.carries_arrange`: then the rows move with all that they read.
* `Grid.rowsTravel_iff_of_sort`: what a sort does to formulas and values.
-/

namespace Spreadsheet

open Formula Range

/-! ### The places of the rows -/

def Range.arranged (range : BoundRange) (rows : List Nat) (x : CellId) : CellId :=
  { x with row := range.top + rows.idxOf x.row }

section

variable {range : BoundRange} {rows : List Nat} (perm : rows.Perm (List.range' range.top range.rowCount))

include perm

theorem mem_rows_iff (row : Nat) : row ∈ rows ↔ range.top ≤ row ∧ row ≤ range.bottom := by
  have ordered := range.top_le_bottom
  rw [perm.mem_iff, List.mem_range'_1, rowCount]
  omega

theorem nodup_rows : rows.Nodup := perm.nodup_iff.mpr List.nodup_range'

theorem length_rows : rows.length = range.rowCount := by
  rw [perm.length_eq, List.length_range']

theorem arranged_of_getElem? {i row : Nat} (listed : rows[i]? = some row) (sheet col : Nat) :
    arranged range rows ⟨sheet, row, col⟩ = ⟨sheet, range.top + i, col⟩ := by
  obtain ⟨below, rfl⟩ := List.getElem?_eq_some_iff.mp listed
  rw [arranged, (nodup_rows perm).idxOf_getElem]

theorem contains_of_getElem? {i row col : Nat} (listed : rows[i]? = some row)
    (left : range.left ≤ col) (right : col ≤ range.right) :
    range.contains ⟨range.sheet, row, col⟩ = true := by
  have mem := (mem_rows_iff perm row).mp (List.mem_of_getElem? listed)
  rw [contains_iff]
  exact ⟨rfl, mem.1, mem.2, left, right⟩

theorem exists_getElem?_of_contains {sheet row col : Nat}
    (inside : range.contains ⟨sheet, row, col⟩ = true) : sheet = range.sheet ∧
      ∃ i : Nat, rows[i]? = some row ∧ range.left ≤ col ∧ col ≤ range.right := by
  rw [contains_iff] at inside
  obtain ⟨i, listed⟩ := List.mem_iff_getElem?.mp
    ((mem_rows_iff perm row).mpr ⟨inside.2.1, inside.2.2.1⟩)
  exact ⟨inside.1, i, listed, inside.2.2.2⟩

theorem contains_arranged {x : CellId} (inside : range.contains x = true) :
    range.contains (arranged range rows x) = true := by
  rw [contains_iff] at inside ⊢
  have below := List.idxOf_lt_length_of_mem ((mem_rows_iff perm x.row).mpr ⟨inside.2.1, inside.2.2.1⟩)
  rw [length_rows perm, rowCount] at below
  have ordered := range.top_le_bottom
  dsimp only [arranged]
  omega

/-- Different cells of the range go to different places. -/
theorem injOn_arranged : Set.InjOn (arranged range rows) {x | range.contains x = true} := by
  intro x hx y hy same
  obtain ⟨sheet, row, col⟩ := x
  obtain ⟨sheet', row', col'⟩ := y
  have hx := (contains_iff _ _).mp hx
  rw [arranged, arranged, CellId.mk.injEq] at same
  have index : rows.idxOf row = rows.idxOf row' := Nat.add_left_cancel same.2.1
  rw [List.idxOf_inj ((mem_rows_iff perm row).mpr ⟨hx.2.1, hx.2.2.1⟩)] at index
  rw [CellId.mk.injEq]
  exact ⟨same.1, index, same.2.2⟩

end

namespace Grid

variable {g g' : Grid} {removed : List String} {range : BoundRange} {column : Nat} {ascending : Bool}

/-! ### The order of the rows -/

/-- The term by which a row of a range is put in order. -/
def sortKey (g : Grid) (range : BoundRange) (column row : Nat) : Term :=
  .ofValue (g.value ⟨range.sheet, row, column⟩)

theorem sortedRows_eq (g : Grid) (range : BoundRange) (column : Nat) (ascending : Bool) :
    g.sortedRows range column ascending =
      (((List.range' range.top range.rowCount).map fun row =>
        (row, g.sortKey range column row)).mergeSort fun a b =>
          a.2.directed ascending b.2 != .gt).map Prod.fst := by
  rw [sortedRows]
  refine congrArg (fun le => (List.mergeSort _ le).map Prod.fst) (funext fun a => funext fun b => ?_)
  cases ascending with
  | true => rfl
  | false =>
    have swap : a.2.sortOrder b.2 = (b.2.sortOrder a.2).swap := Std.OrientedCmp.eq_swap
    show (a.2.sortOrder b.2 != .lt) = (b.2.sortOrder a.2 != .gt)
    rw [swap]
    cases b.2.sortOrder a.2 <;> rfl

theorem perm_sortedRows (g : Grid) (range : BoundRange) (column : Nat) (ascending : Bool) :
    (g.sortedRows range column ascending).Perm (List.range' range.top range.rowCount) := by
  rw [sortedRows_eq]
  refine ((List.mergeSort_perm _ _).map Prod.fst).trans ?_
  rw [List.map_map, show Prod.fst ∘ (fun row => (row, g.sortKey range column row)) = id from rfl,
    List.map_id]

/-- In a sort one row stands before another one: its term does, or the terms are equal and the row is
the earlier one. -/
def SortsBefore (g : Grid) (range : BoundRange) (column : Nat) (ascending : Bool) (row row' : Nat) :
    Prop :=
  (g.sortKey range column row).directed ascending (g.sortKey range column row') = .lt ∨
    (g.sortKey range column row).directed ascending (g.sortKey range column row') = .eq ∧ row < row'

instance (g : Grid) (range : BoundRange) (column : Nat) (ascending : Bool) (row row' : Nat) :
    Decidable (g.SortsBefore range column ascending row row') := inferInstanceAs (Decidable (_ ∨ _))

/-- **The rows are in order, and equal rows are in the order in which they were**, whether the sort
ascends or not. -/
theorem pairwise_sortedRows (g : Grid) (range : BoundRange) (column : Nat) (ascending : Bool) :
    (g.sortedRows range column ascending).Pairwise (g.SortsBefore range column ascending) := by
  have before : ((List.range' range.top range.rowCount).map fun row =>
      (row, g.sortKey range column row)).Pairwise fun a b => a.1 < b.1 := by
    rw [List.pairwise_map]
    exact List.pairwise_lt_range' 1
  have sorted := pairwise_mergeSort_of_cmp Prod.snd (Term.directed ascending) before
  rw [sortedRows_eq, List.pairwise_map]
  refine sorted.imp_of_mem fun {a b} ha hb h => ?_
  have keys : ∀ a ∈ ((List.range' range.top range.rowCount).map fun row =>
      (row, g.sortKey range column row)).mergeSort fun a b => a.2.directed ascending b.2 != .gt,
      g.sortKey range column a.1 = a.2 := by
    intro a ha
    obtain ⟨row, -, rfl⟩ := List.mem_map.mp (List.mem_mergeSort.mp ha)
    rfl
  rw [SortsBefore, keys a ha, keys b hb]
  exact h

theorem SortsBefore.asymm {row row' : Nat} (h : g.SortsBefore range column ascending row row')
    (h' : g.SortsBefore range column ascending row' row) : False := by
  have swap : (g.sortKey range column row').directed ascending (g.sortKey range column row) =
      ((g.sortKey range column row).directed ascending (g.sortKey range column row')).swap :=
    Std.OrientedCmp.eq_swap
  rw [SortsBefore, swap] at h'
  rcases h with first | ⟨tied, below⟩
  · rw [first] at h'
    rcases h' with second | ⟨tied, -⟩
    · exact absurd second nofun
    · exact absurd tied nofun
  · rw [tied] at h'
    rcases h' with second | ⟨-, above⟩
    · exact absurd second nofun
    · exact Nat.lt_asymm below above

theorem eq_sortedRows {rows : List Nat} (perm : rows.Perm (List.range' range.top range.rowCount))
    (ordered : rows.Pairwise (g.SortsBefore range column ascending)) :
    g.sortedRows range column ascending = rows :=
  ((g.perm_sortedRows range column ascending).trans perm.symm).eq_of_pairwise
    (fun _ _ _ _ h h' => absurd (h.asymm h') nofun) (g.pairwise_sortedRows range column ascending) ordered

/-! ### What is written -/

def rowWrites (g : Grid) (range : BoundRange) (rows : List Nat) : List (CellId × String) :=
  rows.zipIdx.flatMap fun (row, i) => (List.range' range.left range.colCount).map fun col =>
    (⟨range.sheet, range.top + i, col⟩, relocate ⟨range.sheet, row, col⟩
      ⟨range.sheet, range.top + i, col⟩ false g.directory (g.formula ⟨range.sheet, row, col⟩))

def arrange (g : Grid) (range : BoundRange) (rows : List Nat) : Grid :=
  g.writeEach (g.rowWrites range rows)

theorem rewrites_arrange (g : Grid) (range : BoundRange) (rows : List Nat) :
    Rewrites (fun _ => True) g (g.arrange range rows) :=
  g.rewrites_writeEach _

section

variable {rows : List Nat} (perm : rows.Perm (List.range' range.top range.rowCount))

include perm

/-- **Each cell of the range is copied to its place.** -/
theorem mem_rowWrites (w : CellId × String) :
    w ∈ g.rowWrites range rows ↔ ∃ x, range.contains x = true ∧
      w = (arranged range rows x,
        relocate x (arranged range rows x) false g.directory (g.formula x)) := by
  have ordered := range.left_le_right
  rw [rowWrites, List.mem_flatMap]
  constructor
  · rintro ⟨⟨row, i⟩, listed, hw⟩
    obtain ⟨col, hcol, rfl⟩ := List.mem_map.mp hw
    have listed := List.mem_zipIdx_iff_getElem?.mp listed
    rw [List.mem_range'_1, colCount] at hcol
    refine ⟨⟨range.sheet, row, col⟩, ?_, ?_⟩
    · exact contains_of_getElem? perm listed hcol.1 (by omega)
    · rw [arranged_of_getElem? perm listed]
  · rintro ⟨⟨sheet, row, col⟩, inside, rfl⟩
    obtain ⟨rfl, i, listed, left, right⟩ := exists_getElem?_of_contains perm inside
    refine ⟨(row, i), List.mem_zipIdx_iff_getElem?.mpr listed, List.mem_map.mpr ⟨col, ?_, ?_⟩⟩
    · rw [List.mem_range'_1, colCount]
      omega
    · rw [arranged_of_getElem? perm listed]

theorem rowWrites_unique : ∀ w ∈ g.rowWrites range rows, ∀ w' ∈ g.rowWrites range rows,
    w'.1 = w.1 → w' = w := by
  intro w hw w' hw' same
  obtain ⟨x, inside, rfl⟩ := (mem_rowWrites perm w).mp hw
  obtain ⟨x', inside', rfl⟩ := (mem_rowWrites perm w').mp hw'
  rw [injOn_arranged perm inside' inside same]

/-- **The formulas after rows have been arranged.**  Each row of the range gets those of the row that is
listed for it, as they are copied to it, and no others change. -/
theorem formula_arrange (g : Grid) (hooks : Hooks) :
    let g' := ((g.arrange range rows).recompute hooks).1
    (∀ i row, rows[i]? = some row → ∀ col, range.left ≤ col → col ≤ range.right →
      g'.formula ⟨range.sheet, range.top + i, col⟩ = g.stored range.sheet
        (relocate ⟨range.sheet, row, col⟩ ⟨range.sheet, range.top + i, col⟩ false g.directory
          (g.formula ⟨range.sheet, row, col⟩))) ∧
      ∀ x, range.contains x = false → g'.formula x = g.formula x := by
  intro g'
  obtain ⟨here, elsewhere⟩ := formula_writeEach (g := g) (rowWrites_unique (g := g) perm) hooks
  constructor
  · intro i row listed col left right
    have copied := here _ ((mem_rowWrites perm _).mpr
      ⟨⟨range.sheet, row, col⟩, contains_of_getElem? perm listed left right, rfl⟩)
    rw [arranged_of_getElem? perm listed] at copied
    exact copied
  · intro x outside
    refine elsewhere x fun written => ?_
    obtain ⟨w, mem, rfl⟩ := List.mem_map.mp written
    obtain ⟨y, within, rfl⟩ := (mem_rowWrites perm w).mp mem
    exact absurd (outside.symm.trans (contains_arranged perm within)) nofun

end

theorem sortBlock_eq (free : ∀ x, range.contains x = true → (g.cell x).isFilling = false) :
    (g.sortBlock range column ascending).1 =
      g.arrange range (g.sortedRows range column ascending) := by
  rw [sortBlock, updateAll_eq, arrange, writeEach, rowWrites, List.map_flatMap, List.map_flatMap]
  · simp only [List.map_map]
    rfl
  · intro u hu
    obtain ⟨⟨row, i⟩, listed, hu⟩ := List.mem_flatMap.mp hu
    obtain ⟨col, hcol, rfl⟩ := List.mem_map.mp hu
    have ordered := range.left_le_right
    rw [List.mem_range'_1, colCount] at hcol
    exact free ⟨range.sheet, row, col⟩ (contains_of_getElem? (g.perm_sortedRows range column ascending)
      (List.mem_zipIdx_iff_getElem?.mp listed) hcol.1 (by omega))

/-- The range of a sort that is accepted lies in its sheet, and the column in the range. -/
theorem inside_of_sort {hooks : Hooks} {outcome : Outcome}
    (accepted : g.apply hooks (.sort range column ascending) = .ok (g', outcome)) :
    g.checkRange range = .ok () ∧ range.left ≤ column ∧ column ≤ range.right := by
  obtain ⟨g₁, written, invalidate, wrote, -⟩ := apply_eq_ok_iff.mp accepted
  cases wrote with
  | sort _ _ _ inside beside => exact ⟨inside, beside⟩

/-- Such a sort arranges the rows and runs one pass, if nothing waits. -/
theorem apply_sort (hooks : Hooks) (idle : g.waiting = [])
    (free : ∀ x, range.contains x = true → (g.cell x).isFilling = false)
    (inside : g.checkRange range = .ok ()) (beside : range.left ≤ column ∧ column ≤ range.right) :
    ∃ outcome, g.apply hooks (.sort range column ascending) =
        .ok (((g.arrange range (g.sortedRows range column ascending)).recompute hooks).1, outcome) ∧
      outcome.report =
        ((g.arrange range (g.sortedRows range column ascending)).recompute hooks).2 := by
  rw [← sortBlock_eq free]
  refine apply_of_write_of_idle hooks (Writes.sort _ _ _ inside beside).write_eq ?_
  rw [sortBlock_eq free]
  exact (g.waiting_writeEach _).trans idle

theorem apply_sort_completed (regular : g.Regular) (idle : g.waiting = [])
    (free : ∀ x, range.contains x = true → (g.cell x).isFilling = false)
    (inside : g.checkRange range = .ok ()) (beside : range.left ≤ column ∧ column ≤ range.right) :
    ∃ outcome, g.apply {} (.sort range column ascending) =
        .ok (((g.arrange range (g.sortedRows range column ascending)).recompute {}).1, outcome) ∧
      outcome.report.cancelled = false := by
  obtain ⟨outcome, accepted, report⟩ := apply_sort {} idle free inside beside
  refine ⟨outcome, accepted, report ▸ recompute_not_cancelled ?_ fun _ => rfl⟩
  exact ((g.rewrites_arrange range _).regular regular).wired.linked

/-! ### Rows that travel as a whole -/

/-- The formulas of the range call no `RAND`, are on no cycle, and refer only to cells of their own rows
in the range, without pinning a row. -/
structure KeepsRows (g : Grid) (range : BoundRange) : Prop where
  noRandom : ∀ x, range.contains x = true → ¬ CallsRandom (g.formula x)
  acyclic : ∀ x, range.contains x = true → ¬ OnCycle g.FormulaReads x
  stays : ∀ x, range.contains x = true → StaysInRow range x g.directory (g.formula x)

section

variable {rows : List Nat} (perm : rows.Perm (List.range' range.top range.rowCount))
  (tracked : g.Tracked removed) (tidy : ∀ x, Tidy (g.formula x))
  (free : ∀ x, range.contains x = true → (g.cell x).isFilling = false)
  (keeps : g.KeepsRows range) (accepted : g.checkRange range = .ok ())
  (signed : ∀ x, range.contains x = true → mentions (g.formula x) ≠ [] →
    ∀ bounds, g.directory.bounds? range.sheet = some bounds →
      bounds.rows < signedLimit ∧ bounds.cols < signedLimit)

include perm tracked keeps accepted signed

theorem redirects_arrange {x : CellId} (inside : range.contains x = true) :
    let move := arranged range rows
    Redirects move (relocated? x (move x) false g.directory) x.sheet (move x).sheet g.directory
      (g.formula x) := by
  intro move
  by_cases none : mentions (g.formula x) = []
  · constructor <;> rw [none] <;> exact fun _ hm => absurd hm List.not_mem_nil
  · obtain ⟨bounds, known, top, left, bottom, right⟩ := bounds_of_checkRange accepted
    refine (keeps.stays x inside).redirects inside ?_ tracked.regular.names.directory known
      (signed x inside none bounds known) ⟨top, left⟩ ⟨bottom, right⟩
      (contains_arranged perm inside) rfl ?_
    · exact fun _ _ => Directory.name?_of_index?_ofSheets
    · intro y within row
      rw [contains_iff] at within
      show (⟨y.sheet, _, y.col⟩ : CellId) = ⟨range.sheet, _, y.col⟩
      rw [within.1, row]
      rfl

include tidy

/-- The references of a copy in the place of a cell lie inside their sheets. -/
theorem grounded_arrange {x : CellId} (inside : range.contains x = true) :
    let move := arranged range rows
    Grounded (move x).sheet g.directory (relocate x (move x) false g.directory (g.formula x)) := by
  intro move
  obtain ⟨bounds, known, -, -, bottom, right⟩ := bounds_of_checkRange accepted
  rw [relocate_eq]
  refine (redirects_arrange perm tracked keeps accepted signed inside).grounded (tidy x) fun y reads => ?_
  obtain ⟨within, -⟩ := (keeps.stays x inside).of_reads inside reads
  have place := (contains_iff _ _).mp (contains_arranged perm within)
  have size : g.directory.bounds? (arranged range rows y).sheet = some bounds := by
    rw [← known]
    exact congrArg g.directory.bounds? place.1
  exact isWithin_of_le size (Nat.le_trans place.2.2.1 bottom) (Nat.le_trans place.2.2.2.2 right)

theorem contents_of_arrange {x : CellId} (inside : range.contains x = true) :
    let move := arranged range rows
    let formula := relocate x (move x) false g.directory (g.formula x)
    (g.arrange range rows).formula (move x) = formula ∧
      (g.arrange range rows).value (move x) = .pending formula ∧
        move x ∈ (g.arrange range rows).dirty := by
  intro move formula
  have mem : (move x, formula) ∈ g.rowWrites range rows :=
    (mem_rowWrites perm _).mpr ⟨x, inside, rfl⟩
  have listed := List.mem_map_of_mem (f := fun w : CellId × String => (w.1, Cell.ofFormula w.2)) mem
  obtain ⟨here, pending⟩ := storeAll_of_mem (g := g) listed (eq_of_mem_writes (rowWrites_unique perm) mem) rfl
    (grounded_arrange perm tracked tidy keeps accepted signed inside)
  exact ⟨here, pending, mem_dirty_storeAll (Or.inr ⟨_, listed⟩)⟩

include free

/-- **A sort moves the cells of its range** with all that they read. -/
theorem carries_arrange :
    Carries (arranged range rows) {x | range.contains x = true} g (g.arrange range rows) := by
  have rewritten : (g.arrange range rows).Tracked removed :=
    (g.rewrites_arrange range rows).tracked tracked
  have directory : (g.arrange range rows).directory = g.directory := g.storeAll_directory _
  have reads := fun (x y : CellId) (inside : range.contains y = true) =>
    tracked.traced y (free y inside) x
  have filling : ∀ y, range.contains y = true →
      ((g.arrange range rows).cell (arranged range rows y)).isFilling = false := by
    intro y inside
    have pending := (contents_of_arrange perm tracked tidy keeps accepted signed inside).2.1
    rw [Cell.isFilling, show (Cell.value _) = _ from pending]
  refine ⟨injOn_arranged perm, ?_, ?_, filling, ?_⟩
  · intro x y edge inside
    exact ((keeps.stays y inside).of_reads inside ((reads x y inside).mp edge)).1
  · intro y inside x'
    have formula := (contents_of_arrange perm tracked tidy keeps accepted signed inside).1
    rw [Edge, rewritten.traced _ (filling y inside), formula, directory, relocate_eq,
      (redirects_arrange perm tracked keeps accepted signed inside).reads_iff (tidy y)]
    simp only [Edge, reads _ y inside]
  · intro y inside g' draws alike values
    have formula := (contents_of_arrange perm tracked tidy keeps accepted signed inside).1
    rw [formulaValue, formulaValue, alike.formula, formula, relocate_eq]
    refine congrArg Term.toValue
      ((redirects_arrange perm tracked keeps accepted signed inside).evaluate_eq (tidy y) rfl rfl
        (keeps.noRandom y inside) rfl (alike.directory.trans directory) ?_)
    intro x read
    rw [view_term, view_term, values x ((reads x y inside).mpr read)]

/-- When a pass after the sort gives the cells of the range the values that they had before. -/
theorem arrange_preserves_iff {draws : Draws} {order : List CellId} {p : Pass}
    (settled : Pass.Settled draws (g.arrange range rows) order p) :
    (∀ x, range.contains x = true →
        p.grid.value (arranged range rows x) = g.value x) ↔
      ∀ x, range.contains x = true → g.value x = g.formulaValue x := by
  have rewritten : (g.arrange range rows).Tracked removed :=
    (g.rewrites_arrange range rows).tracked tracked
  have acyclic : ∀ x, range.contains x = true → ¬ OnCycle g.Edge x := by
    rw [edge_eq_formulaReads tracked.regular.wired tracked.traced]
    exact keeps.acyclic
  -- All cells of the range are written.
  refine ((carries_arrange perm tracked tidy free keeps accepted signed).preserves_iff
    (W := {x | range.contains x = true}) acyclic rewritten.traced.covered settled
    (fun y inside old => absurd inside old) (fun y inside old => absurd inside old) ?_).trans ?_
  · intro y inside _
    obtain ⟨-, pending, dirty⟩ := contents_of_arrange perm tracked tidy keeps accepted signed inside
    exact ⟨dirty, _, pending⟩
  · exact forall_congr' fun x => ⟨fun exact inside => exact inside inside, fun exact inside _ => exact inside⟩

/-- In a clean grid the values of the range are the same to a reader as those of its formulas. -/
theorem agrees_of_keepsRows (clean : g.dirty = ∅) {x : CellId} (inside : range.contains x = true) :
    (g.value x).agrees (g.formulaValue x) := by
  refine tracked.current.value x (clean ▸ Std.ExtTreeSet.not_mem_empty) (free x inside)
    (keeps.noRandom x inside) ?_
  rintro ⟨z, cycle, path⟩
  have carries := carries_arrange perm tracked tidy free keeps accepted signed
  rw [edge_eq_formulaReads tracked.regular.wired tracked.traced] at cycle
  exact keeps.acyclic z (carries.mem_of_path path inside) cycle

end

/-! ### What a sort does -/

/-- Each row of the range has the values that the row has had which is listed for it. -/
def RowsTravel (g g' : Grid) (range : BoundRange) (rows : List Nat) : Prop :=
  ∀ i row, rows[i]? = some row → ∀ col, range.left ≤ col → col ≤ range.right →
    g'.value ⟨range.sheet, range.top + i, col⟩ = g.value ⟨range.sheet, row, col⟩

theorem rowsTravel_iff {rows : List Nat} (perm : rows.Perm (List.range' range.top range.rowCount)) :
    g.RowsTravel g' range rows ↔
      ∀ x, range.contains x = true → g'.value (arranged range rows x) = g.value x := by
  constructor
  · rintro travel ⟨sheet, row, col⟩ inside
    obtain ⟨rfl, i, listed, left, right⟩ := exists_getElem?_of_contains perm inside
    rw [arranged_of_getElem? perm listed]
    exact travel i row listed col left right
  · intro moved i row listed col left right
    rw [← moved _ (contains_of_getElem? perm listed left right), arranged_of_getElem? perm listed]

/-- **Rows that travel are in order**: no row has to stand before an earlier one. -/
theorem RowsTravel.pairwise (travel : g.RowsTravel g' range (g.sortedRows range column ascending))
    (beside : range.left ≤ column ∧ column ≤ range.right) :
    (List.range' range.top range.rowCount).Pairwise fun row row' =>
      (g'.sortKey range column row).directed ascending (g'.sortKey range column row') ≠ .gt := by
  have perm := g.perm_sortedRows range column ascending
  have keys : (List.range' range.top range.rowCount).map (g'.sortKey range column) =
      (g.sortedRows range column ascending).map (g.sortKey range column) := by
    refine List.ext_getElem ?_ fun i before after => ?_
    · rw [List.length_map, List.length_map, perm.length_eq]
    · rw [List.length_map] at after
      have listed := List.getElem?_eq_getElem after
      rw [List.getElem_map, List.getElem_map, List.getElem_range', Nat.one_mul, sortKey,
        travel i _ listed column beside.1 beside.2, sortKey]
  rw [← List.pairwise_map (R := fun s t => Term.directed ascending s t ≠ .gt), keys, List.pairwise_map]
  refine (g.pairwise_sortedRows range column ascending).imp fun {row row'} h => ?_
  rcases h with first | ⟨tied, -⟩
  · rw [first]
    exact nofun
  · rw [tied]
    exact nofun

/-- **What a sort does.**  Let a sort of a range without formulas that fill other cells be accepted in
a grid that has a history.  The listed rows are those of the range, in the order of the values in the
column, and equal rows are in the order in which they were.  Each row gets the formulas of the row
that is listed for it, as they are copied to it, and no formula outside the range changes.

Let moreover no name of a removed sheet be used again and the formulas keep to their rows, let the
pass not be cancelled, and let the coordinates be signed integers if there are any references.  Then
the rows travel with all their values if and only if the cells of the range have just the values of
their formulas, and in this case the column is in order.  A clean grid has values that are the same to
a reader, which may be `0` in place of `-0`. -/
theorem rowsTravel_iff_of_sort (options : Options) (history : List Action) {range : BoundRange}
    {column : Nat} {ascending : Bool} {hooks : Hooks} {g' : Grid} {outcome : Outcome}
    (free : ∀ x, range.contains x = true → ((ofHistory options history).cell x).isFilling = false)
    (accepted : (ofHistory options history).apply hooks (.sort range column ascending) =
      .ok (g', outcome)) :
    let g := ofHistory options history
    let rows := g.sortedRows range column ascending
    (rows.Perm (List.range' range.top range.rowCount) ∧
      rows.Pairwise (g.SortsBefore range column ascending)) ∧
    (∀ i row, rows[i]? = some row → ∀ col, range.left ≤ col → col ≤ range.right →
      g'.formula ⟨range.sheet, range.top + i, col⟩ = g.stored range.sheet
        (relocate ⟨range.sheet, row, col⟩ ⟨range.sheet, range.top + i, col⟩ false g.directory
          (g.formula ⟨range.sheet, row, col⟩))) ∧
    (∀ x, range.contains x = false → g'.formula x = g.formula x) ∧
    (NeverReuses options history → g.KeepsRows range → outcome.report.cancelled = false →
      (∀ x, range.contains x = true → mentions (g.formula x) ≠ [] → g.IsSigned range range) →
        (g.RowsTravel g' range rows ↔
          ∀ x, range.contains x = true → g.value x = g.formulaValue x) ∧
        (g.RowsTravel g' range rows → (List.range' range.top range.rowCount).Pairwise fun row row' =>
          (g'.sortKey range column row).directed ascending (g'.sortKey range column row') ≠ .gt) ∧
        (g.dirty = ∅ → ∀ x, range.contains x = true → (g.value x).agrees (g.formulaValue x))) := by
  intro g rows
  have perm : rows.Perm (List.range' range.top range.rowCount) :=
    g.perm_sortedRows range column ascending
  obtain ⟨inside, beside⟩ := inside_of_sort accepted
  obtain ⟨outcome', applied, report⟩ :=
    apply_sort hooks (waiting_ofHistory options history) free inside beside
  cases accepted.symm.trans applied
  obtain ⟨here, elsewhere⟩ := formula_arrange perm g hooks
  refine ⟨⟨perm, g.pairwise_sortedRows range column ascending⟩, here, elsewhere,
    fun fresh keeps completed signed => ?_⟩
  have tracked : g.Tracked (removedNames options history) := tracked_ofHistory options history fresh
  have tidy : ∀ x, Tidy (g.formula x) := tidy_ofHistory options history
  have sized : ∀ x, range.contains x = true → mentions (g.formula x) ≠ [] →
      ∀ bounds, g.directory.bounds? range.sheet = some bounds →
        bounds.rows < signedLimit ∧ bounds.cols < signedLimit :=
    fun x within some => (signed x within some).2
  have rewritten : (g.arrange range rows).Tracked (removedNames options history) :=
    (g.rewrites_arrange range rows).tracked tracked
  rw [report] at completed
  obtain ⟨order, p, settled, ends⟩ := exists_settled rewritten.regular.wired.linked completed
  refine ⟨?_, fun travel => travel.pairwise beside, fun clean x within =>
    agrees_of_keepsRows perm tracked tidy free keeps inside sized clean within⟩
  rw [rowsTravel_iff perm, ends]
  exact arrange_preserves_iff perm tracked tidy free keeps inside sized settled

theorem forall_contains {P : CellId → Prop} (all : ∀ x ∈ range.cells, P x) (x : CellId)
    (inside : range.contains x = true) : P x := all x ((mem_cells_iff _ _).mpr inside)

/-- In a grid whose cells are listed, the formulas keep to their rows if they read only cells of lower
rank. -/
theorem keepsRows_of_stored (rank : CellId → Nat)
    (formulas : ∀ x ∈ range.cells,
      ¬ CallsRandom (g.formula x) ∧ StaysInRow range x g.directory (g.formula x))
    (references : (g.cells.toList.all fun p => (mentions p.2.formula).all fun m =>
      (m.1.sheet? p.1.sheet g.directory).all fun sheet =>
        (m.1.cellsOn sheet).all fun x => rank x < rank p.1) = true) : g.KeepsRows range := by
  have below := forall_mentions (P := fun y m => (m.sheet? y.sheet g.directory).all fun sheet =>
    (m.cellsOn sheet).all fun x => rank x < rank y) references
  refine ⟨fun x inside => (forall_contains formulas x inside).1, fun x _ => ?_,
    fun x inside => (forall_contains formulas x inside).2⟩
  exact not_onCycle_of_rank rank (fun x y reads => of_decide_eq_true
    (forall_reads (P := fun x y => rank x < rank y) below x y reads)) x

/-- Three rows of which two are equal, in descending order. -/
theorem rowsTravel_iff_of_sort_descending :
    let data : Action := .edit {} (.batch [⟨0, 1, 1⟩, ⟨0, 1, 2⟩, ⟨0, 2, 1⟩, ⟨0, 2, 2⟩, ⟨0, 3, 1⟩]
      ["1", "=A1+5", "2", "=SUM($A2:A2)", "1"])
    let g := ofHistory {} [data]
    let range := block 0 1 1 3 2
    (∀ x, range.contains x = true → (g.cell x).isFilling = false) ∧ NeverReuses {} [data] ∧
      g.KeepsRows range ∧ g.IsSigned range range ∧ g.sortedRows range 1 false = [2, 1, 3] ∧
        ∃ g' outcome, g.apply {} (.sort range 1 false) = .ok (g', outcome) ∧
          outcome.report.cancelled = false ∧ g'.formula ⟨0, 1, 2⟩ = "SUM($A1:A1)" ∧
          g'.formula ⟨0, 2, 2⟩ = "A2+5" ∧ g.RowsTravel g' range [2, 1, 3] := by
  intro data g range
  have free : ∀ x, range.contains x = true → (g.cell x).isFilling = false :=
    forall_contains (by decide +kernel)
  have fresh : NeverReuses {} [data] := ⟨trivial, nofun⟩
  have keeps : g.KeepsRows range := keepsRows_of_stored CellId.col (by decide +kernel) (by decide +kernel)
  have known : g.directory.bounds? 0 = some ⟨100, 15⟩ := by decide +kernel
  have signed : g.IsSigned range range := ⟨by decide, lt_of_bounds known (by decide)⟩
  have rows : g.sortedRows range 1 false = [2, 1, 3] :=
    eq_sortedRows (by decide) (by decide +kernel)
  have exact : ∀ x, g.value x = g.formulaValue x := value_eq_of_stored (by decide +kernel)
  have inside : g.checkRange range = .ok () := by decide +kernel
  obtain ⟨g', outcome, accepted, completed⟩ : ∃ g' outcome,
      g.apply {} (.sort range 1 false) = .ok (g', outcome) ∧ outcome.report.cancelled = false :=
    ⟨_, apply_sort_completed (tracked_ofHistory {} [data] fresh).regular (waiting_ofHistory {} [data])
      free inside (by decide)⟩
  obtain ⟨-, here, -, travels⟩ := rowsTravel_iff_of_sort {} [data] free accepted
  obtain ⟨travel, -⟩ := travels fresh keeps completed fun _ _ _ => signed
  rw [show (ofHistory {} [data]).sortedRows range 1 false = [2, 1, 3] from rows] at here travel
  have first := here 0 2 rfl 2 (by decide) (by decide)
  have second := here 1 1 rfl 2 (by decide) (by decide)
  refine ⟨free, fresh, keeps, signed, rows, g', outcome, accepted, completed, first.trans ?_,
    second.trans ?_, travel.mpr fun x _ => exact x⟩
  · decide +kernel
  · decide +kernel

/-- A row whose value is `0` where its formula has `-0` has `-0` in its new place, and a formula that
divides by it changes its value. -/
theorem not_rowsTravel_of_zero :
    ¬ ∀ (options : Options) (history : List Action) (range : BoundRange) (column : Nat)
      (ascending : Bool) (g' : Grid) (outcome : Outcome), NeverReuses options history →
        (ofHistory options history).dirty = ∅ →
          (∀ x, range.contains x = true → ((ofHistory options history).cell x).isFilling = false) →
            (ofHistory options history).KeepsRows range →
              (ofHistory options history).IsSigned range range →
                (ofHistory options history).apply {} (.sort range column ascending) =
                  .ok (g', outcome) → outcome.report.cancelled = false →
                    (ofHistory options history).RowsTravel g' range
                      ((ofHistory options history).sortedRows range column ascending) := by
  intro all
  let history : List Action := [.edit {} (.set ⟨0, 2, 1⟩ "-2"), .edit {} (.set ⟨0, 1, 1⟩ "-1"),
    .edit {} (.set ⟨0, 1, 3⟩ "=1/B1"), .edit {} (.set ⟨0, 1, 2⟩ "=0*A1"),
    .edit {} (.set ⟨0, 1, 1⟩ "1")]
  let range := block 0 1 1 2 3
  have fresh : NeverReuses {} history := ⟨⟨⟨⟨⟨trivial, nofun⟩, nofun⟩, nofun⟩, nofun⟩, nofun⟩
  have free : ∀ x, range.contains x = true → ((ofHistory {} history).cell x).isFilling = false :=
    forall_contains (by decide +kernel)
  have known : (ofHistory {} history).directory.bounds? 0 = some ⟨100, 15⟩ := by decide +kernel
  have rows : (ofHistory {} history).sortedRows range 1 true = [2, 1] :=
    eq_sortedRows (by decide) (by decide +kernel)
  have inside : (ofHistory {} history).checkRange range = .ok () := by decide +kernel
  have beside : range.left ≤ 1 ∧ 1 ≤ range.right := by decide
  obtain ⟨outcome, accepted, completed⟩ :=
    apply_sort_completed (tracked_ofHistory {} history fresh).regular (waiting_ofHistory {} history)
      free inside beside
  rw [rows] at accepted
  have travel := all {} history range 1 true _ outcome fresh (by decide +kernel) free
    (keepsRows_of_stored CellId.col (by decide +kernel) (by decide +kernel))
    ⟨by decide, lt_of_bounds known (by decide)⟩ accepted completed
  rw [rows] at travel
  have same := travel 1 1 rfl 3 (by decide) (by decide)
  revert same
  decide +kernel

end Grid

end Spreadsheet
