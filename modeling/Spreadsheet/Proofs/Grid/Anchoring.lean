import Spreadsheet.Proofs.Grid.Containment
import Spreadsheet.Proofs.Grid.NameTable
import Spreadsheet.Proofs.Grid.Refinement

/-!
# Cells that are stored

Nothing in a grid dangles as long as rows and columns are words: what is stored, what an edge joins and
what is dirty are cells of its sheets.  Only the cells that are stored need to be watched, because every
end of an edge is stored, and so is every dirty cell.

* `Grid.mem_cells_store`: the cells that are stored after a write.
* `Grid.Wired.mem_cells_of_precedent`, `Grid.Wired.mem_cells_of_reader`: the ends of an edge are stored.
* `Grid.Anchored g counted`: the sheets reach all stored cells, and contain them if a condition holds;
  dirty cells are stored.
* `Grid.Places counted g g'`: the second grid comes from the first by writing cells that the first has.
* `Grid.Anchored.write` and `Grid.Anchored.finish`: edits and what follows them keep a grid anchored.
* `Grid.StaysSmall options history`: no sheet of a history and nothing that is filled becomes large.
* `Grid.contained_ofHistory`: a grid whose history stays small has its formulas inside its sheets.
* `Grid.no_dangling_ofHistory`: and nothing in it dangles.
-/

namespace Spreadsheet

open Formula Range Relation

/-! ### What is stored -/

theorem mem_dropReader (reader source : CellId) (cells : CellMap Cell) (x : CellId) :
    x ∈ dropReader reader cells source ↔ x ∈ cells := by
  rw [dropReader]
  split
  · rfl
  · rename_i c found
    rw [Std.ExtTreeMap.mem_insert, Std.LawfulEqCmp.compare_eq_iff_eq, or_iff_right_of_imp]
    rintro rfl
    rw [Std.ExtTreeMap.mem_iff_isSome_getElem?, found]
    rfl

theorem mem_addReader (reader source : CellId) (cells : CellMap Cell) (x : CellId) :
    x ∈ addReader reader cells source ↔ x = source ∨ x ∈ cells := by
  rw [addReader, Std.ExtTreeMap.mem_insert, Std.LawfulEqCmp.compare_eq_iff_eq, eq_comm]

theorem mem_foldl_dropReader (reader : CellId) (sources : List CellId) (cells : CellMap Cell)
    (x : CellId) : x ∈ sources.foldl (dropReader reader) cells ↔ x ∈ cells := by
  induction sources generalizing cells with
  | nil => rfl
  | cons source sources ih => rw [List.foldl_cons, ih, mem_dropReader]

theorem mem_foldl_addReader (reader : CellId) (sources : List CellId) (cells : CellMap Cell)
    (x : CellId) : x ∈ sources.foldl (addReader reader) cells ↔ x ∈ sources ∨ x ∈ cells := by
  induction sources generalizing cells with
  | nil => simp
  | cons source sources ih =>
    rw [List.foldl_cons, ih, mem_addReader, List.mem_cons]
    tauto

namespace Grid

variable {g g' : Grid}

/-- The cells that are stored after a write: the written cell, those that were stored, and those that
the written formula reads. -/
theorem mem_cells_store (g : Grid) (id : CellId) (c : Cell) (x : CellId) :
    x ∈ (g.store id c).cells ↔
      x = id ∨ x ∈ g.cells ∨ x ∈ (g.resolved id.sheet c).precedents := by
  simp only [store, markDirty_cells, Std.ExtTreeSet.foldl_eq_foldl_toList, mem_foldl_addReader,
    Std.ExtTreeSet.mem_toList, Std.ExtTreeMap.mem_insert, Std.LawfulEqCmp.compare_eq_iff_eq,
    mem_foldl_dropReader, eq_comm (a := id)]
  tauto

theorem cell_of_not_mem {x : CellId} (missing : x ∉ g.cells) : g.cell x = .blank :=
  Std.ExtTreeMap.getD_eq_fallback missing

theorem cell_of_getElem? {x : CellId} {c : Cell} (found : g.cells[x]? = some c) : g.cell x = c := by
  rw [cell, Std.ExtTreeMap.getD_eq_getD_getElem?, found]
  rfl

theorem mem_cells_of_filling {x : CellId} (filling : (g.cell x).isFilling = true) : x ∈ g.cells := by
  by_contra missing
  rw [cell_of_not_mem missing] at filling
  cases filling

theorem mem_cells_of_formula_ne {x : CellId} (written : g.formula x ≠ "") : x ∈ g.cells := by
  by_contra missing
  rw [formula, cell_of_not_mem missing] at written
  exact written rfl

theorem mem_cells_of_mem_precedents {x y : CellId} (mem : x ∈ (g.cell y).precedents) :
    y ∈ g.cells := by
  by_contra missing
  rw [cell_of_not_mem missing] at mem
  exact Std.ExtTreeSet.not_mem_empty mem

theorem mem_cells_of_mem_readers {x y : CellId} (mem : y ∈ (g.cell x).readers) : x ∈ g.cells := by
  by_contra missing
  rw [cell_of_not_mem missing] at mem
  exact Std.ExtTreeSet.not_mem_empty mem

theorem Wired.mem_cells_of_precedent (wired : g.Wired) {x y : CellId}
    (mem : x ∈ (g.cell y).precedents) : x ∈ g.cells :=
  mem_cells_of_mem_readers (wired.forth x y mem)

theorem Wired.mem_cells_of_reader (wired : g.Wired) {x y : CellId} (mem : y ∈ (g.cell x).readers) :
    y ∈ g.cells := by
  by_cases same : x = y
  · exact same ▸ mem_cells_of_mem_readers mem
  · exact mem_cells_of_mem_precedents (wired.back x y same mem)

theorem Wired.mem_cells_of_path (wired : g.Wired) {x y : CellId}
    (path : ReflTransGen (ReadBy g.cells) x y) (stored : x ∈ g.cells) : y ∈ g.cells := by
  rcases ReflTransGen.cases_tail path with rfl | ⟨z, -, reader⟩
  · exact stored
  · exact wired.mem_cells_of_reader reader

/-! ### Anchored grids -/

/-- There is a sheet, the cells that are stored lie in the rows and columns of their sheets, which are
counted from 1 if `counted` holds, and only these cells are dirty. -/
structure Anchored (g : Grid) (counted : Prop) : Prop where
  regular : g.Regular
  sheets : g.sheets ≠ []
  stored : ∀ x ∈ g.cells, g.HasIf counted x
  dirty : ∀ x ∈ g.dirty, x ∈ g.cells

theorem sheets_removeSheet {index : Nat} (ok : g.removeSheet index = .ok g') : g'.sheets ≠ [] := by
  obtain ⟨⟨s, found⟩, several, rfl⟩ := removeSheet_eq_ok_iff.mp ok
  have below : index < g.sheets.length := (List.getElem?_eq_some_iff.mp found).1
  rw [sheetRemoved_eq]
  show g.sheets.eraseIdx index ≠ []
  rw [← List.length_pos_iff, List.length_eraseIdx_of_lt below]
  omega

variable {counted : Prop}

namespace Anchored

variable (h : g.Anchored counted)

include h

theorem mono {fewer : Prop} (weaker : fewer → counted) : g.Anchored fewer where
  regular := h.regular
  sheets := h.sheets
  stored x mem := (h.stored x mem).mono weaker
  dirty := h.dirty

theorem contained : g.ContainedIf counted :=
  fun x written => h.stored x (mem_cells_of_formula_ne written)

theorem hasIf_of_reader {x y : CellId} (mem : y ∈ (g.cell x).readers) : g.HasIf counted y :=
  h.stored y (h.regular.wired.mem_cells_of_reader mem)

theorem hasIf_of_filling {x : CellId} (filling : (g.cell x).isFilling = true) : g.HasIf counted x :=
  h.stored x (mem_cells_of_filling filling)

/-- **A write into a cell that the grid has.** -/
theorem store {id : CellId} (placed : g.HasIf counted id) (c : Cell) :
    (g.store id c).Anchored counted where
  regular := ⟨h.regular.wired.store id c, h.regular.names.of_map_name rfl⟩
  sheets := h.sheets
  stored x mem := by
    rcases (mem_cells_store g id c x).mp mem with rfl | mem | mem
    · exact placed
    · exact h.stored x mem
    · exact (has_of_mem_resolved mem).hasIf
  dirty x mem := by
    rcases (mem_dirty_store id c x).mp mem with mem | path
    · exact (mem_cells_store g id c x).mpr (Or.inr (Or.inl (h.dirty x mem)))
    · have start : id ∈ (g.store id c).cells := (mem_cells_store g id c id).mpr (Or.inl rfl)
      exact (h.regular.wired.store id c).mem_cells_of_path path start

theorem growSheet (index rows cols : Nat) : (g.growSheet index rows cols).Anchored counted where
  regular := h.regular.growSheet index rows cols
  sheets same := h.sheets (List.length_eq_zero_iff.mp
    ((List.length_modify _ _ _).symm.trans (List.length_eq_zero_iff.mpr same)))
  stored x mem := (h.stored x mem).growSheet index rows cols
  dirty := h.dirty

theorem await (waiting : List (CellId × String)) : { g with waiting }.Anchored counted where
  regular := (Rewrites.await waiting .refl).regular (P := fun _ => True) h.regular
  sheets := h.sheets
  stored := h.stored
  dirty := h.dirty

/-- A grid with other values only in cells that were dirty stores no more cells. -/
theorem of_alike (alike : g.Alike g') (outside : ∀ x, x ∉ g.dirty → g'.cells[x]? = g.cells[x]?)
    (dirty : ∀ x ∈ g'.dirty, x ∈ g'.cells) : g'.Anchored counted where
  regular := alike.regular h.regular
  sheets := alike.sheets ▸ h.sheets
  stored x mem := by
    have before : x ∈ g.cells := by
      by_cases computed : x ∈ g.dirty
      · exact h.dirty x computed
      · rwa [Std.ExtTreeMap.mem_iff_isSome_getElem?, outside x computed,
          ← Std.ExtTreeMap.mem_iff_isSome_getElem?] at mem
    exact (h.stored x before).of_sheets alike.sheets
  dirty := dirty

/-- **A pass**, which may be cancelled. -/
theorem recompute (hooks : Hooks) : (g.recompute hooks).1.Anchored counted := by
  have linked := h.regular.wired.linked
  refine h.of_alike (recompute_alike h.regular.wired hooks)
    (fun x clean => recompute_outside linked hooks clean) fun x dirty => ?_
  rcases recompute_cases linked.forth hooks with
    ⟨order, p, reached, idle, -, ends⟩ | ⟨-, order, p, reached, ends, -⟩ <;> rw [ends] at dirty ⊢
  · rw [(reached.settle linked idle).clean] at dirty
    exact absurd dirty Std.ExtTreeSet.not_mem_empty
  · -- What the pass did not come to is as it was.
    obtain ⟨before, left⟩ := (reached.dirty x).mp dirty
    have stored := h.dirty x before
    rwa [Std.ExtTreeMap.mem_iff_isSome_getElem?, reached.outside x left,
      ← Std.ExtTreeMap.mem_iff_isSome_getElem?]

/-- **A sheet more.** -/
theorem addSheet {name : String} (ok : g.addSheet name = .ok g') : g'.Anchored counted where
  regular := h.regular.addSheet ok
  sheets := by
    rw [addSheet_eq ok]
    exact List.append_ne_nil_of_right_ne_nil _ (List.cons_ne_nil _ _)
  stored x mem := by
    rw [cells_addSheet ok] at mem
    exact (h.stored x mem).addSheet ok
  dirty x mem := by
    rw [addSheet_eq ok] at mem ⊢
    exact h.dirty x mem

/-- **A sheet less**: what is left keeps its edges, and what becomes dirty has read the sheet. -/
theorem removeSheet {index : Nat} (ok : g.removeSheet index = .ok g') : g'.Anchored counted := by
  have regular := h.regular.removeSheet ok
  have left := sheets_removeSheet ok
  obtain ⟨-, -, rfl⟩ := removeSheet_eq_ok_iff.mp ok
  have kept := fun {x : CellId} => mem_cells_sheetRemoved g index x
  refine ⟨regular, left, fun x mem => (h.stored _ (kept.mp mem)).of_restored, fun x mem => ?_⟩
  rcases (mem_dirty_sheetRemoved g index x).mp mem with dirty | ⟨reader, orphan, path⟩
  · exact kept.mpr (h.dirty _ dirty)
  · obtain ⟨y, -, reads⟩ := (mem_orphans g index reader).mp orphan
    have start : reader ∈ (g.dropSheet index).cells := by
      have stored := kept.mpr (h.regular.wired.mem_cells_of_reader reads)
      rwa [sheetRemoved_eq] at stored
    rw [sheetRemoved_eq]
    exact (h.regular.wired.dropSheet index).mem_cells_of_path path start

end Anchored

/-! ### Writing inside sheets -/

/-- The second grid comes from the first by writing cells that the first has, and by putting formulas
aside. -/
inductive Places (counted : Prop) (g : Grid) : Grid → Prop
  | refl : Places counted g g
  | store {g' : Grid} (id : CellId) (c : Cell) : g.HasIf counted id → Places counted g g' →
      Places counted g (g'.store id c)
  | await {g' : Grid} (waiting : List (CellId × String)) : Places counted g g' →
      Places counted g { g' with waiting }

namespace Places

variable {id : CellId} (h : Places counted g g')

include h

theorem sheets : g'.sheets = g.sheets := by
  induction h with
  | refl => rfl
  | store id c _ _ ih => exact ih
  | await waiting _ ih => exact ih

/-- **Writing cells that a grid has keeps it anchored.** -/
theorem anchored (anchored : g.Anchored counted) : g'.Anchored counted := by
  induction h with
  | refl => exact anchored
  | store id c placed before ih => exact ih.store (placed.of_sheets before.sheets) c
  | await waiting _ ih => exact ih.await waiting

theorem enqueue (placed : g.HasIf counted id) (formula : String) :
    Places counted g (g'.enqueue id formula) :=
  .await _ (.store id _ placed h)

theorem update {u : Update} (placed : g.HasIf counted u.cell) : Places counted g (g'.update u) := by
  rw [Grid.update]
  split
  · exact h.enqueue placed _
  · exact .store u.cell _ placed h

theorem enter (placed : g.HasIf counted id) (text : String) :
    Places counted g (g'.enter id text) := by
  rw [enter_eq_update]
  exact h.update placed

theorem updateAll {us : List Update} (placed : ∀ u ∈ us, g.HasIf counted u.cell) :
    Places counted g (g'.updateAll us).1 :=
  List.foldlRecOn us _ h fun _ before u mem => before.update (placed u mem)

theorem clearAll {ids : List CellId} (placed : ∀ id ∈ ids, g.HasIf counted id) :
    Places counted g (g'.clearAll ids).1 :=
  List.foldlRecOn ids _ h fun _ before id mem => .store id .blank (placed id mem) before

end Places

/-! ### Blocks and lines -/

section

variable {source destination : BoundRange}
  (fits : counted → source.FitsAt destination ∧ 1 ≤ destination.top ∧ 1 ≤ destination.left)

include fits

theorem Anchored.places_cutBlock (h : g.Anchored counted)
    (inside : ∀ x ∈ source.cells, g.HasIf counted x) :
    Places counted g (g.cutBlock source destination).1 := by
  refine cutBlock_induction .refl ?_ ?_ fun _ id mem before => .store id .blank (inside id mem) before
  · exact fun _ target id mem before => before.update (hasIf_of_mem_mapping fits mem)
  · intro _ id mem before
    obtain ⟨⟨x, -, reader⟩, -⟩ := (mem_followers ..).mp mem
    exact before.update (h.hasIf_of_reader reader)

theorem places_copyBlock : Places counted g (g.copyBlock source destination).1 := by
  refine Places.refl.updateAll fun u hu => ?_
  obtain ⟨pair, mem, rfl⟩ := List.mem_map.mp hu
  exact hasIf_of_mem_mapping fits mem

theorem places_copyBlockValues : Places counted g (g.copyBlockValues source destination).1 := by
  refine Places.refl.updateAll fun u hu => ?_
  obtain ⟨pair, mem, rfl⟩ := List.mem_map.mp hu
  exact hasIf_of_mem_mapping fits mem

end

theorem places_sortBlock {range : BoundRange} (ok : g.checkRange range = .ok ()) (column : Nat)
    (ascending : Bool) : Places counted g (g.sortBlock range column ascending).1 :=
  Places.refl.updateAll fun u hu => (has_of_mem_sorted ok column ascending u hu).hasIf

section

variable {kind : LineKind} {sheet line : Nat} {s : Sheet} (h : g.Anchored counted)
  (found : g.sheets[sheet]? = some s) (first : 1 ≤ s.rows ∧ 1 ≤ s.cols)

include h found first

/-- The cells of a line that is deleted become blank, and those after it are laid out on it. -/
theorem Anchored.deleted (small : counted → g.SizedBelow signedLimit) (positive : 1 ≤ line)
    (within : line ≤ kind.count s.bounds) :
    (g.deleted kind sheet line s.bounds).Anchored counted := by
  have cleared : Places counted g (g.cleared kind sheet line s.bounds) := by
    refine Places.refl.clearAll fun x mem => ?_
    rw [mem_cells_iff, contains_line_iff found positive within first] at mem
    exact mem.2.hasIf
  rw [Grid.deleted]
  split
  · rename_i later
    have fits : counted → (behind kind sheet line s.bounds).FitsAt (single (kind.head sheet line)) :=
      fun counts => fitsAt_behind (small counts s (List.mem_of_getElem? found)) later first
    refine ((cleared.anchored h).places_cutBlock
      (fun counts => ⟨fits counts, kind.one_le_single_head sheet positive⟩)
        fun x mem => ?_).anchored (cleared.anchored h)
    rw [mem_cells_iff, contains_behind_iff later first found] at mem
    exact (mem.2.of_sheets cleared.sheets).hasIf
  · exact cleared.anchored h

/-- What comes after a line that is inserted is moved on the sheet that has grown. -/
theorem Anchored.cutBlock_reach {rows cols : Nat} {destination : BoundRange}
    (positive : counted → 1 ≤ line)
    (within : line ≤ kind.count ⟨max s.rows rows, max s.cols cols⟩)
    (fits : counted → (g.reach kind sheet line).FitsAt destination ∧
      1 ≤ destination.top ∧ 1 ≤ destination.left) :
    ((g.growSheet sheet rows cols).cutBlock (g.reach kind sheet line) destination).1.Anchored
      counted := by
  have grown : (g.growSheet sheet rows cols).Anchored counted := h.growSheet ..
  refine (grown.places_cutBlock fits fun x mem => ?_).anchored grown
  refine grown.contained.hasIf_of_contains_reach (growSheet_self found rows cols) positive within
    ⟨?_, ?_⟩ ((mem_cells_iff _ x).mp mem)
  · exact first.1.trans (Nat.le_max_left _ _)
  · exact first.2.trans (Nat.le_max_left _ _)

/-- What comes after a line that is inserted is moved inside the sheet that has grown. -/
theorem Anchored.inserted (small : counted → g.SizedBelow signedLimit) {edit : LineEdit}
    (inserts : edit ≠ .delete) {id : CellId} (here : id.sheet = sheet)
    (inside : s.contains id.row id.col = true) :
    (g.editLine kind edit id s.bounds).1.Anchored counted := by
  obtain ⟨⟨positive, within⟩, -⟩ := index_of_contains kind inside
  have next := edit.inserted_le within
  have positive : 1 ≤ edit.inserted kind id := Nat.le_add_right_of_le positive
  by_cases counts : counted
  · have few := small counts s (List.mem_of_getElem? found)
    have room : kind.count s.bounds + 2 < coordinateLimit := by
      have double : coordinateLimit = 2 * signedLimit := by decide
      have many : 2 < signedLimit := by decide
      cases kind <;> dsimp only [LineKind.count, Sheet.bounds] <;> omega
    rw [h.contained.editLine_insert found inserts here within first room]
    have fits := h.contained.fitsAt_advance_reach found next first few
    refine h.cutBlock_reach found first (fun _ => positive) ?_ fun _ =>
      ⟨fits, g.one_le_advance_reach kind sheet positive⟩
    cases kind <;> exact Nat.le_trans next (Nat.le_max_right _ _)
  · -- Where rows and columns need not be counted from 1, the cells may be laid out anywhere.
    subst here
    obtain ⟨rows, cols, destination, edited, within⟩ := exists_editLine_insert kind inserts within
    rw [edited]
    exact h.cutBlock_reach found first (absurd · counts) within (absurd · counts)

theorem Anchored.editLine (small : counted → g.SizedBelow signedLimit) (edit : LineEdit) {id : CellId}
    (here : id.sheet = sheet) (inside : s.contains id.row id.col = true) :
    (g.editLine kind edit id s.bounds).1.Anchored counted := by
  by_cases deletes : edit = .delete
  · subst deletes here
    obtain ⟨⟨positive, within⟩, -⟩ := index_of_contains kind inside
    rw [editLine_delete]
    exact h.deleted found first small positive within
  · exact h.inserted found first small deletes here inside

end

/-! ### What follows the writes -/

theorem sheets_fill (g : Grid) (id : CellId) (formula : String) (draws : Draws) :
    (g.fill id formula draws).1.sheets = g.sheets :=
  List.foldlRecOn (motive := fun g' : Grid => g'.sheets = g.sheets) _ _ rfl fun _ same _ _ => same

theorem sheets_finish (regular : g.Regular) (hooks : Hooks) (written : List CellId)
    (invalidate : Bool) : (g.finish hooks written invalidate).1.sheets = g.sheets := by
  refine (finish_induction (motive := fun g' => Rewrites (fun _ => True) g g' ∧ g'.sheets = g.sheets)
    hooks ⟨.refl, rfl⟩ ?_ (fun _ before => ⟨.await [] before.1, before.2⟩) ?_ written invalidate).2
  · rintro g' hooks ⟨before, same⟩
    have wired := (before.regular regular).wired
    exact ⟨.recompute hooks before, (recompute_alike wired hooks).sheets.trans same⟩
  · rintro g' id draws - - ⟨before, same⟩
    exact ⟨before.trans (rewrites_fill inherited_true g' id draws trivial),
      (sheets_fill g' id _ draws).trans same⟩

theorem places_fill {id : CellId} (placed : g.HasIf counted id) {formula : String} {draws : Draws}
    (fits : counted → FitsBeside (g.view draws) id formula) :
    Places counted g (g.fill id formula draws).1 := by
  have status : Places counted g
      (g.store id (.filling formula (evaluate (g.view draws) id formula).toText)) :=
    .store id _ placed .refl
  refine List.foldlRecOn _ _ status fun _ before o mem => .store o.cell _ ?_ before
  exact placed.of_mem_outputs fits (List.mem_of_mem_filter mem)

/-- **What follows the writes of an edit**, two passes and the formulas that fill cells between them.
The sheets stay as they are, so that they are small before if they are small afterwards. -/
theorem Anchored.finish (h : g.Anchored counted) (hooks : Hooks) (written : List CellId)
    (invalidate : Bool) (small : counted → (g.finish hooks written invalidate).1.SizedBelow signedLimit)
    (few : counted → ∀ entry ∈ g.waiting, NamesFew entry.2) :
    (g.finish hooks written invalidate).1.Anchored counted := by
  have waiting : (g.recompute hooks).1.waiting = g.waiting :=
    (recompute_alike h.regular.wired hooks).waiting
  have same := sheets_finish h.regular hooks written invalidate
  refine (finish_induction (motive := fun g' => g'.Anchored counted ∧ g'.sheets = g.sheets) hooks
    ⟨h, rfl⟩ ?_ (fun _ before => ⟨before.1.await [], before.2⟩) ?_ written invalidate).1
  · rintro g' hooks ⟨before, same⟩
    exact ⟨before.recompute hooks, (recompute_alike before.regular.wired hooks).sheets.trans same⟩
  · rintro g' id draws mem filling ⟨before, same'⟩
    have placed := before.hasIf_of_filling filling
    rw [waiting] at mem
    have fills : Places counted g' (g'.fill id (g'.formula id) draws).1 := by
      refine places_fill placed fun counts => fitsBeside_of_namesFew ?_ g' draws (placed.small ?_)
      · exact few counts (id, g'.formula id) mem
      · rw [SizedBelow, same', ← same]
        exact small counts
    exact ⟨fills.anchored before, fills.sheets.trans same'⟩

/-! ### Edits -/

/-- **An edit that is accepted** writes only cells that the grid has. -/
theorem Anchored.write (h : g.Anchored counted) (small : counted → g.SizedBelow signedLimit) {edit : Edit}
    {written : List CellId} {invalidate : Bool}
    (ok : g.write edit = .ok ((g', written), invalidate)) : g'.Anchored counted := by
  have has : ∀ {range : BoundRange}, g.checkRange range = .ok () →
      ∀ x ∈ range.cells, g.HasIf counted x :=
    fun inside x mem => (has_of_checkRange inside ((mem_cells_iff _ x).mp mem)).hasIf
  cases writes_of_write ok with
  | set id text inside =>
    exact (Places.refl.enter (has_of_checkInside inside).hasIf text).anchored h
  | batch ids texts _ inside =>
    refine Places.anchored (List.foldlRecOn _ _ .refl fun _ before pair mem => ?_) h
    exact before.enter (has_of_forM inside pair.1 (List.of_mem_zip mem).1).hasIf pair.2
  | copy source destination sourceInside inside =>
    have fits := fun counts => fitsAt_of_checkRange (small counts) sourceInside inside
    exact (places_copyBlock fits).anchored h
  | cut source destination sourceInside inside =>
    have fits := fun counts => fitsAt_of_checkRange (small counts) sourceInside inside
    exact (h.places_cutBlock fits (has sourceInside)).anchored h
  | copyValues source destination sourceInside inside =>
    have fits := fun counts => fitsAt_of_checkRange (small counts) sourceInside inside
    exact (places_copyBlockValues fits).anchored h
  | sort range column ascending inside =>
    exact (places_sortBlock inside column ascending).anchored h
  | resize index rows cols => exact h.growSheet index rows cols
  | addSheet name added => exact h.addSheet added
  | removeSheet index removed => exact h.removeSheet removed
  | line kind edit id found inside =>
    exact h.editLine found (index_of_contains kind inside).2 small edit rfl inside
  | clear range inside => exact (Places.refl.clearAll (has inside)).anchored h

/-- The formulas that an edit puts aside, to fill cells after the first pass, name few references. -/
def FillsFew (g : Grid) : Action → Prop
  | .edit _ edit =>
    match g.write edit with
    | .ok result => ∀ entry ∈ result.1.1.waiting, NamesFew entry.2
    | .error _ => True
  | .importRows .. => True

instance (g : Grid) : DecidablePred g.FillsFew
  | .edit _ edit => by
    rw [FillsFew]
    cases g.write edit <;> exact inferInstance
  | .importRows .. => .isTrue trivial

theorem waiting_updateAll {us : List Update} (plain : ∀ u ∈ us, u.filling = false) (g : Grid) :
    (g.updateAll us).1.waiting = g.waiting := by
  refine List.foldlRecOn (motive := fun g' : Grid => g'.waiting = g.waiting) us _ rfl fun g' same u mem => ?_
  rw [update, plain u mem]
  exact same

/-- **An action**, accepted or refused. -/
theorem Anchored.perform (h : g.Anchored counted) (idle : g.waiting = []) {action : Action}
    (before : counted → g.SizedBelow signedLimit) (after : counted → (g.perform action).SizedBelow signedLimit)
    (few : counted → g.FillsFew action) : (g.perform action).Anchored counted := by
  cases action with
  | importRows index rows draws =>
    cases done : g.importRows index rows draws with
    | error e => rwa [Grid.perform, done]
    | ok result =>
      obtain ⟨g₁, outcome⟩ := result
      obtain ⟨s, found, -⟩ := ok_of_bind done
      have known : ∃ s, g.sheets[index]? = some s := ⟨s, sheet_eq_ok_iff.mp found⟩
      have imported : Places counted _ _ :=
        Places.refl.updateAll fun u (mem : u ∈ importUpdates index rows) =>
          (has_of_mem_importUpdates known mem).hasIf
      have ends : g.perform (.importRows index rows draws) = g₁ := by rw [Grid.perform, done]
      rw [ends, ← importRows_eq done] at after ⊢
      refine (imported.anchored (h.growSheet index rows.length _)).finish _ _ _ after fun _ => ?_
      rw [waiting_updateAll (plain_of_mem_importUpdates index rows)]
      exact idle ▸ List.forall_mem_nil _
  | edit hooks edit =>
    cases wrote : g.write edit with
    | error e => rwa [perform_of_refused wrote]
    | ok result =>
      obtain ⟨⟨g₁, written⟩, invalidate⟩ := result
      rw [FillsFew, wrote] at few
      rw [perform_of_write wrote] at after ⊢
      exact (h.write before wrote).finish hooks written invalidate after few

/-! ### Every grid that has a history -/

theorem anchored_new (options : Options) (counted : Prop) : (new options).Anchored counted where
  regular := regular_new options
  sheets := by
    rw [new, Ne, List.map_eq_nil_iff, firstNames]
    split
    · exact List.cons_ne_nil _ _
    · rename_i names
      simpa using names
  stored x mem := absurd mem Std.ExtTreeMap.not_mem_empty
  dirty x mem := absurd mem Std.ExtTreeSet.not_mem_empty

/-- All sheets of a history are small, and the formulas that fill cells name few references, so that no
row and no column outgrows the words that hold them. -/
def StaysSmall (options : Options) : List Action → Prop
  | [] => (new options).SizedBelow signedLimit
  | action :: history =>
    ((ofHistory options history).perform action).SizedBelow signedLimit ∧
      (ofHistory options history).FillsFew action ∧ StaysSmall options history

instance decidableStaysSmall (options : Options) : DecidablePred (StaysSmall options)
  | [] => inferInstanceAs (Decidable ((new options).SizedBelow signedLimit))
  | _ :: history =>
    have := decidableStaysSmall options history
    inferInstanceAs (Decidable (_ ∧ _))

theorem StaysSmall.sheets {options : Options} : ∀ {history : List Action},
    StaysSmall options history → (ofHistory options history).SizedBelow signedLimit
  | [], small => small
  | _ :: _, small => small.1

/-- **Every grid that has a history is anchored**, and rows and columns are counted from 1 as long as
they are words. -/
theorem anchored_ofHistory (options : Options) (history : List Action) :
    (ofHistory options history).Anchored (StaysSmall options history) := by
  induction history with
  | nil => exact anchored_new options _
  | cons action history ih =>
    exact (ih.mono fun small => small.2.2).perform (waiting_ofHistory options history)
      (fun small => small.2.2.sheets) (fun small => small.1) fun small => small.2.1

/-- **Every grid that has a history has its formulas inside its sheets**, as long as rows and columns
are words. -/
theorem contained_ofHistory {options : Options} {history : List Action}
    (small : StaysSmall options history) : (ofHistory options history).Contained :=
  (anchored_ofHistory options history).contained.contained small

end Grid

end Spreadsheet
