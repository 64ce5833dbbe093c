import Spreadsheet.Proofs.Grid.Currency
import Spreadsheet.Proofs.Grid.Removal

/-!
# Values after a sheet is removed

When a sheet is removed, what reads it is marked dirty; all other formulas read the same values in
their new places.  So the invariant of values survives, with the name of the sheet among the removed
ones.

* `Grid.index?_dropSheet`: which names are found where.
* `Grid.edge_dropSheet`: the edges are the earlier ones between the cells that are left.
* `Grid.Tracked.removeSheet`: removing a sheet keeps the invariant.
-/

namespace Spreadsheet.Grid

open Relation

variable {g g' : Grid} {removed : List String} {index : Nat}

/-! ### Names -/

theorem ProperNames.index?_eq_some_iff (h : g.ProperNames) (name : String) (i : Nat) :
    g.directory.index? name = some i ↔ (g.sheets.map Sheet.name)[i]? = some name := by
  rw [List.getElem?_map]
  exact Directory.index?_ofSheets_eq_some_iff h.nodup name i

theorem index?_dropSheet (h : g.ProperNames) (index : Nat) (name : String) (i : Nat) :
    (g.dropSheet index).directory.index? name = some i ↔
      g.directory.index? name = some (restoredSheet index i) := by
  rw [(h.dropSheet index).index?_eq_some_iff, h.index?_eq_some_iff, List.getElem?_map,
    List.getElem?_map]
  show Option.map Sheet.name (g.sheets.eraseIdx index)[i]? = _ ↔ _
  rw [List.getElem?_eraseIdx, restoredSheet]
  split <;> rfl

theorem sheet?_dropSheet (h : g.ProperNames) (index : Nat) (m : Formula.Mention) (home i : Nat) :
    m.sheet? home (g.dropSheet index).directory = some i ↔
      m.sheet? (restoredSheet index home) g.directory = some (restoredSheet index i) := by
  rw [Formula.Mention.sheet?, Formula.Mention.sheet?]
  cases m.writtenSheet with
  | some name => exact index?_dropSheet h index name i
  | none =>
    simp only [Option.some.injEq, restoredSheet]
    split <;> split <;> omega

/-! ### Edges -/

theorem edge_dropSheet (g : Grid) (index : Nat) (u y : CellId) :
    (g.dropSheet index).Edge u y ↔ g.Edge (restored index u) (restored index y) := by
  rw [Edge, Edge, cell_dropSheet, cellWithoutSheet, mem_setWithoutSheet]

theorem value_dropSheet (g : Grid) (index : Nat) (x : CellId) :
    (g.dropSheet index).value x = g.value (restored index x) := by
  rw [value, cell_dropSheet]
  rfl

theorem formula_dropSheet (g : Grid) (index : Nat) (x : CellId) :
    (g.dropSheet index).formula x = g.formula (restored index x) := by
  rw [formula, cell_dropSheet]
  rfl

theorem isFilling_dropSheet (g : Grid) (index : Nat) (x : CellId) :
    ((g.dropSheet index).cell x).isFilling = (g.cell (restored index x)).isFilling := by
  rw [cell_dropSheet]
  rfl

theorem exists_restored {x : CellId} (h : x.sheet ≠ index) : ∃ u, x = restored index u := by
  obtain ⟨s, row, col⟩ := x
  by_cases before : s < index
  · exact ⟨⟨s, row, col⟩, by simp [restored, restoredSheet, before]⟩
  · have below : ¬ s - 1 < index := by simp at h; omega
    refine ⟨⟨s - 1, row, col⟩, ?_⟩
    simp only [restored, restoredSheet, if_neg below, CellId.mk.injEq, and_self, and_true]
    simp at h
    omega

theorem mem_orphans (g : Grid) (index : Nat) (y : CellId) :
    y ∈ g.orphans index ↔
      ∃ x : CellId, x.sheet = index ∧ restored index y ∈ (g.cell x).readers := by
  rw [orphans, List.mem_flatMap]
  constructor
  · rintro ⟨⟨x, c⟩, stored, hy⟩
    obtain ⟨stored, sheet⟩ := List.mem_filter.mp stored
    obtain ⟨reader, mem, found⟩ := List.mem_filterMap.mp hy
    rw [withoutSheet?_eq_some_iff] at found
    refine ⟨x, eq_of_beq sheet, ?_⟩
    rw [cell, Std.ExtTreeMap.getD_eq_getD_getElem?,
      Std.ExtTreeMap.mem_toList_iff_getElem?_eq_some.mp stored, ← found]
    exact Std.ExtTreeSet.mem_toList.mp mem
  · rintro ⟨x, sheet, reader⟩
    cases found : g.cells[x]? with
    | none =>
      rw [cell, Std.ExtTreeMap.getD_eq_getD_getElem?, found] at reader
      exact absurd reader Std.ExtTreeSet.not_mem_empty
    | some c =>
      rw [cell, Std.ExtTreeMap.getD_eq_getD_getElem?, found] at reader
      refine ⟨(x, c), List.mem_filter.mpr
        ⟨Std.ExtTreeMap.mem_toList_iff_getElem?_eq_some.mpr found, by simp [sheet]⟩, ?_⟩
      exact List.mem_filterMap.mpr ⟨_, Std.ExtTreeSet.mem_toList.mpr reader,
        (withoutSheet?_eq_some_iff _ _ _).mpr rfl⟩

theorem mem_dirty_sheetRemoved (g : Grid) (index : Nat) (y : CellId) :
    y ∈ (g.sheetRemoved index).dirty ↔
      restored index y ∈ g.dirty ∨
        ∃ o ∈ g.orphans index, ReflTransGen (ReadBy (g.dropSheet index).cells) o y := by
  rw [sheetRemoved, mem_foldl_markDirty_iff]
  show y ∈ setWithoutSheet index g.dirty ∨ _ ↔ _
  rw [mem_setWithoutSheet]

theorem edge_sheetRemoved (g : Grid) (index : Nat) (u y : CellId) :
    (g.sheetRemoved index).Edge u y ↔ g.Edge (restored index u) (restored index y) := by
  rw [sheetRemoved_eq]
  exact edge_dropSheet g index u y

theorem Closed.sheetRemoved (h : g.Closed) (wired : g.Wired) (index : Nat) :
    (g.sheetRemoved index).Closed := by
  intro u dirty y edge
  rw [edge_sheetRemoved] at edge
  rw [mem_dirty_sheetRemoved] at dirty ⊢
  rcases dirty with dirty | ⟨o, orphan, path⟩
  · exact Or.inl (h _ dirty _ edge)
  · refine Or.inr ⟨o, orphan, path.tail ?_⟩
    exact (wired.dropSheet index).forth u y ((edge_dropSheet g index u y).mpr edge)

theorem exists_restored_of_edge (wired : g.Wired) {x y : CellId}
    (clean : y ∉ (g.sheetRemoved index).dirty) (edge : g.Edge x (restored index y)) :
    ∃ u, x = restored index u ∧ (g.sheetRemoved index).Edge u y := by
  have elsewhere : x.sheet ≠ index := by
    intro sheet
    refine clean ((mem_dirty_sheetRemoved g index y).mpr (Or.inr ⟨y, ?_, .refl⟩))
    exact (mem_orphans g index y).mpr ⟨x, sheet, wired.forth _ _ edge⟩
  obtain ⟨u, rfl⟩ := exists_restored elsewhere
  exact ⟨u, rfl, (edge_sheetRemoved g index u y).mpr edge⟩

theorem exists_restored_of_path (wired : g.Wired) (closed : (g.sheetRemoved index).Closed)
    {x y : CellId} (clean : y ∉ (g.sheetRemoved index).dirty)
    (path : ReflTransGen g.Edge x (restored index y)) :
    ∃ u, x = restored index u ∧ ReflTransGen (g.sheetRemoved index).Edge u y := by
  induction path using ReflTransGen.head_induction_on with
  | refl => exact ⟨y, rfl, .refl⟩
  | head edge _ ih =>
    obtain ⟨v, rfl, path⟩ := ih
    obtain ⟨u, rfl, edge'⟩ := exists_restored_of_edge wired (closed.not_mem clean path) edge
    exact ⟨u, rfl, .head edge' path⟩

theorem onCycle_restored {y : CellId} (cycle : OnCycle (g.sheetRemoved index).Edge y) :
    OnCycle g.Edge (restored index y) :=
  TransGen.lift (restored index) (fun u v => (edge_sheetRemoved g index u v).mp) y y cycle

theorem behindCycle_of_restored (wired : g.Wired) (closed : (g.sheetRemoved index).Closed)
    {y : CellId} (clean : y ∉ (g.sheetRemoved index).dirty)
    (behind : BehindCycle g.Edge (restored index y)) :
    BehindCycle (g.sheetRemoved index).Edge y := by
  obtain ⟨z, cycle, path⟩ := behind
  obtain ⟨u, rfl, path'⟩ := exists_restored_of_path wired closed clean path
  have clean' := closed.not_mem clean path'
  obtain ⟨w, around, last⟩ := TransGen.tail'_iff.mp cycle
  obtain ⟨v, rfl, last'⟩ := exists_restored_of_edge wired clean' last
  obtain ⟨u', same, around'⟩ := exists_restored_of_path wired closed
    (closed.not_mem clean' (.single last')) around
  cases restored_injective index same
  exact ⟨u, TransGen.tail'_iff.mpr ⟨v, around', last'⟩, path'⟩

/-! ### Formulas -/

theorem mem_cellsOn_restored (index : Nat) (m : Formula.Mention) (sheet : Nat) (u : CellId) :
    restored index u ∈ m.cellsOn (restoredSheet index sheet) ↔ u ∈ m.cellsOn sheet := by
  rw [Formula.Mention.mem_cellsOn, Formula.Mention.mem_cellsOn]
  have inj : restoredSheet index u.sheet = restoredSheet index sheet ↔ u.sheet = sheet := by
    rw [restoredSheet, restoredSheet]
    split <;> split <;> omega
  show restoredSheet index u.sheet = _ ∧ _ ↔ _
  rw [inj]
  rfl

theorem reads_dropSheet (h : g.ProperNames) (index : Nat) (home : Nat) (formula : String)
    (u : CellId) :
    Formula.Reads home (g.dropSheet index).directory formula u ↔
      Formula.Reads (restoredSheet index home) g.directory formula (restored index u) := by
  constructor
  · rintro ⟨m, hm, sheet, found, hu⟩
    exact ⟨m, hm, _, (sheet?_dropSheet h index m.1 home sheet).mp found,
      (mem_cellsOn_restored index m.1 sheet u).mpr hu⟩
  · rintro ⟨m, hm, sheet, found, hu⟩
    have same : restoredSheet index u.sheet = sheet :=
      ((Formula.Mention.mem_cellsOn _ _ _).mp hu).1
    subst same
    exact ⟨m, hm, u.sheet, (sheet?_dropSheet h index m.1 home u.sheet).mpr found,
      (mem_cellsOn_restored index m.1 u.sheet u).mp hu⟩

theorem termOn_restored (index : Nat) (m : Formula.Mention) (sheet : Nat) :
    m.termOn (g.sheetRemoved index).view sheet =
      m.termOn g.view (restoredSheet index sheet) := by
  have term : ∀ u, (g.sheetRemoved index).view.term u = g.view.term (restored index u) := by
    intro u
    rw [view_term, view_term, sheetRemoved_eq]
    exact congrArg Term.ofValue (value_dropSheet g index u)
  cases m with
  | cell r => exact term _
  | range r =>
    have cells : (r.onSheet (restoredSheet index sheet)).cells =
        (r.onSheet sheet).cells.map (restored index) := by
      rw [Range.cells, Range.cells, List.map_flatMap]
      simp only [List.map_map]
      rfl
    have values : (r.onSheet (restoredSheet index sheet)).cells.map g.view.term =
        (r.onSheet sheet).cells.map (g.sheetRemoved index).view.term := by
      rw [cells, List.map_map]
      exact List.map_congr_left fun u _ => (term u).symm
    rw [Formula.Mention.termOn, Formula.Mention.termOn, values]
    rfl

theorem formulaValue_sheetRemoved (h : g.Tracked removed) {y : CellId}
    (clean : y ∉ (g.sheetRemoved index).dirty)
    (notFilling : (g.cell (restored index y)).isFilling = false)
    (noRandom : ¬ Formula.CallsRandom (g.formula (restored index y))) :
    (g.sheetRemoved index).formulaValue y = g.formulaValue (restored index y) := by
  have formula : (g.sheetRemoved index).formula y = g.formula (restored index y) := by
    rw [sheetRemoved_eq]
    exact formula_dropSheet g index y
  have sheet? : ∀ m : Formula.Mention, ∀ i,
      m.sheet? y.sheet (g.sheetRemoved index).directory = some i ↔
        m.sheet? (restored index y).sheet g.directory = some (restoredSheet index i) := by
    rw [sheetRemoved_eq]
    exact fun m => sheet?_dropSheet h.regular.names index m y.sheet
  rw [formulaValue, formulaValue, formula]
  refine congrArg Term.toValue (Formula.evaluate_of_terms (fun random => absurd random noRandom) ?_)
  intro m hm
  have view : m.1.sheet? y.sheet (g.sheetRemoved index).view.toDirectory =
      m.1.sheet? y.sheet (g.sheetRemoved index).directory := rfl
  rw [Formula.Mention.term_eq, Formula.Mention.term_eq, view]
  cases before : m.1.sheet? (restored index y).sheet g.directory with
  | none =>
    have after : m.1.sheet? y.sheet (g.sheetRemoved index).directory = none := by
      rw [Option.eq_none_iff_forall_ne_some]
      intro i found
      rw [(sheet? m.1 i).mp found] at before
      cases before
    rw [after]
    have before' : m.1.sheet? (restored index y).sheet g.view.toDirectory = none := before
    rw [before']
  | some i =>
    -- The reference is not to the sheet that is removed, or the cell would be dirty.
    obtain ⟨row, col, covers⟩ := m.1.exists_covers
    have reads : Formula.Reads (restored index y).sheet g.directory (g.formula (restored index y))
        ⟨i, row, col⟩ :=
      ⟨m, hm, i, before, (Formula.Mention.mem_cellsOn _ _ _).mpr ⟨rfl, covers⟩⟩
    obtain ⟨u, same, -⟩ := exists_restored_of_edge h.regular.wired clean
      ((h.traced _ notFilling _).mpr reads)
    have sheet : i = restoredSheet index u.sheet := congrArg CellId.sheet same
    subst sheet
    have before' : m.1.sheet? (restored index y).sheet g.view.toDirectory =
      some (restoredSheet index u.sheet) := before
    rw [(sheet? m.1 u.sheet).mpr before, before']
    exact termOn_restored index m.1 u.sheet

/-! ### The invariant -/

theorem Current.sheetRemoved (h : g.Tracked removed) (index : Nat) :
    (g.sheetRemoved index).Current := by
  have wired := h.regular.wired
  have closed := h.closed.sheetRemoved wired index
  have formula : ∀ y, (g.sheetRemoved index).formula y = g.formula (restored index y) := by
    rw [sheetRemoved_eq]
    exact formula_dropSheet g index
  have value : ∀ y, (g.sheetRemoved index).value y = g.value (restored index y) := by
    rw [sheetRemoved_eq]
    exact value_dropSheet g index
  have filling : ∀ y, ((g.sheetRemoved index).cell y).isFilling =
      (g.cell (restored index y)).isFilling := by
    rw [sheetRemoved_eq]
    exact isFilling_dropSheet g index
  have before : ∀ y, y ∉ (g.sheetRemoved index).dirty → restored index y ∉ g.dirty :=
    fun y clean dirty => clean ((mem_dirty_sheetRemoved g index y).mpr (Or.inl dirty))
  constructor
  · intro y clean notFilling noRandom free
    rw [filling] at notFilling
    rw [formula] at noRandom
    rw [value, formulaValue_sheetRemoved h clean notFilling noRandom]
    exact h.current.value _ (before y clean) notFilling noRandom
      fun behind => free (behindCycle_of_restored wired closed clean behind)
  · intro y clean cycle
    rw [value, formula]
    exact h.current.circular _ (before y clean) (onCycle_restored cycle)

theorem Named.sheetRemoved (h : g.Named removed) (names : g.ProperNames) {s : Sheet}
    (found : g.sheets[index]? = some s) : (g.sheetRemoved index).Named (s.name :: removed) := by
  rw [sheetRemoved_eq]
  intro y notFilling m hm unresolved
  have filling := isFilling_dropSheet g index y
  have formula := formula_dropSheet g index y
  replace notFilling : (g.cell (restored index y)).isFilling = false := filling ▸ notFilling
  replace hm : m ∈ Formula.mentions (g.formula (restored index y)) := formula ▸ hm
  replace unresolved : m.1.sheet? y.sheet (g.dropSheet index).directory = none := unresolved
  cases before : m.1.sheet? (restored index y).sheet g.directory with
  | none =>
    obtain ⟨name, used, written⟩ := h _ notFilling m hm before
    exact ⟨name, List.mem_cons_of_mem _ used, written⟩
  | some i =>
    by_cases same : i = index
    · subst same
      rw [Formula.Mention.sheet?] at before
      split at before
      · exact absurd (Option.some.inj before) (restoredSheet_ne i y.sheet)
      · rename_i name written
        rw [names.index?_eq_some_iff, List.getElem?_map, found] at before
        exact ⟨name, by rw [← Option.some.inj before]; exact List.mem_cons_self, written⟩
    · have elsewhere : (⟨i, 0, 0⟩ : CellId).sheet ≠ index := same
      obtain ⟨u, hu⟩ := exists_restored elsewhere
      have sheet : i = restoredSheet index u.sheet := congrArg CellId.sheet hu
      rw [sheet, show (restored index y).sheet = restoredSheet index y.sheet from rfl,
        ← sheet?_dropSheet names] at before
      rw [before] at unresolved
      cases unresolved

/-- **Removing a sheet keeps the invariant**, with its name among the removed ones. -/
theorem Tracked.removeSheet {s : Sheet} (h : g.Tracked removed)
    (ok : g.removeSheet index = .ok g') (found : g.sheets[index]? = some s) :
    g'.Tracked (s.name :: removed) := by
  have regular := h.regular.removeSheet ok
  obtain ⟨-, -, rfl⟩ := removeSheet_eq_ok_iff.mp ok
  refine ⟨regular, ?_, h.named.sheetRemoved h.regular.names found,
    h.closed.sheetRemoved h.regular.wired index, Current.sheetRemoved h index⟩
  rw [sheetRemoved_eq]
  intro y notFilling x
  have filling := isFilling_dropSheet g index y
  have formula := formula_dropSheet g index y
  replace notFilling : (g.cell (restored index y)).isFilling = false := filling ▸ notFilling
  show (g.dropSheet index).Edge x y ↔
    Formula.Reads y.sheet (g.dropSheet index).directory ((g.dropSheet index).formula y) x
  rw [edge_dropSheet, formula, reads_dropSheet h.regular.names]
  exact h.traced _ notFilling _

end Spreadsheet.Grid
