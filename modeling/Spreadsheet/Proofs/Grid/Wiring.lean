import Mathlib.Tactic.SplitIfs
import Spreadsheet.Proofs.Grid.Marking

/-!
# The edges of a grid

`Grid.store` rewires one cell.  This file says what that does to each cell, field by field, and that
it keeps the grid `Wired`:

* `Grid.Wired`: what a cell reads lists it as a reader; what lists another cell as a reader is read by
  it; and a formula that fills other cells reads nothing.
* `Grid.Forth`: the first of these alone.
* `Grid.Forth.store` and `Grid.Wired.store`: writing a cell keeps a grid so.
* `Grid.mem_readers_store_self`: the one pair of edges that can come apart is that of a cell with
  itself, because a cell that is written keeps all its readers, itself included.
-/

namespace Spreadsheet

/-! ### Readers -/

theorem getD_dropReader (reader source : CellId) (cells : CellMap Cell) (x : CellId) :
    (dropReader reader cells source).getD x .blank =
      if x = source then
        { cells.getD x .blank with readers := (cells.getD x .blank).readers.erase reader }
      else cells.getD x .blank := by
  rw [dropReader]
  cases found : cells[source]? with
  | none =>
    by_cases same : x = source
    · subst same
      rw [if_pos rfl, Std.ExtTreeMap.getD_eq_getD_getElem?, found]
      simp [Cell.blank]
    · rw [if_neg same]
  | some c =>
    simp only [Std.ExtTreeMap.getD_insert, Std.LawfulEqCmp.compare_eq_iff_eq]
    by_cases same : x = source
    · subst same
      simp [Std.ExtTreeMap.getD_eq_getD_getElem?, found]
    · rw [if_neg (Ne.symm same), if_neg same]

theorem getD_addReader (reader source : CellId) (cells : CellMap Cell) (x : CellId) :
    (addReader reader cells source).getD x .blank =
      if x = source then
        { cells.getD x .blank with readers := (cells.getD x .blank).readers.insert reader }
      else cells.getD x .blank := by
  simp only [addReader, Std.ExtTreeMap.getD_insert, Std.LawfulEqCmp.compare_eq_iff_eq]
  by_cases same : x = source
  · subst same
    simp
  · rw [if_neg (Ne.symm same), if_neg same]

theorem erase_erase_self (s : CellSet) (x : CellId) : (s.erase x).erase x = s.erase x := by
  ext y
  simp [Std.ExtTreeSet.mem_erase]

theorem insert_insert_self (s : CellSet) (x : CellId) : (s.insert x).insert x = s.insert x := by
  ext y
  simp [Std.ExtTreeSet.mem_insert]

theorem getD_foldl_dropReader (reader : CellId) (sources : List CellId) (cells : CellMap Cell)
    (x : CellId) :
    (sources.foldl (dropReader reader) cells).getD x .blank =
      if x ∈ sources then
        { cells.getD x .blank with readers := (cells.getD x .blank).readers.erase reader }
      else cells.getD x .blank := by
  induction sources generalizing cells with
  | nil => simp
  | cons source sources ih =>
    rw [List.foldl_cons, ih, getD_dropReader]
    by_cases same : x = source
    · subst same
      simp [erase_erase_self]
    · simp [same]

theorem getD_foldl_addReader (reader : CellId) (sources : List CellId) (cells : CellMap Cell)
    (x : CellId) :
    (sources.foldl (addReader reader) cells).getD x .blank =
      if x ∈ sources then
        { cells.getD x .blank with readers := (cells.getD x .blank).readers.insert reader }
      else cells.getD x .blank := by
  induction sources generalizing cells with
  | nil => simp
  | cons source sources ih =>
    rw [List.foldl_cons, ih, getD_addReader]
    by_cases same : x = source
    · subst same
      simp [insert_insert_self]
    · simp [same]

/-! ### What a write does to each cell -/

namespace Grid

variable (g : Grid) (id : CellId) (c : Cell)

@[simp] theorem markDirty_cells : (g.markDirty id).cells = g.cells := rfl

@[simp] theorem store_sheets : (g.store id c).sheets = g.sheets := rfl

@[simp] theorem store_options : (g.store id c).options = g.options := rfl

@[simp] theorem store_waiting : (g.store id c).waiting = g.waiting := rfl

@[simp] theorem store_directory : (g.store id c).directory = g.directory := rfl

theorem cell_store (x : CellId) :
    (g.store id c).cell x =
      let written := if x = id then { g.resolved id.sheet c with readers := (g.cell id).readers }
        else if x ∈ (g.cell id).precedents then
          { g.cell x with readers := (g.cell x).readers.erase id }
        else g.cell x
      if x ∈ (g.resolved id.sheet c).precedents then
        { written with readers := written.readers.insert id }
      else written := by
  simp only [store, cell, markDirty_cells, Std.ExtTreeSet.foldl_eq_foldl_toList,
    getD_foldl_addReader, Std.ExtTreeMap.getD_insert, Std.LawfulEqCmp.compare_eq_iff_eq,
    getD_foldl_dropReader, Std.ExtTreeSet.mem_toList, eq_comm (a := id)]
  rfl

theorem formula_store (x : CellId) :
    (g.store id c).formula x =
      if x = id then (g.resolved id.sheet c).formula else g.formula x := by
  simp only [formula, cell_store]
  split_ifs <;> rfl

theorem value_store (x : CellId) :
    (g.store id c).value x = if x = id then (g.resolved id.sheet c).value else g.value x := by
  simp only [value, cell_store]
  split_ifs <;> rfl

theorem precedents_store (x : CellId) :
    ((g.store id c).cell x).precedents =
      if x = id then (g.resolved id.sheet c).precedents else (g.cell x).precedents := by
  rw [cell_store]
  dsimp only
  split_ifs <;> rfl

theorem isFilling_eq_of_value_eq {c d : Cell} (h : c.value = d.value) :
    c.isFilling = d.isFilling := by
  rw [Cell.isFilling, Cell.isFilling, h]

theorem isFilling_store (x : CellId) :
    ((g.store id c).cell x).isFilling =
      if x = id then (g.resolved id.sheet c).isFilling else (g.cell x).isFilling := by
  have h := value_store g id c x
  simp only [value] at h
  split at h <;> rename_i same
  · rw [if_pos same]
    exact isFilling_eq_of_value_eq h
  · rw [if_neg same]
    exact isFilling_eq_of_value_eq h

/-- The readers of a cell after a write.  The written cell enters itself where it reads, and is taken
out where it used to read, but its own readers stay. -/
theorem mem_readers_store (x y : CellId) :
    y ∈ ((g.store id c).cell x).readers ↔
      (y = id ∧ x ∈ (g.resolved id.sheet c).precedents) ∨
        (y ∈ (g.cell x).readers ∧ (x = id ∨ y ≠ id ∨ x ∉ (g.cell id).precedents)) := by
  rw [cell_store]
  by_cases hx : x = id
  · subst hx
    by_cases new : x ∈ (g.resolved x.sheet c).precedents <;>
      simp [new, Std.ExtTreeSet.mem_insert, eq_comm (a := x)]
  · by_cases new : x ∈ (g.resolved id.sheet c).precedents <;>
      by_cases old : x ∈ (g.cell id).precedents <;>
        simp [hx, new, old, Std.ExtTreeSet.mem_insert, Std.ExtTreeSet.mem_erase, eq_comm (a := id),
          and_comm]

/-- **The stale reader**: a cell that is written lists itself as a reader if it does so already or
reads itself now. -/
theorem mem_readers_store_self :
    id ∈ ((g.store id c).cell id).readers ↔
      id ∈ ((g.store id c).cell id).precedents ∨ id ∈ (g.cell id).readers := by
  rw [mem_readers_store, precedents_store, if_pos rfl]
  simp

theorem resolved_inert (sheet : Nat) (h : (g.resolved sheet c).isFilling = true) :
    (g.resolved sheet c).precedents = ∅ := by
  rw [resolved] at h ⊢
  split at h
  · rw [if_pos ‹_›]
  · rename_i notFilling
    rw [if_neg notFilling]
    cases hr : Formula.reads sheet g.directory c.formula with
    | ok precedents =>
      rw [hr] at h
      exact absurd h notFilling
    | error token => rfl

/-! ### Wired grids -/

/-- What a cell reads lists it as a reader. -/
def Forth (g : Grid) : Prop := ∀ x y, x ∈ (g.cell y).precedents → y ∈ (g.cell x).readers

theorem Forth.store {g : Grid} (h : g.Forth) (id : CellId) (c : Cell) : (g.store id c).Forth := by
  intro x y hx
  rw [precedents_store] at hx
  rw [mem_readers_store]
  by_cases hy : y = id
  · rw [if_pos hy] at hx
    exact Or.inl ⟨hy, hx⟩
  · rw [if_neg hy] at hx
    exact Or.inr ⟨h x y hx, Or.inr (Or.inl hy)⟩

/-- The edges of a grid are kept at both ends, as far as they join different cells. -/
structure Wired (g : Grid) : Prop where
  /-- What a cell reads lists it as a reader. -/
  forth : ∀ x y, x ∈ (g.cell y).precedents → y ∈ (g.cell x).readers
  /-- What lists another cell as a reader is read by it. -/
  back : ∀ x y, x ≠ y → y ∈ (g.cell x).readers → x ∈ (g.cell y).precedents
  /-- A formula that fills other cells has no edges. -/
  inert : ∀ x, (g.cell x).isFilling = true → (g.cell x).precedents = ∅

variable {g}

theorem Wired.store (h : g.Wired) (id : CellId) (c : Cell) : (g.store id c).Wired where
  forth := Forth.store h.forth id c
  back x y hxy hy := by
    rw [mem_readers_store] at hy
    rw [precedents_store]
    rcases hy with ⟨rfl, hx⟩ | ⟨hy, rest⟩
    · rw [if_pos rfl]
      exact hx
    · have hx := h.back x y hxy hy
      by_cases hid : y = id
      · subst hid
        rcases rest with same | same | dropped
        · exact absurd same hxy
        · exact absurd rfl same
        · exact absurd hx dropped
      · rw [if_neg hid]
        exact hx
  inert x hx := by
    rw [isFilling_store] at hx
    rw [precedents_store]
    by_cases hid : x = id
    · rw [if_pos hid] at hx ⊢
      exact resolved_inert g c id.sheet hx
    · rw [if_neg hid] at hx ⊢
      exact h.inert x hx

/-- Being wired depends on the edges and on which cells have filled others. -/
theorem Wired.of_same {g' : Grid} (h : g.Wired)
    (precedents : ∀ x, (g'.cell x).precedents = (g.cell x).precedents)
    (readers : ∀ x, (g'.cell x).readers = (g.cell x).readers)
    (filling : ∀ x, (g'.cell x).isFilling = true → (g.cell x).isFilling = true) : g'.Wired where
  forth x y hx := by
    rw [precedents] at hx
    rw [readers]
    exact h.forth x y hx
  back x y hxy hy := by
    rw [readers] at hy
    rw [precedents]
    exact h.back x y hxy hy
  inert x hx := by
    rw [precedents]
    exact h.inert x (filling x hx)

end Grid

end Spreadsheet
