import Mathlib.Logic.Relation
import Mathlib.Tactic.Tauto
import Spreadsheet.Grid.Dependency

/-!
# What marking a cell marks

`spread` works through a stack and forgets each cell when it has taken its readers.  What it adds is
nevertheless the whole closure: `mem_spread_iff` says so for any stack and any set of cells that are
not yet seen, and `Grid.mem_markDirty_iff` for a grid.

* `ReadBy cells x y`: the cell `y` is entered as a reader of `x`.
-/

namespace Spreadsheet

open Relation

/-- The cell `y` is a reader of `x`. -/
def ReadBy (cells : CellMap Cell) (x y : CellId) : Prop := y ∈ (cells.getD x .blank).readers

theorem readBy_of_getElem? {cells : CellMap Cell} {x : CellId} {c : Cell}
    (found : cells[x]? = some c) (y : CellId) : ReadBy cells x y ↔ y ∈ c.readers := by
  rw [ReadBy, Std.ExtTreeMap.getD_eq_getD_getElem?, found]
  rfl

theorem not_readBy_of_getElem?_eq_none {cells : CellMap Cell} {x : CellId}
    (missing : cells[x]? = none) (y : CellId) : ¬ ReadBy cells x y := by
  rw [ReadBy, Std.ExtTreeMap.getD_eq_getD_getElem?, missing]
  exact Std.ExtTreeSet.not_mem_empty

theorem readBy_erase {cells : CellMap Cell} {id x y : CellId} :
    ReadBy (cells.erase id) x y ↔ x ≠ id ∧ ReadBy cells x y := by
  rw [ReadBy, Std.ExtTreeMap.getD_erase]
  by_cases same : id = x
  · subst same
    simp [Cell.blank]
  · rw [if_neg (by simpa [Std.LawfulEqCmp.compare_eq_iff_eq] using same)]
    exact ⟨fun h => ⟨Ne.symm same, h⟩, fun h => h.2⟩

/-- A path from `x` is one that does not come back to `id`, or its last visit of `id` is followed by
such a path. -/
theorem reach_iff_of_erase {cells : CellMap Cell} {id : CellId} {stack : List CellId}
    {y : CellId} :
    (∃ s ∈ id :: stack, ReflTransGen (ReadBy cells) s y) ↔
      y = id ∨ (∃ s, (ReadBy cells id s ∨ s ∈ stack) ∧
        ReflTransGen (ReadBy (cells.erase id)) s y) := by
  constructor
  · rintro ⟨s, hs, path⟩
    induction path with
    | refl =>
      rcases List.mem_cons.mp hs with rfl | hs
      · exact Or.inl rfl
      · exact Or.inr ⟨s, Or.inr hs, .refl⟩
    | @tail v w _ hvw ih =>
      by_cases same : v = id
      · subst same
        exact Or.inr ⟨w, Or.inl hvw, .refl⟩
      · rcases ih with rfl | ⟨t, ht, before⟩
        · exact absurd rfl same
        · exact Or.inr ⟨t, ht, before.tail (readBy_erase.mpr ⟨same, hvw⟩)⟩
  · have mono : ∀ s, ReflTransGen (ReadBy (cells.erase id)) s y → ReflTransGen (ReadBy cells) s y :=
      fun s path => ReflTransGen.mono (fun _ _ h => (readBy_erase.mp h).2) s y path
    rintro (rfl | ⟨s, hs | hs, path⟩)
    · exact ⟨y, List.mem_cons_self, .refl⟩
    · exact ⟨id, List.mem_cons_self, .head hs (mono s path)⟩
    · exact ⟨s, List.mem_cons_of_mem _ hs, mono s path⟩

/-- **Marking adds what can be reached from the stack**, and nothing else. -/
theorem mem_spread_iff (unseen : CellMap Cell) (stack : List CellId) (dirty : CellSet)
    (x : CellId) :
    x ∈ spread unseen stack dirty ↔
      x ∈ dirty ∨ ∃ s ∈ stack, ReflTransGen (ReadBy unseen) s x := by
  fun_induction spread unseen stack dirty with
  | case1 unseen dirty => simp
  | case2 unseen dirty id stack missing ih =>
    have only : ReflTransGen (ReadBy unseen) id x ↔ x = id :=
      reflTransGen_iff_eq (not_readBy_of_getElem?_eq_none missing)
    rw [ih, Std.ExtTreeSet.mem_insert, Std.LawfulEqCmp.compare_eq_iff_eq]
    simp only [List.mem_cons, exists_eq_or_imp, only, eq_comm (a := id)]
    tauto
  | case3 unseen dirty id stack c found ih =>
    rw [ih, Std.ExtTreeSet.mem_insert, Std.LawfulEqCmp.compare_eq_iff_eq, reach_iff_of_erase,
      eq_comm (a := id)]
    simp only [List.mem_append, Std.ExtTreeSet.mem_toList, readBy_of_getElem? found]
    rw [or_assoc, or_left_comm]

/-- **The closure of a marking**: what was dirty, the cell itself and all cells that depend on it. -/
theorem Grid.mem_markDirty_iff (g : Grid) (id x : CellId) :
    x ∈ (g.markDirty id).dirty ↔ x ∈ g.dirty ∨ ReflTransGen (ReadBy g.cells) id x := by
  rw [markDirty, mem_spread_iff]
  simp

theorem Grid.mem_foldl_markDirty_iff (ids : List CellId) (g : Grid) (x : CellId) :
    x ∈ (ids.foldl markDirty g).dirty ↔
      x ∈ g.dirty ∨ ∃ id ∈ ids, ReflTransGen (ReadBy g.cells) id x := by
  induction ids generalizing g with
  | nil => simp
  | cons id ids ih =>
    rw [List.foldl_cons, ih, mem_markDirty_iff]
    simp only [List.mem_cons, exists_eq_or_imp, or_assoc]
    rfl

theorem Grid.foldl_markDirty_eq (ids : List CellId) (g : Grid) :
    ids.foldl markDirty g = { g with dirty := (ids.foldl markDirty g).dirty } := by
  induction ids generalizing g with
  | nil => rfl
  | cons id ids ih => rw [List.foldl_cons, ih]; rfl

end Spreadsheet
