import Spreadsheet.Proofs.Formula.Reading
import Spreadsheet.Proofs.Grid.Wiring

/-!
# Edges and formulas

The edges of a cell come from its formula when it is written.

* `Grid.Traced`: a cell that fills no others has edges from just the cells that its formula reads.
* `Grid.Traced.store`: writing a cell keeps a grid traced.
-/

namespace Spreadsheet.Grid

variable {g : Grid}

/-- The edges of a cell come from the cells that its formula reads, unless it fills others. -/
def Traced (g : Grid) : Prop :=
  ∀ y, (g.cell y).isFilling = false → ∀ x, x ∈ (g.cell y).precedents ↔
    Formula.Reads y.sheet g.directory (g.formula y) x

theorem not_reads_of_mentions_eq_nil {home : Nat} {directory : Directory} {formula : String}
    (h : Formula.mentions formula = []) (x : CellId) :
    ¬ Formula.Reads home directory formula x := by
  rintro ⟨m, hm, -⟩
  rw [h] at hm
  exact absurd hm nofun

theorem mentions_empty : Formula.mentions "" = [] := by
  simp [Formula.mentions, Formula.piecesOrNone, Formula.pieces, Formula.piecesFrom]

theorem mem_resolved_precedents (g : Grid) (sheet : Nat) (c : Cell)
    (notFilling : (g.resolved sheet c).isFilling = false) (x : CellId) :
    x ∈ (g.resolved sheet c).precedents ↔
      Formula.Reads sheet g.directory (g.resolved sheet c).formula x := by
  rw [resolved] at notFilling ⊢
  split at notFilling
  · rename_i filling
    cases filling.symm.trans notFilling
  · rename_i free
    rw [if_neg free]
    cases ok : Formula.reads sheet g.directory c.formula with
    | ok precedents => exact Formula.mem_reads_iff ok x
    | error token =>
      have none : ¬ Formula.Reads sheet g.directory (Text.quote ("#REF: " ++ token)) x :=
        not_reads_of_mentions_eq_nil (Formula.mentions_quote _) x
      exact ⟨fun h => absurd h Std.ExtTreeSet.not_mem_empty, fun h => absurd h none⟩

theorem Traced.store (h : g.Traced) (id : CellId) (c : Cell) : (g.store id c).Traced := by
  intro y notFilling x
  rw [isFilling_store] at notFilling
  rw [precedents_store, formula_store, store_directory]
  by_cases same : y = id
  · subst same
    rw [if_pos rfl] at notFilling ⊢
    rw [if_pos rfl]
    exact mem_resolved_precedents g y.sheet c notFilling x
  · rw [if_neg same] at notFilling ⊢
    rw [if_neg same]
    exact h y notFilling x

theorem cell_new (options : Options) (x : CellId) : (new options).cell x = .blank := by
  rw [cell, new]
  simp

theorem traced_new (options : Options) : (new options).Traced := by
  intro y _ x
  have blank : (new options).formula y = "" := by rw [formula, cell_new]; rfl
  rw [cell_new, blank]
  exact ⟨fun h => absurd h Std.ExtTreeSet.not_mem_empty,
    fun h => absurd h (not_reads_of_mentions_eq_nil mentions_empty x)⟩

theorem wired_new (options : Options) : (new options).Wired where
  forth x y h := by
    rw [cell_new] at h
    exact absurd h Std.ExtTreeSet.not_mem_empty
  back x y _ h := by
    rw [cell_new] at h
    exact absurd h Std.ExtTreeSet.not_mem_empty
  inert x _ := by
    rw [cell_new]
    rfl

end Spreadsheet.Grid
