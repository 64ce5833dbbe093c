import Spreadsheet.Proofs.Formula.Literal
import Spreadsheet.Proofs.Grid.Refinement

/-!
# The formulas of a grid

What every grid that has a history knows about the formulas in it.

* `Grid.tidy_ofHistory`: every formula can be read or has no references.
* `Grid.Inside g`: the references of the formulas lie inside their sheets.
* `Grid.inside_ofHistory`: this is so in every grid that has a history.
-/

namespace Spreadsheet

open Formula

/-! ### Tidy formulas -/

theorem inherited_tidy : Inherited Tidy where
  empty := Or.inr (mentions_literal (.pending ""))
  quote text := Or.inr (mentions_quote text)
  number _ numeric := Or.inr (mentions_eq_nil_of_numeric (isNumeric_of_isNumberLiteral numeric))
  typed _ valid := Or.inl valid
  literal value := Or.inr (mentions_literal value)
  relocate source target directory _ tidy := tidy.relocate source target false directory
  retarget home newHome cut directory _ tidy := tidy.retarget home newHome cut directory

/-- **Every formula of a grid that has a history can be read or has no references.** -/
theorem Grid.tidy_ofHistory (options : Options) (history : List Action) (x : CellId) :
    Tidy ((Grid.ofHistory options history).formula x) :=
  (Grid.regular_holds_ofHistory inherited_tidy options history).2 x

/-! ### References inside their sheets -/

namespace Grid

variable {g g' : Grid} {removed : List String}

def Inside (g : Grid) : Prop :=
  ∀ y, (g.cell y).isFilling = false → ∀ m ∈ mentions (g.formula y), ∀ sheet,
    m.1.sheet? y.sheet g.directory = some sheet → m.1.isInside g.directory sheet = true

theorem inside_new (options : Options) : (new options).Inside := by
  intro y _ m hm
  rw [formula, cell_new] at hm
  rw [show Cell.blank.formula = "" from rfl, mentions_empty] at hm
  exact absurd hm List.not_mem_nil

theorem isInside_of_resolved (g : Grid) (sheet : Nat) (c : Cell)
    (notFilling : (g.resolved sheet c).isFilling = false) :
    ∀ m ∈ mentions (g.resolved sheet c).formula, ∀ s, m.1.sheet? sheet g.directory = some s →
      m.1.isInside g.directory s = true := by
  intro m hm s found
  have named := cells?_isSome_of_resolved g sheet c notFilling m hm
  rw [Mention.cells?_eq, found, Option.bind_some] at named
  by_contra outside
  rw [if_neg outside] at named
  cases named

theorem Inside.store (h : g.Inside) (id : CellId) (c : Cell) : (g.store id c).Inside := by
  intro y notFilling m hm
  rw [isFilling_store] at notFilling
  rw [formula_store] at hm
  by_cases same : y = id
  · rw [if_pos same] at notFilling hm
    subst same
    exact isInside_of_resolved g y.sheet c notFilling m hm
  · rw [if_neg same] at notFilling hm
    exact h y notFilling m hm

theorem Inside.growSheet (h : g.Inside) (index rows cols : Nat) :
    (g.growSheet index rows cols).Inside := by
  intro y notFilling m hm sheet found
  rw [sheet?_growSheet] at found
  refine Mention.isInside_mono ?_ (h y notFilling m hm sheet found)
  intro bounds known
  obtain ⟨s, hs, rfl⟩ := Option.map_eq_some_iff.mp known
  refine ⟨_, bounds?_of_sheet (getElem?_growSheet hs index rows cols), ?_⟩
  split
  · exact ⟨Nat.le_max_left _ _, Nat.le_max_left _ _⟩
  · exact ⟨Nat.le_refl _, Nat.le_refl _⟩

theorem Alike.inside (h : g.Alike g') (inside : g.Inside) : g'.Inside := by
  intro y notFilling
  rw [h.filling] at notFilling
  rw [h.formula, h.directory]
  exact inside y notFilling

/-- **Rewriting keeps references inside their sheets.** -/
theorem Rewrites.inside {P : String → Prop} (h : Rewrites P g g') (regular : g.Regular)
    (inside : g.Inside) : g'.Inside := by
  induction h with
  | refl => exact inside
  | store id c _ _ ih => exact ih.store id c
  | grow index rows cols _ ih => exact ih.growSheet index rows cols
  | await waiting _ ih => exact ih
  | recompute hooks before ih =>
    exact (recompute_alike (before.regular regular).wired hooks).inside ih

theorem Inside.addSheet {name : String} (h : g.Inside) (named : g.Named removed)
    (ok : g.addSheet name = .ok g') (unused : name ∉ removed) : g'.Inside := by
  have cell : ∀ x, g'.cell x = g.cell x := fun x => by rw [Grid.cell, Grid.cell, addSheet_eq ok]
  intro y notFilling m hm sheet found
  rw [cell] at notFilling
  rw [formula, cell] at hm
  rw [Named.sheet?_addSheet named ok unused notFilling hm] at found
  refine Mention.isInside_mono ?_ (h y notFilling m hm sheet found)
  intro bounds known
  obtain ⟨s, hs, rfl⟩ := Option.map_eq_some_iff.mp known
  have after : g'.sheets[sheet]? = some s := by
    rw [addSheet_eq ok]
    exact (List.getElem?_append_left (List.getElem?_eq_some_iff.mp hs).1).trans hs
  exact ⟨_, bounds?_of_sheet after, Nat.le_refl _, Nat.le_refl _⟩

theorem Inside.removeSheet {index : Nat} (h : g.Inside) (names : g.ProperNames)
    (ok : g.removeSheet index = .ok g') : g'.Inside := by
  obtain ⟨-, -, rfl⟩ := removeSheet_eq_ok_iff.mp ok
  rw [sheetRemoved_eq]
  intro y notFilling m hm sheet found
  replace notFilling : (g.cell (restored index y)).isFilling = false :=
    isFilling_dropSheet g index y ▸ notFilling
  replace hm : m ∈ mentions (g.formula (restored index y)) := formula_dropSheet g index y ▸ hm
  replace found : m.1.sheet? (restored index y).sheet g.directory =
      some (restoredSheet index sheet) :=
    (sheet?_dropSheet names index m.1 y.sheet sheet).mp found
  refine Mention.isInside_mono ?_ (h _ notFilling m hm _ found)
  intro bounds known
  obtain ⟨s, hs, rfl⟩ := Option.map_eq_some_iff.mp known
  have after : (g.dropSheet index).sheets[sheet]? = some s := by
    show (g.sheets.eraseIdx index)[sheet]? = some s
    rw [List.getElem?_eraseIdx, ← hs, restoredSheet]
    split <;> rfl
  exact ⟨_, bounds?_of_sheet after, Nat.le_refl _, Nat.le_refl _⟩

theorem Prepared.inside {options : Options} {history : List Action} {action : Action}
    (h : (ofHistory options history).Inside)
    (tracked : (ofHistory options history).Tracked (removedNames options history))
    (fresh : NeverReuses options (action :: history))
    (prepared : Prepared (ofHistory options history) action g) : g.Inside := by
  cases prepared with
  | same => exact h
  | added hooks name same ok => exact h.addSheet tracked.named ok (fresh.2 hooks name same)
  | removed hooks index same ok => exact h.removeSheet tracked.regular.names ok

/-- **The references of every grid that has a history lie inside their sheets**, if no name of a sheet
that was removed is used again. -/
theorem inside_ofHistory (options : Options) (history : List Action)
    (fresh : NeverReuses options history) : (ofHistory options history).Inside := by
  induction history with
  | nil => exact inside_new options
  | cons action history ih =>
    have tracked := tracked_ofHistory options history fresh.1
    obtain ⟨g₁, prepared, rewrites⟩ :=
      rewrites_perform inherited_true tracked.regular (fun _ => trivial) action
    exact rewrites.inside (prepared.regular tracked.regular)
      (Prepared.inside (ih fresh.1) tracked fresh prepared)

end Grid

end Spreadsheet
