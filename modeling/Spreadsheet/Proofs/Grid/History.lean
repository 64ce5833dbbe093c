import Spreadsheet.Proofs.Grid.Editing
import Spreadsheet.Proofs.Grid.Removal
import Spreadsheet.Proofs.Grid.Tracing

/-!
# Histories

A grid comes from a new one by edits and imports, one after the other; those that are refused leave
it as it is.

* `Grid.perform_of_write` and `Grid.perform_of_refused`: an edit that is accepted, and one that is not.
* `Grid.exists_apply_eq_perform`: the grid after an accepted edit is the one in the history.
* `Grid.perform_cases`: an action does nothing, or it rewrites cells, possibly after a sheet has been
  added or removed, and then finishes.
* `Grid.regular_ofHistory`: every grid that has a history is regular.
* `Grid.regular_holds_ofHistory`: and an inherited property holds of all its formulas.
* `Grid.edges_ofHistory`: its edges are kept at both ends.
-/

namespace Spreadsheet

/-- What is done to a grid from outside. -/
inductive Action
  /-- An edit, with the hooks of its first pass. -/
  | edit (hooks : Hooks) (edit : Edit)
  | importRows (index : Nat) (rows : List (List String))
    (draws : Nat → Formula.Draws := fun _ => .zero)

/-- The hooks of the first pass of an action. -/
def Action.hooks : Action → Hooks
  | edit hooks _ => hooks
  | importRows _ _ draws => { draws }

namespace Grid

/-- The grid after an action.  What is refused changes nothing. -/
def perform (g : Grid) : Action → Grid
  | .edit hooks edit =>
    match g.apply hooks edit with
    | .ok (g', _) => g'
    | .error _ => g
  | .importRows index rows draws =>
    match g.importRows index rows draws with
    | .ok (g', _) => g'
    | .error _ => g

/-- The grid after a history, whose latest action comes first. -/
def ofHistory (options : Options) : List Action → Grid
  | [] => new options
  | action :: before => (ofHistory options before).perform action

/-- The grid on which the writes of an action begin: the one before, perhaps with a sheet more or
less. -/
inductive Prepared (g : Grid) (action : Action) : Grid → Prop
  | same : Prepared g action g
  | added {g' : Grid} (hooks : Hooks) (name : String) : action = .edit hooks (.addSheet name) →
      g.addSheet name = .ok g' → Prepared g action g'
  | removed {g' : Grid} (hooks : Hooks) (index : Nat) : action = .edit hooks (.removeSheet index) →
      g.removeSheet index = .ok g' → Prepared g action g'

variable {P : String → Prop} {g g' : Grid} {action : Action}

theorem Prepared.regular (h : Prepared g action g') (regular : g.Regular) : g'.Regular := by
  cases h with
  | same => exact regular
  | added _ _ _ ok => exact regular.addSheet ok
  | removed _ _ _ ok => exact regular.removeSheet ok

theorem formula_removeSheet {index : Nat} (ok : g.removeSheet index = .ok g') (x : CellId) :
    g'.formula x = g.formula (restored index x) := by
  obtain ⟨-, -, rfl⟩ := removeSheet_eq_ok_iff.mp ok
  rw [sheetRemoved_eq]
  show (g.dropSheet index).formula x = _
  rw [formula, cell_dropSheet]
  rfl

theorem Prepared.holds (h : Prepared g action g') (holds : ∀ x, P (g.formula x)) (x : CellId) :
    P (g'.formula x) := by
  cases h with
  | same => exact holds x
  | added _ _ _ ok =>
    rw [formula, cell, cells_addSheet ok]
    exact holds x
  | removed _ _ _ ok =>
    rw [formula_removeSheet ok]
    exact holds _

theorem perform_of_write {hooks : Hooks} {edit : Edit} {written : List CellId} {invalidate : Bool}
    (wrote : g.write edit = .ok ((g', written), invalidate)) :
    g.perform (.edit hooks edit) = (g'.finish hooks written invalidate).1 := by
  rw [perform, apply, wrote]
  rfl

theorem perform_of_refused {hooks : Hooks} {edit : Edit} {e : EditError}
    (refused : g.write edit = .error e) : g.perform (.edit hooks edit) = g := by
  rw [perform, apply, refused]
  rfl

theorem exists_apply_eq_perform {hooks : Hooks} {edit : Edit}
    (accepted : (g.apply hooks edit).toBool = true) :
    ∃ outcome, g.apply hooks edit = .ok (g.perform (.edit hooks edit), outcome) := by
  rw [perform]
  cases result : g.apply hooks edit with
  | error e =>
    rw [result] at accepted
    cases accepted
  | ok done => exact ⟨done.2, rfl⟩

/-- **What an action does**: nothing, or it rewrites cells, perhaps after a sheet is added or removed,
and then finishes. -/
theorem perform_cases (hP : Inherited P) (regular : g.Regular) (holds : ∀ x, P (g.formula x))
    (action : Action) :
    g.perform action = g ∨ ∃ g₁ g₂ written invalidate, Prepared g action g₁ ∧ Rewrites P g₁ g₂ ∧
      (g₂.finish action.hooks written invalidate).1 = g.perform action := by
  cases action with
  | importRows index rows draws =>
    rw [perform]
    split
    · rename_i done
      exact Or.inr ⟨g, _, _, _, .same, rewrites_importUpdates hP g index rows, importRows_eq done⟩
    · exact Or.inl rfl
  | edit hooks edit =>
    cases wrote : g.write edit with
    | error e => exact Or.inl (perform_of_refused wrote)
    | ok result =>
      obtain ⟨⟨g₂, written⟩, invalidate⟩ := result
      have ends : (g₂.finish hooks written invalidate).1 = g.perform (.edit hooks edit) :=
        (perform_of_write wrote).symm
      rcases write_cases hP regular holds wrote with
        before | ⟨name, rfl, added⟩ | ⟨index, rfl, removed⟩
      · exact Or.inr ⟨g, g₂, written, invalidate, .same, before, ends⟩
      · exact Or.inr ⟨g₂, g₂, written, invalidate, .added hooks name rfl added, .refl, ends⟩
      · exact Or.inr ⟨g₂, g₂, written, invalidate, .removed hooks index rfl removed, .refl, ends⟩

/-- An action rewrites cells, perhaps after a sheet is added or removed. -/
theorem rewrites_perform (hP : Inherited P) (regular : g.Regular) (holds : ∀ x, P (g.formula x))
    (action : Action) : ∃ g₁, Prepared g action g₁ ∧ Rewrites P g₁ (g.perform action) := by
  rcases perform_cases hP regular holds action with
    same | ⟨g₁, g₂, written, invalidate, prepared, before, ends⟩
  · rw [same]
    exact ⟨g, .same, .refl⟩
  · have regular₁ := prepared.regular regular
    have holds₁ := prepared.holds holds
    exact ⟨g₁, prepared, ends ▸ before.trans (rewrites_finish hP (before.regular regular₁)
      (before.holds hP regular₁ holds₁) _ _ _)⟩

/-! ### Every grid that has a history -/

theorem firstNames_proper (options : Options) :
    (∀ name ∈ firstNames options, Sheet.isValidName name = true) ∧ (firstNames options).Nodup := by
  have all : ∀ (defaults names : List String),
      (∀ name ∈ names, Sheet.isValidName name = true) → names.Nodup →
      (∀ name ∈ defaults.foldl (fun names name =>
        if Sheet.isValidName name && !names.contains name then names ++ [name] else names) names,
          Sheet.isValidName name = true) ∧
      (defaults.foldl (fun names name =>
        if Sheet.isValidName name && !names.contains name then names ++ [name] else names)
          names).Nodup := by
    intro defaults
    induction defaults with
    | nil => exact fun _ valid nodup => ⟨valid, nodup⟩
    | cons name defaults ih =>
      intro names valid nodup
      rw [List.foldl_cons]
      split
      · rename_i new
        rw [Bool.and_eq_true, Bool.not_eq_true', ← Bool.not_eq_true, List.contains_iff_mem] at new
        refine ih _ ?_ ?_
        · intro other h
          rcases List.mem_append.mp h with h | h
          · exact valid other h
          · rw [List.mem_singleton.mp h]
            exact new.1
        · rw [List.nodup_append]
          refine ⟨nodup, List.pairwise_singleton _ _, ?_⟩
          rintro a ha b hb rfl
          rw [List.mem_singleton.mp hb] at ha
          exact new.2 ha
      · exact ih names valid nodup
  obtain ⟨valid, nodup⟩ := all options.defaultSheets [] nofun List.nodup_nil
  rw [firstNames]
  split
  · refine ⟨?_, List.pairwise_singleton _ _⟩
    intro name h
    rw [List.mem_singleton.mp h]
    decide
  · exact ⟨valid, nodup⟩

theorem map_name_new (options : Options) :
    (new options).sheets.map Sheet.name = firstNames options := by
  rw [new, List.map_map]
  exact List.map_id _

theorem regular_new (options : Options) : (new options).Regular where
  wired := wired_new options
  names := by
    obtain ⟨valid, nodup⟩ := firstNames_proper options
    refine ⟨?_, map_name_new options ▸ nodup⟩
    intro s hs
    exact valid _ (map_name_new options ▸ List.mem_map_of_mem hs)

/-- **Every grid that has a history is regular**, and an inherited property holds of its formulas. -/
theorem regular_holds_ofHistory (hP : Inherited P) (options : Options) (history : List Action) :
    (ofHistory options history).Regular ∧ ∀ x, P ((ofHistory options history).formula x) := by
  induction history with
  | nil =>
    refine ⟨regular_new options, ?_⟩
    intro x
    show P ((new options).formula x)
    rw [formula, cell_new]
    exact hP.empty
  | cons action history ih =>
    obtain ⟨regular, holds⟩ := ih
    obtain ⟨g₁, prepared, rewrites⟩ := rewrites_perform hP regular holds action
    have regular₁ := prepared.regular regular
    exact ⟨rewrites.regular regular₁, rewrites.holds hP regular₁ (prepared.holds holds)⟩

theorem regular_ofHistory (options : Options) (history : List Action) :
    (ofHistory options history).Regular :=
  (regular_holds_ofHistory inherited_true options history).1

/-! ### Edges -/

/-- The cell lists itself as a reader and does not read itself. -/
def Stale (g : Grid) (x : CellId) : Prop := x ∈ (g.cell x).readers ∧ x ∉ (g.cell x).precedents

/-- **The edges of every grid that has a history** are kept at both ends when they join different
cells, and a formula that fills other cells has none.  So they are kept at both ends everywhere unless
a cell is stale, and writing a cell leaves it stale exactly if it has listed itself and its new formula
does not read it. -/
theorem edges_ofHistory (options : Options) (history : List Action) :
    let g := ofHistory options history
    (∀ x y, x ≠ y → (x ∈ (g.cell y).precedents ↔ y ∈ (g.cell x).readers)) ∧
      (∀ x, x ∈ (g.cell x).precedents → x ∈ (g.cell x).readers) ∧
      (∀ x, (g.cell x).isFilling = true → (g.cell x).precedents = ∅) ∧
      ((∀ x y, x ∈ (g.cell y).precedents ↔ y ∈ (g.cell x).readers) ↔ ∀ x, ¬ g.Stale x) ∧
      ∀ id c, (g.store id c).Stale id ↔
        id ∈ (g.cell id).readers ∧ id ∉ (g.resolved id.sheet c).precedents := by
  intro g
  have wired : g.Wired := (regular_ofHistory options history).wired
  have mutual_of_ne : ∀ x y, x ≠ y → (x ∈ (g.cell y).precedents ↔ y ∈ (g.cell x).readers) :=
    fun x y other => ⟨wired.forth x y, wired.back x y other⟩
  refine ⟨mutual_of_ne, fun x => wired.forth x x, wired.inert, ?_, ?_⟩
  · constructor
    · intro both x stale
      exact stale.2 ((both x x).mpr stale.1)
    · intro fresh x y
      by_cases same : x = y
      · subst same
        exact ⟨wired.forth x x, fun reader => not_not.mp fun free => fresh x ⟨reader, free⟩⟩
      · exact mutual_of_ne x y same
  · intro id c
    rw [Stale, mem_readers_store_self, precedents_store, if_pos rfl]
    tauto

theorem edges_ofHistory_new :
    (⟨0, 1, 1⟩ : CellId) ≠ ⟨0, 2, 1⟩ ∧
      (⟨0, 1, 1⟩ ∈ ((ofHistory {} [.edit {} (.set ⟨0, 2, 1⟩ "=A1+1")]).cell ⟨0, 2, 1⟩).precedents ↔
        ⟨0, 2, 1⟩ ∈ ((ofHistory {} [.edit {} (.set ⟨0, 2, 1⟩ "=A1+1")]).cell ⟨0, 1, 1⟩).readers) :=
  ⟨by decide, (edges_ofHistory {} [.edit {} (.set ⟨0, 2, 1⟩ "=A1+1")]).1 _ _ (by decide)⟩

/-- A cell that read itself and is overwritten with a number goes on listing itself, so the edges of
the two ends differ. -/
theorem not_mutual_of_overwritten :
    ¬ ∀ (options : Options) (history : List Action) (x y : CellId),
      x ∈ (ofHistory options history).cells → y ∈ (ofHistory options history).cells →
        (x ∈ ((ofHistory options history).cell y).precedents ↔
          y ∈ ((ofHistory options history).cell x).readers) := by
  intro everywhere
  have both := everywhere {} [.edit {} (.set ⟨0, 1, 1⟩ "5"), .edit {} (.set ⟨0, 1, 1⟩ "=A1+1")]
    ⟨0, 1, 1⟩ ⟨0, 1, 1⟩ (by decide +kernel) (by decide +kernel)
  revert both
  decide +kernel

end Grid

end Spreadsheet
