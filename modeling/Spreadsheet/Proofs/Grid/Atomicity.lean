import Spreadsheet.Grid.InPlace
import Spreadsheet.Proofs.Grid.Containment

/-!
# Edits are atomic

An edit in place looks at all that can refuse it before it writes anything, and whatever it still looks
at after that is there.  So it is done as a whole or leaves the grid as it is.

* `InPlace.on_bind`: one thing after the other.
* `InPlace.on_resizeSheet`: a sheet that is there is always made larger.
* `InPlace.on_writeEdit`, `InPlace.on_apply`, `InPlace.on_importRows`: what is done in place is done as a
  whole or not at all.
* `InPlace.unchanged_of_refused`: an edit that is refused changes nothing.
-/

namespace Spreadsheet

/-- The answer and the grid of something that is done as a whole or not at all. -/
def InPlace.whole {α : Type} (g : Grid) : Except EditError (Grid × α) → Except EditError α × Grid
  | .ok (g', a) => (.ok a, g')
  | .error e => (.error e, g)

namespace InPlace

variable {α β : Type} {g : Grid}

/-! ### One thing after the other -/

/-- **What is refused keeps the grid as it is then**, and anything else is followed by the rest. -/
theorem on_bind (m : InPlace α) (next : α → InPlace β) (g : Grid) :
    (m >>= next).on g =
      match m.on g with
      | (.ok a, g') => (next a).on g'
      | (.error e, g') => (.error e, g') := by
  simp only [on, ExceptT.run_bind, StateT.run_bind]
  rcases StateT.run (ExceptT.run m) g with ⟨answer, g'⟩
  cases answer <;> rfl

@[simp] theorem on_pure (a : α) (g : Grid) : (pure a : InPlace α).on g = (.ok a, g) := rfl

@[simp] theorem on_throw (e : EditError) (g : Grid) :
    (throw e : InPlace α).on g = (.error e, g) := rfl

@[simp] theorem on_get (g : Grid) : (get : InPlace Grid).on g = (.ok g, g) := rfl

@[simp] theorem on_modify (f : Grid → Grid) (g : Grid) :
    (modify f : InPlace PUnit).on g = (.ok ⟨⟩, f g) := rfl

@[simp] theorem on_write (f : Grid → Grid × α) (g : Grid) :
    (write f).on g = (.ok (f g).2, (f g).1) := rfl

@[simp] theorem on_look (f : Grid → Except EditError α) (g : Grid) :
    (look f).on g = (f g, g) := by
  rw [look, on_bind, on_get]
  dsimp only
  cases f g <;> rfl

theorem on_look_bind {f : Grid → Except EditError α} {next : α → InPlace β}
    {rest : α → Except EditError (Grid × β)}
    (go : ∀ a, f g = .ok a → (next a).on g = whole g (rest a)) :
    (look f >>= next).on g = whole g (f g >>= rest) := by
  rw [on_bind, on_look]
  cases seen : f g with
  | error e => rfl
  | ok a => exact go a seen

theorem on_forM_look (f : β → Grid → Except EditError Unit) (items : List β) (g : Grid) :
    (items.forM fun item => look (f item)).on g = (items.forM fun item => f item g, g) := by
  induction items with
  | nil => rfl
  | cons item items ih =>
    rw [List.forM, List.forM, on_bind, on_look]
    cases f item g with
    | error e => rfl
    | ok _ => exact ih

theorem on_forM_modify (f : β → Grid → Grid) (items : List β) (g : Grid) :
    (items.forM fun item => modify (f item) : InPlace PUnit).on g =
      (.ok ⟨⟩, items.foldl (fun g item => f item g) g) := by
  induction items generalizing g with
  | nil => rfl
  | cons item items ih =>
    rw [List.forM, on_bind, on_modify, List.foldl_cons]
    exact ih (f item g)

/-! ### Edits -/

/-- **A sheet that is there is made larger**, and that is not refused. -/
theorem on_resizeSheet {index : Nat} {s : Sheet} (found : g.sheet index = .ok s) (rows cols : Nat) :
    (resizeSheet index rows cols).on g = (.ok ⟨⟩, g.growSheet index rows cols) := by
  rw [resizeSheet, on_bind, on_look, found]
  rfl

theorem on_addSheet (name : String) (g : Grid) :
    (addSheet name).on g = whole g (do return (← g.addSheet name, ⟨⟩)) := by
  rw [addSheet, Grid.addSheet]
  split
  · rfl
  · dsimp only
    rw [on_bind, on_get]
    dsimp only
    split <;> rfl

theorem on_removeSheet (index : Nat) (g : Grid) :
    (removeSheet index).on g = whole g (do return (← g.removeSheet index, ⟨⟩)) := by
  rw [removeSheet, Grid.removeSheet, bind_assoc]
  refine on_look_bind fun _ _ => ?_
  rw [on_bind, on_get]
  dsimp only
  split <;> rfl

/-- **Editing a line** of a sheet that is there is not refused.  What is looked at after the sheet is made
larger is this sheet. -/
theorem on_editLine (kind : LineKind) (edit : LineEdit) (id : CellId) (g : Grid) :
    (editLine kind edit id).on g =
      whole g (do return g.editLine kind edit id (← g.sheet id.sheet).bounds) := by
  rw [editLine]
  refine on_look_bind fun s found => ?_
  cases edit with
  | delete =>
    cases kind with
    | row =>
      refine (on_bind _ _ g).trans ?_
      rw [on_write, Grid.editLine]
      dsimp only
      split <;> rfl
    | column =>
      refine (on_bind _ _ g).trans ?_
      rw [on_write, Grid.editLine]
      dsimp only
      split <;> rfl
  | insertBefore | insertAfter =>
    cases kind with
    | row | column =>
      refine (on_bind _ _ g).trans ?_
      rw [on_resizeSheet found]
      rfl

/-- **Writing the cells of an edit** is done as a whole or not at all. -/
theorem on_writeEdit (edit : Edit) (g : Grid) :
    (writeEdit edit).on g = whole g (do
      let ((g', written), invalidate) ← g.write edit
      return (g', written, invalidate)) := by
  cases edit with
  | set id text =>
    rw [writeEdit, Grid.write, bind_assoc]
    exact on_look_bind fun _ _ => rfl
  | batch ids texts =>
    rw [writeEdit, Grid.write]
    by_cases uneven : ids.length ≠ texts.length
    · rw [if_pos uneven, if_pos uneven]
      rfl
    · rw [if_neg uneven, if_neg uneven, on_bind, on_forM_look]
      cases ids.forM g.checkCell with
      | error e => rfl
      | ok _ =>
        dsimp only
        rw [on_bind, on_forM_modify]
        rfl
  | copy source destination =>
    rw [writeEdit, Grid.write, bind_assoc]
    refine on_look_bind fun _ _ => ?_
    rw [bind_assoc]
    exact on_look_bind fun _ _ => rfl
  | cut source destination =>
    rw [writeEdit, Grid.write, bind_assoc]
    refine on_look_bind fun _ _ => ?_
    rw [bind_assoc]
    exact on_look_bind fun _ _ => rfl
  | copyValues source destination =>
    rw [writeEdit, Grid.write, bind_assoc]
    refine on_look_bind fun _ _ => ?_
    rw [bind_assoc]
    exact on_look_bind fun _ _ => rfl
  | sort range column ascending =>
    rw [writeEdit, Grid.write, bind_assoc]
    refine on_look_bind fun _ _ => ?_
    dsimp only
    split <;> rfl
  | resize index rows cols =>
    rw [writeEdit, Grid.write, on_bind]
    cases found : g.sheet index with
    | error e => rw [resizeSheet, on_bind, on_look, found]; rfl
    | ok s => rw [on_resizeSheet found]; rfl
  | addSheet name =>
    rw [writeEdit, Grid.write, on_bind, on_addSheet]
    cases g.addSheet name <;> rfl
  | removeSheet index =>
    rw [writeEdit, Grid.write, on_bind, on_removeSheet]
    cases g.removeSheet index <;> rfl
  | line kind edit id =>
    rw [writeEdit, Grid.write, bind_assoc]
    refine on_look_bind fun _ _ => ?_
    rw [on_bind, on_editLine]
    cases g.sheet id.sheet <;> rfl
  | clear range =>
    rw [writeEdit, Grid.write, bind_assoc]
    exact on_look_bind fun _ _ => rfl

/-- **An edit in place** is done as a whole or not at all. -/
theorem on_apply (hooks : Hooks) (edit : Edit) (g : Grid) :
    (apply hooks edit).on g = whole g (g.apply hooks edit) := by
  rw [apply, Grid.apply, on_bind, on_writeEdit]
  cases g.write edit <;> rfl

/-- **An import in place** is done as a whole or not at all. -/
theorem on_importRows (index : Nat) (rows : List (List String)) (draws : Nat → Formula.Draws)
    (g : Grid) : (importRows index rows draws).on g = whole g (g.importRows index rows draws) := by
  rw [importRows, Grid.importRows]
  refine on_look_bind fun _ found => ?_
  rw [on_bind, on_resizeSheet found]
  rfl

/-! ### Refusals -/

theorem eq_of_whole_error {result : Except EditError (Grid × α)} {e : EditError} {g' : Grid}
    (refused : whole g result = (.error e, g')) : g' = g := by
  cases result with
  | error _ => exact (Prod.mk.inj refused).2.symm
  | ok _ => exact absurd (Prod.mk.inj refused).1 nofun

theorem whole_ok_iff {result : Except EditError (Grid × α)} {a : α} {g' : Grid} :
    whole g result = (.ok a, g') ↔ result = .ok (g', a) := by
  cases result with
  | error _ => exact ⟨fun h => absurd (Prod.mk.inj h).1 nofun, nofun⟩
  | ok done => simp [whole, Prod.ext_iff, and_comm]

theorem exists_refused {edit : Edit} (hooks : Hooks)
    (bad : ∀ result, g.write edit ≠ .ok result) :
    ∃ e, (apply hooks edit).on g = (.error e, g) := by
  rw [on_apply, Grid.apply]
  cases wrote : g.write edit with
  | error e => exact ⟨e, rfl⟩
  | ok result => exact absurd wrote (bad result)

/-- **An edit that is refused changes nothing**, nor does an import, whatever the grid is and whatever
accompanies the pass.  One that is accepted does in place what it does otherwise.  In particular a batch is
refused as a whole if a single one of its cells is outside its sheet, and so is the editing of a line
through such a cell. -/
theorem unchanged_of_refused (g : Grid) (hooks : Hooks) (edit : Edit) (index : Nat)
    (rows : List (List String)) (draws : Nat → Formula.Draws) :
    (∀ e g', (apply hooks edit).on g = (.error e, g') → g' = g) ∧
      (∀ e g', (importRows index rows draws).on g = (.error e, g') → g' = g) ∧
      (∀ o g', (apply hooks edit).on g = (.ok o, g') ↔ g.apply hooks edit = .ok (g', o)) ∧
      (∀ o g', (importRows index rows draws).on g = (.ok o, g') ↔
        g.importRows index rows draws = .ok (g', o)) ∧
      (∀ ids texts id, id ∈ ids → ¬ g.Has id →
        ∃ e, (apply hooks (.batch ids texts)).on g = (.error e, g)) ∧
      ∀ kind lineEdit id, ¬ g.Has id →
        ∃ e, (apply hooks (.line kind lineEdit id)).on g = (.error e, g) := by
  refine ⟨?_, ?_, ?_, ?_, ?_, ?_⟩
  · intro e g' refused
    rw [on_apply] at refused
    exact eq_of_whole_error refused
  · intro e g' refused
    rw [on_importRows] at refused
    exact eq_of_whole_error refused
  · intro o g'
    rw [on_apply, whole_ok_iff]
  · intro o g'
    rw [on_importRows, whole_ok_iff]
  · intro ids texts id mem outside
    refine exists_refused hooks ?_
    rintro ⟨⟨g', written⟩, invalidate⟩ wrote
    cases Grid.writes_of_write wrote with
    | batch _ _ _ inside => exact outside (Grid.has_of_forM inside id mem)
  · intro kind lineEdit id outside
    refine exists_refused hooks ?_
    rintro ⟨⟨g', written⟩, invalidate⟩ wrote
    cases Grid.writes_of_write wrote with
    | line _ _ _ found inside => exact outside ⟨_, found, inside⟩

theorem unchanged_of_refused_batch :
    ¬ (Grid.new {}).Has ⟨2, 1, 1⟩ ∧ ∃ e,
      (apply {} (.batch [⟨0, 1, 1⟩, ⟨2, 1, 1⟩, ⟨1, 1, 1⟩] ["1", "2", "3"])).on (Grid.new {}) =
        (.error e, Grid.new {}) := by
  have outside : ¬ (Grid.new {}).Has ⟨2, 1, 1⟩ := by
    rintro ⟨s, found, -⟩
    have few : (Grid.new {}).sheets.length = 2 := by decide +kernel
    rw [List.getElem?_eq_none (Nat.le_of_eq few)] at found
    cases found
  obtain ⟨-, -, -, -, batch, -⟩ := unchanged_of_refused (Grid.new {}) {} (.addSheet "") 0 [] fun _ => .zero
  exact ⟨outside, batch _ _ ⟨2, 1, 1⟩ (by decide) outside⟩

end InPlace

end Spreadsheet
