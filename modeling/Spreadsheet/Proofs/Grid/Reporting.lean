import Spreadsheet.Proofs.Grid.History

/-!
# What is reported

Every write is listed, and every pass lists the cells whose values it changes.  So the cells that an
outcome lists account for all that a reader of formulas and values can see.

* `Pass.Tells g p`: the report of a pass lists the cells whose values are no longer those of `g`.
* `Grid.Accounts g ids g'`: outside the cells `ids` the second grid shows what the first shows, and a
  formula that waits is in one of them.
* `Grid.Accounts.write`: what an edit lists accounts for its writes, unless it changes the layout.
* `Grid.Accounts.finish`: what an outcome lists accounts for all that follows.
-/

namespace Spreadsheet

/-! ### Passes -/

/-- The report lists the cells whose values are no longer those of `g`. -/
structure Pass.Tells (g : Grid) (p : Pass) : Prop where
  formula : ∀ x, p.grid.formula x = g.formula x
  value : ∀ x, x ∉ p.report.changed.toList → p.grid.value x = g.value x
  waiting : p.grid.waiting = g.waiting

theorem CellValue.keep_eq_left {old new : CellValue} (h : old.same (old.keep new) = true) :
    old.keep new = old := by
  rw [same_keep] at h
  rw [keep, if_pos h]

namespace Grid

variable (g : Grid) (id : CellId) (v : CellValue)

theorem waiting_setValue : (g.setValue id v).1.waiting = g.waiting := by
  rw [setValue]
  split <;> rfl

theorem value_refresh_of_same {g : Grid} {id : CellId} {draws : Formula.Draws}
    (same : (g.value id).same ((g.refresh id draws).value id) = true) :
    (g.refresh id draws).value id = g.value id := by
  rw [value_refresh_self] at same ⊢
  cases filling : (g.cell id).isFilling with
  | true => rfl
  | false =>
    rw [filling] at same
    exact CellValue.keep_eq_left same

end Grid

namespace Pass

variable {hooks : Hooks} {total : Nat} {g : Grid} {p : Pass}

theorem tells_start (g : Grid) : Tells g (start g) := ⟨fun _ => rfl, fun _ _ => rfl, rfl⟩

/-- **Computing a cell** lists it if its value is no longer the same. -/
theorem Tells.compute (h : Tells g p) (id : CellId) : Tells g (p.compute hooks total id) := by
  obtain ⟨-, -, -, changed⟩ := compute_report id hooks total p
  refine ⟨fun x => ?_, fun x unlisted => ?_, ?_⟩
  · rw [compute_grid]
    exact ((p.grid.alike_refresh id _).formula x).trans (h.formula x)
  · rw [changed, List.mem_append, not_or] at unlisted
    rw [compute_grid, ← h.value x unlisted.1]
    by_cases here : x = id
    · subst here
      refine Grid.value_refresh_of_same ?_
      by_contra differs
      rw [if_neg differs] at unlisted
      exact unlisted.2 List.mem_cons_self
    · exact Grid.value_eq_of_cells (p.grid.cells_refresh_of_ne _ here)
  · rw [compute_grid]
    exact (p.grid.alike_refresh id _).waiting.trans h.waiting

theorem Tells.run (h : Tells g p) (n : Nat) : Tells g (run hooks total n p) :=
  run_induction h (fun _ id _ before => before.compute id)
    (fun _ before => ⟨before.formula, before.value, before.waiting⟩) n

/-- **Giving a cell up** lists it if its value is no longer the same. -/
theorem Tells.giveUp (h : Tells g p) (id : CellId) : Tells g (p.giveUp id) := by
  obtain ⟨-, -, changed⟩ := giveUp_report p id
  refine ⟨fun x => ?_, fun x unlisted => ?_, ?_⟩
  · rw [giveUp_grid, Grid.formula_setValue, h.formula]
  · rw [changed, List.mem_append, List.mem_filter, List.mem_singleton, not_or] at unlisted
    rw [← h.value x unlisted.1, giveUp_grid, Grid.value_setValue]
    split
    · rename_i here
      subst here
      refine CellValue.keep_eq_left (Bool.not_eq_false _ |>.mp fun differs => unlisted.2 ⟨rfl, ?_⟩)
      rw [giveUp_grid, Grid.value_setValue, if_pos rfl, differs]
      rfl
    · rfl
  · rw [giveUp_grid, Grid.waiting_setValue, h.waiting]

theorem Tells.foldl_giveUp (h : Tells g p) (ids : List CellId) :
    Tells g (ids.foldl Pass.giveUp p) :=
  List.foldlRecOn ids _ h fun _ before id _ => before.giveUp id

theorem Tells.settle (h : Tells g p) : Tells g p.settle := by
  rw [Pass.settle]
  split
  · exact h
  · have given := h.foldl_giveUp p.grid.dirty.toList
    exact ⟨given.formula, given.value, given.waiting⟩

theorem tells_settle (hooks : Hooks) (g : Grid) :
    Tells g (run hooks g.dirty.size g.dirty.size (start g)).settle :=
  ((tells_start g).run g.dirty.size).settle

end Pass

namespace Grid

variable {g g' g'' : Grid} {ids ids' : List CellId}

theorem recompute_waiting (g : Grid) (hooks : Hooks) : (g.recompute hooks).1.waiting = g.waiting :=
  (Pass.tells_settle hooks g).waiting

/-- An edit after whose writes nothing waits is followed by one pass, which makes its report. -/
theorem apply_of_write_of_idle (hooks : Hooks) {edit : Edit} {written : List CellId}
    {invalidate : Bool} (wrote : g.write edit = .ok ((g', written), invalidate))
    (idle : g'.waiting = []) : ∃ outcome,
      g.apply hooks edit = .ok ((g'.recompute hooks).1, outcome) ∧
        outcome.report = (g'.recompute hooks).2 := by
  have none : (g'.recompute hooks).1.waiting.isEmpty = true := by
    rw [recompute_waiting, idle]
    rfl
  rw [apply, wrote]
  dsimp only [bind, Except.bind, pure, Except.pure]
  rw [finish]
  dsimp only
  rw [if_pos none]
  exact ⟨_, rfl, rfl⟩

theorem perform_of_write_of_idle {edit : Edit} {hooks : Hooks} {written : List CellId}
    {invalidate : Bool} (wrote : g.write edit = .ok ((g', written), invalidate))
    (idle : g'.waiting = []) : g.perform (.edit hooks edit) = (g'.recompute hooks).1 := by
  obtain ⟨outcome, applied, -⟩ := apply_of_write_of_idle hooks wrote idle
  rw [perform, applied]

/-- Outside the listed cells the second grid has the formulas and values of the first, and a formula
that waits in it has waited before or is in a listed cell. -/
structure Accounts (g : Grid) (ids : List CellId) (g' : Grid) : Prop where
  formula : ∀ x, x ∉ ids → g'.formula x = g.formula x
  value : ∀ x, x ∉ ids → g'.value x = g.value x
  waiting : ∀ entry ∈ g'.waiting, entry ∈ g.waiting ∨ entry.1 ∈ ids

namespace Accounts

theorem refl : Accounts g ids g := ⟨fun _ _ => rfl, fun _ _ => rfl, fun _ mem => Or.inl mem⟩

theorem trans (h : Accounts g ids g') (h' : Accounts g' ids g'') : Accounts g ids g'' where
  formula x unlisted := (h'.formula x unlisted).trans (h.formula x unlisted)
  value x unlisted := (h'.value x unlisted).trans (h.value x unlisted)
  waiting entry mem := by
    rcases h'.waiting entry mem with before | listed
    · exact h.waiting entry before
    · exact Or.inr listed

theorem mono (h : Accounts g ids g') (more : ∀ x ∈ ids, x ∈ ids') : Accounts g ids' g' where
  formula x unlisted := h.formula x fun listed => unlisted (more x listed)
  value x unlisted := h.value x fun listed => unlisted (more x listed)
  waiting entry mem := (h.waiting entry mem).imp_right (more entry.1)

/-- One step after the other, each of which writes only listed cells. -/
theorem foldl {α : Type} {f : Grid → α → Grid} (items : List α)
    (step : ∀ item ∈ items, ∀ g, Accounts g ids (f g item)) (g : Grid) :
    Accounts g ids (items.foldl f g) :=
  List.foldlRecOn items f refl fun g' before item mem => before.trans (step item mem g')

/-! ### Writing -/

/-- **Writing a cell** shows only in this cell. -/
theorem store {id : CellId} (listed : id ∈ ids) (g : Grid) (c : Cell) :
    Accounts g ids (g.store id c) where
  formula x unlisted := by
    rw [formula_store, if_neg]
    rintro rfl
    exact unlisted listed
  value x unlisted := by
    rw [value_store, if_neg]
    rintro rfl
    exact unlisted listed
  waiting _ mem := Or.inl mem

theorem enqueue {id : CellId} (listed : id ∈ ids) (g : Grid) (formula : String) :
    Accounts g ids (g.enqueue id formula) where
  formula := (store listed g (.filling formula "")).formula
  value := (store listed g (.filling formula "")).value
  waiting entry mem := by
    rcases List.mem_append.mp mem with mem | mem
    · exact Or.inl mem
    · rw [List.mem_singleton.mp mem]
      exact Or.inr listed

theorem update {u : Update} (listed : u.cell ∈ ids) (g : Grid) : Accounts g ids (g.update u) := by
  rw [Grid.update]
  split
  · exact enqueue listed g _
  · exact store listed g _

theorem enter {id : CellId} (listed : id ∈ ids) (g : Grid) (text : String) :
    Accounts g ids (g.enter id text) := by
  rw [enter_eq_update]
  exact update listed g

theorem updateAll (g : Grid) (us : List Update) :
    Accounts g (g.updateAll us).2 (g.updateAll us).1 :=
  foldl us (fun _ mem g => update (List.mem_map_of_mem mem) g) g

theorem clearAll (g : Grid) (ids : List CellId) : Accounts g (g.clearAll ids).2 (g.clearAll ids).1 :=
  foldl ids (fun _ mem g => store mem g .blank) g

theorem cutBlock (g : Grid) (source destination : BoundRange) :
    Accounts g (g.cutBlock source destination).2 (g.cutBlock source destination).1 := by
  rw [Grid.cutBlock]
  dsimp only
  split
  · exact refl
  · exact ((updateAll g _).mono fun x => List.mem_append_left _).trans
      ((clearAll _ _).mono fun x => List.mem_append_right _)

/-- **What an edit lists accounts for its writes**, unless it changes the layout of the sheets. -/
theorem write {edit : Edit} {written : List CellId}
    (ok : g.write edit = .ok ((g', written), false)) : Accounts g written g' := by
  cases writes_of_write ok with
  | set id text => exact enter List.mem_cons_self g text
  | batch ids texts =>
    exact foldl _ (fun pair mem g => enter (List.of_mem_zip mem).1 g pair.2) g
  | copy | copyValues | sort => exact updateAll g _
  | cut source destination => exact cutBlock g source destination
  | clear range => exact clearAll g range.cells

/-! ### What follows the writes -/

/-- **What a pass changes it lists.** -/
theorem recompute (g : Grid) (hooks : Hooks) :
    Accounts g (g.recompute hooks).2.changed.toList (g.recompute hooks).1 :=
  have tells := Pass.tells_settle hooks g
  ⟨fun x _ => tells.formula x, tells.value, fun _ mem => Or.inl (tells.waiting ▸ mem)⟩

/-- A formula that fills cells shows in its own cell and in those that it lists. -/
theorem fill {id : CellId} {formula : String} {draws : Formula.Draws} (listed : id ∈ ids)
    (more : ∀ x ∈ (g.fill id formula draws).2, x ∈ ids) :
    Accounts g ids (g.fill id formula draws).1 :=
  (store listed g _).trans
    (foldl _ (fun _ mem g => store (more _ (List.mem_map_of_mem mem)) g _) _)

/-- **Running the formulas that wait** shows in their cells and in those that are listed. -/
theorem runWaiting (listed : ∀ entry ∈ g.waiting, entry.1 ∈ ids) (draws : Nat → Formula.Draws) :
    Accounts g (ids ++ (g.runWaiting draws).2) (g.runWaiting draws).1 := by
  have start : Accounts g (ids ++ []) { g with waiting := [] } :=
    ⟨fun _ _ => rfl, fun _ _ => rfl, fun _ mem => absurd mem List.not_mem_nil⟩
  refine runWaiting_induction (motive := fun g' filled => Accounts g (ids ++ filled) g') start ?_
  intro g' filled id formula turn mem _ _ before
  rw [← List.append_assoc]
  refine (before.mono fun x => List.mem_append_left _).trans (fill ?_ fun x => List.mem_append_right _)
  exact List.mem_append_left _ (List.mem_append_left _ (listed _ mem))

end Accounts

/-! ### Outcomes -/

theorem distinct_foldl (ids : List CellId) (seen : CellSet) (kept : Array CellId)
    (nodup : kept.toList.Nodup) (same : ∀ x, x ∈ seen ↔ x ∈ kept.toList) :
    let result := (ids.foldl (fun ((seen, kept) : CellSet × Array CellId) id =>
      if seen.contains id then (seen, kept) else (seen.insert id, kept.push id)) (seen, kept)).2
    result.toList.Nodup ∧ ∀ x, x ∈ result.toList ↔ x ∈ kept.toList ∨ x ∈ ids := by
  induction ids generalizing seen kept with
  | nil => exact ⟨nodup, fun x => by simp⟩
  | cons id ids ih =>
    rw [List.foldl_cons]
    dsimp only
    split
    · rename_i known
      rw [Std.ExtTreeSet.contains_iff_mem, same] at known
      obtain ⟨nodup', mem⟩ := ih seen kept nodup same
      refine ⟨nodup', fun x => ?_⟩
      rw [mem, List.mem_cons]
      constructor
      · tauto
      · rintro (h | rfl | h)
        · exact Or.inl h
        · exact Or.inl known
        · exact Or.inr h
    · rename_i new
      rw [Std.ExtTreeSet.contains_iff_mem, same] at new
      have once : (kept.push id).toList.Nodup := by
        rw [Array.toList_push, List.nodup_append]
        refine ⟨nodup, List.pairwise_singleton _ _, ?_⟩
        rintro a ha b hb rfl
        rw [List.mem_singleton.mp hb] at ha
        exact new ha
      have same' : ∀ x, x ∈ seen.insert id ↔ x ∈ (kept.push id).toList := by
        intro x
        rw [Std.ExtTreeSet.mem_insert, Std.LawfulEqCmp.compare_eq_iff_eq, same, Array.toList_push,
          List.mem_append, List.mem_singleton, or_comm, eq_comm]
      obtain ⟨nodup', mem⟩ := ih (seen.insert id) (kept.push id) once same'
      refine ⟨nodup', fun x => ?_⟩
      rw [mem, Array.toList_push, List.mem_append, List.mem_singleton, List.mem_cons, or_assoc]

theorem distinct_spec (ids : List CellId) :
    (distinct ids).Nodup ∧ ∀ x, x ∈ distinct ids ↔ x ∈ ids := by
  obtain ⟨nodup, mem⟩ := distinct_foldl ids ∅ #[] List.nodup_nil fun x => by simp
  exact ⟨nodup, fun x => by rw [distinct, mem]; simp⟩

theorem nodup_finish (g : Grid) (hooks : Hooks) (written : List CellId) (invalidate : Bool) :
    (g.finish hooks written invalidate).2.changed.Nodup := by
  rw [finish]
  dsimp only
  split <;> exact (distinct_spec _).1

theorem invalidate_finish (g : Grid) (hooks : Hooks) (written : List CellId) (invalidate : Bool) :
    (g.finish hooks written invalidate).2.invalidate = invalidate := by
  rw [finish]
  dsimp only
  split <;> rfl

/-- **What an outcome lists accounts for the edit and for all that follows it.** -/
theorem Accounts.finish {written : List CellId} (h : Accounts g written g') (idle : g.waiting = [])
    (hooks : Hooks) (invalidate : Bool) :
    Accounts g (g'.finish hooks written invalidate).2.changed
      (g'.finish hooks written invalidate).1 := by
  have pass := recompute g' hooks
  have listed : ∀ entry ∈ (g'.recompute hooks).1.waiting, entry.1 ∈ written := by
    intro entry mem
    have here : entry ∈ g'.waiting := (Pass.tells_settle hooks g').waiting ▸ mem
    rcases h.waiting entry here with before | listed
    · rw [idle] at before
      exact absurd before List.not_mem_nil
    · exact listed
  rw [Grid.finish]
  dsimp only
  split
  · refine (h.mono ?_).trans (pass.mono ?_) <;> intro x mem <;> rw [(distinct_spec _).2]
    · exact List.mem_append_left _ mem
    · exact List.mem_append_right _ mem
  · have filled := runWaiting listed fun turn => hooks.draws (turn + 1)
    have second := recompute
      ((g'.recompute hooks).1.runWaiting fun turn => hooks.draws (turn + 1)).1
      { draws := fun _ => hooks.draws ((g'.recompute hooks).1.waiting.length + 1) }
    refine (((h.mono ?_).trans (pass.mono ?_)).trans (filled.mono ?_)).trans (second.mono ?_) <;>
      intro x mem <;> rw [(distinct_spec _).2, Report.followedBy, Array.toList_append]
    · exact List.mem_append_left _ (List.mem_append_left _ mem)
    · exact List.mem_append_right _ (List.mem_append_left _ mem)
    · exact List.mem_append_left _ mem
    · exact List.mem_append_right _ (List.mem_append_right _ mem)

end Grid

end Spreadsheet
