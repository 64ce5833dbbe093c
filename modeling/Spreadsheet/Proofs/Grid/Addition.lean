import Spreadsheet.Proofs.Grid.Anchoring
import Spreadsheet.Proofs.Grid.Detachment
import Spreadsheet.Proofs.Grid.Reporting

/-!
# Adding a sheet

A sheet that is added comes after the others, so what belongs to them stays as it is.  Only a reference
that has belonged to no sheet can come to belong to the new one.  Then its formula reads cells from which
it has no edges, and its value is the one that it had without them.

* `Grid.RefersTo g name y`: the formula of the cell `y` refers to a sheet of this name.
* `Grid.coveredAt_addSheet_iff`: a cell has its edges after a sheet is added if it has had them before
  and does not refer to the name.
* `Grid.NeverAnswers`: in a history, no sheet is added under a name to which a formula refers then.
* `Grid.tracked_of_neverAnswers`: all values are up to date after such a history.
* `Grid.covered_iff_neverAnswers`: only then all edges are there at every moment.
* `Grid.added_ofHistory`: what adding a sheet to a grid with a history leaves up to date.
-/

namespace Spreadsheet.Grid

variable {g g' : Grid} {name : String}

/-- The formula of the cell, which fills no others, refers to a sheet of this name. -/
def RefersTo (g : Grid) (name : String) (y : CellId) : Prop :=
  (g.cell y).isFilling = false ∧
    ∃ m ∈ Formula.mentions (g.formula y), m.1.writtenSheet = some name

/-- The cell has an edge from every cell that its formula reads. -/
def CoveredAt (g : Grid) (y : CellId) : Prop :=
  ∀ x, Formula.Reads y.sheet g.directory (g.formula y) x → x ∈ (g.cell y).precedents

/-! ### One sheet more -/

section

variable (ok : g.addSheet name = .ok g')

include ok

theorem name_not_mem_of_addSheet : name ∉ g.sheets.map Sheet.name :=
  (addSheet_eq_ok_iff.mp ok).2.1

theorem cell_addSheet (x : CellId) : g'.cell x = g.cell x := by
  rw [cell, cell, cells_addSheet ok]

theorem formula_addSheet (x : CellId) : g'.formula x = g.formula x :=
  congrArg Cell.formula (cell_addSheet ok x)

theorem value_addSheet (x : CellId) : g'.value x = g.value x :=
  congrArg Cell.value (cell_addSheet ok x)

/-- The new name is that of the last sheet, and the other names are those of the sheets that they were
the names of. -/
theorem index?_addSheet (other : String) :
    g'.directory.index? other =
      if other = name then some g.sheets.length else g.directory.index? other := by
  have new := name_not_mem_of_addSheet ok
  rw [index?_eq_findIdx?, index?_eq_findIdx?, addSheet_eq ok, List.map_append,
    List.findIdx?_append]
  by_cases same : other = name
  · subst same
    have none : (g.sheets.map Sheet.name).findIdx? (· == other) = none := by
      rw [List.findIdx?_eq_none_iff]
      intro used h
      exact beq_eq_false_iff_ne.mpr fun same => new (same ▸ h)
    rw [none, if_pos rfl]
    simp [freshSheet]
  · rw [if_neg same]
    cases (g.sheets.map Sheet.name).findIdx? (· == other) with
    | some index => rfl
    | none => simp [freshSheet, Ne.symm same]

theorem sheet?_addSheet_of_ne {m : Formula.Mention} (other : m.writtenSheet ≠ some name)
    (home : Nat) : m.sheet? home g'.directory = m.sheet? home g.directory := by
  rw [Formula.Mention.sheet?, Formula.Mention.sheet?]
  cases written : m.writtenSheet with
  | none => rfl
  | some used =>
    dsimp only
    rw [index?_addSheet ok, if_neg]
    rintro rfl
    exact other written

theorem sheet?_addSheet_of_eq_some {m : Formula.Mention} {home sheet : Nat}
    (found : m.sheet? home g.directory = some sheet) :
    m.sheet? home g'.directory = some sheet := by
  rw [sheet?_addSheet_of_ne ok, found]
  intro written
  rw [Formula.Mention.sheet?, written] at found
  obtain ⟨hs, same, -⟩ := List.findIdx?_eq_some_iff_getElem.mp
    ((index?_eq_findIdx? g name).symm.trans found)
  exact name_not_mem_of_addSheet ok (eq_of_beq same ▸ List.getElem_mem hs)

theorem reads_addSheet_of_reads {x y : CellId}
    (reads : Formula.Reads y.sheet g.directory (g.formula y) x) :
    Formula.Reads y.sheet g'.directory (g'.formula y) x := by
  obtain ⟨m, hm, sheet, found, hx⟩ := reads
  exact ⟨m, formula_addSheet ok y ▸ hm, sheet, sheet?_addSheet_of_eq_some ok found, hx⟩

theorem reads_addSheet_iff {y : CellId} (notFilling : (g.cell y).isFilling = false)
    (apart : ¬ g.RefersTo name y) (x : CellId) :
    Formula.Reads y.sheet g'.directory (g'.formula y) x ↔
      Formula.Reads y.sheet g.directory (g.formula y) x := by
  refine ⟨?_, reads_addSheet_of_reads ok⟩
  rintro ⟨m, hm, sheet, found, hx⟩
  rw [formula_addSheet ok] at hm
  rw [sheet?_addSheet_of_ne ok fun written => apart ⟨notFilling, m, hm, written⟩] at found
  exact ⟨m, hm, sheet, found, hx⟩

theorem RefersTo.exists_reads {y : CellId} (refers : g.RefersTo name y) :
    ∃ x : CellId, x.sheet = g.sheets.length ∧
      Formula.Reads y.sheet g'.directory (g'.formula y) x := by
  obtain ⟨-, m, hm, written⟩ := refers
  obtain ⟨row, col, covers⟩ := m.1.exists_covers
  refine ⟨⟨g.sheets.length, row, col⟩, rfl, m, formula_addSheet ok y ▸ hm, g.sheets.length, ?_, ?_⟩
  · rw [Formula.Mention.sheet?, written]
    exact (index?_addSheet ok name).trans (if_pos rfl)
  · exact (m.1.mem_cellsOn _ _).mpr ⟨rfl, covers⟩

/-- **Edges after a sheet is added.**  A cell has an edge from every cell that its formula reads if this
was so before and the formula does not refer to the name of the sheet. -/
theorem coveredAt_addSheet_iff {counted : Prop} (anchored : g.Anchored counted) {y : CellId}
    (notFilling : (g.cell y).isFilling = false) :
    g'.CoveredAt y ↔ g.CoveredAt y ∧ ¬ g.RefersTo name y := by
  constructor
  · intro covered
    refine ⟨fun x reads => ?_, fun refers => ?_⟩
    · exact cell_addSheet ok y ▸ covered x (reads_addSheet_of_reads ok reads)
    · -- No edge comes from the new sheet, because nothing is stored there yet.
      obtain ⟨x, sheet, reads⟩ := refers.exists_reads ok
      have edge := covered x reads
      rw [cell_addSheet ok] at edge
      obtain ⟨⟨s, found, -⟩, -⟩ := anchored.stored x (anchored.regular.wired.mem_cells_of_precedent edge)
      rw [sheet, List.getElem?_eq_none (Nat.le_refl _)] at found
      cases found
  · rintro ⟨covered, apart⟩ x reads
    rw [reads_addSheet_iff ok notFilling apart] at reads
    exact cell_addSheet ok y ▸ covered x reads

theorem formulaValue_addSheet (traced : g.Traced) {y : CellId}
    (notFilling : (g.cell y).isFilling = false) (apart : ¬ g.RefersTo name y) :
    g'.formulaValue y = g.formulaValue y := by
  refine traced.formulaValue_eq notFilling (formula_addSheet ok y) ?_ ?_
  · intro m hm
    exact sheet?_addSheet_of_ne ok (fun written => apart ⟨notFilling, m, hm, written⟩) y.sheet
  · exact fun x _ => value_addSheet ok x

/-- **Adding a sheet to whose name no formula refers** keeps the invariant of values. -/
theorem Tracked.addSheet_of_not_refersTo {removed : List String} (h : g.Tracked removed)
    (apart : ∀ y, ¬ g.RefersTo name y) : g'.Tracked removed := by
  have same := addSheet_eq ok
  refine h.of_sheets (cells_addSheet ok) (by rw [same]) (h.regular.addSheet ok).names ?_
  intro y notFilling m hm
  exact sheet?_addSheet_of_ne ok (fun written => apart y ⟨notFilling, m, hm, written⟩) y.sheet

end

/-! ### The edit -/

theorem recompute_of_clean (clean : g.dirty = ∅) (hooks : Hooks) : g.recompute hooks = (g, {}) := by
  have none : g.dirty.isEmpty = true := Std.ExtTreeSet.isEmpty_iff.mpr clean
  have size : g.dirty.size = 0 := by rw [clean]; rfl
  rw [recompute, size, Pass.run, Pass.settle, if_pos]
  · rfl
  · rw [Pass.start, none, Bool.or_true]

/-- The edit does nothing else to a grid in which nothing is left to do. -/
theorem addSheet_of_apply (regular : g.Regular) (clean : g.dirty = ∅) (idle : g.waiting = [])
    {hooks : Hooks} {outcome : Outcome}
    (ok : g.apply hooks (.addSheet name) = .ok (g', outcome)) : g.addSheet name = .ok g' := by
  obtain ⟨g₁, written, invalidate, wrote, done⟩ := apply_eq_ok_iff.mp ok
  cases wrote with
  | addSheet _ added =>
    have fields := addSheet_eq added
    have clean₁ : g₁.dirty = ∅ := by rw [fields]; exact clean
    have idle₁ : g₁.waiting = [] := by rw [fields]; exact idle
    obtain ⟨rfl, -⟩ := finish_of_idle (regular.addSheet added).wired idle₁ done
    rw [added, recompute_of_clean clean₁]

/-! ### Histories -/

/-- No sheet is added under a name to which a formula refers then. -/
def NeverAnswers (options : Options) : List Action → Prop
  | [] => True
  | action :: before => NeverAnswers options before ∧
    ∀ hooks name g', action = .edit hooks (.addSheet name) →
      (ofHistory options before).addSheet name = .ok g' →
        ∀ y, ¬ (ofHistory options before).RefersTo name y

/-- **All values are up to date** after a history in which no sheet is added under a name to which a
formula refers. -/
theorem tracked_of_neverAnswers (options : Options) (history : List Action)
    (unanswered : NeverAnswers options history) :
    (ofHistory options history).Tracked (removedNames options history) := by
  induction history with
  | nil => exact tracked_new options
  | cons action history ih =>
    have h := ih unanswered.1
    obtain ⟨g₁, prepared, rewrites⟩ :=
      rewrites_perform inherited_true h.regular (fun _ => trivial) action
    obtain ⟨removed, tracked, more⟩ := prepared.tracked h fun hooks name g' same ok =>
      h.addSheet_of_not_refersTo ok (unanswered.2 hooks name g' same ok)
    exact (rewrites.tracked tracked).mono more

/-- A formula refers to the name of a new sheet only if a sheet of this name has been removed. -/
theorem Tracked.mem_of_refersTo {removed : List String} (h : g.Tracked removed)
    (ok : g.addSheet name = .ok g') {y : CellId} (refers : g.RefersTo name y) : name ∈ removed := by
  obtain ⟨notFilling, m, hm, written⟩ := refers
  have unresolved : m.1.sheet? y.sheet g.directory = none := by
    rw [Formula.Mention.sheet?, written]
    refine (index?_eq_findIdx? g name).trans (List.findIdx?_eq_none_iff.mpr ?_)
    intro used hused
    exact beq_eq_false_iff_ne.mpr fun same => name_not_mem_of_addSheet ok (same ▸ hused)
  obtain ⟨other, used, written'⟩ := h.named y notFilling m hm unresolved
  cases written.symm.trans written'
  exact used

/-- So nothing is answered if no sheet gets the name of one that was removed. -/
theorem neverAnswers_of_neverReuses (options : Options) (history : List Action)
    (fresh : NeverReuses options history) : NeverAnswers options history := by
  induction history with
  | nil => trivial
  | cons action history ih =>
    refine ⟨ih fresh.1, ?_⟩
    intro hooks name g' same ok y refers
    have h := tracked_ofHistory options history fresh.1
    exact fresh.2 hooks name same (h.mem_of_refersTo ok refers)

/-! ### Edges at every moment -/

theorem Alike.coveredAt_iff (h : g.Alike g') (y : CellId) : g'.CoveredAt y ↔ g.CoveredAt y := by
  rw [CoveredAt, CoveredAt, h.directory, h.formula, h.precedents]

theorem alike_perform_addSheet (regular : g.Regular) (idle : g.waiting = [])
    (ok : g.addSheet name = .ok g') (hooks : Hooks) :
    g'.Alike (g.perform (.edit hooks (.addSheet name))) := by
  have wired := (regular.addSheet ok).wired
  have wrote := (Writes.addSheet name ok).write_eq
  have idle' : g'.waiting = [] := by rw [addSheet_eq ok]; exact idle
  rw [perform_of_write_of_idle wrote idle']
  exact recompute_alike wired hooks

/-- **All edges are there at every moment** of a history if and only if no sheet is added under a name
to which a formula refers then. -/
theorem covered_iff_neverAnswers (options : Options) (history : List Action) :
    (∀ before, before <:+ history → (ofHistory options before).Covered) ↔
      NeverAnswers options history := by
  induction history with
  | nil =>
    refine iff_of_true ?_ trivial
    intro before initial
    rw [List.suffix_nil.mp initial]
    exact (tracked_new options).traced.covered
  | cons action history ih =>
    constructor
    · intro covered
      refine ⟨ih.mp fun before initial => covered before (initial.trans (List.suffix_cons _ _)), ?_⟩
      rintro hooks name g' rfl ok y refers
      have regular := regular_ofHistory options history
      have alike := alike_perform_addSheet regular (waiting_ofHistory options history) ok hooks
      have edges := covered _ List.suffix_rfl y (by
        rw [ofHistory, alike.filling, cell_addSheet ok]
        exact refers.1)
      have edges' : g'.CoveredAt y := (alike.coveredAt_iff y).mp edges
      exact ((coveredAt_addSheet_iff ok (anchored_ofHistory options history) refers.1).mp edges').2
        refers
    · intro unanswered before initial
      rcases List.suffix_cons_iff.mp initial with rfl | initial
      · exact (tracked_of_neverAnswers options _ unanswered).traced.covered
      · exact ih.mpr unanswered.1 before initial

/-! ### What adding a sheet leaves up to date -/

/-- A cell that has an edge from another one is out of date when that is written. -/
theorem mem_dirty_store_of_precedent (wired : g.Wired) {x y : CellId}
    (edge : x ∈ (g.cell y).precedents) (c : Cell) : y ∈ (g.store x c).dirty := by
  rw [mem_dirty_store]
  by_cases same : y = x
  · subst same
    exact Or.inr .refl
  · have edge' := (edge_store_of_ne x c same).mpr edge
    exact Or.inr (.single ((wired.store x c).forth x y edge'))

/-- **Adding a sheet to a grid in which nothing is dirty.**  No cell changes.  A formula goes on having
edges from all cells that it reads exactly if it does not refer to the name of the new sheet.  If no
earlier sheet was added under a name to which a formula referred, only the name of a sheet that was
removed can be referred to, and every other formula has its edges, is out of date when a cell is written
that it reads, and, unless it calls `RAND` or is behind a cycle of reading formulas, has the value that
it has in the new grid. -/
theorem added_ofHistory (options : Options) (history : List Action) {hooks : Hooks} {name : String}
    {g' : Grid} {outcome : Outcome} (clean : (ofHistory options history).dirty = ∅)
    (ok : (ofHistory options history).apply hooks (.addSheet name) = .ok (g', outcome)) :
    let g := ofHistory options history
    g'.dirty = ∅ ∧ g'.cells = g.cells ∧
      (∀ y, (g.cell y).isFilling = false →
        (g'.CoveredAt y ↔ g.CoveredAt y ∧ ¬ g.RefersTo name y)) ∧
      (NeverAnswers options history →
        (∀ y, g.RefersTo name y → name ∈ removedNames options history) ∧
        ∀ y, (g.cell y).isFilling = false → ¬ g.RefersTo name y →
          g'.CoveredAt y ∧
          (∀ x, g'.FormulaReads x y → ∀ c, y ∈ (g'.store x c).dirty) ∧
          (¬ Formula.CallsRandom (g.formula y) → ¬ BehindCycle g'.FormulaReads y →
            (g'.value y).agrees (Formula.evaluate g'.view y (g'.formula y)).toValue)) := by
  intro g
  have regular : g.Regular := regular_ofHistory options history
  have idle : g.waiting = [] := waiting_ofHistory options history
  have added : g.addSheet name = .ok g' := addSheet_of_apply regular clean idle ok
  have edges := fun y => coveredAt_addSheet_iff added (anchored_ofHistory options history) (y := y)
  refine ⟨?_, cells_addSheet added, edges, ?_⟩
  · rw [addSheet_eq added]
    exact clean
  · intro unanswered
    have h : g.Tracked (removedNames options history) :=
      tracked_of_neverAnswers options history unanswered
    refine ⟨fun y => h.mem_of_refersTo added, ?_⟩
    intro y notFilling apart
    have covered : g'.CoveredAt y :=
      (edges y notFilling).mpr ⟨h.traced.covered y notFilling, apart⟩
    refine ⟨covered, ?_, ?_⟩
    · intro x reads c
      exact mem_dirty_store_of_precedent (regular.addSheet added).wired (covered x reads.2) c
    · intro noRandom free
      have settled : y ∉ g.dirty := by
        rw [show g.dirty = ∅ from clean]
        exact Std.ExtTreeSet.not_mem_empty
      have same := formulaValue_addSheet added h.traced notFilling apart
      rw [value_addSheet added]
      show (g.value y).agrees (g'.formulaValue y)
      rw [same]
      refine h.current.value y settled notFilling noRandom fun behind => free ?_
      -- What a formula has read it goes on reading, so its cycles are cycles of the new grid.
      rw [edge_eq_formulaReads h.regular.wired h.traced] at behind
      refine behind.mono fun u v reads => ⟨?_, reads_addSheet_of_reads added reads.2⟩
      rw [cell_addSheet added]
      exact reads.1

/-- A formula refers to a sheet that is removed, and then a sheet with another name is added. -/
theorem added_ofHistory_other :
    let history : List Action :=
      [.edit {} (.removeSheet 1), .edit {} (.set ⟨0, 1, 1⟩ "=Sheet2!A1")]
    let g := ofHistory {} history
    let g' := g.perform (.edit {} (.addSheet "Sheet3"))
    NeverAnswers {} history ∧ g.dirty = ∅ ∧
      (∃ outcome, g.apply {} (.addSheet "Sheet3") = .ok (g', outcome)) ∧
      g'.CoveredAt ⟨0, 1, 1⟩ ∧
      (g'.value ⟨0, 1, 1⟩).agrees
        (Formula.evaluate g'.view ⟨0, 1, 1⟩ (g'.formula ⟨0, 1, 1⟩)).toValue := by
  intro history g g'
  have unanswered : NeverAnswers {} history := ⟨⟨trivial, nofun⟩, nofun⟩
  have clean : g.dirty = ∅ := Std.ExtTreeSet.isEmpty_iff.mp (by decide +kernel)
  obtain ⟨outcome, ok⟩ : ∃ outcome, g.apply {} (.addSheet "Sheet3") = .ok (g', outcome) :=
    exists_apply_eq_perform (by decide +kernel)
  obtain ⟨-, -, -, current⟩ := added_ofHistory {} history clean ok
  have elsewhere : ∀ m ∈ Formula.mentions (g.formula ⟨0, 1, 1⟩),
      m.1.writtenSheet ≠ some "Sheet3" := by decide +kernel
  have apart : ¬ g.RefersTo "Sheet3" ⟨0, 1, 1⟩ := fun ⟨_, m, hm, written⟩ => elsewhere m hm written
  obtain ⟨covered, -, value⟩ :=
    (current unanswered).2 ⟨0, 1, 1⟩ (by decide +kernel) apart
  refine ⟨unanswered, clean, ⟨outcome, ok⟩, covered, value (by decide +kernel) ?_⟩
  intro behind
  obtain ⟨w, -, -, m, hm, sheet, found, -⟩ := behind.exists_before
  have missing : ∀ m ∈ Formula.mentions (g'.formula ⟨0, 1, 1⟩),
      m.1.sheet? 0 g'.directory = none := by decide +kernel
  cases found.symm.trans (missing m hm)

/-- A formula refers to a sheet that is removed.  When a sheet is added under the same name, the formula
reads a cell of it, from which it has no edge, and it goes on showing that there is no such sheet. -/
theorem not_current_of_answered :
    ¬ ∀ (options : Options) (history : List Action) (hooks : Hooks) (name : String) (g' : Grid)
      (outcome : Outcome), (ofHistory options history).dirty = ∅ →
        (∀ y, ¬ Formula.CallsRandom ((ofHistory options history).formula y)) →
        (ofHistory options history).apply hooks (.addSheet name) = .ok (g', outcome) →
        ∀ y ∈ g'.cells, (g'.cell y).isFilling = false → ¬ BehindCycle g'.FormulaReads y →
          (g'.value y).agrees (Formula.evaluate g'.view y (g'.formula y)).toValue ∧
            g'.CoveredAt y := by
  intro all
  let history : List Action :=
    [.edit {} (.removeSheet 1), .edit {} (.set ⟨0, 1, 1⟩ "=Sheet2!A1")]
  let g := ofHistory {} history
  let g' := g.perform (.edit {} (.addSheet "Sheet2"))
  obtain ⟨outcome, ok⟩ : ∃ outcome, g.apply {} (.addSheet "Sheet2") = .ok (g', outcome) :=
    exists_apply_eq_perform (by decide +kernel)
  have noRandom : ∀ y, ¬ Formula.CallsRandom (g.formula y) := fun y =>
    of_decide_eq_true (forall_cells (P := fun _ c => ¬ Formula.CallsRandom c.formula)
      (fun _ => by decide +kernel) (by decide +kernel) y)
  -- Every formula reads the new sheet only, and no cell of it has a formula.
  have silent : ∀ x y, g'.FormulaReads x y → x.sheet = 1 ∧ y.sheet = 0 := by
    rintro x y ⟨-, m, hm, sheet, found, hx⟩
    have only := forall_cells (g := g') (P := fun y c => decide (∀ m ∈ Formula.mentions c.formula,
      m.1.sheet? y.sheet g'.directory = some 1 ∧ y.sheet = 0))
        (fun _ => decide_eq_true fun m hm => absurd hm (mentions_empty ▸ List.not_mem_nil))
        (by decide +kernel) y
    obtain ⟨one, home⟩ := of_decide_eq_true only m hm
    cases found.symm.trans one
    exact ⟨((m.1.mem_cellsOn _ _).mp hx).1, home⟩
  have free : ¬ BehindCycle g'.FormulaReads ⟨0, 1, 1⟩ := by
    intro behind
    obtain ⟨w, behind, reads⟩ := behind.exists_before
    obtain ⟨v, -, before⟩ := behind.exists_before
    have one := (silent _ _ reads).1
    rw [(silent _ _ before).2] at one
    cases one
  have current := (all {} history {} "Sheet2" g' outcome
    (Std.ExtTreeSet.isEmpty_iff.mp (by decide +kernel)) noRandom ok ⟨0, 1, 1⟩ (by decide +kernel)
    (by decide +kernel) free).1
  rcases current with equal | same
  · revert equal
    decide +kernel
  · revert same
    decide +kernel

end Spreadsheet.Grid
