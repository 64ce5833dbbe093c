import Spreadsheet.Proofs.Formula.Reproduction
import Spreadsheet.Proofs.Grid.Batches

/-!
# Surplus edges

Cells can have edges that their formulas do not need.  Such edges put more cells out of date, and a pass
waits along them too.  So they cause more work, and not only that.  Where they close a cycle, its cells
are given up, and a value that is not that of its formula changes when its cell is computed for nothing.

* `Grid.Surplus g h`: the second grid is the first with more edges.
* `Grid.Surplus.link` and `Grid.Surplus.store`: edges may be added one by one, and a write keeps two
  grids so.
* `Grid.Stands`: the values of a grid stand when some cells are computed and others are given up.
* `Grid.Surplus.value_recompute_iff`: a pass over more edges comes to the same values just if these stand.
* `Grid.value_editEach_eq_iff_stands`: when the values are the same after each of some edits.
-/

namespace Spreadsheet

open Relation

namespace Grid

variable {g h g' h' : Grid} {hooks : Hooks} {draws : Formula.Draws}

/-! ### More edges than the formulas need -/

theorem not_callsRandom_resolved (g : Grid) (sheet : Nat) {c : Cell}
    (noRandom : ¬ Formula.CallsRandom c.formula) :
    ¬ Formula.CallsRandom (g.resolved sheet c).formula := by
  rw [resolved]
  split
  · exact noRandom
  · split
    · exact noRandom
    · exact Formula.not_callsRandom_quote _

/-- The first grid has just the edges that its formulas need and draws no numbers, and the second is the
first with more edges. -/
structure Surplus (g h : Grid) : Prop where
  sheets : h.sheets = g.sheets
  options : h.options = g.options
  formula : ∀ x, h.formula x = g.formula x
  value : ∀ x, h.value x = g.value x
  noRandom : ∀ x, ¬ Formula.CallsRandom (g.formula x)
  /-- No formula that fills other cells is still to be run. -/
  waiting : g.waiting = [] ∧ h.waiting = []
  wired : g.Wired
  traced : g.Traced
  /-- What a cell of the second grid waits for lists it as a reader. -/
  forth : h.Forth
  /-- Every cell of the second grid waits for all that its formula reads. -/
  covered : h.Covered

/-- The grid with one edge more, at both its ends. -/
def link (g : Grid) (x y : CellId) : Grid :=
  { g with
    cells := addReader y
      (g.cells.insert y { g.cell y with precedents := (g.cell y).precedents.insert x }) x }

section

variable (g : Grid) (x y : CellId)

theorem cell_link (z : CellId) :
    (g.link x y).cell z =
      let c := if z = y then { g.cell y with precedents := (g.cell y).precedents.insert x }
        else g.cell z
      if z = x then { c with readers := c.readers.insert y } else c := by
  simp only [link, cell, getD_addReader, Std.ExtTreeMap.getD_insert,
    Std.LawfulEqCmp.compare_eq_iff_eq, eq_comm (a := y)]

theorem dirty_link : (g.link x y).dirty = g.dirty := rfl

theorem formula_link (z : CellId) : (g.link x y).formula z = g.formula z := by
  rw [formula, cell_link]
  dsimp only
  split_ifs <;> simp_all [formula]

theorem value_link (z : CellId) : (g.link x y).value z = g.value z := by
  rw [value, cell_link]
  dsimp only
  split_ifs <;> simp_all [value]

theorem mem_precedents_link (u v : CellId) :
    u ∈ ((g.link x y).cell v).precedents ↔ (u = x ∧ v = y) ∨ u ∈ (g.cell v).precedents := by
  rw [cell_link]
  dsimp only
  split_ifs <;> simp_all [Std.ExtTreeSet.mem_insert, eq_comm (a := x)]

theorem mem_readers_link (u v : CellId) :
    v ∈ ((g.link x y).cell u).readers ↔ (u = x ∧ v = y) ∨ v ∈ (g.cell u).readers := by
  rw [cell_link]
  dsimp only
  split_ifs <;> simp_all [Std.ExtTreeSet.mem_insert, eq_comm (a := y)]

end

theorem Covered.store (h : g.Covered) (id : CellId) (c : Cell) : (g.store id c).Covered := by
  intro y notFilling x reads
  rw [isFilling_store] at notFilling
  rw [formula_store, store_directory] at reads
  rw [precedents_store]
  by_cases same : y = id
  · subst same
    rw [if_pos rfl] at notFilling reads ⊢
    exact (mem_resolved_precedents g y.sheet c notFilling x).mpr reads
  · rw [if_neg same] at notFilling reads ⊢
    exact h y notFilling x reads

namespace Surplus

theorem refl (wired : g.Wired) (traced : g.Traced) (waiting : g.waiting = [])
    (noRandom : ∀ x, ¬ Formula.CallsRandom (g.formula x)) : Surplus g g :=
  ⟨rfl, rfl, fun _ => rfl, fun _ => rfl, noRandom, ⟨waiting, waiting⟩, wired, traced, wired.forth,
    traced.covered⟩

variable (s : Surplus g h)

include s

theorem directory : h.directory = g.directory := by
  rw [Grid.directory, Grid.directory, s.sheets]

theorem filling (x : CellId) : (h.cell x).isFilling = (g.cell x).isFilling :=
  isFilling_eq_of_value_eq (s.value x)

theorem resolved (sheet : Nat) (c : Cell) : h.resolved sheet c = g.resolved sheet c := by
  rw [Grid.resolved, Grid.resolved, s.directory]

/-- Edges may be added one by one, whatever cells they join. -/
theorem link (x y : CellId) : Surplus g (h.link x y) where
  sheets := s.sheets
  options := s.options
  formula z := (formula_link h x y z).trans (s.formula z)
  value z := (value_link h x y z).trans (s.value z)
  noRandom := s.noRandom
  waiting := s.waiting
  wired := s.wired
  traced := s.traced
  forth u v edge := by
    rw [mem_precedents_link] at edge
    rw [mem_readers_link]
    exact edge.imp_right (s.forth u v)
  covered v notFilling u reads := by
    rw [isFilling_eq_of_value_eq (value_link h x y v)] at notFilling
    rw [formula_link] at reads
    rw [mem_precedents_link]
    exact Or.inr (s.covered v notFilling u reads)

theorem edge (x y : CellId) (edge : g.Edge x y) : h.Edge x y := by
  have notFilling : (g.cell y).isFilling = false := by
    rw [← Bool.not_eq_true]
    intro filling
    rw [Edge, s.wired.inert y filling] at edge
    exact Std.ExtTreeSet.not_mem_empty edge
  refine s.covered y ((s.filling y).trans notFilling) x ?_
  rw [s.directory, s.formula]
  exact (s.traced y notFilling x).mp edge

theorem reach {a x : CellId} (path : ReflTransGen (ReadBy g.cells) a x) :
    ReflTransGen (ReadBy h.cells) a x := by
  induction path with
  | refl => exact .refl
  | @tail u v _ reads ih =>
    by_cases same : u = v
    · exact same ▸ ih
    · exact ih.tail (s.forth u v (s.edge u v (s.wired.back u v same reads)))

/-! ### Writing -/

/-- **A write** takes the same formula into both grids. -/
theorem store (id : CellId) {c : Cell} (noRandom : ¬ Formula.CallsRandom c.formula) :
    Surplus (g.store id c) (h.store id c) where
  sheets := s.sheets
  options := s.options
  formula x := by rw [formula_store, formula_store, s.resolved, s.formula]
  value x := by rw [value_store, value_store, s.resolved, s.value]
  noRandom x := by
    rw [formula_store]
    split
    · exact not_callsRandom_resolved g id.sheet noRandom
    · exact s.noRandom x
  waiting := s.waiting
  wired := s.wired.store id c
  traced := s.traced.store id c
  forth := s.forth.store id c
  covered := s.covered.store id c

theorem storeAll {writes : List (CellId × Cell)}
    (noRandom : ∀ w ∈ writes, ¬ Formula.CallsRandom w.2.formula) :
    Surplus (g.storeAll writes) (h.storeAll writes) := by
  induction writes generalizing g h with
  | nil => exact s
  | cons head writes ih =>
    rw [List.forall_mem_cons] at noRandom
    exact ih (s.store head.1 noRandom.1) noRandom.2

theorem dirty_storeAll (clean : g.dirty = ∅) {writes : List (CellId × Cell)}
    (noRandom : ∀ w ∈ writes, ¬ Formula.CallsRandom w.2.formula) :
    ∀ x ∈ (g.storeAll writes).dirty, x ∈ (h.storeAll writes).dirty := by
  intro x dirty
  rw [mem_dirty_storeAll_iff, clean] at dirty
  rw [mem_dirty_storeAll_iff]
  obtain ⟨w, written, path⟩ := dirty.resolve_left Std.ExtTreeSet.not_mem_empty
  exact Or.inr ⟨w, written, (s.storeAll noRandom).reach path⟩

/-! ### Values of formulas -/

/-- A formula has the same value in both grids after a pass, if the cells that it reads have. -/
theorem formulaValue_eq (alike : g.Alike g') (alike' : h.Alike h') {y : CellId}
    (notFilling : (g.cell y).isFilling = false)
    (values : ∀ x, g.Edge x y → h'.value x = g'.value x) (draws : Formula.Draws) :
    h'.formulaValue y draws = g'.formulaValue y := by
  have noRandom : ¬ Formula.CallsRandom (h'.formula y) := by
    rw [alike'.formula, s.formula]
    exact s.noRandom y
  rw [formulaValue_of_not_callsRandom noRandom draws .zero]
  refine (alike.traced s.traced).formulaValue_eq ((alike.filling y).trans notFilling) ?_ ?_ ?_
  · rw [alike'.formula, alike.formula, s.formula]
  · intro m _
    rw [alike'.directory, alike.directory, s.directory]
  · intro x edge
    rw [alike.edge] at edge
    exact values x edge

end Surplus

/-! ### A pass over more edges -/

/-- The values of a grid stand when the cells of `cycle` are given up and the other cells of `dirty` are
computed. -/
structure Stands (g : Grid) (dirty : CellSet) (cycle : List CellId) : Prop where
  circular : ∀ y ∈ cycle, g.value y = circularValue (g.formula y)
  current : ∀ y ∈ dirty, y ∉ cycle → (g.cell y).isFilling = false →
    (g.value y).agrees (g.formulaValue y)

namespace Surplus

variable (s : Surplus g h) (never : ∀ done, hooks.cancel done = false)

include s

theorem stuck (dirty : ∀ x ∈ g.dirty, x ∈ h.dirty) {y : CellId}
    (stuck : Stuck g.Edge {x | x ∈ g.dirty} y) : Stuck h.Edge {x | x ∈ h.dirty} y :=
  stuck.mono s.edge dirty

include never

theorem completed : (h.recompute hooks).2.cancelled = false := Forth.not_cancelled s.forth never

/-- The cells that are given up in the second grid are those that wait for one another. -/
theorem mem_cycle_iff (y : CellId) :
    y ∈ (h.recompute hooks).2.cycle.getD [] ↔ Stuck h.Edge {x | x ∈ h.dirty} y :=
  mem_cycle_recompute (s.completed never) s.forth y

theorem value_of_stuck {y : CellId} (stuck : Stuck h.Edge {x | x ∈ h.dirty} y) :
    (h.recompute hooks).1.value y = circularValue (g.formula y) := by
  rw [value_recompute_of_stuck (s.completed never) s.forth stuck, s.formula]

/-- If the cells that are given up in the second grid say so in the first, none of them has filled
others. -/
theorem exists_settled
    (circular : ∀ y, Stuck h.Edge {x | x ∈ h.dirty} y →
      (g.recompute hooks).1.value y = circularValue (g.formula y)) :
    ∃ order p, Pass.Settled (hooks.draws 0) h order p ∧
      h.recompute hooks = (p.grid, p.report) := by
  refine Forth.exists_settled (s.completed never) s.forth fun y stuck => ?_
  have text := circular y stuck
  rw [Grid.value] at text
  rw [s.filling, ← (recompute_alike s.wired hooks).filling, Cell.isFilling, text]
  rfl

/-- **If both passes come to the same values**, these stand. -/
theorem stands_of_eq
    (same : ∀ x, (h.recompute hooks).1.value x = (g.recompute hooks).1.value x) :
    (g.recompute hooks).1.Stands h.dirty ((h.recompute hooks).2.cycle.getD []) := by
  have alike := recompute_alike s.wired hooks
  have circular : ∀ y, Stuck h.Edge {x | x ∈ h.dirty} y →
      (g.recompute hooks).1.value y = circularValue (g.formula y) :=
    fun y stuck => (same y).symm.trans (s.value_of_stuck never stuck)
  constructor
  · intro y hy
    rw [alike.formula]
    exact circular y ((s.mem_cycle_iff never y).mp hy)
  · intro y hy free notFilling
    rw [s.mem_cycle_iff never] at free
    rw [alike.filling] at notFilling
    obtain ⟨order, p, settled, ends⟩ := s.exists_settled never circular
    rw [ends] at same
    have value := settled.value s.covered y ((settled.mem y).mpr ⟨hy, free⟩)
      ((s.filling y).trans notFilling)
    rw [← same, value,
      s.formulaValue_eq alike settled.alike notFilling (fun x _ => same x) (hooks.draws 0)]
    exact CellValue.keep_agrees _ _

/-- A cell that is not dirty in the second grid keeps its value in both. -/
theorem value_eq_of_clean (dirty : ∀ x ∈ g.dirty, x ∈ h.dirty) {order : List CellId} {p : Pass}
    (settled : Pass.Settled draws h order p) {y : CellId} (clean : y ∉ h.dirty) :
    p.grid.value y = (g.recompute hooks).1.value y := by
  obtain ⟨order', p', settled', ends⟩ :=
    s.wired.linked.exists_settled (recompute_not_cancelled s.wired.linked never)
  rw [ends, value_eq_of_cells (settled.outside y clean),
    value_eq_of_cells (settled'.outside y fun mem => clean (dirty y mem)), s.value]

/-- A cell that is not given up gets the same value in both grids if the cells that its formula reads
do. -/
theorem value_eq_of_edges (dirty : ∀ x ∈ g.dirty, x ∈ h.dirty) {order : List CellId} {p : Pass}
    (settled : Pass.Settled draws h order p) {y : CellId} (free : ¬ Stuck h.Edge {x | x ∈ h.dirty} y)
    (current : y ∈ h.dirty → (g.cell y).isFilling = false →
      ((g.recompute hooks).1.value y).agrees ((g.recompute hooks).1.formulaValue y))
    (values : ∀ x, g.Edge x y → p.grid.value x = (g.recompute hooks).1.value x) :
    p.grid.value y = (g.recompute hooks).1.value y := by
  by_cases hy : y ∈ h.dirty
  swap
  · exact s.value_eq_of_clean never dirty settled hy
  have alike := recompute_alike s.wired hooks
  obtain ⟨order', p', settled', ends⟩ :=
    s.wired.linked.exists_settled (recompute_not_cancelled s.wired.linked never)
  rw [ends] at current values alike ⊢
  have mem := (settled.mem y).mpr ⟨hy, free⟩
  have mem' : y ∈ g.dirty → y ∈ order' := fun hy' =>
    (settled'.mem y).mpr ⟨hy', fun stuck => free (s.stuck dirty stuck)⟩
  have outside : y ∉ g.dirty → p'.grid.value y = g.value y := fun clean =>
    value_eq_of_cells (settled'.outside y clean)
  cases filling : (g.cell y).isFilling with
  | true =>
    rw [settled.filling y mem ((s.filling y).trans filling), s.value]
    by_cases hy' : y ∈ g.dirty
    · exact (settled'.filling y (mem' hy') filling).symm
    · exact (outside hy').symm
  | false =>
    rw [settled.value s.covered y mem ((s.filling y).trans filling), s.value,
      s.formulaValue_eq alike settled.alike filling values draws]
    by_cases hy' : y ∈ g.dirty
    · rw [settled'.value s.traced.covered y (mem' hy') filling, formulaValue_of_not_callsRandom
        (settled'.alike.formula y ▸ s.noRandom y) (hooks.draws 0) .zero]
    · rw [← outside hy']
      exact CellValue.keep_of_agrees (current hy filling)

/-- **If the values of the first pass stand**, the second comes to the same. -/
theorem eq_of_stands (dirty : ∀ x ∈ g.dirty, x ∈ h.dirty)
    (stands : (g.recompute hooks).1.Stands h.dirty ((h.recompute hooks).2.cycle.getD [])) (x : CellId) :
    (h.recompute hooks).1.value x = (g.recompute hooks).1.value x := by
  have alike := recompute_alike s.wired hooks
  have circular : ∀ y, Stuck h.Edge {x | x ∈ h.dirty} y →
      (g.recompute hooks).1.value y = circularValue (g.formula y) := by
    intro y stuck
    rw [← alike.formula]
    exact stands.circular y ((s.mem_cycle_iff never y).mpr stuck)
  obtain ⟨order, p, settled, ends⟩ := s.exists_settled never circular
  rw [ends]
  by_contra differs
  -- A cell whose values differ reads another such cell, so all of them wait for one another.
  let S : Set CellId := {y | p.grid.value y ≠ (g.recompute hooks).1.value y}
  have free : ∀ y ∈ S, ¬ Stuck h.Edge {x | x ∈ h.dirty} y := by
    intro y hy stuck
    refine hy ((settled.circular y stuck).trans ?_)
    rw [s.formula, circular y stuck]
  have inside : S ⊆ {x | x ∈ h.dirty} := by
    intro y hy
    by_contra clean
    exact hy (s.value_eq_of_clean never dirty settled clean)
  have supported : Supported h.Edge S := by
    intro y hy
    by_contra none
    refine hy (s.value_eq_of_edges never dirty settled (free y hy) (fun hy' notFilling => ?_) ?_)
    · exact stands.current y hy' (fun mem => free y hy ((s.mem_cycle_iff never y).mp mem))
        ((alike.filling y).trans notFilling)
    · intro x edge
      by_contra differs
      exact none ⟨x, differs, s.edge x y edge⟩
  exact free x differs ⟨S, inside, supported, differs⟩

/-- **A pass over more edges** comes to the same values if and only if these stand. -/
theorem value_recompute_iff (dirty : ∀ x ∈ g.dirty, x ∈ h.dirty) :
    (∀ x, (h.recompute hooks).1.value x = (g.recompute hooks).1.value x) ↔
      (g.recompute hooks).1.Stands h.dirty ((h.recompute hooks).2.cycle.getD []) :=
  ⟨s.stands_of_eq never, s.eq_of_stands never dirty⟩

/-- **A pass that comes to the same values** leaves the second grid the first with more edges. -/
theorem recompute (same : ∀ x, (h.recompute hooks).1.value x = (g.recompute hooks).1.value x) :
    Surplus (g.recompute hooks).1 (h.recompute hooks).1 ∧ (g.recompute hooks).1.dirty = ∅ ∧
      (h.recompute hooks).1.dirty = ∅ := by
  have alike := recompute_alike s.wired hooks
  obtain ⟨order, p, settled, ends⟩ := s.exists_settled never fun y stuck =>
    (same y).symm.trans (s.value_of_stuck never stuck)
  rw [ends] at same ⊢
  refine ⟨?_, recompute_clean s.wired never, settled.clean⟩
  have alike' := settled.alike
  exact {
    sheets := (alike'.sheets.trans s.sheets).trans alike.sheets.symm
    options := (alike'.options.trans s.options).trans alike.options.symm
    formula := fun x => by rw [alike'.formula, alike.formula, s.formula]
    value := same
    noRandom := fun x => alike.formula x ▸ s.noRandom x
    waiting := ⟨alike.waiting.trans s.waiting.1, alike'.waiting.trans s.waiting.2⟩
    wired := alike.wired s.wired
    traced := alike.traced s.traced
    forth := fun x y edge => by
      rw [alike'.precedents] at edge
      rw [alike'.readers]
      exact s.forth x y edge
    covered := alike'.covered s.covered }

end Surplus

/-! ### Values that are up to date -/

/-- Every cell that is not dirty has the value of its formula, also behind a cycle. -/
def UpToDate (g : Grid) : Prop :=
  ∀ y, y ∉ g.dirty → (g.cell y).isFilling = false → (g.value y).agrees (g.formulaValue y)

theorem Closed.storeAll (closed : g.Closed) (forth : g.Forth) (writes : List (CellId × Cell)) :
    (g.storeAll writes).Closed := by
  induction writes generalizing g with
  | nil => exact closed
  | cons head writes ih => exact ih (closed.store head.1 head.2 forth) (forth.store head.1 head.2)

namespace UpToDate

variable (upToDate : g.UpToDate)

include upToDate

theorem store (traced : g.Traced) {id : CellId} {c : Cell} (closed : (g.store id c).Closed) :
    (g.store id c).UpToDate := by
  intro y clean notFilling
  obtain ⟨other, clean'⟩ := ne_and_not_mem_of_not_mem_store id c clean
  rw [isFilling_store, if_neg other] at notFilling
  rw [value_store, if_neg other, formulaValue_store id c traced closed clean notFilling]
  exact upToDate y clean' notFilling

theorem storeAll (wired : g.Wired) (traced : g.Traced) (closed : g.Closed)
    (writes : List (CellId × Cell)) : (g.storeAll writes).UpToDate := by
  induction writes generalizing g with
  | nil => exact upToDate
  | cons head writes ih =>
    have closed' := closed.store head.1 head.2 wired.forth
    exact ih (upToDate.store traced closed') (wired.store head.1 head.2)
      (traced.store head.1 head.2) closed'

/-- **A pass that gives no cell up** leaves all values up to date. -/
theorem recompute (wired : g.Wired) (covered : g.Covered) (closed : g.Closed)
    (never : ∀ done, hooks.cancel done = false)
    (noRandom : ∀ x, ¬ Formula.CallsRandom (g.formula x))
    (free : ∀ y, ¬ Stuck g.Edge {x | x ∈ g.dirty} y) : (g.recompute hooks).1.UpToDate := by
  obtain ⟨order, p, settled, ends⟩ :=
    wired.linked.exists_settled (recompute_not_cancelled wired.linked never)
  rw [ends]
  intro y _ notFilling
  rw [settled.alike.filling] at notFilling
  have outside : ∀ x, x ∉ g.dirty → p.grid.value x = g.value x := fun x clean =>
    value_eq_of_cells (settled.outside x clean)
  by_cases dirty : y ∈ g.dirty
  · rw [settled.value covered y ((settled.mem y).mpr ⟨dirty, free y⟩) notFilling,
      formulaValue_of_not_callsRandom (settled.alike.formula y ▸ noRandom y) (hooks.draws 0) .zero]
    exact CellValue.keep_agrees _ _
  · rw [covered.formulaValue_of_outside closed settled.alike outside dirty notFilling,
      outside y dirty]
    exact upToDate y dirty notFilling

end UpToDate

/-- Values that are up to date stand if a pass over more edges gives no cell up. -/
theorem Surplus.stands_of_upToDate (s : Surplus g h) (dirty : ∀ x ∈ g.dirty, x ∈ h.dirty)
    (never : ∀ done, hooks.cancel done = false) (upToDate : g.UpToDate) (closed : g.Closed)
    (none : (h.recompute hooks).2.cycle = none) :
    (g.recompute hooks).1.Stands h.dirty ((h.recompute hooks).2.cycle.getD []) ∧
      (g.recompute hooks).1.UpToDate := by
  have free : ∀ y, ¬ Stuck h.Edge {x | x ∈ h.dirty} y := by
    intro y stuck
    rw [← s.mem_cycle_iff never, none] at stuck
    exact List.not_mem_nil stuck
  have after : (g.recompute hooks).1.UpToDate :=
    upToDate.recompute s.wired s.traced.covered closed never s.noRandom fun y stuck =>
      free y (s.stuck dirty stuck)
  rw [none]
  refine ⟨⟨nofun, fun y _ _ notFilling => after y ?_ notFilling⟩, after⟩
  rw [recompute_clean s.wired never]
  exact Std.ExtTreeSet.not_mem_empty

end Grid

/-! ### Edits -/

/-- The text fills no other cells and draws no numbers when it is typed into a cell. -/
def Input.IsPlain (text : String) : Prop :=
  FillsNone text ∧ ¬ Formula.CallsRandom (ofText text).stored

instance (text : String) : Decidable (Input.IsPlain text) := inferInstanceAs (Decidable (_ ∧ _))

/-- The edit types texts with the property `P`, or clears a block. -/
def Edit.Types (P : String → Prop) : Edit → Prop
  | set _ text => P text
  | batch _ texts => ∀ text ∈ texts, P text
  | clear _ => True
  | _ => False

namespace Grid

variable {g h : Grid} {hooks : Hooks} {e : Edit}

/-- The grid after some edits one after the other. -/
def editEach (hooks : Hooks) (g : Grid) (edits : List Edit) : Grid :=
  edits.foldl (fun g e => g.perform (.edit hooks e)) g

namespace Surplus

variable (s : Surplus g h)

include s

/-- **An edit that types and clears** is refused by both grids, or it writes the same cells into both. -/
theorem write (plain : e.Types Input.IsPlain) :
    (∃ error, g.write e = .error error ∧ h.write e = .error error) ∨
      ∃ writes ids, (∀ w ∈ writes, ¬ Formula.CallsRandom w.2.formula) ∧
        g.write e = .ok ((g.storeAll writes, ids), false) ∧
        h.write e = .ok ((h.storeAll writes, ids), false) := by
  have sheet : h.sheet = g.sheet := by
    funext index
    rw [Grid.sheet, Grid.sheet, s.sheets]
  have checkCell : h.checkCell = g.checkCell := by
    funext id
    rw [Grid.checkCell, Grid.checkCell, checkInside, checkInside, sheet]
  cases e with
  | set id text =>
    rw [Grid.write, Grid.write, checkCell]
    cases g.checkCell id with
    | error error => exact Or.inl ⟨error, rfl, rfl⟩
    | ok _ =>
      refine Or.inr ⟨typedAll [(id, text)], [id], List.forall_mem_singleton.mpr plain.2, ?_, ?_⟩
      all_goals
        dsimp only [bind, Except.bind, pure, Except.pure]
        rw [enter_eq_store _ _ plain.1]
        rfl
  | batch ids texts =>
    rw [Grid.write, Grid.write, checkCell]
    by_cases same : ids.length = texts.length
    · rw [if_neg (not_not_intro same), if_neg (not_not_intro same)]
      cases ids.forM g.checkCell with
      | error error => exact Or.inl ⟨error, rfl, rfl⟩
      | ok _ =>
        have plain' : ∀ p ∈ ids.zip texts, Input.IsPlain p.2 := fun p mem =>
          plain p.2 (List.of_mem_zip mem).2
        refine Or.inr ⟨typedAll (ids.zip texts), ids,
          List.forall_mem_map.mpr fun p mem => (plain' p mem).2, ?_, ?_⟩
        all_goals
          dsimp only [bind, Except.bind, pure, Except.pure]
          rw [foldl_enter_eq _ fun p mem => (plain' p mem).1]
    · rw [if_pos same, if_pos same]
      exact Or.inl ⟨_, rfl, rfl⟩
  | clear range =>
    have checkRange : h.checkRange range = g.checkRange range := by
      rw [Grid.checkRange, Grid.checkRange, sheet]
    rw [Grid.write, Grid.write, checkRange]
    cases g.checkRange range with
    | error error => exact Or.inl ⟨error, rfl, rfl⟩
    | ok _ =>
      have blank : ¬ Formula.CallsRandom Cell.blank.formula := by decide +kernel
      refine Or.inr ⟨range.cells.map (·, .blank), range.cells,
        List.forall_mem_map.mpr fun _ _ => blank, ?_, ?_⟩
      all_goals
        rw [← clearAll_eq]
        rfl
  | _ => exact plain.elim

theorem perform_cases (hooks : Hooks) (plain : e.Types Input.IsPlain) :
    ((∃ error, h.write e = .error error) ∧ g.perform (.edit hooks e) = g ∧
        h.perform (.edit hooks e) = h) ∨
      ∃ writes ids, (∀ w ∈ writes, ¬ Formula.CallsRandom w.2.formula) ∧
        h.write e = .ok ((h.storeAll writes, ids), false) ∧
        g.perform (.edit hooks e) = ((g.storeAll writes).recompute hooks).1 ∧
        h.perform (.edit hooks e) = ((h.storeAll writes).recompute hooks).1 := by
  rcases s.write plain with ⟨error, refused, refused'⟩ | ⟨writes, ids, noRandom, wrote, wrote'⟩
  · exact Or.inl ⟨⟨error, refused'⟩, perform_of_refused refused, perform_of_refused refused'⟩
  · have idle := (s.storeAll noRandom).waiting
    exact Or.inr ⟨writes, ids, noRandom, wrote', perform_of_write_of_idle wrote idle.1,
      perform_of_write_of_idle wrote' idle.2⟩

variable (clean : g.dirty = ∅) (never : ∀ done, hooks.cancel done = false)
  (plain : e.Types Input.IsPlain)

include clean never plain

/-- **An edit** leads to the same values in both grids if and only if those of the first stand. -/
theorem value_perform_iff :
    (∀ x, (h.perform (.edit hooks e)).value x = (g.perform (.edit hooks e)).value x) ↔
      ∀ w ids invalidate, h.write e = .ok ((w, ids), invalidate) →
        (g.perform (.edit hooks e)).Stands w.dirty ((w.recompute hooks).2.cycle.getD []) := by
  rcases s.perform_cases hooks plain with
    ⟨⟨error, refused⟩, stays, stays'⟩ | ⟨writes, ids, noRandom, wrote, ends, ends'⟩
  · rw [stays, stays', refused]
    exact iff_of_true s.value nofun
  · rw [ends, ends', wrote,
      (s.storeAll noRandom).value_recompute_iff never (s.dirty_storeAll clean noRandom)]
    refine ⟨fun stands w ids' invalidate same => ?_, fun stands => stands _ _ _ rfl⟩
    cases same
    exact stands

/-- An edit that leads to the same values leaves the second grid the first with more edges. -/
theorem perform (clean' : h.dirty = ∅)
    (same : ∀ x, (h.perform (.edit hooks e)).value x = (g.perform (.edit hooks e)).value x) :
    Surplus (g.perform (.edit hooks e)) (h.perform (.edit hooks e)) ∧
      (g.perform (.edit hooks e)).dirty = ∅ ∧ (h.perform (.edit hooks e)).dirty = ∅ := by
  rcases s.perform_cases hooks plain with
    ⟨-, stays, stays'⟩ | ⟨writes, ids, noRandom, wrote, ends, ends'⟩
  · rw [stays, stays']
    exact ⟨s, clean, clean'⟩
  · rw [ends, ends'] at same ⊢
    exact (s.storeAll noRandom).recompute never same

/-- **An edit whose pass over more edges reports no cycle** leads from values that are up to date to the
same values in both grids. -/
theorem perform_upToDate (upToDate : g.UpToDate)
    (free : ∀ h₁ o, h.apply hooks e = .ok (h₁, o) → o.report.cycle = none) :
    (∀ x, (h.perform (.edit hooks e)).value x = (g.perform (.edit hooks e)).value x) ∧
      (g.perform (.edit hooks e)).UpToDate := by
  rcases s.perform_cases hooks plain with
    ⟨-, stays, stays'⟩ | ⟨writes, ids, noRandom, wrote, ends, ends'⟩
  · rw [stays, stays']
    exact ⟨s.value, upToDate⟩
  · have s' := s.storeAll noRandom
    have dirty := s.dirty_storeAll clean noRandom
    obtain ⟨outcome, applied, report⟩ := apply_of_write_of_idle hooks wrote s'.waiting.2
    have none := free _ _ applied
    rw [report] at none
    have closed := closed_of_clean clean
    obtain ⟨stands, after⟩ := s'.stands_of_upToDate dirty never
      (upToDate.storeAll s.wired s.traced closed writes) (closed.storeAll s.wired.forth writes) none
    rw [ends, ends']
    exact ⟨s'.eq_of_stands never dirty stands, after⟩

end Surplus

/-! ### Edits one after the other -/

theorem editEach_concat (hooks : Hooks) (g : Grid) (edits : List Edit) (e : Edit) :
    g.editEach hooks (edits ++ [e]) = (g.editEach hooks edits).perform (.edit hooks e) := by
  rw [editEach, List.foldl_append]
  rfl

section

variable {edits : List Edit} (s : Surplus g h) (clean : g.dirty = ∅) (clean' : h.dirty = ∅)
  (never : ∀ done, hooks.cancel done = false) (plain : ∀ e ∈ edits, e.Types Input.IsPlain)

include s clean clean' never plain

/-- **Edits one after the other** leave the second grid the first with more edges if each of them leads to
the same values, where `Q` is what the edits need besides. -/
theorem Surplus.editEach {Q : Grid → Prop} (start : Q g)
    (step : ∀ before e, before ++ [e] <+: edits →
      Surplus (g.editEach hooks before) (h.editEach hooks before) →
      (g.editEach hooks before).dirty = ∅ → Q (g.editEach hooks before) →
      (∀ x, (h.editEach hooks (before ++ [e])).value x =
        (g.editEach hooks (before ++ [e])).value x) ∧ Q (g.editEach hooks (before ++ [e])))
    (before : List Edit) (initial : before <+: edits) :
    Surplus (g.editEach hooks before) (h.editEach hooks before) ∧
      (g.editEach hooks before).dirty = ∅ ∧ (h.editEach hooks before).dirty = ∅ ∧
        Q (g.editEach hooks before) := by
  induction before using List.reverseRecOn with
  | nil => exact ⟨s, clean, clean', start⟩
  | append_singleton before e ih =>
    obtain ⟨s₁, clean₁, clean₁', q⟩ := ih ((List.prefix_append _ _).trans initial)
    obtain ⟨same, q'⟩ := step before e initial s₁ clean₁ q
    simp only [editEach_concat] at same q' ⊢
    obtain ⟨s₂, clean₂, clean₂'⟩ :=
      s₁.perform clean₁ never (plain e (initial.subset (by simp))) clean₁' same
    exact ⟨s₂, clean₂, clean₂', q'⟩

theorem Surplus.value_editEach_iff :
    (∀ before, before <+: edits → ∀ x,
        (h.editEach hooks before).value x = (g.editEach hooks before).value x) ↔
      ∀ before e w ids invalidate, before ++ [e] <+: edits →
        (h.editEach hooks before).write e = .ok ((w, ids), invalidate) →
          (g.editEach hooks (before ++ [e])).Stands w.dirty
            ((w.recompute hooks).2.cycle.getD []) := by
  have step := fun before e (initial : before ++ [e] <+: edits) s₁ clean₁ =>
    value_perform_iff (g := g.editEach hooks before) (h := h.editEach hooks before) s₁ clean₁ never
      (plain e (initial.subset (by simp)))
  simp only [← editEach_concat] at step
  constructor
  · intro same before e w ids invalidate initial
    obtain ⟨s₁, clean₁, -⟩ := s.editEach clean clean' never plain (Q := fun _ => True) trivial
      (fun before e initial _ _ _ => ⟨same _ initial, trivial⟩) before
      ((List.prefix_append _ _).trans initial)
    exact (step before e initial s₁ clean₁).mp (same _ initial) w ids invalidate
  · intro stands before initial
    obtain ⟨s₁, -⟩ := s.editEach clean clean' never plain (Q := fun _ => True) trivial
      (fun before e initial s₁ clean₁ _ => ⟨(step before e initial s₁ clean₁).mpr
        fun w ids invalidate => stands before e w ids invalidate initial, trivial⟩) before initial
    exact s₁.value

theorem Surplus.value_editEach (upToDate : g.UpToDate)
    (free : ∀ before e h₁ o, before ++ [e] <+: edits →
      (h.editEach hooks before).apply hooks e = .ok (h₁, o) → o.report.cycle = none)
    (before : List Edit) (initial : before <+: edits) (x : CellId) :
    (h.editEach hooks before).value x = (g.editEach hooks before).value x := by
  refine (s.editEach clean clean' never plain upToDate ?_ before initial).1.value x
  intro before e initial s₁ clean₁ upToDate₁
  rw [editEach_concat, editEach_concat]
  exact s₁.perform_upToDate clean₁ never (plain e (initial.subset (by simp))) upToDate₁
    fun h₁ o => free before e h₁ o initial

end

/-- **Surplus edges.**  After each of some edits two grids, the second of which has more edges, have the
same values if and only if the values of the first always stand: the cells that the second pass gives up say
so, and the other cells that it computes have the values of their formulas.  So the values are the same
if they are up to date in the beginning and no edit of the second grid reports a cycle. -/
theorem value_editEach_eq_iff_stands (s : Surplus g h) (clean : g.dirty = ∅) (clean' : h.dirty = ∅)
    (never : ∀ done, hooks.cancel done = false) (edits : List Edit)
    (plain : ∀ e ∈ edits, e.Types Input.IsPlain) :
    ((∀ before, before <+: edits → ∀ x,
        (h.editEach hooks before).value x = (g.editEach hooks before).value x) ↔
      ∀ before e w ids invalidate, before ++ [e] <+: edits →
        (h.editEach hooks before).write e = .ok ((w, ids), invalidate) →
          (g.editEach hooks (before ++ [e])).Stands w.dirty
            ((w.recompute hooks).2.cycle.getD [])) ∧
    (g.UpToDate →
      (∀ before e h₁ o, before ++ [e] <+: edits →
        (h.editEach hooks before).apply hooks e = .ok (h₁, o) → o.report.cycle = none) →
      ∀ before, before <+: edits → ∀ x,
        (h.editEach hooks before).value x = (g.editEach hooks before).value x) :=
  ⟨s.value_editEach_iff clean clean' never plain, s.value_editEach clean clean' never plain⟩

theorem upToDate_of_stored (stored : (g.cells.toList.all fun p =>
    p.2.value = (Formula.evaluate g.view p.1 p.2.formula).toValue) = true) : g.UpToDate := by
  have blank : ∀ x, CellValue.text "" = (Formula.evaluate g.view x "").toValue := by
    intro x
    rw [evaluate_empty]
    rfl
  intro y _ _
  have all := forall_cells (g := g)
    (P := fun x c => c.value = (Formula.evaluate g.view x c.formula).toValue)
    (fun x => decide_eq_true (blank x)) stored y
  exact Or.inl (of_decide_eq_true all)

/-- A number, a formula that reads it, and another number. -/
def trio : Grid :=
  ofHistory {} [.edit {} (.set ⟨0, 1, 2⟩ "=A1+1"), .edit {} (.set ⟨0, 1, 3⟩ "5"),
    .edit {} (.set ⟨0, 1, 1⟩ "2")]

theorem surplus_trio : Surplus trio trio :=
  have tracked : trio.Tracked _ := tracked_ofHistory {} _ ⟨⟨⟨trivial, nofun⟩, nofun⟩, nofun⟩
  .refl tracked.regular.wired tracked.traced (waiting_ofHistory {} _) fun x =>
    of_decide_eq_true (forall_cells (g := trio) (P := fun _ c => ¬ Formula.CallsRandom c.formula)
      (fun _ => by decide +kernel) (by decide +kernel) x)

theorem clean_trio : trio.dirty = ∅ := Std.ExtTreeSet.isEmpty_iff.mp (by decide +kernel)

theorem upToDate_trio : trio.UpToDate := upToDate_of_stored (by decide +kernel)

/-- The second number waits for the first, and is computed for nothing. -/
theorem value_editEach_eq_iff_stands_trio :
    let h := trio.link ⟨0, 1, 1⟩ ⟨0, 1, 3⟩
    let edits : List Edit := [.set ⟨0, 1, 1⟩ "4"]
    Surplus trio h ∧ trio.dirty = ∅ ∧ h.dirty = ∅ ∧ (∀ e ∈ edits, e.Types Input.IsPlain) ∧
      trio.UpToDate ∧ (∀ before e h₁ o, before ++ [e] <+: edits →
        (h.editEach {} before).apply {} e = .ok (h₁, o) → o.report.cycle = none) ∧
      (∀ before, before <+: edits → ∀ x,
        (h.editEach {} before).value x = (trio.editEach {} before).value x) ∧
      (h.editEach {} edits).value ⟨0, 1, 2⟩ = .number 5 := by
  intro h edits
  have plain : ∀ e ∈ edits, e.Types Input.IsPlain := by
    have set : Input.IsPlain "4" := by decide +kernel
    exact List.forall_mem_singleton.mpr set
  have free : ∀ before e h₁ o, before ++ [e] <+: edits →
      (h.editEach {} before).apply {} e = .ok (h₁, o) → o.report.cycle = none := by
    intro before e h₁ o initial applied
    have reported : (h.apply {} (.set ⟨0, 1, 1⟩ "4")).toOption.all
        (fun done => done.2.report.cycle.isNone) = true := by decide +kernel
    cases before with
    | cons b before => exact absurd initial.length_le (by simp [edits])
    | nil =>
      obtain rfl : e = .set ⟨0, 1, 1⟩ "4" := by simpa [edits] using initial
      rw [show h.apply {} (.set ⟨0, 1, 1⟩ "4") = .ok (h₁, o) from applied] at reported
      exact Option.isNone_iff_eq_none.mp reported
  have surplus : Surplus trio h := surplus_trio.link _ _
  have clean : h.dirty = ∅ := (dirty_link trio _ _).trans clean_trio
  refine ⟨surplus, clean_trio, clean, plain, upToDate_trio, free, ?_, by decide +kernel⟩
  exact (value_editEach_eq_iff_stands surplus clean_trio clean (fun _ => rfl) edits plain).2
    upToDate_trio free

/-- The formula and the second number wait for each other, and are given up when the first number
changes. -/
theorem not_surplus_of_cycle :
    ¬ ∀ g h : Grid, Surplus g h →
      (∀ x y, x ∈ (h.cell y).precedents ↔ y ∈ (h.cell x).readers) →
      g.dirty = ∅ → h.dirty = ∅ → g.UpToDate → ∀ edits : List Edit,
      (∀ e ∈ edits, e.Types Input.IsPlain) → ∀ before, before <+: edits → ∀ x,
        (h.editEach {} before).value x = (g.editEach {} before).value x := by
  intro all
  let h := (trio.link ⟨0, 1, 2⟩ ⟨0, 1, 3⟩).link ⟨0, 1, 3⟩ ⟨0, 1, 2⟩
  have both : ∀ x y, x ∈ (trio.cell y).precedents ↔ y ∈ (trio.cell x).readers := by
    have self := forall_cells (g := trio)
      (P := fun x c => !c.readers.contains x || c.precedents.contains x) (fun _ => rfl)
      (by decide +kernel)
    intro x y
    refine ⟨surplus_trio.wired.forth x y, fun reader => ?_⟩
    by_cases same : x = y
    · subst same
      have here := self x
      rw [Std.ExtTreeSet.contains_iff_mem.mpr reader] at here
      exact Std.ExtTreeSet.contains_iff_mem.mp here
    · exact surplus_trio.wired.back x y same reader
  have plain : Input.IsPlain "4" := by decide +kernel
  have clean : h.dirty = ∅ :=
    (dirty_link _ _ _).trans ((dirty_link trio _ _).trans clean_trio)
  have same := all trio h ((surplus_trio.link _ _).link _ _)
    (fun x y => by
      rw [mem_precedents_link, mem_precedents_link, mem_readers_link, mem_readers_link, both])
    clean_trio clean upToDate_trio [.set ⟨0, 1, 1⟩ "4"] (List.forall_mem_singleton.mpr plain) _
    (List.prefix_refl _) ⟨0, 1, 2⟩
  revert same
  decide +kernel

end Grid

end Spreadsheet
