import Spreadsheet.Proofs.Grid.Tracing
import Spreadsheet.Proofs.Grid.Writing

/-!
# Values that are up to date

The invariant that relates cached values to formulas holds at every moment, also in the middle of an
edit: whatever is not marked dirty is up to date.

* `Grid.Current g`: a cell that is not dirty has the value of its formula, or it is behind a cycle;
  on a cycle it says so.
* `Grid.CurrentAt g y`: the first of these for one cell, whatever its formula calls.
* `Grid.Tracked removed g`: with what the invariant needs, where `removed` are the names of sheets that
  have been removed.
* `Grid.Tracked.store`, `Grid.Tracked.of_sheets` and `Grid.Tracked.recompute`: writing a cell, changing
  the sheets and running a pass keep it.
-/

namespace Spreadsheet.Grid

open Relation

variable {g g' : Grid} {removed : List String} {draws : Formula.Draws}

/-- What depends on a dirty cell is dirty. -/
def Closed (g : Grid) : Prop := ∀ x ∈ g.dirty, ∀ y, g.Edge x y → y ∈ g.dirty

/-- A reference that belongs to no sheet has the name of a sheet that has been removed. -/
def Named (removed : List String) (g : Grid) : Prop :=
  ∀ y, (g.cell y).isFilling = false → ∀ m ∈ Formula.mentions (g.formula y),
    m.1.sheet? y.sheet g.directory = none → ∃ name ∈ removed, m.1.writtenSheet = some name

/-- A cell that is not dirty has the value of its formula unless it is behind a cycle, and says that it
is on a cycle if it is.  Formulas that call `RAND` have no fixed value, and those that fill other cells
are run only once. -/
structure Current (g : Grid) : Prop where
  value : ∀ y, y ∉ g.dirty → (g.cell y).isFilling = false →
    ¬ Formula.CallsRandom (g.formula y) → ¬ BehindCycle g.Edge y →
      (g.value y).agrees (g.formulaValue y)
  circular : ∀ y, y ∉ g.dirty → OnCycle g.Edge y → g.value y = circularValue (g.formula y)

/-- The invariant of a grid whose sheets with the names `removed` have been removed. -/
structure Tracked (removed : List String) (g : Grid) : Prop where
  regular : g.Regular
  traced : g.Traced
  named : g.Named removed
  closed : g.Closed
  current : g.Current

/-- The cell has the value of its formula, unless it fills others, draws numbers or is behind a
cycle. -/
def CurrentAt (g : Grid) (y : CellId) : Prop :=
  (g.cell y).isFilling = false → ¬ Formula.CallsRandom (g.formula y) → ¬ BehindCycle g.Edge y → (g.value y).agrees (g.formulaValue y)

theorem closed_of_clean (clean : g.dirty = ∅) : g.Closed := by
  intro x dirty
  rw [clean] at dirty
  exact absurd dirty Std.ExtTreeSet.not_mem_empty

theorem Closed.not_mem (h : g.Closed) {v y : CellId} (clean : y ∉ g.dirty)
    (path : ReflTransGen g.Edge v y) : v ∉ g.dirty := by
  induction path with
  | refl => exact clean
  | tail _ edge ih => exact ih fun dirty => clean (h _ dirty _ edge)

theorem Traced.formulaValue_eq (traced : g.Traced) {y : CellId}
    (notFilling : (g.cell y).isFilling = false) (formula : g'.formula y = g.formula y)
    (sheets : ∀ m ∈ Formula.mentions (g.formula y),
      m.1.sheet? y.sheet g'.directory = m.1.sheet? y.sheet g.directory)
    (values : ∀ x, g.Edge x y → g'.value x = g.value x) (draws : Formula.Draws := .zero) :
    g'.formulaValue y draws = g.formulaValue y draws := by
  rw [formulaValue, formulaValue, formula]
  refine congrArg Term.toValue (Formula.evaluate_congr (fun _ => rfl) sheets fun x reads => ?_)
  rw [view_term, view_term, values x ((traced y notFilling x).mpr reads)]

/-! ### Writing a cell -/

section

variable (id : CellId) (c : Cell)

theorem mem_dirty_store (x : CellId) :
    x ∈ (g.store id c).dirty ↔
      x ∈ g.dirty ∨ ReflTransGen (ReadBy (g.store id c).cells) id x := by
  rw [store]
  exact mem_markDirty_iff _ id x

theorem edge_store_of_ne {x y : CellId} (h : y ≠ id) :
    (g.store id c).Edge x y ↔ g.Edge x y := by
  rw [Edge, Edge, precedents_store, if_neg h]

theorem Closed.store (closed : g.Closed) (forth : g.Forth) : (g.store id c).Closed := by
  intro x dirty y edge
  have reader : ReadBy (g.store id c).cells x y := forth.store id c x y edge
  rw [mem_dirty_store] at dirty ⊢
  rcases dirty with dirty | path
  · by_cases same : y = id
    · subst same
      exact Or.inr .refl
    · rw [edge_store_of_ne id c same] at edge
      exact Or.inl (closed x dirty y edge)
  · exact Or.inr (path.tail reader)

theorem edges_agree_store (closed : (g.store id c).Closed) {y : CellId}
    (clean : y ∉ (g.store id c).dirty) :
    (∀ v, ReflTransGen (g.store id c).Edge v y → ∀ u, g.Edge u v → (g.store id c).Edge u v) ∧
      ∀ v, ReflTransGen g.Edge v y → ∀ u, (g.store id c).Edge u v → g.Edge u v := by
  have other : ∀ v, ReflTransGen (g.store id c).Edge v y → v ≠ id := by
    rintro v path rfl
    exact closed.not_mem clean path ((mem_dirty_store v c v).mpr (Or.inr .refl))
  have back : ∀ v, ReflTransGen (g.store id c).Edge v y →
      ∀ u, g.Edge u v → (g.store id c).Edge u v :=
    fun v path u edge => (edge_store_of_ne id c (other v path)).mpr edge
  refine ⟨back, fun v path u edge => ?_⟩
  exact (edge_store_of_ne id c (other v (reflTransGen_of_agree back path))).mp edge

/-- What is not dirty after a write is not written, and has not been dirty before. -/
theorem ne_and_not_mem_of_not_mem_store {y : CellId} (clean : y ∉ (g.store id c).dirty) :
    y ≠ id ∧ y ∉ g.dirty := by
  rw [mem_dirty_store, not_or] at clean
  refine ⟨?_, clean.1⟩
  rintro rfl
  exact clean.2 .refl

theorem formulaValue_store (traced : g.Traced) (closed : (g.store id c).Closed) {y : CellId}
    (clean : y ∉ (g.store id c).dirty) (notFilling : (g.cell y).isFilling = false) :
    (g.store id c).formulaValue y = g.formulaValue y := by
  obtain ⟨other, -⟩ := ne_and_not_mem_of_not_mem_store id c clean
  obtain ⟨back, -⟩ := edges_agree_store id c closed clean
  have formula : (g.store id c).formula y = g.formula y := by rw [formula_store, if_neg other]
  refine traced.formulaValue_eq notFilling formula (fun _ _ => rfl) ?_
  intro x edge
  rw [value_store, if_neg]
  rintro rfl
  have edge' := back y .refl x edge
  exact closed.not_mem clean (.single edge') ((mem_dirty_store x c x).mpr (Or.inr .refl))

/-- A cell that a write does not make dirty has the value of its formula if it had it before. -/
theorem CurrentAt.store (traced : g.Traced) (closed : (g.store id c).Closed) {y : CellId}
    (clean : y ∉ (g.store id c).dirty) (h : g.CurrentAt y) : (g.store id c).CurrentAt y := by
  intro notFilling noRandom free
  obtain ⟨other, -⟩ := ne_and_not_mem_of_not_mem_store id c clean
  obtain ⟨back, -⟩ := edges_agree_store id c closed clean
  rw [isFilling_store, if_neg other] at notFilling
  rw [formula_store, if_neg other] at noRandom
  rw [value_store, if_neg other, formulaValue_store id c traced closed clean notFilling]
  exact h notFilling noRandom fun behind => free (behind.of_agree back)

theorem Current.store (h : g.Tracked removed) : (g.store id c).Current := by
  have closed := h.closed.store id c h.regular.wired.forth
  constructor
  · intro y clean
    obtain ⟨-, clean'⟩ := ne_and_not_mem_of_not_mem_store id c clean
    exact CurrentAt.store id c h.traced closed clean (h.current.value y clean')
  · intro y clean cycle
    obtain ⟨other, clean'⟩ := ne_and_not_mem_of_not_mem_store id c clean
    obtain ⟨-, forth⟩ := edges_agree_store id c closed clean
    rw [value_store, if_neg other, formula_store, if_neg other]
    exact h.current.circular y clean' (cycle.of_agree forth)

/-- The references of a formula as it is stored name cells of the sheets. -/
theorem cells?_isSome_of_resolved (g : Grid) (sheet : Nat) (c : Cell)
    (notFilling : (g.resolved sheet c).isFilling = false) :
    ∀ m ∈ Formula.mentions (g.resolved sheet c).formula, (m.1.cells? sheet g.directory).isSome := by
  intro m hm
  rw [resolved] at notFilling hm
  split at notFilling
  · rename_i filling
    cases filling.symm.trans notFilling
  · rename_i free
    rw [if_neg free] at hm
    cases ok : Formula.reads sheet g.directory c.formula with
    | ok cells =>
      rw [ok] at hm
      exact Formula.cells?_isSome_of_reads ok m hm
    | error token =>
      rw [ok, show (Cell.ofFormula (Text.quote ("#REF: " ++ token))).formula =
        Text.quote ("#REF: " ++ token) from rfl, Formula.mentions_quote] at hm
      exact absurd hm List.not_mem_nil

theorem Named.store (h : g.Named removed) : (g.store id c).Named removed := by
  intro y notFilling m hm unresolved
  rw [isFilling_store] at notFilling
  rw [formula_store] at hm
  by_cases same : y = id
  · rw [if_pos same] at notFilling hm
    have named := cells?_isSome_of_resolved g id.sheet c notFilling m hm
    obtain ⟨_, found⟩ := Option.isSome_iff_exists.mp named
    obtain ⟨sheet, hsheet, -⟩ := Formula.Mention.sheet?_of_cells? found
    rw [same] at unresolved
    cases hsheet.symm.trans unresolved
  · rw [if_neg same] at notFilling hm
    exact h y notFilling m hm unresolved

/-- **Writing a cell keeps the invariant.** -/
theorem Tracked.store (h : g.Tracked removed) : (g.store id c).Tracked removed where
  regular := ⟨h.regular.wired.store id c, h.regular.names.of_map_name rfl⟩
  traced := h.traced.store id c
  named := h.named.store id c
  closed := h.closed.store id c h.regular.wired.forth
  current := Current.store id c h

end

/-! ### Changing the sheets -/

/-- **Other sheets** keep the invariant if the references of the formulas keep theirs. -/
theorem Tracked.of_sheets (h : g.Tracked removed) (cells : g'.cells = g.cells)
    (dirty : g'.dirty = g.dirty) (names : g'.ProperNames)
    (sheets : ∀ y, (g.cell y).isFilling = false → ∀ m ∈ Formula.mentions (g.formula y),
      m.1.sheet? y.sheet g'.directory = m.1.sheet? y.sheet g.directory) : g'.Tracked removed := by
  have cell : ∀ x, g'.cell x = g.cell x := fun x => by rw [Grid.cell, Grid.cell, cells]
  have formula : ∀ x, g'.formula x = g.formula x := fun x => by rw [Grid.formula, cell]; rfl
  have value : ∀ x, g'.value x = g.value x := fun x => by rw [Grid.value, cell]; rfl
  have edge : g'.Edge = g.Edge := by
    funext x y
    rw [Edge, Edge, cell]
  refine ⟨⟨?_, names⟩, ?_, ?_, ?_, ?_, ?_⟩
  · refine h.regular.wired.of_same ?_ ?_ ?_ <;> intro x <;> rw [cell]
    exact id
  · intro y notFilling x
    rw [cell] at notFilling
    rw [cell, formula, h.traced y notFilling x]
    constructor
    · rintro ⟨m, hm, sheet, found, hx⟩
      exact ⟨m, hm, sheet, (sheets y notFilling m hm).trans found, hx⟩
    · rintro ⟨m, hm, sheet, found, hx⟩
      exact ⟨m, hm, sheet, (sheets y notFilling m hm).symm.trans found, hx⟩
  · intro y notFilling m hm unresolved
    rw [cell] at notFilling
    rw [formula] at hm
    rw [sheets y notFilling m hm] at unresolved
    exact h.named y notFilling m hm unresolved
  · rw [Closed, dirty, edge]
    exact h.closed
  · intro y clean notFilling noRandom free
    rw [dirty] at clean
    rw [cell] at notFilling
    rw [formula] at noRandom
    rw [edge] at free
    rw [value, h.traced.formulaValue_eq notFilling (formula y) (sheets y notFilling) fun x _ =>
      value x]
    exact h.current.value y clean notFilling noRandom free
  · intro y clean cycle
    rw [dirty] at clean
    rw [edge] at cycle
    rw [value, formula]
    exact h.current.circular y clean cycle

theorem index?_eq_findIdx? (g : Grid) (name : String) :
    g.directory.index? name = (g.sheets.map Sheet.name).findIdx? (· == name) :=
  Directory.index?_ofSheets g.sheets name

theorem bounds?_of_sheet {i : Nat} {s : Sheet} (found : g.sheets[i]? = some s) :
    g.directory.bounds? i = some s.bounds :=
  congrArg (Option.map Sheet.bounds) found

theorem getElem?_growSheet {i : Nat} {s : Sheet} (found : g.sheets[i]? = some s)
    (index rows cols : Nat) : (g.growSheet index rows cols).sheets[i]? =
      some (if index = i then s.grow rows cols else s) := by
  rw [growSheet, List.getElem?_modify, found]
  split <;> rfl

theorem sheet?_growSheet (g : Grid) (index rows cols : Nat) (m : Formula.Mention) (home : Nat) :
    m.sheet? home (g.growSheet index rows cols).directory = m.sheet? home g.directory := by
  rw [Formula.Mention.sheet?, Formula.Mention.sheet?]
  split
  · rfl
  · rw [index?_eq_findIdx?, index?_eq_findIdx?, map_name_growSheet]

theorem Tracked.growSheet (h : g.Tracked removed) (index rows cols : Nat) :
    (g.growSheet index rows cols).Tracked removed := by
  refine h.of_sheets rfl rfl (h.regular.growSheet index rows cols).names ?_
  exact fun y _ m _ => sheet?_growSheet g index rows cols m.1 y.sheet

theorem Tracked.await (h : g.Tracked removed) (waiting : List (CellId × String)) :
    Tracked removed { g with waiting } :=
  h.of_sheets rfl rfl (h.regular.names.of_map_name rfl) fun _ _ _ _ => rfl

theorem Named.sheet?_addSheet {name : String} (h : g.Named removed) (ok : g.addSheet name = .ok g')
    (unused : name ∉ removed) {y : CellId} (notFilling : (g.cell y).isFilling = false)
    {m : Formula.Mention × List Char} (hm : m ∈ Formula.mentions (g.formula y)) :
    m.1.sheet? y.sheet g'.directory = m.1.sheet? y.sheet g.directory := by
  have resolved := h y notFilling m hm
  rw [addSheet_eq ok]
  rw [Formula.Mention.sheet?, Formula.Mention.sheet?] at *
  cases written : m.1.writtenSheet with
  | none => rfl
  | some other =>
    rw [written] at resolved
    dsimp only at resolved ⊢
    rw [index?_eq_findIdx?] at resolved ⊢
    rw [index?_eq_findIdx?, List.map_append, List.findIdx?_append]
    cases found : (g.sheets.map Sheet.name).findIdx? (· == other) with
    | some index => rfl
    | none =>
      obtain ⟨name', used, same⟩ := resolved found
      cases same
      have differs : (name == other) = false := by
        rw [beq_eq_false_iff_ne]
        rintro rfl
        exact unused used
      simp [freshSheet, differs]

/-- **A sheet with a new name** keeps the invariant. -/
theorem Tracked.addSheet {name : String} (h : g.Tracked removed) (ok : g.addSheet name = .ok g')
    (unused : name ∉ removed) : g'.Tracked removed := by
  have names := (h.regular.addSheet ok).names
  have sheets := fun y notFilling m hm =>
    h.named.sheet?_addSheet (y := y) ok unused notFilling (m := m) hm
  rw [addSheet_eq ok] at names sheets ⊢
  exact h.of_sheets rfl rfl names sheets

/-! ### Running a pass -/

theorem Alike.traced (h : g.Alike g') (traced : g.Traced) : g'.Traced := by
  intro y notFilling x
  rw [h.filling] at notFilling
  rw [h.precedents, h.directory, h.formula]
  exact traced y notFilling x

theorem Alike.named (h : g.Alike g') (named : g.Named removed) : g'.Named removed := by
  intro y notFilling m hm unresolved
  rw [h.filling] at notFilling
  rw [h.formula] at hm
  rw [h.directory] at unresolved
  exact named y notFilling m hm unresolved

theorem Alike.edge (h : g.Alike g') : g'.Edge = g.Edge := by
  funext x y
  rw [Edge, Edge, h.precedents]

/-- A dirty cell on a cycle waits for dirty cells only. -/
theorem Closed.stuck (closed : g.Closed) {y : CellId} (cycle : OnCycle g.Edge y)
    (dirty : y ∈ g.dirty) : Stuck g.Edge {x | x ∈ g.dirty} y := by
  have fin : Set.Finite {x | x ∈ g.dirty} :=
    (List.finite_toSet g.dirty.toList).subset fun x hx => Std.ExtTreeSet.mem_toList.mpr hx
  rw [stuck_iff_behindCycle fin]
  exact (OnCycle.within closed cycle dirty).behindCycle

theorem behindCycle_of_stuck {y : CellId} (stuck : Stuck g.Edge {x | x ∈ g.dirty} y) :
    BehindCycle g.Edge y := by
  have fin : Set.Finite {x | x ∈ g.dirty} :=
    (List.finite_toSet g.dirty.toList).subset fun x hx => Std.ExtTreeSet.mem_toList.mpr hx
  rw [stuck_iff_behindCycle fin] at stuck
  exact stuck.mono fun _ _ h => h.2.2

theorem Covered.formulaValue_of_outside (covered : g.Covered) (closed : g.Closed)
    (alike : g.Alike g') (outside : ∀ x, x ∉ g.dirty → g'.value x = g.value x) {y : CellId}
    (clean : y ∉ g.dirty) (notFilling : (g.cell y).isFilling = false) :
    g'.formulaValue y = g.formulaValue y :=
  covered.formulaValue_eq alike notFilling
    (fun x edge => outside x (closed.not_mem clean (.single edge))) .zero

/-- A cell that is clean before a pass has the value of its formula afterwards if it had it before. -/
theorem CurrentAt.of_outside (covered : g.Covered) (closed : g.Closed) (alike : g.Alike g')
    (outside : ∀ x, x ∉ g.dirty → g'.value x = g.value x) {y : CellId} (clean : y ∉ g.dirty)
    (h : g.CurrentAt y) : g'.CurrentAt y := by
  intro notFilling noRandom free
  rw [alike.filling] at notFilling
  rw [alike.formula] at noRandom
  rw [alike.edge] at free
  rw [covered.formulaValue_of_outside closed alike outside clean notFilling, outside y clean]
  exact h notFilling noRandom free

/-- A cell that is dirty before a pass has the value of its formula afterwards. -/
theorem CurrentAt.settled (covered : g.Covered) {order : List CellId} {p : Pass}
    (settled : Pass.Settled draws g order p) {y : CellId} (dirty : y ∈ g.dirty) :
    p.grid.CurrentAt y := by
  intro notFilling noRandom free
  rw [settled.alike.filling] at notFilling
  rw [settled.alike.edge] at free
  have mem := (settled.mem y).mpr ⟨dirty, fun stuck => free (behindCycle_of_stuck stuck)⟩
  rw [settled.value covered y mem notFilling, formulaValue_of_not_callsRandom noRandom draws .zero]
  exact CellValue.keep_agrees _ _

theorem Current.settled {order : List CellId} {p : Pass} (h : g.Tracked removed)
    (settled : Pass.Settled draws g order p) : p.grid.Current := by
  constructor
  · intro y _
    by_cases dirty : y ∈ g.dirty
    · exact CurrentAt.settled h.traced.covered settled dirty
    · exact CurrentAt.of_outside h.traced.covered h.closed settled.alike
        (fun x clean => value_eq_of_cells (settled.outside x clean)) dirty
        (h.current.value y dirty)
  · intro y _ cycle
    rw [settled.alike.edge] at cycle
    rw [settled.alike.formula]
    by_cases dirty : y ∈ g.dirty
    · exact settled.circular y (h.closed.stuck cycle dirty)
    · rw [value_eq_of_cells (settled.outside y dirty)]
      exact h.current.circular y dirty cycle

theorem Current.reached {hooks : Hooks} {total : Nat} {order : List CellId} {p : Pass}
    (h : g.Tracked removed) (reached : Pass.Reached hooks total g order p) : p.grid.Current := by
  have clean_iff : ∀ y, y ∉ p.grid.dirty → y ∈ order ∨ y ∉ g.dirty := by
    intro y clean
    rw [reached.dirty] at clean
    tauto
  constructor
  · intro y clean
    rcases clean_iff y clean with mem | clean
    · intro notFilling noRandom _
      rw [reached.alike.filling] at notFilling
      rw [reached.value h.traced.covered y mem notFilling,
        formulaValue_of_not_callsRandom noRandom _ .zero]
      exact CellValue.keep_agrees _ _
    · refine CurrentAt.of_outside h.traced.covered h.closed reached.alike ?_ clean
        (h.current.value y clean)
      exact fun x hx => value_eq_of_cells (reached.outside x fun mem => hx (reached.mem x mem))
  · intro y clean cycle
    rw [reached.alike.edge] at cycle
    rw [reached.alike.formula]
    rcases clean_iff y clean with mem | clean
    · exact absurd (h.closed.stuck cycle (reached.mem y mem)) (reached.free y mem)
    · rw [value_eq_of_cells (reached.outside y fun mem => clean (reached.mem y mem))]
      exact h.current.circular y clean cycle

theorem Closed.reached {hooks : Hooks} {total : Nat} {order : List CellId} {p : Pass}
    (h : g.Closed) (reached : Pass.Reached hooks total g order p) : p.grid.Closed := by
  intro x dirty y edge
  rw [reached.alike.edge] at edge
  rw [reached.dirty] at dirty ⊢
  exact ⟨h x dirty.1 y edge, fun mem => dirty.2 (reached.closed y mem x edge dirty.1)⟩

/-- **A pass keeps the invariant**, whether it is cancelled or not. -/
theorem Tracked.recompute (h : g.Tracked removed) (hooks : Hooks) :
    (g.recompute hooks).1.Tracked removed := by
  have alike := recompute_alike h.regular.wired hooks
  refine ⟨alike.regular h.regular, alike.traced h.traced, alike.named h.named, ?_, ?_⟩
  · rcases recompute_cases h.regular.wired.forth hooks with
      ⟨order, p, reached, idle, -, ends⟩ | ⟨-, order, p, reached, ends, -⟩
    · rw [ends]
      exact closed_of_clean (reached.settle h.regular.wired.linked idle).clean
    · rw [ends]
      exact h.closed.reached reached
  · rcases recompute_cases h.regular.wired.forth hooks with
      ⟨order, p, reached, idle, -, ends⟩ | ⟨-, order, p, reached, ends, -⟩
    · rw [ends]
      exact Current.settled h (reached.settle h.regular.wired.linked idle)
    · rw [ends]
      exact Current.reached h reached

/-- **Rewriting keeps the invariant.** -/
theorem Rewrites.tracked {P : String → Prop} (h : Rewrites P g g') (tracked : g.Tracked removed) :
    g'.Tracked removed := by
  induction h with
  | refl => exact tracked
  | store id c _ _ ih => exact ih.store id c
  | grow index rows cols _ ih => exact ih.growSheet index rows cols
  | await waiting _ ih => exact ih.await waiting
  | recompute hooks _ ih => exact ih.recompute hooks

end Spreadsheet.Grid
