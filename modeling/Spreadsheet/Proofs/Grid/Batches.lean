import Spreadsheet.Proofs.Grid.Anchoring
import Spreadsheet.Proofs.Grid.Detachment
import Spreadsheet.Proofs.Grid.Reporting

/-!
# Batches

A batch writes its cells and then recomputes once.  The order of its cells does not matter, since writes
of different cells commute.

* `Grid.mem_dirty_storeAll_iff`: what is dirty after some writes is given by the edges at the end.
* `Grid.store_comm` and `Grid.storeAll_perm`: writes of different cells can be done in any order.
-/

namespace Spreadsheet

open Relation

theorem Cell.eq_of_bare {c d : Cell} (bare : c.bare = d.bare)
    (readers : ∀ y, y ∈ c.readers ↔ y ∈ d.readers) : c = d := by
  obtain ⟨formula, value, precedents, rs⟩ := c
  obtain ⟨formula', value', precedents', rs'⟩ := d
  obtain ⟨rfl, rfl, rfl⟩ : formula = formula' ∧ value = value' ∧ precedents = precedents' := by
    simpa only [Cell.bare, Cell.mk.injEq, and_true] using bare
  rw [show rs = rs' from Std.ExtTreeSet.ext_mem fun {y} => readers y]

namespace Grid

variable {g g' : Grid}

/-- Two grids store the same cells if they have the same cells and store them at the same places. -/
theorem cells_eq_of_cell_eq (stored : ∀ x, x ∈ g.cells ↔ x ∈ g'.cells)
    (same : ∀ x, g.cell x = g'.cell x) : g.cells = g'.cells := by
  refine Std.ExtTreeMap.ext_getElem? fun {x} => ?_
  by_cases mem : x ∈ g.cells
  · have mem' := (stored x).mp mem
    rw [Std.ExtTreeMap.mem_iff_isSome_getElem?] at mem mem'
    obtain ⟨c, found⟩ := Option.isSome_iff_exists.mp mem
    obtain ⟨c', found'⟩ := Option.isSome_iff_exists.mp mem'
    rw [found, found', ← cell_of_getElem? found, ← cell_of_getElem? found', same]
  · have none : g.cells[x]? = none := Std.ExtTreeMap.getElem?_eq_none mem
    rw [none, Std.ExtTreeMap.getElem?_eq_none fun mem' => mem ((stored x).mpr mem')]

theorem eq_of_fields (sheets : g.sheets = g'.sheets) (cells : g.cells = g'.cells)
    (dirty : g.dirty = g'.dirty) (waiting : g.waiting = g'.waiting)
    (options : g.options = g'.options) : g = g' := by
  cases g
  cases g'
  rw [mk.injEq]
  exact ⟨sheets, cells, dirty, waiting, options⟩

/-! ### What is dirty after some writes -/

/-- What is reached from some cell or from the written one is the same before the write and after it. -/
theorem reach_store_iff (id : CellId) (c : Cell) (a x : CellId) :
    ReflTransGen (ReadBy g.cells) a x ∨ ReflTransGen (ReadBy (g.store id c).cells) id x ↔
      ReflTransGen (ReadBy (g.store id c).cells) a x ∨
        ReflTransGen (ReadBy (g.store id c).cells) id x := by
  constructor
  · rintro (path | path)
    · -- The path goes on after its last visit of the written cell.
      induction path with
      | refl => exact Or.inl .refl
      | @tail u v _ reads ih =>
        by_cases same : v = id
        · exact Or.inr (same ▸ .refl)
        · have reads' : ReadBy (g.store id c).cells u v :=
            (mem_readers_store g id c u v).mpr (Or.inr ⟨reads, Or.inr (Or.inl same)⟩)
          exact ih.imp (·.tail reads') (·.tail reads')
    · exact Or.inr path
  · rintro (path | path)
    · induction path with
      | refl => exact Or.inl .refl
      | @tail u v _ reads ih =>
        by_cases same : v = id
        · exact Or.inr (same ▸ .refl)
        · rcases (mem_readers_store g id c u v).mp reads with ⟨here, -⟩ | ⟨reads', -⟩
          · exact absurd here same
          · exact ih.imp (·.tail reads') (·.tail reads)
    · exact Or.inr path

theorem reach_storeAll_iff (g : Grid) (writes : List (CellId × Cell)) (a x : CellId) :
    ReflTransGen (ReadBy g.cells) a x ∨
        (∃ w ∈ writes, ReflTransGen (ReadBy (g.storeAll writes).cells) w.1 x) ↔
      ReflTransGen (ReadBy (g.storeAll writes).cells) a x ∨
        ∃ w ∈ writes, ReflTransGen (ReadBy (g.storeAll writes).cells) w.1 x := by
  induction writes generalizing g a with
  | nil => rfl
  | cons head writes ih =>
    obtain ⟨id, c⟩ := head
    have first := reach_store_iff (g := g) id c a x
    have rest := ih (g.store id c) a
    have here := ih (g.store id c) id
    rw [storeAll_cons, List.exists_mem_cons_iff, ← here, ← or_assoc, first, or_assoc, or_left_comm, rest,
      or_left_comm]

/-- **What is dirty after some writes**: what was dirty, and what can be reached from a written cell when
all are written. -/
theorem mem_dirty_storeAll_iff (g : Grid) (writes : List (CellId × Cell)) (x : CellId) :
    x ∈ (g.storeAll writes).dirty ↔
      x ∈ g.dirty ∨ ∃ w ∈ writes, ReflTransGen (ReadBy (g.storeAll writes).cells) w.1 x := by
  induction writes generalizing g with
  | nil => simp [storeAll]
  | cons head writes ih =>
    obtain ⟨id, c⟩ := head
    have here := reach_storeAll_iff (g.store id c) writes id x
    rw [storeAll_cons, ih, mem_dirty_store, List.exists_mem_cons_iff, ← here, or_assoc]

/-! ### Writes in another order -/

/-- Who reads a cell after two writes, for one order of the writes and the other. -/
theorem reader_swap {ya yb ra rb r xa xb pa pb : Prop} (apart : ¬ (ya ∧ yb)) :
    (yb ∧ rb) ∨ (((ya ∧ ra) ∨ (r ∧ (xa ∨ ¬ ya ∨ pa))) ∧ (xb ∨ ¬ yb ∨ pb)) ↔
      (ya ∧ ra) ∨ (((yb ∧ rb) ∨ (r ∧ (xb ∨ ¬ yb ∨ pb))) ∧ (xa ∨ ¬ ya ∨ pa)) := by
  by_cases ha : ya
  · have hb : ¬ yb := fun hb => apart ⟨ha, hb⟩
    simp only [ha, hb, true_and, false_and, false_or, or_false, not_true_eq_false, not_false_eq_true,
      or_true, and_true, or_comm]
  · simp only [ha, false_and, false_or, not_false_eq_true, true_or, or_true, and_true]

theorem cells_store_comm (g : Grid) {a b : CellId} (differ : a ≠ b) (c d : Cell) :
    ((g.store a c).store b d).cells = ((g.store b d).store a c).cells := by
  have resolves : ∀ (id : CellId) (e : Cell) (sheet : Nat) (e' : Cell),
      (g.store id e).resolved sheet e' = g.resolved sheet e' := fun _ _ _ _ => rfl
  refine cells_eq_of_cell_eq (fun x => ?_) (fun x => Cell.eq_of_bare ?_ fun y => ?_)
  · simp only [mem_cells_store, resolves]
    simp only [or_assoc, or_comm, or_left_comm]
  · simp only [bare_store, resolves]
    by_cases here : x = a
    · rw [if_pos here, if_neg (here ▸ differ), if_pos here]
    · rw [if_neg here, if_neg here]
  · simp only [mem_readers_store, precedents_store, resolves, if_neg differ, if_neg differ.symm]
    exact reader_swap fun ⟨h, h'⟩ => differ (h.symm.trans h')

/-- **Writes of different cells commute.** -/
theorem store_comm (g : Grid) {a b : CellId} (differ : a ≠ b) (c d : Cell) :
    (g.store a c).store b d = (g.store b d).store a c := by
  have cells := cells_store_comm g differ c d
  have two : ∀ (a b : CellId) (c d : Cell), g.storeAll [(a, c), (b, d)] = (g.store a c).store b d :=
    fun _ _ _ _ => rfl
  refine eq_of_fields rfl cells (Std.ExtTreeSet.ext_mem fun {x} => ?_) rfl rfl
  rw [← two, ← two, mem_dirty_storeAll_iff, mem_dirty_storeAll_iff, two, two, cells]
  simp only [List.exists_mem_cons_iff, List.not_mem_nil, false_and, exists_false, or_false]
  exact or_congr_right or_comm

/-- **Writes of different cells can be done in any order.** -/
theorem storeAll_perm (g : Grid) {writes writes' : List (CellId × Cell)} (perm : writes.Perm writes')
    (distinct : (writes.map Prod.fst).Nodup) : g.storeAll writes = g.storeAll writes' := by
  refine perm.foldl_eq' ?_ g
  rintro ⟨a, c⟩ ha ⟨b, d⟩ hb g
  by_cases same : a = b
  · subst same
    have equal : c = d := by
      have := List.inj_on_of_nodup_map distinct ha hb rfl
      exact (Prod.mk.inj this).2
    rw [equal]
  · exact store_comm g same c d

end Grid

/-! ### What is typed -/

/-- The text fills no cells beside its own when it is typed into a cell. -/
def Input.FillsNone (text : String) : Prop := ∀ formula, ofText text ≠ .filling formula

instance (text : String) : Decidable (Input.FillsNone text) :=
  decidable_of_iff (Input.ofText text ≠ .filling (Input.ofText text).stored) <| by
    refine ⟨fun other formula filling => other ?_, fun plain => plain _⟩
    rw [filling]
    rfl

def Cell.typed (text : String) : Cell := .ofFormula (Input.ofText text).stored

def typedAll (pairs : List (CellId × String)) : List (CellId × Cell) :=
  pairs.map fun (id, text) => (id, .typed text)

theorem map_fst_typedAll (pairs : List (CellId × String)) :
    (typedAll pairs).map Prod.fst = pairs.map Prod.fst := by
  rw [typedAll, List.map_map]
  rfl

namespace Grid

variable {g g' : Grid} {pairs pairs' : List (CellId × String)}

theorem enter_eq_store (g : Grid) (id : CellId) {text : String} (plain : Input.FillsNone text) :
    g.enter id text = g.store id (.typed text) := by
  rw [enter]
  split
  · rename_i formula found
    exact absurd found (plain formula)
  · rfl

theorem foldl_enter_eq (g : Grid) (plain : ∀ p ∈ pairs, Input.FillsNone p.2) :
    pairs.foldl (fun g (id, text) => g.enter id text) g = g.storeAll (typedAll pairs) := by
  induction pairs generalizing g with
  | nil => rfl
  | cons p pairs ih =>
    obtain ⟨id, text⟩ := p
    rw [List.foldl_cons, ih _ fun q hq => plain q (List.mem_cons_of_mem _ hq)]
    dsimp only
    rw [enter_eq_store g id (plain _ List.mem_cons_self)]
    rfl

theorem checkCell_of_has {id : CellId} (inside : g.Has id) : g.checkCell id = .ok () :=
  checkInside_eq_ok_iff.mpr inside

theorem forM_checkCell_of_has {ids : List CellId} (inside : ∀ id ∈ ids, g.Has id) :
    ids.forM g.checkCell = .ok () := by
  induction ids with
  | nil => rfl
  | cons id ids ih =>
    rw [List.forM, checkCell_of_has (inside id List.mem_cons_self)]
    exact ih fun other mem => inside other (List.mem_cons_of_mem _ mem)

theorem write_set {id : CellId} {text : String} (inside : g.Has id) (plain : Input.FillsNone text) :
    g.write (.set id text) = .ok ((g.store id (.typed text), [id]), false) := by
  rw [← enter_eq_store g id plain]
  exact (Writes.set id text (checkCell_of_has inside)).write_eq

theorem write_batch (inside : ∀ p ∈ pairs, g.Has p.1) (plain : ∀ p ∈ pairs, Input.FillsNone p.2) :
    g.write (.batch (pairs.map Prod.fst) (pairs.map Prod.snd)) =
      .ok ((g.storeAll (typedAll pairs), pairs.map Prod.fst), false) := by
  have zipped : (pairs.map Prod.fst).zip (pairs.map Prod.snd) = pairs := by
    rw [List.zip_map']
    exact List.map_id _
  have checked : (pairs.map Prod.fst).forM g.checkCell = .ok () := by
    refine forM_checkCell_of_has fun id mem => ?_
    obtain ⟨p, hp, rfl⟩ := List.mem_map.mp mem
    exact inside p hp
  have wrote := (Writes.batch _ (pairs.map Prod.snd) (by simp) checked).write_eq
  rwa [zipped, foldl_enter_eq g plain] at wrote

/-! ### The order of a batch -/

/-- The order of the written cells shows only in the order in which the changed cells are listed. -/
theorem finish_of_perm (g : Grid) (hooks : Hooks) {ids ids' : List CellId} (perm : ids.Perm ids')
    (invalidate : Bool) :
    (g.finish hooks ids invalidate).1 = (g.finish hooks ids' invalidate).1 ∧
      (g.finish hooks ids invalidate).2.report = (g.finish hooks ids' invalidate).2.report ∧
      (g.finish hooks ids invalidate).2.changed.Perm (g.finish hooks ids' invalidate).2.changed := by
  have listed : ∀ more : List CellId, (distinct (ids ++ more)).Perm (distinct (ids' ++ more)) := by
    intro more
    refine (List.perm_ext_iff_of_nodup (distinct_spec _).1 (distinct_spec _).1).mpr fun x => ?_
    rw [(distinct_spec _).2, (distinct_spec _).2]
    exact (perm.append_right more).mem_iff
  rw [finish, finish]
  dsimp only
  split
  · exact ⟨rfl, rfl, listed _⟩
  · refine ⟨rfl, rfl, ?_⟩
    dsimp only
    rw [List.append_assoc, List.append_assoc]
    exact listed _

/-- **A batch does not depend on its order**: it gives the same grid and the same report, and lists the
same cells. -/
theorem apply_batch_perm (hooks : Hooks) (perm : pairs.Perm pairs')
    (distinct : (pairs.map Prod.fst).Nodup) (inside : ∀ p ∈ pairs, g.Has p.1)
    (plain : ∀ p ∈ pairs, Input.FillsNone p.2) :
    let batch := Action.edit hooks (.batch (pairs.map Prod.fst) (pairs.map Prod.snd))
    ∃ o o', g.apply hooks (.batch (pairs.map Prod.fst) (pairs.map Prod.snd)) =
        .ok (g.perform batch, o) ∧
      g.apply hooks (.batch (pairs'.map Prod.fst) (pairs'.map Prod.snd)) =
        .ok (g.perform batch, o') ∧
      o.report = o'.report ∧ o.changed.Perm o'.changed := by
  intro batch
  have writes : (typedAll pairs).Perm (typedAll pairs') := perm.map _
  have wrote := write_batch inside plain
  have inside' : ∀ p ∈ pairs', g.Has p.1 := fun p hp => inside p (perm.mem_iff.mpr hp)
  have wrote' := write_batch inside' fun p hp => plain p (perm.mem_iff.mpr hp)
  rw [← storeAll_perm g writes (by rwa [map_fst_typedAll])] at wrote'
  obtain ⟨grid, report, changed⟩ := finish_of_perm (g.storeAll (typedAll pairs)) hooks
    (perm.map Prod.fst) false
  have performed : g.perform batch = _ := perform_of_write wrote
  refine ⟨_, _, ?_, ?_, report, changed⟩
  · rw [performed, apply, wrote]
    rfl
  · rw [performed, grid, apply, wrote']
    rfl

end Grid

end Spreadsheet
