import Spreadsheet.Proofs.Formula.Blank
import Spreadsheet.Proofs.Grid.Listing
import Spreadsheet.Proofs.Grid.Moving
import Spreadsheet.Proofs.Grid.Placement

/-!
# Cuts preserve values

A cut moves a block of cells and rewrites the formulas that move and those that read moved cells, so
that everything is computed as before.

* `Range.IsOverwritten source destination x`: a cell on which something is laid out and that does not
  move itself.
* `Grid.Plain g`: no cycles, no formulas that fill other cells or call `RAND`, and no reference to a
  sheet that is missing.
* `Grid.Separates g source destination`: the formulas that are left read nothing that is overwritten,
  and their ranges lie in the source or beside it.
* `Grid.transports_cut`: the cut moves the cells that are not overwritten, with all they read.
* `Grid.cut_preserves_iff`: when a cut preserves all values.
-/

namespace Spreadsheet

open Formula Range

/-- Something is laid out on the cell, and the cell does not move itself. -/
def Range.IsOverwritten (source destination : BoundRange) (x : CellId) : Prop :=
  (image source destination).contains x = true ∧ source.contains x = false

/-- The cells that are not overwritten: those that move, and those that are not touched by what
moves. -/
theorem Range.forall_not_isOverwritten {source destination : BoundRange} {P : CellId → Prop} :
    (∀ x, ¬ IsOverwritten source destination x → P x) ↔
      (∀ x, source.contains x = true → P x) ∧
        ∀ x, source.contains x = false → (image source destination).contains x = false → P x := by
  constructor
  · intro all
    exact ⟨fun x moves => all x fun lost => absurd (moves.symm.trans lost.2) nofun,
      fun x _ apart => all x fun lost => absurd (apart.symm.trans lost.1) nofun⟩
  · rintro ⟨moving, staying⟩ x kept
    cases moves : source.contains x with
    | true => exact moving x moves
    | false => exact staying x moves (Bool.eq_false_iff.mpr fun covered => kept ⟨covered, moves⟩)

theorem Pass.Settled.value_of_isEmptyText {g : Grid} {draws : Draws} {order : List CellId}
    {p : Pass} (settled : Settled draws g order p) (traced : g.Traced) {x : CellId}
    (empty : IsEmptyText (g.formula x)) (value : g.value x = .text "") :
    p.grid.value x = .text "" := by
  have free : (g.cell x).isFilling = false := by
    rw [Cell.isFilling, show (g.cell x).value = .text "" from value]
  by_cases dirty : x ∈ g.dirty
  · have mem : x ∈ order := by
      refine (settled.mem x).mpr ⟨dirty, fun stuck => ?_⟩
      obtain ⟨w, -, edge⟩ := stuck.exists_before
      exact Grid.not_reads_of_mentions_eq_nil (mentions_of_isEmptyText empty) w
        ((traced x free w).mp edge)
    rw [settled.value traced.covered x mem free, Grid.formulaValue, settled.alike.formula,
      evaluate_of_isEmptyText empty, value]
    exact CellValue.keep_text _ ""
  · rw [Grid.value_eq_of_cells (settled.outside x dirty), value]

namespace Grid

/-- No formula fills other cells, calls `RAND`, refers to a sheet that is missing, or reads itself, over
one or more steps. -/
structure Plain (g : Grid) : Prop where
  free : ∀ x, (g.cell x).isFilling = false
  noRandom : ∀ x, ¬ CallsRandom (g.formula x)
  resolved : ∀ x, ∀ m ∈ mentions (g.formula x), (m.1.sheet? x.sheet g.directory).isSome = true
  acyclic : ∀ x, ¬ OnCycle g.FormulaReads x

/-- The formulas that are not overwritten read nothing that is overwritten, and each of their ranges
lies in the source or beside it. -/
structure Separates (g : Grid) (source destination : BoundRange) : Prop where
  reads : ∀ x y, ¬ IsOverwritten source destination y → g.FormulaReads x y →
    ¬ IsOverwritten source destination x
  ranges : ∀ y, ¬ IsOverwritten source destination y →
    Respects source y.sheet g.directory (g.formula y)

theorem ProperNames.regular_directory {g : Grid} (h : g.ProperNames) : g.directory.Regular :=
  Directory.regular_ofSheets h.nodup h.valid

variable {g : Grid} {removed : List String} {source destination : BoundRange} {draws : Draws}

theorem Plain.grounded (plain : g.Plain) (inside : g.Inside) (y : CellId) :
    Grounded y.sheet g.directory (g.formula y) := by
  intro m hm
  obtain ⟨sheet, found⟩ := Option.isSome_iff_exists.mp (plain.resolved y m hm)
  exact ⟨sheet, found, inside y (plain.free y) m hm sheet found⟩

theorem Plain.edge_iff (plain : g.Plain) (traced : g.Traced) (x y : CellId) :
    g.Edge x y ↔ Formula.Reads y.sheet g.directory (g.formula y) x :=
  traced y (plain.free y) x

theorem Plain.edge_eq (plain : g.Plain) (traced : g.Traced) : g.Edge = g.FormulaReads := by
  funext x y
  exact propext ((plain.edge_iff traced x y).trans ⟨fun h => ⟨plain.free y, h⟩, And.right⟩)

/-- The formula of a cell as it has to be written after a cut, wherever the cell is then. -/
def carried (g : Grid) (source destination : BoundRange) (y : CellId) : String :=
  (g.moved (g.cutTo source destination) y ((g.cutTo source destination).move y)).formula

/-- The cut writes the formula of the cell anew, wherever the cell is then. -/
def IsRewritten (g : Grid) (source destination : BoundRange) (y : CellId) : Prop :=
  ((g.cutTo source destination).move y, .ofFormula (g.carried source destination y)) ∈
    g.cutWrites source destination

/-- The cells that a cut does not overwrite go to different places. -/
theorem HasRoom.injOn_move (room : g.HasRoom source destination) :
    Set.InjOn (g.cutTo source destination).move {x | ¬ IsOverwritten source destination x} := by
  have lays := room.laysOut
  -- A place is different from every cell that stays and is not overwritten.
  have apart : ∀ x y, source.contains x = true → source.contains y = false →
      ¬ IsOverwritten source destination y → place source destination x ≠ y := by
    rintro x _ hx hy kept rfl
    exact kept ⟨contains_image_place hx, hy⟩
  intro x hx y hy same
  cases inX : source.contains x with
  | true =>
    rw [lays.move_of_contains inX] at same
    cases inY : source.contains y with
    | true =>
      rw [lays.move_of_contains inY] at same
      exact place_injective inX inY same
    | false =>
      rw [lays.move_of_not_contains inY] at same
      exact absurd same (apart x y inX inY hy)
  | false =>
    rw [lays.move_of_not_contains inX] at same
    cases inY : source.contains y with
    | true =>
      rw [lays.move_of_contains inY] at same
      exact absurd same.symm (apart y x inY inX hx)
    | false =>
      rw [lays.move_of_not_contains inY] at same
      exact same

/-- **What becomes of a formula that is not overwritten**: it is written anew where it moves, or it
stays and either would be written as it is or reads nothing that moves. -/
theorem fate_of_not_overwritten (wired : g.Wired) (room : g.HasRoom source destination)
    {y : CellId} (kept : ¬ IsOverwritten source destination y) :
    g.IsRewritten source destination y ∨
      source.contains y = false ∧
        (∀ c, ((g.cutTo source destination).move y, c) ∉ g.cutWrites source destination) ∧
          (g.formula y = g.carried source destination y ∨
            ∀ x, g.Edge x y → source.contains x = false) := by
  have lays := room.laysOut
  cases moves : source.contains y with
  | true =>
    left
    rw [IsRewritten, room.mem_cutWrites]
    exact Or.inl ⟨y, moves, lays.move_of_contains moves, rfl⟩
  | false =>
    have stays : (g.cutTo source destination).move y = y := lays.move_of_not_contains moves
    have text : g.carried source destination y =
        (g.moved (g.cutTo source destination) y y).formula := by rw [carried, stays]
    have apart : (image source destination).contains y = false :=
      Bool.eq_false_iff.mpr fun covered => kept ⟨covered, moves⟩
    by_cases follows : (∃ z, source.contains z = true ∧ y ∈ (g.cell z).readers) ∧
        (g.moved (g.cutTo source destination) y y).formula ≠ g.formula y
    · left
      rw [IsRewritten, room.mem_cutWrites, stays, text]
      exact Or.inr (Or.inl ⟨follows.1, moves, apart, follows.2, rfl⟩)
    · refine Or.inr ⟨rfl, ?_, ?_⟩
      · intro c written
        rw [room.mem_cutWrites, stays] at written
        rcases written with ⟨z, inside, rfl, -⟩ | ⟨reader, -, -, differs, -⟩ | ⟨inside, -⟩
        · exact absurd ((contains_image_place inside).symm.trans apart) nofun
        · exact follows ⟨reader, differs⟩
        · exact absurd (inside.symm.trans moves) nofun
      · rw [not_and_or] at follows
        rcases follows with noReader | same
        · refine Or.inr fun x edge => Bool.eq_false_iff.mpr fun inside => ?_
          exact noReader ⟨x, inside, wired.forth x y edge⟩
        · exact Or.inl (text.trans (not_not.mp same)).symm

theorem free_after_cut (plain : g.Plain) (room : g.HasRoom source destination) (x : CellId) :
    ((g.storeAll (g.cutWrites source destination)).cell x).isFilling = false := by
  by_cases written : ∃ c, (x, c) ∈ g.cutWrites source destination
  · obtain ⟨c, mem⟩ := written
    have bare := bare_storeAll_of_mem (g := g) mem fun _ other => room.cutWrites_unique mem other
    have notFilling : c.isFilling = false := by
      rw [room.mem_cutWrites] at mem
      rcases mem with ⟨z, -, -, rfl⟩ | ⟨-, -, -, -, rfl⟩ | ⟨-, -, rfl⟩ <;> rfl
    have value : ((g.storeAll (g.cutWrites source destination)).cell x).bare.value =
        (g.resolved x.sheet c).bare.value := by rw [bare]
    exact (isFilling_eq_of_value_eq value).trans (isFilling_resolved x.sheet notFilling)
  · rw [not_exists] at written
    rw [isFilling_eq_of_value_eq (storeAll_of_not_mem written).2]
    exact plain.free x

theorem blank_after_cut (room : g.HasRoom source destination) {x : CellId}
    (inside : source.contains x = true) (apart : (image source destination).contains x = false) :
    (g.storeAll (g.cutWrites source destination)).formula x = "" ∧
      (g.storeAll (g.cutWrites source destination)).value x = .text "" := by
  have mem : (x, Cell.blank) ∈ g.cutWrites source destination := by
    rw [room.mem_cutWrites]
    exact Or.inr (Or.inr ⟨inside, apart, rfl⟩)
  refine storeAll_of_mem mem (fun _ other => room.cutWrites_unique mem other) rfl ?_
  intro m hm
  rw [show Cell.blank.formula = "" from rfl, mentions_empty] at hm
  exact absurd hm nofun

/-- A cell without content on which nothing is laid out has none after the cut. -/
theorem empty_after_cut (room : g.HasRoom source destination) {x : CellId}
    (apart : (image source destination).contains x = false) (empty : IsEmptyText (g.formula x))
    (value : g.value x = .text "") :
    IsEmptyText ((g.storeAll (g.cutWrites source destination)).formula x) ∧
      (g.storeAll (g.cutWrites source destination)).value x = .text "" := by
  cases moves : source.contains x with
  | true =>
    obtain ⟨formula, value⟩ := blank_after_cut room moves apart
    exact ⟨Or.inl formula, value⟩
  | false =>
    have unwritten : ∀ c, (x, c) ∉ g.cutWrites source destination := by
      intro c written
      rw [room.mem_cutWrites] at written
      rcases written with ⟨z, inside, rfl, -⟩ | ⟨-, -, -, differs, -⟩ | ⟨inside, -⟩
      · exact absurd ((contains_image_place inside).symm.trans apart) nofun
      · refine differs ?_
        show retarget x.sheet x.sheet _ g.directory (g.formula x) = g.formula x
        rw [retarget_eq]
        exact replaceMentions_of_mentions_eq_nil (mentions_of_isEmptyText empty) _
      · exact absurd (inside.symm.trans moves) nofun
    obtain ⟨formula, same⟩ := storeAll_of_not_mem (g := g) unwritten
    rw [formula, same]
    exact ⟨empty, value⟩

section

variable (tracked : g.Tracked removed) (plain : g.Plain) (tidy : ∀ x, Tidy (g.formula x))
  (inside : g.Inside) (room : g.HasRoom source destination)
  (separates : g.Separates source destination)
  (shifts : ∀ y, ¬ IsOverwritten source destination y →
    HasRangeIn source y.sheet g.directory (g.formula y) →
      (g.cutTo source destination).Shifts destination g.directory)

include tracked plain tidy inside room separates shifts

theorem grounded_carried {y : CellId} (kept : ¬ IsOverwritten source destination y) :
    Grounded ((g.cutTo source destination).move y).sheet g.directory
      (g.carried source destination y) :=
  room.laysOut.grounded_retarget _ tracked.regular.names.regular_directory
    (plain.grounded inside y) (separates.ranges y kept) (shifts y kept) (tidy y)

theorem contents_of_isRewritten {y : CellId} (kept : ¬ IsOverwritten source destination y)
    (written : g.IsRewritten source destination y) :
    (g.storeAll (g.cutWrites source destination)).formula ((g.cutTo source destination).move y) =
        g.carried source destination y ∧
      (g.storeAll (g.cutWrites source destination)).value ((g.cutTo source destination).move y) =
        .pending (g.carried source destination y) :=
  storeAll_of_mem written (fun _ other => room.cutWrites_unique written other) rfl
    (grounded_carried tracked plain tidy inside room separates shifts kept)

theorem formula_after_cut {y : CellId} (kept : ¬ IsOverwritten source destination y) :
    let cut := g.cutTo source destination
    let after := g.storeAll (g.cutWrites source destination)
    after.formula (cut.move y) = g.carried source destination y ∨
      (cut.move y = y ∧ after.formula (cut.move y) = g.formula y ∧
        ∀ x, g.Edge x y → cut.move x = x) := by
  intro cut after
  rcases fate_of_not_overwritten tracked.regular.wired room kept with
    written | ⟨outside, unwritten, same | still⟩
  · exact Or.inl (contents_of_isRewritten tracked plain tidy inside room separates shifts kept written).1
  · refine Or.inl ((storeAll_of_not_mem unwritten).1.trans ?_)
    rw [← same, room.laysOut.move_of_not_contains outside]
  · have stays : cut.move y = y := room.laysOut.move_of_not_contains outside
    refine Or.inr ⟨stays, (storeAll_of_not_mem unwritten).1.trans ?_, ?_⟩
    · rw [stays]
    · exact fun x edge => room.laysOut.move_of_not_contains (still x edge)

theorem reads_after_cut {y : CellId} (kept : ¬ IsOverwritten source destination y) (x' : CellId) :
    let cut := g.cutTo source destination
    Formula.Reads (cut.move y).sheet g.directory
      ((g.storeAll (g.cutWrites source destination)).formula (cut.move y)) x' ↔
        ∃ x, g.Edge x y ∧ x' = cut.move x := by
  intro cut
  have edge := fun x => plain.edge_iff tracked.traced x y
  rcases formula_after_cut tracked plain tidy inside room separates shifts kept with
    moved | ⟨stays, same, still⟩
  · rw [moved]
    refine (room.laysOut.reads_retarget _ tracked.regular.names.regular_directory
      (plain.grounded inside y) (separates.ranges y kept) (shifts y kept) (tidy y) x').trans ?_
    simp only [edge]
    rfl
  · rw [same]
    simp only [cut, stays, ← edge]
    constructor
    · exact fun reads => ⟨x', reads, (still x' reads).symm⟩
    · rintro ⟨x, reads, rfl⟩
      rw [still x reads]
      exact reads

/-- **A formula has the same value after the cut** where the cells that it reads have kept theirs on
the way. -/
theorem formulaValue_after_cut {y : CellId} (kept : ¬ IsOverwritten source destination y) {g' : Grid}
    (draws : Formula.Draws) (alike : (g.storeAll (g.cutWrites source destination)).Alike g')
    (values : ∀ x, g.Edge x y →
      g'.value ((g.cutTo source destination).move x) = g.value x) :
    g'.formulaValue ((g.cutTo source destination).move y) draws = g.formulaValue y := by
  have edge := fun x => plain.edge_iff tracked.traced x y
  have directory : g'.directory = g.directory :=
    alike.directory.trans (g.storeAll_directory _)
  have terms : ∀ x, Formula.Reads y.sheet g.directory (g.formula y) x →
      (g'.view draws).term ((g.cutTo source destination).move x) = g.view.term x := by
    intro x reads
    rw [view_term, view_term, values x ((edge x).mpr reads)]
  rw [formulaValue, formulaValue, alike.formula]
  refine congrArg Term.toValue ?_
  rcases formula_after_cut tracked plain tidy inside room separates shifts kept with
    moved | ⟨stays, same, still⟩
  · rw [moved]
    exact room.laysOut.evaluate_retarget tracked.regular.names.regular_directory
      (plain.grounded inside y) (separates.ranges y kept) (shifts y kept) (tidy y)
      (plain.noRandom y) rfl directory terms
  · rw [same, stays]
    refine evaluate_congr (fun random => absurd random (plain.noRandom y)) ?_ ?_
    · intro m _
      show m.1.sheet? y.sheet g'.directory = m.1.sheet? y.sheet g.directory
      rw [directory]
    · intro x reads
      rw [← terms x reads, still x ((edge x).mpr reads)]

/-- **The cut moves the cells that are not overwritten**, with all that they read. -/
theorem transports_cut (traced : (g.storeAll (g.cutWrites source destination)).Traced) :
    Transports (g.cutTo source destination).move {x | ¬ IsOverwritten source destination x} g
      (g.storeAll (g.cutWrites source destination)) where
  injective := room.injOn_move
  closed x y edge kept :=
    separates.reads x y kept ⟨plain.free y, (plain.edge_iff tracked.traced x y).mp edge⟩
  onto x' y' edge := by
    cases covered : (image source destination).contains y' with
    | true =>
      obtain ⟨z, moves, rfl⟩ := exists_place covered
      exact ⟨z, fun lost => absurd (moves.symm.trans lost.2) nofun,
        (room.laysOut.move_of_contains moves).symm⟩
    | false =>
      cases moves : source.contains y' with
      | true =>
        have reads := (traced y' (free_after_cut plain room y') x').mp edge
        rw [(blank_after_cut room moves covered).1] at reads
        obtain ⟨m, hm, -⟩ := reads
        rw [mentions_empty] at hm
        exact absurd hm nofun
      | false =>
        exact ⟨y', fun lost => absurd (covered.symm.trans lost.1) nofun,
          (room.laysOut.move_of_not_contains moves).symm⟩
  edge y kept x' := by
    refine Iff.trans ?_ (reads_after_cut tracked plain tidy inside room separates shifts kept x')
    rw [← g.storeAll_directory (g.cutWrites source destination)]
    exact traced _ (free_after_cut plain room _) x'
  filling y _ := free_after_cut plain room _
  value y kept g' draws alike values :=
    formulaValue_after_cut tracked plain tidy inside room separates shifts kept draws alike values

theorem isRewritten_iff_of_stays {y : CellId} (stays : source.contains y = false)
    (apart : (image source destination).contains y = false) :
    g.IsRewritten source destination y ↔
      (g.storeAll (g.cutWrites source destination)).formula y ≠ g.formula y := by
  have kept : ¬ IsOverwritten source destination y :=
    fun lost => absurd (apart.symm.trans lost.1) nofun
  have same : (g.cutTo source destination).move y = y := room.laysOut.move_of_not_contains stays
  constructor
  · intro written
    have formula := (contents_of_isRewritten tracked plain tidy inside room separates shifts kept written).1
    rw [IsRewritten, room.mem_cutWrites, same] at written
    rw [same] at formula
    rw [formula, carried, same]
    rcases written with ⟨z, inside, rfl, -⟩ | ⟨-, -, -, differs, -⟩ | ⟨moves, -⟩
    · exact absurd ((contains_image_place inside).symm.trans apart) nofun
    · exact differs
    · exact absurd (moves.symm.trans stays) nofun
  · intro changed
    rcases fate_of_not_overwritten tracked.regular.wired room kept with
      written | ⟨-, unwritten, -⟩
    · exact written
    · rw [same] at unwritten
      exact absurd (storeAll_of_not_mem unwritten).1 changed

theorem preserves_iff_after_pass (clean : ∀ y, ¬ IsOverwritten source destination y → y ∉ g.dirty)
    {order : List CellId} {p : Pass}
    (traced : (g.storeAll (g.cutWrites source destination)).Traced)
    (settled : Pass.Settled draws (g.storeAll (g.cutWrites source destination)) order p) :
    (∀ y, ¬ IsOverwritten source destination y →
        p.grid.value ((g.cutTo source destination).move y) = g.value y) ↔
      ∀ y, ¬ IsOverwritten source destination y → g.IsRewritten source destination y →
        g.value y = g.formulaValue y := by
  have acyclic : ∀ x, ¬ OnCycle g.Edge x := by
    rw [plain.edge_eq tracked.traced]
    exact plain.acyclic
  refine (transports_cut tracked plain tidy inside room separates shifts traced).preserves_iff
    (W := {y | g.IsRewritten source destination y}) (fun x _ => acyclic x) traced.covered settled
    ?_ ?_ ?_
  · intro y kept _
    refine tracked.current.value y (clean y kept) (plain.free y) (plain.noRandom y) ?_
    rintro ⟨z, cycle, -⟩
    exact acyclic z cycle
  · intro y kept old
    rcases fate_of_not_overwritten tracked.regular.wired room kept with
      written | ⟨stays, unwritten, -⟩
    · exact absurd written old
    · rw [(storeAll_of_not_mem unwritten).2, room.laysOut.move_of_not_contains stays]
  · intro y kept written
    exact ⟨mem_dirty_storeAll (Or.inr ⟨_, written⟩), _,
      (contents_of_isRewritten tracked plain tidy inside room separates shifts kept written).2⟩

/-- What a pass after the cut makes of the values of the cells that move and of those that are not
touched. -/
theorem moved_preserves_iff (clean : ∀ y, ¬ IsOverwritten source destination y → y ∉ g.dirty)
    {order : List CellId} {p : Pass}
    (traced : (g.storeAll (g.cutWrites source destination)).Traced)
    (settled : Pass.Settled draws (g.storeAll (g.cutWrites source destination)) order p) :
    ((∀ x, source.contains x = true → p.grid.value (place source destination x) = g.value x) ∧
        ∀ x, source.contains x = false → (image source destination).contains x = false →
          p.grid.value x = g.value x) ↔
      (∀ x, source.contains x = true → g.value x = g.formulaValue x) ∧
        ∀ x, source.contains x = false → (image source destination).contains x = false →
          p.grid.formula x ≠ g.formula x → g.value x = g.formulaValue x := by
  have lays := room.laysOut
  have preserved :=
    preserves_iff_after_pass tracked plain tidy inside room separates shifts clean traced settled
  rw [forall_not_isOverwritten, forall_not_isOverwritten] at preserved
  refine Iff.trans ?_ (preserved.trans ?_)
  · refine and_congr (forall_congr' fun x => forall_congr' fun moves => ?_)
      (forall_congr' fun x => forall_congr' fun stays => forall_congr' fun _ => ?_)
    · rw [lays.move_of_contains moves]
      rfl
    · rw [lays.move_of_not_contains stays]
  · refine and_congr (forall_congr' fun x => forall_congr' fun moves => ?_)
      (forall_congr' fun x => forall_congr' fun stays => forall_congr' fun apart => ?_)
    · have written : g.IsRewritten source destination x := (room.mem_cutWrites _ _).mpr
        (Or.inl ⟨x, moves, lays.move_of_contains moves, rfl⟩)
      exact ⟨fun exact => exact written, fun exact _ => exact⟩
    · rw [isRewritten_iff_of_stays tracked plain tidy inside room separates shifts stays apart,
        ← settled.alike.formula]

theorem blank_after_pass {order : List CellId} {p : Pass}
    (traced : (g.storeAll (g.cutWrites source destination)).Traced)
    (settled : Pass.Settled draws (g.storeAll (g.cutWrites source destination)) order p) {x : CellId}
    (moves : source.contains x = true) (apart : (image source destination).contains x = false) :
    p.grid.formula x = "" ∧ p.grid.value x = .text "" := by
  obtain ⟨formula, value⟩ := blank_after_cut room moves apart
  have acyclic : ∀ x, ¬ OnCycle g.Edge x := by
    rw [plain.edge_eq tracked.traced]
    exact plain.acyclic
  refine ⟨(settled.alike.formula x).trans formula, ?_⟩
  by_cases dirty : x ∈ (g.storeAll (g.cutWrites source destination)).dirty
  · have mem : x ∈ order := (settled.mem x).mpr ⟨dirty, fun stuck =>
      (transports_cut tracked plain tidy inside room separates shifts traced).acyclic acyclic x
        (behindCycle_of_stuck stuck)⟩
    rw [settled.value traced.covered x mem (free_after_cut plain room x), formulaValue,
      settled.alike.formula, formula, evaluate_empty]
    exact CellValue.keep_text _ ""
  · rw [value_eq_of_cells (settled.outside x dirty)]
    exact value

end

theorem exists_settled (linked : g.Linked) {hooks : Hooks}
    (completed : (g.recompute hooks).2.cancelled = false) :
    ∃ order p, Pass.Settled (hooks.draws 0) g order p ∧ (g.recompute hooks).1 = p.grid := by
  obtain ⟨order, p, settled, ends⟩ := linked.exists_settled completed
  exact ⟨order, p, settled, congrArg Prod.fst ends⟩

/-- A cut that is accepted writes its cells and runs one pass, if nothing waits. -/
theorem apply_cut {hooks : Hooks} {g' : Grid} {outcome : Outcome} (regular : g.Regular)
    (idle : g.waiting = []) (free : ∀ x, (g.cell x).isFilling = false)
    (room : g.HasRoom source destination)
    (accepted : g.apply hooks (.cut source destination) = .ok (g', outcome)) :
    g' = ((g.storeAll (g.cutWrites source destination)).recompute hooks).1 ∧
      outcome.report = ((g.storeAll (g.cutWrites source destination)).recompute hooks).2 := by
  obtain ⟨g₁, written, invalidate, wrote, done⟩ := apply_eq_ok_iff.mp accepted
  cases wrote with
  | cut =>
    rw [cutBlock_eq free room.mapping_ne_nil] at done
    refine finish_of_idle ((g.rewrites_storeAll _).regular regular).wired ?_ done
    rw [(g.storeAll_fields _).2.2, idle]

/-! ### Cuts in grids whose cells are listed -/

/-- A grid whose cells are listed is plain if their formulas are and read only cells of lower rank. -/
theorem plain_of_stored (rank : CellId → Nat)
    (formulas : (g.cells.toList.all fun p =>
      !p.2.isFilling && !decide (CallsRandom p.2.formula)) = true)
    (references : (g.cells.toList.all fun p => (mentions p.2.formula).all fun m =>
      (m.1.sheet? p.1.sheet g.directory).isSome &&
        (m.1.sheet? p.1.sheet g.directory).all fun sheet =>
          (m.1.cellsOn sheet).all fun x => rank x < rank p.1) = true) : g.Plain := by
  have plain := forall_cells (P := fun _ c => !c.isFilling && !decide (CallsRandom c.formula))
    (fun _ => by decide +kernel) formulas
  have below := forall_mentions (P := fun y m => (m.sheet? y.sheet g.directory).isSome &&
    (m.sheet? y.sheet g.directory).all fun sheet =>
      (m.cellsOn sheet).all fun x => rank x < rank y) references
  simp only [Bool.and_eq_true, Bool.not_eq_true', decide_eq_false_iff_not] at plain below
  exact ⟨fun x => (plain x).1, fun x => (plain x).2, fun x m hm => (below x m hm).1,
    not_onCycle_of_rank rank fun x y reads => of_decide_eq_true
      (forall_reads (P := fun x y => rank x < rank y) (fun y m hm => (below y m hm).2) x y reads)⟩

instance (source destination : BoundRange) (x : CellId) :
    Decidable (IsOverwritten source destination x) := inferInstanceAs (Decidable (_ ∧ _))

/-- In a grid whose cells are listed, a cut may separate their formulas from what it overwrites. -/
theorem separates_of_stored {source destination : BoundRange}
    (references : (g.cells.toList.all fun p => (mentions p.2.formula).all fun m =>
      (m.1.sheet? p.1.sheet g.directory).all fun sheet =>
        ((m.1.cellsOn sheet).all fun x =>
          IsOverwritten source destination p.1 ∨ ¬ IsOverwritten source destination x) &&
        (m.1.size?.isNone || (m.1.cellsOn sheet).all (source.contains ·) ||
          (m.1.cellsOn sheet).all (!source.contains ·))) = true) :
    g.Separates source destination := by
  have apart := forall_mentions (P := fun y m =>
    (m.sheet? y.sheet g.directory).all fun sheet =>
      ((m.cellsOn sheet).all fun x =>
        IsOverwritten source destination y ∨ ¬ IsOverwritten source destination x) &&
      (m.size?.isNone || (m.cellsOn sheet).all (source.contains ·) ||
        (m.cellsOn sheet).all (!source.contains ·))) references
  simp only [Option.all_eq_true, Bool.and_eq_true, Bool.or_eq_true, List.all_eq_true,
    decide_eq_true_eq, Bool.not_eq_true'] at apart
  constructor
  · rintro x y kept ⟨-, m, hm, sheet, found, hx⟩
    exact ((apart y m hm sheet found).1 x hx).resolve_left kept
  · intro y _ m hm r same sheet found
    rcases (apart y m hm sheet found).2 with (single | within) | beside
    · rw [same] at single
      exact absurd single nofun
    · exact Or.inl within
    · exact Or.inr beside

theorem lt_of_bounds {sheet limit : Nat} {bounds : Bounds}
    (known : g.directory.bounds? sheet = some bounds)
    (lower : bounds.rows < limit ∧ bounds.cols < limit) :
    ∀ bounds', g.directory.bounds? sheet = some bounds' →
      bounds'.rows < limit ∧ bounds'.cols < limit := by
  intro bounds' known'
  rw [known] at known'
  cases known'
  exact lower

/-- A grid whose cells are listed and have just the values of their formulas. -/
theorem value_eq_of_stored (stored : (g.cells.toList.all fun p =>
    p.2.value = (evaluate g.view p.1 p.2.formula).toValue) = true) (x : CellId) :
    g.value x = g.formulaValue x :=
  of_decide_eq_true (forall_cells (P := fun x c => c.value = (evaluate g.view x c.formula).toValue)
    (fun x => decide_eq_true (by rw [show Cell.blank.formula = "" from rfl, evaluate_empty]; rfl))
    stored x)

theorem exists_of_apply (g : Grid) (hooks : Hooks) (edit : Edit)
    (done : ((g.apply hooks edit).toOption.map fun r => r.2.report.cancelled) = some false) :
    ∃ g' outcome, g.apply hooks edit = .ok (g', outcome) ∧ outcome.report.cancelled = false := by
  cases accepted : g.apply hooks edit with
  | error e =>
    rw [accepted] at done
    exact absurd done nofun
  | ok r =>
    rw [accepted] at done
    exact ⟨r.1, r.2, rfl, Option.some.inj done⟩

/-! ### When a cut preserves all values -/

/-- **When a cut preserves all values.**  Let nothing be dirty after a history in which no name of a
removed sheet is used again, and let the grid be plain.  A cut that is accepted and not cancelled, that
has room, that separates the formulas from what it overwrites, and whose coordinates are signed integers
if it moves a range that some formula reads, leaves the rest of its source blank.  It preserves the
values of the cells that it moves and of all that it does not touch, if and only if the cells that it
moves and those whose formulas it changes have just the values of their formulas.  A cell can have
another value that is the same to a reader, such as `0` in place of `-0`. -/
theorem cut_preserves_iff (options : Options) (history : List Action)
    (fresh : NeverReuses options history) {source destination : BoundRange} {hooks : Hooks}
    {g' : Grid} {outcome : Outcome} (clean : (ofHistory options history).dirty = ∅)
    (plain : (ofHistory options history).Plain)
    (accepted : (ofHistory options history).apply hooks (.cut source destination) =
      .ok (g', outcome))
    (completed : outcome.report.cancelled = false)
    (room : (ofHistory options history).HasRoom source destination)
    (separates : (ofHistory options history).Separates source destination)
    (signed : ∀ y, ¬ IsOverwritten source destination y →
      HasRangeIn source y.sheet (ofHistory options history).directory
        ((ofHistory options history).formula y) →
          (ofHistory options history).IsSigned source destination) :
    let g := ofHistory options history
    (∀ x, source.contains x = true → (image source destination).contains x = false →
      g'.formula x = "" ∧ g'.value x = .text "") ∧
    (((∀ x, source.contains x = true → g'.value (place source destination x) = g.value x) ∧
        ∀ x, source.contains x = false → (image source destination).contains x = false →
          g'.value x = g.value x) ↔
      (∀ x, source.contains x = true → g.value x = g.formulaValue x) ∧
        ∀ x, source.contains x = false → (image source destination).contains x = false →
          g'.formula x ≠ g.formula x → g.value x = g.formulaValue x) := by
  intro g
  have tracked : g.Tracked (removedNames options history) := tracked_ofHistory options history fresh
  have tidy : ∀ x, Tidy (g.formula x) := tidy_ofHistory options history
  have inside : g.Inside := inside_ofHistory options history fresh
  have shifts : ∀ y, ¬ IsOverwritten source destination y →
      HasRangeIn source y.sheet g.directory (g.formula y) →
        (g.cutTo source destination).Shifts destination g.directory :=
    fun y kept has => room.shifts (signed y kept has)
  have rewritten := (g.rewrites_storeAll (g.cutWrites source destination)).tracked tracked
  obtain ⟨rfl, report⟩ := apply_cut tracked.regular (waiting_ofHistory options history) plain.free
    room accepted
  rcases recompute_cases rewritten.regular.wired.forth hooks with
    ⟨order, p, reached, idle, -, ends⟩ | ⟨-, order, p, -, -, cancelled⟩
  · have settled := reached.settle rewritten.regular.wired.linked idle
    have untouched : ∀ y, ¬ IsOverwritten source destination y → y ∉ g.dirty :=
      fun _ _ => clean ▸ Std.ExtTreeSet.not_mem_empty
    rw [ends]
    constructor
    · intro x moves apart
      exact blank_after_pass tracked plain tidy inside room separates shifts rewritten.traced settled
        moves apart
    · exact moved_preserves_iff tracked plain tidy inside room separates shifts untouched
        rewritten.traced settled
  · rw [report, cancelled] at completed
    exact absurd completed nofun

theorem cut_preserves_iff_sum :
    let history : List Action := [.edit {} (.set ⟨0, 2, 1⟩ "3"), .edit {} (.set ⟨0, 1, 1⟩ "2"),
      .edit {} (.set ⟨0, 1, 2⟩ "=SUM(A1:A2)")]
    let g := ofHistory {} history
    let source := block 0 1 1 2 1
    let destination := single ⟨0, 3, 3⟩
    NeverReuses {} history ∧ g.dirty = ∅ ∧ g.Plain ∧ g.HasRoom source destination ∧
      g.Separates source destination ∧ g.IsSigned source destination ∧ ∃ g' outcome,
        g.apply {} (.cut source destination) = .ok (g', outcome) ∧
          outcome.report.cancelled = false ∧
          (∀ x, source.contains x = true → g'.value (place source destination x) = g.value x) ∧
          ∀ x, source.contains x = false → (image source destination).contains x = false →
            g'.value x = g.value x := by
  intro history g source destination
  have fresh : NeverReuses {} history := ⟨⟨⟨trivial, nofun⟩, nofun⟩, nofun⟩
  have clean : g.dirty = ∅ := by decide +kernel
  have plain : g.Plain := plain_of_stored CellId.col (by decide +kernel) (by decide +kernel)
  have known : g.directory.bounds? 0 = some ⟨100, 15⟩ := by decide +kernel
  have room : g.HasRoom source destination :=
    ⟨by decide, by decide +kernel, lt_of_bounds known (by decide)⟩
  have signed : g.IsSigned source destination := ⟨by decide, lt_of_bounds known (by decide)⟩
  have separates : g.Separates source destination := separates_of_stored (by decide +kernel)
  obtain ⟨g', outcome, accepted, completed⟩ :=
    exists_of_apply g {} (.cut source destination) (by decide +kernel)
  have exact : ∀ x, g.value x = g.formulaValue x := value_eq_of_stored (by decide +kernel)
  obtain ⟨-, preserved⟩ := cut_preserves_iff {} history fresh clean plain accepted completed room
    separates fun _ _ _ => signed
  exact ⟨fresh, clean, plain, room, separates, signed, g', outcome, accepted, completed,
    preserved.mpr ⟨fun x _ => exact x, fun x _ _ _ => exact x⟩⟩

/-- A cell that has `0` where its formula has `-0` has `-0` at its new place, and a formula that divides
by it changes its value. -/
theorem not_preserved_of_zero :
    ¬ ∀ (options : Options) (history : List Action) (source destination : BoundRange) (g' : Grid)
      (outcome : Outcome), NeverReuses options history → (ofHistory options history).dirty = ∅ →
        (ofHistory options history).Plain →
          (ofHistory options history).apply {} (.cut source destination) = .ok (g', outcome) →
            (ofHistory options history).HasRoom source destination →
              (ofHistory options history).Separates source destination →
                (ofHistory options history).IsSigned source destination →
                  ∀ x, source.contains x = false → (image source destination).contains x = false →
                    g'.value x = (ofHistory options history).value x := by
  intro all
  let history : List Action := [.edit {} (.set ⟨0, 1, 3⟩ "-1"), .edit {} (.set ⟨0, 1, 2⟩ "=1/A1"),
    .edit {} (.set ⟨0, 1, 1⟩ "=0*C1"), .edit {} (.set ⟨0, 1, 3⟩ "1")]
  let source := single ⟨0, 1, 1⟩
  let destination := single ⟨0, 2, 1⟩
  have fresh : NeverReuses {} history := ⟨⟨⟨⟨trivial, nofun⟩, nofun⟩, nofun⟩, nofun⟩
  have known : (ofHistory {} history).directory.bounds? 0 = some ⟨100, 15⟩ := by decide +kernel
  obtain ⟨g', outcome, accepted, -⟩ := exists_of_apply (ofHistory {} history) {}
    (.cut source destination) (by decide +kernel)
  have same := all {} history source destination g' outcome fresh (by decide +kernel)
    (plain_of_stored (fun x => x.col % 3) (by decide +kernel) (by decide +kernel)) accepted
    ⟨by decide, by decide +kernel, lt_of_bounds known (by decide)⟩
    (separates_of_stored (by decide +kernel)) ⟨by decide, lt_of_bounds known (by decide)⟩
    ⟨0, 1, 2⟩ (by decide) (by decide)
  have after : ofHistory {} (.edit {} (.cut source destination) :: history) = g' := by
    rw [ofHistory, perform, accepted]
  rw [← after] at same
  revert same
  decide +kernel

end Grid

end Spreadsheet
