import Spreadsheet.Proofs.Grid.LineEdits

/-!
# Inserted lines

An insertion makes a sheet one line larger and cuts what comes after the new line one line further, as
far as there is content.

* `Grid.hasRoom_reach`: there is room for this if the new line is not the last one.
* `Grid.insert_preserves_iff`: when an insertion preserves all values.
-/

namespace Spreadsheet

open Formula Range

namespace Grid

variable {removed : List String} {g : Grid} {source destination : BoundRange}

/-! ### Formulas in a grid that has grown -/

section

variable (index rows cols : Nat)

theorem formulaReads_growSheet :
    (g.growSheet index rows cols).FormulaReads = g.FormulaReads := by
  funext x y
  simp only [FormulaReads, Formula.Reads, sheet?_growSheet]
  rfl

theorem Plain.growSheet (h : g.Plain) : (g.growSheet index rows cols).Plain where
  free := h.free
  noRandom := h.noRandom
  resolved x m hm := by
    rw [sheet?_growSheet]
    exact h.resolved x m hm
  acyclic := by
    rw [formulaReads_growSheet]
    exact h.acyclic

theorem Separates.growSheet (h : g.Separates source destination) :
    (g.growSheet index rows cols).Separates source destination where
  reads := by
    rw [formulaReads_growSheet]
    exact h.reads
  ranges y kept m hm r same sheet found := by
    rw [sheet?_growSheet] at found
    exact h.ranges y kept m hm r same sheet found

theorem hasRangeIn_growSheet {block : BoundRange} {home : Nat} {formula : String} :
    HasRangeIn block home (g.growSheet index rows cols).directory formula ↔
      HasRangeIn block home g.directory formula := by
  simp only [HasRangeIn, sheet?_growSheet]

theorem formulaValue_growSheet (x : CellId) :
    (g.growSheet index rows cols).formulaValue x = g.formulaValue x :=
  congrArg Term.toValue (evaluate_congr (fun _ => rfl)
    (fun m _ => sheet?_growSheet g index rows cols m.1 x.sheet) fun _ _ => rfl)

end

/-! ### Room for a line -/

variable {kind : LineKind} {sheet line : Nat} {s : Sheet}

/-- There is room for what comes after a new line if the line is not the last one. -/
theorem hasRoom_reach (h : g.Contained) (found : g.sheets[sheet]? = some s) (positive : 1 ≤ line)
    (within : line ≤ kind.count s.bounds) (first : 1 ≤ s.rows ∧ 1 ≤ s.cols)
    (sized : g.GrowsBelow kind sheet (coordinateLimit - 1)) :
    (g.lengthen kind sheet s.bounds).HasRoom (g.reach kind sheet line)
      (kind.advance (g.reach kind sheet line)) := by
  obtain ⟨extentRows, extentCols⟩ := (h.containedIf True).extent_le found within first
  obtain ⟨-, ⟨top, left⟩, -⟩ := kind.corners_advance (g.reach kind sheet line)
  obtain ⟨top', left', bottom', right'⟩ :=
    LineKind.corners_tail sheet (g.reaches_extent kind sheet line)
  have known : (g.lengthen kind sheet s.bounds).directory.bounds?
      (kind.advance (g.reach kind sheet line)).sheet = some (kind.grown s.bounds) := by
    rw [sheet_advance_reach, bounds_lengthen kind found]
  have placed : (g.lengthen kind sheet s.bounds).directory.bounds?
      (image (g.reach kind sheet line) (kind.advance (g.reach kind sheet line))).sheet =
        some (kind.grown s.bounds) := known
  refine ⟨Nat.le_of_eq (kind.area_advance _), ?_, ?_⟩
  · refine checkRange_of_bounds placed ?_ ?_
    · rw [image_top, image_left]
      exact g.one_le_advance_reach kind sheet positive
    · rw [image_bottom, image_right, top, left]
      rw [reach] at *
      rw [top', left', bottom', right']
      cases kind <;> simp only [LineKind.next, LineKind.grown, LineKind.head,
        LineKind.count, Sheet.bounds] at * <;> omega
  · rw [known]
    rintro _ ⟨⟩
    obtain ⟨rows, cols⟩ := sized s.bounds (bounds?_of_sheet found)
    exact ⟨Nat.lt_of_lt_pred rows, Nat.lt_of_lt_pred cols⟩

/-- Nothing is moved past the end of a sheet that has grown by a line. -/
theorem mapping_eq_nil_of_last (h : g.Contained) (found : g.sheets[sheet]? = some s)
    (first : 1 ≤ s.rows ∧ 1 ≤ s.cols) (next : line = kind.count s.bounds + 1)
    (sized : g.GrowsBelow kind sheet (coordinateLimit - 1)) :
    (g.lengthen kind sheet s.bounds).mapping (g.reach kind sheet line)
      (kind.advance (g.reach kind sheet line)) = [] := by
  refine List.eq_nil_iff_forall_not_mem.mpr fun ⟨target, id⟩ mem => ?_
  obtain ⟨-, ⟨top, left⟩, -⟩ := kind.corners_advance (g.reach kind sheet line)
  obtain ⟨top', left', bottom', right'⟩ :=
    LineKind.corners_tail sheet (g.reaches_extent kind sheet line)
  obtain ⟨lastRow, lastCol⟩ := (h.containedIf True).extent_le_grown found (Nat.le_of_eq next) first
  obtain ⟨rows, cols⟩ := sized s.bounds (bounds?_of_sheet found)
  have fits : (g.reach kind sheet line).FitsAt (kind.advance (g.reach kind sheet line)) := by
    refine fitsAt_advance kind ?_ ?_ <;> rw [reach] <;> omega
  obtain ⟨below, beside⟩ := le_of_mem_mapping fits mem
  obtain ⟨-, longer, known, inside⟩ := mem_mapping mem
  change target.row ≤ longer.bounds.rows ∧ target.col ≤ longer.bounds.cols at inside
  have size := bounds?_of_sheet known
  rw [sheet_advance_reach, bounds_lengthen kind found, Option.some.injEq] at size
  rw [← size] at inside
  rw [reach] at *
  rw [top, top', left'] at below
  rw [left, top', left'] at beside
  cases kind <;> simp only [LineKind.next, LineKind.grown, LineKind.head, LineKind.count,
    Sheet.bounds] at * <;> omega

theorem isSigned_reach (h : g.Contained) (found : g.sheets[sheet]? = some s)
    (within : line ≤ kind.count s.bounds) (first : 1 ≤ s.rows ∧ 1 ≤ s.cols)
    (signed : g.GrowsBelow kind sheet signedLimit) :
    (g.lengthen kind sheet s.bounds).IsSigned (g.reach kind sheet line)
      (kind.advance (g.reach kind sheet line)) := by
  obtain ⟨rows, cols⟩ := (h.containedIf True).extent_le found within first
  obtain ⟨-, -, bottom, right⟩ := LineKind.corners_tail sheet (g.reaches_extent kind sheet line)
  have limits := signed s.bounds (bounds?_of_sheet found)
  refine ⟨?_, ?_⟩
  · rw [reach, bottom, right]
    cases kind <;> simp only [LineKind.grown, Sheet.bounds] at limits <;> omega
  · rw [sheet_advance_reach, bounds_lengthen kind found]
    rintro _ ⟨⟩
    exact limits

/-! ### What an insertion makes of the values -/

section

variable (lawful : g.Lawful removed) (plain : g.Plain) (clean : g.dirty = ∅)
  (found : g.sheets[sheet]? = some s) (positive : 1 ≤ line)

include lawful plain clean positive

theorem vacant_of_not_reach {x : CellId} (after : kind.OnOrAfter sheet line x)
    (outside : (g.reach kind sheet line).contains x = false) : g.Vacant x := by
  by_cases has : g.Has x
  · obtain ⟨-, -, row, -, col, -⟩ := (has_iff x).mp has
    exact lawful.vacant plain (clean ▸ Std.ExtTreeSet.not_mem_empty)
      (isBlank_of_not_reach kind positive after row col outside)
  · exact lawful.vacant_of_not_has plain clean has

variable (first : 1 ≤ s.rows ∧ 1 ≤ s.cols) (sized : g.GrowsBelow kind sheet (coordinateLimit - 1))
  {draws : Draws} {order : List CellId} {p : Pass}
  (settled : Pass.Settled draws ((g.lengthen kind sheet s.bounds).cutBlock (g.reach kind sheet line)
    (kind.advance (g.reach kind sheet line))).1 order p)

include found settled first sized

omit positive in
/-- Behind the last line there is no content, so that an insertion there writes nothing. -/
theorem pass_behind_last (next : line = kind.count s.bounds + 1) :
    (∀ x, g.Vacant x → p.grid.Vacant x) ∧ (∀ x, kind.OnOrAfter sheet line x → g.Vacant x) ∧
      ∀ x, p.grid.formula x = g.formula x ∧ p.grid.value x = g.value x := by
  have last : kind.count s.bounds < line := next ▸ Nat.lt_succ_self _
  rw [cutBlock, mapping_eq_nil_of_last lawful.contained found first next sized] at settled
  have lawful' : (g.lengthen kind sheet s.bounds).Lawful removed := lawful.growSheet ..
  refine ⟨fun x vacant => lawful'.vacant_of_settled settled vacant, fun x after => ?_, fun x => ?_⟩
  · exact lawful.vacant_of_not_has plain clean fun has =>
      Nat.not_le_of_lt last (Nat.le_trans after.2 (has.index_le found after.1))
  · exact ⟨settled.alike.formula x,
      value_eq_of_cells (settled.outside x (clean ▸ Std.ExtTreeSet.not_mem_empty))⟩

variable (reached : line ≤ kind.count s.bounds + 1)
  (signed : ∀ y, HasRangeIn (g.reach kind sheet line) y.sheet g.directory (g.formula y) →
    g.GrowsBelow kind sheet signedLimit)
  (separates : g.Separates (g.reach kind sheet line) (kind.advance (g.reach kind sheet line)))

include reached signed separates

/-- What a pass after an insertion makes of the cells without content, of those that move, and of all
others. -/
theorem pass_of_insertion :
    let source := g.reach kind sheet line
    let destination := kind.advance source
    (∀ x, g.Vacant x → (image source destination).contains x = false → p.grid.Vacant x) ∧
      (∀ x, source.contains x = true → (image source destination).contains x = false →
        p.grid.Vacant x) ∧
      (((∀ x, source.contains x = true → p.grid.value (kind.next x) = g.value x) ∧
          ∀ x, source.contains x = false → (image source destination).contains x = false →
            p.grid.value x = g.value x) ↔
        (∀ x, source.contains x = true → g.value x = g.formulaValue x) ∧
          ∀ x, source.contains x = false → (image source destination).contains x = false →
            p.grid.formula x ≠ g.formula x → g.value x = g.formulaValue x) := by
  intro source destination
  let grown := g.lengthen kind sheet s.bounds
  have lawful' : grown.Lawful removed := lawful.growSheet ..
  have plain' : grown.Plain := plain.growSheet ..
  by_cases within : line ≤ kind.count s.bounds
  · have room : grown.HasRoom source destination :=
      hasRoom_reach lawful.contained found positive within first sized
    have shifts : ∀ y, ¬ IsOverwritten source destination y →
        HasRangeIn source y.sheet grown.directory (grown.formula y) →
          (grown.cutTo source destination).Shifts destination grown.directory :=
      fun y _ has => room.shifts (isSigned_reach lawful.contained found within first
        (signed y ((hasRangeIn_growSheet ..).mp has)))
    rw [cutBlock_eq plain'.free room.mapping_ne_nil] at settled
    have traced := ((grown.rewrites_storeAll (grown.cutWrites source destination)).tracked
      lawful'.tracked).traced
    have moved := moved_preserves_iff lawful'.tracked plain' lawful'.tidy lawful'.inside room
      (separates.growSheet ..) shifts (fun _ _ => clean ▸ Std.ExtTreeSet.not_mem_empty) traced settled
    refine ⟨fun x vacant apart => lawful'.vacant_after_pass room settled vacant apart,
      fun x moves apart => lawful'.vacant_of_source room settled moves apart, ?_⟩
    have same : ∀ x, grown.formulaValue x = g.formulaValue x := formulaValue_growSheet _ _ _
    simp only [same] at moved
    refine Iff.trans (and_congr_left' (forall_congr' fun x => forall_congr' fun moves => ?_)) moved
    rw [kind.place_advance moves]
    rfl
  · obtain ⟨left, empty, same⟩ :=
      pass_behind_last lawful plain clean found first sized settled
        (Nat.le_antisymm reached (Nat.lt_of_not_le within))
    have behind : ∀ x, source.contains x = true → kind.OnOrAfter sheet line x := fun x moves =>
      kind.onOrAfter_of_contains positive (g.reaches_extent kind sheet line) moves
    refine ⟨fun x vacant _ => left x vacant, fun x moves _ => left x (empty x (behind x moves)),
      iff_of_true ⟨fun x moves => ?_, fun x _ _ => (same x).2⟩
        ⟨fun x moves => lawful.value_eq_of_vacant (empty x (behind x moves)), ?_⟩⟩
    · have next := (LineKind.onOrAfter_next.mpr (behind x moves)).of_succ
      rw [(left _ (empty _ next)).2, (empty x (behind x moves)).2]
    · exact fun x _ _ changed => absurd (same x).1 changed

/-- **What a pass after an insertion makes of the values.** -/
theorem values_after_insertion :
    (∀ x, kind.On sheet line x → p.grid.Vacant x) ∧
      ((∀ x, ¬ kind.OnOrAfter sheet line x → p.grid.value x = g.value x) ∧
          (∀ x, kind.OnOrAfter sheet line x → p.grid.value (kind.next x) = g.value x) ↔
        (∀ x, ¬ kind.OnOrAfter sheet line x → p.grid.formula x ≠ g.formula x →
            g.value x = g.formulaValue x) ∧
          ∀ x, kind.OnOrAfter sheet line x → g.value x = g.formulaValue x) := by
  let source := g.reach kind sheet line
  let destination := kind.advance source
  obtain ⟨left, emptied, preserved⟩ :=
    pass_of_insertion lawful plain clean found positive first sized settled reached signed separates
  have reaches := g.reaches_extent kind sheet line
  have empty : ∀ x, kind.OnOrAfter sheet line x → source.contains x = false → g.Vacant x :=
    fun x => vacant_of_not_reach lawful plain clean positive
  have behind : ∀ x, source.contains x = true → kind.OnOrAfter sheet line x := fun x =>
    kind.onOrAfter_of_contains positive reaches
  have covered : ∀ x, (image source destination).contains x = true →
      kind.OnOrAfter sheet (line + 1) x := by
    intro x inside
    obtain ⟨z, moves, rfl⟩ := (kind.contains_image_advance x).mp inside
    exact LineKind.onOrAfter_next.mpr (behind z moves)
  have next_empty : ∀ x, kind.OnOrAfter sheet line x → source.contains x = false →
      p.grid.Vacant (kind.next x) := by
    intro x after stays
    have next := (LineKind.onOrAfter_next.mpr after).of_succ
    refine left _ (empty _ next (Bool.eq_false_iff.mpr fun moves => ?_))
      (Bool.eq_false_iff.mpr fun inside => ?_)
    · exact absurd ((kind.contains_tail_of_next positive reaches after moves).symm.trans stays) nofun
    · obtain ⟨z, moves, same⟩ := (kind.contains_image_advance _).mp inside
      rw [kind.next_injective same, stays] at moves
      exact absurd moves nofun
  constructor
  · rintro x ⟨here, rfl⟩
    have apart : (image source destination).contains x = false :=
      Bool.eq_false_iff.mpr fun inside => Nat.not_succ_le_self _ (covered x inside).2
    cases moves : source.contains x with
    | true => exact emptied x moves apart
    | false => exact left x (empty x ⟨here, Nat.le_refl _⟩ moves) apart
  · have before : ∀ x, ¬ kind.OnOrAfter sheet line x →
        source.contains x = false ∧ (image source destination).contains x = false := by
      intro x front
      refine ⟨Bool.eq_false_iff.mpr fun moves => front (behind x moves),
        Bool.eq_false_iff.mpr fun inside => front (covered x inside).of_succ⟩
    rw [forall_before_and_after_iff behind before, forall_before_and_after_iff behind before] at preserved
    · exact preserved
    · intro x after stays
      exact lawful.value_eq_of_vacant (empty x after (Bool.eq_false_iff.mpr stays))
    · intro x after stays _ _
      exact lawful.value_eq_of_vacant (empty x after stays)
    · intro x after stays
      have stays := Bool.eq_false_iff.mpr stays
      rw [(next_empty x after stays).2, (empty x after stays).2]
    · intro x after stays apart
      have vacant := empty x after stays
      rw [(left x vacant apart).2, vacant.2]

end

/-! ### When an insertion preserves all values -/

/-- **When an insertion preserves all values.**  Let nothing be dirty after a history in which no name of
a removed sheet is used again, and let the grid be plain.  Only the cells from the new line on move that
are within reach of the content there.  Let the formulas read none of the cells on which these are laid
out and which do not move themselves, and let each range lie in what moves or beside it.  Then an
insertion that is accepted and not cancelled leaves the new line vacant.  It preserves the values of all
cells in front of the line and moves those from there on by a line, if and only if the cells that move
and those whose formulas it changes have just the values of their formulas.  All formulas must lie inside
their sheets, and the sheet must not become too large for unsigned coordinates, nor for signed ones if a
formula reads a range that moves. -/
theorem insert_preserves_iff (options : Options) (history : List Action)
    (fresh : NeverReuses options history) (contained : (ofHistory options history).Contained)
    {hooks : Hooks} {kind : LineKind} {edit : LineEdit} {id : CellId} {g' : Grid} {outcome : Outcome}
    (inserts : edit ≠ .delete)
    (clean : (ofHistory options history).dirty = ∅) (plain : (ofHistory options history).Plain)
    (accepted : (ofHistory options history).apply hooks (.line kind edit id) = .ok (g', outcome))
    (completed : outcome.report.cancelled = false)
    (separates : let moved := (ofHistory options history).reach kind id.sheet (edit.inserted kind id)
      (ofHistory options history).Separates moved (kind.advance moved))
    (sized : (ofHistory options history).GrowsBelow kind id.sheet (coordinateLimit - 1))
    (signed : ∀ y, HasRangeIn
      ((ofHistory options history).reach kind id.sheet (edit.inserted kind id)) y.sheet
        (ofHistory options history).directory ((ofHistory options history).formula y) →
          (ofHistory options history).GrowsBelow kind id.sheet signedLimit) :
    let g := ofHistory options history
    let line := edit.inserted kind id
    (∀ x, kind.On id.sheet line x → g'.Vacant x) ∧
      ((∀ x, ¬ kind.OnOrAfter id.sheet line x → g'.value x = g.value x) ∧
          (∀ x, kind.OnOrAfter id.sheet line x → g'.value (kind.next x) = g.value x) ↔
        (∀ x, ¬ kind.OnOrAfter id.sheet line x → g'.formula x ≠ g.formula x →
            g.value x = g.formulaValue x) ∧
          ∀ x, kind.OnOrAfter id.sheet line x → g.value x = g.formulaValue x) := by
  intro g line
  have lawful := lawful_ofHistory fresh contained
  obtain ⟨s, found, inside, first, written, invalidate, done⟩ := apply_line accepted
  have positive : 1 ≤ line := Nat.le_add_right_of_le inside.1
  have reached : line ≤ kind.count s.bounds + 1 := edit.inserted_le inside.2
  have room : kind.count s.bounds + 2 < coordinateLimit := by
    obtain ⟨rows, cols⟩ := sized s.bounds (bounds?_of_sheet found)
    cases kind <;> simp only [LineKind.grown, LineKind.count] at rows cols ⊢ <;> omega
  rw [(contained.containedIf True).editLine_insert found inserts rfl inside.2 first room] at done
  let grown := g.lengthen kind id.sheet s.bounds
  have lawful' : grown.Lawful (removedNames options history) := lawful.growSheet ..
  have wired : (grown.cutBlock (g.reach kind id.sheet line)
      (kind.advance (g.reach kind id.sheet line))).1.Wired := lawful'.wired_cutBlock _ _
  obtain ⟨rfl, report⟩ := finish_of_idle wired
    ((waiting_cutBlock (g := grown) plain.free).trans lawful'.idle) done
  rw [report] at completed
  obtain ⟨order, p, settled, ends⟩ := exists_settled wired.linked completed
  rw [show (Grid.recompute _ hooks).1 = p.grid from ends]
  exact values_after_insertion lawful plain clean found positive first sized settled reached signed
    separates

theorem insert_preserves_iff_sum :
    let history : List Action := [.edit {} (.set ⟨0, 1, 2⟩ "=SUM(A2:A3)"),
      .edit {} (.set ⟨0, 3, 1⟩ "3"), .edit {} (.set ⟨0, 2, 1⟩ "2")]
    let g := ofHistory {} history
    let moved := g.reach .row 0 2
    NeverReuses {} history ∧ g.Contained ∧ g.dirty = ∅ ∧ g.Plain ∧ LineEdit.insertAfter ≠ .delete ∧
      g.Separates moved (LineKind.row.advance moved) ∧ g.GrowsBelow .row 0 (coordinateLimit - 1) ∧
        g.GrowsBelow .row 0 signedLimit ∧ ∃ g' outcome,
          g.apply {} (.line .row .insertAfter ⟨0, 1, 1⟩) = .ok (g', outcome) ∧
            outcome.report.cancelled = false ∧
            (∀ x, ¬ LineKind.row.OnOrAfter 0 2 x → g'.value x = g.value x) ∧
            ∀ x, LineKind.row.OnOrAfter 0 2 x → g'.value (LineKind.row.next x) = g.value x := by
  intro history g moved
  have fresh : NeverReuses {} history := ⟨⟨⟨trivial, nofun⟩, nofun⟩, nofun⟩
  have clean : g.dirty = ∅ := by decide +kernel
  have plain : g.Plain := plain_of_stored CellId.col (by decide +kernel) (by decide +kernel)
  have known : g.directory.bounds? 0 = some ⟨100, 15⟩ := by decide +kernel
  have sized : g.GrowsBelow .row 0 (coordinateLimit - 1) := growsBelow_of_bounds known (by decide)
  have signed : g.GrowsBelow .row 0 signedLimit := growsBelow_of_bounds known (by decide)
  have separates : g.Separates moved (LineKind.row.advance moved) :=
    separates_of_stored (by decide +kernel)
  obtain ⟨g', outcome, accepted, completed⟩ :=
    exists_of_apply g {} (.line .row .insertAfter ⟨0, 1, 1⟩) (by decide +kernel)
  have exact : ∀ x, g.value x = g.formulaValue x := value_eq_of_stored (by decide +kernel)
  have small : StaysSmall {} history := by decide +kernel
  have contained : g.Contained := contained_ofHistory small
  obtain ⟨-, preserved⟩ := insert_preserves_iff {} history fresh contained (by decide) clean plain
    accepted completed separates sized fun _ _ => signed
  exact ⟨fresh, contained, clean, plain, by decide, separates, sized, signed, g', outcome, accepted, completed,
    preserved.mpr ⟨fun x _ _ => exact x, fun x _ => exact x⟩⟩

/-- Some range has cells in front of a line and cells from there on. -/
def Crossed (g : Grid) (kind : LineKind) (sheet line : Nat) : Prop :=
  ∃ y, ∃ m ∈ mentions (g.formula y), ∃ r, m.1 = .range r ∧
    ∃ s, m.1.sheet? y.sheet g.directory = some s ∧
      (∃ x ∈ m.1.cellsOn s, kind.OnOrAfter sheet line x) ∧
        ∃ x ∈ m.1.cellsOn s, ¬ kind.OnOrAfter sheet line x

theorem not_crossed_of_stored {kind : LineKind} {sheet line : Nat}
    (references : (g.cells.toList.all fun p => (mentions p.2.formula).all fun m =>
      (m.1.sheet? p.1.sheet g.directory).all fun s =>
        (m.1.cellsOn s).all (kind.OnOrAfter sheet line ·) ||
          (m.1.cellsOn s).all (¬ kind.OnOrAfter sheet line ·)) = true) :
    ¬ g.Crossed kind sheet line := by
  have apart := forall_mentions (P := fun y m => (m.sheet? y.sheet g.directory).all fun s =>
    (m.cellsOn s).all (kind.OnOrAfter sheet line ·) ||
      (m.cellsOn s).all (¬ kind.OnOrAfter sheet line ·)) references
  simp only [Option.all_eq_true, Bool.or_eq_true, List.all_eq_true, decide_eq_true_eq] at apart
  rintro ⟨y, m, hm, -, -, s, found, ⟨x, hx, after⟩, z, hz, front⟩
  rcases apart y m hm s found with all | none
  · exact front (all z hz)
  · exact none x hx after

/-- A range that lies behind the new line and goes on beyond the content there does not move, so that a
formula in front of the line changes its value. -/
theorem not_preserved_of_reach :
    ¬ ∀ (options : Options) (history : List Action) (kind : LineKind) (edit : LineEdit) (id : CellId)
      (g' : Grid) (outcome : Outcome), NeverReuses options history →
        (ofHistory options history).dirty = ∅ → (ofHistory options history).Plain →
          edit ≠ .delete →
            (ofHistory options history).apply {} (.line kind edit id) = .ok (g', outcome) →
              ¬ (ofHistory options history).Crossed kind id.sheet (edit.inserted kind id) →
                (ofHistory options history).GrowsBelow kind id.sheet signedLimit →
                  ∀ x, ¬ kind.OnOrAfter id.sheet (edit.inserted kind id) x →
                    g'.value x = (ofHistory options history).value x := by
  intro all
  let history : List Action :=
    [.edit {} (.set ⟨0, 1, 2⟩ "=SUM(A5:D5)"), .edit {} (.set ⟨0, 5, 1⟩ "7")]
  have fresh : NeverReuses {} history := ⟨⟨trivial, nofun⟩, nofun⟩
  have known : (ofHistory {} history).directory.bounds? 0 = some ⟨100, 15⟩ := by decide +kernel
  obtain ⟨g', outcome, accepted, -⟩ := exists_of_apply (ofHistory {} history) {}
    (.line .row .insertBefore ⟨0, 5, 1⟩) (by decide +kernel)
  have same := all {} history .row .insertBefore ⟨0, 5, 1⟩ g' outcome fresh (by decide +kernel)
    (plain_of_stored (fun x => if x = ⟨0, 1, 2⟩ then 1 else 0) (by decide +kernel)
      (by decide +kernel)) (by decide) accepted (not_crossed_of_stored (by decide +kernel))
    (growsBelow_of_bounds known (by decide)) ⟨0, 1, 2⟩ (by decide)
  have after :
      ofHistory {} (.edit {} (.line .row .insertBefore ⟨0, 5, 1⟩) :: history) = g' := by
    rw [ofHistory, perform, accepted]
  rw [← after] at same
  revert same
  decide +kernel

end Grid

end Spreadsheet
