import Spreadsheet.Proofs.Grid.LineEdits

/-!
# Deleted lines

A deletion makes a line blank and cuts all that comes after it one line back.

* `Grid.mem_of_dirty_storeAll`: only what is written is dirty afterwards, if nothing else reads it.
* `Grid.contains_line_of_dirty`: only the line is dirty when it is blank.
* `Grid.separates_cleared`: its ranges lie in front of the line or behind it.
* `Grid.delete_preserves_iff`: when a deletion disturbs no value.
-/

namespace Spreadsheet

open Formula Range

namespace Grid

variable {removed : List String} {g : Grid}

/-! ### Cells that nothing else reads -/

section

variable {L : Set CellId}

theorem mem_of_dirty_store (wired : g.Wired) {id : CellId} (c : Cell) (here : id ∈ L)
    (closed : ∀ x ∈ L, ∀ y, g.Edge x y → y ∈ L) (dirty : ∀ x ∈ g.dirty, x ∈ L) {x : CellId}
    (mem : x ∈ (g.store id c).dirty) : x ∈ L := by
  rw [mem_dirty_store] at mem
  rcases mem with mem | path
  · exact dirty x mem
  · induction path with
    | refl => exact here
    | @tail y z _ reader ih =>
      by_cases self : y = z
      · exact self ▸ ih
      · have edge : (g.store id c).Edge y z := (wired.store id c).back y z self reader
        by_cases written : z = id
        · exact written ▸ here
        · exact closed y ih z ((edge_store_of_ne id c written).mp edge)

/-- Only the cells of a set are dirty after cells of the set are written, if no others read the set. -/
theorem mem_of_dirty_storeAll (wired : g.Wired) {writes : List (CellId × Cell)}
    (here : ∀ w ∈ writes, w.1 ∈ L) (closed : ∀ x ∈ L, ∀ y, g.Edge x y → y ∈ L)
    (dirty : ∀ x ∈ g.dirty, x ∈ L) {x : CellId} (mem : x ∈ (g.storeAll writes).dirty) : x ∈ L := by
  induction writes generalizing g with
  | nil => exact dirty x mem
  | cons head writes ih =>
    obtain ⟨id, c⟩ := head
    have first : id ∈ L := here _ List.mem_cons_self
    refine ih (wired.store id c) (fun w hw => here w (List.mem_cons_of_mem _ hw)) ?_
      (fun x mem => mem_of_dirty_store wired c first closed dirty mem) mem
    intro x hx y edge
    by_cases written : y = id
    · exact written ▸ first
    · exact closed x hx y ((edge_store_of_ne id c written).mp edge)

end

theorem Contained.has_of_reads (h : g.Contained) {home : Nat} {directory : Directory} {x y : CellId}
    (reads : Formula.Reads home directory (g.formula y) x) : g.Has y := by
  refine h y fun empty => ?_
  rw [empty] at reads
  exact not_reads_of_mentions_eq_nil mentions_empty x reads

theorem Inside.has_of_reads (h : g.Inside) {x y : CellId} (reads : g.FormulaReads x y) : g.Has x := by
  obtain ⟨free, m, hm, sheet, found, mem⟩ := reads
  exact has_of_isInside (sound_of_mem_mentions hm).positive (h y free m hm sheet found) mem

/-! ### Blank cells -/

section

variable (ids : List CellId)

theorem formula_clearAll {x : CellId} (mem : x ∈ ids) :
    (g.clearAll ids).1.formula x = "" ∧ (g.clearAll ids).1.value x = .text "" := by
  rw [clearAll_eq]
  have only : ∀ c, (x, c) ∈ ids.map (·, Cell.blank) → c = .blank := by
    intro c written
    obtain ⟨_, -, same⟩ := List.mem_map.mp written
    cases same
    rfl
  refine storeAll_of_mem (List.mem_map.mpr ⟨x, mem, rfl⟩) only rfl ?_
  intro m hm
  rw [show Cell.blank.formula = "" from rfl, mentions_empty] at hm
  exact absurd hm nofun

theorem clearAll_of_not_mem {x : CellId} (other : x ∉ ids) :
    (g.clearAll ids).1.formula x = g.formula x ∧ (g.clearAll ids).1.value x = g.value x := by
  rw [clearAll_eq]
  refine storeAll_of_not_mem fun c written => ?_
  obtain ⟨_, mem, same⟩ := List.mem_map.mp written
  cases same
  exact other mem

theorem directory_clearAll : (g.clearAll ids).1.directory = g.directory := by
  rw [clearAll_eq, storeAll_directory]

/-- A cell whose formula has references after some cells are made blank is none of them. -/
theorem formula_of_mem_clearAll {y : CellId} {m : Mention × List Char}
    (mem : m ∈ mentions ((g.clearAll ids).1.formula y)) :
    y ∉ ids ∧ (g.clearAll ids).1.formula y = g.formula y := by
  have kept : y ∉ ids := by
    intro blank
    rw [(formula_clearAll ids blank).1, mentions_empty] at mem
    exact absurd mem nofun
  exact ⟨kept, (clearAll_of_not_mem ids kept).1⟩

theorem Plain.clearAll (h : g.Plain) : (g.clearAll ids).1.Plain := by
  have formulas : ∀ {P : String → Prop}, P "" → ∀ x, P (g.formula x) →
      P ((g.clearAll ids).1.formula x) := by
    intro P none x same
    by_cases mem : x ∈ ids
    · rwa [(formula_clearAll ids mem).1]
    · rwa [(clearAll_of_not_mem ids mem).1]
  have free : ∀ x, ((g.clearAll ids).1.cell x).isFilling = false := by
    intro x
    by_cases mem : x ∈ ids
    · exact isFilling_eq_of_value_eq (d := .blank) (formula_clearAll ids mem).2
    · exact (isFilling_eq_of_value_eq (clearAll_of_not_mem ids mem).2).trans (h.free x)
  refine ⟨free, fun x => formulas (P := fun f => ¬ CallsRandom f) (by decide +kernel) x (h.noRandom x),
    fun x => ?_, fun x cycle => h.acyclic x ?_⟩
  · rw [directory_clearAll]
    refine formulas (P := fun f => ∀ m ∈ mentions f, (m.1.sheet? x.sheet g.directory).isSome = true)
      ?_ x (h.resolved x)
    rw [mentions_empty]
    exact nofun
  · refine Relation.TransGen.mono (fun a b reads => ?_) _ _ cycle
    obtain ⟨-, m, hm, reads⟩ := reads
    rw [(formula_of_mem_clearAll ids hm).2] at hm
    rw [directory_clearAll] at reads
    exact ⟨h.free b, m, hm, reads⟩

end

/-! ### The cleared line -/

variable {kind : LineKind} {sheet line : Nat} {s : Sheet}

theorem cleared_of_contains {size : Bounds} {x : CellId}
    (here : (kind.line sheet line size).contains x = true) :
    (g.cleared kind sheet line size).formula x = "" ∧
      (g.cleared kind sheet line size).value x = .text "" :=
  formula_clearAll _ ((mem_cells_iff _ x).mpr here)

theorem cleared_of_not_contains {size : Bounds} {x : CellId}
    (apart : (kind.line sheet line size).contains x = false) :
    (g.cleared kind sheet line size).formula x = g.formula x ∧
      (g.cleared kind sheet line size).value x = g.value x :=
  clearAll_of_not_mem _ ((mem_cells_iff _ x).not.mpr (Bool.eq_false_iff.mp apart))

theorem vacant_cleared {size : Bounds} {x : CellId}
    (vacant : (kind.line sheet line size).contains x = false → g.Vacant x) :
    (g.cleared kind sheet line size).Vacant x := by
  cases here : (kind.line sheet line size).contains x with
  | true =>
    obtain ⟨formula, value⟩ := cleared_of_contains here
    exact ⟨isBlank_of_isEmptyText (Or.inl formula), value⟩
  | false =>
    have vacant := vacant here
    obtain ⟨formula, value⟩ := cleared_of_not_contains (g := g) here
    refine ⟨?_, value.trans vacant.2⟩
    rw [isBlank_iff, formula, ← isBlank_iff]
    exact vacant.1

theorem directory_cleared (size : Bounds) :
    (g.cleared kind sheet line size).directory = g.directory := directory_clearAll _

section

variable (lawful : g.Lawful removed) (plain : g.Plain) (found : g.sheets[sheet]? = some s)
  (positive : 1 ≤ line) (within : line ≤ kind.count s.bounds) (first : 1 ≤ s.rows ∧ 1 ≤ s.cols)
  (unread : ∀ x y, g.FormulaReads x y → kind.On sheet line x → kind.On sheet line y)

include lawful plain found positive within first unread

theorem contains_line_of_edge {x y : CellId} (edge : g.Edge x y)
    (here : (kind.line sheet line s.bounds).contains x = true) :
    (kind.line sheet line s.bounds).contains y = true := by
  rw [contains_line_iff found positive within first] at here ⊢
  have reads : g.FormulaReads x y := plain.edge_eq lawful.tracked.traced ▸ edge
  exact ⟨unread x y reads here.1, lawful.contained.has_of_reads reads.2⟩

/-- What is read after the line is made blank is read by the same formula as before, and neither the
cell nor its reader is on the line. -/
theorem reads_of_cleared {x y : CellId} {m : Mention × List Char} {sheet' : Nat}
    (hm : m ∈ mentions ((g.cleared kind sheet line s.bounds).formula y))
    (resolved : m.1.sheet? y.sheet g.directory = some sheet') (mem : x ∈ m.1.cellsOn sheet') :
    g.Has x ∧ ¬ kind.On sheet line x := by
  obtain ⟨kept, same⟩ := formula_of_mem_clearAll _ hm
  rw [cleared, same] at hm
  have reads : g.FormulaReads x y := ⟨plain.free y, m, hm, sheet', resolved, mem⟩
  refine ⟨lawful.inside.has_of_reads reads, fun on => kept ?_⟩
  rw [mem_cells_iff, contains_line_iff found positive within first]
  exact ⟨unread x y reads on, lawful.contained.has_of_reads reads.2⟩

theorem formulaValue_cleared {y : CellId}
    (apart : (kind.line sheet line s.bounds).contains y = false) :
    (g.cleared kind sheet line s.bounds).formulaValue y = g.formulaValue y := by
  refine lawful.tracked.traced.formulaValue_eq (plain.free y) (cleared_of_not_contains apart).1
    (fun m _ => by rw [directory_cleared]) ?_
  intro x edge
  refine (cleared_of_not_contains (Bool.eq_false_iff.mpr fun here => ?_)).2
  have covered :=
    contains_line_of_edge lawful plain found positive within first unread edge here
  exact absurd (covered.symm.trans apart) nofun

theorem contains_line_of_dirty (clean : g.dirty = ∅) {x : CellId}
    (dirty : x ∈ (g.cleared kind sheet line s.bounds).dirty) :
    (kind.line sheet line s.bounds).contains x = true := by
  rw [cleared, clearAll_eq] at dirty
  refine mem_of_dirty_storeAll (L := {x | (kind.line sheet line s.bounds).contains x = true})
    lawful.tracked.regular.wired ?_ ?_ ?_ dirty
  · intro w hw
    obtain ⟨x, hx, rfl⟩ := List.mem_map.mp hw
    exact (mem_cells_iff _ x).mp hx
  · exact fun x here y edge =>
      contains_line_of_edge lawful plain found positive within first unread edge here
  · intro x dirty
    rw [clean] at dirty
    exact absurd dirty Std.ExtTreeSet.not_mem_empty

end

/-! ### What comes after the line -/

section

variable (found : g.sheets[sheet]? = some s) (positive : 1 ≤ line)
  (later : line < kind.count s.bounds) (first : 1 ≤ s.rows ∧ 1 ≤ s.cols)

include later first

/-- Something is laid out on a cell from the line on if the grid has the next one. -/
theorem contains_image_behind_iff (found : g.sheets[sheet]? = some s) (x : CellId) :
    (image (behind kind sheet line s.bounds) (single (kind.head sheet line))).contains x = true ↔
      kind.OnOrAfter sheet line x ∧ g.Has (kind.next x) := by
  rw [behind, LineKind.contains_image_head (reaches_behind later first), ← behind,
    contains_behind_iff later first found, LineKind.onOrAfter_next]

include positive

/-- The line is what is overwritten when all that comes after it moves back. -/
theorem isOverwritten_behind_iff (x : CellId) :
    IsOverwritten (behind kind sheet line s.bounds) (single (kind.head sheet line)) x ↔
      (kind.line sheet line s.bounds).contains x = true := by
  have reaches := reaches_behind later first
  rw [IsOverwritten, behind, LineKind.contains_image_head reaches, ← Bool.not_eq_true,
    LineKind.contains_tail (Nat.le_add_left 1 line) reaches,
    LineKind.contains_tail (Nat.le_add_left 1 line) reaches,
    LineKind.contains_line positive (Nat.le_of_lt later) first.1 first.2]
  cases kind <;> simp only [LineKind.next, LineKind.index, LineKind.count] at later ⊢ <;> omega

/-- From the line on, the sheet has no cells that neither move nor are overwritten. -/
theorem not_has_of_untouched (found : g.sheets[sheet]? = some s) {x : CellId}
    (after : kind.OnOrAfter sheet line x)
    (stays : (behind kind sheet line s.bounds).contains x = false)
    (apart : (image (behind kind sheet line s.bounds) (single (kind.head sheet line))).contains x =
      false) : ¬ g.Has x := by
  intro has
  rcases Nat.eq_or_lt_of_le after.2 with on | behind
  · have here := (contains_line_iff found positive (Nat.le_of_lt later) first x).mpr
      ⟨⟨after.1, on.symm⟩, has⟩
    rw [← isOverwritten_behind_iff positive later first] at here
    exact absurd (here.1.symm.trans apart) nofun
  · have inside := (contains_behind_iff later first found x).mpr ⟨⟨after.1, behind⟩, has⟩
    exact absurd (inside.symm.trans stays) nofun

theorem not_on_line_of_behind {x : CellId}
    (moves : (behind kind sheet line s.bounds).contains x = true) :
    (kind.line sheet line s.bounds).contains x = false :=
  Bool.eq_false_iff.mpr fun here => absurd
    (moves.symm.trans ((isOverwritten_behind_iff positive later first x).mpr here).2) nofun

theorem not_on_line_of_apart {x : CellId}
    (apart : (image (behind kind sheet line s.bounds) (single (kind.head sheet line))).contains x =
      false) : (kind.line sheet line s.bounds).contains x = false :=
  Bool.eq_false_iff.mpr fun here => absurd
    (apart.symm.trans ((isOverwritten_behind_iff positive later first x).mpr here).1) nofun

omit positive later first in
theorem area_single (x : CellId) : (single x).area = 1 := by
  have one : (single x).rowCount = 1 ∧ (single x).colCount = 1 := by
    simp [rowCount, colCount, single, Range.top, Range.left, Range.bottom, Range.right]
  rw [area, height, width, one.1, one.2]
  decide

/-- There is room for what comes after the line where the line was. -/
theorem hasRoom_behind (found : g.sheets[sheet]? = some s)
    (sized : s.rows < coordinateLimit ∧ s.cols < coordinateLimit)
    (counted : 1 ≤ (behind kind sheet line s.bounds).area) :
    g.HasRoom (behind kind sheet line s.bounds) (single (kind.head sheet line)) := by
  have reaches : kind.Reaches (line + 1) s.bounds.rows s.bounds.cols := reaches_behind later first
  obtain ⟨top, left, bottom, right⟩ := LineKind.corners_tail sheet reaches
  have known : g.directory.bounds? sheet = some s.bounds := bounds?_of_sheet found
  have corner : (single (kind.head sheet line)).top = (kind.head sheet line).row ∧
      (single (kind.head sheet line)).left = (kind.head sheet line).col :=
    ⟨Nat.min_self _, Nat.min_self _⟩
  refine ⟨(area_single _).trans_le counted, ?_, ?_⟩
  · have placed : g.directory.bounds? (image (behind kind sheet line s.bounds)
        (single (kind.head sheet line))).sheet = some s.bounds := by
      show g.directory.bounds? (single (kind.head sheet line)).sheet = _
      rw [kind.sheet_single_head, known]
    refine checkRange_of_bounds placed ?_ ?_
    · rw [image_top, image_left, corner.1, corner.2]
      exact kind.one_le_head sheet positive
    · rw [image_bottom, image_right, corner.1, corner.2, behind, top, left, bottom, right]
      cases kind <;> simp only [LineKind.head, LineKind.count, Sheet.bounds] at later ⊢ <;> omega
  · rw [kind.sheet_single_head, known]
    rintro _ ⟨⟩
    exact sized

end

theorem exists_on_line {r : WrittenRange} {x y : CellId}
    (hx : x ∈ (Mention.range r).cellsOn sheet) (hy : y ∈ (Mention.range r).cellsOn sheet)
    (front : kind.index x ≤ line) (after : line ≤ kind.index y) :
    ∃ z ∈ (Mention.range r).cellsOn sheet, kind.On sheet line z := by
  rw [Mention.mem_cellsOn] at hx hy
  obtain ⟨here, top, bottom, left, right⟩ := hx
  obtain ⟨-, top', bottom', left', right'⟩ := hy
  cases kind with
  | row =>
    refine ⟨⟨sheet, line, x.col⟩, ?_, rfl, rfl⟩
    rw [Mention.mem_cellsOn]
    exact ⟨rfl, Nat.le_trans top front, Nat.le_trans after bottom', left, right⟩
  | column =>
    refine ⟨⟨sheet, x.row, line⟩, ?_, rfl, rfl⟩
    rw [Mention.mem_cellsOn]
    exact ⟨rfl, top, bottom, Nat.le_trans left front, Nat.le_trans after right'⟩

section

variable (lawful : g.Lawful removed) (plain : g.Plain) (found : g.sheets[sheet]? = some s)
  (positive : 1 ≤ line) (later : line < kind.count s.bounds) (first : 1 ≤ s.rows ∧ 1 ≤ s.cols)
  (unread : ∀ x y, g.FormulaReads x y → kind.On sheet line x → kind.On sheet line y)

include lawful plain found positive later first unread

/-- **The ranges that are left when the line is blank lie in front of it or behind it.** -/
theorem separates_cleared :
    (g.cleared kind sheet line s.bounds).Separates (behind kind sheet line s.bounds)
      (single (kind.head sheet line)) := by
  have left : ∀ {x y : CellId} {m : Mention × List Char} {sheet' : Nat},
      m ∈ mentions ((g.cleared kind sheet line s.bounds).formula y) →
        m.1.sheet? y.sheet g.directory = some sheet' → x ∈ m.1.cellsOn sheet' →
          g.Has x ∧ ¬ kind.On sheet line x :=
    reads_of_cleared lawful plain found positive (Nat.le_of_lt later) first unread
  constructor
  · rintro x y - ⟨-, m, hm, sheet', resolved, mem⟩ lost
    rw [directory_cleared] at resolved
    rw [isOverwritten_behind_iff positive later first,
      contains_line_iff found positive (Nat.le_of_lt later) first] at lost
    exact (left hm resolved mem).2 lost.1
  · intro y _ m hm r same sheet' resolved
    rw [directory_cleared] at resolved
    by_cases some : ∃ x ∈ m.1.cellsOn sheet', (behind kind sheet line s.bounds).contains x = true
    · obtain ⟨x, hx, inside⟩ := some
      left
      intro z hz
      rw [contains_behind_iff later first found] at inside ⊢
      have here : sheet' = sheet := ((m.1.mem_cellsOn sheet' x).mp hx).1.symm.trans inside.1.1
      subst here
      refine ⟨⟨((m.1.mem_cellsOn _ z).mp hz).1, ?_⟩, (left hm resolved hz).1⟩
      by_contra front
      rw [same] at hx hz
      have above : kind.index z ≤ line := by omega
      obtain ⟨w, hw, on⟩ := exists_on_line hz hx above (Nat.le_of_succ_le inside.1.2)
      exact (left hm resolved (same ▸ hw)).2 on
    · right
      intro x hx
      exact Bool.eq_false_iff.mpr fun inside => some ⟨x, hx, inside⟩

end

/-- Ranges go where their cells go if some formula names one and the coordinates are signed. -/
theorem shifts_cleared (found : g.sheets[sheet]? = some s) (later : line < kind.count s.bounds)
    (first : 1 ≤ s.rows ∧ 1 ≤ s.cols)
    (signed : ∀ y, HasRangeIn (behind kind sheet line s.bounds) y.sheet g.directory (g.formula y) →
      s.rows < signedLimit ∧ s.cols < signedLimit)
    (room : (g.cleared kind sheet line s.bounds).HasRoom (behind kind sheet line s.bounds)
      (single (kind.head sheet line))) {y : CellId}
    (has : HasRangeIn (behind kind sheet line s.bounds) y.sheet
      (g.cleared kind sheet line s.bounds).directory
        ((g.cleared kind sheet line s.bounds).formula y)) :
    ((g.cleared kind sheet line s.bounds).cutTo (behind kind sheet line s.bounds)
      (single (kind.head sheet line))).Shifts (single (kind.head sheet line))
        (g.cleared kind sheet line s.bounds).directory := by
  refine room.shifts ?_
  obtain ⟨m, hm, rest⟩ := has
  rw [cleared, (formula_of_mem_clearAll _ hm).2] at hm
  rw [directory_cleared] at rest
  have limits := signed y ⟨m, hm, rest⟩
  obtain ⟨-, -, bottom, right⟩ := LineKind.corners_tail sheet (reaches_behind later first)
  refine ⟨?_, ?_⟩
  · rw [behind, bottom, right]
    exact limits
  · rw [directory_cleared, kind.sheet_single_head, bounds?_of_sheet found]
    rintro _ ⟨⟩
    exact limits

/-- A deletion leaves nothing waiting and keeps the sheets. -/
theorem Lawful.deleted (lawful : g.Lawful removed) (plain : g.Plain) (size : Bounds) :
    (g.deleted kind sheet line size).Wired ∧ (g.deleted kind sheet line size).waiting = [] ∧
      (g.deleted kind sheet line size).sheets = g.sheets := by
  have lawful' : (g.cleared kind sheet line size).Lawful removed := lawful.clearAll _
  have kept : (g.cleared kind sheet line size).sheets = g.sheets := (confined_clearAll _).sheets
  refine ⟨?_, ?_, ?_⟩
  · rw [Grid.deleted]
    split
    · exact lawful'.wired_cutBlock _ _
    · exact lawful'.tracked.regular.wired
  · rw [Grid.deleted]
    split
    · exact (waiting_cutBlock (plain.clearAll _).free).trans lawful'.idle
    · exact lawful'.idle
  · rw [Grid.deleted]
    split
    · exact (cutBlock_fields (plain.clearAll _).free).1.trans kept
    · exact kept

/-! ### What a deletion makes of the values -/

section

variable (lawful : g.Lawful removed) (plain : g.Plain) (clean : g.dirty = ∅)
  (found : g.sheets[sheet]? = some s) (positive : 1 ≤ line) (first : 1 ≤ s.rows ∧ 1 ≤ s.cols)
  (unread : ∀ x y, g.FormulaReads x y → kind.On sheet line x → kind.On sheet line y)
  {draws : Draws} {order : List CellId} {p : Pass}

include lawful plain clean found positive first unread

section

variable (later : line < kind.count s.bounds)
  (room : (g.cleared kind sheet line s.bounds).HasRoom (behind kind sheet line s.bounds)
    (single (kind.head sheet line)))
  (settled : Pass.Settled draws ((g.cleared kind sheet line s.bounds).storeAll
    ((g.cleared kind sheet line s.bounds).cutWrites (behind kind sheet line s.bounds)
      (single (kind.head sheet line)))) order p)

include later room settled

omit unread in
theorem vacant_after_deletion {x : CellId} (after : kind.OnOrAfter sheet line x)
    (apart : (image (behind kind sheet line s.bounds) (single (kind.head sheet line))).contains x =
      false) : p.grid.Vacant x := by
  have lawful' : (g.cleared kind sheet line s.bounds).Lawful removed := lawful.clearAll _
  cases moves : (behind kind sheet line s.bounds).contains x with
  | true => exact lawful'.vacant_of_source room settled moves apart
  | false =>
    refine lawful'.vacant_after_pass room settled (vacant_cleared fun _ => ?_) apart
    exact lawful.vacant_of_not_has plain clean
      (not_has_of_untouched positive later first found after moves apart)

/-- When the cells that move and those that stay keep their values. -/
theorem moved_back_iff
    (signed : ∀ y, HasRangeIn (behind kind sheet line s.bounds) y.sheet g.directory (g.formula y) →
      s.rows < signedLimit ∧ s.cols < signedLimit) :
    let source := behind kind sheet line s.bounds
    let destination := single (kind.head sheet line)
    ((∀ z, (image source destination).contains z = true →
          p.grid.value z = g.value (kind.next z)) ∧
        ∀ x, source.contains x = false → (image source destination).contains x = false →
          p.grid.value x = g.value x) ↔
      (∀ z, (image source destination).contains z = true →
          g.value (kind.next z) = g.formulaValue (kind.next z)) ∧
        ∀ x, source.contains x = false → (image source destination).contains x = false →
          p.grid.formula x ≠ g.formula x → g.value x = g.formulaValue x := by
  intro source destination
  let blanked := g.cleared kind sheet line s.bounds
  have reaches : kind.Reaches (line + 1) s.bounds.rows s.bounds.cols := reaches_behind later first
  have within := Nat.le_of_lt later
  have lawful' : blanked.Lawful removed := lawful.clearAll _
  have plain' : blanked.Plain := plain.clearAll _
  have traced := ((blanked.rewrites_storeAll (blanked.cutWrites source destination)).tracked
    lawful'.tracked).traced
  have clean' : ∀ y, ¬ IsOverwritten source destination y → y ∉ blanked.dirty := fun y kept dirty =>
    kept ((isOverwritten_behind_iff positive later first y).mpr
      (contains_line_of_dirty lawful plain found positive within first unread clean dirty))
  have moved := moved_preserves_iff lawful'.tracked plain' lawful'.tidy lawful'.inside room
    (separates_cleared lawful plain found positive later first unread)
    (fun y _ => shifts_cleared found later first signed room) clean' traced settled
  -- What is not on the line is as it was before the line was made blank.
  have kept : ∀ x, (kind.line sheet line s.bounds).contains x = false →
      blanked.formula x = g.formula x ∧ blanked.value x = g.value x ∧
        blanked.formulaValue x = g.formulaValue x := fun x apart =>
    ⟨(cleared_of_not_contains apart).1, (cleared_of_not_contains apart).2,
      formulaValue_cleared lawful plain found positive within first unread apart⟩
  have next_kept : ∀ z, (image source destination).contains z = true →
      blanked.value (kind.next z) = g.value (kind.next z) ∧
        blanked.formulaValue (kind.next z) = g.formulaValue (kind.next z) := fun z covered =>
    (kept _ (not_on_line_of_behind positive later first
      ((LineKind.contains_image_head reaches z).mp covered))).2
  refine Iff.trans (and_congr ?_ ?_) (moved.trans (and_congr ?_ ?_))
  · refine Iff.trans (forall_congr' fun z => forall_congr' fun covered => ?_)
      (LineKind.forall_place_head_iff (P := fun a b => p.grid.value a = blanked.value b)
        reaches).symm
    rw [(next_kept z covered).1]
  · refine forall_congr' fun x => forall_congr' fun _ => forall_congr' fun apart => ?_
    rw [(kept x (not_on_line_of_apart positive later first apart)).2.1]
  · refine (LineKind.forall_place_head_iff
      (P := fun _ b => blanked.value b = blanked.formulaValue b) reaches).trans
        (forall_congr' fun z => forall_congr' fun covered => ?_)
    rw [(next_kept z covered).1, (next_kept z covered).2]
  · refine forall_congr' fun x => forall_congr' fun _ => forall_congr' fun apart => ?_
    obtain ⟨formula, value, own⟩ := kept x (not_on_line_of_apart positive later first apart)
    rw [formula, value, own]

/-- When the cells in front of the line and those from there on keep their values. -/
theorem preserves_iff_of_later
    (signed : ∀ y, HasRangeIn (behind kind sheet line s.bounds) y.sheet g.directory (g.formula y) →
      s.rows < signedLimit ∧ s.cols < signedLimit) :
    (∀ x, ¬ kind.OnOrAfter sheet line x → p.grid.value x = g.value x) ∧
        (∀ x, kind.OnOrAfter sheet line x → p.grid.value x = g.value (kind.next x)) ↔
      (∀ x, ¬ kind.OnOrAfter sheet line x → p.grid.formula x ≠ g.formula x →
          g.value x = g.formulaValue x) ∧
        ∀ x, kind.OnOrAfter sheet line x → g.value (kind.next x) = g.formulaValue (kind.next x) := by
  let source := behind kind sheet line s.bounds
  let target := image source (single (kind.head sheet line))
  have preserved :=
    moved_back_iff lawful plain clean found positive first unread later room settled signed
  have covered_iff : ∀ x, target.contains x = true ↔
      kind.OnOrAfter sheet line x ∧ g.Has (kind.next x) := contains_image_behind_iff later first found
  have empty : ∀ x, kind.OnOrAfter sheet line x → target.contains x = false →
      p.grid.Vacant x ∧ g.Vacant (kind.next x) := fun x after apart =>
    ⟨vacant_after_deletion lawful plain clean found positive first later room settled after apart,
      lawful.vacant_of_not_has plain clean fun has =>
        Bool.eq_false_iff.mp apart ((covered_iff x).mpr ⟨after, has⟩)⟩
  have untouched : ∀ x, kind.OnOrAfter sheet line x → source.contains x = false →
      target.contains x = false → g.Vacant x := fun x after stays apart =>
    lawful.vacant_of_not_has plain clean
      (not_has_of_untouched positive later first found after stays apart)
  have within : ∀ x, target.contains x = true → kind.OnOrAfter sheet line x := fun x inside =>
    ((covered_iff x).mp inside).1
  have before : ∀ x, ¬ kind.OnOrAfter sheet line x →
      source.contains x = false ∧ target.contains x = false := fun x front =>
    ⟨Bool.eq_false_iff.mpr fun moves =>
        front ((contains_behind_iff later first found x).mp moves).1.of_succ,
      Bool.eq_false_iff.mpr fun inside => front (within x inside)⟩
  refine (forall_before_and_after_iff within before ?_ ?_).symm.trans
    (preserved.trans (forall_before_and_after_iff within before ?_ ?_))
  · intro x after apart
    obtain ⟨here, next⟩ := empty x after (Bool.eq_false_iff.mpr apart)
    rw [here.2, next.2]
  · intro x after stays apart
    rw [(empty x after apart).1.2, (untouched x after stays apart).2]
  · exact fun x after apart =>
      lawful.value_eq_of_vacant (empty x after (Bool.eq_false_iff.mpr apart)).2
  · exact fun x after stays apart _ => lawful.value_eq_of_vacant (untouched x after stays apart)

end

theorem pass_of_last_deletion (last : line = kind.count s.bounds)
    (settled : Pass.Settled draws (g.cleared kind sheet line s.bounds) order p) :
    (∀ x, kind.OnOrAfter sheet line x → p.grid.Vacant x ∧ g.Vacant (kind.next x)) ∧
      ∀ x, ¬ kind.OnOrAfter sheet line x →
        p.grid.formula x = g.formula x ∧ p.grid.value x = g.value x := by
  have within := Nat.le_of_eq last
  have lawful' : (g.cleared kind sheet line s.bounds).Lawful removed := lawful.clearAll _
  have on_line := contains_line_iff found positive within first
  refine ⟨fun x after => ⟨?_, ?_⟩, fun x before => ?_⟩
  · refine lawful'.vacant_of_settled settled (vacant_cleared fun apart =>
      lawful.vacant_of_not_has plain clean fun has => ?_)
    have on : kind.index x = line := Nat.le_antisymm (last ▸ has.index_le found after.1) after.2
    exact absurd (((on_line x).mpr ⟨⟨after.1, on⟩, has⟩).symm.trans apart) nofun
  · refine lawful.vacant_of_not_has plain clean fun has => ?_
    have bound : kind.index (kind.next x) ≤ kind.count s.bounds :=
      has.index_le found ((kind.sheet_next x).trans after.1)
    rw [kind.index_next, ← last] at bound
    exact Nat.not_succ_le_self _ (Nat.le_trans bound after.2)
  · have apart : (kind.line sheet line s.bounds).contains x = false := Bool.eq_false_iff.mpr fun here =>
      before ⟨((on_line x).mp here).1.1, Nat.le_of_eq ((on_line x).mp here).1.2.symm⟩
    obtain ⟨formula, value⟩ := cleared_of_not_contains (g := g) apart
    have clean' : x ∉ (g.cleared kind sheet line s.bounds).dirty := fun dirty =>
      absurd ((contains_line_of_dirty lawful plain found positive within first unread clean
        dirty).symm.trans apart) nofun
    exact ⟨(settled.alike.formula x).trans formula,
      (value_eq_of_cells (settled.outside x clean')).trans value⟩

/-- **What a pass after a deletion makes of the values.** -/
theorem values_after_deletion (within : line ≤ kind.count s.bounds)
    (sized : s.rows < coordinateLimit ∧ s.cols < coordinateLimit)
    (counted : line < kind.count s.bounds → 1 ≤ (behind kind sheet line s.bounds).area)
    (signed : ∀ y, HasRangeIn (behind kind sheet line s.bounds) y.sheet g.directory (g.formula y) →
      s.rows < signedLimit ∧ s.cols < signedLimit)
    (settled : Pass.Settled draws (g.deleted kind sheet line s.bounds) order p) :
    (∀ x, kind.On sheet (kind.count s.bounds) x → p.grid.Vacant x) ∧
      ((∀ x, ¬ kind.OnOrAfter sheet line x → p.grid.value x = g.value x) ∧
          (∀ x, kind.OnOrAfter sheet line x → p.grid.value x = g.value (kind.next x)) ↔
        (∀ x, ¬ kind.OnOrAfter sheet line x → p.grid.formula x ≠ g.formula x →
            g.value x = g.formulaValue x) ∧
          ∀ x, kind.OnOrAfter sheet line x → g.value (kind.next x) = g.formulaValue (kind.next x)) := by
  have past_last : ∀ x, kind.On sheet (kind.count s.bounds) x → ¬ g.Has (kind.next x) := by
    intro x on has
    have bound : kind.index (kind.next x) ≤ kind.count s.bounds :=
      has.index_le found ((kind.sheet_next x).trans on.1)
    rw [kind.index_next, on.2] at bound
    exact Nat.not_succ_le_self _ bound
  by_cases later : line < kind.count s.bounds
  · have room : (g.cleared kind sheet line s.bounds).HasRoom (behind kind sheet line s.bounds)
        (single (kind.head sheet line)) :=
      hasRoom_behind positive later first
        ((congrArg (·[sheet]?) (confined_clearAll _).sheets).trans found) sized (counted later)
    have plain' : (g.cleared kind sheet line s.bounds).Plain := plain.clearAll _
    rw [deleted, if_pos later, cutBlock_eq plain'.free room.mapping_ne_nil] at settled
    refine ⟨fun x on => ?_, preserves_iff_of_later lawful plain clean found positive first unread later
      room settled signed⟩
    refine vacant_after_deletion lawful plain clean found positive first later room settled
      ⟨on.1, on.2 ▸ within⟩ (Bool.eq_false_iff.mpr fun inside => past_last x on ?_)
    exact ((contains_image_behind_iff later first found x).mp inside).2
  · rw [deleted, if_neg later] at settled
    have last : line = kind.count s.bounds := Nat.le_antisymm within (Nat.le_of_not_lt later)
    obtain ⟨empty, same⟩ :=
      pass_of_last_deletion lawful plain clean found positive first unread last settled
    refine ⟨fun x on => (empty x ⟨on.1, on.2 ▸ within⟩).1, iff_of_true
      ⟨fun x front => (same x front).2, fun x after => ?_⟩ ⟨fun x front changed => ?_, fun x after => ?_⟩⟩
    · rw [(empty x after).1.2, (empty x after).2.2]
    · exact absurd (same x front).1 changed
    · exact lawful.value_eq_of_vacant (empty x after).2

end

/-! ### Deletions in grids whose cells are listed -/

/-- In a grid whose cells are listed, only the line itself may read the line. -/
theorem unread_of_stored {kind : LineKind} {sheet line : Nat}
    (references : (g.cells.toList.all fun p => (mentions p.2.formula).all fun m =>
      (m.1.sheet? p.1.sheet g.directory).all fun sheet' =>
        (m.1.cellsOn sheet').all fun x => kind.On sheet line x → kind.On sheet line p.1) = true)
    (x y : CellId) (reads : g.FormulaReads x y) (here : kind.On sheet line x) :
    kind.On sheet line y :=
  of_decide_eq_true (forall_reads (P := fun x y => kind.On sheet line x → kind.On sheet line y)
    (forall_mentions (P := fun y m => (m.sheet? y.sheet g.directory).all fun sheet' =>
      (m.cellsOn sheet').all fun x => kind.On sheet line x → kind.On sheet line y) references)
    x y reads) here

/-! ### When a deletion disturbs no value -/

/-- **When a deletion disturbs no value.**  Let nothing be dirty after a history in which no name of a
removed sheet is used again, let the grid be plain, and let only formulas on a line read the line.  Then
a deletion of the line that is accepted and not cancelled keeps the sizes of all sheets and leaves the
last line of its sheet vacant.  It preserves the values of all cells in front of the line and moves those
behind it back by a line, if and only if the cells that move and those whose formulas it changes have
just the values of their formulas.  All formulas must lie inside their sheets; the coordinates of the
sheet must fit 64 bits, and be signed if a formula reads a range that moves; and the word that counts the
cells behind the line must not be 0. -/
theorem delete_preserves_iff (options : Options) (history : List Action)
    (fresh : NeverReuses options history) (contained : (ofHistory options history).Contained)
    {hooks : Hooks} {kind : LineKind} {id : CellId} {g' : Grid} {outcome : Outcome}
    (clean : (ofHistory options history).dirty = ∅)
    (plain : (ofHistory options history).Plain)
    (accepted : (ofHistory options history).apply hooks (.line kind .delete id) = .ok (g', outcome))
    (completed : outcome.report.cancelled = false)
    (unread : ∀ x y, (ofHistory options history).FormulaReads x y →
      kind.On id.sheet (kind.index id) x → kind.On id.sheet (kind.index id) y)
    (sized : ∀ bounds, (ofHistory options history).directory.bounds? id.sheet = some bounds →
      bounds.rows < coordinateLimit ∧ bounds.cols < coordinateLimit)
    (counted : ∀ bounds, (ofHistory options history).directory.bounds? id.sheet = some bounds →
      kind.index id < kind.count bounds → 1 ≤ (behind kind id.sheet (kind.index id) bounds).area)
    (signed : ∀ bounds, (ofHistory options history).directory.bounds? id.sheet = some bounds → ∀ y,
      HasRangeIn (behind kind id.sheet (kind.index id) bounds) y.sheet
        (ofHistory options history).directory ((ofHistory options history).formula y) →
          bounds.rows < signedLimit ∧ bounds.cols < signedLimit) :
    let g := ofHistory options history
    let line := kind.index id
    g'.sheets = g.sheets ∧
      (∀ bounds, g.directory.bounds? id.sheet = some bounds →
        ∀ x, kind.On id.sheet (kind.count bounds) x → g'.Vacant x) ∧
      ((∀ x, ¬ kind.OnOrAfter id.sheet line x → g'.value x = g.value x) ∧
          (∀ x, kind.OnOrAfter id.sheet line x → g'.value x = g.value (kind.next x)) ↔
        (∀ x, ¬ kind.OnOrAfter id.sheet line x → g'.formula x ≠ g.formula x →
            g.value x = g.formulaValue x) ∧
          ∀ x, kind.OnOrAfter id.sheet line x →
            g.value (kind.next x) = g.formulaValue (kind.next x)) := by
  intro g line
  have lawful := lawful_ofHistory fresh contained
  obtain ⟨s, found, ⟨positive, within⟩, first, written, invalidate, done⟩ := apply_line accepted
  rw [editLine_delete] at done
  have known : g.directory.bounds? id.sheet = some s.bounds := bounds?_of_sheet found
  obtain ⟨wired, waiting, sheets⟩ := lawful.deleted plain s.bounds
  obtain ⟨rfl, report⟩ := finish_of_idle wired waiting done
  rw [report] at completed
  obtain ⟨order, p, settled, ends⟩ := exists_settled wired.linked completed
  obtain ⟨vacant, preserved⟩ := values_after_deletion lawful plain clean found positive first unread
    within (sized _ known) (counted _ known) (signed _ known) settled
  rw [ends]
  refine ⟨settled.alike.sheets.trans sheets, ?_, preserved⟩
  rw [known]
  rintro _ ⟨⟩
  exact vacant

theorem delete_preserves_iff_sum :
    let options : Options := { defaultRows := 4, defaultCols := 2 }
    let history : List Action := [.edit {} (.set ⟨0, 1, 2⟩ "=SUM(A3:A4)"),
      .edit {} (.set ⟨0, 4, 1⟩ "4"), .edit {} (.set ⟨0, 3, 1⟩ "3"), .edit {} (.set ⟨0, 2, 1⟩ "2")]
    let g := ofHistory options history
    NeverReuses options history ∧ g.Contained ∧ g.dirty = ∅ ∧ g.Plain ∧
      (∀ x y, g.FormulaReads x y → LineKind.row.On 0 2 x → LineKind.row.On 0 2 y) ∧
        (∀ bounds, g.directory.bounds? 0 = some bounds →
          bounds.rows < signedLimit ∧ bounds.cols < signedLimit) ∧ ∃ g' outcome,
            g.apply {} (.line .row .delete ⟨0, 2, 2⟩) = .ok (g', outcome) ∧
              outcome.report.cancelled = false ∧
              (∀ x, ¬ LineKind.row.OnOrAfter 0 2 x → g'.value x = g.value x) ∧
              ∀ x, LineKind.row.OnOrAfter 0 2 x → g'.value x = g.value (LineKind.row.next x) := by
  intro options history g
  have fresh : NeverReuses options history := ⟨⟨⟨⟨trivial, nofun⟩, nofun⟩, nofun⟩, nofun⟩
  have clean : g.dirty = ∅ := by decide +kernel
  have plain : g.Plain := plain_of_stored CellId.col (by decide +kernel) (by decide +kernel)
  have known : g.directory.bounds? 0 = some ⟨4, 2⟩ := by decide +kernel
  have sized : ∀ bounds, g.directory.bounds? 0 = some bounds →
      bounds.rows < coordinateLimit ∧ bounds.cols < coordinateLimit := lt_of_bounds known (by decide)
  have counted : ∀ bounds, g.directory.bounds? 0 = some bounds →
      2 < bounds.rows → 1 ≤ (behind .row 0 2 bounds).area := by
    rw [known]
    rintro _ ⟨⟩ -
    decide
  have signed : ∀ bounds, g.directory.bounds? 0 = some bounds →
      bounds.rows < signedLimit ∧ bounds.cols < signedLimit := lt_of_bounds known (by decide)
  have unread : ∀ x y, g.FormulaReads x y → LineKind.row.On 0 2 x → LineKind.row.On 0 2 y :=
    unread_of_stored (by decide +kernel)
  obtain ⟨g', outcome, accepted, completed⟩ :=
    exists_of_apply g {} (.line .row .delete ⟨0, 2, 2⟩) (by decide +kernel)
  have exact : ∀ x, g.value x = g.formulaValue x := value_eq_of_stored (by decide +kernel)
  have small : StaysSmall options history := by decide +kernel
  have contained : g.Contained := contained_ofHistory small
  obtain ⟨-, -, preserved⟩ := delete_preserves_iff options history fresh contained clean plain accepted
    completed unread sized counted fun bounds known _ _ => signed bounds known
  exact ⟨fresh, contained, clean, plain, unread, signed, g', outcome, accepted, completed,
    preserved.mpr ⟨fun x _ _ => exact x, fun x _ => exact _⟩⟩

/-- A cell that has `0` where its formula has `-0` has `-0` when it has moved, and a formula that divides
by it changes its value. -/
theorem not_preserved_of_deletion :
    ¬ ∀ (options : Options) (history : List Action) (kind : LineKind) (id : CellId) (g' : Grid)
      (outcome : Outcome), NeverReuses options history → (ofHistory options history).dirty = ∅ →
        (ofHistory options history).Plain →
          (ofHistory options history).apply {} (.line kind .delete id) = .ok (g', outcome) →
            (∀ x y, (ofHistory options history).FormulaReads x y →
              kind.On id.sheet (kind.index id) x → kind.On id.sheet (kind.index id) y) →
                (∀ bounds, (ofHistory options history).directory.bounds? id.sheet = some bounds →
                  bounds.rows < signedLimit ∧ bounds.cols < signedLimit) →
                    ∀ x, kind.OnOrAfter id.sheet (kind.index id) x →
                      g'.value x = (ofHistory options history).value (kind.next x) := by
  intro all
  let options : Options := { defaultRows := 2, defaultCols := 3 }
  let history : List Action := [.edit {} (.set ⟨0, 2, 3⟩ "-1"), .edit {} (.set ⟨0, 2, 2⟩ "=1/A2"),
    .edit {} (.set ⟨0, 2, 1⟩ "=0*C2"), .edit {} (.set ⟨0, 2, 3⟩ "1")]
  have fresh : NeverReuses options history := ⟨⟨⟨⟨trivial, nofun⟩, nofun⟩, nofun⟩, nofun⟩
  have known : (ofHistory options history).directory.bounds? 0 = some ⟨2, 3⟩ := by decide +kernel
  obtain ⟨g', outcome, accepted, -⟩ := exists_of_apply (ofHistory options history) {}
    (.line .row .delete ⟨0, 1, 1⟩) (by decide +kernel)
  have same := all options history .row ⟨0, 1, 1⟩ g' outcome fresh (by decide +kernel)
    (plain_of_stored (fun x => x.col % 3) (by decide +kernel) (by decide +kernel)) accepted
    (unread_of_stored (by decide +kernel)) (lt_of_bounds known (by decide)) ⟨0, 1, 2⟩ (by decide)
  have after :
      ofHistory options (.edit {} (.line .row .delete ⟨0, 1, 1⟩) :: history) = g' := by
    rw [ofHistory, perform, accepted]
  rw [← after] at same
  revert same
  decide +kernel

end Grid

end Spreadsheet
