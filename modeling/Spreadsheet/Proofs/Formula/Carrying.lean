import Spreadsheet.Proofs.Formula.Block
import Spreadsheet.Proofs.Formula.Retargeting

/-!
# Formulas that follow a cut

When cells move, the references of formulas are replaced so that they name the cells where they are
now.  A cut that moves a block does this, and a formula that it writes anew has the same term.

* `Mention.Follows move m s m' s'`: a reference names the cells to which those of another one move.
* `Redirects move replace home newHome directory formula`: so do all references that replace those of a
  formula.
* `Redirects.reads_iff` and `Redirects.evaluate_eq`: what the new formula reads, and its term.
* `Cut.LaysOut cut destination directory`: the cut moves its source as a whole onto a block that is
  laid out inside a sheet.
* `Cut.LaysOut.follows`: what a reference becomes follows the cut.
* `Cut.LaysOut.reads_retarget`: a formula that is written anew reads what the cells it read have
  become.
* `Cut.LaysOut.evaluate_retarget`: it has the same term where the cells have kept theirs.
-/

namespace Spreadsheet.Formula

open Range

/-! ### References that follow a move -/

def Mention.size? : Mention → Option (Nat × Nat)
  | cell _ => none
  | range r => some (r.height, r.width)

/-- A reference or range on one sheet names the cells to which those of another one move, arranged in
the same way. -/
structure Mention.Follows (move : CellId → CellId) (m : Mention) (sheet : Nat) (m' : Mention)
    (sheet' : Nat) : Prop where
  size : m'.size? = m.size?
  cells : m'.cellsOn sheet' = (m.cellsOn sheet).map move

theorem Mention.Follows.termOn {move : CellId → CellId} {m m' : Mention} {sheet sheet' : Nat}
    (h : m.Follows move sheet m' sheet') {view view' : CellView}
    (terms : ∀ x ∈ m.cellsOn sheet, view'.term (move x) = view.term x) :
    m'.termOn view' sheet' = m.termOn view sheet := by
  obtain ⟨size, cells⟩ := h
  cases m with
  | cell r =>
    cases m' with
    | range r' => exact absurd size nofun
    | cell r' =>
      have same : (r'.onSheet sheet').cell = move (r.onSheet sheet).cell :=
        List.head_eq_of_cons_eq cells
      show view'.term (r'.onSheet sheet').cell = view.term (r.onSheet sheet).cell
      rw [same]
      exact terms _ List.mem_cons_self
  | range r =>
    cases m' with
    | cell r' => exact absurd size nofun
    | range r' =>
      obtain ⟨height, width⟩ := Prod.mk.inj (Option.some.inj size)
      have values : (r'.onSheet sheet').cells.map view'.term =
          (r.onSheet sheet).cells.map view.term := by
        rw [show (r'.onSheet sheet').cells = (r.onSheet sheet).cells.map move from cells,
          List.map_map]
        exact List.map_congr_left terms
      have same : (⟨r'.height, r'.width, (r'.onSheet sheet').cells.map view'.term⟩ : Block Term) =
          ⟨r.height, r.width, (r.onSheet sheet).cells.map view.term⟩ := by
        rw [height, width, values]
      exact congrArg Term.range same

theorem isWithin_of_le {directory : Directory} {x : CellId} {bounds : Bounds}
    (known : directory.bounds? x.sheet = some bounds) (rows : x.row ≤ bounds.rows)
    (cols : x.col ≤ bounds.cols) : isWithin directory x.reference = true := by
  rw [isWithin, show x.reference.sheet = x.sheet from rfl, known]
  dsimp only
  rw [Bool.and_eq_true]
  exact ⟨decide_eq_true rows, decide_eq_true cols⟩

theorem Mention.isInside_iff {directory : Directory} {sheet : Nat} {m : Mention} :
    m.isInside directory sheet = true ↔
      ∀ x ∈ m.cellsOn sheet, isWithin directory x.reference = true := by
  cases m with
  | cell r =>
    rw [cellsOn, List.forall_mem_singleton]
    rfl
  | range r =>
    rw [isInside, Bool.and_eq_true]
    constructor
    · rintro ⟨start, stop⟩ x hx
      rw [mem_cellsOn] at hx
      obtain ⟨rfl, -, bottom, -, right⟩ := hx
      rw [isWithin] at start stop ⊢
      rw [show (r.onSheet x.sheet).start.sheet = x.sheet from rfl] at start
      rw [show (r.onSheet x.sheet).stop.sheet = x.sheet from rfl] at stop
      rw [show x.reference.sheet = x.sheet from rfl]
      cases found : directory.bounds? x.sheet with
      | none =>
        rw [found] at start
        cases start
      | some bounds =>
        simp only [found, Bool.and_eq_true, decide_eq_true_eq] at start stop ⊢
        exact ⟨Nat.le_trans bottom (Nat.max_le.mpr ⟨start.1, stop.1⟩),
          Nat.le_trans right (Nat.max_le.mpr ⟨start.2, stop.2⟩)⟩
    · intro all
      exact ⟨all _ (start_mem_cells (r.onSheet sheet)),
        all _ (stop_mem_cells (r := r.onSheet sheet) rfl)⟩

theorem Mention.fits_iff {m : Mention} (sheet : Nat) :
    m.Fits ↔ ∀ x ∈ m.cellsOn sheet, x.reference.Fits := by
  cases m with
  | cell r =>
    rw [cellsOn, List.forall_mem_singleton]
    exact Iff.rfl
  | range r =>
    constructor
    · rintro ⟨start, stop⟩ x hx
      rw [mem_cellsOn] at hx
      obtain ⟨-, -, bottom, -, right⟩ := hx
      exact ⟨Nat.lt_of_le_of_lt bottom (Nat.max_lt.mpr ⟨start.1, stop.1⟩),
        Nat.lt_of_le_of_lt right (Nat.max_lt.mpr ⟨start.2, stop.2⟩)⟩
    · intro all
      exact ⟨all _ (start_mem_cells (r.onSheet sheet)),
        all _ (stop_mem_cells (r := r.onSheet sheet) rfl)⟩

/-! ### Formulas whose references follow a move -/

/-- The references of a formula on the sheet `home` are replaced by others that can be written there.
On the sheet `newHome` these name the cells to which those of the old ones move. -/
structure Redirects (move : CellId → CellId) (replace : Mention → Option Mention)
    (home newHome : Nat) (directory : Directory) (formula : String) : Prop where
  writable : ∀ m ∈ mentions formula, ∀ new, replace m.1 = some new → new.Writable
  fits : ∀ m ∈ mentions formula, ∀ new, replace m.1 = some new → new.Fits
  follows : ∀ m ∈ mentions formula, ∃ sheet sheet', m.1.sheet? home directory = some sheet ∧
    (replacement replace m.1).sheet? newHome directory = some sheet' ∧
      m.1.Follows move sheet (replacement replace m.1) sheet'

namespace Redirects

variable {move : CellId → CellId} {replace : Mention → Option Mention} {home newHome : Nat}
  {directory : Directory} {formula : String}
  (h : Redirects move replace home newHome directory formula) (tidy : Tidy formula)

include h tidy

theorem mentions_eq :
    (mentions (replaceMentions (fun m => (replace m).map Mention.text) formula)).map Prod.fst =
      ((mentions formula).map Prod.fst).map (replacement replace) := by
  rcases tidy with valid | none
  · exact mentions_replaceMentions valid h.writable h.fits
  · rw [replaceMentions_of_mentions_eq_nil none, none]
    rfl

theorem exists_of_mem {m' : Mention × List Char}
    (hm' : m' ∈ mentions (replaceMentions (fun m => (replace m).map Mention.text) formula)) :
    ∃ m ∈ mentions formula, ∃ sheet sheet', m.1.sheet? home directory = some sheet ∧
      m'.1.sheet? newHome directory = some sheet' ∧ m.1.Follows move sheet m'.1 sheet' := by
  have mem := List.mem_map_of_mem (f := Prod.fst) hm'
  rw [h.mentions_eq tidy] at mem
  obtain ⟨_, first, isNew⟩ := List.mem_map.mp mem
  obtain ⟨m, hm, rfl⟩ := List.mem_map.mp first
  obtain ⟨sheet, sheet', found, found', follows⟩ := h.follows m hm
  rw [isNew] at found' follows
  exact ⟨m, hm, sheet, sheet', found, found', follows⟩

/-- **The new formula** reads what the cells that the formula read have become. -/
theorem reads_iff (x' : CellId) :
    Reads newHome directory (replaceMentions (fun m => (replace m).map Mention.text) formula) x' ↔
      ∃ x, Reads home directory formula x ∧ x' = move x := by
  constructor
  · rintro ⟨m', hm', sheet', found', hx'⟩
    obtain ⟨m, hm, sheet, sheet'', found, found'', follows⟩ := h.exists_of_mem tidy hm'
    rw [found'] at found''
    cases found''
    rw [follows.cells] at hx'
    obtain ⟨x, hx, rfl⟩ := List.mem_map.mp hx'
    exact ⟨x, ⟨m, hm, sheet, found, hx⟩, rfl⟩
  · rintro ⟨x, ⟨m, hm, sheet, found, hx⟩, rfl⟩
    obtain ⟨sheet'', sheet', found'', found', follows⟩ := h.follows m hm
    rw [found] at found''
    cases found''
    have mem := List.mem_map_of_mem (f := replacement replace)
      (List.mem_map_of_mem (f := Prod.fst) hm)
    rw [← h.mentions_eq tidy] at mem
    obtain ⟨m', hm', same⟩ := List.mem_map.mp mem
    refine ⟨m', hm', sheet', same ▸ found', ?_⟩
    rw [same, follows.cells]
    exact List.mem_map_of_mem hx

/-- The new references lie inside their sheets if the cells that the formula read do so where they are
now. -/
theorem grounded (within : ∀ x, Reads home directory formula x →
    isWithin directory (move x).reference = true) :
    Grounded newHome directory
      (replaceMentions (fun m => (replace m).map Mention.text) formula) := by
  intro m' hm'
  obtain ⟨m, hm, sheet, sheet', found, found', follows⟩ := h.exists_of_mem tidy hm'
  refine ⟨sheet', found', ?_⟩
  rw [Mention.isInside_iff, follows.cells]
  intro x' hx'
  obtain ⟨x, hx, rfl⟩ := List.mem_map.mp hx'
  exact within x ⟨m, hm, sheet, found, hx⟩

/-- **The new formula has the same term** where the cells that the formula read have kept theirs on the
way. -/
theorem evaluate_eq {view view' : CellView} {origin origin' : CellId} (atHome : origin.sheet = home)
    (atNewHome : origin'.sheet = newHome) (noRandom : ¬ CallsRandom formula)
    (old : view.toDirectory = directory) (new : view'.toDirectory = directory)
    (terms : ∀ x, Reads home directory formula x → view'.term (move x) = view.term x) :
    evaluate view' origin' (replaceMentions (fun m => (replace m).map Mention.text) formula) =
      evaluate view origin formula := by
  rcases tidy with valid | none
  · rw [evaluate, evaluate, parse_replaceMentions valid h.writable h.fits]
    cases parsed : parse formula with
    | error _ =>
      rw [isValid, parsed] at valid
      cases valid
    | ok e =>
      have same : (e.mapMentions (replacement replace)).eval view' origin' [] = e.eval view origin [] := by
        refine eval_mapMentions_of_terms _ parsed (fun random => absurd random noRandom) ?_
        intro m hm
        obtain ⟨sheet, sheet', found, found', follows⟩ := h.follows m hm
        rw [Mention.term_eq, Mention.term_eq, old, new, atHome, atNewHome, found, found']
        exact follows.termOn fun x hx => terms x ⟨m, hm, sheet, found, hx⟩
      simp only [Except.map, ← same]
  · rw [replaceMentions_of_mentions_eq_nil none]
    refine evaluate_of_terms (fun random => absurd random noRandom) ?_
    rw [none]
    exact fun _ hm => absurd hm List.not_mem_nil

end Redirects

/-! ### The sheet in front -/

theorem sheet_of_sheetToWrite? {qualified : Bool} {sheet home : Nat} {directory : Directory}
    (regular : directory.Regular) {written : Option String}
    (h : sheetToWrite? qualified sheet home directory = some written) :
    written.elim (some home) directory.index? = some sheet := by
  rw [sheetToWrite?] at h
  split at h
  · rename_i same
    rw [Bool.and_eq_true, beq_iff_eq] at same
    cases h
    exact congrArg some same.2.symm
  · obtain ⟨name, found, rfl⟩ := Option.map_eq_some_iff.mp h
    exact regular.found _ _ found

theorem exists_sheetToWrite? {directory : Directory} (regular : directory.Regular) {x : CellId}
    (within : isWithin directory x.reference = true) (qualified : Bool) (home : Nat) :
    ∃ written, sheetToWrite? qualified x.sheet home directory = some written := by
  have known : (directory.bounds? x.sheet).isSome = true := by
    rw [isWithin, show x.reference.sheet = x.sheet from rfl] at within
    cases found : directory.bounds? x.sheet with
    | none =>
      rw [found] at within
      cases within
    | some bounds => rfl
  obtain ⟨name, named⟩ := Option.isSome_iff_exists.mp (regular.named _ known)
  rw [sheetToWrite?, named]
  split <;> exact ⟨_, rfl⟩

theorem Mention.sheet?_eq (m : Mention) (home : Nat) (directory : Directory) :
    m.sheet? home directory = m.writtenSheet.elim (some home) directory.index? := by
  rw [sheet?]
  cases m.writtenSheet <;> rfl

/-! ### Cuts that lay out a block -/

def Cut.move (cut : Cut) (x : CellId) : CellId := (cut.moved[x]?).getD x

theorem Cut.cell_cell (cut : Cut) (r : BoundReference) : (cut.cell r).cell = cut.move r.cell := by
  rw [Cut.cell, Cut.move]
  cases cut.moved[r.cell]? <;> rfl

/-- The cut moves its source as a whole onto a block that is laid out inside a sheet. -/
structure Cut.LaysOut (cut : Cut) (destination : BoundRange) (directory : Directory) : Prop where
  moved : ∀ x, cut.moved[x]? =
    if cut.source.contains x then some (place cut.source destination x) else none
  positive : 1 ≤ destination.top ∧ 1 ≤ destination.left
  inside : ∀ x, cut.source.contains x = true →
    isWithin directory (place cut.source destination x).reference = true
  fits : ∀ x, cut.source.contains x = true → (place cut.source destination x).reference.Fits

def Cut.Shifts (cut : Cut) (destination : BoundRange) (directory : Directory) : Prop :=
  ∀ r : BoundReference, cut.source.contains r.cell = true →
    shiftOnto? r cut.distance false cut.targetSheet directory =
      some (placed cut.source destination r)

/-- Some range of the formula lies in the block. -/
def HasRangeIn (block : BoundRange) (home : Nat) (directory : Directory) (formula : String) : Prop :=
  ∃ m ∈ mentions formula, ∃ r, m.1 = .range r ∧ ∃ sheet, m.1.sheet? home directory = some sheet ∧
    ∀ x ∈ m.1.cellsOn sheet, block.contains x = true

/-- Every range of the formula lies in the block or beside it. -/
def Respects (block : BoundRange) (home : Nat) (directory : Directory) (formula : String) : Prop :=
  ∀ m ∈ mentions formula, ∀ r, m.1 = .range r → ∀ sheet, m.1.sheet? home directory = some sheet →
    (∀ x ∈ m.1.cellsOn sheet, block.contains x = true) ∨
      ∀ x ∈ m.1.cellsOn sheet, block.contains x = false

namespace Cut.LaysOut

variable {cut : Cut} {destination : BoundRange} {directory : Directory}
  (h : cut.LaysOut destination directory)

include h

theorem proper : cut.Proper := by
  intro x target found
  rw [h.moved] at found
  split at found
  · cases found
    exact ⟨Nat.le_trans h.positive.1 (Nat.le_add_right _ _),
      Nat.le_trans h.positive.2 (Nat.le_add_right _ _)⟩
  · exact absurd found nofun

theorem move_of_contains {x : CellId} (inside : cut.source.contains x = true) :
    cut.move x = place cut.source destination x := by
  rw [Cut.move, h.moved, if_pos inside]
  rfl

theorem move_of_not_contains {x : CellId} (outside : cut.source.contains x = false) :
    cut.move x = x := by
  rw [Cut.move, h.moved, if_neg (by simp [outside])]
  rfl

theorem isWithin_move {x : CellId} (within : isWithin directory x.reference = true) :
    isWithin directory (cut.move x).reference = true := by
  cases inside : cut.source.contains x with
  | true =>
    rw [h.move_of_contains inside]
    exact h.inside x inside
  | false =>
    rw [h.move_of_not_contains inside]
    exact within

theorem range?_eq {r : BoundRange} (sheets : r.stop.sheet = r.start.sheet)
    (whole : ((∀ x ∈ r.cells, cut.source.contains x = true) ∧ cut.Shifts destination directory) ∨
      ∀ x ∈ r.cells, cut.source.contains x = false) :
    ∃ new : BoundRange, cut.range? directory r = some new ∧ new.height = r.height ∧
      new.width = r.width ∧ new.cells = r.cells.map cut.move ∧
        new.sheet = (cut.move r.start.cell).sheet := by
  have start := r.start_mem_cells
  have stop := stop_mem_cells sheets
  rw [Cut.range?]
  rcases whole with ⟨inside, shifts⟩ | outside
  · rw [if_pos (by rw [inside _ start, inside _ stop]; rfl), shifts _ (inside _ start),
      shifts _ (inside _ stop)]
    obtain ⟨height, width, cells⟩ :=
      placed_range destination (inside _ start) (inside _ stop)
    refine ⟨_, rfl, height, width, ?_, ?_⟩
    · rw [cells]
      exact List.map_congr_left fun x hx => (h.move_of_contains (inside x hx)).symm
    · rw [h.move_of_contains (inside _ start)]
      rfl
  · rw [if_neg (by rw [outside _ start]; exact Bool.false_ne_true)]
    refine ⟨r, rfl, rfl, rfl, ?_, ?_⟩
    · exact (List.map_id _).symm.trans
        (List.map_congr_left fun x hx => (h.move_of_not_contains (outside x hx)).symm)
    · rw [h.move_of_not_contains (outside _ start)]
      rfl

/-- What a reference of a formula on the sheet `home` has become in the formula as it is written anew
on the sheet `newHome`. -/
theorem follows_retargeted (regular : directory.Regular) {home sheet : Nat} (newHome : Nat) {m : Mention}
    (found : m.sheet? home directory = some sheet)
    (inside : m.isInside directory sheet = true)
    (whole : ∀ r, m = .range r →
      ((∀ x ∈ m.cellsOn sheet, cut.source.contains x = true) ∧ cut.Shifts destination directory) ∨
        ∀ x ∈ m.cellsOn sheet, cut.source.contains x = false) :
    let m' := replacement (retargeted? home newHome cut directory) m
    ∃ sheet', m'.sheet? newHome directory = some sheet' ∧
      m.Follows cut.move sheet m' sheet' := by
  rw [Mention.isInside_iff] at inside
  intro m'
  cases m with
  | cell r =>
    have within := h.isWithin_move (inside _ List.mem_cons_self)
    obtain ⟨written, hwritten⟩ := exists_sheetToWrite? regular within r.sheet.isSome newHome
    have result : m' = .cell ((cut.cell (r.onSheet sheet)).onSheet written) := by
      have bound : r.bind? home directory = some (r.onSheet sheet) := by rw [bind?_cell, found]; rfl
      have same : (cut.cell (r.onSheet sheet)).sheet = (cut.move (r.onSheet sheet).cell).sheet := by
        rw [← cut.cell_cell]
        rfl
      simp only [m', replacement, retargeted?, renderedCell?, bound, same, hwritten,
        Option.bind_eq_bind, Option.bind_some]
      split
      · rename_i equal
        rw [equal]
        rfl
      · rfl
    refine ⟨(cut.move (r.onSheet sheet).cell).sheet, ?_, ?_, ?_⟩
    · rw [Mention.sheet?_eq, result]
      exact sheet_of_sheetToWrite? regular hwritten
    · rw [result]
      rfl
    · have same : [(cut.cell (r.onSheet sheet)).cell] = [cut.move (r.onSheet sheet).cell] := by
        rw [cut.cell_cell]
      rw [result]
      rw [← cut.cell_cell]
      exact same
  | range r =>
    have sheets : (r.onSheet sheet).stop.sheet = (r.onSheet sheet).start.sheet := rfl
    obtain ⟨new, target, height, width, cells, newSheet⟩ :=
      h.range?_eq sheets (whole r rfl)
    have start : (r.onSheet sheet).start.cell ∈ (Mention.range r).cellsOn sheet :=
      start_mem_cells _
    obtain ⟨written, hwritten⟩ := exists_sheetToWrite? regular (h.isWithin_move (inside _ start))
      r.start.sheet.isSome newHome
    rw [← newSheet] at hwritten
    have result : m' = .range (new.onSheet written) := by
      have bound : r.bind? home directory = some (r.onSheet sheet) := by
        rw [bind?_range, found]
        rfl
      simp only [m', replacement, retargeted?, renderedRange?, bound, target, hwritten,
        Option.bind_eq_bind, Option.bind_some]
      split
      · rename_i equal
        rw [equal]
        rfl
      · rfl
    refine ⟨new.sheet, ?_, ?_, ?_⟩
    · rw [Mention.sheet?_eq, result]
      exact sheet_of_sheetToWrite? regular hwritten
    · rw [result]
      exact congrArg some (Prod.ext height width)
    · rw [result]
      exact cells

section

variable {formula : String} {home : Nat} (newHome : Nat) (regular : directory.Regular)
  (grounded : Grounded home directory formula)
  (respected : Respects cut.source home directory formula)
  (shifts : HasRangeIn cut.source home directory formula → cut.Shifts destination directory)

include regular grounded respected shifts

theorem follows_retargeted_of_mem {m : Mention × List Char} (hm : m ∈ mentions formula) :
    let m' := replacement (retargeted? home newHome cut directory) m.1
    ∃ sheet sheet', m.1.sheet? home directory = some sheet ∧
      m'.sheet? newHome directory = some sheet' ∧ m.1.Follows cut.move sheet m' sheet' := by
  obtain ⟨sheet, found, inside⟩ := grounded m hm
  have whole : ∀ r, m.1 = .range r →
      ((∀ x ∈ m.1.cellsOn sheet, cut.source.contains x = true) ∧ cut.Shifts destination directory) ∨
        ∀ x ∈ m.1.cellsOn sheet, cut.source.contains x = false := by
    intro r same
    rcases respected m hm r same sheet found with within | beside
    · exact Or.inl ⟨within, shifts ⟨m, hm, r, same, sheet, found, within⟩⟩
    · exact Or.inr beside
  obtain ⟨sheet', found', follows⟩ := h.follows_retargeted regular newHome found inside whole
  exact ⟨sheet, sheet', found, found', follows⟩

theorem fits_retargeted? {m : Mention × List Char} (hm : m ∈ mentions formula) {new : Mention}
    (isNew : retargeted? home newHome cut directory m.1 = some new) : new.Fits := by
  obtain ⟨sheet, sheet', -, -, follows⟩ :=
    h.follows_retargeted_of_mem newHome regular grounded respected shifts hm
  rw [replacement, isNew, Option.getD_some] at follows
  have before := (Mention.fits_iff sheet).mp (sound_of_mem_mentions hm).fits
  rw [Mention.fits_iff sheet', follows.cells]
  intro x hx
  obtain ⟨y, hy, rfl⟩ := List.mem_map.mp hx
  cases inside : cut.source.contains y with
  | true =>
    rw [h.move_of_contains inside]
    exact h.fits y inside
  | false =>
    rw [h.move_of_not_contains inside]
    exact before y hy

/-- **The references of a formula that is written anew follow the cut.** -/
theorem redirects :
    Redirects cut.move (retargeted? home newHome cut directory) home newHome directory formula where
  writable _ hm _ isNew :=
    writable_retargeted? isNew regular.proper h.proper (sound_of_mem_mentions hm).positive
  fits _ hm _ isNew := h.fits_retargeted? newHome regular grounded respected shifts hm isNew
  follows _ hm := h.follows_retargeted_of_mem newHome regular grounded respected shifts hm

/-- **A formula that is written anew** reads what the cells that it read have become. -/
theorem reads_retarget (tidy : Tidy formula) (x' : CellId) :
    Reads newHome directory (retarget home newHome cut directory formula) x' ↔
      ∃ x, Reads home directory formula x ∧ x' = cut.move x := by
  rw [retarget_eq]
  exact (h.redirects newHome regular grounded respected shifts).reads_iff tidy x'

/-- The references that are written belong to sheets and lie inside them. -/
theorem grounded_retarget (tidy : Tidy formula) :
    Grounded newHome directory (retarget home newHome cut directory formula) := by
  rw [retarget_eq]
  refine (h.redirects newHome regular grounded respected shifts).grounded tidy ?_
  rintro x ⟨m, hm, sheet, found, hx⟩
  obtain ⟨sheet', found', inside⟩ := grounded m hm
  rw [found] at found'
  cases found'
  exact h.isWithin_move (Mention.isInside_iff.mp inside x hx)

end

/-- **A formula that is written anew has the same term** where the cells that it read have kept theirs
on the way. -/
theorem evaluate_retarget (regular : directory.Regular) {formula : String} {origin origin' : CellId}
    (grounded : Grounded origin.sheet directory formula)
    (respected : Respects cut.source origin.sheet directory formula)
    (shifts : HasRangeIn cut.source origin.sheet directory formula →
      cut.Shifts destination directory) (tidy : Tidy formula)
    (noRandom : ¬ CallsRandom formula) {view view' : CellView}
    (old : view.toDirectory = directory) (new : view'.toDirectory = directory)
    (terms : ∀ x, Reads origin.sheet directory formula x →
      view'.term (cut.move x) = view.term x) :
    evaluate view' origin' (retarget origin.sheet origin'.sheet cut directory formula) =
      evaluate view origin formula := by
  rw [retarget_eq]
  exact (h.redirects origin'.sheet regular grounded respected shifts).evaluate_eq tidy rfl rfl noRandom
    old new terms

end Cut.LaysOut

end Spreadsheet.Formula
