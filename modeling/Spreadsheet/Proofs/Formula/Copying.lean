import Spreadsheet.Proofs.Formula.Carrying
import Spreadsheet.Proofs.Formula.Dependence

/-!
# Formulas that are copied

A copy moves the references of a formula by its distance and brings them back into their sheets.  It
leaves the text of a reference alone if the reference does not change, although a reference that is
written anew can look different from the one it replaces.

* `relocate_unmoved`: a formula stays as it is when it is copied onto itself, or cut within its sheet.
* `copied` and `Mention.IsCopy`: where a reference goes when its formula is copied.
* `shiftOnto?_copied`: the reference that moves goes there.
* `parse_relocate`: a copied formula is read like the formula, with the references where they go.
-/

namespace Spreadsheet.Formula

/-! ### Moves of no effect -/

def IsUnmoved (source target : CellId) (isCut : Bool) : Prop :=
  target = source ∨ isCut = true ∧ target.sheet = source.sheet

section

variable {source target : CellId} {isCut : Bool} {directory : Directory}

theorem IsUnmoved.sheet (h : IsUnmoved source target isCut) : target.sheet = source.sheet := by
  rcases h with rfl | ⟨-, same⟩
  · rfl
  · exact same

theorem IsUnmoved.distanceOf (h : IsUnmoved source target isCut) :
    distanceOf source target isCut = Distance.zero := by
  rw [Formula.distanceOf]
  rcases h with rfl | ⟨rfl, -⟩
  · rw [Distance.between, Int.sub_self, Int.sub_self]
    exact ite_self Distance.zero
  · exact if_pos rfl

theorem IsUnmoved.followSheet (h : IsUnmoved source target isCut) (sheet : Nat) :
    followSheet sheet source.sheet target.sheet isCut = sheet := by
  rw [Formula.followSheet, h.sheet]
  split
  · rename_i here
    rw [Bool.and_eq_true, beq_iff_eq] at here
    exact here.2.symm
  · rfl

/-- A reference that moves by no distance onto its own sheet is the same, if it can be moved. -/
theorem eq_of_shiftOnto?_zero {r new : BoundReference}
    (h : shiftOnto? r Distance.zero true r.sheet directory = some new) : new = r := by
  obtain ⟨bounds, -, same⟩ := Option.bind_eq_some_iff.mp h
  cases same
  rw [Reference.shift, if_pos rfl]
  rfl

theorem renderedCell?_eq_none {written : WrittenReference} {sheet home : Nat}
    (kept : ∀ front, sheetToWrite? written.sheet.isSome sheet home directory = some front →
      front = written.sheet) :
    renderedCell? written (written.onSheet sheet) home directory = none := by
  rw [renderedCell?, show (written.onSheet sheet).sheet = sheet from rfl]
  cases h : sheetToWrite? written.sheet.isSome sheet home directory with
  | none => rfl
  | some front =>
    rw [kept front h]
    exact if_pos rfl

theorem renderedRange?_eq_none {written : WrittenRange}
    (same : written.stop.sheet = written.start.sheet) {sheet home : Nat}
    (kept : ∀ front, sheetToWrite? written.start.sheet.isSome sheet home directory = some front →
      front = written.start.sheet) :
    renderedRange? written (written.onSheet sheet) home directory = none := by
  have stop : written.stop.onSheet written.start.sheet = written.stop := by
    rw [← same]
    rfl
  rw [renderedRange?, show (written.onSheet sheet).sheet = sheet from rfl]
  cases h : sheetToWrite? written.start.sheet.isSome sheet home directory with
  | none => rfl
  | some front =>
    rw [kept front h]
    exact if_pos (congrArg (Range.mk written.start) stop)

variable (agree : ∀ name index, directory.index? name = some index →
  directory.name? index = some name)

include agree

theorem sheetToWrite?_of_sheet? {m : Mention} {home sheet : Nat}
    (found : m.sheet? home directory = some sheet) :
    sheetToWrite? m.writtenSheet.isSome sheet home directory = some m.writtenSheet := by
  rw [Mention.sheet?] at found
  rw [sheetToWrite?]
  cases front : m.writtenSheet with
  | none =>
    rw [front] at found
    cases found
    rw [if_pos (by simp)]
  | some name =>
    rw [front] at found
    rw [if_neg (by simp), agree name sheet found]
    rfl

theorem renderedCell?_onSheet {written : WrittenReference} {home sheet : Nat}
    (found : (Mention.cell written).sheet? home directory = some sheet) :
    renderedCell? written (written.onSheet sheet) home directory = none := by
  refine renderedCell?_eq_none fun front h => ?_
  have kept : sheetToWrite? written.sheet.isSome sheet home directory = some written.sheet :=
    sheetToWrite?_of_sheet? agree found
  exact Option.some.inj (h.symm.trans kept)

theorem renderedRange?_onSheet {written : WrittenRange} (same : written.stop.sheet = written.start.sheet)
    {home sheet : Nat} (found : (Mention.range written).sheet? home directory = some sheet) :
    renderedRange? written (written.onSheet sheet) home directory = none := by
  refine renderedRange?_eq_none same fun front h => ?_
  have kept : sheetToWrite? written.start.sheet.isSome sheet home directory =
      some written.start.sheet := sheetToWrite?_of_sheet? agree found
  exact Option.some.inj (h.symm.trans kept)

theorem relocated?_unmoved (still : IsUnmoved source target isCut) {m : Mention} (sound : m.Sound) :
    relocated? source target isCut directory m = none := by
  rw [Option.eq_none_iff_forall_ne_some]
  intro new found
  cases m with
  | cell written =>
    obtain ⟨bound, isBound, found⟩ := Option.bind_eq_some_iff.mp found
    rw [still.followSheet, still.distanceOf, still.sheet] at found
    obtain ⟨moved, shifted, found⟩ := Option.bind_eq_some_iff.mp found
    cases eq_of_shiftOnto?_zero shifted
    rw [bind?_cell] at isBound
    obtain ⟨sheet, onSheet, rfl⟩ := Option.map_eq_some_iff.mp isBound
    rw [renderedCell?_onSheet agree onSheet] at found
    cases found
  | range written =>
    obtain ⟨bound, isBound, found⟩ := Option.bind_eq_some_iff.mp found
    rw [still.followSheet, still.distanceOf, still.sheet] at found
    obtain ⟨start, shiftedStart, found⟩ := Option.bind_eq_some_iff.mp found
    obtain ⟨stop, shiftedStop, found⟩ := Option.bind_eq_some_iff.mp found
    rw [bind?_range] at isBound
    obtain ⟨sheet, onSheet, rfl⟩ := Option.map_eq_some_iff.mp isBound
    cases eq_of_shiftOnto?_zero shiftedStart
    cases eq_of_shiftOnto?_zero shiftedStop
    have kept := renderedRange?_onSheet agree (sound.sheets _ rfl) onSheet
    exact absurd (kept.symm.trans found) nofun

/-- **Moves of no effect leave the text alone**, whatever it is. -/
theorem relocate_unmoved (still : IsUnmoved source target isCut) (formula : String) :
    relocate source target isCut directory formula = formula := by
  rw [relocate_eq]
  refine replaceMentions_of_forall_none fun m hm => ?_
  rw [relocated?_unmoved agree still (sound_of_mem_mentions hm)]
  rfl

/-- **Moves of no effect leave the text alone**: copying a formula onto its own cell, and cutting it
within its sheet. -/
theorem relocate_of_no_effect (formula : String) :
    (∀ cell : CellId, relocate cell cell false directory formula = formula) ∧
      ∀ source target : CellId, source.sheet = target.sheet →
        relocate source target true directory formula = formula :=
  ⟨fun _ => relocate_unmoved agree (Or.inl rfl) formula,
    fun _ _ same => relocate_unmoved agree (Or.inr ⟨rfl, same.symm⟩) formula⟩

end

/-- References in small letters, to a sheet that is missing, and beyond the last row, and a text that
cannot be cut into pieces. -/
theorem relocate_of_no_effect_ofSheets :
    let directory : Directory := .ofSheets [⟨"One", 3, 3⟩, ⟨"it's", 3, 4⟩]
    let formula := "a$1 +sum( 'it''s'!$c3:b2 )-Two!A1*one!A1/$B999"
    let text := "A1 + \"B1"
    relocate ⟨0, 2, 2⟩ ⟨0, 2, 2⟩ false directory formula = formula ∧
      relocate ⟨1, 2, 2⟩ ⟨1, 7, 1⟩ true directory formula = formula ∧
      relocate ⟨1, 2, 2⟩ ⟨1, 7, 1⟩ true directory text = text := by
  intro directory formula text
  have agree : ∀ name index, directory.index? name = some index →
      directory.name? index = some name := fun _ _ => Directory.name?_of_index?_ofSheets
  exact ⟨(relocate_of_no_effect agree formula).1 _, (relocate_of_no_effect agree formula).2 _ _ rfl,
    (relocate_of_no_effect agree text).2 _ _ rfl⟩

/-! ### Where references go -/

/-- Where a coordinate goes when its formula is copied: by the distance of the copy unless it is
pinned, and then into the sheet. -/
def copiedAxis (coordinate source target : Nat) (pinned : Bool) (bound : Nat) : Nat :=
  let moved : Int := if pinned then coordinate else coordinate + (target - source)
  (max 1 (min moved (max bound 1 : Nat))).toNat

/-- The sheet to which references go with their formula.  Those to its own sheet follow it. -/
def followed (source target : CellId) (sheet : Nat) : Nat :=
  if sheet = source.sheet then target.sheet else sheet

/-- Where a reference goes when its formula is copied.  It keeps its coordinates if the formula
does. -/
def copied (source target : CellId) (bounds : Bounds) (r : BoundReference) : BoundReference :=
  let sheet := followed source target r.sheet
  if target.row = source.row ∧ target.col = source.col then { r with sheet }
  else
    { r with
      sheet
      row := copiedAxis r.row source.row target.row r.fixedRow bounds.rows
      col := copiedAxis r.col source.col target.col r.fixedCol bounds.cols }

/-- What a reference or range is in the copy of its formula.  One that leads to a sheet leads to where
it goes and has a sheet in front as before; any other stays as it is written. -/
inductive Mention.IsCopy (source target : CellId) (directory : Directory) : Mention → Mention → Prop
  | unknown {m : Mention} (missing : m.sheet? source.sheet directory = none) :
    IsCopy source target directory m m
  | cell {r new : WrittenReference} {bound : BoundReference} {bounds : Bounds}
    (leads : r.bind? source.sheet directory = some bound)
    (size : directory.bounds? (followed source target bound.sheet) = some bounds)
    (goes : new.bind? target.sheet directory = some (copied source target bounds bound))
    (front : new.sheet.isSome = r.sheet.isSome) :
    IsCopy source target directory (.cell r) (.cell new)
  | range {r new : WrittenRange} {bound : BoundRange} {bounds : Bounds}
    (leads : r.bind? source.sheet directory = some bound)
    (size : directory.bounds? (followed source target bound.sheet) = some bounds)
    (goes : new.bind? target.sheet directory =
      some ⟨copied source target bounds bound.start, copied source target bounds bound.stop⟩)
    (front : new.start.sheet.isSome = r.start.sheet.isSome)
    (common : new.stop.sheet = new.start.sheet) :
    IsCopy source target directory (.range r) (.range new)

/-- The coordinates are the same as signed 64-bit integers. -/
def IsSmall {S : Type} (r : Reference S) : Prop := r.row < signedLimit ∧ r.col < signedLimit

instance {S : Type} (r : Reference S) : Decidable (IsSmall r) := inferInstanceAs (Decidable (_ ∧ _))

theorem isSmall_onSheet {S T : Type} {r : Reference S} {sheet : T} :
    IsSmall (r.onSheet sheet) ↔ IsSmall r := Iff.rfl

/-- The coordinates of a reference or of the corners of a range are the same as signed 64-bit
integers. -/
def Mention.IsSmall : Mention → Prop
  | cell r => Formula.IsSmall r
  | range r => Formula.IsSmall r.start ∧ Formula.IsSmall r.stop

instance : DecidablePred Mention.IsSmall
  | .cell r => inferInstanceAs (Decidable (Formula.IsSmall r))
  | .range r => inferInstanceAs (Decidable (Formula.IsSmall r.start ∧ Formula.IsSmall r.stop))

/-- The sums of the coordinates and a distance are signed 64-bit integers. -/
def SumsFit {S : Type} (d : Distance) (r : Reference S) : Prop :=
  SumFits r.row d.rows r.fixedRow ∧ SumFits r.col d.cols r.fixedCol

instance {S : Type} (d : Distance) (r : Reference S) : Decidable (SumsFit d r) :=
  inferInstanceAs (Decidable (_ ∧ _))

def Mention.SumsFit (d : Distance) : Mention → Prop
  | cell r => Formula.SumsFit d r
  | range r => Formula.SumsFit d r.start ∧ Formula.SumsFit d r.stop

instance (d : Distance) : DecidablePred (Mention.SumsFit d)
  | .cell r => inferInstanceAs (Decidable (Formula.SumsFit d r))
  | .range r => inferInstanceAs (Decidable (Formula.SumsFit d r.start ∧ Formula.SumsFit d r.stop))

theorem copiedAxis_le (coordinate source target : Nat) (pinned : Bool) (bound : Nat) :
    copiedAxis coordinate source target pinned bound ≤ max bound 1 := by
  rw [copiedAxis]
  omega

theorem clampAxis_copied {coordinate source target bound : Nat} (pinned : Bool)
    (hcoordinate : coordinate < signedLimit) (hbound : bound < signedLimit)
    (sum : SumFits coordinate ((target : Int) - source) pinned) :
    (clampAxis (movedAxis coordinate ((target : Int) - source) pinned) bound).1 =
      copiedAxis coordinate source target pinned bound := by
  have one : max bound 1 < signedLimit := Nat.max_lt.mpr ⟨hbound, by decide⟩
  have exact : signed coordinate + axisMove ((target : Int) - source) pinned =
      if pinned then (coordinate : Int) else coordinate + (target - source) := by
    rw [signed_of_lt hcoordinate, axisMove]
    cases pinned with
    | true => exact Int.add_zero _
    | false => rfl
  rw [movedAxis_of_sumFits sum, exact, clampAxis, signed_of_lt one, copiedAxis]
  generalize (if pinned then (coordinate : Int) else coordinate + (target - source)) = moved
  split
  · omega
  · split
    · omega
    · omega

section

variable {source target : CellId} {directory : Directory}

theorem relocated?_of_missing {isCut : Bool} {m : Mention}
    (missing : m.sheet? source.sheet directory = none) :
    relocated? source target isCut directory m = none := by
  cases m with
  | cell written =>
    rw [relocated?, bind?_cell, missing]
    rfl
  | range written =>
    rw [relocated?, bind?_range, missing]
    rfl

theorem followSheet_copy (sheet : Nat) :
    followSheet sheet source.sheet target.sheet false = followed source target sheet := by
  simp [followSheet, followed]

/-- **A reference goes where the copy takes it.** -/
theorem shiftOnto?_copied (hsource : IsSmall source.reference) (htarget : IsSmall target.reference)
    {r : BoundReference} (small : IsSmall r) (sums : SumsFit (.between source target) r)
    {bounds : Bounds} (size : directory.bounds? (followed source target r.sheet) = some bounds)
    (fits : bounds.rows < signedLimit ∧ bounds.cols < signedLimit) :
    shiftOnto? r (distanceOf source target false) true (followed source target r.sheet) directory =
      some (copied source target bounds r) := by
  have distance : Distance.between source target =
      ⟨(target.row : Int) - source.row, (target.col : Int) - source.col⟩ :=
    between_of_lt ⟨hsource.1, htarget.1⟩ ⟨hsource.2, htarget.2⟩
  have still : Distance.between source target = Distance.zero ↔
      target.row = source.row ∧ target.col = source.col := by
    rw [distance, Distance.zero, Distance.mk.injEq]
    omega
  rw [distance] at sums still
  rw [shiftOnto?, size, distanceOf, if_neg (by decide), distance]
  refine congrArg some ?_
  rw [copied]
  by_cases same : target.row = source.row ∧ target.col = source.col
  · rw [if_pos same, Reference.shift, if_pos (still.mpr same)]
    rfl
  · rw [if_neg same, shift_of_ne (fun zero => same (still.mp zero))
      (clampAxis_copied (true && r.fixedRow) small.1 fits.1 sums.1)
      (clampAxis_copied (true && r.fixedCol) small.2 fits.2 sums.2)]
    rfl

theorem copied_sheet (bounds : Bounds) (r : BoundReference) :
    (copied source target bounds r).sheet = followed source target r.sheet := by
  rw [copied]
  split <;> rfl

theorem isSmall_copied {r : BoundReference} (small : IsSmall r) {bounds : Bounds}
    (fits : bounds.rows < signedLimit ∧ bounds.cols < signedLimit) :
    IsSmall (copied source target bounds r) := by
  rw [copied]
  split
  · exact small
  · exact ⟨Nat.lt_of_le_of_lt (copiedAxis_le _ _ _ _ _) (Nat.max_lt.mpr ⟨fits.1, by decide⟩),
      Nat.lt_of_le_of_lt (copiedAxis_le _ _ _ _ _) (Nat.max_lt.mpr ⟨fits.2, by decide⟩)⟩

theorem Mention.IsCopy.isSmall
    (sizes : ∀ i bounds, directory.bounds? i = some bounds →
      bounds.rows < signedLimit ∧ bounds.cols < signedLimit)
    {m new : Mention} (h : m.IsCopy source target directory new) (small : m.IsSmall) :
    new.IsSmall := by
  cases h with
  | unknown => exact small
  | @cell r new bound bounds leads size goes =>
    rw [bind?_cell] at leads goes
    obtain ⟨sheet, -, rfl⟩ := Option.map_eq_some_iff.mp leads
    obtain ⟨sheet', -, same⟩ := Option.map_eq_some_iff.mp goes
    have small : Formula.IsSmall (copied source target bounds (r.onSheet sheet)) :=
      isSmall_copied (isSmall_onSheet.mpr small) (sizes _ _ size)
    rw [← same] at small
    exact isSmall_onSheet.mp small
  | @range r new bound bounds leads size goes =>
    rw [bind?_range] at leads goes
    obtain ⟨sheet, -, rfl⟩ := Option.map_eq_some_iff.mp leads
    obtain ⟨sheet', -, same⟩ := Option.map_eq_some_iff.mp goes
    have start : Formula.IsSmall (copied source target bounds (r.start.onSheet sheet)) :=
      isSmall_copied (isSmall_onSheet.mpr small.1) (sizes _ _ size)
    have stop : Formula.IsSmall (copied source target bounds (r.stop.onSheet sheet)) :=
      isSmall_copied (isSmall_onSheet.mpr small.2) (sizes _ _ size)
    obtain ⟨sameStart, sameStop⟩ := Range.mk.inj same
    change new.start.onSheet sheet' = copied source target bounds (r.start.onSheet sheet) at sameStart
    change new.stop.onSheet sheet' = copied source target bounds (r.stop.onSheet sheet) at sameStop
    rw [← sameStart] at start
    rw [← sameStop] at stop
    exact ⟨isSmall_onSheet.mp start, isSmall_onSheet.mp stop⟩

theorem Mention.IsSmall.fits {m : Mention} (h : m.IsSmall) : m.Fits := by
  have limit : signedLimit ≤ coordinateLimit := by decide
  cases m with
  | cell r => exact ⟨Nat.lt_of_lt_of_le h.1 limit, Nat.lt_of_lt_of_le h.2 limit⟩
  | range r =>
    exact ⟨⟨Nat.lt_of_lt_of_le h.1.1 limit, Nat.lt_of_lt_of_le h.1.2 limit⟩,
      ⟨Nat.lt_of_lt_of_le h.2.1 limit, Nat.lt_of_lt_of_le h.2.2 limit⟩⟩

theorem bind?_onSheet_cell {new : BoundReference} {home : Nat} {front : Option String}
    (leads : front.elim (some home) directory.index? = some new.sheet) :
    (new.onSheet front).bind? home directory = some new := by
  rw [bind?_cell, Mention.sheet?_eq, show (Mention.cell (new.onSheet front)).writtenSheet = front
    from rfl, leads]
  rfl

theorem bind?_onSheet_range {new : BoundRange} (same : new.stop.sheet = new.start.sheet)
    {home : Nat} {front : Option String}
    (leads : front.elim (some home) directory.index? = some new.sheet) :
    (new.onSheet front).bind? home directory = some new := by
  have stop : new.stop.onSheet new.start.sheet = new.stop := by
    rw [← same]
    rfl
  rw [bind?_range, Mention.sheet?_eq, show (Mention.range (new.onSheet front)).writtenSheet = front
    from rfl, leads]
  exact congrArg (fun stop => some (Range.mk new.start stop)) stop

theorem getD_renderedCell? {written : WrittenReference} {new : BoundReference} {home : Nat}
    {front : Option String}
    (h : sheetToWrite? written.sheet.isSome new.sheet home directory = some front) :
    (renderedCell? written new home directory).getD (.cell written) = .cell (new.onSheet front) := by
  rw [renderedCell?, h]
  by_cases same : new.onSheet front = written
  · simp [same]
  · simp [same]

theorem getD_renderedRange? {written : WrittenRange} {new : BoundRange} {home : Nat}
    {front : Option String}
    (h : sheetToWrite? written.start.sheet.isSome new.sheet home directory = some front) :
    (renderedRange? written new home directory).getD (.range written) =
      .range (new.onSheet front) := by
  rw [renderedRange?, h]
  by_cases same : new.onSheet front = written
  · simp [same]
  · simp [same]

end

/-! ### Copies between sheets of a list -/

section

variable {sheets : List Sheet} {source target : CellId} (nodup : (sheets.map Sheet.name).Nodup)
  (valid : ∀ s ∈ sheets, Sheet.isValidName s.name = true)
  (sizes : ∀ s ∈ sheets, s.rows < signedLimit ∧ s.cols < signedLimit)
  (hsource : IsSmall source.reference) (htarget : IsSmall target.reference)
  (place : target.sheet < sheets.length)

include place in
theorem exists_front {m : Mention} {sheet : Nat}
    (found : m.sheet? source.sheet (.ofSheets sheets) = some sheet) :
    ∃ s ∈ sheets,
      (Directory.ofSheets sheets).bounds? (followed source target sheet) = some s.bounds ∧
      ∃ front, sheetToWrite? m.writtenSheet.isSome (followed source target sheet) target.sheet
        (.ofSheets sheets) = some front ∧ front.isSome = m.writtenSheet.isSome := by
  rw [Mention.sheet?] at found
  have lt : followed source target sheet < sheets.length := by
    rw [followed]
    split
    · exact place
    · rename_i other
      cases front : m.writtenSheet with
      | none =>
        rw [front] at found
        exact absurd (Option.some.inj found).symm other
      | some name =>
        rw [front] at found
        have named := Directory.name?_of_index?_ofSheets found
        rw [Directory.name?_ofSheets] at named
        obtain ⟨lt, -⟩ := List.getElem?_eq_some_iff.mp named
        rwa [List.length_map] at lt
  have here := List.getElem?_eq_getElem lt
  refine ⟨_, List.getElem_mem lt, congrArg (Option.map Sheet.bounds) here, ?_⟩
  cases front : m.writtenSheet with
  | none =>
    rw [front] at found
    cases found
    refine ⟨none, if_pos ?_, rfl⟩
    rw [followed, if_pos rfl]
    exact beq_self_eq_true _
  | some name =>
    obtain ⟨name', named⟩ : ∃ name',
        (Directory.ofSheets sheets).name? (followed source target sheet) = some name' :=
      ⟨_, congrArg (Option.map Sheet.name) here⟩
    refine ⟨some name', ?_, rfl⟩
    rw [sheetToWrite?, if_neg (by simp), named]
    rfl

include nodup valid sizes hsource htarget place

/-- **What stands for a reference in a copy is where the reference goes.** -/
theorem isCopy_relocated? {m : Mention} (small : m.IsSmall)
    (sums : m.SumsFit (.between source target)) :
    m.IsCopy source target (.ofSheets sheets)
      (replacement (relocated? source target false (.ofSheets sheets)) m) := by
  have regular := Directory.regular_ofSheets nodup valid
  cases found : m.sheet? source.sheet (.ofSheets sheets) with
  | none =>
    rw [replacement, relocated?_of_missing found]
    exact .unknown found
  | some sheet =>
    obtain ⟨s, hs, size, front, written, isSome⟩ := exists_front place found
    have leads := sheet_of_sheetToWrite? regular written
    have moved : ∀ corner : WrittenReference, IsSmall corner → SumsFit (.between source target) corner →
        shiftOnto? (corner.onSheet sheet) (distanceOf source target false) true
          (followed source target sheet) (.ofSheets sheets) =
            some (copied source target s.bounds (corner.onSheet sheet)) := fun corner small sums =>
      shiftOnto?_copied hsource htarget (r := corner.onSheet sheet) small sums size (sizes s hs)
    cases m with
    | cell r =>
      have bound : r.bind? source.sheet (.ofSheets sheets) = some (r.onSheet sheet) := by
        rw [bind?_cell, found]
        rfl
      have render : relocated? source target false (.ofSheets sheets) (.cell r) =
          renderedCell? r (copied source target s.bounds (r.onSheet sheet)) target.sheet
            (.ofSheets sheets) := by
        simp only [relocated?, bound, followSheet_copy, Option.bind_eq_bind, Option.bind_some]
        rw [show (r.onSheet sheet).sheet = sheet from rfl, moved r small sums]
        rfl
      rw [replacement, render, getD_renderedCell? (by rw [copied_sheet]; exact written)]
      exact .cell bound size (bind?_onSheet_cell (by rw [copied_sheet]; exact leads)) isSome
    | range r =>
      have bound : r.bind? source.sheet (.ofSheets sheets) = some (r.onSheet sheet) := by
        rw [bind?_range, found]
        rfl
      have render : relocated? source target false (.ofSheets sheets) (.range r) =
          renderedRange? r ⟨copied source target s.bounds (r.start.onSheet sheet),
            copied source target s.bounds (r.stop.onSheet sheet)⟩ target.sheet
              (.ofSheets sheets) := by
        simp only [relocated?, bound, followSheet_copy, Option.bind_eq_bind, Option.bind_some]
        rw [show (r.onSheet sheet).sheet = sheet from rfl,
          show (r.onSheet sheet).start = r.start.onSheet sheet from rfl,
          show (r.onSheet sheet).stop = r.stop.onSheet sheet from rfl, moved r.start small.1 sums.1,
          moved r.stop small.2 sums.2]
        rfl
      rw [replacement, render, getD_renderedRange? (by rw [Range.sheet, copied_sheet]; exact written)]
      refine .range bound size (bind?_onSheet_range ?_ ?_) isSome rfl
      · rw [copied_sheet, copied_sheet]
        rfl
      · rw [Range.sheet, copied_sheet]
        exact leads

/-- **The meaning of a copied formula.**  Some of its references are written anew, not those that
lead nowhere, and it is read like the formula, with each reference where it goes, if all coordinates
and the sizes of the sheets are the same as signed 64-bit integers and so are the sums. -/
theorem parse_relocate {formula : String} {e : Expr} (parsed : parse formula = .ok e)
    (small : ∀ m ∈ e.leaves, m.IsSmall ∧ m.SumsFit (.between source target)) :
    ∃ replace : Mention → Option Mention,
      relocate source target false (.ofSheets sheets) formula =
        replaceMentions (fun m => (replace m).map Mention.text) formula ∧
      parse (relocate source target false (.ofSheets sheets) formula) =
        .ok (e.mapMentions fun m => (replace m).getD m) ∧
      ∀ m ∈ e.leaves, m.IsCopy source target (.ofSheets sheets) ((replace m).getD m) ∧
        (m.sheet? source.sheet (.ofSheets sheets) = none → replace m = none) := by
  have regular := Directory.regular_ofSheets nodup valid
  have valid' : isValid formula = true := by
    rw [isValid, parsed]
    rfl
  rw [leaves_of_parse parsed] at small ⊢
  have copies : ∀ m ∈ (mentions formula).map Prod.fst, m.IsCopy source target (.ofSheets sheets)
      (replacement (relocated? source target false (.ofSheets sheets)) m) := fun m hm =>
    isCopy_relocated? nodup valid sizes hsource htarget place (small m hm).1 (small m hm).2
  refine ⟨relocated? source target false (.ofSheets sheets), relocate_eq .., ?_,
    fun m hm => ⟨copies m hm, relocated?_of_missing⟩⟩
  rw [relocate_eq, parse_replaceMentions valid'
    (fun m hm new isNew => writable_relocated? isNew regular.proper
      (sound_of_mem_mentions hm).positive) ?_, parsed]
  · rfl
  · intro m hm new isNew
    have listed := List.mem_map_of_mem (f := Prod.fst) hm
    have isCopy := copies m.1 listed
    rw [replacement, isNew] at isCopy
    refine (isCopy.isSmall (fun i bounds size => ?_) (small m.1 listed).1).fits
    obtain ⟨s, found, rfl⟩ := Option.map_eq_some_iff.mp size
    exact sizes s (List.mem_of_getElem? found)

end

/-- A copy to another sheet, which is smaller: references to the own sheet follow, pinned axes stay,
a range is brought back into the sheet, and a reference to no sheet keeps its small letter. -/
theorem parse_relocate_smaller :
    let sheets : List Sheet := [⟨"One", 5, 5⟩, ⟨"it's", 3, 4⟩]
    let formula := "$A5+a$2*One!B4-SUM('it''s'!A1:$B3)-Two!c1"
    let text := relocate ⟨0, 4, 1⟩ ⟨1, 1, 3⟩ false (.ofSheets sheets) formula
    text = "$A2+C$2*'it''s'!D1-SUM('it''s'!C1:$B1)-Two!c1" ∧ ∃ e, parse formula = .ok e ∧
      ∃ replace : Mention → Option Mention,
        text = replaceMentions (fun m => (replace m).map Mention.text) formula ∧
        parse text = .ok (e.mapMentions fun m => (replace m).getD m) ∧
        ∀ m ∈ e.leaves, m.IsCopy ⟨0, 4, 1⟩ ⟨1, 1, 3⟩ (.ofSheets sheets) ((replace m).getD m) ∧
          (m.sheet? 0 (.ofSheets sheets) = none → replace m = none) := by
  intro sheets formula text
  have lexed : tokens formula = .ok
      [.cell ⟨none, 5, 1, false, true⟩, .operator .plus, .cell ⟨none, 2, 1, true, false⟩,
        .operator .times, .cell ⟨some "One", 4, 2, false, false⟩, .operator .minus,
        .function "SUM", .leftParen,
        .range ⟨⟨some "it's", 1, 1, false, false⟩, ⟨some "it's", 3, 2, false, true⟩⟩, .rightParen,
        .operator .minus, .cell ⟨some "Two", 1, 3, false, false⟩] := by decide +kernel
  have parsed : ∃ e, parse formula = .ok e := by
    rw [parse, lexed]
    exact ⟨_, rfl⟩
  obtain ⟨e, parsed⟩ := parsed
  refine ⟨by decide +kernel, e, parsed, ?_⟩
  have small : ∀ m ∈ e.leaves,
      m.IsSmall ∧ m.SumsFit (.between ⟨0, 4, 1⟩ ⟨1, 1, 3⟩) := by
    rw [leaves_of_parse parsed]
    decide +kernel
  exact parse_relocate (by decide) (by decide) (by decide) (by decide) (by decide) (by decide) parsed
    small

/-- On a sheet whose size is negative as a signed 64-bit integer, a reference that moves by one row
goes to the last row. -/
theorem not_parse_relocate_of_size :
    let sheets : List Sheet := [⟨"One", signedLimit, 15⟩]
    let r : WrittenReference := ⟨none, 5, 1, false, false⟩
    let text := relocate ⟨0, 1, 1⟩ ⟨0, 2, 1⟩ false (.ofSheets sheets) "A5"
    (sheets.map Sheet.name).Nodup ∧ (∀ s ∈ sheets, Sheet.isValidName s.name = true) ∧
      parse "A5" = .ok (.cell r) ∧ text = "A9223372036854775808" ∧
      ¬ ∃ copy : Mention → Mention, parse text = .ok ((Expr.cell r).mapMentions copy) ∧
        (Mention.cell r).IsCopy ⟨0, 1, 1⟩ ⟨0, 2, 1⟩ (.ofSheets sheets) (copy (.cell r)) := by
  intro sheets r text
  have moved : text = "A9223372036854775808" := by decide +kernel
  have lexed : tokens "A5" = .ok [.cell r] := by decide +kernel
  have read : parse "A5" = .ok (.cell r) := by
    rw [parse, lexed]
    rfl
  let last : WrittenReference := ⟨none, 9223372036854775808, 1, false, false⟩
  have lexed' : tokens text = .ok [.cell last] := by decide +kernel
  have read' : parse text = .ok (.cell last) := by
    rw [parse, lexed']
    rfl
  refine ⟨by decide, by decide, read, moved, ?_⟩
  rintro ⟨copy, parsed, isCopy⟩
  have replaced : copy (.cell r) = .cell last := by
    rw [read'] at parsed
    have same : Expr.cell last = (copy (.cell r)).expr := Except.ok.inj parsed
    cases new : copy (.cell r) with
    | range _ =>
      rw [new] at same
      cases same
    | cell _ =>
      rw [new] at same
      cases same
      rfl
  rw [replaced] at isCopy
  generalize hnew : Mention.cell last = new at isCopy
  cases isCopy with
  | unknown missing => exact absurd missing nofun
  | cell leads size goes =>
    cases hnew
    cases leads
    cases size
    have row := congrArg Reference.row (Option.some.inj goes)
    exact absurd row (by decide)

end Spreadsheet.Formula
