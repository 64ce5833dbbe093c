import Spreadsheet.Proofs.Formula.Copying

/-!
# A formula that is cut on its own

There are two ways to write a formula for the sheet to which a cut takes it.  `relocate` lets its
references stand still, and `retarget` has them follow the cells that move.  When no cell that it reads
moves, the two write the same text.

* `replaceMentions_congr`: what is replaced alike gives the same text.
* `renderedCell?_of_unsized`, `renderedRange?_of_unsized`: a reference to a sheet without size is not
  written anew.
* `relocated?_cut`: the same reference replaces another one in both ways.
* `relocate_cut`: both ways give the same text.
-/

namespace Spreadsheet.Formula

theorem replaceMentions_congr {replace replace' : Mention → Option String} {formula : String}
    (alike : ∀ m ∈ mentions formula, replace m.1 = replace' m.1) :
    replaceMentions replace formula = replaceMentions replace' formula := by
  rw [replaceMentions, replaceMentions]
  cases ok : pieces formula with
  | error e => rfl
  | ok ps =>
    rw [mentions_of_pieces ok] at alike
    refine congrArg String.ofList (List.flatMap_congr fun p hp => ?_)
    rw [Piece.replaced, Piece.replaced]
    cases found : p.mention? with
    | none => rfl
    | some m =>
      dsimp only
      rw [alike m (List.mem_filterMap.mpr ⟨p, hp, found⟩)]

/-- A reference that moves by no distance stays where it is, if its sheet has a size. -/
theorem shiftOnto?_zero {S : Type} (r : Reference S) (sheet : Nat) (directory : Directory) :
    shiftOnto? (r.onSheet sheet) Distance.zero true sheet directory =
      (directory.bounds? sheet).map fun _ => r.onSheet sheet := by
  rw [shiftOnto?]
  cases directory.bounds? sheet with
  | none => rfl
  | some bounds => simp [Reference.shift, Reference.onSheet_onSheet]

theorem contains_of_corners {block r : BoundRange} (start : block.contains r.start.cell = true)
    (stop : block.contains r.stop.cell = true) {x : CellId} (mem : x ∈ r.cells) :
    block.contains x = true := by
  rw [Range.contains_iff] at start stop ⊢
  rw [mem_range_cells] at mem
  simp only [Range.top, Range.bottom, Range.left, Range.right, Reference.cell, Range.sheet] at *
  omega

section

variable {directory : Directory}
  (sized : ∀ index, (directory.name? index).isSome = true → (directory.bounds? index).isSome = true)

include sized

/-- In front of a sheet without size stands what stood there, if anything can be written. -/
theorem eq_of_sheetToWrite?_of_unsized {m : Mention} {sheet home : Nat} {front : Option String}
    (unsized : directory.bounds? sheet = none)
    (h : sheetToWrite? m.writtenSheet.isSome sheet home directory = some front) :
    front = m.writtenSheet := by
  rw [sheetToWrite?] at h
  split at h
  · rename_i bare
    rw [Bool.and_eq_true, Bool.not_eq_true', Option.isSome_eq_false_iff, Option.isNone_iff_eq_none]
      at bare
    rw [bare.1]
    exact (Option.some.inj h).symm
  · obtain ⟨name, named, -⟩ := Option.map_eq_some_iff.mp h
    have size := sized sheet (by rw [named]; rfl)
    rw [unsized] at size
    exact absurd size Bool.false_ne_true

theorem renderedCell?_of_unsized {written : WrittenReference} {sheet home : Nat}
    (unsized : directory.bounds? sheet = none) :
    renderedCell? written (written.onSheet sheet) home directory = none :=
  renderedCell?_eq_none fun _ h =>
    eq_of_sheetToWrite?_of_unsized sized (m := .cell written) unsized h

theorem renderedRange?_of_unsized {written : WrittenRange}
    (same : written.stop.sheet = written.start.sheet) {sheet home : Nat}
    (unsized : directory.bounds? sheet = none) :
    renderedRange? written (written.onSheet sheet) home directory = none :=
  renderedRange?_eq_none same fun _ h =>
    eq_of_sheetToWrite?_of_unsized sized (m := .range written) unsized h

variable {source target : CellId} {cut : Cut} (still : cut.moved = ∅)

include still

/-- **The same reference replaces another one in both ways.** -/
theorem relocated?_cut {m : Mention} (sound : m.Sound)
    (outside : ∀ r, m = .range r → ∀ sheet, m.sheet? source.sheet directory = some sheet →
      ∃ x ∈ m.cellsOn sheet, cut.source.contains x = false) :
    relocated? source target true directory m =
      retargeted? source.sheet target.sheet cut directory m := by
  cases m with
  | cell written =>
    rw [relocated?, retargeted?, bind?_cell]
    cases found : (Mention.cell written).sheet? source.sheet directory with
    | none => rfl
    | some sheet =>
      have here : cut.cell (written.onSheet sheet) = written.onSheet sheet := by
        rw [Cut.cell, still, Std.ExtTreeMap.getElem?_empty]
      simp only [Option.map_some, Option.bind_eq_bind, Option.bind_some, here]
      show (shiftOnto? (written.onSheet sheet) Distance.zero true sheet directory).bind
        (fun moved => renderedCell? written moved target.sheet directory) = _
      rw [shiftOnto?_zero]
      cases size : directory.bounds? sheet with
      | none => exact (renderedCell?_of_unsized sized size).symm
      | some bounds => rfl
  | range written =>
    rw [relocated?, retargeted?, bind?_range]
    cases found : (Mention.range written).sheet? source.sheet directory with
    | none => rfl
    | some sheet =>
      have here : cut.range? directory (written.onSheet sheet) = some (written.onSheet sheet) := by
        obtain ⟨x, mem, apart⟩ := outside written rfl sheet found
        refine if_neg fun corners => ?_
        rw [Bool.and_eq_true] at corners
        have inside := contains_of_corners corners.1 corners.2 mem
        exact absurd (apart.symm.trans inside) Bool.false_ne_true
      simp only [Option.map_some, Option.bind_eq_bind, Option.bind_some, here]
      show (shiftOnto? (written.start.onSheet sheet) Distance.zero true sheet directory).bind
        (fun start => (shiftOnto? (written.stop.onSheet sheet) Distance.zero true sheet directory).bind
          fun stop => renderedRange? written ⟨start, stop⟩ target.sheet directory) =
        renderedRange? written (written.onSheet sheet) target.sheet directory
      rw [shiftOnto?_zero, shiftOnto?_zero]
      cases size : directory.bounds? sheet with
      | none => exact (renderedRange?_of_unsized sized (sound.sheets written rfl) size).symm
      | some bounds => rfl

/-- **A formula that is cut is written in the same way as one that follows a cut** of which it sees
nothing: no cell has moved in it, and no range of the formula lies in its block.  Sheets with a name
have a size. -/
theorem relocate_cut {formula : String}
    (outside : ¬ HasRangeIn cut.source source.sheet directory formula) :
    relocate source target true directory formula =
      retarget source.sheet target.sheet cut directory formula := by
  rw [relocate_eq, retarget_eq]
  refine replaceMentions_congr fun m hm => ?_
  refine congrArg (Option.map Mention.text) (relocated?_cut sized still (sound_of_mem_mentions hm) ?_)
  intro r isRange sheet found
  by_contra none
  refine outside ⟨m, hm, r, isRange, sheet, found, fun x hx => ?_⟩
  by_contra apart
  exact none ⟨x, hx, Bool.eq_false_iff.mpr apart⟩

end

/-- A formula leaves its sheet.  Its range has cells in the block of the cut and one beside it. -/
theorem relocate_cut_beside :
    let directory : Directory := .ofSheets [⟨"One", 3, 3⟩, ⟨"it's", 3, 4⟩]
    let cut : Cut := ⟨∅, .block 0 1 1 2 2, 1, ⟨1, 1⟩⟩
    let formula := "a1+SUM( A2:$C2 )*'it''s'!B1-Two!A1"
    let written := "One!A1+SUM( One!A2:$C2 )*'it''s'!B1-Two!A1"
    (∀ index, (directory.name? index).isSome = true → (directory.bounds? index).isSome = true) ∧
      ¬ HasRangeIn cut.source 0 directory formula ∧
      relocate ⟨0, 1, 3⟩ ⟨1, 1, 1⟩ true directory formula = written ∧
      retarget 0 1 cut directory formula = written := by
  intro directory cut formula written
  have sized : ∀ index, (directory.name? index).isSome = true →
      (directory.bounds? index).isSome = true := by
    intro index named
    simpa [directory, Directory.ofSheets] using named
  have outside : ¬ HasRangeIn cut.source 0 directory formula := by
    rintro ⟨m, hm, r, isRange, sheet, found, inside⟩
    have beside : ((mentions formula).all fun m => m.1.size?.isNone ||
        (m.1.sheet? 0 directory).all fun sheet =>
          (m.1.cellsOn sheet).any (!cut.source.contains ·)) = true := by decide +kernel
    have here := List.all_eq_true.mp beside m hm
    rw [isRange] at found inside here
    rw [found] at here
    obtain ⟨x, hx, apart⟩ := List.any_eq_true.mp here
    rw [inside x hx] at apart
    exact absurd apart nofun
  have same : relocate ⟨0, 1, 3⟩ ⟨1, 1, 1⟩ true directory formula = retarget 0 1 cut directory formula :=
    relocate_cut sized rfl outside
  have text : relocate ⟨0, 1, 3⟩ ⟨1, 1, 1⟩ true directory formula = written := by decide +kernel
  exact ⟨sized, outside, text, same.symm.trans text⟩

end Spreadsheet.Formula
