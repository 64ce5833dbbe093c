import Spreadsheet.Formula.Relocation
import Spreadsheet.Proofs.Formula.Splicing
import Spreadsheet.Proofs.Reference.Spelling

/-!
# References of formulas that move

A copy and a cut replace references by the text of other references.

* `relocated?` and `retargeted?`: the reference that comes to stand for another one.
* `Mention.Sound m`: what holds of every reference that is read in a formula.
* `writable_of_mem_mentions`: a reference that is read could be written where it stands.
* `writable_relocated?` and `writable_retargeted?`: the new references can be told from what stands
  around them.
* `Tidy.relocate` and `Tidy.retarget`: copies and cuts keep formulas tidy.
-/

namespace Spreadsheet

def Formula.Cut.Proper (cut : Formula.Cut) : Prop :=
  ∀ source target : CellId, cut.moved[source]? = some target → 1 ≤ target.row ∧ 1 ≤ target.col

def Directory.Proper (directory : Directory) : Prop :=
  ∀ index name, directory.name? index = some name → Sheet.isValidName name = true

/-- Valid names, each found at its sheet, for all sheets that have a size. -/
structure Directory.Regular (directory : Directory) : Prop where
  proper : directory.Proper
  found : ∀ index name, directory.name? index = some name → directory.index? name = some index
  named : ∀ index, (directory.bounds? index).isSome = true → (directory.name? index).isSome = true

theorem Directory.index?_ofSheets (sheets : List Sheet) (name : String) :
    (ofSheets sheets).index? name = (sheets.map Sheet.name).findIdx? (· == name) := by
  rw [List.findIdx?_map]
  rfl

theorem Directory.name?_ofSheets (sheets : List Sheet) (i : Nat) :
    (ofSheets sheets).name? i = (sheets.map Sheet.name)[i]? :=
  List.getElem?_map.symm

theorem Directory.name?_of_index?_ofSheets {sheets : List Sheet} {name : String} {i : Nat}
    (found : (ofSheets sheets).index? name = some i) : (ofSheets sheets).name? i = some name := by
  rw [index?_ofSheets, List.findIdx?_eq_some_iff_getElem] at found
  obtain ⟨lt, same, -⟩ := found
  rw [name?_ofSheets, List.getElem?_eq_getElem lt, eq_of_beq same]

section

variable {sheets : List Sheet} (nodup : (sheets.map Sheet.name).Nodup)

include nodup

theorem Directory.index?_ofSheets_eq_some_iff (name : String) (i : Nat) :
    (ofSheets sheets).index? name = some i ↔ (ofSheets sheets).name? i = some name := by
  refine ⟨name?_of_index?_ofSheets, fun found => ?_⟩
  rw [name?_ofSheets] at found
  obtain ⟨lt, same⟩ := List.getElem?_eq_some_iff.mp found
  rw [index?_ofSheets, List.findIdx?_eq_some_iff_getElem]
  refine ⟨lt, by rw [same]; exact beq_self_eq_true name, ?_⟩
  intro j before
  rw [Bool.not_eq_true, beq_eq_false_iff_ne, ← same]
  exact List.pairwise_iff_getElem.mp nodup j i (Nat.lt_trans before lt) lt before

theorem Directory.regular_ofSheets (valid : ∀ s ∈ sheets, Sheet.isValidName s.name = true) :
    (ofSheets sheets).Regular where
  proper index name found := by
    obtain ⟨s, hs, rfl⟩ := Option.map_eq_some_iff.mp found
    exact valid s (List.mem_of_getElem? hs)
  found index name named := (index?_ofSheets_eq_some_iff nodup name index).mpr named
  named index known := by
    have known : ((sheets[index]?).map Sheet.bounds).isSome = true := known
    show ((sheets[index]?).map Sheet.name).isSome = true
    rw [Option.isSome_map] at known ⊢
    exact known

end

namespace Formula

/-! ### References that are read -/

/-- The reference or range has coordinates counted from 1 that fit 64 bits, on one sheet. -/
structure Mention.Sound (m : Mention) : Prop where
  positive : m.Positive
  fits : m.Fits
  sheets : ∀ r, m = .range r → r.stop.sheet = r.start.sheet

theorem sound_of_referenceToken {word : List Char} {m : Mention}
    (read : referenceToken word = .ok m.token) : m.Sound := by
  have found := m.mention?_token
  rcases referenceToken_eq_ok read with ⟨r, ok, same⟩ | ⟨r, ok, -, same⟩
  · rw [same] at found
    cases found
    obtain ⟨positive, fits, same⟩ := Range.ofChars_eq_ok ok
    refine ⟨positive, fits, ?_⟩
    rintro r' same'
    cases same'
    exact same
  · rw [same] at found
    cases found
    obtain ⟨positive, fits⟩ := Reference.ofChars_eq_ok ok
    exact ⟨positive, fits, nofun⟩

theorem writable_of_referenceToken {word : List Char} {m : Mention}
    (read : referenceToken word = .ok m.token) : m.Writable where
  positive := (sound_of_referenceToken read).positive
  sheets := (sound_of_referenceToken read).sheets
  name := by
    rintro r rfl name named colon
    rcases referenceToken_eq_ok read with ⟨r', -, same⟩ | ⟨r', ok, none, same⟩
    · cases same
    · cases same
      obtain ⟨s, rfl, rfl⟩ := Reference.exists_spelling ok
      exact none (List.mem_append_left _ (s.front.mem_chars named colon))

theorem Lexed.exists_mention {due : Bool} {c : Char} {cs : List Char} {t : Token} {n : Nat}
    (h : Lexed due c cs t n) {m : Mention} (found : t.mention? = some m) :
    ∃ word, referenceToken word = .ok m.token := by
  cases h with
  | leftParen | rightParen | comma | text | operator => exact absurd found nofun
  | quoted _ _ _ read => exact ⟨_, Token.eq_of_mention? found ▸ read⟩
  | negative _ _ _ read =>
    obtain ⟨x, rfl⟩ := number_of_numberToken read
    exact absurd found nofun
  | function _ _ read =>
    obtain ⟨name, rfl⟩ := function_of_functionToken read
    exact absurd found nofun
  | word _ _ read =>
    rcases wordToken_eq_ok read with ⟨x, rfl⟩ | ⟨b, rfl⟩ | read
    · exact absurd found nofun
    · exact absurd found nofun
    · exact ⟨_, Token.eq_of_mention? found ▸ read⟩

theorem exists_word_of_mem_mentions {formula : String} {m : Mention × List Char}
    (mem : m ∈ mentions formula) : ∃ word, referenceToken word = .ok m.1.token := by
  have all : ∀ {due : Bool} {cs : List Char} {ps : List Piece}, Pieced due cs ps →
      ∀ m ∈ ps.filterMap Piece.mention?, ∃ word, referenceToken word = .ok m.1.token := by
    intro due cs ps h
    induction h with
    | nil => exact fun _ hm => absurd hm List.not_mem_nil
    | blank _ _ ih => exact ih
    | @token _ _ _ t _ _ _ lexed _ ih =>
      intro m hm
      rw [List.mem_filterMap] at hm
      obtain ⟨p, hp, found⟩ := hm
      rcases List.mem_cons.mp hp with rfl | hp
      · obtain ⟨m', isMention, rfl⟩ := Option.map_eq_some_iff.mp found
        exact lexed.exists_mention isMention
      · exact ih m (List.mem_filterMap.mpr ⟨p, hp, found⟩)
  cases ok : pieces formula with
  | error e =>
    rw [mentions, piecesOrNone, ok] at mem
    exact absurd mem List.not_mem_nil
  | ok ps =>
    rw [mentions_of_pieces ok] at mem
    exact all (pieces_eq_ok_iff.mp ok) m mem

/-- **Every reference in a formula is sound.** -/
theorem sound_of_mem_mentions {formula : String} {m : Mention × List Char}
    (mem : m ∈ mentions formula) : m.1.Sound := by
  obtain ⟨word, read⟩ := exists_word_of_mem_mentions mem
  exact sound_of_referenceToken read

/-- Every reference in a formula could be written there, also where a sheet has a name that is not
valid. -/
theorem writable_of_mem_mentions {formula : String} {m : Mention × List Char}
    (mem : m ∈ mentions formula) : m.1.Writable := by
  obtain ⟨word, read⟩ := exists_word_of_mem_mentions mem
  exact writable_of_referenceToken read

/-! ### What is written in their place -/

def renderedCell? (written : WrittenReference) (new : BoundReference) (home : Nat)
    (directory : Directory) : Option Mention := do
  let sheet ← sheetToWrite? written.sheet.isSome new.sheet home directory
  let rendered := new.onSheet sheet
  if rendered = written then none else some (.cell rendered)

def renderedRange? (written : WrittenRange) (new : BoundRange) (home : Nat)
    (directory : Directory) : Option Mention := do
  let sheet ← sheetToWrite? written.start.sheet.isSome new.sheet home directory
  let rendered := new.onSheet sheet
  if rendered = written then none else some (.range rendered)

def relocated? (source target : CellId) (isCut : Bool) (directory : Directory) :
    Mention → Option Mention
  | .cell written => do
    let bound ← written.bind? source.sheet directory
    let sheet := followSheet bound.sheet source.sheet target.sheet isCut
    let moved ← shiftOnto? bound (distanceOf source target isCut) true sheet directory
    renderedCell? written moved target.sheet directory
  | .range written => do
    let bound ← written.bind? source.sheet directory
    let sheet := followSheet bound.sheet source.sheet target.sheet isCut
    let start ← shiftOnto? bound.start (distanceOf source target isCut) true sheet directory
    let stop ← shiftOnto? bound.stop (distanceOf source target isCut) true sheet directory
    renderedRange? written ⟨start, stop⟩ target.sheet directory

/-- Where a reference goes when cells are cut. -/
def Cut.cell (cut : Cut) (r : BoundReference) : BoundReference :=
  match cut.moved[r.cell]? with
  | some id => { r with sheet := id.sheet, row := id.row, col := id.col }
  | none => r

def Cut.range? (cut : Cut) (directory : Directory) (r : BoundRange) : Option BoundRange :=
  if cut.source.contains r.start.cell && cut.source.contains r.stop.cell then do
    let start ← shiftOnto? r.start cut.distance false cut.targetSheet directory
    let stop ← shiftOnto? r.stop cut.distance false cut.targetSheet directory
    return ⟨start, stop⟩
  else some r

def retargeted? (home newHome : Nat) (cut : Cut) (directory : Directory) :
    Mention → Option Mention
  | .cell written => do
    let bound ← written.bind? home directory
    renderedCell? written (cut.cell bound) newHome directory
  | .range written => do
    let bound ← written.bind? home directory
    let target ← cut.range? directory bound
    renderedRange? written target newHome directory

theorem renderCell?_eq (written : WrittenReference) (new : BoundReference) (home : Nat)
    (directory : Directory) :
    renderCell? written new home directory =
      (renderedCell? written new home directory).map Mention.text := by
  rw [renderCell?, renderedCell?]
  cases sheetToWrite? written.sheet.isSome new.sheet home directory with
  | none => rfl
  | some sheet =>
    simp only [Option.bind_eq_bind, Option.bind_some]
    split <;> rfl

theorem renderRange?_eq (written : WrittenRange) (new : BoundRange) (home : Nat)
    (directory : Directory) :
    renderRange? written new home directory =
      (renderedRange? written new home directory).map Mention.text := by
  rw [renderRange?, renderedRange?]
  cases sheetToWrite? written.start.sheet.isSome new.sheet home directory with
  | none => rfl
  | some sheet =>
    simp only [Option.bind_eq_bind, Option.bind_some]
    split <;> rfl

theorem relocateMention_eq (source target : CellId) (isCut : Bool) (directory : Directory) :
    relocateMention source target isCut directory =
      fun m => (relocated? source target isCut directory m).map Mention.text := by
  funext m
  cases m <;>
    simp only [relocateMention, relocated?, renderCell?_eq, renderRange?_eq, Option.bind_eq_bind,
      Option.map_bind, Function.comp_def]

theorem retargetMention_eq (home newHome : Nat) (cut : Cut) (directory : Directory) :
    retargetMention home newHome cut directory =
      fun m => (retargeted? home newHome cut directory m).map Mention.text := by
  funext m
  cases m with
  | cell written =>
    simp only [retargetMention, retargeted?, renderCell?_eq, Option.bind_eq_bind, Option.map_bind,
      Function.comp_def]
    rfl
  | range written =>
    simp only [retargetMention, retargeted?, renderRange?_eq, Option.bind_eq_bind, Option.map_bind,
      Function.comp_def, Cut.range?]
    refine congrArg (Option.bind _) (funext fun bound => ?_)
    split
    · simp only [Option.bind_assoc, Option.bind_some, Option.pure_def]
    · rfl

theorem retarget_eq (home newHome : Nat) (cut : Cut) (directory : Directory) (formula : String) :
    retarget home newHome cut directory formula =
      replaceMentions (fun m => (retargeted? home newHome cut directory m).map Mention.text)
        formula := by
  rw [retarget, retargetMention_eq]

theorem relocate_eq (source target : CellId) (isCut : Bool) (directory : Directory)
    (formula : String) :
    relocate source target isCut directory formula =
      replaceMentions (fun m => (relocated? source target isCut directory m).map Mention.text)
        formula := by
  rw [relocate, relocateMention_eq]

/-! ### The new references are writable -/

theorem name_of_sheetToWrite? {qualified : Bool} {sheet home : Nat} {directory : Directory}
    {written : Option String} (h : sheetToWrite? qualified sheet home directory = some written)
    {name : String} (named : written = some name) : directory.name? sheet = some name := by
  rw [sheetToWrite?] at h
  split at h
  · cases h
    exact absurd named nofun
  · obtain ⟨name', found, rfl⟩ := Option.map_eq_some_iff.mp h
    rw [found, named]

theorem colon_not_mem_of_isValidName {name : String} (valid : Sheet.isValidName name = true) :
    ':' ∉ name.toList := by
  intro mem
  simp only [Sheet.isValidName, Bool.and_eq_true, List.all_eq_true] at valid
  have colon := valid.2 ':' mem
  simp at colon

theorem writable_renderedCell? {written : WrittenReference} {new : BoundReference} {home : Nat}
    {directory : Directory} {m : Mention}
    (h : renderedCell? written new home directory = some m) (proper : directory.Proper)
    (positive : new.Positive) : m.Writable := by
  obtain ⟨sheet, found, h⟩ := Option.bind_eq_some_iff.mp h
  dsimp only at h
  split at h
  · exact absurd h nofun
  · cases h
    refine ⟨positive, nofun, ?_⟩
    rintro r ⟨⟩ name named
    exact colon_not_mem_of_isValidName (proper _ name (name_of_sheetToWrite? found named))

theorem writable_renderedRange? {written : WrittenRange} {new : BoundRange} {home : Nat}
    {directory : Directory} {m : Mention}
    (h : renderedRange? written new home directory = some m) (start : new.start.Positive)
    (stop : new.stop.Positive) : m.Writable := by
  obtain ⟨sheet, found, h⟩ := Option.bind_eq_some_iff.mp h
  dsimp only at h
  split at h
  · exact absurd h nofun
  · cases h
    refine ⟨⟨start, stop⟩, ?_, nofun⟩
    rintro r same
    cases same
    rfl

theorem clampAxis_pos (value : Int) (bound : Nat) : 0 < (clampAxis value bound).1 := by
  rw [clampAxis]
  split
  · exact Nat.one_pos
  · split
    · exact Nat.lt_of_lt_of_le Nat.one_pos (Nat.le_max_right _ _)
    · show 0 < value.toNat
      omega

theorem positive_shift {S : Type} {r : Reference S} {d : Distance} {honorFixed : Bool}
    {bounds : Bounds} (positive : r.Positive) : (r.shift d honorFixed bounds).1.Positive := by
  rw [Reference.shift]
  split
  · exact positive
  · exact ⟨clampAxis_pos _ _, clampAxis_pos _ _⟩

theorem positive_shiftOnto? {r : BoundReference} {d : Distance} {honorFixed : Bool} {sheet : Nat}
    {directory : Directory} {new : BoundReference}
    (h : shiftOnto? r d honorFixed sheet directory = some new) (positive : r.Positive) :
    new.Positive := by
  obtain ⟨bounds, -, same⟩ := Option.bind_eq_some_iff.mp h
  cases same
  show (r.shift d honorFixed bounds).1.Positive
  exact positive_shift positive

theorem positive_bind?_cell {written : WrittenReference} {home : Nat} {directory : Directory}
    {bound : BoundReference} (h : written.bind? home directory = some bound)
    (positive : written.Positive) : bound.Positive := by
  rw [bind?_cell] at h
  obtain ⟨sheet, -, rfl⟩ := Option.map_eq_some_iff.mp h
  exact positive

theorem positive_bind?_range {written : WrittenRange} {home : Nat} {directory : Directory}
    {bound : BoundRange} (h : written.bind? home directory = some bound)
    (positive : written.Positive) : bound.start.Positive ∧ bound.stop.Positive := by
  rw [bind?_range] at h
  obtain ⟨sheet, -, rfl⟩ := Option.map_eq_some_iff.mp h
  exact positive

theorem writable_relocated? {source target : CellId} {isCut : Bool} {directory : Directory}
    {m new : Mention} (h : relocated? source target isCut directory m = some new)
    (proper : directory.Proper) (positive : m.Positive) : new.Writable := by
  cases m with
  | cell written =>
    obtain ⟨bound, found, h⟩ := Option.bind_eq_some_iff.mp h
    obtain ⟨moved, shifted, h⟩ := Option.bind_eq_some_iff.mp h
    exact writable_renderedCell? h proper
      (positive_shiftOnto? shifted (positive_bind?_cell found positive))
  | range written =>
    obtain ⟨bound, found, h⟩ := Option.bind_eq_some_iff.mp h
    obtain ⟨start, shiftedStart, h⟩ := Option.bind_eq_some_iff.mp h
    obtain ⟨stop, shiftedStop, h⟩ := Option.bind_eq_some_iff.mp h
    obtain ⟨positiveStart, positiveStop⟩ := positive_bind?_range found positive
    exact writable_renderedRange? h (positive_shiftOnto? shiftedStart positiveStart)
      (positive_shiftOnto? shiftedStop positiveStop)

theorem positive_cut_cell {cut : Cut} {r : BoundReference} (proper : cut.Proper)
    (positive : r.Positive) : (cut.cell r).Positive := by
  rw [Cut.cell]
  split
  · exact proper _ _ ‹_›
  · exact positive

theorem positive_cut_range? {cut : Cut} {directory : Directory} {r new : BoundRange}
    (h : cut.range? directory r = some new) (start : r.start.Positive) (stop : r.stop.Positive) :
    new.start.Positive ∧ new.stop.Positive := by
  rw [Cut.range?] at h
  split at h
  · obtain ⟨newStart, shiftedStart, h⟩ := Option.bind_eq_some_iff.mp h
    obtain ⟨newStop, shiftedStop, h⟩ := Option.bind_eq_some_iff.mp h
    cases h
    exact ⟨positive_shiftOnto? shiftedStart start, positive_shiftOnto? shiftedStop stop⟩
  · cases h
    exact ⟨start, stop⟩

theorem writable_retargeted? {home newHome : Nat} {cut : Cut} {directory : Directory}
    {m new : Mention} (h : retargeted? home newHome cut directory m = some new)
    (proper : directory.Proper) (properCut : cut.Proper) (positive : m.Positive) :
    new.Writable := by
  cases m with
  | cell written =>
    obtain ⟨bound, found, h⟩ := Option.bind_eq_some_iff.mp h
    exact writable_renderedCell? h proper
      (positive_cut_cell properCut (positive_bind?_cell found positive))
  | range written =>
    obtain ⟨bound, found, h⟩ := Option.bind_eq_some_iff.mp h
    obtain ⟨target, moved, h⟩ := Option.bind_eq_some_iff.mp h
    obtain ⟨positiveStart, positiveStop⟩ := positive_bind?_range found positive
    obtain ⟨start, stop⟩ := positive_cut_range? moved positiveStart positiveStop
    exact writable_renderedRange? h start stop

/-! ### Tidy formulas -/

theorem Tidy.relocate {formula : String} (h : Tidy formula) (source target : CellId) (isCut : Bool)
    (directory : Directory) : Tidy (relocate source target isCut directory formula) := by
  rw [relocate_eq]
  exact h.replaceMentions _

theorem Tidy.retarget {formula : String} (h : Tidy formula) (home newHome : Nat) (cut : Cut)
    (directory : Directory) : Tidy (retarget home newHome cut directory formula) := by
  rw [retarget_eq]
  exact h.replaceMentions _

end Formula

end Spreadsheet
