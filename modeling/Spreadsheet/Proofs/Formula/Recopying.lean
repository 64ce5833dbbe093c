import Spreadsheet.Proofs.Formula.Copying

/-!
# Copies of copies

A formula that is copied from one cell to a second and from there to a third says what it says when it
is copied to the third at once, as long as the first copy brings no reference back into its sheet.
Coordinates that are brought back only by the second copy end up where the single copy brings them.

* `Reference.shift_shift`: two moves, of which the first does not clamp, are one move.
* `Mention.shifted`: a reference or range that has moved within its sheet.
* `replacement_relocated?_within`: what stands for a reference in a copy within a sheet.
* `relocate_relocate`: a copy of a copy.
-/

namespace Spreadsheet

/-! ### Two moves along an axis -/

theorem signed_lt_signedLimit (n : Nat) : signed n < signedLimit :=
  Int.bmod_lt (x := n) (m := UInt64.size) (by decide)

theorem bmod_signed (n : Nat) : Int.bmod (signed n) UInt64.size = signed n := by
  unfold signed
  rw [Int.bmod_bmod]

theorem movedAxis_zero (coordinate : Nat) (stays : Bool) :
    movedAxis coordinate 0 stays = signed coordinate := by
  rw [movedAxis, Int.add_zero, bmod_signed, ite_self]

theorem lt_half_of_bmod {n half : Nat} (below : n < 2 * half) (positive : 1 ≤ Int.bmod n (2 * half)) :
    n < half := by
  have lower : (n : Int) < (2 * half : Nat) := Int.ofNat_lt.mpr below
  rw [Int.bmod_def, Int.emod_eq_of_lt (Int.natCast_nonneg n) lower] at positive
  split at positive <;> omega

theorem lt_signedLimit_of_signed {n : Nat} (sized : n < coordinateLimit) (positive : 1 ≤ signed n) :
    n < signedLimit := by
  have below : n < 2 * signedLimit := sized
  exact lt_half_of_bmod below positive

theorem clampAxis_of_free {value : Int} {bound : Nat} (free : (clampAxis value bound).2 = false) :
    1 ≤ value ∧ value ≤ signed (max bound 1) ∧ (clampAxis value bound).1 = value.toNat := by
  rw [clampAxis] at free ⊢
  split at free
  · exact absurd free.symm Bool.false_ne_true
  · rename_i low
    split at free
    · exact absurd free.symm Bool.false_ne_true
    · rename_i high
      rw [if_neg low, if_neg high]
      exact ⟨Int.not_lt.mp low, Int.not_lt.mp high, rfl⟩

theorem movedAxis_clampAxis {coordinate bound : Nat} {d : Int} {stays : Bool}
    (free : (clampAxis (movedAxis coordinate d stays) bound).2 = false) (e : Int) :
    movedAxis (clampAxis (movedAxis coordinate d stays) bound).1 e stays =
      movedAxis coordinate (Int.bmod (d + e) UInt64.size) stays := by
  obtain ⟨low, high, first⟩ := clampAxis_of_free free
  have positive : 0 ≤ movedAxis coordinate d stays := Int.le_trans (by decide) low
  have small : (movedAxis coordinate d stays).toNat < signedLimit :=
    (Int.toNat_lt positive).mpr (Int.lt_of_le_of_lt high (signed_lt_signedLimit _))
  rw [first, movedAxis, signed_of_lt small, Int.toNat_of_nonneg positive, movedAxis, movedAxis]
  split
  · rfl
  · rw [Int.bmod_add_bmod, Int.add_bmod_bmod, Int.add_assoc]

theorem clampAxis_back {coordinate bound : Nat} {d : Int} {stays : Bool}
    (free : (clampAxis (movedAxis coordinate d stays) bound).2 = false) (positive : 1 ≤ coordinate)
    (inside : coordinate ≤ bound) (sized : bound < coordinateLimit) :
    (clampAxis (movedAxis coordinate 0 stays) bound).1 = coordinate := by
  obtain ⟨low, high, -⟩ := clampAxis_of_free free
  have least : max bound 1 = bound := Nat.max_eq_left (Nat.le_trans positive inside)
  rw [least] at high
  have small : bound < signedLimit := lt_signedLimit_of_signed sized (Int.le_trans low high)
  have same : movedAxis coordinate 0 stays = coordinate := by
    rw [movedAxis_zero, signed_of_lt (Nat.lt_of_le_of_lt inside small)]
  rw [same, clampAxis, least, signed_of_lt small, if_neg (by omega), if_neg (by omega)]
  exact Int.toNat_natCast coordinate

theorem clampAxis_lt {value : Int} {bound : Nat} (sized : bound < coordinateLimit) :
    (clampAxis value bound).1 < coordinateLimit := by
  have half : signedLimit ≤ coordinateLimit := by decide
  have one : 1 < coordinateLimit := by decide
  have small := signed_lt_signedLimit (max bound 1)
  rw [clampAxis]
  split
  · exact one
  · split
    · exact Nat.max_lt.mpr ⟨sized, one⟩
    · show value.toNat < coordinateLimit
      omega

/-! ### Two moves of a reference -/

namespace Distance

/-- The distance is counted in signed 64-bit integers. -/
def IsSigned (d : Distance) : Prop :=
  d.rows.bmod UInt64.size = d.rows ∧ d.cols.bmod UInt64.size = d.cols

def followedBy (d e : Distance) : Distance :=
  ⟨Int.bmod (d.rows + e.rows) UInt64.size, Int.bmod (d.cols + e.cols) UInt64.size⟩

variable {d : Distance}

theorem zero_followedBy (signed : d.IsSigned) : zero.followedBy d = d := by
  rw [followedBy, zero, Int.zero_add, Int.zero_add, signed.1, signed.2]

theorem followedBy_zero (signed : d.IsSigned) : d.followedBy zero = d := by
  rw [followedBy, zero, Int.add_zero, Int.add_zero, signed.1, signed.2]

theorem isSigned_between (a b : CellId) : (between a b).IsSigned := by
  simp only [IsSigned, between, Int.bmod_bmod, and_self]

theorem followedBy_between (a b c : CellId) : (between a b).followedBy (between b c) = between a c := by
  rw [followedBy, between, between, between, Int.add_bmod_bmod, Int.add_bmod_bmod, Int.bmod_add_bmod,
    Int.bmod_add_bmod]
  have sum : ∀ x y z : Int, y - x + (z - y) = z - x := fun x y z => by omega
  rw [sum, sum]

end Distance

namespace Reference

variable {S : Type} {r : Reference S} {d e : Distance} {honorFixed : Bool} {bounds : Bounds}

theorem shift_zero : r.shift Distance.zero honorFixed bounds = (r, false) := if_pos rfl

theorem shift_of_moves (moves : d ≠ Distance.zero) :
    r.shift d honorFixed bounds =
      ({ r with
          row := (clampAxis (movedAxis r.row d.rows (honorFixed && r.fixedRow)) bounds.rows).1
          col := (clampAxis (movedAxis r.col d.cols (honorFixed && r.fixedCol)) bounds.cols).1 },
        (clampAxis (movedAxis r.row d.rows (honorFixed && r.fixedRow)) bounds.rows).2 ||
          (clampAxis (movedAxis r.col d.cols (honorFixed && r.fixedCol)) bounds.cols).2) :=
  if_neg moves

/-- **Two moves are one**, if the first does not bring the reference back into its sheet. -/
theorem shift_shift (hd : d.IsSigned) (he : e.IsSigned) (positive : r.Positive) (inside : r.row ≤ bounds.rows ∧ r.col ≤ bounds.cols)
    (sized : bounds.rows < coordinateLimit ∧ bounds.cols < coordinateLimit)
    (free : (r.shift d honorFixed bounds).2 = false) :
    ((r.shift d honorFixed bounds).1.shift e honorFixed bounds).1 =
      (r.shift (d.followedBy e) honorFixed bounds).1 := by
  by_cases first : d = Distance.zero
  · subst first
    rw [shift_zero, Distance.zero_followedBy he]
  · rw [shift_of_moves first, Bool.or_eq_false_iff] at free
    obtain ⟨freeRow, freeCol⟩ := free
    by_cases second : e = Distance.zero
    · subst second
      rw [shift_zero, Distance.followedBy_zero hd]
    · rw [shift_of_moves first, shift_of_moves second]
      dsimp only
      rw [movedAxis_clampAxis freeRow, movedAxis_clampAxis freeCol]
      by_cases back : d.followedBy e = Distance.zero
      · rw [back, shift_zero]
        obtain ⟨noRows, noCols⟩ := Distance.mk.inj back
        rw [noRows, noCols, clampAxis_back freeRow positive.1 inside.1 sized.1,
          clampAxis_back freeCol positive.2 inside.2 sized.2]
      · rw [shift_of_moves back]
        rfl

theorem fits_shift (fits : r.Fits)
    (sized : bounds.rows < coordinateLimit ∧ bounds.cols < coordinateLimit) :
    (r.shift d honorFixed bounds).1.Fits := by
  rw [shift]
  split
  · exact fits
  · exact ⟨clampAxis_lt sized.1, clampAxis_lt sized.2⟩

theorem shift_onSheet {T : Type} (sheet : T) :
    ((r.onSheet sheet).shift d honorFixed bounds).1 =
      (r.shift d honorFixed bounds).1.onSheet sheet := by
  by_cases still : d = Distance.zero
  · rw [still, shift_zero, shift_zero]
  · rw [shift_of_moves still, shift_of_moves still]
    rfl

theorem shift_sheet : (r.shift d honorFixed bounds).1.sheet = r.sheet := by
  rw [shift]
  split <;> rfl

end Reference

namespace Formula

/-! ### References in copies within a sheet -/

def Mention.shifted (d : Distance) (bounds : Bounds) : Mention → Mention
  | cell r => .cell (r.shift d true bounds).1
  | range r => .range ⟨(r.start.shift d true bounds).1, (r.stop.shift d true bounds).1⟩

def Mention.clamps (d : Distance) (bounds : Bounds) : Mention → Bool
  | cell r => (r.shift d true bounds).2
  | range r => (r.start.shift d true bounds).2 || (r.stop.shift d true bounds).2

/-- The copy brings the reference, or a corner of the range, back into the sheet to which it goes. -/
def Mention.IsClamped (source target : CellId) (directory : Directory) (m : Mention) : Prop :=
  ∃ sheet bounds, m.sheet? source.sheet directory = some sheet ∧
    directory.bounds? (followed source target sheet) = some bounds ∧
      m.clamps (.between source target) bounds = true

instance (source target : CellId) (directory : Directory) :
    DecidablePred (Mention.IsClamped source target directory) := fun m =>
  decidable_of_iff ((m.sheet? source.sheet directory).any (fun sheet =>
      (directory.bounds? (followed source target sheet)).any
        (m.clamps (.between source target))) = true) (by
    simp only [Mention.IsClamped, Option.any_eq_true, exists_and_left])

instance (home : Nat) (directory : Directory) (formula : String) :
    Decidable (Grounded home directory formula) :=
  decidable_of_iff (∀ m ∈ mentions formula,
      (m.1.sheet? home directory).any (m.1.isInside directory ·) = true) (by
    simp only [Grounded, Option.any_eq_true])

theorem Mention.fits_shifted {m : Mention} {d : Distance} {bounds : Bounds} (fits : m.Fits)
    (sized : bounds.rows < coordinateLimit ∧ bounds.cols < coordinateLimit) :
    (m.shifted d bounds).Fits := by
  cases m with
  | cell r => exact Reference.fits_shift fits sized
  | range r => exact ⟨Reference.fits_shift fits.1 sized, Reference.fits_shift fits.2 sized⟩

theorem Mention.writable_shifted {m : Mention} {d : Distance} {bounds : Bounds}
    (writable : m.Writable) : (m.shifted d bounds).Writable := by
  cases m with
  | cell r =>
    refine ⟨positive_shift writable.positive, nofun, ?_⟩
    rintro _ ⟨⟩ name named
    rw [Reference.shift_sheet] at named
    exact writable.name r rfl name named
  | range r =>
    refine ⟨⟨positive_shift writable.positive.1, positive_shift writable.positive.2⟩, ?_, nofun⟩
    rintro _ ⟨⟩
    exact Reference.shift_sheet.trans ((writable.sheets r rfl).trans Reference.shift_sheet.symm)

theorem Mention.writtenSheet_shifted (m : Mention) (d : Distance) (bounds : Bounds) :
    (m.shifted d bounds).writtenSheet = m.writtenSheet := by
  cases m <;> exact Reference.shift_sheet

theorem Mention.sheet?_shifted (m : Mention) (d : Distance) (bounds : Bounds) (home : Nat)
    (directory : Directory) :
    (m.shifted d bounds).sheet? home directory = m.sheet? home directory := by
  rw [sheet?, sheet?, writtenSheet_shifted]

theorem le_of_isWithin {directory : Directory} {r : BoundReference} {bounds : Bounds}
    (known : directory.bounds? r.sheet = some bounds) (within : isWithin directory r = true) :
    r.row ≤ bounds.rows ∧ r.col ≤ bounds.cols := by
  rw [isWithin, known] at within
  simpa only [Bool.and_eq_true, decide_eq_true_eq] using within

/-- Two moves of a reference or range are one, if the first does not bring it back into its sheet. -/
theorem Mention.shifted_shifted {m : Mention} (sound : m.Sound) {directory : Directory}
    {sheet : Nat} {bounds : Bounds} (known : directory.bounds? sheet = some bounds)
    (inside : m.isInside directory sheet = true)
    (sized : bounds.rows < coordinateLimit ∧ bounds.cols < coordinateLimit) {d e : Distance}
    (hd : d.IsSigned) (he : e.IsSigned) (free : m.clamps d bounds = false) :
    (m.shifted d bounds).shifted e bounds = m.shifted (d.followedBy e) bounds := by
  cases m with
  | cell r =>
    have single := Reference.shift_shift hd he sound.positive
      (le_of_isWithin (r := r.onSheet sheet) known inside) sized free
    rw [shifted, shifted, single, shifted]
  | range r =>
    rw [isInside, Bool.and_eq_true] at inside
    rw [clamps, Bool.or_eq_false_iff] at free
    have start := Reference.shift_shift hd he sound.positive.1
      (le_of_isWithin (r := r.start.onSheet sheet) known inside.1) sized free.1
    have stop := Reference.shift_shift hd he sound.positive.2
      (le_of_isWithin (r := r.stop.onSheet sheet) known inside.2) sized free.2
    rw [shifted, shifted, start, stop, shifted]

theorem exists_bounds_of_isWithin {directory : Directory} {r : BoundReference}
    (within : isWithin directory r = true) : ∃ bounds, directory.bounds? r.sheet = some bounds := by
  rw [isWithin] at within
  cases known : directory.bounds? r.sheet with
  | none =>
    rw [known] at within
    exact absurd within Bool.false_ne_true
  | some bounds => exact ⟨bounds, rfl⟩

theorem followed_within {source target : CellId} (within : target.sheet = source.sheet)
    (sheet : Nat) : followed source target sheet = sheet := by
  rw [followed, within]
  split
  · exact Eq.symm ‹_›
  · rfl

theorem Mention.clamps_eq_false {source target : CellId} {directory : Directory} {m : Mention}
    {sheet : Nat} {bounds : Bounds} (within : target.sheet = source.sheet)
    (found : m.sheet? source.sheet directory = some sheet)
    (known : directory.bounds? sheet = some bounds) (free : ¬ m.IsClamped source target directory) :
    m.clamps (.between source target) bounds = false := by
  refine Bool.eq_false_iff.mpr fun clamped => free ⟨sheet, bounds, found, ?_, clamped⟩
  rw [followed_within within, known]

theorem exists_bounds_of_isInside {directory : Directory} {m : Mention} {sheet : Nat}
    (inside : m.isInside directory sheet = true) :
    ∃ bounds, directory.bounds? sheet = some bounds := by
  cases m with
  | cell r => exact exists_bounds_of_isWithin inside
  | range r =>
    rw [Mention.isInside, Bool.and_eq_true] at inside
    exact exists_bounds_of_isWithin inside.1

section

variable {source target : CellId} {directory : Directory}

theorem distanceOf_copy : distanceOf source target false = .between source target :=
  if_neg Bool.false_ne_true

theorem shiftOnto?_onSheet {S : Type} {r : Reference S} {sheet : Nat} {bounds : Bounds}
    (known : directory.bounds? sheet = some bounds) (d : Distance) :
    shiftOnto? (r.onSheet sheet) d true sheet directory =
      some ((r.shift d true bounds).1.onSheet sheet) := by
  rw [shiftOnto?, known, Option.bind_eq_bind, Option.bind_some, Reference.shift_onSheet]
  rfl

variable (agree : ∀ name index, directory.index? name = some index →
    directory.name? index = some name)
  (within : target.sheet = source.sheet)

include agree within

/-- **What stands for a reference in a copy within a sheet** is the reference after its move. -/
theorem replacement_relocated?_within {d : Distance} (distance : distanceOf source target false = d)
    {m : Mention} (sound : m.Sound) {sheet : Nat}
    (found : m.sheet? source.sheet directory = some sheet) {bounds : Bounds}
    (known : directory.bounds? sheet = some bounds) :
    replacement (relocated? source target false directory) m = m.shifted d bounds := by
  have front := sheetToWrite?_of_sheet? agree found
  rw [replacement]
  cases m with
  | cell r =>
    have bound : r.bind? source.sheet directory = some (r.onSheet sheet) := by
      rw [bind?_cell, found, Option.map_some]
    have render : relocated? source target false directory (.cell r) =
        renderedCell? r ((r.shift d true bounds).1.onSheet sheet) source.sheet directory := by
      simp only [relocated?, bound, Option.bind_eq_bind, Option.bind_some, distance]
      rw [followSheet_copy, followed_within within, within, show (r.onSheet sheet).sheet = sheet from rfl,
        shiftOnto?_onSheet known, Option.bind_some]
    rw [render, getD_renderedCell? front]
    have same : (r.shift d true bounds).1.sheet = r.sheet := Reference.shift_sheet
    rw [Mention.shifted, show (Mention.cell r).writtenSheet = r.sheet from rfl, ← same]
    rfl
  | range r =>
    have bound : r.bind? source.sheet directory = some (r.onSheet sheet) := by
      rw [bind?_range, found, Option.map_some]
    have render : relocated? source target false directory (.range r) =
        renderedRange? r ⟨(r.start.shift d true bounds).1.onSheet sheet,
          (r.stop.shift d true bounds).1.onSheet sheet⟩ source.sheet directory := by
      simp only [relocated?, bound, Option.bind_eq_bind, Option.bind_some, distance]
      rw [followSheet_copy, followed_within within, within, show (r.onSheet sheet).sheet = sheet from rfl,
        show (r.onSheet sheet).start = r.start.onSheet sheet from rfl,
        show (r.onSheet sheet).stop = r.stop.onSheet sheet from rfl, shiftOnto?_onSheet known,
        shiftOnto?_onSheet known, Option.bind_some, Option.bind_some]
    rw [render, getD_renderedRange? front]
    have start : (r.start.shift d true bounds).1.sheet = r.start.sheet := Reference.shift_sheet
    have stop : (r.stop.shift d true bounds).1.sheet = r.start.sheet :=
      Reference.shift_sheet.trans (sound.sheets r rfl)
    rw [Mention.shifted, show (Mention.range r).writtenSheet = r.start.sheet from rfl]
    refine congrArg Mention.range (congrArg₂ Range.mk ?_ ?_)
    · rw [← start]
      rfl
    · rw [← stop]
      rfl

variable (sized : ∀ index bounds, directory.bounds? index = some bounds →
    bounds.rows < coordinateLimit ∧ bounds.cols < coordinateLimit)

omit agree within in
theorem exists_bounds_of_grounded {formula : String} {home : Nat}
    (grounded : Grounded home directory formula) {m : Mention}
    (listed : m ∈ (mentions formula).map Prod.fst) :
    m.Sound ∧ ∃ sheet bounds, m.sheet? home directory = some sheet ∧
      m.isInside directory sheet = true ∧ directory.bounds? sheet = some bounds := by
  obtain ⟨found, hm, rfl⟩ := List.mem_map.mp listed
  obtain ⟨sheet, onSheet, inside⟩ := grounded found hm
  obtain ⟨bounds, known⟩ := exists_bounds_of_isInside inside
  exact ⟨sound_of_mem_mentions hm, sheet, bounds, onSheet, inside, known⟩

include sized

/-- A copy within a sheet is read like the formula, with its references moved, if they lie in sheets
that have a size. -/
theorem parse_relocate_within {formula : String} {e : Expr} (parsed : parse formula = .ok e)
    (known : ∀ m ∈ e.leaves, ∃ sheet bounds, m.sheet? source.sheet directory = some sheet ∧
      directory.bounds? sheet = some bounds) :
    parse (relocate source target false directory formula) =
        .ok (e.mapMentions (replacement (relocated? source target false directory))) ∧
      (mentions (relocate source target false directory formula)).map Prod.fst =
        e.leaves.map (replacement (relocated? source target false directory)) := by
  have valid : isValid formula = true := by
    rw [isValid, parsed]
    rfl
  -- The name in front of a new reference has been read in front of the old one.
  have moved : ∀ m ∈ mentions formula, ∀ new,
      relocated? source target false directory m.1 = some new → new.Writable ∧ new.Fits := by
    intro m hm new isNew
    have listed : m.1 ∈ e.leaves := by
      rw [leaves_of_parse parsed]
      exact List.mem_map_of_mem hm
    obtain ⟨sheet, bounds, found, size⟩ := known m.1 listed
    have sound := sound_of_mem_mentions hm
    have same := replacement_relocated?_within agree within rfl sound found size
    rw [replacement, isNew, Option.getD_some] at same
    rw [same]
    exact ⟨Mention.writable_shifted (writable_of_mem_mentions hm),
      Mention.fits_shifted sound.fits (sized _ _ size)⟩
  have writable := fun m hm new isNew => (moved m hm new isNew).1
  have fits := fun m hm new isNew => (moved m hm new isNew).2
  rw [relocate_eq]
  constructor
  · rw [parse_replaceMentions valid writable fits, parsed]
    rfl
  · rw [mentions_replaceMentions valid writable fits, leaves_of_parse parsed]

end

/-! ### Copies of copies -/

theorem Mention.mapMentions_expr (σ : Mention → Mention) (m : Mention) :
    m.expr.mapMentions σ = (σ m).expr := by
  cases m <;> rfl

mutual

theorem Expr.mapMentions_mapMentions {first second both : Mention → Mention} :
    ∀ {e : Expr}, (∀ m ∈ e.leaves, second (first m) = both m) →
      (e.mapMentions first).mapMentions second = e.mapMentions both
  | empty, _ => rfl
  | number _, _ => rfl
  | text _, _ => rfl
  | bool _, _ => rfl
  | cell r, h => by
    have same := h (.cell r) List.mem_cons_self
    rw [mapMentions, mapMentions, ← same]
    exact Mention.mapMentions_expr second _
  | range r, h => by
    have same := h (.range r) List.mem_cons_self
    rw [mapMentions, mapMentions, ← same]
    exact Mention.mapMentions_expr second _
  | call name arguments, h => by
    rw [leaves] at h
    rw [mapMentions, mapMentions, mapMentions, Expr.mapMentionsAll_mapMentionsAll h]
  | binary op left right, h => by
    rw [leaves, List.forall_mem_append] at h
    rw [mapMentions, mapMentions, mapMentions, Expr.mapMentions_mapMentions h.1,
      Expr.mapMentions_mapMentions h.2]

theorem Expr.mapMentionsAll_mapMentionsAll {first second both : Mention → Mention} :
    ∀ {es : List Expr}, (∀ m ∈ leavesAll es, second (first m) = both m) →
      mapMentionsAll second (mapMentionsAll first es) = mapMentionsAll both es
  | [], _ => rfl
  | e :: es, h => by
    rw [leavesAll, List.forall_mem_append] at h
    rw [mapMentionsAll, mapMentionsAll, mapMentionsAll, Expr.mapMentions_mapMentions h.1,
      Expr.mapMentionsAll_mapMentionsAll h.2]

end

section

variable {a b c : CellId} {directory : Directory}
  (agree : ∀ name index, directory.index? name = some index →
    directory.name? index = some name)
  (sized : ∀ index bounds, directory.bounds? index = some bounds →
    bounds.rows < coordinateLimit ∧ bounds.cols < coordinateLimit)
  (hb : b.sheet = a.sheet) (hc : c.sheet = b.sheet)

include agree sized hb hc

/-- Copying within a sheet by way of a third cell, for any directory of sheets that have sizes. -/
theorem relocate_relocate_of_agree {formula : String} {e : Expr} (parsed : parse formula = .ok e)
    (grounded : Grounded a.sheet directory formula)
    (free : ∀ m ∈ e.leaves, ¬ m.IsClamped a b directory) :
    ∃ e', parse (relocate b c false directory (relocate a b false directory formula)) = .ok e' ∧
      parse (relocate a c false directory formula) = .ok e' := by
  have leaves := leaves_of_parse parsed
  have found : ∀ m ∈ e.leaves, m.Sound ∧ ∃ sheet bounds, m.sheet? a.sheet directory = some sheet ∧
      m.isInside directory sheet = true ∧ directory.bounds? sheet = some bounds := fun m hm =>
    exists_bounds_of_grounded grounded (leaves ▸ hm)
  have known : ∀ m ∈ e.leaves, ∃ sheet bounds, m.sheet? a.sheet directory = some sheet ∧
      directory.bounds? sheet = some bounds := by
    intro m hm
    obtain ⟨-, sheet, bounds, onSheet, -, size⟩ := found m hm
    exact ⟨sheet, bounds, onSheet, size⟩
  obtain ⟨parsedOnce, mentionsOnce⟩ := parse_relocate_within agree hb sized parsed known
  obtain ⟨parsedDirect, -⟩ := parse_relocate_within agree (hc.trans hb) sized parsed known
  have leavesOnce := (leaves_of_parse parsedOnce).trans mentionsOnce
  -- The first copy leaves every reference on its sheet.
  have knownOnce : ∀ m ∈ (e.mapMentions (replacement (relocated? a b false directory))).leaves,
      ∃ sheet bounds, m.sheet? b.sheet directory = some sheet ∧
        directory.bounds? sheet = some bounds := by
    intro m' hm'
    rw [leavesOnce] at hm'
    obtain ⟨m, hm, rfl⟩ := List.mem_map.mp hm'
    obtain ⟨sound, sheet, bounds, onSheet, -, size⟩ := found m hm
    rw [replacement_relocated?_within agree hb rfl sound onSheet size, Mention.sheet?_shifted, hb]
    exact ⟨sheet, bounds, onSheet, size⟩
  obtain ⟨parsedTwice, -⟩ := parse_relocate_within agree hc sized parsedOnce knownOnce
  refine ⟨_, parsedTwice, ?_⟩
  rw [parsedDirect, Expr.mapMentions_mapMentions fun m hm => ?_]
  obtain ⟨sound, sheet, bounds, onSheet, inside, size⟩ := found m hm
  have once := replacement_relocated?_within agree hb distanceOf_copy sound onSheet size
  have soundOnce : (m.shifted (.between a b) bounds).Sound := by
    have listed : m.shifted (.between a b) bounds ∈
        (mentions (relocate a b false directory formula)).map Prod.fst := by
      rw [mentionsOnce, ← once]
      exact List.mem_map_of_mem hm
    obtain ⟨m', hm', same⟩ := List.mem_map.mp listed
    rw [← same]
    exact sound_of_mem_mentions hm'
  have onSheetOnce : (m.shifted (.between a b) bounds).sheet? b.sheet directory = some sheet := by
    rw [Mention.sheet?_shifted, hb]
    exact onSheet
  have unclamped := Mention.clamps_eq_false hb onSheet size (free m hm)
  rw [once, replacement_relocated?_within agree hc distanceOf_copy soundOnce onSheetOnce size,
    replacement_relocated?_within agree (hc.trans hb) distanceOf_copy sound onSheet size]
  rw [← Distance.followedBy_between a b c]
  exact Mention.shifted_shifted sound size inside (sized _ _ size) (Distance.isSigned_between a b)
    (Distance.isSigned_between b c) unclamped

end

/-- **A copy of a copy.**  For a formula that can be read and whose references lie in their sheets, the
way from `a` to `c` by `b` gives what the straight way gives, if the copy from `a` to `b` brings no
reference back into its sheet. -/
theorem relocate_relocate {sheets : List Sheet}
    (sized : ∀ s ∈ sheets, s.rows < coordinateLimit ∧ s.cols < coordinateLimit) {a b c : CellId}
    (hb : b.sheet = a.sheet) (hc : c.sheet = a.sheet) {formula : String} {e : Expr}
    (parsed : parse formula = .ok e) (grounded : Grounded a.sheet (.ofSheets sheets) formula)
    (free : ∀ m ∈ e.leaves, ¬ m.IsClamped a b (.ofSheets sheets)) :
    ∃ e', parse (relocate b c false (.ofSheets sheets)
        (relocate a b false (.ofSheets sheets) formula)) = .ok e' ∧
      parse (relocate a c false (.ofSheets sheets) formula) = .ok e' := by
  refine relocate_relocate_of_agree (fun _ _ => Directory.name?_of_index?_ofSheets) ?_ hb
    (hc.trans hb.symm) parsed grounded free
  intro index bounds size
  obtain ⟨s, listed, rfl⟩ := Option.map_eq_some_iff.mp size
  exact sized s (List.mem_of_getElem? listed)

/-- The second copy brings references back into the sheet.  The own sheet is written in front of one
reference, a name with an apostrophe in front of a range, and pinned axes stay. -/
theorem relocate_relocate_clamped :
    let sheets : List Sheet := [⟨"One", 5, 5⟩, ⟨"it's", 3, 4⟩]
    let formula := "$a2+A$3*One!B1-SUM( 'it''s'!A1:$B$2 )"
    let once := relocate ⟨0, 2, 2⟩ ⟨0, 3, 3⟩ false (.ofSheets sheets) formula
    let twice := relocate ⟨0, 3, 3⟩ ⟨0, 1, 5⟩ false (.ofSheets sheets) once
    let direct := relocate ⟨0, 2, 2⟩ ⟨0, 1, 5⟩ false (.ofSheets sheets) formula
    once = "$A3+B$3*One!C2-SUM( 'it''s'!B2:$B$2 )" ∧
      twice = "$A1+D$3*One!E1-SUM( 'it''s'!D1:$B$2 )" ∧
      ∃ e', parse twice = .ok e' ∧ parse direct = .ok e' := by
  intro sheets formula once twice direct
  have moved : once = "$A3+B$3*One!C2-SUM( 'it''s'!B2:$B$2 )" := by decide +kernel
  have movedAgain : twice = "$A1+D$3*One!E1-SUM( 'it''s'!D1:$B$2 )" := by
    rw [show twice = relocate ⟨0, 3, 3⟩ ⟨0, 1, 5⟩ false (.ofSheets sheets) once from rfl, moved]
    decide +kernel
  have lexed : tokens formula = .ok
      [.cell ⟨none, 2, 1, false, true⟩, .operator .plus, .cell ⟨none, 3, 1, true, false⟩,
        .operator .times, .cell ⟨some "One", 1, 2, false, false⟩, .operator .minus,
        .function "SUM", .leftParen,
        .range ⟨⟨some "it's", 1, 1, false, false⟩, ⟨some "it's", 2, 2, true, true⟩⟩,
        .rightParen] := by decide +kernel
  have parsed : ∃ e, parse formula = .ok e := by
    rw [parse, lexed]
    exact ⟨_, rfl⟩
  obtain ⟨e, parsed⟩ := parsed
  have listed : e.leaves = [.cell ⟨none, 2, 1, false, true⟩, .cell ⟨none, 3, 1, true, false⟩,
      .cell ⟨some "One", 1, 2, false, false⟩,
      .range ⟨⟨some "it's", 1, 1, false, false⟩, ⟨some "it's", 2, 2, true, true⟩⟩] := by
    rw [leaves_of_parse parsed]
    decide +kernel
  have grounded : Grounded 0 (.ofSheets sheets) formula := by
    decide +kernel
  have free : ∀ m ∈ e.leaves, ¬ m.IsClamped ⟨0, 2, 2⟩ ⟨0, 3, 3⟩ (.ofSheets sheets) := by
    rw [listed]
    decide +kernel
  have sized : ∀ s ∈ sheets, s.rows < coordinateLimit ∧ s.cols < coordinateLimit := by decide
  exact ⟨moved, movedAgain, relocate_relocate (a := ⟨0, 2, 2⟩) (b := ⟨0, 3, 3⟩) (c := ⟨0, 1, 5⟩)
    sized rfl rfl parsed grounded free⟩

end Formula

end Spreadsheet
