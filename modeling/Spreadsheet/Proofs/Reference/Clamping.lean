import Spreadsheet.Proofs.Formula.Recopying

/-!
# How far references are clamped

A reference that moves is clamped along each axis: it ends at the sum of its coordinate and the
distance, or at the nearest line of the sheet.  The sum is taken of signed 64-bit integers, so this is
so for the coordinates below `2 ^ 63`.  A coordinate from there on counts as the negative number that
has the same 64 bits, and ends at the first line of the sheet where it should end at the last.

* `movedAxis_eq_toInt_add`: the sum is that of the machine.
* `clampAxis_exact`: one axis.
* `Reference.ClampsFrom`: a reference moves as if it had certain coordinates.
* `Strays`: an axis that ends before the last line, and should end there.
* `Reference.clampsFrom_iff`: which references are clamped as their coordinates say.
-/

namespace Spreadsheet

/-- The sum on an axis is the one that the machine computes, also where it overflows. -/
theorem movedAxis_eq_toInt_add (coordinate : Nat) (distance : Int) :
    movedAxis coordinate distance false =
      (Int64.ofNat coordinate + Int64.ofInt distance).toInt := by
  have size : Int64.size = UInt64.size := by decide
  rw [Int64.toInt_add, Int64.toInt_ofInt, Int64.toInt_ofNat', movedAxis,
    if_neg Bool.false_ne_true, size, Int.add_bmod_bmod]
  rfl

theorem signed_of_le {n : Nat} (large : signedLimit ≤ n) (fits : n < coordinateLimit) :
    signed n = (n : Int) - coordinateLimit := by
  have double : coordinateLimit = 2 * signedLimit := by decide
  have residue : (n : Int) % coordinateLimit = n :=
    Int.emod_eq_of_lt (Int.natCast_nonneg n) (Int.ofNat_lt.mpr fits)
  show Int.bmod n coordinateLimit = _
  rw [Int.bmod_def, residue, if_neg (by omega)]

/-- **One axis is clamped exactly**, and it says so if the value changes. -/
theorem clampAxis_exact (value : Int) {bound : Nat} (small : bound < signedLimit) :
    ((clampAxis value bound).1 : Int) = min (max value 1) (max bound 1 : Nat) ∧
      ((clampAxis value bound).2 = true ↔ ((clampAxis value bound).1 : Int) ≠ value) := by
  have one : max bound 1 < signedLimit := Nat.max_lt.mpr ⟨small, by decide⟩
  rw [clampAxis, signed_of_lt one]
  split
  · simp only [true_iff]
    omega
  · split
    · simp only [true_iff]
      omega
    · simp only [Bool.false_eq_true, false_iff, not_not]
      omega

/-- The coordinate counts as a negative number, and the axis ends before the last line of the sheet. -/
def Strays (coordinate : Nat) (distance : Int) (stays : Bool) (bound : Nat) : Prop :=
  signedLimit ≤ coordinate ∧ 1 < bound ∧ signed coordinate + axisMove distance stays < bound

instance (coordinate : Nat) (distance : Int) (stays : Bool) (bound : Nat) :
    Decidable (Strays coordinate distance stays bound) := inferInstanceAs (Decidable (_ ∧ _ ∧ _))

section

variable {coordinate bound : Nat} {distance : Int} {stays : Bool}

/-- A coordinate from the limit on has its true sum beyond the sheet, if the signed sum fits. -/
theorem bound_lt_of_le (large : signedLimit ≤ coordinate) (fits : coordinate < coordinateLimit)
    (sum : SumFits coordinate distance stays) (small : bound < signedLimit) :
    (max bound 1 : Nat) < (coordinate : Int) + axisMove distance stays := by
  have double : coordinateLimit = 2 * signedLimit := by decide
  have one : 1 < signedLimit := by decide
  have low := sum.1
  rw [signed_of_le large fits] at low
  omega

theorem clamped_ne_of_lt {sum : Int} {last : Nat} (beyond : last < sum) :
    min (max sum 1) (last : Int) ≠ sum :=
  Int.ne_of_lt (Int.lt_of_le_of_lt (Int.min_le_right _ _) beyond)

/-- **Where an axis ends exactly**: everywhere but where it strays. -/
theorem clamped_eq_iff (fits : coordinate < coordinateLimit)
    (sum : SumFits coordinate distance stays) (small : bound < signedLimit) :
    min (max (signed coordinate + axisMove distance stays) 1) ((max bound 1 : Nat) : Int) =
        min (max ((coordinate : Int) + axisMove distance stays) 1) (max bound 1 : Nat) ↔
      ¬ Strays coordinate distance stays bound := by
  rw [Strays]
  rcases Nat.lt_or_ge coordinate signedLimit with below | large
  · rw [signed_of_lt below]
    exact iff_of_true rfl fun strays => absurd strays.1 (Nat.not_le.mpr below)
  · -- the true sum is beyond the last line, so the question is where the signed sum is
    have beyond := bound_lt_of_le large fits sum small
    generalize signed coordinate + axisMove distance stays = moved
    generalize (coordinate : Int) + axisMove distance stays = sum at beyond ⊢
    omega

end

namespace Reference

variable {S : Type} {r : Reference S} {d : Distance} {honorFixed : Bool} {bounds : Bounds}

/-- The reference is moved as if it had the given coordinates: each axis that may move ends at its sum
clamped into the sheet, sheet and pins stay, and it says whether an axis ends anywhere else than at its
sum. -/
structure ClampsFrom (r : Reference S) (d : Distance) (honorFixed : Bool) (bounds : Bounds)
    (fromRow fromCol : Int) : Prop where
  row : ((r.shift d honorFixed bounds).1.row : Int) =
    min (max (fromRow + axisMove d.rows (honorFixed && r.fixedRow)) 1) (max bounds.rows 1 : Nat)
  col : ((r.shift d honorFixed bounds).1.col : Int) =
    min (max (fromCol + axisMove d.cols (honorFixed && r.fixedCol)) 1) (max bounds.cols 1 : Nat)
  sheet : (r.shift d honorFixed bounds).1.sheet = r.sheet
  fixedRow : (r.shift d honorFixed bounds).1.fixedRow = r.fixedRow
  fixedCol : (r.shift d honorFixed bounds).1.fixedCol = r.fixedCol
  clamped : (r.shift d honorFixed bounds).2 = true ↔
    ((r.shift d honorFixed bounds).1.row : Int) ≠
        fromRow + axisMove d.rows (honorFixed && r.fixedRow) ∨
      ((r.shift d honorFixed bounds).1.col : Int) ≠
        fromCol + axisMove d.cols (honorFixed && r.fixedCol)

/-- **A reference is clamped exactly from its signed coordinates**, if the sums do not overflow. -/
theorem clampsFrom_signed (moves : d ≠ Distance.zero)
    (sized : bounds.rows < signedLimit ∧ bounds.cols < signedLimit)
    (sums : SumFits r.row d.rows (honorFixed && r.fixedRow) ∧
      SumFits r.col d.cols (honorFixed && r.fixedCol)) :
    r.ClampsFrom d honorFixed bounds (signed r.row) (signed r.col) := by
  obtain ⟨row, rowClamped⟩ :=
    clampAxis_exact (movedAxis r.row d.rows (honorFixed && r.fixedRow)) sized.1
  obtain ⟨col, colClamped⟩ :=
    clampAxis_exact (movedAxis r.col d.cols (honorFixed && r.fixedCol)) sized.2
  have shifted : r.shift d honorFixed bounds = _ := shift_of_moves moves
  -- from here on the ends of the axes are known by `row` and `col`; unfolding them computes residues
  generalize clampAxis (movedAxis r.row d.rows (honorFixed && r.fixedRow)) bounds.rows = first
    at row rowClamped shifted
  generalize clampAxis (movedAxis r.col d.cols (honorFixed && r.fixedCol)) bounds.cols = second
    at col colClamped shifted
  rw [movedAxis_of_sumFits sums.1] at row rowClamped
  rw [movedAxis_of_sumFits sums.2] at col colClamped
  constructor <;> rw [shifted]
  · exact row
  · exact col
  · exact Bool.or_eq_true_iff.trans (or_congr rowClamped colClamped)

/-- If not both coordinates are small, a true sum is beyond the sheet. -/
theorem bound_lt_or_bound_lt (fits : r.Fits)
    (sized : bounds.rows < signedLimit ∧ bounds.cols < signedLimit)
    (sums : SumFits r.row d.rows (honorFixed && r.fixedRow) ∧
      SumFits r.col d.cols (honorFixed && r.fixedCol)) (large : ¬ Formula.IsSmall r) :
    (max bounds.rows 1 : Nat) < (r.row : Int) + axisMove d.rows (honorFixed && r.fixedRow) ∨
      (max bounds.cols 1 : Nat) < (r.col : Int) + axisMove d.cols (honorFixed && r.fixedCol) := by
  rcases not_and_or.mp large with large | large
  · exact Or.inl (bound_lt_of_le (Nat.not_lt.mp large) fits.1 sums.1 sized.1)
  · exact Or.inr (bound_lt_of_le (Nat.not_lt.mp large) fits.2 sums.2 sized.2)

/-- **Which references are clamped as their coordinates say.**  A reference that moves is clamped exactly
from its signed coordinates, so from its coordinates if these are below `2 ^ 63`.  With others this is
so just if no axis strays and the reference says that it was clamped. -/
theorem clampsFrom_iff (moves : d ≠ Distance.zero) (fits : r.Fits)
    (sized : bounds.rows < signedLimit ∧ bounds.cols < signedLimit)
    (sums : SumFits r.row d.rows (honorFixed && r.fixedRow) ∧
      SumFits r.col d.cols (honorFixed && r.fixedCol)) :
    r.ClampsFrom d honorFixed bounds (signed r.row) (signed r.col) ∧
      (Formula.IsSmall r → r.ClampsFrom d honorFixed bounds r.row r.col) ∧
      (r.ClampsFrom d honorFixed bounds r.row r.col ↔
        ¬ Strays r.row d.rows (honorFixed && r.fixedRow) bounds.rows ∧
          ¬ Strays r.col d.cols (honorFixed && r.fixedCol) bounds.cols ∧
            (Formula.IsSmall r ∨ (r.shift d honorFixed bounds).2 = true)) := by
  have now : r.ClampsFrom d honorFixed bounds (signed r.row) (signed r.col) :=
    clampsFrom_signed moves sized sums
  have small : Formula.IsSmall r → r.ClampsFrom d honorFixed bounds r.row r.col := by
    intro small
    rwa [signed_of_lt small.1, signed_of_lt small.2] at now
  have rows := clamped_eq_iff fits.1 sums.1 sized.1
  have cols := clamped_eq_iff fits.2 sums.2 sized.2
  have beyond := bound_lt_or_bound_lt fits sized sums
  refine ⟨now, small, ?_, ?_⟩
  · intro exactly
    refine ⟨rows.mp (now.row.symm.trans exactly.row), cols.mp (now.col.symm.trans exactly.col), ?_⟩
    by_cases below : Formula.IsSmall r
    · exact Or.inl below
    · -- a true sum beyond the sheet has to be reported
      refine Or.inr (exactly.clamped.mpr ?_)
      rw [exactly.row, exactly.col]
      exact (beyond below).imp clamped_ne_of_lt clamped_ne_of_lt
  · rintro ⟨rowStays, colStays, clamped⟩
    by_cases below : Formula.IsSmall r
    · exact small below
    · have row := now.row.trans (rows.mpr rowStays)
      have col := now.col.trans (cols.mpr colStays)
      refine ⟨row, col, now.sheet, now.fixedRow, now.fixedCol,
        iff_of_true (clamped.resolve_left below) ?_⟩
      rw [row, col]
      exact (beyond below).imp clamped_ne_of_lt clamped_ne_of_lt

/-- The last coordinate below the limit on a sheet without rows, with a pinned column, and the last
coordinate of all, which counts as -1 and still comes to the last row. -/
theorem clampsFrom_iff_limits :
    let r : BoundReference := { sheet := 1, row := 9223372036854775807, col := 3, fixedCol := true }
    let last : BoundReference := { sheet := 1, row := 18446744073709551615, col := 1 }
    r.ClampsFrom ⟨-9223372036854775800, 9⟩ true ⟨0, 2⟩ r.row r.col ∧
      r.shift ⟨-9223372036854775800, 9⟩ true ⟨0, 2⟩ = ({ r with row := 1, col := 2 }, true) ∧
      last.ClampsFrom ⟨200, 0⟩ true ⟨100, 15⟩ last.row last.col ∧
      last.shift ⟨200, 0⟩ true ⟨100, 15⟩ = ({ last with row := 100 }, true) := by
  intro r last
  have far : last.shift ⟨200, 0⟩ true ⟨100, 15⟩ = ({ last with row := 100 }, true) := by decide
  refine ⟨?_, by decide, ?_, far⟩
  · exact (clampsFrom_iff (by decide) (by decide) (by decide) (by decide)).2.1 (by decide)
  · refine (clampsFrom_iff (by decide) (by decide) (by decide) (by decide)).2.2.mpr ?_
    exact ⟨by decide, by decide, Or.inr (congrArg Prod.snd far)⟩

/-- The first row that counts as a negative number.  A reference to it can be read; moved by one column
on a sheet of 100 rows it comes to the first row, and not to the last. -/
theorem not_clampsFrom_of_large :
    let r : WrittenReference := { sheet := none, row := 9223372036854775808, col := 1 }
    Reference.ofChars "A9223372036854775808".toList = .ok r ∧
      (SumFits r.row 0 (true && r.fixedRow) ∧ SumFits r.col 1 (true && r.fixedCol)) ∧
      r.shift ⟨0, 1⟩ true ⟨100, 15⟩ = ({ r with row := 1, col := 2 }, true) ∧
      ¬ r.ClampsFrom ⟨0, 1⟩ true ⟨100, 15⟩ r.row r.col := by
  intro r
  have moved : r.shift ⟨0, 1⟩ true ⟨100, 15⟩ = ({ r with row := 1, col := 2 }, true) := by decide
  refine ⟨by decide, by decide, moved, fun exactly => ?_⟩
  have row := exactly.row
  rw [moved] at row
  exact absurd row (by decide)

end Reference

end Spreadsheet
