import Spreadsheet.Value.Basic

/-!
# Values that are the same to a reader

`CellValue.same` is the comparison by which a pass decides whether to store a value.  A value that is
the same as the one before is not stored, so the cell keeps the old one.

* `CellValue.keep old new`: the value of a cell that had `old` when `new` is to be stored.
* `CellValue.agrees`: the same to a reader, or equal.  A number that is none agrees with itself.
* `CellValue.same_symm`, `CellValue.same_trans`: being the same goes back and on, though not everything is
  the same as itself.
-/

namespace Spreadsheet

open Float.Model in
/-- A number that is equal to some number is equal to itself. -/
theorem beq_self_of_beq {x y : Float} (h : (x == y) = true) : (x == x) = true := by
  have self : ∀ a : UnpackedFloat, a = .notANumber ∨ a.compare a = some .eq := by
    intro a
    cases a with
    | notANumber => exact Or.inl rfl
    | infinity sign => cases sign <;> exact Or.inr rfl
    | zero sign => exact Or.inr rfl
    | finite sign m e positive =>
      right
      have equal : (compare e e).then (compare m m) = .eq := by
        rw [Std.ReflOrd.compare_self, Std.ReflOrd.compare_self]
        rfl
      cases sign with
      | positive => exact congrArg some equal
      | negative => exact congrArg (some ∘ Ordering.swap) equal
  have unpacked : ∀ a b : UnpackedFloat, a.beq b = true → a.beq a = true := by
    intro a b h
    rcases self a with rfl | same
    · exact absurd h Bool.false_ne_true
    · show (a.compare a == some .eq) = true
      rw [same]
      rfl
  exact unpacked _ _ h

open Float.Model in
theorem eq_or_zero_of_beq {a b : UnpackedFloat} (h : a.beq b = true) :
    a = b ∨ ∃ s t, a = .zero s ∧ b = .zero t := by
  have same : ∀ {e e' : Int} {m m' : Nat},
      (compare e e').then (compare m m') = .eq → e = e' ∧ m = m' := by
    intro e e' m m' equal
    rw [Ordering.then_eq_eq] at equal
    exact ⟨Std.LawfulEqCmp.eq_of_compare equal.1, Std.LawfulEqCmp.eq_of_compare equal.2⟩
  have compared : a.compare b = some .eq := eq_of_beq h
  cases a with
  | notANumber => cases compared
  | infinity s =>
    cases b with
    | infinity t => cases s <;> cases t <;> first | exact Or.inl rfl | cases compared
    | _ => cases s <;> cases compared
  | zero s =>
    cases b with
    | zero t => exact Or.inr ⟨s, t, rfl, rfl⟩
    | notANumber => cases compared
    | infinity t | finite t _ _ _ => cases t <;> cases compared
  | finite s m e positive =>
    cases b with
    | finite t m' e' positive' =>
      cases s <;> cases t
      · obtain ⟨rfl, rfl⟩ := same (Ordering.swap_eq_eq.mp (Option.some.inj compared))
        exact Or.inl rfl
      · cases compared
      · cases compared
      · obtain ⟨rfl, rfl⟩ := same (Option.some.inj compared)
        exact Or.inl rfl
    | notANumber => cases s <;> cases compared
    | zero t => cases s <;> cases compared
    | infinity t => cases s <;> cases t <;> cases compared
open Float.Model in
theorem beq_symm {x y : Float} (h : (x == y) = true) : (y == x) = true := by
  have unpacked : ∀ a b : UnpackedFloat, a.beq b = true → b.beq a = true := by
    intro a b h
    rcases eq_or_zero_of_beq h with rfl | ⟨s, t, rfl, rfl⟩
    · exact h
    · rfl
  exact unpacked _ _ h

open Float.Model in
theorem beq_trans {x y z : Float} (h : (x == y) = true) (h' : (y == z) = true) :
    (x == z) = true := by
  have unpacked : ∀ a b c : UnpackedFloat, a.beq b = true → b.beq c = true → a.beq c = true := by
    intro a b c h h'
    rcases eq_or_zero_of_beq h with rfl | ⟨s, t, rfl, rfl⟩
    · exact h'
    · rcases eq_or_zero_of_beq h' with rfl | ⟨-, u, -, rfl⟩
      · exact h
      · rfl
  exact unpacked _ _ _ h h'

namespace CellValue

/-- The value of a cell that had the value `old` when `new` is to be stored. -/
def keep (old new : CellValue) : CellValue := if old.same new then old else new

/-- The values are equal, or the same to a reader. -/
def agrees (v w : CellValue) : Prop := v = w ∨ v.same w = true

theorem same_self_of_same {v w : CellValue} (h : v.same w = true) : v.same v = true := by
  cases v <;> cases w <;> simp only [same, beq_iff_eq, Bool.false_eq_true] at h ⊢
  exact beq_self_of_beq h

theorem same_symm {v w : CellValue} (h : v.same w = true) : w.same v = true := by
  cases v <;> cases w <;> simp only [same, beq_iff_eq, Bool.false_eq_true] at h ⊢
  all_goals first | exact h.symm | exact beq_symm h

theorem same_trans {u v w : CellValue} (h : u.same v = true) (h' : v.same w = true) :
    u.same w = true := by
  cases u <;> cases v <;> simp only [same, beq_iff_eq, Bool.false_eq_true] at h
  all_goals cases w <;> simp only [same, beq_iff_eq, Bool.false_eq_true] at h' ⊢
  all_goals first | exact h.trans h' | exact beq_trans h h'

theorem same_keep (old new : CellValue) : old.same (old.keep new) = old.same new := by
  rw [keep]
  split
  · rename_i h
    rw [h]
    exact same_self_of_same h
  · rfl

theorem keep_text (old : CellValue) (s : String) : old.keep (.text s) = .text s := by
  rw [keep]
  split
  · rename_i h
    cases old with
    | text t => rw [eq_of_beq h]
    | _ => exact absurd h nofun
  · rfl

/-- Two values that agree with a third are equal, unless they are two zeros that differ in sign. -/
theorem eq_of_agrees_of_agrees {u v w : CellValue} (h : u.agrees w) (h' : v.agrees w)
    (exact : u.same v = true → u = v) : u = v := by
  rcases h with rfl | same
  · rcases h' with rfl | same'
    · rfl
    · exact exact (same_symm same')
  · rcases h' with rfl | same'
    · exact exact same
    · exact exact (same_trans same (same_symm same'))

theorem keep_agrees (old new : CellValue) : (old.keep new).agrees new := by
  rw [keep]
  split
  · exact Or.inr ‹_›
  · exact Or.inl rfl

end CellValue

end Spreadsheet
