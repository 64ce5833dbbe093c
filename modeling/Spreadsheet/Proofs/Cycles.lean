import Mathlib.Data.Set.Finite.Basic
import Mathlib.Logic.Relation
import Mathlib.Order.WellFounded

/-!
# Cycles and what lies behind them

A relation `r x y` is read as "`y` waits for `x`".

* `OnCycle r x`: `x` waits for itself, over one or more steps.
* `BehindCycle r x`: `x` is on a cycle or waits, over some steps, for a cell that is.
* `Supported r S`: every member of `S` waits for a member of `S`.
* `Stuck r D x`: `x` is in a supported subset of `D`, that is, in the greatest one.

`stuck_iff_behindCycle` says that in a finite set the two notions agree: the members of the greatest
supported subset are those on a cycle of `D` or behind one.
-/

namespace Spreadsheet

open Relation

variable {α : Type} {r r' : α → α → Prop} {S D : Set α} {x y : α}

/-- `x` waits for itself. -/
def OnCycle (r : α → α → Prop) (x : α) : Prop := TransGen r x x

/-- `x` is on a cycle or waits for something that is. -/
def BehindCycle (r : α → α → Prop) (x : α) : Prop := ∃ y, OnCycle r y ∧ ReflTransGen r y x

def Supported (r : α → α → Prop) (S : Set α) : Prop := ∀ y ∈ S, ∃ x ∈ S, r x y

/-- The relation between members of a set. -/
def Within (D : Set α) (r : α → α → Prop) (x y : α) : Prop := x ∈ D ∧ y ∈ D ∧ r x y

/-- Membership in the greatest supported subset of `D`. -/
def Stuck (r : α → α → Prop) (D : Set α) (x : α) : Prop := ∃ S ⊆ D, Supported r S ∧ x ∈ S

theorem OnCycle.behindCycle (h : OnCycle r x) : BehindCycle r x := ⟨x, h, .refl⟩

theorem BehindCycle.mono (hr : ∀ a b, r a b → r' a b) (h : BehindCycle r x) :
    BehindCycle r' x := by
  obtain ⟨z, hz, path⟩ := h
  exact ⟨z, TransGen.mono hr z z hz, ReflTransGen.mono hr z x path⟩

theorem BehindCycle.exists_before (h : BehindCycle r x) : ∃ w, BehindCycle r w ∧ r w x := by
  obtain ⟨z, hz, path⟩ := h
  rcases ReflTransGen.cases_tail path with rfl | ⟨w, hw, hwx⟩
  · obtain ⟨w, hw, hwx⟩ := TransGen.tail'_iff.mp hz
    exact ⟨w, ⟨_, hz, hw⟩, hwx⟩
  · exact ⟨w, ⟨z, hz, hw⟩, hwx⟩

theorem supported_behindCycle (r : α → α → Prop) : Supported r {x | BehindCycle r x} := by
  intro y hy
  obtain ⟨w, hw, hwy⟩ := BehindCycle.exists_before hy
  exact ⟨w, hw, hwy⟩

/-! ### Finite sets -/

/-- Going back from `x` inside a finite supported set, one comes to a cycle. -/
theorem behindCycle_of_supported (fin : S.Finite) (hS : Supported r S) (hx : x ∈ S) :
    BehindCycle r x := by
  by_contra hno
  -- The members from which `x` is reached have no cycle, so one of them waits for no other.
  let A : Set α := {z | z ∈ S ∧ ReflTransGen r z x}
  have finA : Finite A := (fin.subset fun z hz => hz.1).to_subtype
  let before : A → A → Prop := fun a b => TransGen r a.1 b.1
  have trans : IsTrans A before := ⟨fun _ _ _ hab hbc => TransGen.trans hab hbc⟩
  have irrefl : Std.Irrefl before := ⟨fun a ha => hno ⟨a.1, ha, a.2.2⟩⟩
  have wf : WellFounded before := Finite.wellFounded_of_trans_of_irrefl before
  obtain ⟨m, -, hm⟩ := wf.has_min Set.univ ⟨⟨x, hx, .refl⟩, trivial⟩
  obtain ⟨p, hp, hpm⟩ := hS m.1 m.2.1
  exact hm ⟨p, hp, .head hpm m.2.2⟩ trivial (.single hpm)

theorem Stuck.mem (h : Stuck r D x) : x ∈ D := by
  obtain ⟨S, hSD, -, hx⟩ := h
  exact hSD hx

theorem Stuck.mono {D' : Set α} (hr : ∀ a b, r a b → r' a b) (hD : D ⊆ D') (h : Stuck r D x) :
    Stuck r' D' x := by
  obtain ⟨S, hSD, hS, hx⟩ := h
  refine ⟨S, hSD.trans hD, fun y hy => ?_, hx⟩
  obtain ⟨w, hw, hwy⟩ := hS y hy
  exact ⟨w, hw, hr w y hwy⟩

theorem Stuck.exists_before (h : Stuck r D x) : ∃ w, Stuck r D w ∧ r w x := by
  obtain ⟨S, hSD, hS, hx⟩ := h
  obtain ⟨w, hw, hwx⟩ := hS x hx
  exact ⟨w, ⟨S, hSD, hS, hw⟩, hwx⟩

/-- **The greatest supported subset of a finite set**: the members on a cycle in the set or behind
one. -/
theorem stuck_iff_behindCycle (fin : D.Finite) : Stuck r D x ↔ BehindCycle (Within D r) x := by
  constructor
  · rintro ⟨S, hSD, hS, hx⟩
    refine behindCycle_of_supported (fin.subset hSD) ?_ hx
    intro y hy
    obtain ⟨w, hw, hwy⟩ := hS y hy
    exact ⟨w, hw, hSD hw, hSD hy, hwy⟩
  · intro h
    refine ⟨{z | BehindCycle (Within D r) z}, ?_, ?_, h⟩
    · intro z hz
      obtain ⟨w, -, hwz⟩ := BehindCycle.exists_before hz
      exact hwz.2.1
    · intro y hy
      obtain ⟨w, hw, hwy⟩ := supported_behindCycle (Within D r) y hy
      exact ⟨w, hw, hwy.2.2⟩

/-! ### Closed sets -/

/-- In a set that is closed along `r`, a cycle through a member stays in the set. -/
theorem OnCycle.within (closed : ∀ a ∈ D, ∀ b, r a b → b ∈ D) (h : OnCycle r x) (hx : x ∈ D) :
    OnCycle (Within D r) x := by
  have lift : ∀ y, TransGen r x y → TransGen (Within D r) x y ∧ y ∈ D := by
    intro y path
    induction path with
    | single hxy => exact ⟨.single ⟨hx, closed x hx _ hxy, hxy⟩, closed x hx _ hxy⟩
    | tail _ hyz ih => exact ⟨.tail ih.1 ⟨ih.2, closed _ ih.2 _ hyz, hyz⟩, closed _ ih.2 _ hyz⟩
  exact (lift x h).1

/-! ### Two relations that agree in front of an element -/

/-- If two relations agree on what `y` waits for, however far back, the paths to `y` agree. -/
theorem reflTransGen_of_agree (h : ∀ v, ReflTransGen r' v y → ∀ u, r u v → r' u v)
    (path : ReflTransGen r x y) : ReflTransGen r' x y := by
  induction path using ReflTransGen.head_induction_on with
  | refl => exact .refl
  | head hxv _ ih => exact .head (h _ ih _ hxv) ih

theorem OnCycle.of_agree (h : ∀ v, ReflTransGen r' v y → ∀ u, r u v → r' u v)
    (cycle : OnCycle r y) : OnCycle r' y := by
  obtain ⟨v, hyv, path⟩ := TransGen.head'_iff.mp cycle
  have path' := reflTransGen_of_agree h path
  exact TransGen.head'_iff.mpr ⟨v, h v path' y hyv, path'⟩

theorem BehindCycle.of_agree (h : ∀ v, ReflTransGen r' v y → ∀ u, r u v → r' u v)
    (behind : BehindCycle r y) : BehindCycle r' y := by
  obtain ⟨z, cycle, path⟩ := behind
  have path' := reflTransGen_of_agree h path
  refine ⟨z, cycle.of_agree ?_, path'⟩
  intro v hv u huv
  exact h v (hv.trans path') u huv

end Spreadsheet
