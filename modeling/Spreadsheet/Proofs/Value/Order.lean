import Spreadsheet.Value.Term

/-!
# The order of a sort

Terms of all kinds can be put in order: any two of them can be compared, and the comparisons agree with
one another.  A list that is sorted by keys without changing the order of equal ones is fixed by that.

* `Term.sortOrder_eq`: the order is that of kinds first, and then that of numbers, texts or truth
  values.
* `pairwise_mergeSort_stable`: a stable sort.
-/

namespace Spreadsheet

namespace Term

def numberKey : Term → Int
  | number x => x.orderKey
  | _ => 0

def textKey : Term → String
  | text s => s
  | _ => ""

def boolKey : Term → Bool
  | bool b => b
  | _ => false

/-- **The order of a sort** compares kinds, and terms of one kind by their contents. -/
theorem sortOrder_eq : sortOrder = compareLex (compareOn rank)
    (compareLex (compareOn numberKey) (compareLex (compareOn textKey) (compareOn boolKey))) := by
  funext s t
  by_cases same : s.rank = t.rank
  · cases s <;> cases t <;> simp_all [sortOrder, compareLex, compareOn, rank, numberKey, textKey,
      boolKey, Double.totalOrder]
  · have first : sortOrder s t = compare s.rank t.rank := by
      cases s <;> cases t <;> first | rfl | exact absurd rfl same
    rw [first, compareLex, compareOn]
    cases ranks : compare s.rank t.rank with
    | eq => exact absurd (Nat.compare_eq_eq.mp ranks) same
    | lt => rfl
    | gt => rfl

instance : Std.TransCmp sortOrder := by
  rw [sortOrder_eq]
  infer_instance

/-- The order of a sort that ascends, or the opposite one. -/
def directed (ascending : Bool) (s t : Term) : Ordering :=
  if ascending then s.sortOrder t else t.sortOrder s

instance (ascending : Bool) : Std.TransCmp (directed ascending) := by
  cases ascending with
  | true => exact inferInstanceAs (Std.TransCmp sortOrder)
  | false => exact inferInstanceAs (Std.TransCmp fun s t => sortOrder t s)

end Term

/-! ### Stable sorts -/

/-- **A stable sort** leaves no two members in the wrong order, and keeps what is as good in either
order as it was. -/
theorem pairwise_mergeSort_stable {α : Type} {le : α → α → Bool} {R : α → α → Prop}
    (trans : ∀ a b c, le a b = true → le b c = true → le a c = true)
    (total : ∀ a b, (le a b || le b a) = true) {l : List α} (before : l.Pairwise R) :
    (l.mergeSort le).Pairwise fun a b => le a b = true ∧ (le b a = true → R a b) := by
  induction l with
  | nil => simp
  | cons a l ih =>
    rw [List.pairwise_cons] at before
    -- The first member goes after the others that have to be in front of it, and before the rest.
    obtain ⟨front, back, sorted, others, inFront⟩ := List.mergeSort_cons trans total a l
    have mem : ∀ c ∈ back, c ∈ l := by
      intro c hc
      have listed : c ∈ l.mergeSort le := others ▸ List.mem_append_right _ hc
      exact List.mem_mergeSort.mp listed
    have ordered := List.pairwise_mergeSort trans total (a :: l)
    have stable := ih before.2
    rw [sorted, List.pairwise_append, List.pairwise_cons] at ordered
    rw [others, List.pairwise_append] at stable
    rw [sorted, List.pairwise_append, List.pairwise_cons]
    refine ⟨stable.1, ⟨fun c hc => ?_, stable.2.1⟩, fun b hb c hc => ?_⟩
    · exact ⟨ordered.2.1.1 c hc, fun _ => before.1 c (mem c hc)⟩
    · rcases List.mem_cons.mp hc with rfl | hc
      · refine ⟨ordered.2.2 b hb c List.mem_cons_self, fun reversed => ?_⟩
        have wrong := inFront b hb
        rw [reversed] at wrong
        exact absurd wrong nofun
      · exact stable.2.2 b hb c hc

theorem pairwise_mergeSort_of_cmp {α β : Type} (key : α → β) (cmp : β → β → Ordering)
    [Std.TransCmp cmp] {R : α → α → Prop} {l : List α} (before : l.Pairwise R) :
    (l.mergeSort fun a b => cmp (key a) (key b) != .gt).Pairwise fun a b =>
      cmp (key a) (key b) = .lt ∨ cmp (key a) (key b) = .eq ∧ R a b := by
  have swap : ∀ a b : α, cmp (key b) (key a) = (cmp (key a) (key b)).swap :=
    fun _ _ => Std.OrientedCmp.eq_swap
  have inOrder_iff : ∀ a b : α, (cmp (key a) (key b) != .gt) = true ↔
      (cmp (key a) (key b)).isLE = true := by
    intro a b
    cases cmp (key a) (key b) <;> decide
  have total : ∀ a b : α, (cmp (key a) (key b) != .gt || cmp (key b) (key a) != .gt) = true := by
    intro a b
    rw [swap a b]
    cases cmp (key a) (key b) <;> rfl
  refine (pairwise_mergeSort_stable (fun a b c => ?_) total before).imp fun {a b} h => ?_
  · rw [inOrder_iff, inOrder_iff, inOrder_iff]
    exact Std.TransCmp.isLE_trans
  · obtain ⟨first, tied⟩ := h
    rw [swap a b] at tied
    cases same : cmp (key a) (key b) with
    | lt => exact Or.inl rfl
    | eq =>
      rw [same] at tied
      exact Or.inr ⟨rfl, tied rfl⟩
    | gt =>
      rw [same] at first
      exact absurd first nofun

end Spreadsheet
