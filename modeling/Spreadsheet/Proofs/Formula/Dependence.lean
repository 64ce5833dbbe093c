import Spreadsheet.Proofs.Formula.Grammar
import Spreadsheet.Proofs.Formula.Reading

/-!
# What an expression names

The cells that a formula reads are listed from its tokens, without an expression; its term is worked
out on the expression, without the list.  Both go through the same references: the grammar keeps
every token that is a reference or range, once and in order, as a leaf.

* `Expr.leaves e`: the references and ranges of an expression, from left to right.
* `Derives.leaves`: they are those of the tokens that the expression is derived from.
* `Expr.Names home directory e x`: a leaf of the expression names the cell `x`.
* `mem_reads_iff_and_evaluate_congr`: the cells that are listed are those that the leaves name, and the
  term of the formula depends on no other cell.
-/

namespace Spreadsheet.Formula

mutual

/-- The references and ranges of an expression, from left to right. -/
def Expr.leaves : Expr → List Mention
  | cell r => [.cell r]
  | range r => [.range r]
  | call _ arguments => leavesAll arguments
  | binary _ left right => left.leaves ++ right.leaves
  | _ => []

def Expr.leavesAll : List Expr → List Mention
  | [] => []
  | e :: es => e.leaves ++ leavesAll es

end

/-- A reference or range names a cell: it belongs to the sheet of the cell, and the cell stands at it
or between its corners. -/
def Mention.Names (home : Nat) (directory : Directory) (m : Mention) (x : CellId) : Prop :=
  m.sheet? home directory = some x.sheet ∧ m.Covers x.row x.col

/-- A leaf of the expression names the cell. -/
def Expr.Names (home : Nat) (directory : Directory) (e : Expr) (x : CellId) : Prop :=
  ∃ m ∈ e.leaves, m.Names home directory x

/-! ### The leaves of what is derived -/

theorem leavesAll_map_expr {as : List Phrase}
    (h : ∀ a ∈ as, a.expr.leaves = a.tokens.filterMap Token.mention?) :
    Expr.leavesAll (as.map Phrase.expr) =
      ([Token.comma].intercalate (as.map Phrase.tokens)).filterMap Token.mention? := by
  induction as with
  | nil => rfl
  | cons a as ih =>
    have others := ih fun x hx => h x (List.mem_cons_of_mem _ hx)
    rw [List.map_cons, Expr.leavesAll, h a List.mem_cons_self, others, List.map_cons]
    cases as with
    | nil => simp
    | cons b as =>
      rw [List.intercalate_cons_of_ne_nil (by simp), List.filterMap_append, List.filterMap_append,
        List.append_assoc]
      rfl

theorem leaves_foldl_binary {rest : List (Operator × Phrase)}
    (h : ∀ r ∈ rest, r.2.expr.leaves = r.2.tokens.filterMap Token.mention?) (e : Expr) :
    (rest.foldl (fun e r => .binary r.1 e r.2.expr) e).leaves =
      e.leaves ++
        (rest.flatMap fun r => .operator r.1 :: r.2.tokens).filterMap Token.mention? := by
  induction rest generalizing e with
  | nil => simp
  | cons r rest ih =>
    rw [List.foldl_cons, ih fun x hx => h x (List.mem_cons_of_mem _ hx), Expr.leaves,
      h r List.mem_cons_self, List.flatMap_cons, List.filterMap_append, List.append_assoc]
    rfl

/-- **The grammar keeps every reference**: the leaves of an expression are the references and ranges
among its tokens, each once and in order. -/
theorem Derives.leaves {k : Nat} {ts : List Token} {e : Expr} (h : Derives k ts e) :
    e.leaves = ts.filterMap Token.mention? := by
  induction h with
  | number | text | bool | cell | range => rfl
  | call name arguments _ ih =>
    rw [Expr.leaves, leavesAll_map_expr ih]
    simp [List.filterMap_cons, Token.mention?]
  | group _ ih =>
    rw [ih]
    simp [List.filterMap_cons, Token.mention?]
  | row rest _ _ _ ih ihs => rw [leaves_foldl_binary ihs, ih, ← List.filterMap_append]

theorem leaves_of_parse {formula : String} {e : Expr} (parsed : parse formula = .ok e) :
    e.leaves = (mentions formula).map Prod.fst := by
  have valid : isValid formula = true := by
    rw [isValid, parsed]
    rfl
  obtain ⟨ps, e', ok, read⟩ := pieces_of_isValid valid
  rw [parse, tokens_of_pieces ok] at parsed
  cases read.symm.trans parsed
  rw [map_fst_mentions ok]
  cases listed : ps.filterMap Piece.token? with
  | nil =>
    rw [listed] at read
    cases read
    rfl
  | cons t ts =>
    rw [listed] at read
    exact (readExpr_eq_ok_iff.mp read).leaves

/-! ### The cells that are named -/

theorem Mention.names_iff {home : Nat} {directory : Directory} (m : Mention) (x : CellId) :
    m.Names home directory x ↔
      ∃ sheet, m.sheet? home directory = some sheet ∧ x ∈ m.cellsOn sheet := by
  simp only [Names, mem_cellsOn]
  constructor
  · rintro ⟨found, covered⟩
    exact ⟨x.sheet, found, rfl, covered⟩
  · rintro ⟨_, found, rfl, covered⟩
    exact ⟨found, covered⟩

theorem reads_iff_names {formula : String} {e : Expr} (parsed : parse formula = .ok e) {home : Nat}
    {directory : Directory} (x : CellId) :
    Reads home directory formula x ↔ e.Names home directory x := by
  rw [Reads, Expr.Names, leaves_of_parse parsed]
  simp only [Mention.names_iff, List.mem_map]
  constructor
  · rintro ⟨m, listed, named⟩
    exact ⟨m.1, ⟨m, listed, rfl⟩, named⟩
  · rintro ⟨_, ⟨m, listed, rfl⟩, named⟩
    exact ⟨m, listed, named⟩

/-- **The list of what a formula reads is exact.**  It has the cells that the leaves of its
expression name and no others, and the formula has one term on its sheet for all views of the cells
that agree on the sheets and on these cells, unless it asks for a random number. -/
theorem mem_reads_iff_and_evaluate_congr {formula : String} {e : Expr} (parsed : parse formula = .ok e)
    (calm : ¬ CallsRandom formula) {home : Nat} {directory : Directory} {cells : CellSet}
    (ok : reads home directory formula = .ok cells) :
    (∀ x, x ∈ cells ↔ e.Names home directory x) ∧
      ∀ view view' : CellView, view.toDirectory = directory → view'.toDirectory = directory →
        (∀ x ∈ cells, view'.term x = view.term x) →
          ∀ origin origin' : CellId, origin.sheet = home → origin'.sheet = home →
            evaluate view' origin' formula = evaluate view origin formula := by
  refine ⟨fun x => (mem_reads_iff ok x).trans (reads_iff_names parsed x), ?_⟩
  rintro view view' rfl same terms origin origin' rfl home
  refine evaluate_congr (fun random => absurd random calm) (fun m _ => by rw [home, same]) ?_
  intro x read
  exact terms x ((mem_reads_iff ok x).mpr read)

/-- A range with its corners the other way round, a reference to another sheet, and one inside a text
literal, which names nothing. -/
theorem mem_reads_iff_and_evaluate_congr_sum :
    let formula := "SUM(B2:$A1, 'it''s'!C3)<>\"D4\"+a1"
    let directory : Directory := .ofSheets [⟨"One", 3, 3⟩, ⟨"it's", 3, 4⟩]
    ∃ e cells, parse formula = .ok e ∧ ¬ CallsRandom formula ∧
      reads 0 directory formula = .ok cells ∧
      cells.toList = [⟨0, 1, 1⟩, ⟨0, 1, 2⟩, ⟨0, 2, 1⟩, ⟨0, 2, 2⟩, ⟨1, 3, 3⟩] ∧
      (∀ x, x ∈ cells ↔ e.Names 0 directory x) ∧
        ∀ view view' : CellView, view.toDirectory = directory → view'.toDirectory = directory →
          (∀ x ∈ cells, view'.term x = view.term x) →
            ∀ origin origin' : CellId, origin.sheet = 0 → origin'.sheet = 0 →
              evaluate view' origin' formula = evaluate view origin formula := by
  intro formula directory
  have lexed : tokens formula = .ok
      [.function "SUM", .leftParen, .range ⟨⟨none, 2, 2, false, false⟩, ⟨none, 1, 1, false, true⟩⟩,
        .comma, .cell ⟨some "it's", 3, 3, false, false⟩, .rightParen, .operator .different,
        .text "D4", .operator .plus, .cell ⟨none, 1, 1, false, false⟩] := by decide +kernel
  have parsed : parse formula = .ok (.binary .different
      (.call "SUM"
        [.range ⟨⟨none, 2, 2, false, false⟩, ⟨none, 1, 1, false, true⟩⟩,
          .cell ⟨some "it's", 3, 3, false, false⟩])
      (.binary .plus (.text "D4") (.cell ⟨none, 1, 1, false, false⟩))) := by
    rw [parse, lexed]
    rfl
  have calm : ¬ CallsRandom formula := by decide +kernel
  have listed : (reads 0 directory formula).toOption.map (·.toList) =
      some [⟨0, 1, 1⟩, ⟨0, 1, 2⟩, ⟨0, 2, 1⟩, ⟨0, 2, 2⟩, ⟨1, 3, 3⟩] := by decide +kernel
  cases ok : reads 0 directory formula with
  | error _ =>
    rw [ok] at listed
    cases listed
  | ok cells =>
    rw [ok] at listed
    exact ⟨_, cells, parsed, calm, rfl, Option.some.inj listed,
      mem_reads_iff_and_evaluate_congr parsed calm ok⟩

end Spreadsheet.Formula
