import Spreadsheet.Proofs.Formula.Reproduction
import Spreadsheet.Proofs.Formula.Retargeting

/-!
# Calls that fill other cells

Whether a formula fills the cells beside it is decided twice: before it is stored, by a look at its
text, and when it is run, by the calls in its expression.  The first look misses none of the calls.

* `Expr.fillings`: the calls of an expression that fill other cells, by their places and arguments.
* `Expr.outputs_eq_flatMap`: what an expression fills, call by call.
* `Pieced.exists_call`: a function name stands in the text in some letter case, in front of a
  parenthesis.
* `NamesFilling.mentionsFilling`: the look at the text misses no call, however deep it is.
* `Flagged formula filling`: what an edit hands down with a formula, so that no call is missed later.
* `Flagged.relocate` and `Flagged.retarget`: a formula gains no call when it is copied or cut.
-/

namespace Spreadsheet

/-! ### Capitals -/

theorem Text.toUpper_toUpper (c : Char) : c.toUpper.toUpper = c.toUpper := by
  have large : ¬ ('a'.val ≤ c.toUpper.val ∧ c.toUpper.val ≤ 'z'.val) := by
    by_cases small : 'a'.val ≤ c.val ∧ c.val ≤ 'z'.val
    · rw [Char.toUpper, dif_pos small]
      rintro ⟨low, -⟩
      obtain ⟨low', high'⟩ := small
      rw [UInt32.le_iff_toNat_le] at low low' high'
      simp at low low' high'
      omega
    · rwa [Char.toUpper, dif_neg small]
  exact dif_neg large

theorem Text.capitals_capitals (cs : List Char) : capitals (capitals cs) = capitals cs := by
  rw [capitals, capitals, List.map_map]
  exact List.map_congr_left fun c _ => toUpper_toUpper c

theorem Text.contains_append (front part back : List Char) :
    contains part (front ++ (part ++ back)) = true := by
  induction front with
  | nil =>
    have first : part.isPrefixOf (part ++ back) = true :=
      List.isPrefixOf_iff_prefix.mpr (List.prefix_append part back)
    cases text : part ++ back with
    | nil =>
      rw [(List.append_eq_nil_iff.mp text).1]
      rfl
    | cons c cs =>
      rw [text] at first
      rw [List.nil_append, contains, first, Bool.true_or]
  | cons c front ih => rw [List.cons_append, contains, ih, Bool.or_true]

namespace Formula

/-! ### The calls of an expression -/

mutual

/-- The place and the arguments of each call in an expression that fills other cells, in the order of
the calls. -/
def Expr.fillings (place : List Nat := []) : Expr → List (List Nat × List Expr)
  | call name arguments =>
    fillingsAll place 0 arguments ++ if isFilling name then [(place, arguments)] else []
  | binary _ left right => left.fillings (0 :: place) ++ right.fillings (1 :: place)
  | _ => []

def Expr.fillingsAll (place : List Nat) (i : Nat) : List Expr → List (List Nat × List Expr)
  | [] => []
  | e :: es => e.fillings (i :: place) ++ fillingsAll place (i + 1) es

end

/-- The cells that a call fills whose arguments have these terms. -/
def filled (view : CellView) (origin : CellId) (arguments : List Term) : List Output :=
  match Regression.ofArguments arguments with
  | .ok r => r.outputs origin ((view.bounds? origin.sheet).getD ⟨origin.row, origin.col⟩)
  | .error _ => []

section

variable (view : CellView) (origin : CellId)

mutual

/-- **What an expression fills**, call by call. -/
theorem Expr.outputs_eq_flatMap {place : List Nat} : ∀ e : Expr, e.outputs view origin place =
    (e.fillings place).flatMap fun call =>
      filled view origin (Expr.evalAll view origin call.1 0 call.2)
  | .call name arguments => by
    rw [outputs, fillings, List.flatMap_append, Expr.outputsAll_eq_flatMap arguments, callOutputs]
    split
    · rw [List.flatMap_singleton]
      rfl
    · rfl
  | .binary _ left right => by
    rw [outputs, fillings, List.flatMap_append, left.outputs_eq_flatMap, right.outputs_eq_flatMap]
  | .empty | .number _ | .text _ | .bool _ | .cell _ | .range _ => by simp [outputs, fillings]

theorem Expr.outputsAll_eq_flatMap {place : List Nat} {i : Nat} :
    ∀ es : List Expr, Expr.outputsAll view origin place i es =
      (Expr.fillingsAll place i es).flatMap fun call =>
        filled view origin (Expr.evalAll view origin call.1 0 call.2)
  | [] => by simp [Expr.outputsAll, Expr.fillingsAll]
  | e :: es => by
    rw [outputsAll, fillingsAll, List.flatMap_append, e.outputs_eq_flatMap,
      Expr.outputsAll_eq_flatMap es]

end

end

section

variable {P : Token → Prop}

mutual

theorem Expr.Holds.exists_filling {place : List Nat} :
    ∀ {e : Expr}, e.Holds P → e.fillings place ≠ [] →
      ∃ name, isFilling name = true ∧ P (.function name)
  | .call name arguments, holds, calls => by
    rw [Holds] at holds
    by_cases fills : isFilling name = true
    · exact ⟨name, fills, holds.1⟩
    · rw [fillings, if_neg fills, List.append_nil] at calls
      exact holds.2.exists_filling calls
  | .binary _ left right, holds, calls => by
    rw [Holds] at holds
    rw [fillings, Ne, List.append_eq_nil_iff, not_and_or] at calls
    rcases calls with calls | calls
    · exact holds.1.exists_filling calls
    · exact holds.2.exists_filling calls
  | .empty, _, calls | .number _, _, calls | .text _, _, calls | .bool _, _, calls
  | .cell _, _, calls | .range _, _, calls => by simp [fillings] at calls

theorem Expr.HoldsAll.exists_filling {place : List Nat} {i : Nat} :
    ∀ {es : List Expr}, HoldsAll P es → fillingsAll place i es ≠ [] →
      ∃ name, isFilling name = true ∧ P (.function name)
  | [], _, calls => by simp [fillingsAll] at calls
  | e :: es, holds, calls => by
    rw [HoldsAll] at holds
    rw [fillingsAll, Ne, List.append_eq_nil_iff, not_and_or] at calls
    rcases calls with calls | calls
    · exact holds.1.exists_filling calls
    · exact holds.2.exists_filling calls

end

end

/-! ### The calls of a formula -/

/-- The expression of the formula has a call that fills other cells, at any depth. -/
def CallsFilling (formula : String) : Prop :=
  ∃ e, parse formula = .ok e ∧ e.fillings ≠ []

instance (formula : String) : Decidable (CallsFilling formula) :=
  match parsed : parse formula with
  | .error _ => isFalse (by
      rintro ⟨e, parsed', -⟩
      rw [parsed] at parsed'
      exact absurd parsed' nofun)
  | .ok e => decidable_of_iff (e.fillings.isEmpty = false) (by
      rw [List.isEmpty_eq_false_iff]
      refine ⟨fun calls => ⟨e, parsed, calls⟩, ?_⟩
      rintro ⟨e', parsed', calls⟩
      rw [parsed] at parsed'
      cases parsed'
      exact calls)

theorem outputs_of_not_callsFilling {formula : String} (none : ¬ CallsFilling formula)
    (view : CellView) (origin : CellId) : outputs view origin formula = [] := by
  rw [outputs]
  cases parsed : parse formula with
  | error _ => rfl
  | ok e =>
    have empty : e.fillings = [] := by
      by_contra calls
      exact none ⟨e, parsed, calls⟩
    dsimp only
    rw [e.outputs_eq_flatMap, empty, List.flatMap_nil]

theorem Lexed.exists_word {due : Bool} {c : Char} {cs : List Char} {name : String} {n : Nat}
    (h : Lexed due c cs (.function name) n) :
    name = String.ofList (Text.capitals (c :: cs.take n)) := by
  cases h with
  | quoted _ _ _ read => exact absurd (isOperand_of_referenceToken read) nofun
  | negative _ _ _ read => exact absurd (isOperand_of_numberToken read) nofun
  | function _ _ read =>
    rw [functionToken] at read
    split at read
    · cases read
      rfl
    · cases read
  | word _ _ read => exact absurd (isOperand_of_wordToken read) nofun

/-- **The name of a function** stands in the text in some letter case, in front of a parenthesis. -/
theorem Pieced.exists_call {due : Bool} {cs : List Char} {ps : List Piece} (h : Pieced due cs ps)
    {name : String} (mem : .function name ∈ ps.filterMap Piece.token?) :
    ∃ front word back, cs = front ++ (word ++ '(' :: back) ∧
      name = String.ofList (Text.capitals word) := by
  induction h with
  | nil => exact absurd mem List.not_mem_nil
  | @blank due c cs ps _ _ ih =>
    obtain ⟨front, word, back, rfl, named⟩ := ih mem
    exact ⟨c :: front, word, back, rfl, named⟩
  | @token due c cs t n ps _ lexed _ ih =>
    rw [List.filterMap_cons, Piece.token?, List.mem_cons] at mem
    have split : c :: cs = (c :: cs.take n) ++ cs.drop n := by
      rw [List.cons_append, List.take_append_drop]
    rcases mem with rfl | mem
    · obtain ⟨back, follows⟩ : ∃ back, cs.drop n = '(' :: back :=
        List.head?_eq_some_iff.mp lexed.function_head
      exact ⟨[], c :: cs.take n, back, by rw [split, follows]; rfl, lexed.exists_word⟩
    · obtain ⟨front, word, back, rest, named⟩ := ih mem
      refine ⟨c :: cs.take n ++ front, word, back, ?_, named⟩
      rw [split, rest, List.append_assoc]

/-- There is the name of a function that fills other cells among the tokens of the formula, whether it
has an expression or not. -/
def NamesFilling (formula : String) : Prop :=
  ∃ ts name, tokens formula = .ok ts ∧ isFilling name = true ∧ .function name ∈ ts

theorem CallsFilling.namesFilling {formula : String} (calls : CallsFilling formula) :
    NamesFilling formula := by
  obtain ⟨e, parsed, calls⟩ := calls
  rw [parse] at parsed
  cases ok : tokens formula with
  | error _ =>
    rw [ok] at parsed
    cases parsed
  | ok ts =>
    rw [ok] at parsed
    obtain ⟨name, fills, mem⟩ := (Expr.holds_ofTokens parsed).exists_filling calls
    exact ⟨ts, name, ok, fills, mem⟩

/-- Such a name stands in the text in some letter case, in front of a parenthesis. -/
theorem NamesFilling.exists_call {formula : String} (names : NamesFilling formula) :
    ∃ front word back, formula.toList = front ++ (word ++ '(' :: back) ∧
      isFilling (String.ofList (Text.capitals word)) = true := by
  obtain ⟨ts, name, ok, fills, mem⟩ := names
  obtain ⟨ps, cut, rfl⟩ := ok_of_map ok
  obtain ⟨front, word, back, text, rfl⟩ := (pieces_eq_ok_iff.mp cut).exists_call mem
  exact ⟨front, word, back, text, fills⟩

/-- **No call is missed**: the look at the text finds every call that fills other cells, at any depth
and in any letter case. -/
theorem NamesFilling.mentionsFilling {formula : String} (names : NamesFilling formula) :
    mentionsFilling formula = true := by
  obtain ⟨front, word, back, text, fills⟩ := names.exists_call
  rw [isFilling, String.toList_ofList, Text.capitals_capitals, beq_iff_eq] at fills
  have capitals : Text.capitals formula.toList =
      Text.capitals front ++ ("OLS(".toList ++ Text.capitals back) := by
    rw [text, Text.capitals, List.map_append, List.map_append]
    show _ ++ (Text.capitals word ++ _) = _
    rw [fills]
    rfl
  rw [Formula.mentionsFilling, capitals]
  exact Text.contains_append _ _ _

/-! ### Formulas that call nothing -/

theorem not_namesFilling_quote (text : String) : ¬ NamesFilling (Text.quote text) := by
  rintro ⟨ts, name, ok, -, mem⟩
  rw [tokens_quote] at ok
  cases ok
  cases List.mem_singleton.mp mem

theorem not_namesFilling_of_not_mem {formula : String} (none : '(' ∉ formula.toList) :
    ¬ NamesFilling formula := by
  intro names
  obtain ⟨front, word, back, text, -⟩ := names.exists_call
  exact none (by simp [text])

theorem not_namesFilling_of_numeric {formula : String}
    (numeric : ∀ c ∈ formula.toList, isNumeric c = true) : ¬ NamesFilling formula :=
  not_namesFilling_of_not_mem fun mem => absurd (numeric _ mem) (by decide)

theorem not_namesFilling_empty : ¬ NamesFilling "" := not_namesFilling_of_not_mem (by decide)

theorem not_namesFilling_literal (v : CellValue) : ¬ NamesFilling v.literal := by
  cases v with
  | pending f => exact not_namesFilling_empty
  | text s => exact not_namesFilling_quote s
  | status s => exact not_namesFilling_quote s
  | bool b => cases b <;> exact not_namesFilling_of_not_mem (by decide)
  | number x =>
    rcases text_number_cases x with named | numeric
    · refine not_namesFilling_of_not_mem ?_
      show '(' ∉ (Number.text x).toList
      rcases List.mem_cons.mp named with same | named
      · rw [same]
        decide
      · rcases List.mem_cons.mp named with same | named
        · rw [same]
          decide
        · rw [List.mem_singleton.mp named]
          decide
    · exact not_namesFilling_of_numeric numeric

/-! ### Formulas that move -/

theorem NamesFilling.of_replaceMentions {formula : String} {replace : Mention → Option Mention}
    (tidy : Tidy formula)
    (names : NamesFilling (replaceMentions (fun m => (replace m).map Mention.text) formula)) :
    NamesFilling formula := by
  rcases tidy with valid | none
  · obtain ⟨ts', name, ok', fills, mem⟩ := names
    obtain ⟨ps', cut, rfl⟩ := ok_of_map ok'
    obtain ⟨ps, -, ok, -, rfl⟩ := eq_of_pieces_replaceMentions valid cut
    refine ⟨_, name, tokens_of_pieces ok, fills, ?_⟩
    obtain ⟨p', spliced, isName⟩ := List.mem_filterMap.mp mem
    obtain ⟨p, before, rfl⟩ := List.mem_map.mp spliced
    refine List.mem_filterMap.mpr ⟨p, before, ?_⟩
    cases p with
    | blank c => exact isName
    | token t text =>
      rw [Piece.splice] at isName
      split at isName
      · rename_i new _
        have operand := new.isOperand_reading
        rw [Option.some.inj isName] at operand
        cases operand
      · exact isName
  · rwa [replaceMentions_of_mentions_eq_nil none] at names

/-- A formula that can be stored with a mark: it can be read or has no references, and if it names a
function that fills other cells then it is marked. -/
structure Flagged (formula : String) (filling : Bool) : Prop where
  tidy : Tidy formula
  marked : NamesFilling formula → filling = true

variable {formula : String} {filling : Bool}

/-- **A copy of a formula** keeps its mark. -/
theorem Flagged.relocate (h : Flagged formula filling) (source target : CellId) (isCut : Bool)
    (directory : Directory) :
    Flagged (relocate source target isCut directory formula) filling where
  tidy := h.tidy.relocate source target isCut directory
  marked names := by
    rw [relocate_eq] at names
    exact h.marked (names.of_replaceMentions h.tidy)

/-- **A formula that is cut**, or follows a cut, keeps its mark. -/
theorem Flagged.retarget (h : Flagged formula filling) (home newHome : Nat) (cut : Cut)
    (directory : Directory) :
    Flagged (retarget home newHome cut directory formula) filling where
  tidy := h.tidy.retarget home newHome cut directory
  marked names := by
    rw [retarget_eq] at names
    exact h.marked (names.of_replaceMentions h.tidy)

theorem flagged_quote (text : String) (filling : Bool) : Flagged (Text.quote text) filling where
  tidy := Or.inr (mentions_quote text)
  marked names := absurd names (not_namesFilling_quote text)

theorem flagged_literal (v : CellValue) (filling : Bool) : Flagged v.literal filling where
  tidy := Or.inr (mentions_literal v)
  marked names := absurd names (not_namesFilling_literal v)

theorem flagged_literalFormula (text : String) (filling : Bool) :
    Flagged (literalFormula text) filling := by
  rw [literalFormula]
  split
  · exact flagged_literal (.pending "") filling
  · split
    · rename_i number
      have numeric := isNumeric_of_isNumberLiteral number
      exact ⟨Or.inr (mentions_eq_nil_of_numeric numeric),
        fun names => absurd names (not_namesFilling_of_numeric numeric)⟩
    · exact flagged_quote text filling

end Formula

end Spreadsheet
