import Spreadsheet.Proofs.Formula.Leaves

/-!
# What a formula reads

A reference belongs to the sheet that is written in front of it or to the sheet of its formula.  With
the sheet it names cells, and these are what the formula reads.

* `Formula.Reads home directory formula x`: a reference or range of the formula names the cell `x`.
* `mem_reads_iff`: the set `Formula.reads`, where there is one, has these cells as members.
* `evaluate_congr`: a formula has the same term in two views that agree on the sheets and the cells
  that it reads, and on its random number if it calls `RAND`.
* `outputs_congr`: then it fills the same cells with the same values, too.
* `mentions_quote`: a text literal reads nothing.
-/

namespace Spreadsheet.Formula

/-- The sheet of a reference or range in a formula on the sheet `home`. -/
def Mention.sheet? (home : Nat) (directory : Directory) (m : Mention) : Option Nat :=
  match m.writtenSheet with
  | none => some home
  | some name => directory.index? name

def Mention.cellsOn (sheet : Nat) : Mention → List CellId
  | cell r => [(r.onSheet sheet).cell]
  | range r => (r.onSheet sheet).cells

def Mention.termOn (view : CellView) (sheet : Nat) : Mention → Term
  | cell r => view.term (r.onSheet sheet).cell
  | range r =>
    let bound := r.onSheet sheet
    .range ⟨bound.height, bound.width, bound.cells.map view.term⟩

/-- A formula on the sheet `home` reads a cell: one of its references or ranges names it. -/
def Reads (home : Nat) (directory : Directory) (formula : String) (x : CellId) : Prop :=
  ∃ m ∈ mentions formula, ∃ sheet, m.1.sheet? home directory = some sheet ∧
    x ∈ m.1.cellsOn sheet

/-- A formula calls the function that gives random numbers. -/
def CallsRandom (formula : String) : Prop :=
  ∃ ts, tokens formula = .ok ts ∧ .function "RAND" ∈ ts

instance (formula : String) : Decidable (CallsRandom formula) :=
  match ok : tokens formula with
  | .error _ => isFalse (by
      rintro ⟨ts, ok', -⟩
      rw [ok] at ok'
      exact absurd ok' nofun)
  | .ok ts => decidable_of_iff (.function "RAND" ∈ ts) ⟨fun calls => ⟨ts, ok, calls⟩, by
      rintro ⟨ts', ok', calls⟩
      rw [ok] at ok'
      cases ok'
      exact calls⟩

/-! ### References with their sheets -/

theorem bind?_cell (r : WrittenReference) (home : Nat) (directory : Directory) :
    r.bind? home directory = ((Mention.cell r).sheet? home directory).map r.onSheet := by
  rw [Reference.bind?, Mention.sheet?, Mention.writtenSheet]
  cases r.sheet <;> rfl

theorem bind?_range (r : WrittenRange) (home : Nat) (directory : Directory) :
    r.bind? home directory = ((Mention.range r).sheet? home directory).map r.onSheet := by
  rw [Range.bind?, Mention.sheet?, Mention.writtenSheet]
  cases r.start.sheet <;> rfl

theorem Mention.term_eq (view : CellView) (origin : CellId) (m : Mention) :
    m.term view origin =
      match m.sheet? origin.sheet view.toDirectory with
      | some sheet => m.termOn view sheet
      | none => unresolved m.text := by
  cases m with
  | cell r =>
    rw [term, cellTerm, bind?_cell]
    cases (Mention.cell r).sheet? origin.sheet view.toDirectory <;> rfl
  | range r =>
    rw [term, rangeTerm, bind?_range]
    cases (Mention.range r).sheet? origin.sheet view.toDirectory <;> rfl

theorem Mention.termOn_congr {view view' : CellView} {sheet : Nat} {m : Mention}
    (h : ∀ x ∈ m.cellsOn sheet, view'.term x = view.term x) :
    m.termOn view' sheet = m.termOn view sheet := by
  cases m with
  | cell r => exact h _ (List.mem_singleton_self _)
  | range r =>
    rw [termOn, termOn]
    exact congrArg (fun values => Term.range ⟨_, _, values⟩) (List.map_congr_left h)

theorem Mention.sheet?_of_cells? {home : Nat} {directory : Directory} {m : Mention}
    {cells : List CellId} (h : m.cells? home directory = some cells) :
    ∃ sheet, m.sheet? home directory = some sheet ∧ cells = m.cellsOn sheet := by
  cases m with
  | cell r =>
    rw [cells?, bind?_cell] at h
    cases found : (Mention.cell r).sheet? home directory with
    | none => simp [found] at h
    | some sheet =>
      simp only [found, Option.map_some, Option.bind_eq_bind, Option.bind_some,
        Option.ite_none_right_eq_some, Option.some.injEq] at h
      exact ⟨sheet, rfl, h.2.symm⟩
  | range r =>
    rw [cells?, bind?_range] at h
    cases found : (Mention.range r).sheet? home directory with
    | none => simp [found] at h
    | some sheet =>
      simp only [found, Option.map_some, Option.bind_eq_bind, Option.bind_some,
        Option.ite_none_right_eq_some, Option.some.injEq] at h
      exact ⟨sheet, rfl, h.2.symm⟩

/-! ### The cells of a reference -/

theorem mem_range_cells (r : BoundRange) (x : CellId) :
    x ∈ r.cells ↔ x.sheet = r.sheet ∧ r.top ≤ x.row ∧ x.row ≤ r.bottom ∧ r.left ≤ x.col ∧
      x.col ≤ r.right := by
  have rows : r.top ≤ r.bottom := Nat.le_trans (Nat.min_le_left _ _) (Nat.le_max_left _ _)
  have cols : r.left ≤ r.right := Nat.le_trans (Nat.min_le_left _ _) (Nat.le_max_left _ _)
  rw [Range.cells, List.mem_flatMap]
  constructor
  · rintro ⟨col, hcol, hx⟩
    obtain ⟨row, hrow, rfl⟩ := List.mem_map.mp hx
    rw [List.mem_range'_1, Range.colCount] at hcol
    rw [List.mem_range'_1, Range.rowCount] at hrow
    refine ⟨rfl, ?_⟩
    show r.top ≤ row ∧ row ≤ r.bottom ∧ r.left ≤ col ∧ col ≤ r.right
    omega
  · rintro ⟨sheet, top, bottom, left, right⟩
    refine ⟨x.col, ?_, List.mem_map.mpr ⟨x.row, ?_, by rw [← sheet]⟩⟩
    · rw [List.mem_range'_1, Range.colCount]
      omega
    · rw [List.mem_range'_1, Range.rowCount]
      omega

def Mention.Covers (row col : Nat) : Mention → Prop
  | cell r => row = r.row ∧ col = r.col
  | range r => r.top ≤ row ∧ row ≤ r.bottom ∧ r.left ≤ col ∧ col ≤ r.right

theorem Mention.mem_cellsOn (m : Mention) (sheet : Nat) (x : CellId) :
    x ∈ m.cellsOn sheet ↔ x.sheet = sheet ∧ m.Covers x.row x.col := by
  cases m with
  | cell r =>
    obtain ⟨s, row, col⟩ := x
    rw [cellsOn, List.mem_singleton]
    simp [Covers, Reference.cell, Reference.onSheet]
  | range r =>
    rw [cellsOn, mem_range_cells]
    exact Iff.rfl

theorem Mention.exists_covers (m : Mention) : ∃ row col, m.Covers row col := by
  cases m with
  | cell r => exact ⟨r.row, r.col, rfl, rfl⟩
  | range r =>
    have rows : r.top ≤ r.bottom := Nat.le_trans (Nat.min_le_left _ _) (Nat.le_max_left _ _)
    have cols : r.left ≤ r.right := Nat.le_trans (Nat.min_le_left _ _) (Nat.le_max_left _ _)
    exact ⟨r.top, r.left, Nat.le_refl _, rows, Nat.le_refl _, cols⟩

/-! ### References inside their sheets -/

/-- Does the reference or range lie inside a sheet, as far as the last row and column go? -/
def Mention.isInside (directory : Directory) (sheet : Nat) : Mention → Bool
  | cell r => isWithin directory (r.onSheet sheet)
  | range r => isWithin directory (r.onSheet sheet).start && isWithin directory (r.onSheet sheet).stop

theorem Mention.cells?_eq (m : Mention) (home : Nat) (directory : Directory) :
    m.cells? home directory = (m.sheet? home directory).bind fun sheet =>
      if m.isInside directory sheet then some (m.cellsOn sheet) else none := by
  cases m with
  | cell r =>
    rw [cells?, bind?_cell]
    cases (Mention.cell r).sheet? home directory <;> rfl
  | range r =>
    rw [cells?, bind?_range]
    cases (Mention.range r).sheet? home directory <;> rfl

theorem Mention.isInside_mono {directory directory' : Directory} {sheet sheet' : Nat}
    (h : ∀ bounds, directory.bounds? sheet = some bounds → ∃ bounds',
      directory'.bounds? sheet' = some bounds' ∧ bounds.rows ≤ bounds'.rows ∧
        bounds.cols ≤ bounds'.cols) {m : Mention} (inside : m.isInside directory sheet = true) :
    m.isInside directory' sheet' = true := by
  have corner : ∀ r : WrittenReference, isWithin directory (r.onSheet sheet) = true →
      isWithin directory' (r.onSheet sheet') = true := by
    intro r within
    rw [isWithin] at within ⊢
    cases found : directory.bounds? sheet with
    | none =>
      rw [show (r.onSheet sheet).sheet = sheet from rfl, found] at within
      exact absurd within nofun
    | some bounds =>
      obtain ⟨bounds', found', rows, cols⟩ := h bounds found
      rw [show (r.onSheet sheet).sheet = sheet from rfl, found] at within
      rw [show (r.onSheet sheet').sheet = sheet' from rfl, found']
      dsimp only at within ⊢
      rw [Bool.and_eq_true] at within ⊢
      exact ⟨decide_eq_true (Nat.le_trans (of_decide_eq_true within.1) rows),
        decide_eq_true (Nat.le_trans (of_decide_eq_true within.2) cols)⟩
  cases m with
  | cell r => exact corner r inside
  | range r =>
    rw [isInside, Bool.and_eq_true] at inside ⊢
    exact ⟨corner r.start inside.1, corner r.stop inside.2⟩

/-! ### The set of cells that a formula reads -/

theorem foldlM_cells_ok (home : Nat) (directory : Directory) (ms : List (Mention × List Char))
    (start cells : CellSet)
    (ok : ms.foldlM (fun cells (m, text) =>
      match m.cells? home directory with
      | some more => Except.ok (cells.insertMany more)
      | none => .error (String.ofList text)) start = .ok cells) :
    (∀ m ∈ ms, (m.1.cells? home directory).isSome) ∧
      ∀ x, x ∈ cells ↔ x ∈ start ∨
        ∃ m ∈ ms, ∃ sheet, m.1.sheet? home directory = some sheet ∧ x ∈ m.1.cellsOn sheet := by
  induction ms generalizing start with
  | nil =>
    cases ok
    exact ⟨nofun, by simp⟩
  | cons head ms ih =>
    obtain ⟨m, text⟩ := head
    rw [List.foldlM_cons] at ok
    cases found : m.cells? home directory with
    | none => simp [found, bind, Except.bind] at ok
    | some more =>
      simp only [found, bind, Except.bind] at ok
      obtain ⟨resolved, members⟩ := ih _ ok
      obtain ⟨sheet, hsheet, rfl⟩ := Mention.sheet?_of_cells? found
      constructor
      · intro m' hm'
        rcases List.mem_cons.mp hm' with rfl | hm'
        · simp [found]
        · exact resolved m' hm'
      · intro x
        rw [members, Std.ExtTreeSet.mem_insertMany_list, List.contains_iff_mem]
        simp [hsheet, or_assoc]

theorem cells?_isSome_of_reads {home : Nat} {directory : Directory} {formula : String}
    {cells : CellSet} (ok : reads home directory formula = .ok cells) :
    ∀ m ∈ mentions formula, (m.1.cells? home directory).isSome :=
  (foldlM_cells_ok home directory _ _ _ ok).1

/-- Every reference of the formula belongs to a sheet and lies inside it. -/
def Grounded (home : Nat) (directory : Directory) (formula : String) : Prop :=
  ∀ m ∈ mentions formula, ∃ sheet, m.1.sheet? home directory = some sheet ∧
    m.1.isInside directory sheet = true

theorem Grounded.exists_reads {home : Nat} {directory : Directory} {formula : String}
    (h : Grounded home directory formula) :
    ∃ cells, reads home directory formula = .ok cells := by
  have all : ∀ (ms : List (Mention × List Char)) (start : CellSet),
      (∀ m ∈ ms, (m.1.cells? home directory).isSome) →
        ∃ cells, ms.foldlM (fun cells (m, text) =>
          match m.cells? home directory with
          | some more => Except.ok (cells.insertMany more)
          | none => .error (String.ofList text)) start = .ok cells := by
    intro ms
    induction ms with
    | nil => exact fun start _ => ⟨start, rfl⟩
    | cons head ms ih =>
      intro start named
      obtain ⟨more, found⟩ := Option.isSome_iff_exists.mp (named head List.mem_cons_self)
      obtain ⟨cells, ok⟩ := ih (start.insertMany more) fun m hm =>
        named m (List.mem_cons_of_mem _ hm)
      refine ⟨cells, ?_⟩
      simp only [List.foldlM_cons, found, bind, Except.bind]
      exact ok
  refine all (mentions formula) ∅ fun m hm => ?_
  obtain ⟨sheet, found, inside⟩ := h m hm
  rw [Mention.cells?_eq, found, Option.bind_some, if_pos inside]
  rfl

/-- **The cells that are listed are those that the formula reads.** -/
theorem mem_reads_iff {home : Nat} {directory : Directory} {formula : String} {cells : CellSet}
    (ok : reads home directory formula = .ok cells) (x : CellId) :
    x ∈ cells ↔ Reads home directory formula x := by
  have members := (foldlM_cells_ok home directory _ _ _ ok).2 x
  simpa [Reads] using members

/-! ### References among the tokens -/

theorem mem_mentions_of_mem_tokens {formula : String} {ts : List Token}
    (ok : tokens formula = .ok ts) {t : Token} (ht : t ∈ ts) {m : Mention}
    (hm : t.mention? = some m) : ∃ text, (m, text) ∈ mentions formula := by
  rw [tokens] at ok
  rw [mentions, piecesOrNone]
  cases hp : pieces formula with
  | error e => simp [hp, bind, Except.bind] at ok
  | ok ps =>
    simp only [hp, bind, Except.bind, pure, Except.pure, Except.ok.injEq] at ok
    subst ok
    obtain ⟨p, hpm, hpt⟩ := List.mem_filterMap.mp ht
    cases p with
    | blank c => exact absurd hpt nofun
    | token t' text =>
      cases hpt
      refine ⟨text, List.mem_filterMap.mpr ⟨_, hpm, ?_⟩⟩
      simp [Piece.mention?, hm]

/-- The leaves of what a formula says have the same terms if its references have those of their
replacements, and the same random number if the formula calls `RAND`. -/
theorem holds_sameTerm (σ : Mention → Mention) {view view' : CellView} {origin origin' : CellId}
    {formula : String} {e : Expr} (parsed : parse formula = .ok e)
    (draws : CallsRandom formula → view'.draw origin' = view.draw origin)
    (terms : ∀ m ∈ mentions formula, (σ m.1).term view' origin' = m.1.term view origin) :
    e.Holds (Token.SameTerm σ view view' origin origin') := by
  rw [parse] at parsed
  cases ok : tokens formula with
  | error _ =>
    rw [ok] at parsed
    exact absurd parsed nofun
  | ok ts =>
    rw [ok] at parsed
    refine (Expr.holds_ofTokens parsed).imp fun t ht => ?_
    cases t with
    | cell r =>
      obtain ⟨_, listed⟩ := mem_mentions_of_mem_tokens ok ht rfl
      exact terms _ listed
    | range r =>
      obtain ⟨_, listed⟩ := mem_mentions_of_mem_tokens ok ht rfl
      exact terms _ listed
    | function name =>
      rintro rfl
      exact draws ⟨ts, ok, ht⟩
    | _ => trivial

/-- An expression with its references replaced has the same term if each reference has that of its
replacement, and the same random number if the formula calls `RAND`. -/
theorem eval_mapMentions_of_terms (σ : Mention → Mention) {view view' : CellView}
    {origin origin' : CellId} {formula : String} {e : Expr} (parsed : parse formula = .ok e)
    (draws : CallsRandom formula → view'.draw origin' = view.draw origin)
    (terms : ∀ m ∈ mentions formula, (σ m.1).term view' origin' = m.1.term view origin) :
    (e.mapMentions σ).eval view' origin' [] = e.eval view origin [] :=
  Expr.eval_mapMentions (holds_sameTerm σ parsed draws terms)

/-- **A formula depends on the terms of its references**, and on its random number if it calls
`RAND`. -/
theorem evaluate_of_terms {view view' : CellView} {origin origin' : CellId} {formula : String}
    (draws : CallsRandom formula → view'.draw origin' = view.draw origin)
    (terms : ∀ m ∈ mentions formula, m.1.term view' origin' = m.1.term view origin) :
    evaluate view' origin' formula = evaluate view origin formula := by
  rw [evaluate, evaluate]
  cases parsed : parse formula with
  | error _ => rfl
  | ok e =>
    have same := eval_mapMentions_of_terms id parsed draws terms
    rw [Expr.mapMentions_id] at same
    dsimp only
    rw [same]

/-- A reference has the same term in two views with the same sheets and terms where it leads. -/
theorem Mention.term_congr {view view' : CellView} {origin origin' : CellId} {formula : String}
    (sheets : ∀ m ∈ mentions formula, m.1.sheet? origin'.sheet view'.toDirectory =
      m.1.sheet? origin.sheet view.toDirectory)
    (terms : ∀ x, Reads origin.sheet view.toDirectory formula x → view'.term x = view.term x) :
    ∀ m ∈ mentions formula, m.1.term view' origin' = m.1.term view origin := by
  intro m hm
  rw [Mention.term_eq, Mention.term_eq, sheets m hm]
  cases found : m.1.sheet? origin.sheet view.toDirectory with
  | none => rfl
  | some sheet =>
    refine Mention.termOn_congr ?_
    intro x hx
    exact terms x ⟨m, hm, sheet, found, hx⟩

/-- **A formula depends on the cells that it reads.** -/
theorem evaluate_congr {view view' : CellView} {origin origin' : CellId} {formula : String}
    (draws : CallsRandom formula → view'.draw origin' = view.draw origin)
    (sheets : ∀ m ∈ mentions formula, m.1.sheet? origin'.sheet view'.toDirectory =
      m.1.sheet? origin.sheet view.toDirectory)
    (terms : ∀ x, Reads origin.sheet view.toDirectory formula x → view'.term x = view.term x) :
    evaluate view' origin' formula = evaluate view origin formula :=
  evaluate_of_terms draws (Mention.term_congr sheets terms)

/-! ### Filling other cells -/

section

variable {view view' : CellView} {origin : CellId}

mutual

theorem Expr.outputs_of_holds (bounds : view'.bounds? origin.sheet = view.bounds? origin.sheet)
    {place : List Nat} : ∀ {e : Expr}, e.Holds (Token.SameTerm id view view' origin origin) →
      e.outputs view' origin place = e.outputs view origin place
  | empty, _ => by simp [outputs]
  | number _, _ => by simp [outputs]
  | text _, _ => by simp [outputs]
  | bool _, _ => by simp [outputs]
  | cell _, _ => by simp [outputs]
  | range _, _ => by simp [outputs]
  | call name arguments, h => by
    rw [Holds] at h
    have terms : Expr.evalAll view' origin place 0 (Expr.mapMentionsAll id arguments) =
        Expr.evalAll view origin place 0 arguments := Expr.evalAll_mapMentions h.2
    rw [Expr.mapMentionsAll_id] at terms
    rw [outputs, outputs, Expr.outputsAll_of_holds bounds h.2, terms, callOutputs, callOutputs,
      bounds]
  | binary _ left right, h => by
    rw [Holds] at h
    rw [outputs, outputs, Expr.outputs_of_holds bounds h.1, Expr.outputs_of_holds bounds h.2]

theorem Expr.outputsAll_of_holds (bounds : view'.bounds? origin.sheet = view.bounds? origin.sheet)
    {place : List Nat} {i : Nat} :
    ∀ {es : List Expr}, HoldsAll (Token.SameTerm id view view' origin origin) es →
      outputsAll view' origin place i es = outputsAll view origin place i es
  | [], _ => by simp [outputsAll]
  | e :: es, h => by
    rw [HoldsAll] at h
    rw [outputsAll, outputsAll, Expr.outputs_of_holds bounds h.1,
      Expr.outputsAll_of_holds bounds h.2]

end

/-- **What a formula fills depends on the cells that it reads**, and on the size of its sheet. -/
theorem outputs_congr {formula : String}
    (bounds : view'.bounds? origin.sheet = view.bounds? origin.sheet)
    (draws : CallsRandom formula → view'.draw origin = view.draw origin)
    (sheets : ∀ m ∈ mentions formula, m.1.sheet? origin.sheet view'.toDirectory =
      m.1.sheet? origin.sheet view.toDirectory)
    (terms : ∀ x, Reads origin.sheet view.toDirectory formula x → view'.term x = view.term x) :
    outputs view' origin formula = outputs view origin formula := by
  rw [outputs, outputs]
  cases parsed : parse formula with
  | error _ => rfl
  | ok e =>
    exact Expr.outputs_of_holds bounds
      (holds_sameTerm id parsed draws (Mention.term_congr sheets terms))

end

/-! ### Text literals -/

theorem readText?_escape (text rest : List Char) :
    readText? (Text.escape text ++ '"' :: rest) = some (text, (Text.escape text).length + 1) := by
  induction text with
  | nil => rfl
  | cons c cs ih =>
    rw [Text.escape]
    split
    · rw [List.cons_append, List.cons_append, readText?, ih]
      simp
    · rename_i plain
      simp only [Bool.or_eq_true, beq_iff_eq, not_or] at plain
      rw [List.cons_append, readText?, ih]
      · simp
      · exact plain.1
      · exact fun backslash _ => plain.2 backslash
      · exact fun _ _ backslash _ => plain.2 backslash

theorem pieces_quote (text : String) :
    pieces (Text.quote text) =
      .ok [.token (.text text) ('"' :: (Text.escape text.toList ++ ['"']))] := by
  have body := readText?_escape text.toList []
  rw [pieces, Text.quote, String.toList_ofList, List.cons_append, piecesFrom]
  have notBlank : Text.isBlank '"' = false := by decide
  rw [if_neg (by simp [notBlank])]
  simp only [readToken, body]
  have whole : List.take ((Text.escape text.toList).length + 1)
      (Text.escape text.toList ++ ['"']) = Text.escape text.toList ++ ['"'] :=
    List.take_of_length_le (by simp)
  simp [piecesFrom, bind, Except.bind, pure, Except.pure, whole]

theorem tokens_quote (text : String) : tokens (Text.quote text) = .ok [.text text] := by
  rw [tokens, pieces_quote]
  rfl

theorem mentions_quote (text : String) : mentions (Text.quote text) = [] := by
  rw [mentions, piecesOrNone, pieces_quote]
  rfl

end Spreadsheet.Formula
