import Spreadsheet.Proofs.Formula.Cursor

/-!
# The places of tokens

The tokens of a formula stand one after the other, each between two positions, and there are only
blanks around them.  The text between the two positions of a token is the same token when it stands
alone, but for the name of a function, which needs its parenthesis.

* `Lexed.alone`: a token is read in the same way if nothing follows it.
* `Tiles formula ls`: the tokens fill the formula up to blanks.
* `tiles_and_lexemes_slice`: a formula is read to its end, and its tokens fill it.
-/

namespace Spreadsheet.Formula

/-! ### A token alone -/

theorem wordLength_take (cs : List Char) : wordLength (cs.take (wordLength cs)) = wordLength cs := by
  induction cs with
  | nil => rfl
  | cons c cs ih =>
    rw [wordLength]
    split
    · rfl
    · rename_i inner
      -- The only character that a word looks ahead for is one that would have ended it.
      have inner' : ¬ endsWord c (cs.take (wordLength cs)) = true := by
        intro ends
        refine inner ?_
        rw [endsWord, Bool.or_eq_true] at ends ⊢
        refine ends.imp_right fun mark => ?_
        rw [List.head?_take] at mark
        split at mark
        · simp at mark
        · exact mark
      rw [List.take_succ_cons, wordLength, if_neg inner', ih]

/-- **A token that is no function is the same token when nothing follows it**, where an operand may
come. -/
theorem Lexed.alone {due : Bool} {c : Char} {cs : List Char} {t : Token} {n : Nat}
    (h : Lexed due c cs t n) (notFunction : ∀ name, t ≠ .function name) :
    Lexed true c (cs.take n) t n := by
  have le := h.le_length
  cases h with
  | leftParen same => exact .leftParen same
  | rightParen same => exact .rightParen same
  | comma same => exact .comma same
  | text same read =>
    have again := (readText?_take read []).2
    rw [List.append_nil] at again
    exact .text same again
  | @quoted _ k word same length mark read =>
    have long := wordLength_take word
    have name : (cs.take k).length = k := List.length_take_of_le (by omega)
    have joined : cs.take (k + 1 + wordLength word) =
        cs.take k ++ '!' :: word.take (wordLength word) := by
      rw [Nat.add_assoc, List.take_add, mark, Nat.add_comm, List.take_succ_cons]
    have length' := (quotedNameLength?_take length ('!' :: word.take (wordLength word)) (by simp)).2
    have mark' : (cs.take (k + 1 + wordLength word)).drop k = '!' :: word.take (wordLength word) := by
      rw [joined, List.drop_left' name]
    have again : Lexed true c (cs.take (k + 1 + wordLength word)) t _ :=
      .quoted same (joined ▸ length') mark' (by rw [long, List.take_take, Nat.min_self]; exact read)
    rwa [long] at again
  | negative same isDue digit read =>
    have long := wordLength_take cs
    have digits : wordLength cs ≠ 0 := by
      intro none
      rw [none] at read
      exact absurd read nofun
    have again : Lexed true c (cs.take (wordLength cs)) t _ := .negative same rfl
      (by rwa [List.head?_take, if_neg digits])
      (by rw [long, List.take_take, Nat.min_self]; exact read)
    rwa [long] at again
  | @operator op sign first spelled =>
    have spelling := take_of_atStart? spelled
    have second : (cs.take (op.spelling.length - 1)).head?.any Char.isDigit = false := by
      rw [show cs.take (op.spelling.length - 1) = op.spelling.toList.tail from
        congrArg List.tail spelling]
      cases op <;> decide
    refine .operator (by rw [second, Bool.and_false]) first ?_
    rw [spelling, ← List.append_nil op.spelling.toList]
    exact atStart?_spelling op nofun nofun
  | function _ _ read =>
    obtain ⟨name, rfl⟩ := function_of_functionToken read
    exact absurd rfl (notFunction name)
  | word begins paren read =>
    have long := wordLength_take cs
    have again : Lexed true c (cs.take (wordLength cs)) t _ := .word begins (by simp [long])
      (by rw [long, List.take_take, Nat.min_self]; exact read)
    rwa [long] at again

theorem lexemes_alone {due : Bool} {c : Char} {cs : List Char} {t : Token} {n : Nat}
    (visible : Text.isBlank c = false) (h : Lexed due c cs t n)
    (notFunction : ∀ name, t ≠ .function name) :
    lexemes (String.ofList (c :: cs.take n)) = .ok [⟨t, 0, Text.byteLength (c :: cs.take n)⟩] := by
  have pieced : Pieced true (c :: cs.take n) [.token t (c :: cs.take n)] := by
    have ends : Pieced t.opensOperand ((cs.take n).drop n) [] := by simpa using .nil
    have first := Pieced.token visible (h.alone notFunction) ends
    rwa [List.take_take, Nat.min_self] at first
  have ok : pieces (String.ofList (c :: cs.take n)) = .ok [.token t (c :: cs.take n)] :=
    pieces_eq_ok_iff.mpr (by rwa [String.toList_ofList])
  rw [lexemes, ok]
  show Except.ok [(⟨t, 0, 0 + Text.byteLength (c :: cs.take n)⟩ : Lexeme)] = _
  rw [Nat.zero_add]

/-! ### The places -/

theorem le_start_of_mem {position : Nat} {ps : List Piece} {l : Lexeme}
    (mem : l ∈ lexemesFrom position ps) : position ≤ l.start := by
  induction ps generalizing position with
  | nil => exact absurd mem List.not_mem_nil
  | cons p ps ih =>
    cases p with
    | blank c => exact (Nat.le_add_right _ _).trans (ih mem)
    | token t text =>
      rcases List.mem_cons.mp mem with rfl | mem
      · exact Nat.le_refl _
      · exact (Nat.le_add_right _ _).trans (ih mem)

theorem pairwise_lexemesFrom (position : Nat) (ps : List Piece) :
    (lexemesFrom position ps).Pairwise fun l l' => l.stop ≤ l'.start := by
  induction ps generalizing position with
  | nil => exact .nil
  | cons p ps ih =>
    cases p with
    | blank c => exact ih _
    | token t text => exact List.pairwise_cons.mpr ⟨fun l mem => le_start_of_mem mem, ih _⟩

section

variable {due : Bool} {cs : List Char} {ps : List Piece} {position : Nat} {l : Lexeme}

/-- **Every token stands where it was read.** -/
theorem Pieced.exists_lexed (h : Pieced due cs ps) (mem : l ∈ lexemesFrom position ps) :
    ∃ due' before c rest n, cs = before ++ c :: rest ∧
      l.start = position + Text.byteLength before ∧
      l.stop = l.start + Text.byteLength (c :: rest.take n) ∧
      Text.isBlank c = false ∧ Lexed due' c rest l.token n := by
  induction h generalizing position with
  | nil => exact absurd mem List.not_mem_nil
  | @blank _ b cs ps _ _ ih =>
    obtain ⟨due', before, c, rest, n, rfl, start, stop, visible, lexed⟩ :=
      @ih (position + Text.byteLength [b]) mem
    refine ⟨due', b :: before, c, rest, n, rfl, ?_, stop, visible, lexed⟩
    rw [start]
    simp [Nat.add_assoc]
  | @token due c cs t n ps visible lexed _ ih =>
    rcases List.mem_cons.mp mem with rfl | mem
    · exact ⟨due, [], c, cs, n, rfl, rfl, rfl, visible, lexed⟩
    · obtain ⟨due', before, d, rest, m, same, start, stop, visible', lexed'⟩ := ih mem
      refine ⟨due', c :: cs.take n ++ before, d, rest, m, ?_, ?_, stop, visible', lexed'⟩
      · rw [List.append_assoc, ← same, List.cons_append, List.take_append_drop]
      · rw [start, Text.byteLength_append, Nat.add_assoc]
        rfl

/-- **What stands outside of all tokens is blank.** -/
theorem Pieced.isBlank_of_outside (h : Pieced due cs ps) {before after : List Char} {c : Char}
    (same : cs = before ++ c :: after)
    (outside : ∀ l ∈ lexemesFrom position ps,
      ¬ (l.start ≤ position + Text.byteLength before ∧ position + Text.byteLength before < l.stop)) :
    Text.isBlank c = true := by
  induction h generalizing position before with
  | nil => simp at same
  | @blank _ b cs ps blank _ ih =>
    cases before with
    | nil =>
      cases same
      exact blank
    | cons d before =>
      obtain ⟨rfl, rfl⟩ := List.cons.inj same
      refine @ih (position + Text.byteLength [b]) before rfl fun l mem => ?_
      have away := outside l mem
      rw [Text.byteLength_cons, ← Nat.add_assoc] at away
      exact away
  | @token due d cs t n ps visible lexed _ ih =>
    have parts : (d :: cs.take n) ++ cs.drop n = before ++ c :: after := by
      rw [← same, List.cons_append, List.take_append_drop]
    rcases List.append_eq_append_iff.mp parts with ⟨inner, rfl, rest⟩ | ⟨inner, text, rest⟩
    · refine @ih (position + Text.byteLength (d :: cs.take n)) inner rest fun l mem => ?_
      have away := outside l (List.mem_cons_of_mem _ mem)
      rw [Text.byteLength_append, ← Nat.add_assoc] at away
      exact away
    · cases inner with
      | nil =>
        rw [List.append_nil] at text
        rw [← text] at outside
        exact @ih (position + Text.byteLength (d :: cs.take n)) [] rest.symm
          fun l mem => outside l (List.mem_cons_of_mem _ mem)
      | cons b inner =>
        have size := b.utf8Size_pos
        refine absurd ⟨Nat.le_add_right _ _, ?_⟩ (outside _ List.mem_cons_self)
        show _ < position + Text.byteLength (d :: cs.take n)
        rw [text, Text.byteLength_append, Text.byteLength_cons]
        omega

/-- **Behind the name of a function stands its parenthesis.** -/
theorem Pieced.leftParen_follows (h : Pieced due cs ps) {i : Nat} {name : String}
    (found : (lexemesFrom position ps)[i]? = some l) (isFunction : l.token = .function name) :
    ∃ l', (lexemesFrom position ps)[i + 1]? = some l' ∧ l'.token = .leftParen ∧
      l'.start = l.stop := by
  induction h generalizing position i with
  | nil => exact absurd found nofun
  | blank _ _ ih => exact ih found
  | @token due c cs t n ps visible lexed rest ih =>
    cases i with
    | succ i => exact ih found
    | zero =>
      cases found
      have isName : t = .function name := isFunction
      rw [isName] at lexed rest
      obtain ⟨after, same⟩ := List.head?_eq_some_iff.mp lexed.function_head
      rw [same] at rest
      cases rest with
      | blank blank => exact absurd blank (by decide)
      | token _ paren =>
        obtain ⟨rfl, -⟩ := (Lexed.leftParen rfl).unique paren
        exact ⟨_, rfl, rfl, rfl⟩

end

/-! ### The formula -/

/-- The tokens fill the formula up to blanks. -/
structure Tiles (formula : String) (ls : List Lexeme) : Prop where
  /-- Every token has a text. -/
  nonempty : ∀ l ∈ ls, l.start < l.stop
  /-- The tokens stand one after the other. -/
  ordered : ls.Pairwise fun l l' => l.stop ≤ l'.start
  /-- Every token begins and ends between characters. -/
  whole : ∀ l ∈ ls, (Text.slice? formula.toList l.start l.stop).isSome = true
  /-- What stands in no token is blank. -/
  gaps : ∀ before c after, formula.toList = before ++ c :: after →
    (∀ l ∈ ls, ¬ (l.start ≤ Text.byteLength before ∧ Text.byteLength before < l.stop)) →
      Text.isBlank c = true

theorem exists_pieces_of_lexemes {formula : String} {ls : List Lexeme}
    (ok : lexemes formula = .ok ls) :
    ∃ ps, Pieced true formula.toList ps ∧ lexemesFrom 0 ps = ls := by
  rw [lexemes] at ok
  cases read : pieces formula with
  | error e =>
    rw [read] at ok
    cases ok
  | ok ps =>
    rw [read] at ok
    exact ⟨ps, pieces_eq_ok_iff.mp read, Except.ok.inj ok⟩

/-- **A formula is read to its end, and its tokens fill it.**  Reading by positions comes to an end and
never cuts through a character.  If it gives tokens, they fill the formula up to blanks, a parenthesis
stands behind the name of every function, and the text of every other token is this token alone. -/
theorem tiles_and_lexemes_slice (formula : String) :
    seekLexemes formula = .some (lexemes formula) ∧
    ∀ ls, lexemes formula = .ok ls →
      Tiles formula ls ∧
      (∀ i l name, ls[i]? = some l → l.token = .function name →
        ∃ l', ls[i + 1]? = some l' ∧ l'.token = .leftParen ∧ l'.start = l.stop) ∧
      ∀ l ∈ ls, (∀ name, l.token ≠ .function name) →
        ∃ text, Text.slice? formula.toList l.start l.stop = some text ∧
          lexemes (String.ofList text) = .ok [⟨l.token, 0, l.stop - l.start⟩] := by
  refine ⟨seekLexemes_eq formula, fun ls ok => ?_⟩
  obtain ⟨ps, pieced, rfl⟩ := exists_pieces_of_lexemes ok
  have places : ∀ l ∈ lexemesFrom 0 ps, ∃ due c rest n,
      Text.slice? formula.toList l.start l.stop = some (c :: rest.take n) ∧
      l.stop = l.start + Text.byteLength (c :: rest.take n) ∧
      Text.isBlank c = false ∧ Lexed due c rest l.token n := by
    intro l mem
    obtain ⟨due, before, c, rest, n, same, start, stop, visible, lexed⟩ := pieced.exists_lexed mem
    rw [Nat.zero_add] at start
    refine ⟨due, c, rest, n, ?_, stop, visible, lexed⟩
    rw [stop, start, same]
    exact slice?_behind before rest c n
  refine ⟨⟨fun l mem => ?_, pairwise_lexemesFrom 0 ps, fun l mem => ?_, ?_⟩, ?_,
    fun l mem notFunction => ?_⟩
  · obtain ⟨_, c, _, _, -, stop, -⟩ := places l mem
    have size := c.utf8Size_pos
    rw [stop, Text.byteLength_cons]
    omega
  · obtain ⟨_, _, _, _, slice, -⟩ := places l mem
    rw [slice]
    rfl
  · intro before c after same outside
    have away : ∀ l ∈ lexemesFrom 0 ps, ¬ (l.start ≤ 0 + Text.byteLength before ∧
        0 + Text.byteLength before < l.stop) := by
      rw [Nat.zero_add]
      exact outside
    exact pieced.isBlank_of_outside same away
  · intro i l name found isFunction
    exact pieced.leftParen_follows found isFunction
  · obtain ⟨_, c, rest, n, slice, stop, visible, lexed⟩ := places l mem
    refine ⟨_, slice, ?_⟩
    rw [lexemes_alone visible lexed notFunction, stop, Nat.add_sub_cancel_left]

/-- A number with a sign, a name with an apostrophe and a letter of two bytes, a text with an escape, and
blanks of one and three bytes. -/
theorem tiles_and_lexemes_slice_name :
    let formula := "-5 - 'å''s'!$b2\u3000<>Sum( \"π\\\"\",TRUE)"
    ∃ ls, lexemes formula = .ok ls ∧
      ls.map (fun l => (l.token, l.start, l.stop)) =
        [(.number (Number.ofPattern true 0x4014000000000000), 0, 2), (.operator .minus, 3, 4),
          (.cell ⟨some "å's", 2, 2, false, true⟩, 5, 16), (.operator .different, 19, 21),
          (.function "SUM", 21, 24), (.leftParen, 24, 25), (.text "π\"", 26, 32), (.comma, 32, 33),
          (.bool true, 33, 37), (.rightParen, 37, 38)] ∧
      seekLexemes formula = .some (.ok ls) ∧ Tiles formula ls := by
  intro formula
  have read : (lexemes formula).toOption.map (·.map fun l => (l.token, l.start, l.stop)) = some
      [(.number (Number.ofPattern true 0x4014000000000000), 0, 2), (.operator .minus, 3, 4),
        (.cell ⟨some "å's", 2, 2, false, true⟩, 5, 16), (.operator .different, 19, 21),
        (.function "SUM", 21, 24), (.leftParen, 24, 25), (.text "π\"", 26, 32), (.comma, 32, 33),
        (.bool true, 33, 37), (.rightParen, 37, 38)] := by decide +kernel
  obtain ⟨found, places⟩ := tiles_and_lexemes_slice formula
  cases ok : lexemes formula with
  | error e =>
    rw [ok] at read
    cases read
  | ok ls =>
    rw [ok] at read found
    exact ⟨ls, rfl, Option.some.inj read, found, (places ls ok).1⟩

end Spreadsheet.Formula
