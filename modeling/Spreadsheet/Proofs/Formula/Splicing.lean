import Mathlib.Data.List.Basic
import Spreadsheet.Proofs.Formula.Reading
import Spreadsheet.Proofs.Formula.Rendering

/-!
# Replacing references in a formula

When references of a formula are replaced by the text of other references, the new text is cut into
the same pieces with the other references in them.  A piece is read in the same way as before because
its neighbours begin in the same way: in a formula that can be read, a reference stands between
operators, parentheses and commas.  A coordinate of a new reference may be zero, and then its text is
read as a number or not at all.

* `Pieced due cs ps`: the text `cs` is cut into the pieces `ps`.
* `Arranged prev ts`: which tokens stand side by side in a formula that can be read.
* `pieces_replaceMentions`: the pieces of the new text.
* `Tidy f`: the formula can be read or has no references, and so can one whose references are replaced.
* `parse_replaceMentions`: what the new text says.
-/

namespace Spreadsheet.Formula

/-! ### Pieces -/

/-- The text is cut into the pieces.  `due` says whether an operand has to come next. -/
inductive Pieced : Bool → List Char → List Piece → Prop
  | nil {due : Bool} : Pieced due [] []
  | blank {due : Bool} {c : Char} {cs : List Char} {ps : List Piece} : Text.isBlank c = true →
      Pieced due cs ps → Pieced due (c :: cs) (.blank c :: ps)
  | token {due : Bool} {c : Char} {cs : List Char} {t : Token} {n : Nat} {ps : List Piece} :
      Text.isBlank c = false → Lexed due c cs t n → Pieced t.opensOperand (cs.drop n) ps →
        Pieced due (c :: cs) (.token t (c :: cs.take n) :: ps)

theorem piecesFrom_blank {c : Char} (blank : Text.isBlank c = true) (due : Bool) (position : Nat)
    (cs : List Char) : piecesFrom due position (c :: cs) =
      (piecesFrom due (position + c.utf8Size) cs).map (.blank c :: ·) := by
  rw [piecesFrom, if_pos blank]
  cases piecesFrom due (position + c.utf8Size) cs <;> rfl

theorem piecesFrom_token {due : Bool} {position : Nat} {c : Char} {cs : List Char} {t : Token}
    {n : Nat} (visible : Text.isBlank c = false) (lexed : Lexed due c cs t n) :
    piecesFrom due position (c :: cs) =
      (piecesFrom t.opensOperand (position + Text.byteLength (c :: cs.take n)) (cs.drop n)).map
        (.token t (c :: cs.take n) :: ·) := by
  rw [piecesFrom, if_neg (by simp [visible]), (readToken_eq_ok_iff position).mpr lexed]
  dsimp only [bind, Except.bind]
  cases piecesFrom t.opensOperand (position + Text.byteLength (c :: cs.take n)) (cs.drop n) <;> rfl

theorem ok_of_map {ε α β : Type} {x : Except ε α} {f : α → β} {b : β} (h : x.map f = .ok b) :
    ∃ a, x = .ok a ∧ f a = b := by
  cases x with
  | error e => exact absurd h nofun
  | ok a => exact ⟨a, rfl, Except.ok.inj h⟩

theorem piecesFrom_eq_ok_iff {due : Bool} (position : Nat) {cs : List Char} {ps : List Piece} :
    piecesFrom due position cs = .ok ps ↔ Pieced due cs ps := by
  constructor
  · intro ok
    induction length : cs.length using Nat.strongRecOn generalizing due position cs ps with
    | ind bound ih =>
      cases cs with
      | nil =>
        rw [piecesFrom] at ok
        cases ok
        exact .nil
      | cons c cs =>
        by_cases blank : Text.isBlank c = true
        · rw [piecesFrom_blank blank] at ok
          obtain ⟨rest, read, rfl⟩ := ok_of_map ok
          exact .blank blank (ih cs.length (by rw [← length]; simp) _ read rfl)
        · have visible : Text.isBlank c = false := Bool.eq_false_iff.mpr blank
          cases first : readToken due position c cs with
          | error e =>
            rw [piecesFrom, if_neg blank, first] at ok
            cases ok
          | ok pair =>
            obtain ⟨t, n⟩ := pair
            have lexed := (readToken_eq_ok_iff position).mp first
            rw [piecesFrom_token visible lexed] at ok
            obtain ⟨rest, read, rfl⟩ := ok_of_map ok
            refine .token visible lexed (ih (cs.drop n).length ?_ _ read rfl)
            rw [← length, List.length_drop, List.length_cons]
            omega
  · intro pieced
    induction pieced generalizing position with
    | nil => simp [piecesFrom]
    | blank blank _ ih => rw [piecesFrom_blank blank, ih]; rfl
    | token visible lexed _ ih => rw [piecesFrom_token visible lexed, ih]; rfl

theorem pieces_eq_ok_iff {formula : String} {ps : List Piece} :
    pieces formula = .ok ps ↔ Pieced true formula.toList ps :=
  piecesFrom_eq_ok_iff 0

theorem Pieced.flatMap_chars {due : Bool} {cs : List Char} {ps : List Piece}
    (h : Pieced due cs ps) : ps.flatMap Piece.chars = cs := by
  induction h with
  | nil => rfl
  | blank _ _ ih => rw [List.flatMap_cons, ih]; rfl
  | token _ _ _ ih =>
    rw [List.flatMap_cons, ih, Piece.chars, List.cons_append, List.take_append_drop]

/-! ### Tokens side by side -/

def Token.endsOperand : Token → Bool
  | operator _ | rightParen | comma => true
  | _ => false

/-- The token can come after the previous one in a formula that can be read. -/
structure Token.MayFollow (previous : Option Token) (t : Token) : Prop where
  /-- No operator comes where an operand is due. -/
  due : previous.elim true opensOperand = true → ∀ op, t ≠ .operator op
  /-- A parenthesis follows the name of a function. -/
  call : ∀ name, previous = some (.function name) → t = .leftParen
  /-- An operand is followed by what can end it. -/
  complete : ∀ p, previous = some p → p.isOperand = true ∨ p = .rightParen → t.endsOperand = true

def Arranged : Option Token → List Token → Prop
  | _, [] => True
  | previous, t :: ts => t.MayFollow previous ∧ Arranged (some t) ts

def Reading.Suits (previous : Option Token) : Reading → Prop
  | due _ => previous.elim true Token.opensOperand = true
  | complete _ => ∃ p, previous = some p ∧ (p.isOperand = true ∨ p = .rightParen)

theorem mayFollow_due {previous : Option Token} (h : previous.elim true Token.opensOperand = true)
    {t : Token} (notOperator : ∀ op, t ≠ .operator op) : t.MayFollow previous where
  due _ := notOperator
  call := by
    rintro name rfl
    exact absurd h nofun
  complete := by
    rintro p rfl (operand | rfl)
    · cases p <;> simp [Token.opensOperand, Token.isOperand] at h operand
    · exact absurd h nofun

theorem mayFollow_complete {previous : Option Token}
    (h : ∃ p, previous = some p ∧ (p.isOperand = true ∨ p = .rightParen)) {t : Token}
    (ends : t.endsOperand = true) : t.MayFollow previous := by
  obtain ⟨p, rfl, kind⟩ := h
  refine ⟨?_, ?_, fun _ _ _ => ends⟩
  · intro opens
    rcases kind with operand | rfl
    · cases p <;> simp [Token.opensOperand, Token.isOperand] at opens operand
    · exact absurd opens nofun
  · rintro name same
    cases same
    exact absurd kind (by simp [Token.isOperand])

theorem mayFollow_call (name : String) : Token.leftParen.MayFollow (some (.function name)) where
  due opens := absurd opens nofun
  call _ _ := rfl
  complete := by
    rintro p same kind
    cases same
    exact absurd kind (by simp [Token.isOperand])

theorem isOperand_of_operand? {t : Token} {e : Expr} (h : t.operand? = some e) :
    t.isOperand = true := by
  cases t <;> first | rfl | exact absurd h nofun

/-- **In a formula that can be read**, tokens stand side by side in an arranged way. -/
theorem arranged_of_readExpr (stack : List OpenBracket) (reading : Reading) (i : Nat)
    (ts : List Token) {e : Expr} (ok : readExpr stack reading i ts = .ok e)
    {previous : Option Token} (suits : reading.Suits previous) : Arranged previous ts := by
  fun_induction readExpr stack reading i ts generalizing previous with
  | case1 => exact trivial
  | case2 => exact trivial
  | case3 => exact trivial
  | case4 stack pending i name ts ih =>
    exact ⟨mayFollow_due suits (by simp), mayFollow_call name, mayFollow_due rfl (by simp),
      ih ok ⟨_, rfl, Or.inr rfl⟩⟩
  | case5 stack pending i name ts _ ih =>
    exact ⟨mayFollow_due suits (by simp), mayFollow_call name, ih ok rfl⟩
  | case6 stack pending i ts ih => exact ⟨mayFollow_due suits (by simp), ih ok rfl⟩
  | case7 stack pending i t ts _ _ _ operand found ih =>
    refine ⟨mayFollow_due suits ?_, ih ok ⟨_, rfl, Or.inl (isOperand_of_operand? found)⟩⟩
    rintro op rfl
    cases found
  | case8 => cases ok
  | case9 stack chain i op ts ih => exact ⟨mayFollow_complete suits rfl, ih ok rfl⟩
  | case10 chain i ts bracket before stack ih =>
    exact ⟨mayFollow_complete suits rfl, ih ok ⟨_, rfl, Or.inr rfl⟩⟩
  | case11 => cases ok
  | case12 chain i ts name arguments before stack ih =>
    exact ⟨mayFollow_complete suits rfl, ih ok rfl⟩
  | case13 => cases ok
  | case14 => cases ok

theorem arranged_of_ofTokens {ts : List Token} {e : Expr} (ok : Expr.ofTokens ts = .ok e) :
    Arranged none ts := by
  rw [Expr.ofTokens] at ok
  split at ok
  · rename_i empty
    rw [List.isEmpty_iff.mp empty]
    exact trivial
  · exact arranged_of_readExpr [] (.due none) 0 ts ok rfl

/-! ### Other references -/

/-- The text of the reference or range can be read. -/
def Mention.Readable (m : Mention) : Prop := ∃ t, wordToken m.text.toList = .ok t

def Mention.reading (m : Mention) : Token := (wordToken m.text.toList).toOption.getD m.token

def Piece.splice (replace : Mention → Option Mention) : Piece → Piece
  | blank c => .blank c
  | token t text =>
    match t.mention?.bind replace with
    | some new => .token new.reading new.text.toList
    | none => .token t text

def replacement (replace : Mention → Option Mention) (m : Mention) : Mention := (replace m).getD m

def AllNew (P : Mention → Prop) (replace : Mention → Option Mention) (ps : List Piece) : Prop :=
  ∀ m ∈ ps.filterMap Piece.mention?, ∀ new, replace m.1 = some new → P new

variable {replace : Mention → Option Mention}

theorem Token.eq_of_mention? {t : Token} {m : Mention} (h : t.mention? = some m) : t = m.token := by
  cases t with
  | cell r => cases h; rfl
  | range r => cases h; rfl
  | _ => exact absurd h nofun

theorem Mention.mention?_token (m : Mention) : m.token.mention? = some m := by
  cases m <;> rfl

theorem Mention.isOperand_token (m : Mention) : m.token.isOperand = true := by
  cases m <;> rfl

theorem Token.opensOperand_of_isOperand {t : Token} (h : t.isOperand = true) :
    t.opensOperand = false := by
  cases t <;> first | rfl | exact absurd h nofun

theorem Mention.isOperand_reading (m : Mention) : m.reading.isOperand = true := by
  rw [reading]
  cases read : wordToken m.text.toList with
  | error e => exact m.isOperand_token
  | ok t => exact isOperand_of_wordToken read

namespace Mention.Writable

variable {m : Mention} (h : m.Writable)

include h

/-- A reference with proper coordinates can be read if these fit 64 bits. -/
theorem readable_iff : m.Readable ↔ m.Fits := by
  rw [Readable, wordToken_text h.positive]
  constructor
  · rintro ⟨t, read⟩
    refine Classical.byContradiction fun large => ?_
    obtain ⟨e, refused⟩ := (referenceToken_text h).2 large
    exact absurd (read.symm.trans refused) nofun
  · exact fun fits => ⟨_, (referenceToken_text h).1 fits⟩

theorem reading_eq (fits : m.Fits) : m.reading = m.token := by
  rw [reading, wordToken_text h.positive, (referenceToken_text h).1 fits]
  rfl

end Mention.Writable

theorem Piece.chars_splice (p : Piece) :
    (p.splice replace).chars = p.replaced fun m => (replace m).map Mention.text := by
  cases p with
  | blank c => rfl
  | token t text =>
    rw [splice, replaced, mention?]
    cases found : t.mention? with
    | none => rfl
    | some m => cases new : replace m <;> simp [new, chars]

theorem Piece.token?_splice {p : Piece}
    (reads : ∀ m ∈ p.mention?, ∀ new, replace m.1 = some new → new.reading = new.token) :
    (p.splice replace).token? = p.token?.map (·.mapMention (replacement replace)) := by
  cases p with
  | blank c => rfl
  | token t text =>
    rw [mention?] at reads
    rw [splice]
    cases found : t.mention? with
    | none => cases t <;> first | rfl | cases found
    | some m =>
      rw [Token.eq_of_mention? found]
      have mapped : m.token.mapMention (replacement replace) = (replacement replace m).token := by
        cases m <;> rfl
      cases new : replace m with
      | none => simp [new, token?, mapped, replacement]
      | some new' =>
        have read := reads (m, text) (by rw [found]; rfl) new' new
        simp [new, token?, mapped, replacement, read]

theorem Lexed.unique {due : Bool} {c : Char} {cs : List Char} {t t' : Token} {n n' : Nat}
    (h : Lexed due c cs t n) (h' : Lexed due c cs t' n') : t' = t ∧ n' = n := by
  have ok := (readToken_eq_ok_iff 0).mpr h
  rw [(readToken_eq_ok_iff 0).mpr h'] at ok
  exact Prod.mk.inj (Except.ok.inj ok)

theorem Pieced.tail {due : Bool} {c : Char} {cs : List Char} {t : Token} {n : Nat}
    {ps : List Piece} (h : Pieced due (c :: cs) ps) (visible : Text.isBlank c = false)
    (lexed : Lexed due c cs t n) : ∃ ps', Pieced t.opensOperand (cs.drop n) ps' := by
  cases h with
  | blank blank => exact absurd (blank.symm.trans visible) nofun
  | token _ lexed' rest =>
    obtain ⟨rfl, rfl⟩ := lexed.unique lexed'
    exact ⟨_, rest⟩

/-! ### What stands after a token -/

theorem ends_of_endsOperand {t : Token} {s : List Char} (ends : t.endsOperand = true)
    (spelled : t.spelling? = some s) (rest : List Char) :
    wordLength (s ++ rest) = 0 ∧ '(' ∉ (s ++ rest).head? := by
  cases t with
  | operator op =>
    cases spelled
    cases op <;> simp [Operator.spelling, wordLength, endsWord, isBreak]
  | rightParen =>
    cases spelled
    simp [wordLength, endsWord, isBreak]
  | comma =>
    cases spelled
    simp [wordLength, endsWord, isBreak]
  | _ => cases ends

theorem spliced_of_spelling {t : Token} {s text : List Char} (spelled : t.spelling? = some s) :
    (Piece.token t text).splice replace = .token t text := by
  cases t <;> first | rfl | exact absurd spelled nofun

theorem exists_spelling_of_endsOperand {t : Token} (ends : t.endsOperand = true) :
    ∃ s, t.spelling? = some s := by
  cases t <;> first | exact ⟨_, rfl⟩ | exact absurd ends nofun

theorem ends_of_isBlank {c : Char} (blank : Text.isBlank c = true) (rest : List Char) :
    wordLength (c :: rest) = 0 := by
  simp [wordLength, endsWord, blank]

section

variable {due : Bool} {cs : List Char} {ps : List Piece} {t : Token}

/-- After an operand the new text begins as the old one, with something that ends a word. -/
theorem Pieced.after_operand (replace : Mention → Option Mention) (h : Pieced due cs ps)
    (arranged : Arranged (some t) (ps.filterMap Piece.token?))
    (complete : t.isOperand = true ∨ t = .rightParen) :
    let rest := (ps.map (Piece.splice replace)).flatMap Piece.chars
    wordLength rest = 0 ∧ '(' ∉ rest.head? ∧ rest.head? = cs.head? := by
  cases h with
  | nil => exact ⟨rfl, nofun, rfl⟩
  | @blank _ c _ _ blank =>
    refine ⟨ends_of_isBlank blank _, ?_, rfl⟩
    intro same
    cases same
    exact absurd blank (by decide)
  | @token _ c cs u n ps _ lexed =>
    have ends : u.endsOperand = true := arranged.1.complete t rfl complete
    obtain ⟨s, spelled⟩ := exists_spelling_of_endsOperand ends
    obtain ⟨stop, paren⟩ :=
      ends_of_endsOperand ends spelled ((ps.map (Piece.splice replace)).flatMap Piece.chars)
    rw [← lexed.spelling spelled] at stop paren
    rw [List.map_cons, List.flatMap_cons, spliced_of_spelling spelled, Piece.chars]
    exact ⟨stop, paren, rfl⟩

theorem Pieced.after_function (replace : Mention → Option Mention) {name : String}
    (h : Pieced due cs ps)
    (arranged : Arranged (some (.function name)) (ps.filterMap Piece.token?))
    (paren : cs.head? = some '(') :
    let rest := (ps.map (Piece.splice replace)).flatMap Piece.chars
    wordLength rest = 0 ∧ rest.head? = cs.head? := by
  cases h with
  | nil => exact absurd paren nofun
  | blank blank =>
    cases paren
    exact absurd blank (by decide)
  | @token _ c cs u n ps _ lexed =>
    have same : u = .leftParen := arranged.1.call name rfl
    subst same
    have spelled := lexed.spelling rfl
    rw [List.map_cons, List.flatMap_cons, spliced_of_spelling rfl, Piece.chars, spelled]
    rw [← (List.cons.inj spelled).1]
    exact ⟨by simp [wordLength, endsWord, (List.cons.inj spelled).1], rfl⟩

theorem Pieced.after_operator (replace : Mention → Option Mention) {op : Operator}
    (h : Pieced due cs ps)
    (arranged : Arranged (some (.operator op)) (ps.filterMap Piece.token?)) :
    let rest := (ps.map (Piece.splice replace)).flatMap Piece.chars
    '=' ∉ rest.head? ∧ '>' ∉ rest.head? := by
  have other : ∀ (c : Char) (cs : List Char), c ≠ '=' → c ≠ '>' →
      '=' ∉ (c :: cs).head? ∧ '>' ∉ (c :: cs).head? := by
    intro c cs equals above
    exact ⟨fun same => equals (Option.some.inj same), fun same => above (Option.some.inj same)⟩
  cases h with
  | nil => exact ⟨nofun, nofun⟩
  | @blank _ c _ _ blank =>
    refine other c _ ?_ ?_ <;> rintro rfl <;> exact absurd blank (by decide)
  | @token _ c cs u n ps _ lexed =>
    have notOperator := arranged.1.due rfl
    rw [List.map_cons, List.flatMap_cons, Piece.splice]
    cases replaced : u.mention?.bind replace with
    | none =>
      obtain ⟨equals, above⟩ := lexed.first_ne notOperator
      exact other c _ equals above
    | some new =>
      obtain ⟨d, ds, text, -, equals, above, -⟩ := new.readWhole_text
      simp only [Piece.chars]
      rw [text]
      exact other d _ equals above

end

/-! ### The pieces of the new text -/

/-- The first token of the new text, when no reference is replaced there. -/
theorem Pieced.lexed_splice {previous : Option Token} {c : Char} {cs : List Char} {t : Token}
    {n : Nat} {ps : List Piece} (lexed : Lexed (previous.elim true Token.opensOperand) c cs t n)
    (rest : Pieced t.opensOperand (cs.drop n) ps) (follows : t.MayFollow previous)
    (arranged : Arranged (some t) (ps.filterMap Piece.token?))
    (replace : Mention → Option Mention) :
    Lexed (previous.elim true Token.opensOperand) c
      (cs.take n ++ (ps.map (Piece.splice replace)).flatMap Piece.chars) t n := by
  have operand : t.isOperand = true ∨ t = .rightParen →
      Lexed (previous.elim true Token.opensOperand) c
        (cs.take n ++ (ps.map (Piece.splice replace)).flatMap Piece.chars) t n := by
    intro complete
    obtain ⟨ends, -, head⟩ := rest.after_operand replace arranged complete
    refine lexed.extend ?_ head ends
    rintro op rfl
    exact absurd complete (by simp [Token.isOperand])
  cases t with
  | function name =>
    obtain ⟨ends, head⟩ := rest.after_function replace arranged lexed.function_head
    exact lexed.extend nofun head ends
  | operator op =>
    have notDue : previous.elim true Token.opensOperand = false := by
      rw [Bool.eq_false_iff]
      exact fun isDue => follows.due isDue op rfl
    obtain ⟨equals, above⟩ := rest.after_operator replace arranged
    rw [notDue] at lexed ⊢
    exact lexed.extend_operator equals above
  | leftParen =>
    have same : c = '(' := (List.cons.inj (lexed.spelling rfl)).1
    obtain ⟨-, rfl⟩ := lexed.unique (.leftParen same)
    exact .leftParen same
  | comma =>
    have same : c = ',' := (List.cons.inj (lexed.spelling rfl)).1
    obtain ⟨-, rfl⟩ := lexed.unique (.comma same)
    exact .comma same
  | rightParen => exact operand (Or.inr rfl)
  | _ => exact operand (Or.inl rfl)

theorem allNew_blank {P : Mention → Prop} {c : Char} {ps : List Piece} :
    AllNew P replace (.blank c :: ps) ↔ AllNew P replace ps :=
  Iff.rfl

theorem allNew_token {P : Mention → Prop} {t : Token} {cs : List Char} {ps : List Piece} :
    AllNew P replace (.token t cs :: ps) ↔
      (∀ new, t.mention?.bind replace = some new → P new) ∧ AllNew P replace ps := by
  rw [AllNew, AllNew, List.filterMap_cons, Piece.mention?]
  cases t.mention? with
  | none => simp
  | some m => simp

/-- The first token of the new text, when a reference is replaced there: what the new reference is
read as, if it can be read. -/
theorem Pieced.lexed_new (replace : Mention → Option Mention) (previous : Option Token)
    {cs : List Char} {t : Token} {ps : List Piece} {m : Mention} (new : Mention)
    (rest : Pieced t.opensOperand cs ps) (found : t.mention? = some m)
    (arranged : Arranged (some t) (ps.filterMap Piece.token?)) :
    ∃ c cs', new.text.toList = c :: cs' ∧ Text.isBlank c = false ∧
      let following := (ps.map (Piece.splice replace)).flatMap Piece.chars
      (new.Readable → Lexed (previous.elim true Token.opensOperand) c (cs' ++ following) new.reading
        cs'.length) ∧
      ∀ u n, Lexed (previous.elim true Token.opensOperand) c (cs' ++ following) u n →
        new.Readable := by
  have operand : t.isOperand = true := Token.eq_of_mention? found ▸ m.isOperand_token
  obtain ⟨ends, paren, -⟩ := rest.after_operand replace arranged (Or.inl operand)
  obtain ⟨c, cs', text, visible, -, -, whole⟩ := new.readWhole_text
  have read := whole _ ends paren (previous.elim true Token.opensOperand) 0
  refine ⟨c, cs', text, visible, ?_, ?_⟩
  · rintro ⟨u, word⟩
    rw [← readToken_eq_ok_iff 0, read, Mention.reading, ← text, word]
    rfl
  · intro u n lexed
    rw [← readToken_eq_ok_iff 0, read] at lexed
    obtain ⟨v, word, -⟩ := ok_of_map lexed
    exact ⟨v, text ▸ word⟩

/-- A text that begins with a token can be cut under what the token needs and what the rest needs. -/
theorem Pieced.cons_token {due : Bool} {c : Char} {cs rest : List Char} {t : Token} {ps : List Piece}
    {P Q : Prop} (visible : Text.isBlank c = false)
    (lexed : P → Lexed due c (cs ++ rest) t cs.length)
    (needed : ∀ u n, Lexed due c (cs ++ rest) u n → P)
    (pieced : (Q → Pieced t.opensOperand rest ps) ∧ ∀ ps', Pieced t.opensOperand rest ps' → Q) :
    (P ∧ Q → Pieced due (c :: (cs ++ rest)) (.token t (c :: cs) :: ps)) ∧
      ∀ ps', Pieced due (c :: (cs ++ rest)) ps' → P ∧ Q := by
  constructor
  · rintro ⟨here, later⟩
    have first := Pieced.token visible (lexed here) (by rw [List.drop_left]; exact pieced.1 later)
    rwa [List.take_left] at first
  · intro ps' cut
    have here : P := by
      cases cut with
      | blank blank => exact absurd (blank.symm.trans visible) nofun
      | token _ first _ => exact needed _ _ first
    obtain ⟨ps'', later⟩ := cut.tail visible (lexed here)
    rw [List.drop_left] at later
    exact ⟨here, pieced.2 ps'' later⟩

/-- **The new text is cut into the old pieces with the new references**, if all of them can be read,
and otherwise it cannot be cut at all. -/
theorem Pieced.splice {due : Bool} {cs : List Char} {ps : List Piece} (h : Pieced due cs ps)
    {previous : Option Token} (isDue : due = previous.elim true Token.opensOperand)
    (arranged : Arranged previous (ps.filterMap Piece.token?)) :
    let text := (ps.map (Piece.splice replace)).flatMap Piece.chars
    (AllNew Mention.Readable replace ps → Pieced due text (ps.map (Piece.splice replace))) ∧
      ∀ ps', Pieced due text ps' → AllNew Mention.Readable replace ps := by
  induction h generalizing previous with
  | nil => exact ⟨fun _ => .nil, fun _ _ _ hm => absurd hm List.not_mem_nil⟩
  | @blank due c cs ps blank _ ih =>
    have rest := ih isDue arranged
    refine ⟨fun readable => .blank blank (rest.1 (allNew_blank.mp readable)), fun ps' pieced => ?_⟩
    refine allNew_blank.mpr ?_
    cases pieced with
    | blank _ pieced => exact rest.2 _ pieced
    | token visible => cases blank.symm.trans visible
  | @token due c cs t n ps visible lexed pieced ih =>
    subst isDue
    obtain ⟨follows, arranged⟩ := arranged
    have rest := ih rfl arranged
    rw [List.map_cons, List.flatMap_cons, allNew_token]
    cases replaced : t.mention?.bind replace with
    | none =>
      have same : (Piece.token t (c :: cs.take n)).splice replace = .token t (c :: cs.take n) := by
        rw [Piece.splice, replaced]
      have again := Pieced.lexed_splice lexed pieced follows arranged replace
      have taken : (cs.take n).length = n := List.length_take_of_le lexed.le_length
      rw [same, Piece.chars, List.cons_append]
      refine Pieced.cons_token visible (fun _ => taken.symm ▸ again) (fun _ _ _ new isNew => ?_) rest
      cases isNew
    | some new =>
      obtain ⟨m, found, isNew⟩ := Option.bind_eq_some_iff.mp replaced
      obtain ⟨d, ds, text, visible', lexed', readable'⟩ :=
        Pieced.lexed_new replace previous new pieced found arranged
      have operand : t.opensOperand = new.reading.opensOperand := by
        rw [Token.eq_of_mention? found, Token.opensOperand_of_isOperand m.isOperand_token,
          Token.opensOperand_of_isOperand new.isOperand_reading]
      have spliced : (Piece.token t (c :: cs.take n)).splice replace =
          .token new.reading (d :: ds) := by
        simp only [Piece.splice, replaced, text]
      rw [operand] at rest
      rw [spliced, Piece.chars, List.cons_append]
      refine Pieced.cons_token visible' (fun readable => lexed' (readable new rfl))
        (fun u n cut => ?_) rest
      rintro _ ⟨⟩
      exact readable' u n cut

/-! ### Operands in the place of operands -/

/-- The tokens are the same, or both are operands. -/
def Token.Alike (t t' : Token) : Prop := t' = t ∨ t.isOperand = true ∧ t'.isOperand = true

theorem Token.Alike.eq {t t' : Token} (h : t.Alike t') (other : t.isOperand = false) : t' = t :=
  h.resolve_right fun both => absurd (other.symm.trans both.1) nofun

theorem Token.Alike.exists_operand {t t' : Token} (h : t.Alike t') (operand : t.isOperand = true) :
    ∃ e, t'.operand? = some e := by
  have operand' : t'.isOperand = true := h.elim (fun same => same ▸ operand) And.right
  cases t' <;> first | exact ⟨_, rfl⟩ | exact absurd operand' nofun

theorem Token.alike_cons {t : Token} {ts ts' : List Token}
    (h : List.Forall₂ Token.Alike (t :: ts) ts') (other : t.isOperand = false) :
    ∃ us, ts' = t :: us ∧ List.Forall₂ Token.Alike ts us := by
  cases h with
  | cons here rest => exact ⟨_, by rw [here.eq other], rest⟩

/-- The name of the call to which a bracket belongs. -/
def Bracket.name? : Bracket → Option String
  | group => none
  | call name _ => some name

def Reading.isDue : Reading → Bool
  | due _ => true
  | complete _ => false

/-- **Reading succeeds again** when operands take the place of operands. -/
theorem exists_readExpr_of_alike {stack : List OpenBracket} {reading : Reading} {i : Nat}
    {ts : List Token} {e : Expr} (ok : readExpr stack reading i ts = .ok e)
    {stack' : List OpenBracket} {reading' : Reading} (j : Nat) {ts' : List Token}
    (brackets : stack'.map (·.bracket.name?) = stack.map (·.bracket.name?))
    (due : reading'.isDue = reading.isDue) (alike : List.Forall₂ Token.Alike ts ts') :
    ∃ e', readExpr stack' reading' j ts' = .ok e' := by
  fun_induction readExpr stack reading i ts generalizing stack' reading' j ts' with
  | case1 => cases ok
  | case2 stack _ chain empty =>
    cases alike
    cases reading' with
    | due _ => cases due
    | complete chain' =>
      rw [List.isEmpty_iff.mp empty] at brackets
      rw [List.map_eq_nil_iff.mp brackets]
      exact ⟨_, rfl⟩
  | case3 => cases ok
  | case4 stack pending i name ts ih =>
    obtain ⟨us, rfl, opened⟩ := Token.alike_cons alike rfl
    obtain ⟨vs, rfl, closed⟩ := Token.alike_cons opened rfl
    obtain ⟨ws, rfl, rest⟩ := Token.alike_cons closed rfl
    cases reading' with
    | complete _ => cases due
    | due pending' =>
      rw [readExpr]
      exact ih ok _ brackets rfl rest
  | case5 stack pending i name ts notClosed ih =>
    obtain ⟨us, rfl, opened⟩ := Token.alike_cons alike rfl
    obtain ⟨vs, rfl, rest⟩ := Token.alike_cons opened rfl
    cases reading' with
    | complete _ => cases due
    | due pending' =>
      rw [readExpr]
      · exact ih ok _ (by simpa [Bracket.name?] using brackets) rfl rest
      · rintro us rfl
        cases rest with
        | cons here _ =>
          rcases here with rfl | ⟨-, operand⟩
          · exact notClosed _ rfl
          · cases operand
  | case6 stack pending i ts ih =>
    obtain ⟨us, rfl, rest⟩ := Token.alike_cons alike rfl
    cases reading' with
    | complete _ => cases due
    | due pending' =>
      rw [readExpr]
      exact ih ok _ (by simpa [Bracket.name?] using brackets) rfl rest
  | case7 stack pending i t ts _ _ _ operand found ih =>
    cases alike with
    | cons here rest =>
      obtain ⟨e', found'⟩ := here.exists_operand (isOperand_of_operand? found)
      cases reading' with
      | complete _ => cases due
      | due pending' =>
        rw [readExpr_operand _ _ _ found']
        exact ih ok _ brackets rfl rest
  | case8 => cases ok
  | case9 stack chain i op ts ih =>
    obtain ⟨us, rfl, rest⟩ := Token.alike_cons alike rfl
    cases reading' with
    | due _ => cases due
    | complete chain' =>
      rw [readExpr]
      exact ih ok _ brackets rfl rest
  | case10 chain i ts bracket before stack ih =>
    obtain ⟨us, rfl, rest⟩ := Token.alike_cons alike rfl
    cases reading' with
    | due _ => cases due
    | complete chain' =>
      obtain ⟨b, outer, rfl, -, brackets⟩ := List.map_eq_cons_iff.mp brackets
      rw [readExpr]
      exact ih ok _ brackets rfl rest
  | case11 => cases ok
  | case12 chain i ts name arguments before stack ih =>
    obtain ⟨us, rfl, rest⟩ := Token.alike_cons alike rfl
    cases reading' with
    | due _ => cases due
    | complete chain' =>
      obtain ⟨⟨bracket, before'⟩, outer, rfl, same, brackets⟩ := List.map_eq_cons_iff.mp brackets
      cases bracket with
      | group => cases same
      | call name' arguments' =>
        cases same
        rw [readExpr]
        exact ih ok _ (by simpa [Bracket.name?] using brackets) rfl rest
  | case13 => cases ok
  | case14 => cases ok

theorem exists_ofTokens_of_alike {ts ts' : List Token} {e : Expr} (ok : Expr.ofTokens ts = .ok e)
    (alike : List.Forall₂ Token.Alike ts ts') : ∃ e', Expr.ofTokens ts' = .ok e' := by
  rw [Expr.ofTokens] at ok ⊢
  cases alike with
  | nil => exact ⟨_, rfl⟩
  | cons here rest => exact exists_readExpr_of_alike ok 0 rfl rfl (.cons here rest)

theorem alike_splice (replace : Mention → Option Mention) (ps : List Piece) :
    List.Forall₂ Token.Alike (ps.filterMap Piece.token?)
      ((ps.map (Piece.splice replace)).filterMap Piece.token?) := by
  induction ps with
  | nil => exact .nil
  | cons p ps ih =>
    cases p with
    | blank c => exact ih
    | token t text =>
      rw [List.map_cons, Piece.splice]
      cases replaced : t.mention?.bind replace with
      | none => exact .cons (Or.inl rfl) ih
      | some new =>
        obtain ⟨m, found, -⟩ := Option.bind_eq_some_iff.mp replaced
        have operand : t.isOperand = true := Token.eq_of_mention? found ▸ m.isOperand_token
        exact .cons (Or.inr ⟨operand, new.isOperand_reading⟩) ih

/-! ### What the new text says -/

section

variable {formula : String}

theorem mentions_of_pieces {ps : List Piece} (ok : pieces formula = .ok ps) :
    mentions formula = ps.filterMap Piece.mention? := by
  rw [mentions, piecesOrNone, ok]

theorem tokens_of_pieces {ps : List Piece} (ok : pieces formula = .ok ps) :
    tokens formula = .ok (ps.filterMap Piece.token?) := by
  rw [tokens, ok]
  rfl

theorem map_fst_mentions {ps : List Piece} (ok : pieces formula = .ok ps) :
    (mentions formula).map Prod.fst = (ps.filterMap Piece.token?).filterMap Token.mention? := by
  rw [mentions_of_pieces ok, List.map_filterMap, List.filterMap_filterMap]
  refine List.filterMap_congr fun p _ => ?_
  cases p with
  | blank c => rfl
  | token t text => cases found : t.mention? <;> simp [Piece.mention?, Piece.token?, found]

theorem pieces_of_isValid (valid : isValid formula = true) :
    ∃ ps e, pieces formula = .ok ps ∧ Expr.ofTokens (ps.filterMap Piece.token?) = .ok e := by
  rw [isValid, parse] at valid
  cases ok : pieces formula with
  | error e =>
    rw [tokens, ok] at valid
    cases valid
  | ok ps =>
    rw [tokens_of_pieces ok] at valid
    cases read : Expr.ofTokens (ps.filterMap Piece.token?) with
    | error e =>
      dsimp only at valid
      rw [read] at valid
      cases valid
    | ok e => exact ⟨ps, e, rfl, read⟩

theorem Piece.text_of_mention? {p : Piece} {m : Mention × List Char} (h : p.mention? = some m) :
    m.2 = p.chars := by
  cases p with
  | blank c => exact absurd h nofun
  | token t text =>
    obtain ⟨m', -, rfl⟩ := Option.map_eq_some_iff.mp h
    rfl

theorem replaceMentions_of_forall_none {replace : Mention → Option String}
    (keeps : ∀ m ∈ mentions formula, replace m.1 = none) :
    replaceMentions replace formula = formula := by
  rw [replaceMentions]
  cases ok : pieces formula with
  | error e => rfl
  | ok ps =>
    rw [mentions_of_pieces ok] at keeps
    have same : ps.flatMap (Piece.replaced replace) = ps.flatMap Piece.chars := by
      refine List.flatMap_congr fun p hp => ?_
      rw [Piece.replaced]
      cases found : p.mention? with
      | none => rfl
      | some m =>
        dsimp only
        rw [keeps m (List.mem_filterMap.mpr ⟨p, hp, found⟩)]
        exact Piece.text_of_mention? found
    dsimp only
    rw [same, (pieces_eq_ok_iff.mp ok).flatMap_chars, String.ofList_toList]

theorem replaceMentions_of_mentions_eq_nil (none : mentions formula = [])
    (rewrite : Mention → Option String) : replaceMentions rewrite formula = formula :=
  replaceMentions_of_forall_none fun _ hm => absurd hm (none ▸ List.not_mem_nil)

/-- **The pieces of a formula whose references are replaced.** -/
theorem pieces_replaceMentions (valid : isValid formula = true) (replace : Mention → Option Mention) :
    ∃ ps e, pieces formula = .ok ps ∧ Expr.ofTokens (ps.filterMap Piece.token?) = .ok e ∧
      ((∀ m ∈ mentions formula, ∀ new, replace m.1 = some new → new.Readable) →
        pieces (replaceMentions (fun m => (replace m).map Mention.text) formula) =
          .ok (ps.map (Piece.splice replace))) ∧
      ∀ ps', pieces (replaceMentions (fun m => (replace m).map Mention.text) formula) = .ok ps' →
        ∀ m ∈ mentions formula, ∀ new, replace m.1 = some new → new.Readable := by
  obtain ⟨ps, e, ok, read⟩ := pieces_of_isValid valid
  rw [mentions_of_pieces ok]
  obtain ⟨readable, cut⟩ := (pieces_eq_ok_iff.mp ok).splice rfl (arranged_of_ofTokens read)
  have text : (replaceMentions (fun m => (replace m).map Mention.text) formula).toList =
      (ps.map (Piece.splice replace)).flatMap Piece.chars := by
    rw [replaceMentions, ok]
    dsimp only
    rw [String.toList_ofList, List.flatMap_map]
    exact List.flatMap_congr fun p _ => p.chars_splice.symm
  refine ⟨ps, e, ok, read, ?_, ?_⟩
  · intro all
    rw [pieces_eq_ok_iff, text]
    exact readable all
  · intro ps' ok'
    rw [pieces_eq_ok_iff, text] at ok'
    exact cut ps' ok'

theorem eq_of_pieces_replaceMentions (valid : isValid formula = true)
    {replace : Mention → Option Mention} {ps' : List Piece}
    (ok' : pieces (replaceMentions (fun m => (replace m).map Mention.text) formula) = .ok ps') :
    ∃ ps e, pieces formula = .ok ps ∧ Expr.ofTokens (ps.filterMap Piece.token?) = .ok e ∧
      ps' = ps.map (Piece.splice replace) := by
  obtain ⟨ps, e, ok, read, readable, cut⟩ := pieces_replaceMentions valid replace
  have same := readable (cut ps' ok')
  rw [ok'] at same
  exact ⟨ps, e, ok, read, Except.ok.inj same⟩

/-- The formula can be read, or it has no references. -/
def Tidy (formula : String) : Prop := isValid formula = true ∨ mentions formula = []

/-- **A formula stays tidy when its references are replaced**, whatever by. -/
theorem Tidy.replaceMentions (h : Tidy formula) (replace : Mention → Option Mention) :
    Tidy (replaceMentions (fun m => (replace m).map Mention.text) formula) := by
  rcases h with valid | none
  · cases ok : pieces (Formula.replaceMentions (fun m => (replace m).map Mention.text) formula) with
    | error e =>
      refine Or.inr ?_
      rw [mentions, piecesOrNone, ok]
      rfl
    | ok ps' =>
      obtain ⟨ps, e, -, read, rfl⟩ := eq_of_pieces_replaceMentions valid ok
      obtain ⟨e', read'⟩ := exists_ofTokens_of_alike read (alike_splice replace ps)
      refine Or.inl ?_
      rw [isValid, parse, tokens_of_pieces ok]
      dsimp only
      rw [read']
      rfl
  · rw [replaceMentions_of_mentions_eq_nil none]
    exact Or.inr none

variable (valid : isValid formula = true)
  (writable : ∀ m ∈ mentions formula, ∀ new, replace m.1 = some new → new.Writable)

include valid writable

theorem tokens_replaceMentions
    (fits : ∀ m ∈ mentions formula, ∀ new, replace m.1 = some new → new.Fits) :
    ∃ ps ps', pieces formula = .ok ps ∧
      pieces (replaceMentions (fun m => (replace m).map Mention.text) formula) = .ok ps' ∧
      ps'.filterMap Piece.token? =
        (ps.filterMap Piece.token?).map (·.mapMention (replacement replace)) := by
  obtain ⟨ps, -, ok, -, readable, -⟩ := pieces_replaceMentions valid replace
  have all : ∀ m ∈ mentions formula, ∀ new, replace m.1 = some new → new.Readable :=
    fun m hm new isNew => (writable m hm new isNew).readable_iff.mpr (fits m hm new isNew)
  refine ⟨ps, _, ok, readable all, ?_⟩
  rw [List.filterMap_map, List.map_filterMap]
  refine List.filterMap_congr fun p hp => Piece.token?_splice fun m found new isNew => ?_
  have listed : m ∈ mentions formula := by
    rw [mentions_of_pieces ok]
    exact List.mem_filterMap.mpr ⟨p, hp, found⟩
  exact (writable m listed new isNew).reading_eq (fits m listed new isNew)

/-- **A formula whose references are replaced says what it said, about the new references.** -/
theorem parse_replaceMentions
    (fits : ∀ m ∈ mentions formula, ∀ new, replace m.1 = some new → new.Fits) :
    parse (replaceMentions (fun m => (replace m).map Mention.text) formula) =
      (parse formula).map (·.mapMentions (replacement replace)) := by
  obtain ⟨ps, ps', ok, ok', mapped⟩ := tokens_replaceMentions valid writable fits
  rw [parse, parse, tokens_of_pieces ok', tokens_of_pieces ok, mapped]
  exact Expr.ofTokens_map _ _

theorem mentions_replaceMentions
    (fits : ∀ m ∈ mentions formula, ∀ new, replace m.1 = some new → new.Fits) :
    (mentions (replaceMentions (fun m => (replace m).map Mention.text) formula)).map Prod.fst =
      ((mentions formula).map Prod.fst).map (replacement replace) := by
  obtain ⟨ps, ps', ok, ok', mapped⟩ := tokens_replaceMentions valid writable fits
  rw [map_fst_mentions ok, map_fst_mentions ok', mapped, List.filterMap_map, List.map_filterMap]
  refine List.filterMap_congr fun t _ => ?_
  cases t with
  | cell r => exact Mention.mention?_token _
  | range r => exact Mention.mention?_token _
  | _ => rfl

end

end Spreadsheet.Formula
