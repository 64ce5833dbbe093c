import Spreadsheet.Formula.Evaluation
import Spreadsheet.Formula.Mention

/-!
# The leaves of an expression

What an expression takes from its formula are references, ranges and names of functions.

* `Expr.Holds P e`: the property `P` holds of every reference, range and function name of `e`.
* `Expr.holds_ofTokens`: the leaves of an expression are among the tokens that it was read from.
* `Expr.mapMentions σ e`: the expression with its references and ranges replaced.
* `Expr.ofTokens_map`: reading commutes with replacing references and ranges.
* `Expr.eval_mapMentions`: an expression whose leaves have the same terms has the same term.
-/

namespace Spreadsheet.Formula

/-- The token of a reference or range. -/
def Mention.token : Mention → Token
  | cell r => .cell r
  | range r => .range r

/-- A reference or range as an expression. -/
def Mention.expr : Mention → Expr
  | cell r => .cell r
  | range r => .range r

def Token.mapMention (σ : Mention → Mention) : Token → Token
  | cell r => (σ (.cell r)).token
  | range r => (σ (.range r)).token
  | t => t

mutual

/-- `P` holds of every reference, range and function name of an expression. -/
def Expr.Holds (P : Token → Prop) : Expr → Prop
  | cell r => P (.cell r)
  | range r => P (.range r)
  | call name arguments => P (.function name) ∧ HoldsAll P arguments
  | binary _ left right => left.Holds P ∧ right.Holds P
  | _ => True

/-- `P` holds of every reference, range and function name of some expressions. -/
def Expr.HoldsAll (P : Token → Prop) : List Expr → Prop
  | [] => True
  | e :: es => e.Holds P ∧ HoldsAll P es

end

mutual

/-- The expression with its references and ranges replaced. -/
def Expr.mapMentions (σ : Mention → Mention) : Expr → Expr
  | empty => .empty
  | number x => .number x
  | text s => .text s
  | bool b => .bool b
  | cell r => (σ (.cell r)).expr
  | range r => (σ (.range r)).expr
  | call name arguments => .call name (mapMentionsAll σ arguments)
  | binary op left right => .binary op (left.mapMentions σ) (right.mapMentions σ)

def Expr.mapMentionsAll (σ : Mention → Mention) : List Expr → List Expr
  | [] => []
  | e :: es => e.mapMentions σ :: mapMentionsAll σ es

end

theorem Expr.holdsAll_append {P : Token → Prop} {es fs : List Expr} :
    HoldsAll P (es ++ fs) ↔ HoldsAll P es ∧ HoldsAll P fs := by
  induction es with
  | nil => simp [HoldsAll]
  | cons e es ih => simp [HoldsAll, ih, and_assoc]

theorem Expr.mapMentionsAll_append (σ : Mention → Mention) (es fs : List Expr) :
    mapMentionsAll σ (es ++ fs) = mapMentionsAll σ es ++ mapMentionsAll σ fs := by
  induction es with
  | nil => rfl
  | cons e es ih => simp [mapMentionsAll, ih]

mutual

theorem Expr.Holds.imp {P Q : Token → Prop} (h : ∀ t, P t → Q t) :
    ∀ {e : Expr}, e.Holds P → e.Holds Q
  | empty, _ => by simp [Holds]
  | number _, _ => by simp [Holds]
  | text _, _ => by simp [Holds]
  | bool _, _ => by simp [Holds]
  | cell r, holds => by
    rw [Holds] at holds ⊢
    exact h _ holds
  | range r, holds => by
    rw [Holds] at holds ⊢
    exact h _ holds
  | call name arguments, holds => by
    rw [Holds] at holds ⊢
    exact ⟨h _ holds.1, HoldsAll.imp h holds.2⟩
  | binary _ left right, holds => by
    rw [Holds] at holds ⊢
    exact ⟨Holds.imp h holds.1, Holds.imp h holds.2⟩

theorem Expr.HoldsAll.imp {P Q : Token → Prop} (h : ∀ t, P t → Q t) :
    ∀ {es : List Expr}, HoldsAll P es → HoldsAll Q es
  | [], _ => by simp [HoldsAll]
  | e :: es, holds => by
    rw [HoldsAll] at holds ⊢
    exact ⟨Expr.Holds.imp h holds.1, HoldsAll.imp h holds.2⟩

end

/-! ### Chains -/

/-- `P` holds of the leaves of a chain. -/
def Chain.Holds (P : Token → Prop) (c : Chain) : Prop :=
  c.first.Holds P ∧ ∀ x ∈ c.rest, x.2.Holds P

/-- The chain with its references and ranges replaced. -/
def Chain.mapMentions (σ : Mention → Mention) (c : Chain) : Chain :=
  ⟨c.first.mapMentions σ, c.rest.map fun (op, e) => (op, e.mapMentions σ)⟩

theorem regroup_holds {P : Token → Prop} (level : Nat) (e : Expr) (rest : List (Operator × Expr))
    (he : e.Holds P) (hrest : ∀ x ∈ rest, x.2.Holds P) : (regroup level e rest).Holds P := by
  induction rest generalizing e with
  | nil => exact ⟨he, hrest⟩
  | cons head rest ih =>
    obtain ⟨op, operand⟩ := head
    have hoperand : operand.Holds P := hrest _ List.mem_cons_self
    have hrest' : ∀ x ∈ rest, x.2.Holds P := fun x hx => hrest x (List.mem_cons_of_mem _ hx)
    rw [regroup]
    split
    · refine ih _ ?_ hrest'
      rw [Expr.Holds]
      exact ⟨he, hoperand⟩
    · obtain ⟨first, others⟩ := ih operand hoperand hrest'
      refine ⟨he, ?_⟩
      intro x hx
      rcases List.mem_cons.mp hx with rfl | hx
      · exact first
      · exact others x hx

theorem regroup_map (σ : Mention → Mention) (level : Nat) (e : Expr)
    (rest : List (Operator × Expr)) :
    regroup level (e.mapMentions σ) (rest.map fun (op, e) => (op, e.mapMentions σ)) =
      (regroup level e rest).mapMentions σ := by
  induction rest generalizing e with
  | nil => rfl
  | cons head rest ih =>
    obtain ⟨op, operand⟩ := head
    simp only [List.map_cons, regroup]
    split
    · rw [← ih, Expr.mapMentions]
    · rw [ih]
      rfl

theorem Chain.Holds.expr {P : Token → Prop} {c : Chain} (h : c.Holds P) : c.expr.Holds P := by
  have all : ∀ (levels : List Nat) (c : Chain), c.Holds P →
      (levels.foldl (fun c level => regroup level c.first c.rest) c).Holds P := by
    intro levels
    induction levels with
    | nil => exact fun _ h => h
    | cons level levels ih => exact fun c h => ih _ (regroup_holds level _ _ h.1 h.2)
  exact (all _ c h).1

theorem Chain.expr_map (σ : Mention → Mention) (c : Chain) :
    (c.mapMentions σ).expr = c.expr.mapMentions σ := by
  have all : ∀ (levels : List Nat) (c : Chain),
      levels.foldl (fun c level => regroup level c.first c.rest) (c.mapMentions σ) =
        (levels.foldl (fun c level => regroup level c.first c.rest) c).mapMentions σ := by
    intro levels
    induction levels with
    | nil => exact fun _ => rfl
    | cons level levels ih =>
      intro c
      rw [List.foldl_cons, List.foldl_cons, ← ih, ← regroup_map]
      rfl
  rw [Chain.expr, all]
  rfl

/-! ### Reading tokens -/

/-- `P` holds of the leaves of a chain that is not complete. -/
def Pending.Holds (P : Token → Prop) : Pending → Prop
  | none => True
  | some (c, _) => c.Holds P

/-- The chain that is not complete with its references and ranges replaced. -/
def Pending.mapMentions (σ : Mention → Mention) : Pending → Pending
  | none => none
  | some (c, op) => some (c.mapMentions σ, op)

/-- `P` holds of what has been read of a call. -/
def Bracket.Holds (P : Token → Prop) : Bracket → Prop
  | group => True
  | call name arguments => P (.function name) ∧ Expr.HoldsAll P arguments

/-- The bracket with its references and ranges replaced. -/
def Bracket.mapMentions (σ : Mention → Mention) : Bracket → Bracket
  | group => .group
  | call name arguments => .call name (Expr.mapMentionsAll σ arguments)

/-- `P` holds of what has been read since the last open bracket. -/
def Reading.Holds (P : Token → Prop) : Reading → Prop
  | due pending => pending.Holds P
  | complete chain => chain.Holds P

/-- What has been read with its references and ranges replaced. -/
def Reading.mapMentions (σ : Mention → Mention) : Reading → Reading
  | due pending => .due (pending.mapMentions σ)
  | complete chain => .complete (chain.mapMentions σ)

/-- `P` holds of an open bracket and of what is in front of it. -/
def OpenBracket.Holds (P : Token → Prop) (b : OpenBracket) : Prop :=
  b.bracket.Holds P ∧ b.before.Holds P

/-- The open bracket with its references and ranges replaced. -/
def OpenBracket.mapMentions (σ : Mention → Mention) (b : OpenBracket) : OpenBracket :=
  ⟨b.bracket.mapMentions σ, b.before.mapMentions σ⟩

theorem Pending.Holds.complete {P : Token → Prop} {pending : Pending} {e : Expr}
    (h : pending.Holds P) (he : e.Holds P) : (pending.complete e).Holds P := by
  match pending, h with
  | none, _ => exact ⟨he, nofun⟩
  | some (c, op), h =>
    refine ⟨h.1, ?_⟩
    intro x hx
    rcases List.mem_append.mp hx with hx | hx
    · exact h.2 x hx
    · rw [List.mem_singleton.mp hx]
      exact he

theorem Pending.complete_map (σ : Mention → Mention) (pending : Pending) (e : Expr) :
    (pending.mapMentions σ).complete (e.mapMentions σ) = (pending.complete e).mapMentions σ := by
  match pending with
  | none => rfl
  | some (c, op) => simp [Pending.mapMentions, Pending.complete, Chain.mapMentions]

theorem Bracket.Holds.close {P : Token → Prop} {b : Bracket} {e : Expr}
    (h : b.Holds P) (he : e.Holds P) : (b.close e).Holds P := by
  cases b with
  | group => exact he
  | call name arguments =>
    rw [Bracket.close, Expr.Holds, Expr.holdsAll_append]
    exact ⟨h.1, h.2, he, trivial⟩

theorem Bracket.close_map (σ : Mention → Mention) (b : Bracket) (e : Expr) :
    (b.mapMentions σ).close (e.mapMentions σ) = (b.close e).mapMentions σ := by
  cases b with
  | group => rfl
  | call name arguments =>
    simp [Bracket.mapMentions, Bracket.close, Expr.mapMentions, Expr.mapMentionsAll_append,
      Expr.mapMentionsAll]

theorem Token.operand?_holds {P : Token → Prop} {t : Token} {e : Expr} (h : t.operand? = some e)
    (ht : P t) : e.Holds P := by
  cases t <;> simp only [Token.operand?, Option.some.injEq, reduceCtorEq] at h <;>
    subst h <;> first | exact ht | trivial

theorem readExpr_holds {P : Token → Prop} (stack : List OpenBracket) (reading : Reading) (i : Nat)
    (ts : List Token) (hstack : ∀ b ∈ stack, b.Holds P) (hreading : reading.Holds P)
    (hts : ∀ t ∈ ts, P t) {e : Expr} (ok : readExpr stack reading i ts = .ok e) : e.Holds P := by
  fun_induction readExpr stack reading i ts with
  | case1 => exact absurd ok nofun
  | case2 stack _ chain _ =>
    cases ok
    exact hreading.expr
  | case3 => exact absurd ok nofun
  | case4 stack pending i name ts ih =>
    refine ih hstack (Pending.Holds.complete hreading ?_) (fun t ht => hts t (by simp [ht])) ok
    rw [Expr.Holds]
    exact ⟨hts _ (by simp), trivial⟩
  | case5 stack pending i name ts _ ih =>
    refine ih ?_ trivial (fun t ht => hts t (by simp [ht])) ok
    intro b hb
    rcases List.mem_cons.mp hb with rfl | hb
    · exact ⟨⟨hts _ (by simp), trivial⟩, hreading⟩
    · exact hstack b hb
  | case6 stack pending i ts ih =>
    refine ih ?_ trivial (fun t ht => hts t (by simp [ht])) ok
    intro b hb
    rcases List.mem_cons.mp hb with rfl | hb
    · exact ⟨trivial, hreading⟩
    · exact hstack b hb
  | case7 stack pending i t ts _ _ _ operand found ih =>
    refine ih hstack (Pending.Holds.complete hreading ?_) (fun t ht => hts t (by simp [ht])) ok
    exact Token.operand?_holds found (hts t (by simp))
  | case8 => exact absurd ok nofun
  | case9 stack chain i op ts ih =>
    exact ih hstack hreading (fun t ht => hts t (by simp [ht])) ok
  | case10 chain i ts bracket before stack ih =>
    obtain ⟨hbracket, hbefore⟩ := hstack _ List.mem_cons_self
    refine ih (fun b hb => hstack b (List.mem_cons_of_mem _ hb)) ?_
      (fun t ht => hts t (by simp [ht])) ok
    exact Pending.Holds.complete hbefore (hbracket.close hreading.expr)
  | case11 => exact absurd ok nofun
  | case12 chain i ts name arguments before stack ih =>
    obtain ⟨hbracket, hbefore⟩ := hstack _ List.mem_cons_self
    refine ih ?_ trivial (fun t ht => hts t (by simp [ht])) ok
    intro b hb
    rcases List.mem_cons.mp hb with rfl | hb
    · refine ⟨⟨hbracket.1, Expr.holdsAll_append.mpr ⟨hbracket.2, hreading.expr, trivial⟩⟩, hbefore⟩
    · exact hstack b (List.mem_cons_of_mem _ hb)
  | case13 => exact absurd ok nofun
  | case14 => exact absurd ok nofun

/-- **The leaves of an expression are tokens of its formula.** -/
theorem Expr.holds_ofTokens {ts : List Token} {e : Expr} (ok : Expr.ofTokens ts = .ok e) :
    e.Holds (· ∈ ts) := by
  rw [Expr.ofTokens] at ok
  split at ok
  · cases ok
    trivial
  · exact readExpr_holds [] (.due none) 0 ts nofun trivial (fun _ h => h) ok

theorem Token.operand?_mapMention (σ : Mention → Mention) (t : Token) :
    (t.mapMention σ).operand? = t.operand?.map (·.mapMentions σ) := by
  cases t with
  | cell r => cases h : σ (.cell r) <;> simp [mapMention, operand?, Expr.mapMentions, h,
      Mention.token, Mention.expr]
  | range r => cases h : σ (.range r) <;> simp [mapMention, operand?, Expr.mapMentions, h,
      Mention.token, Mention.expr]
  | _ => rfl

theorem Token.mapMention_eq_iff (σ : Mention → Mention) {t u : Token} (hu : u.mention? = none) :
    t.mapMention σ = u ↔ t = u := by
  cases t with
  | cell r => cases h : σ (.cell r) <;> cases u <;> simp_all [mapMention, mention?, Mention.token]
  | range r => cases h : σ (.range r) <;> cases u <;> simp_all [mapMention, mention?, Mention.token]
  | _ => exact Iff.rfl

theorem readExpr_operand (stack : List OpenBracket) (pending : Pending) (i : Nat) {t : Token}
    {e : Expr} (h : t.operand? = some e) (ts : List Token) :
    readExpr stack (.due pending) i (t :: ts) =
      readExpr stack (.complete (pending.complete e)) (i + 1) ts := by
  cases t <;> simp_all [Token.operand?, readExpr]

theorem readExpr_due_error (stack : List OpenBracket) (pending : Pending) (i : Nat) {t : Token}
    (h : t.operand? = none) (ts : List Token) (hparen : t ≠ .leftParen)
    (hfunction : ∀ name rest, t = .function name → ts ≠ .leftParen :: rest) :
    readExpr stack (.due pending) i (t :: ts) = .error (.unexpectedToken i) := by
  cases t with
  | function name =>
    rw [readExpr]
    · simp [Token.operand?]
    · intro name' rest same closed
      exact hfunction name' _ same closed
    · intro name' rest same opened
      exact hfunction name' _ same opened
    · exact hparen
  | leftParen => exact absurd rfl hparen
  | _ => simp_all [Token.operand?, readExpr]

theorem readExpr_complete_error (stack : List OpenBracket) (chain : Chain) (i : Nat) {t : Token}
    (ts : List Token) (hoperator : ∀ op, t ≠ .operator op) (hright : t ≠ .rightParen)
    (hcomma : t ≠ .comma) :
    readExpr stack (.complete chain) i (t :: ts) = .error (.unexpectedToken i) := by
  cases t <;> simp_all [readExpr]

theorem readExpr_map (σ : Mention → Mention) (stack : List OpenBracket) (reading : Reading)
    (i : Nat) (ts : List Token) :
    readExpr (stack.map (·.mapMentions σ)) (reading.mapMentions σ) i (ts.map (·.mapMention σ)) =
      (readExpr stack reading i ts).map (·.mapMentions σ) := by
  fun_induction readExpr stack reading i ts with
  | case1 => simp [Reading.mapMentions, readExpr, Except.map]
  | case2 stack _ chain empty =>
    simp [Reading.mapMentions, readExpr, Except.map, empty, Chain.expr_map]
  | case3 stack _ chain nonempty =>
    simp [Reading.mapMentions, readExpr, Except.map, nonempty]
  | case4 stack pending i name ts ih =>
    rw [← ih]
    simp [Reading.mapMentions, readExpr, Token.mapMention, ← Pending.complete_map,
      Expr.mapMentions, Expr.mapMentionsAll]
  | case5 stack pending i name ts notClosed ih =>
    rw [← ih]
    simp only [Reading.mapMentions, List.map_cons, Token.mapMention]
    rw [readExpr]
    · rfl
    · intro rest same
      obtain ⟨t, ts', rfl, ht, -⟩ := List.map_eq_cons_iff.mp same
      rw [(Token.mapMention_eq_iff σ rfl).mp ht] at notClosed
      exact notClosed ts' rfl
  | case6 stack pending i ts ih =>
    rw [← ih]
    simp [Reading.mapMentions, readExpr, Token.mapMention, OpenBracket.mapMentions,
      Bracket.mapMentions, Pending.mapMentions]
  | case7 stack pending i t ts _ _ _ operand found ih =>
    rw [← ih, List.map_cons, Reading.mapMentions,
      readExpr_operand _ _ _ (by rw [Token.operand?_mapMention, found]; rfl),
      Pending.complete_map]
    rfl
  | case8 stack pending i t ts _ noCall noParen found =>
    rw [List.map_cons, Reading.mapMentions, readExpr_due_error _ _ _ (by
      rw [Token.operand?_mapMention, found]; rfl)]
    · rfl
    · exact fun same => noParen ((Token.mapMention_eq_iff σ rfl).mp same)
    · intro name rest same hrest
      obtain ⟨u, ts', rfl, hu, -⟩ := List.map_eq_cons_iff.mp hrest
      rw [(Token.mapMention_eq_iff σ rfl).mp hu] at noCall
      exact noCall name ts' ((Token.mapMention_eq_iff σ rfl).mp same) rfl
  | case9 stack chain i op ts ih =>
    rw [← ih]
    simp [Reading.mapMentions, readExpr, Token.mapMention, Pending.mapMentions]
  | case10 chain i ts bracket before stack ih =>
    rw [← ih]
    simp [Reading.mapMentions, readExpr, Token.mapMention, OpenBracket.mapMentions,
      ← Pending.complete_map, ← Bracket.close_map, Chain.expr_map]
  | case11 => simp [Reading.mapMentions, readExpr, Token.mapMention, Except.map]
  | case12 chain i ts name arguments before stack ih =>
    rw [← ih]
    simp [Reading.mapMentions, readExpr, Token.mapMention, OpenBracket.mapMentions,
      Bracket.mapMentions, Pending.mapMentions, Expr.mapMentionsAll_append, Chain.expr_map,
      Expr.mapMentionsAll]
  | case13 stack chain i ts noCall =>
    match stack, noCall with
    | [], _ => simp [Reading.mapMentions, readExpr, Token.mapMention, Except.map]
    | ⟨.group, before⟩ :: stack, _ =>
      simp [Reading.mapMentions, readExpr, Token.mapMention, Except.map, OpenBracket.mapMentions,
        Bracket.mapMentions]
    | ⟨.call name arguments, before⟩ :: stack, noCall =>
      exact absurd rfl (noCall name arguments before stack)
  | case14 stack chain i t ts noOperator noRight noComma =>
    rw [List.map_cons, Reading.mapMentions, readExpr_complete_error]
    · rfl
    · exact fun op same => noOperator op ((Token.mapMention_eq_iff σ rfl).mp same)
    · exact fun same => noRight ((Token.mapMention_eq_iff σ rfl).mp same)
    · exact fun same => noComma ((Token.mapMention_eq_iff σ rfl).mp same)

/-- **Reading commutes with replacing references and ranges.** -/
theorem Expr.ofTokens_map (σ : Mention → Mention) (ts : List Token) :
    Expr.ofTokens (ts.map (·.mapMention σ)) = (Expr.ofTokens ts).map (·.mapMentions σ) := by
  cases ts with
  | nil => rfl
  | cons t ts => exact readExpr_map σ [] (.due none) 0 (t :: ts)

/-! ### Terms -/

/-- The term of a reference or range in a formula of the cell `origin`. -/
def Mention.term (view : CellView) (origin : CellId) : Mention → Term
  | cell r => cellTerm view origin r
  | range r => rangeTerm view origin r

/-- A leaf has the same term in one cell as its replacement in another.  The only function that
looks at the cell itself is `RAND`, which gives a number that is drawn for it. -/
def Token.SameTerm (σ : Mention → Mention) (view view' : CellView) (origin origin' : CellId) :
    Token → Prop
  | cell r => (σ (.cell r)).term view' origin' = cellTerm view origin r
  | range r => (σ (.range r)).term view' origin' = rangeTerm view origin r
  | function name => name = "RAND" → view'.draw origin' = view.draw origin
  | _ => True

theorem Mention.eval_expr (view : CellView) (origin : CellId) (place : List Nat) (m : Mention) :
    m.expr.eval view origin place = m.term view origin := by
  cases m <;> simp [expr, term, Expr.eval]

theorem apply_congr_draw {name : String} {f : Function} (found : Function.ofName? name = some f)
    {draw draw' : Float} (h : name = "RAND" → draw' = draw) (arguments : List Term) :
    f.apply draw' arguments = f.apply draw arguments := by
  cases f with
  | random =>
    obtain ⟨before, after, listed, -⟩ := List.lookup_eq_some_iff.mp found
    have mem : (name, Function.random) ∈ Function.names := by simp [listed]
    have same : name = "RAND" := by simpa [Function.names] using mem
    rw [Function.apply, Function.apply, h same]
  | _ => rfl

theorem callTerm_congr {name : String} {view view' : CellView} {origin origin' : CellId}
    (h : name = "RAND" → view'.draw origin' = view.draw origin) (place : List Nat)
    (arguments : List Term) :
    callTerm view' origin' place name arguments = callTerm view origin place name arguments := by
  rw [callTerm, callTerm]
  split
  · rfl
  · split
    · exact apply_congr_draw ‹_› (fun random => congrFun (h random) place) _
    · rfl

section

variable {σ : Mention → Mention} {view view' : CellView} {origin origin' : CellId}

mutual

theorem Expr.eval_mapMentions {place : List Nat} :
    ∀ {e : Expr}, e.Holds (Token.SameTerm σ view view' origin origin') →
      (e.mapMentions σ).eval view' origin' place = e.eval view origin place
  | empty, _ => by simp [mapMentions, eval]
  | number _, _ => by simp [mapMentions, eval]
  | text _, _ => by simp [mapMentions, eval]
  | bool _, _ => by simp [mapMentions, eval]
  | cell r, h => by
    rw [mapMentions, Mention.eval_expr, eval]
    rw [Holds] at h
    exact h
  | range r, h => by
    rw [mapMentions, Mention.eval_expr, eval]
    rw [Holds] at h
    exact h
  | call name arguments, h => by
    rw [Holds] at h
    rw [mapMentions, eval, eval, Expr.evalAll_mapMentions h.2]
    exact callTerm_congr h.1 _ _
  | binary op left right, h => by
    rw [Holds] at h
    rw [mapMentions, eval, eval, Expr.eval_mapMentions h.1, Expr.eval_mapMentions h.2]

theorem Expr.evalAll_mapMentions {place : List Nat} {i : Nat} :
    ∀ {es : List Expr}, HoldsAll (Token.SameTerm σ view view' origin origin') es →
      evalAll view' origin' place i (mapMentionsAll σ es) = evalAll view origin place i es
  | [], _ => by simp [mapMentionsAll, evalAll]
  | e :: es, h => by
    rw [HoldsAll] at h
    rw [mapMentionsAll, evalAll, evalAll, Expr.eval_mapMentions h.1, Expr.evalAll_mapMentions h.2]

end

end

mutual

theorem Expr.mapMentions_id : ∀ e : Expr, e.mapMentions id = e
  | empty => rfl
  | number _ => rfl
  | text _ => rfl
  | bool _ => rfl
  | cell _ => rfl
  | range _ => rfl
  | call name arguments => by rw [mapMentions, Expr.mapMentionsAll_id]
  | binary op left right => by rw [mapMentions, Expr.mapMentions_id, Expr.mapMentions_id]

theorem Expr.mapMentionsAll_id : ∀ es : List Expr, mapMentionsAll id es = es
  | [] => rfl
  | e :: es => by rw [mapMentionsAll, Expr.mapMentions_id, Expr.mapMentionsAll_id]

end

end Spreadsheet.Formula
