import Spreadsheet.Formula.Token

/-!
# Expressions

The tokens of a formula are read into an expression from left to right, each token once.  Operands
with operators between them are collected in a `Chain`; an opening bracket puts the chain aside on a
stack of brackets, and its closing bracket makes one operand of what stands inside.  A finished chain
is grouped level by level: first the operators that bind tightest join their neighbours, from the
left, then those of the next level, and so on.  There is no operator with a single operand.
-/

namespace Spreadsheet.Formula

/-- What a formula says.  Sheets are still the names that are written. -/
inductive Expr
  /-- A formula without tokens. -/
  | empty
  | number (value : Float)
  | text (value : String)
  | bool (value : Bool)
  | cell (reference : WrittenReference)
  | range (range : WrittenRange)
  | call (name : String) (arguments : List Expr)
  | binary (op : Operator) (left right : Expr)

/-- Why tokens do not form an expression.  Positions count tokens. -/
inductive ParseError
  | lex (error : LexError)
  | unexpectedEnd
  | unexpectedToken (position : Nat)
  | missingParen
deriving DecidableEq, Repr

def ParseError.message : ParseError → String
  | lex error => error.message
  | unexpectedEnd => "unexpected end of formula"
  | unexpectedToken position => "unexpected token at position " ++ toString position
  | missingParen => "missing closing parenthesis"

/-- Operands with operators between them. -/
structure Chain where
  first : Expr
  rest : List (Operator × Expr)

def regroup (level : Nat) : Expr → List (Operator × Expr) → Chain
  | e, [] => ⟨e, []⟩
  | e, (op, operand) :: rest =>
    if op.level = level then regroup level (.binary op e operand) rest
    else
      let tail := regroup level operand rest
      ⟨e, (op, tail.first) :: tail.rest⟩

def Chain.expr (c : Chain) : Expr :=
  ((List.range Operator.levelCount).foldl (fun c level => regroup level c.first c.rest) c).first

/-- A chain whose next operand is still to come: the operands so far and the last operator. -/
abbrev Pending := Option (Chain × Operator)

def Pending.complete : Pending → Expr → Chain
  | none, e => ⟨e, []⟩
  | some (c, op), e => ⟨c.first, c.rest ++ [(op, e)]⟩

/-- What a bracket that is still open belongs to. -/
inductive Bracket
  | group
  /-- A call, with the arguments that are complete. -/
  | call (name : String) (arguments : List Expr)

def Bracket.close : Bracket → Expr → Expr
  | group, e => e
  | call name arguments, e => .call name (arguments ++ [e])

/-- An open bracket and the chain in front of it. -/
structure OpenBracket where
  bracket : Bracket
  before : Pending

/-- What has been read since the last open bracket. -/
inductive Reading
  | due (pending : Pending)
  | complete (chain : Chain)

def Token.operand? : Token → Option Expr
  | number x => some (.number x)
  | text s => some (.text s)
  | bool b => some (.bool b)
  | cell r => some (.cell r)
  | range r => some (.range r)
  | _ => none

/-- Reads the tokens from position `i` on. -/
def readExpr (stack : List OpenBracket) : Reading → Nat → List Token → Except ParseError Expr
  | .due _, _, [] => .error .unexpectedEnd
  | .complete chain, _, [] => if stack.isEmpty then .ok chain.expr else .error .missingParen
  | .due pending, i, .function name :: .leftParen :: .rightParen :: ts =>
    readExpr stack (.complete (pending.complete (.call name []))) (i + 3) ts
  | .due pending, i, .function name :: .leftParen :: ts =>
    readExpr (⟨.call name [], pending⟩ :: stack) (.due none) (i + 2) ts
  | .due pending, i, .leftParen :: ts =>
    readExpr (⟨.group, pending⟩ :: stack) (.due none) (i + 1) ts
  | .due pending, i, t :: ts =>
    match t.operand? with
    | some e => readExpr stack (.complete (pending.complete e)) (i + 1) ts
    | none => .error (.unexpectedToken i)
  | .complete chain, i, .operator op :: ts => readExpr stack (.due (some (chain, op))) (i + 1) ts
  | .complete chain, i, .rightParen :: ts =>
    match stack with
    | ⟨bracket, before⟩ :: stack =>
      readExpr stack (.complete (before.complete (bracket.close chain.expr))) (i + 1) ts
    | [] => .error (.unexpectedToken i)
  | .complete chain, i, .comma :: ts =>
    match stack with
    | ⟨.call name arguments, before⟩ :: stack =>
      readExpr (⟨.call name (arguments ++ [chain.expr]), before⟩ :: stack) (.due none) (i + 1) ts
    | _ => .error (.unexpectedToken i)
  | .complete _, i, _ :: _ => .error (.unexpectedToken i)

def Expr.ofTokens (ts : List Token) : Except ParseError Expr :=
  if ts.isEmpty then .ok .empty else readExpr [] (.due none) 0 ts

/-- The expression of a formula, which is written without a leading `=`. -/
def parse (formula : String) : Except ParseError Expr :=
  match tokens formula with
  | .ok ts => Expr.ofTokens ts
  | .error e => .error (.lex e)

def isValid (formula : String) : Bool := (parse formula).toBool

end Spreadsheet.Formula
