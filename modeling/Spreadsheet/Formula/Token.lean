import Spreadsheet.Formula.Operator
import Spreadsheet.Number.Decimal
import Spreadsheet.Reference.Text
import Spreadsheet.Text.Character

/-!
# Tokens

A formula is cut into pieces: single blanks between tokens, and tokens with the text they are
written with.  The pieces put together again are the formula, so a token can be replaced without
touching anything else.

Whatever is not a blank, a parenthesis, a comma, a text literal or an operator begins a word, which
runs up to a break.  A word in front of a parenthesis is the name of a function; any other word is a
number, `TRUE` or `FALSE`, or a reference.

A `-` belongs to a number if an operand is due and a digit follows.  Every other `-` is an operator.
-/

namespace Spreadsheet.Formula

/-- The smallest parts of a formula that have a meaning. -/
inductive Token
  | number (value : Float)
  | text (value : String)
  | bool (value : Bool)
  | cell (reference : WrittenReference)
  | range (range : WrittenRange)
  /-- The name of a function in capitals; a parenthesis follows it. -/
  | function (name : String)
  | operator (op : Operator)
  | leftParen
  | rightParen
  | comma
deriving DecidableEq

def Token.opensOperand : Token → Bool
  | operator _ | leftParen | comma => true
  | _ => false

/-- Why a text cannot be cut into tokens.  Positions count bytes. -/
inductive LexError
  | unterminatedText (position : Nat)
  | unterminatedName (position : Nat)
  | unknownOperator (position : Nat)
  | invalidToken (text : String)
  | reference (error : ReferenceError)
deriving DecidableEq, Repr

def LexError.message : LexError → String
  | unterminatedText position => "unterminated string literal starting at " ++ toString position
  | unterminatedName position => "unterminated sheet name starting at " ++ toString position
  | unknownOperator position => "unknown operator at " ++ toString position
  | invalidToken text => "invalid token: " ++ text
  | reference error => error.message

def isBreak (c : Char) : Bool := " ),*/+-><=^".toList.contains c

def endsWord (c : Char) (cs : List Char) : Bool :=
  Text.isBlank c || isBreak c || c == '(' || c == '"' || c == '\'' ||
    (c == '!' && cs.head? == some '=')

def wordLength : List Char → Nat
  | [] => 0
  | c :: cs => if endsWord c cs then 0 else wordLength cs + 1

/-- Reads a text literal from after its first quote: the text and the number of characters up to
and including the last quote.  A backslash stands for the character after it. -/
def readText? : List Char → Option (List Char × Nat)
  | [] => none
  | '"' :: _ => some ([], 1)
  | ['\\'] => none
  | '\\' :: c :: cs => (readText? cs).map fun (text, n) => (c :: text, n + 2)
  | c :: cs => (readText? cs).map fun (text, n) => (c :: text, n + 1)

/-- The number of characters of a name in apostrophes, counted from after the first of them up to
and including the last. -/
def quotedNameLength? : List Char → Option Nat
  | [] => none
  | '\'' :: '\'' :: cs => (quotedNameLength? cs).map (· + 2)
  | '\'' :: _ => some 1
  | _ :: cs => (quotedNameLength? cs).map (· + 1)

def referenceToken (word : List Char) : Except LexError Token :=
  if word.contains ':' then
    match Range.ofChars word with
    | .ok r => .ok (.range r)
    | .error e => .error (.reference e)
  else
    match Reference.ofChars word with
    | .ok r => .ok (.cell r)
    | .error e => .error (.reference e)

def isFunctionName : List Char → Bool
  | [] => false
  | c :: cs => c.isAlpha && cs.all fun d => d.isAlphanum || d == '.' || d == '_'

def functionToken (word : List Char) : Except LexError Token :=
  if isFunctionName word then .ok (.function (String.ofList (Text.capitals word)))
  else .error (.invalidToken (String.ofList word))

def numberToken (negative : Bool) (written word : List Char) : Except LexError Token :=
  match Number.readLiteral? word with
  | some pattern => .ok (.number (Number.ofPattern negative pattern))
  | none => .error (.invalidToken (String.ofList written))

def beginsNumber (c : Char) : Bool := c.isDigit || c == '.'

def wordToken (word : List Char) : Except LexError Token :=
  if word.head?.any beginsNumber then numberToken false word word
  else if Text.capitals word == "TRUE".toList then .ok (.bool true)
  else if Text.capitals word == "FALSE".toList then .ok (.bool false)
  else referenceToken word

/-- Reads the token that begins with the character `c`, which is no blank, at a byte position.  Gives
the token and how many of the characters `cs` after `c` belong to it. -/
def readToken (operandDue : Bool) (position : Nat) (c : Char) (cs : List Char) :
    Except LexError (Token × Nat) :=
  if c == '(' then .ok (.leftParen, 0)
  else if c == ')' then .ok (.rightParen, 0)
  else if c == ',' then .ok (.comma, 0)
  else if c == '"' then
    match readText? cs with
    | some (text, n) => .ok (.text (String.ofList text), n)
    | none => .error (.unterminatedText position)
  else if c == '\'' then
    match quotedNameLength? cs with
    | none => .error (.unterminatedName position)
    | some n =>
      match cs.drop n with
      | '!' :: rest => do
        let length := n + 1 + wordLength rest
        return (← referenceToken (c :: cs.take length), length)
      | _ => .error (.invalidToken (String.ofList (c :: cs.take n)))
  else if c == '-' && operandDue && cs.head?.any Char.isDigit then do
    let length := wordLength cs
    return (← numberToken true (c :: cs.take length) (cs.take length), length)
  else if Operator.isFirstChar c then
    match Operator.atStart? (c :: cs) with
    | some op => .ok (.operator op, op.spelling.length - 1)
    | none => .error (.unknownOperator position)
  else do
    let length := wordLength cs
    let word := c :: cs.take length
    if (cs.drop length).head? == some '(' then return (← functionToken word, length)
    else return (← wordToken word, length)

/-- A part of a formula: a blank, or a token with its text. -/
inductive Piece
  | blank (c : Char)
  | token (token : Token) (text : List Char)
deriving DecidableEq

/-- The text of a piece. -/
def Piece.chars : Piece → List Char
  | blank c => [c]
  | token _ text => text

/-- Cuts a text into pieces.  `operandDue` says whether an operand has to come next, and `position`
is the byte position of the text in the formula. -/
def piecesFrom (operandDue : Bool) (position : Nat) : List Char → Except LexError (List Piece)
  | [] => .ok []
  | c :: cs =>
    if Text.isBlank c then do
      return .blank c :: (← piecesFrom operandDue (position + c.utf8Size) cs)
    else do
      let (token, n) ← readToken operandDue position c cs
      let text := c :: cs.take n
      return .token token text ::
        (← piecesFrom token.opensOperand (position + Text.byteLength text) (cs.drop n))
termination_by cs => cs.length
decreasing_by all_goals simp; try omega

def pieces (formula : String) : Except LexError (List Piece) := piecesFrom true 0 formula.toList

def Piece.token? : Piece → Option Token
  | blank _ => none
  | token t _ => some t

def tokens (formula : String) : Except LexError (List Token) := do
  return (← pieces formula).filterMap Piece.token?

/-- A token with the byte positions where its text begins and ends. -/
structure Lexeme where
  token : Token
  start : Nat
  stop : Nat

/-- The tokens of some pieces with their positions, when the first piece begins at `position`. -/
def lexemesFrom (position : Nat) : List Piece → List Lexeme
  | [] => []
  | p :: ps =>
    let next := position + Text.byteLength p.chars
    match p.token? with
    | none => lexemesFrom next ps
    | some token => ⟨token, position, next⟩ :: lexemesFrom next ps

def lexemes (formula : String) : Except LexError (List Lexeme) := do
  return lexemesFrom 0 (← pieces formula)

end Spreadsheet.Formula
