import Mathlib.Data.PFun
import Spreadsheet.Formula.Token
import Spreadsheet.Text.Bytes

/-!
# Tokens by positions of bytes

Here a formula is read where it lies in memory.  A `Cursor` is how far the reading has come, with the
position of a byte and the tokens in front of it, and `turn` reads one blank or one token on from there.
Every look at the text from a position and every part between two positions is a cut, and a cut that
goes through a character gives nothing.  So `seekLexemes` has no result at all if a single cut goes
wrong, or if the turns never end.
-/

namespace Spreadsheet

/-! ### References -/

/-- Reads a name in apostrophes, from after the first of them on: the name and the position of the last
of them. -/
def indexedName? : List (Nat × Char) → Option (List Char × Nat)
  | [] => none
  | (_, '\'') :: (_, '\'') :: cs => (indexedName? cs).map fun (name, i) => ('\'' :: name, i)
  | (i, '\'') :: _ => some ([], i)
  | (_, c) :: cs => (indexedName? cs).map fun (name, i) => (c :: name, i)

/-- Cuts the sheet off a reference, at the position of the last apostrophe. -/
def seekSheet (cs : List Char) : Option (Option (Option String × List Char)) :=
  match cs with
  | '\'' :: quoted =>
    match indexedName? (Text.indexed 0 quoted) with
    | none => some none
    | some (name, i) => do
      match ← Text.dropBytes? (i + 1) quoted with
      | '!' :: rest => return some (some (String.ofList name), rest)
      | _ => return none
  | _ => some (splitSheet? cs)

/-- The byte of a `$`. -/
def pinByte : UInt8 := 0x24

def isLetterByte (b : UInt8) : Bool := (0x41 ≤ b && b ≤ 0x5A) || (0x61 ≤ b && b ≤ 0x7A)

def seekCoordinates (cs : List Char) : Option (Option (Reference Unit)) := do
  let bytes := Text.bytes cs
  let fixedCol := bytes[0]? == some pinByte
  let first := if fixedCol then 1 else 0
  let last := first + ((bytes.drop first).takeWhile isLetterByte).length
  match columnOfLetters? (← Text.slice? cs first last) with
  | none => return none
  | some col =>
    let fixedRow := bytes[last]? == some pinByte
    let digits ← Text.dropBytes? (if fixedRow then last + 1 else last) cs
    return (readRow? digits).map fun row => { sheet := (), row, col, fixedRow, fixedCol }

def seekReference (cs : List Char) : Option (Except ReferenceError WrittenReference) := do
  let malformed := ReferenceError.malformed (String.ofList cs)
  match ← seekSheet cs with
  | none => return .error malformed
  | some (sheet, rest) =>
    match ← seekCoordinates rest with
    | none => return .error malformed
    | some r => return .ok (r.onSheet sheet)

def seekRange (cs : List Char) : Option (Except ReferenceError WrittenRange) := do
  let malformed := ReferenceError.malformed (String.ofList cs)
  match ← seekSheet cs with
  | none => return .error malformed
  | some (sheet, rest) =>
    match rest.dropWhile (· != ':') with
    | [] => return .error malformed
    | _ :: second =>
      let first := rest.takeWhile (· != ':')
      if isRowNumber first != isRowNumber second then return .error (.mixedRange (String.ofList cs))
      else
        match ← seekCoordinates first with
        | none => return .error malformed
        | some start =>
          match ← seekCoordinates second with
          | none => return .error malformed
          | some stop => return .ok ⟨start.onSheet sheet, stop.onSheet sheet⟩

namespace Formula

abbrev Seeking := ExceptT LexError Option

def Seeking.of {α : Type} (answer : Except LexError α) : Seeking α := some answer

/-! ### Words -/

def wordBreak? : List (Nat × Char) → Option Nat
  | [] => none
  | (i, c) :: cs => if endsWord c (cs.map Prod.snd) then some i else wordBreak? cs

def seekWord (formula : List Char) (start : Nat) : Option Nat := do
  match wordBreak? (Text.indexed 0 (← Text.dropBytes? start formula)) with
  | some i => return start + i
  | none => return Text.byteLength formula

def seekMention (word : List Char) : Seeking Token := do
  if word.contains ':' then
    match ← seekRange word with
    | .ok r => return .range r
    | .error e => throw (.reference e)
  else
    match ← seekReference word with
    | .ok r => return .cell r
    | .error e => throw (.reference e)

def isMention (word : List Char) : Bool :=
  !(word.head?.any beginsNumber || Text.capitals word == "TRUE".toList ||
    Text.capitals word == "FALSE".toList)

def seekPlain (word : List Char) : Seeking Token :=
  if isMention word then seekMention word else .of (wordToken word)

/-! ### Tokens -/

def indexedText? : List (Nat × Char) → Option (List Char × Nat)
  | [] => none
  | (i, '"') :: _ => some ([], i)
  | [(_, '\\')] => none
  | (_, '\\') :: (_, c) :: cs => (indexedText? cs).map fun (text, i) => (c :: text, i)
  | (_, c) :: cs => (indexedText? cs).map fun (text, i) => (c :: text, i)

def seekText (formula : List Char) (start : Nat) : Seeking (Token × Nat) := do
  match indexedText? (Text.indexed 0 (← Text.dropBytes? (start + 1) formula)) with
  | some (text, i) => return (.text (String.ofList text), start + 1 + i + 1)
  | none => throw (.unterminatedText start)

def seekQuoted (formula : List Char) (start : Nat) : Seeking Nat := do
  match indexedName? (Text.indexed 0 (← Text.dropBytes? (start + 1) formula)) with
  | none => throw (.unterminatedName start)
  | some (_, i) =>
    let behind := start + 1 + i + 1
    if (← Text.dropBytes? behind formula).head? == some '!' then seekWord formula (behind + 1)
    else throw (.invalidToken (String.ofList (← Text.slice? formula start behind)))

def seekSign (formula : List Char) (operandDue : Bool) (start : Nat) (c : Char) : Option Bool := do
  if c == '-' && operandDue then
    return (← Text.dropBytes? (start + 1) formula).head?.any Char.isDigit
  else return false

def seekSigned (formula : List Char) (start : Nat) : Seeking (Token × Nat) := do
  let stop ← seekWord formula (start + 1)
  match Number.readLiteral? (← Text.slice? formula (start + 1) stop) with
  | some pattern => return (.number (Number.ofPattern true pattern), stop)
  | none => throw (.invalidToken (String.ofList (← Text.slice? formula start stop)))

def seekOperator (formula : List Char) (start : Nat) : Seeking (Token × Nat) := do
  match Operator.atStart? (← Text.dropBytes? start formula) with
  | some op => return (.operator op, start + op.spelling.length)
  | none => throw (.unknownOperator start)

/-- Reads a word, which begins with the character `c`. -/
def seekWordToken (formula : List Char) (start : Nat) (c : Char) : Seeking (Token × Nat) := do
  let stop ← seekWord formula start
  if stop == start then throw (.invalidToken (String.ofList [c]))
  else
    let word ← Text.slice? formula start stop
    if (← Text.dropBytes? stop formula).head? == some '(' then
      return (← Seeking.of (functionToken word), stop)
    else return (← seekPlain word, stop)

/-- Reads the token that begins with the character `c`, which is no blank, at a position.  Gives the
token and the position behind it. -/
def seekToken (formula : List Char) (operandDue : Bool) (start : Nat) (c : Char) :
    Seeking (Token × Nat) := do
  if c == '(' then return (.leftParen, start + 1)
  else if c == ')' then return (.rightParen, start + 1)
  else if c == ',' then return (.comma, start + 1)
  else if c == '"' then seekText formula start
  else if c == '\'' then
    let stop ← seekQuoted formula start
    return (← seekMention (← Text.slice? formula start stop), stop)
  else if ← seekSign formula operandDue start c then seekSigned formula start
  else if Operator.isFirstChar c then seekOperator formula start
  else seekWordToken formula start c

/-! ### Turns -/

/-- How far a formula has been read. -/
structure Cursor where
  position : Nat
  lexemes : List Lexeme

def Cursor.operandDue (s : Cursor) : Bool := s.lexemes.getLast?.elim true (·.token.opensOperand)

def turn (formula : List Char) (s : Cursor) : Seeking (Option Cursor) := do
  match (← Text.dropBytes? s.position formula).head? with
  | none => return none
  | some c =>
    if Text.isBlank c then return some { s with position := s.position + c.utf8Size }
    else
      let (token, stop) ← seekToken formula s.operandDue s.position c
      return some ⟨stop, s.lexemes ++ [⟨token, s.position, stop⟩]⟩

def Cursor.step (formula : List Char) (s : Cursor) :
    Part (Except LexError (List Lexeme) ⊕ Cursor) :=
  (Part.ofOption (turn formula s).run).map fun
    | .error e => .inl (.error e)
    | .ok none => .inl (.ok s.lexemes)
    | .ok (some next) => .inr next

def Cursor.run (formula : List Char) (s : Cursor) : Part (Except LexError (List Lexeme)) :=
  PFun.fix (Cursor.step formula) s

def seekLexemes (formula : String) : Part (Except LexError (List Lexeme)) :=
  Cursor.run formula.toList ⟨0, []⟩

end Formula

end Spreadsheet
