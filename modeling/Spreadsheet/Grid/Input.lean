import Spreadsheet.Formula.Evaluation

/-!
# What is typed into a cell

A text with a leading `=` is a formula, and any other text is a literal: a number if it has the form
of one, and otherwise a text.  A formula without an expression becomes a text that says so.
-/

namespace Spreadsheet

/-- Is the text a number: digits with an optional sign in front, and with digits around a point if
there is one? -/
def isNumberLiteral (cs : List Char) : Bool :=
  let unsigned := match cs with
    | '-' :: ds => ds
    | ds => ds
  let whole := unsigned.takeWhile (· != '.')
  !whole.isEmpty && whole.all Char.isDigit &&
    match unsigned.dropWhile (· != '.') with
    | [] => true
    | _ :: fraction => !fraction.isEmpty && fraction.all Char.isDigit

def literalFormula (text : String) : String :=
  if text.isEmpty then ""
  else if isNumberLiteral text.toList then text
  else Text.quote text

/-- What a text means that is typed into a cell. -/
inductive Input
  | formula (formula : String)
  /-- A formula that fills the cells beside it. -/
  | filling (formula : String)
  /-- A text after `=` that is no formula. -/
  | invalid (text : String)
  /-- The formula of a literal. -/
  | literal (formula : String)
deriving DecidableEq, Repr

namespace Input

def ofText (text : String) : Input :=
  match text.toList with
  | '=' :: cs =>
    let body := String.ofList cs
    if !Formula.isValid body then invalid body
    else if Formula.mentionsFilling body then filling body
    else formula body
  | _ => literal (literalFormula text)

def stored : Input → String
  | formula f | filling f | literal f => f
  | invalid text => Text.quote ("Error in formula: " ++ text)

end Input

end Spreadsheet
