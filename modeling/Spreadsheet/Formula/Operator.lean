/-!
# Operators

All operators take two operands and group to the left.  There are four levels: powers bind
tightest, then products, sums and comparisons.  When an operator is read, a spelling of two
characters wins over one of one character.
-/

namespace Spreadsheet.Formula

/-- The operators.  There are two spellings for "differs from", kept apart. -/
inductive Operator
  | power
  | times
  | divide
  | plus
  | minus
  | greater
  | less
  | greaterEqual
  | lessEqual
  | equal
  /-- Written `<>`. -/
  | different
  /-- Written `!=`. -/
  | notEqual
deriving DecidableEq, Repr

namespace Operator

def all : List Operator :=
  [greaterEqual, lessEqual, equal, different, notEqual, power, times, divide, plus, minus, greater,
    less]

def spelling : Operator → String
  | power => "^"
  | times => "*"
  | divide => "/"
  | plus => "+"
  | minus => "-"
  | greater => ">"
  | less => "<"
  | greaterEqual => ">="
  | lessEqual => "<="
  | equal => "=="
  | different => "<>"
  | notEqual => "!="

/-- The level of an operator; level 0 binds tightest. -/
def level : Operator → Nat
  | power => 0
  | times | divide => 1
  | plus | minus => 2
  | greater | less | greaterEqual | lessEqual | equal | different | notEqual => 3

def levelCount : Nat := 4

def isComparison (op : Operator) : Bool := op.level == 3

def atStart? (cs : List Char) : Option Operator :=
  all.find? fun op => op.spelling.toList.isPrefixOf cs

def isFirstChar (c : Char) : Bool :=
  all.any fun op => op.spelling.toList.head? == some c

theorem level_lt_levelCount (op : Operator) : op.level < levelCount := by
  cases op <;> decide

end Operator

end Spreadsheet.Formula
