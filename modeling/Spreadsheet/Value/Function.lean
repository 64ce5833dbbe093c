import Spreadsheet.Value.Term

/-!
# Functions

The functions that formulas may call, by name.  A function gets its arguments evaluated and gives a
term whatever they are: what cannot be computed is a text that says why.  Sums run from the left and
start at `-0`, which is the neutral number of addition.
-/

namespace Spreadsheet

/-- The functions of the language. -/
inductive Function
  | sum
  | average
  | count
  | cond
  | constant
  | sqrt
  | number
  | floor
  | ceil
  | abs
  | length
  | concatenate
  | random
  | lookup
deriving DecidableEq, Repr

namespace Function

def names : List (String × Function) :=
  [("SUM", sum), ("AVERAGE", average), ("COUNT", count), ("IF", cond), ("MATHC", constant),
    ("SQRT", sqrt), ("NUMBER", number), ("FLOOR", floor), ("CEIL", ceil), ("ABS", abs),
    ("LEN", length), ("CONCATENATE", concatenate), ("CONCAT", concatenate), ("RAND", random),
    ("VLOOKUP", lookup)]

def ofName? (name : String) : Option Function := names.lookup name

def total (xs : List Double) : Double := xs.foldl (Double.map₂ (· + ·)) (Number.ofPattern true 0)

def mean (arguments : List Term) : Double :=
  let share := fun (x : Double) (n : Nat) => x.map₂ (· / ·) (Number.ofNat n)
  let members : Term → Double
    | .range b => share (total (b.values.map Term.toNumber)) b.values.length
    | t => t.toNumber
  share (total (arguments.map members)) arguments.length

def e : Float := Number.ofPattern false 0x4005BF0A8B145769

def pi : Float := Number.ofPattern false 0x400921FB54442D18

def constantNamed (name : String) : Term :=
  if name == "e" || name == "E" then .number e
  else if name == "π" || name == "pi" || name == "PI" || name == "Pi" then .number pi
  else .text ("constant requested not found: " ++ name)

def unary (complaint : String) (f : Double → Double) : List Term → Term
  | [x] => .number (f x.toNumber)
  | _ => .text complaint

def rowOf? (table : Block Term) (needle : String) : Option Nat :=
  (table.column 0).findIdx? (·.toText == needle)

/-- Finds a text in the first column of a table and gives the member of that row in another column,
which is counted from 1.  A column that is not a number is neither too small nor too large. -/
def lookUp (needle : Term) (table : Block Term) (column : Float) : Term :=
  let col := column.toUInt64
  if column < Number.ofNat 1 ∨ table.width < col.toNat then
    .text ("VLOOKUP column " ++ Number.plainText column ++ " outside range")
  else
    ((rowOf? table needle.toText).bind (table.get? · (col - 1).toNat)).getD (.text "#NOTFOUND")

/-- Calls a function.  `draw` is the number that a call of `RAND` gives. -/
def apply (draw : Float) (f : Function) (arguments : List Term) : Term :=
  match f with
  | sum => .number (total ((Term.flatten arguments).map Term.toNumber))
  | average => .number (mean arguments)
  | count => .number (Number.ofNat ((Term.flatten arguments).filter (!·.toText.isEmpty)).length)
  | cond =>
    match arguments with
    | [condition, yes, no] => if condition.toBool then yes else no
    | _ => .text "IF requires 3 params"
  | constant =>
    match arguments with
    | [name] => constantNamed name.toText
    | _ => .text "MATH.C only takes one argument"
  | sqrt => unary "SQRT only takes one argument" (Double.map Float.sqrt) arguments
  | number => unary "NUMBER only supports one argument" id arguments
  | floor => unary "FLOOR only supports one argument" (Double.map Float.floor) arguments
  | ceil => unary "CEIL only supports one argument" (Double.map Float.ceil) arguments
  | abs => unary "ABS only supports one argument" Double.abs arguments
  | length =>
    match arguments with
    | [t] => .number (Number.ofNat t.toText.length)
    | _ => .text "LEN only supports one argument"
  | concatenate => .text (String.join ((Term.flatten arguments).map Term.toText))
  | random => .number draw
  | lookup =>
    match arguments with
    | [needle, .range table, column] => lookUp needle table column.toNumber
    | [_, _, _] => .text "VLOOKUP requires a range as second argument"
    | _ => .text "VLOOKUP only supports 3 arguments"

end Function

end Spreadsheet
