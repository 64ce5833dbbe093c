import Spreadsheet.Toml.Moment
import Spreadsheet.Toml.Number
import Spreadsheet.Toml.Text

/-!
# Reading TOML

A text is a row of lines: headers, and values with their keys.  Values in an array may be spread over
lines with comments; everything else ends with its line.  The fuel of the readers grows with the
length of the text, because each step that is not the last one takes a character off the front.
-/

namespace Spreadsheet.Toml

def skipSpaces (cs : List Char) : List Char := cs.dropWhile isSpace

def skipLines (inComment : Bool) : List Char → List Char
  | [] => []
  | c :: cs =>
    if (newline? (c :: cs)).isSome then skipLines (inComment && c == '\r') cs
    else if isSpace c || (inComment && isPlainChar c) then skipLines inComment cs
    else if c == '#' then skipLines true cs
    else c :: cs

/-- Takes the rest of a line off: blanks, a comment and the line end. -/
def endLine? (cs : List Char) : Option (List Char) :=
  let cs := match skipSpaces cs with
    | '#' :: cs => cs.dropWhile isPlainChar
    | cs => cs
  match cs with
  | [] => some []
  | cs => newline? cs

def isKeyChar (c : Char) : Bool := c.isAlphanum || c == '_' || c == '-'

def readSimpleKey? (cs : List Char) : Option (String × List Char) :=
  match readLineText? cs with
  | some (text, rest) => some (String.ofList text, rest)
  | none =>
    let key := cs.takeWhile isKeyChar
    if key.isEmpty then none else some (String.ofList key, cs.dropWhile isKeyChar)

def readParts : Nat → List Char → Option (List String × List Char)
  | 0, _ => none
  | fuel + 1, cs => do
    let (key, rest) ← readSimpleKey? (skipSpaces cs)
    match skipSpaces rest with
    | '.' :: rest => (readParts fuel rest).map fun (keys, rest) => (key :: keys, rest)
    | rest => return ([key], rest)

/-- How deep values may be nested, and how many parts a dotted key may have. -/
def maxDepth : Nat := 79

def readKey (fuel : Nat) (cs : List Char) : Option (List String × List Char) := do
  let (keys, rest) ← readParts fuel cs
  if maxDepth < keys.length then none else some (keys, rest)

mutual

def readValue : Nat → List Char → Option (Toml × List Char)
  | 0, _ => none
  | fuel + 1, cs =>
    match cs with
    | '[' :: cs => (readItems fuel (skipLines false cs)).map fun (items, rest) => (array items, rest)
    | '\x7b' :: cs =>
      match skipSpaces cs with
      | '\x7d' :: rest => some (table .inline [], rest)
      | cs => (readInline fuel [] cs).map fun (fields, rest) => (table .inline fields, rest)
    | cs =>
      match readAnyText? cs with
      | some (text, rest) => some (string (String.ofList text), rest)
      | none =>
        match takeMoment? cs with
        | some rest => some (moment, rest)
        | none => (readWord? (cs.takeWhile isWordChar)).map (·, cs.dropWhile isWordChar)

/-- Reads the values of an array up to its end.  A comma may follow the last one. -/
def readItems : Nat → List Char → Option (List Toml × List Char)
  | 0, _ => none
  | _ + 1, ']' :: rest => some ([], rest)
  | fuel + 1, cs => do
    let (v, rest) ← readValue fuel cs
    match skipLines false rest with
    | ',' :: rest =>
      let (vs, rest) ← readItems fuel (skipLines false rest)
      return (v :: vs, rest)
    | ']' :: rest => return ([v], rest)
    | _ => none

def readInline : Nat → Fields → List Char → Option (Fields × List Char)
  | 0, _, _ => none
  | fuel + 1, fields, cs => do
    let (keys, rest) ← readKey fuel cs
    let '=' :: rest := rest | none
    let (v, rest) ← readValue fuel (skipSpaces rest)
    let fields ← addEntry fields keys v
    match skipSpaces rest with
    | ',' :: rest => readInline fuel fields rest
    | '\x7d' :: rest => return (fields, rest)
    | _ => none

end

/-- Reads a header from after its brackets; `close` are the brackets at its end. -/
def readHeader? (fuel : Nat) (close : List Char) (cs : List Char) :
    Option (List String × List Char) := do
  let (keys, rest) ← readKey fuel cs
  if !close.isPrefixOf rest then none
  return (keys, ← endLine? (rest.drop close.length))

def addUnder (fields : Fields) (header keys : List String) (v : Toml) : Option Fields :=
  changeAt false (fun _ inner => addEntry inner keys v) .header fields header

/-- Reads the lines of a text and adds them to a table; `header` is the last header so far. -/
def readLines : Nat → Fields → List String → List Char → Option Fields
  | 0, _, _, _ => none
  | fuel + 1, fields, header, cs =>
    match skipSpaces cs with
    | [] => some fields
    | '#' :: cs => (endLine? ('#' :: cs)).bind (readLines fuel fields header)
    | '[' :: '[' :: cs => do
      let (keys, rest) ← readHeader? fuel [']', ']'] cs
      readLines fuel (← addToTables fields keys) keys rest
    | '[' :: cs => do
      let (keys, rest) ← readHeader? fuel [']'] cs
      readLines fuel (← addTable fields keys) keys rest
    | cs =>
      match newline? cs with
      | some rest => readLines fuel fields header rest
      | none => do
        let (keys, rest) ← readKey fuel cs
        let '=' :: rest := rest | none
        let (v, rest) ← readValue fuel (skipSpaces rest)
        if maxDepth < v.depth then none
        readLines fuel (← addUnder fields header keys v) header (← endLine? rest)

/-- The table that a text is.  A byte order mark in front does not count. -/
def ofText? (text : String) : Option Toml := do
  let cs := match text.toList with
    | '\uFEFF' :: cs => cs
    | cs => cs
  return .table .header (← readLines (2 * cs.length + 2) [] [] cs)

end Spreadsheet.Toml
