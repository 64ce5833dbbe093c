import Spreadsheet.Text.Character
import Spreadsheet.Toml.Basic

/-!
# Texts in TOML

A text stands between double quotes, with escapes, or between apostrophes, as it is.  Three quotes in
place of one allow line ends in it; then one or two quotes may also stand in the text itself, and a
line end right after the opening quotes does not count.  A backslash at the end of a line drops the
line end and all blanks up to the next character.

A text is written in the plainest of these forms that needs no escape.
-/

namespace Spreadsheet.Toml

def isPlainChar (c : Char) : Bool := c == '\t' || (0x20 ≤ c.toNat && c.toNat != 0x7F)

def isSpace (c : Char) : Bool := c == ' ' || c == '\t'

def newline? : List Char → Option (List Char)
  | '\n' :: cs => some cs
  | '\r' :: '\n' :: cs => some cs
  | _ => none

def scalar? (n : Nat) : Option Char := if n.isValidChar then some (Char.ofNat n) else none

def hexValue? (cs : List Char) : Option Nat :=
  cs.foldlM (fun n c => (Text.hexDigit? c).map (n * 16 + ·)) 0

def escaped? (c : Char) : Option Char :=
  if c == '"' || c == '\\' then some c
  else if c == 'b' then some (Char.ofNat 8)
  else if c == 'f' then some (Char.ofNat 12)
  else if c == 'n' then some '\n'
  else if c == 'r' then some '\r'
  else if c == 't' then some '\t'
  else none

/-- Reads a text from after its opening quotes; gives the text and what follows its closing quotes.
`dropping` says whether blanks and line ends are dropped here. -/
def readText (quote : Char) (multiline dropping : Bool) : List Char → Option (List Char × List Char)
  | [] => none
  | c :: cs =>
    if dropping && (isSpace c || (newline? (c :: cs)).isSome) then readText quote multiline true cs
    else if c == quote then
      if !multiline then some ([], cs)
      else
        let run := (cs.takeWhile (· == quote)).length
        if 2 ≤ run then
          let own := min (run - 2) 2
          some (List.replicate own quote, cs.drop (2 + own))
        else (readText quote multiline false cs).map fun (text, rest) => (c :: text, rest)
    else if c == '\\' && quote == '"' then
      match cs with
      | 'u' :: a :: b :: c :: d :: cs => do
        let e ← scalar? (← hexValue? [a, b, c, d])
        let (text, rest) ← readText quote multiline false cs
        return (e :: text, rest)
      | 'U' :: a :: b :: c :: d :: a' :: b' :: c' :: d' :: cs => do
        let e ← scalar? (← hexValue? [a, b, c, d, a', b', c', d'])
        let (text, rest) ← readText quote multiline false cs
        return (e :: text, rest)
      | e :: cs =>
        if multiline && (newline? ((e :: cs).dropWhile isSpace)).isSome then
          readText quote multiline true cs
        else do
          let e ← escaped? e
          let (text, rest) ← readText quote multiline false cs
          return (e :: text, rest)
      | [] => none
    else if multiline && c == '\n' then
      (readText quote multiline false cs).map fun (text, rest) => ('\n' :: text, rest)
    else if multiline && c == '\r' && cs.head? == some '\n' then readText quote multiline false cs
    else if isPlainChar c then
      (readText quote multiline false cs).map fun (text, rest) => (c :: text, rest)
    else none

def readLineText? : List Char → Option (List Char × List Char)
  | c :: cs => if c == '"' || c == '\'' then readText c false false cs else none
  | [] => none

def readAnyText? : List Char → Option (List Char × List Char)
  | a :: b :: c :: cs =>
    if (a == '"' || a == '\'') && a == b && b == c then
      readText a true false ((newline? cs).getD cs)
    else readLineText? (a :: b :: c :: cs)
  | cs => readLineText? cs

def longestRun (q : Char) (cs : List Char) : Nat :=
  (cs.foldl (fun ((longest, run) : Nat × Nat) c =>
    if c == q then (max longest (run + 1), run + 1) else (longest, 0)) (0, 0)).1

/-- Writes a character in a text with escapes, in which `run` quotes stand in front of it. -/
def writtenChar (multiline : Bool) (run : Nat) (c : Char) : List Char :=
  if c == '"' then if multiline && run < 2 then ['"'] else ['\\', '"']
  else if c == '\\' then ['\\', '\\']
  else if c == '\n' then if multiline then ['\n'] else ['\\', 'n']
  else if c == '\t' then ['\\', 't']
  else if c == '\r' then ['\\', 'r']
  else if c.toNat == 8 then ['\\', 'b']
  else if c.toNat == 12 then ['\\', 'f']
  else if isPlainChar c then [c]
  else
    let ds := (Nat.toDigits 16 c.toNat).map Char.toUpper
    '\\' :: 'u' :: List.replicate (4 - ds.length) '0' ++ ds

/-- Writes the characters of a text with escapes.  Of three quotes in a row the third is escaped. -/
def writtenChars (multiline : Bool) (run : Nat) : List Char → List Char
  | [] => []
  | c :: cs =>
    writtenChar multiline run c ++
      writtenChars multiline (if c == '"' && run < 2 then run + 1 else 0) cs

/-- A text in quotes of one form.  A text of several lines begins on a line of its own. -/
def enclosed (delimiter : List Char) (ownLine : Bool) (cs : List Char) : List Char :=
  delimiter ++ (if ownLine then ['\n'] else []) ++ cs ++ delimiter

def textChars (cs : List Char) : List Char :=
  let lines := cs.contains '\n'
  let slash := cs.contains '\\'
  let control := !cs.all fun c => c == '\n' || isPlainChar c
  let doubles := longestRun '"' cs
  let singles := longestRun '\'' cs
  let basic := ['"']
  let basicLines := ['"', '"', '"']
  let literalLines := ['\'', '\'', '\'']
  if !control && !slash && doubles = 0 && !lines then
    enclosed basic false (writtenChars false 0 cs)
  else if !control && singles = 0 && !lines then enclosed ['\''] false cs
  else if !control && !slash && doubles ≤ 2 then
    enclosed basicLines lines (writtenChars true 0 cs)
  else if !control && singles ≤ 2 then enclosed literalLines lines cs
  else if lines then enclosed basicLines true (writtenChars true 0 cs)
  else enclosed basic false (writtenChars false 0 cs)

end Spreadsheet.Toml
