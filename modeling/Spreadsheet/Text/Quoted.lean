import Spreadsheet.Text.Extending
import Spreadsheet.Text.Ignorable
import Spreadsheet.Text.Invisible

/-!
# Quoted text

`quote` writes a text literal of a formula: double quotes around the text, and a backslash before
every quote and backslash in it.  `describe` is the way a name is quoted in a message, which in
addition escapes the characters that do not show on their own.
-/

namespace Spreadsheet.Text

def escape : List Char → List Char
  | [] => []
  | c :: cs => if c == '"' || c == '\\' then '\\' :: c :: escape cs else c :: escape cs

def quote (text : String) : String :=
  String.ofList ('"' :: escape text.toList ++ ['"'])

def isPrintable (c : Char) : Bool := !isInvisible c && !isExtending c && !isIgnorable c

def describeChar (c : Char) : List Char :=
  if c == '"' || c == '\\' then ['\\', c]
  else if c == '\t' then ['\\', 't']
  else if c == '\n' then ['\\', 'n']
  else if c == '\r' then ['\\', 'r']
  else if c.toNat == 0 then ['\\', '0']
  else if isPrintable c then [c]
  else '\\' :: 'u' :: '{' :: Nat.toDigits 16 c.toNat ++ ['}']

def describe (name : String) : String :=
  String.ofList ('"' :: name.toList.flatMap describeChar ++ ['"'])

end Spreadsheet.Text
