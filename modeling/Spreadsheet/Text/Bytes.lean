import Spreadsheet.Text.Character

/-!
# Texts as bytes

A text lies in memory as the bytes of its characters in UTF-8, and it is cut at positions of bytes.  A
cut has to go between two characters: `dropBytes?`, `takeBytes?` and `slice?` give nothing if it goes
through one, or behind the end.
-/

namespace Spreadsheet.Text

def dropBytes? : Nat → List Char → Option (List Char)
  | 0, cs => some cs
  | _ + 1, [] => none
  | n + 1, c :: cs => if c.utf8Size ≤ n + 1 then dropBytes? (n + 1 - c.utf8Size) cs else none

def takeBytes? : Nat → List Char → Option (List Char)
  | 0, _ => some []
  | _ + 1, [] => none
  | n + 1, c :: cs =>
    if c.utf8Size ≤ n + 1 then (takeBytes? (n + 1 - c.utf8Size) cs).map (c :: ·) else none

def slice? (cs : List Char) (start stop : Nat) : Option (List Char) := do
  if stop < start then none
  else takeBytes? (stop - start) (← dropBytes? start cs)

def bytes (cs : List Char) : List UInt8 := cs.flatMap String.utf8EncodeChar

/-- The characters of a text with the positions of their first bytes, where the text begins at the
position `i`. -/
def indexed (i : Nat) : List Char → List (Nat × Char)
  | [] => []
  | c :: cs => (i, c) :: indexed (i + c.utf8Size) cs

theorem dropBytes?_zero (cs : List Char) : dropBytes? 0 cs = some cs := by rw [dropBytes?]

theorem dropBytes?_cons (c : Char) (cs : List Char) (n : Nat) :
    dropBytes? (c.utf8Size + n) (c :: cs) = dropBytes? n cs := by
  have size := c.utf8Size_pos
  obtain ⟨m, same⟩ : ∃ m, c.utf8Size + n = m + 1 := ⟨c.utf8Size + n - 1, by omega⟩
  rw [same, dropBytes?, if_pos (by omega), ← same, Nat.add_sub_cancel_left]

theorem takeBytes?_cons (c : Char) (cs : List Char) (n : Nat) :
    takeBytes? (c.utf8Size + n) (c :: cs) = (takeBytes? n cs).map (c :: ·) := by
  have size := c.utf8Size_pos
  obtain ⟨m, same⟩ : ∃ m, c.utf8Size + n = m + 1 := ⟨c.utf8Size + n - 1, by omega⟩
  rw [same, takeBytes?, if_pos (by omega), ← same, Nat.add_sub_cancel_left]

/-- A cut between two parts of a text gives the second. -/
theorem dropBytes?_append (a b : List Char) : dropBytes? (byteLength a) (a ++ b) = some b := by
  induction a with
  | nil => exact dropBytes?_zero b
  | cons c a ih => rw [byteLength_cons, List.cons_append, dropBytes?_cons, ih]

theorem takeBytes?_append (a b : List Char) : takeBytes? (byteLength a) (a ++ b) = some a := by
  induction a with
  | nil => rw [byteLength_nil, takeBytes?]
  | cons c a ih => rw [byteLength_cons, List.cons_append, takeBytes?_cons, ih, Option.map_some]

/-- Two cuts around a part of a text give that part. -/
theorem slice?_append (a b c : List Char) :
    slice? (a ++ (b ++ c)) (byteLength a) (byteLength a + byteLength b) = some b := by
  rw [slice?, if_neg (by omega), dropBytes?_append, Nat.add_sub_cancel_left]
  exact takeBytes?_append b c

theorem bytes_cons (c : Char) (cs : List Char) :
    bytes (c :: cs) = String.utf8EncodeChar c ++ bytes cs := List.flatMap_cons

theorem bytes_append (a b : List Char) : bytes (a ++ b) = bytes a ++ bytes b := List.flatMap_append

theorem length_bytes (cs : List Char) : (bytes cs).length = byteLength cs := by
  induction cs with
  | nil => rfl
  | cons c cs ih => rw [bytes_cons, List.length_append, String.length_utf8EncodeChar, ih, byteLength]

theorem map_snd_indexed (i : Nat) (cs : List Char) : (indexed i cs).map Prod.snd = cs := by
  induction cs generalizing i with
  | nil => rfl
  | cons c cs ih => rw [indexed, List.map_cons, ih]

end Spreadsheet.Text
