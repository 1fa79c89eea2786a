import BlockShell.Text.Blank

/-!
# Cutting a text

A text is cut either at every occurrence of one character (`pieces`) or once, at the first
character of a class (`cutAt?`).  The characters at which it is cut belong to no part.  It may also
be cut after a number of bytes (`firstBytes?`).
-/

namespace BlockShell.Text

/-- The parts of a text between the occurrences of `d`; without one the text is a single part. -/
def pieces (d : Char) (s : String) : List String := (s.toList.splitOn d).map String.ofList

/-- The parts before and after the first character in the class `p`, if there is one. -/
def cutAt? (p : Char → Bool) (s : String) : Option (String × String) :=
  match s.toList.dropWhile fun c => !p c with
  | [] => none
  | _ :: rest => some (String.ofList (s.toList.takeWhile fun c => !p c), String.ofList rest)

/-- The first run of characters that are not blank. -/
def firstWord? (s : String) : Option String :=
  match (s.toList.dropWhile isBlank).takeWhile fun c => !isBlank c with
  | [] => none
  | word => some (String.ofList word)

/-- The characters that make up the first `n` bytes in UTF-8, unless that would cut one of them. -/
def firstBytes? : Nat → List Char → Option (List Char)
  | 0, _ => some []
  | _ + 1, [] => none
  | n + 1, c :: cs =>
    if c.utf8Size ≤ n + 1 then (firstBytes? (n + 1 - c.utf8Size) cs).map (c :: ·) else none

theorem pieces_ne_nil (d : Char) (s : String) : pieces d s ≠ [] := by
  simp [pieces, List.splitOn_ne_nil]

/-- Joining the pieces with the character that separates them gives the text back. -/
theorem intercalate_pieces (d : Char) (s : String) :
    [d].intercalate ((pieces d s).map String.toList) = s.toList := by
  simp [pieces, Function.comp_def, List.intercalate_splitOn]

end BlockShell.Text
