import BlockShell.Json.Basic

/-!
# Writing JSON

A value is written over several lines: each item of an array and each member of an object stands
on a line of its own, two blanks further in than its container.  Empty containers stay on one line
and the text does not end in a line feed.
-/

namespace BlockShell.Json

/-- A line feed and the blanks in front of a line at the given level. -/
def newline (level : Nat) : List Char := '\n' :: List.replicate (2 * level) ' '

mutual

/-- A value that starts in a line at the given level. -/
def charsAt (level : Nat) : Json → List Char
  | null => ['n', 'u', 'l', 'l']
  | bool true => ['t', 'r', 'u', 'e']
  | bool false => ['f', 'a', 'l', 's', 'e']
  | number n => n.chars
  | string s => Literal.chars s
  | array [] => ['[', ']']
  | array (item :: items) =>
    '[' :: newline (level + 1) ++ charsAt (level + 1) item ++ itemChars (level + 1) items ++
      newline level ++ [']']
  | object [] => ['\x7b', '\x7d']
  | object ((key, value) :: members) =>
    '\x7b' :: newline (level + 1) ++ Literal.chars key ++ [':', ' '] ++ charsAt (level + 1) value ++
      memberChars (level + 1) members ++ newline level ++ ['\x7d']

/-- Items that follow another one. -/
def itemChars (level : Nat) : List Json → List Char
  | [] => []
  | item :: items => ',' :: newline level ++ charsAt level item ++ itemChars level items

/-- Members that follow another one. -/
def memberChars (level : Nat) : List (Text × Json) → List Char
  | [] => []
  | (key, value) :: members =>
    ',' :: newline level ++ Literal.chars key ++ [':', ' '] ++ charsAt level value ++
      memberChars level members

end

/-- The text of a value. -/
def pretty (v : Json) : String := String.ofList (charsAt 0 v)

end BlockShell.Json
