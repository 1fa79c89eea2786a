import BlockShell.Json.Basic

/-!
# Tokens

A text is a sequence of tokens: brackets, separators, and the scalars.  Blanks between tokens, of
which there are four, do not count.
-/

namespace BlockShell.Json

/-- A token of a JSON text. -/
inductive Token where
  | openArray
  | closeArray
  | openObject
  | closeObject
  | comma
  | colon
  | null
  | bool (b : Bool)
  | number (n : Number)
  | string (s : Text)
  deriving Repr, DecidableEq

/-- The blanks allowed between tokens. -/
def isSpace (c : Char) : Bool := c == ' ' || c == '\n' || c == '\t' || c == '\r'

namespace Token

/-- The token at the front of a text, and what follows it. -/
def next? : List Char → Option (Token × List Char)
  | '[' :: rest => some (openArray, rest)
  | ']' :: rest => some (closeArray, rest)
  | '\x7b' :: rest => some (openObject, rest)
  | '\x7d' :: rest => some (closeObject, rest)
  | ',' :: rest => some (comma, rest)
  | ':' :: rest => some (colon, rest)
  | 'n' :: 'u' :: 'l' :: 'l' :: rest => some (null, rest)
  | 't' :: 'r' :: 'u' :: 'e' :: rest => some (bool true, rest)
  | 'f' :: 'a' :: 'l' :: 's' :: 'e' :: rest => some (bool false, rest)
  | '"' :: rest => (Literal.read? rest).map fun (s, rest) => (string s, rest)
  | cs => (Number.read? cs).map fun (n, rest) => (number n, rest)

theorem length_of_next? {cs rest : List Char} {t : Token} (h : next? cs = some (t, rest)) :
    rest.length < cs.length := by
  unfold next? at h
  split at h
  case h_10 =>
    obtain ⟨⟨s, r⟩, h', h⟩ := Option.map_eq_some_iff.1 h
    cases h
    have := Literal.length_of_read? h'
    simp only [List.length_cons]; omega
  case h_11 =>
    obtain ⟨⟨n, r⟩, h', h⟩ := Option.map_eq_some_iff.1 h
    cases h
    exact Number.length_of_read? h'
  all_goals cases h; simp only [List.length_cons]; omega

/-- The tokens of a text, if it consists of tokens and blanks. -/
def list? (cs : List Char) : Option (List Token) :=
  match cs with
  | [] => some []
  | c :: rest =>
    if isSpace c then list? rest
    else
      match _h : next? (c :: rest) with
      | none => none
      | some (t, after) => (list? after).map (t :: ·)
termination_by cs.length
decreasing_by
  · simp
  · exact length_of_next? _h

end Token

end BlockShell.Json
