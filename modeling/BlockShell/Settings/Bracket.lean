import BlockShell.Settings.Quoted

/-!
# Brackets

A bracket holds items with commas between them, and there may be a comma after the last one.  In
curly brackets an item has a key and an equals sign in front.  An item is a bracket, a quoted text
or a single quoted character, or it ends at the next separator.  The items themselves play no part
here, only whether every bracket is closed.
-/

namespace BlockShell

/-- The kinds of brackets. -/
inductive Bracket where
  | square
  | curly
  deriving Repr, DecidableEq

namespace Bracket

/-- The character that closes a bracket. -/
def closing : Bracket → Char
  | square => ']'
  | curly => '\x7d'

/-- The blanks allowed around an item. -/
def isSpace (c : Char) : Bool := c.isWhitespace || c == '\x0c'

/-- What follows the blanks at the front. -/
def skipSpace (cs : List Char) : List Char := cs.dropWhile isSpace

/-- Whether a character ends an item that is not quoted. -/
def isSeparator (c : Char) : Bool := ",[]\x7b\x7d".toList.contains c

/-- Whether a character can stand in a key that is not quoted. -/
def isKeyCharacter (c : Char) : Bool := c.isAlphanum || c == '_' || c == '-'

/-- What follows the key at the front, which is quoted or a run of letters and digits. -/
def skipKey? : List Char → Option (List Char)
  | '"' :: cs => (Quoted.read? cs).map (·.2)
  | cs => if (cs.takeWhile isKeyCharacter).isEmpty then none else some (cs.dropWhile isKeyCharacter)

/-- What follows the key at the front and its equals sign. -/
def skipLabel? (cs : List Char) : Option (List Char) := do
  match skipSpace (← skipKey? (skipSpace cs)) with
  | '=' :: rest => return rest
  | _ => none

/-- What follows the item at the front, which is no bracket.  An item may be empty. -/
def skipScalar? : List Char → Option (List Char)
  | '"' :: cs => (Quoted.read? cs).map (·.2)
  | '\'' :: _ :: '\'' :: rest => some rest
  | '\'' :: _ => none
  | 't' :: 'r' :: 'u' :: 'e' :: rest => some rest
  | 'f' :: 'a' :: 'l' :: 's' :: 'e' :: rest => some rest
  | cs => some (cs.dropWhile fun c => !isSeparator c)

theorem length_skipSpace (cs : List Char) : (skipSpace cs).length ≤ cs.length :=
  (List.dropWhile_sublist _).length_le

theorem length_of_skipKey? {cs rest : List Char} (h : skipKey? cs = some rest) :
    rest.length ≤ cs.length := by
  unfold skipKey? at h
  split at h
  · obtain ⟨⟨_, r⟩, h', h⟩ := Option.map_eq_some_iff.1 h
    cases h
    have := Quoted.length_of_read? h'
    simp only [List.length_cons]; omega
  · split at h
    · contradiction
    · cases h; exact (List.dropWhile_sublist _).length_le

theorem length_of_skipLabel? {cs rest : List Char} (h : skipLabel? cs = some rest) :
    rest.length < cs.length := by
  obtain ⟨r, h', h⟩ := Option.bind_eq_some_iff.1 h
  have h₁ := length_skipSpace cs
  have h₂ := length_of_skipKey? h'
  have h₃ := length_skipSpace r
  split at h
  · next heq =>
    cases h
    rw [heq, List.length_cons] at h₃
    omega
  · contradiction

theorem length_of_skipScalar? {cs rest : List Char} (h : skipScalar? cs = some rest) :
    rest.length ≤ cs.length := by
  unfold skipScalar? at h
  split at h
  · obtain ⟨⟨_, r⟩, h', h⟩ := Option.map_eq_some_iff.1 h
    cases h
    have := Quoted.length_of_read? h'
    simp only [List.length_cons]; omega
  · cases h; simp only [List.length_cons]; omega
  · contradiction
  · cases h; simp only [List.length_cons]; omega
  · cases h; simp only [List.length_cons]; omega
  · cases h; exact (List.dropWhile_sublist _).length_le

/-! ## Closing -/

mutual

/-- Whether the text, after an opening bracket or a comma, closes all brackets and ends there. -/
def closesItem (b : Bracket) (outer : List Bracket) (cs : List Char) : Bool :=
  match cs with
  | [] => false
  | c :: rest =>
    if c = b.closing then closesNext outer rest
    else
      match b with
      | .square => closesValue .square outer (c :: rest)
      | .curly =>
        match _h : skipLabel? (c :: rest) with
        | none => false
        | some value => closesValue .curly outer value
termination_by (cs.length, 2)
decreasing_by
  · exact Prod.Lex.left _ _ (by simp)
  · exact Prod.Lex.right _ (by omega)
  · exact Prod.Lex.left _ _ (length_of_skipLabel? _h)

/-- The same, where the value of an item comes next. -/
def closesValue (b : Bracket) (outer : List Bracket) (cs : List Char) : Bool :=
  match _hs : skipSpace cs with
  | '[' :: rest => closesItem .square (b :: outer) rest
  | '\x7b' :: rest => closesItem .curly (b :: outer) rest
  | scalar =>
    match _h : skipScalar? scalar with
    | none => false
    | some rest => closesNext (b :: outer) rest
termination_by (cs.length, 1)
decreasing_by
  all_goals have hle := _hs ▸ length_skipSpace cs
  · exact Prod.Lex.left _ _ hle
  · exact Prod.Lex.left _ _ hle
  · have := length_of_skipScalar? _h
    rcases Nat.lt_or_eq_of_le (Nat.le_trans this hle) with hlt | heq
    · exact Prod.Lex.left _ _ hlt
    · rw [heq]; exact Prod.Lex.right _ (by omega)

/-- The same, where an item has been read. -/
def closesNext (brackets : List Bracket) (cs : List Char) : Bool :=
  match brackets, _hs : skipSpace cs with
  | [], rest => rest.isEmpty
  | _ :: _, [] => false
  | b :: outer, c :: rest =>
    if c = ',' then closesItem b outer rest
    else if c = b.closing then closesNext outer rest
    else false
termination_by (cs.length, 0)
decreasing_by
  all_goals
    have hle := length_skipSpace cs
    rw [_hs, List.length_cons] at hle
    exact Prod.Lex.left _ _ hle

end

end Bracket

end BlockShell
