import BlockShell.Text.Hex
import BlockShell.Text.Split

/-!
# Quoted texts

Between its quotes a text holds characters and escapes.  An escape is short, or gives the number of
a character by four or by eight hexadecimal digits.  No control character stands on its own, save
for the tab.  If there is an escape, the characters before the first one count as bytes, so that
some of them are lost unless all are ASCII.
-/

namespace BlockShell.Quoted

/-- The character of a short escape. -/
def shortEscape? : Char → Option Char
  | '"' => some '"'
  | '\\' => some '\\'
  | 'b' => some '\x08'
  | 'f' => some '\x0c'
  | 'n' => some '\n'
  | 'r' => some '\r'
  | 't' => some '\t'
  | _ => none

/-- The character whose number the digits write. -/
def code? (digits : List Char) : Option Char :=
  (Text.hex? digits).bind fun n => if n.isValidChar then some (Char.ofNat n) else none

/-- Whether a character must not stand between the quotes without an escape. -/
def isControl (c : Char) : Bool := (c.toNat < 0x20 && c != '\t') || c == '\x7f'

/-- A character between the quotes. -/
inductive Item where
  | plain (c : Char)
  | escaped (c : Char)
  deriving Repr, DecidableEq

namespace Item

/-- The character that is meant. -/
def char : Item → Char
  | plain c | escaped c => c

/-- Whether a character stands for itself. -/
def isPlain : Item → Bool
  | plain _ => true
  | escaped _ => false

end Item

/-- The characters after an opening quote, and what follows the closing quote. -/
def readItems? : List Char → Option (List Item × List Char)
  | [] => none
  | '"' :: rest => some ([], rest)
  | '\\' :: 'u' :: a :: b :: c :: d :: rest => do
    let x ← code? [a, b, c, d]
    let (items, rest) ← readItems? rest
    return (.escaped x :: items, rest)
  | '\\' :: 'U' :: a :: b :: c :: d :: a' :: b' :: c' :: d' :: rest => do
    let x ← code? [a, b, c, d, a', b', c', d']
    let (items, rest) ← readItems? rest
    return (.escaped x :: items, rest)
  | '\\' :: e :: rest => do
    let x ← shortEscape? e
    let (items, rest) ← readItems? rest
    return (.escaped x :: items, rest)
  | x :: rest =>
    if isControl x then none
    else do
      let (items, rest) ← readItems? rest
      return (.plain x :: items, rest)

/-- The text that the characters make.  What stands before the first escape is cut to as many bytes
as it has characters; there is no text if that would cut a character. -/
def content? (items : List Item) : Option (List Char) :=
  let plain := (items.takeWhile Item.isPlain).map Item.char
  match items.dropWhile Item.isPlain with
  | [] => some plain
  | rest => (Text.firstBytes? plain.length plain).map (· ++ rest.map Item.char)

/-- The text whose opening quote has been read, and what follows its closing quote. -/
def read? (cs : List Char) : Option (List Char × List Char) := do
  let (items, rest) ← readItems? cs
  return (← content? items, rest)

theorem length_of_readItems? {cs rest : List Char} {items : List Item}
    (h : readItems? cs = some (items, rest)) : rest.length < cs.length := by
  fun_induction readItems? cs generalizing items rest with
  | case1 => contradiction
  | case2 => cases h; simp
  | case3 a b c d r ih =>
    obtain ⟨x, -, h⟩ := Option.bind_eq_some_iff.1 h
    obtain ⟨⟨_, r'⟩, h', h⟩ := Option.bind_eq_some_iff.1 h
    cases h
    have := ih h'
    simp only [List.length_cons]; omega
  | case4 a b c d a' b' c' d' r ih =>
    obtain ⟨x, -, h⟩ := Option.bind_eq_some_iff.1 h
    obtain ⟨⟨_, r'⟩, h', h⟩ := Option.bind_eq_some_iff.1 h
    cases h
    have := ih h'
    simp only [List.length_cons]; omega
  | case5 e r _ _ ih =>
    obtain ⟨x, -, h⟩ := Option.bind_eq_some_iff.1 h
    obtain ⟨⟨_, r'⟩, h', h⟩ := Option.bind_eq_some_iff.1 h
    cases h
    have := ih h'
    simp only [List.length_cons]; omega
  | case6 => contradiction
  | case7 x r _ _ _ _ _ ih =>
    obtain ⟨⟨_, r'⟩, h', h⟩ := Option.bind_eq_some_iff.1 h
    cases h
    have := ih h'
    simp only [List.length_cons]; omega

theorem length_of_read? {cs content rest : List Char} (h : read? cs = some (content, rest)) :
    rest.length < cs.length := by
  obtain ⟨⟨items, r⟩, h', h⟩ := Option.bind_eq_some_iff.1 h
  obtain ⟨_, -, h⟩ := Option.bind_eq_some_iff.1 h
  cases h
  exact length_of_readItems? h'

end BlockShell.Quoted
