import BlockShell.Text.Hex

/-!
# String literals

Between its quotes a string literal holds characters and escapes.  An escape `\uXXXX` writes a
UTF-16 unit, so two of them in a row may make one character; a unit that is left without its
partner makes no character, and a literal with one is well formed but has no text.
-/

namespace BlockShell.Json

/-- The text of a string literal, if it has one. -/
abbrev Text := Option String

namespace Literal

/-! ## Units -/

/-- What a literal is made of: a character, or the UTF-16 unit of an escape. -/
inductive Unit where
  | char (c : Char)
  | code (n : Nat)
  deriving Repr, DecidableEq

/-- The unit that four digits write. -/
def code? (a b c d : Char) : Option Nat := Text.hex? [a, b, c, d]

/-- The character of a short escape. -/
def shortEscape? : Char → Option Char
  | '"' => some '"'
  | '\\' => some '\\'
  | '/' => some '/'
  | 'b' => some '\x08'
  | 'f' => some '\x0c'
  | 'n' => some '\n'
  | 'r' => some '\r'
  | 't' => some '\t'
  | _ => none

/-- Whether a character must not stand in a literal without an escape. -/
def isControl (c : Char) : Bool := c.toNat < 0x20

/-- The units of a literal whose opening quote has been read, and what follows its closing quote. -/
def readUnits? : List Char → Option (List Unit × List Char)
  | [] => none
  | '"' :: rest => some ([], rest)
  | '\\' :: 'u' :: a :: b :: c :: d :: rest => do
    let n ← code? a b c d
    let (units, rest) ← readUnits? rest
    return (.code n :: units, rest)
  | '\\' :: e :: rest => do
    let c ← shortEscape? e
    let (units, rest) ← readUnits? rest
    return (.char c :: units, rest)
  | c :: rest =>
    if isControl c then none
    else do
      let (units, rest) ← readUnits? rest
      return (.char c :: units, rest)

theorem length_of_readUnits? {cs rest : List Char} {units : List Unit}
    (h : readUnits? cs = some (units, rest)) : rest.length < cs.length := by
  fun_induction readUnits? cs generalizing units rest with
  | case1 => contradiction
  | case2 => cases h; simp
  | case3 a b c d r ih =>
    obtain ⟨n, -, h⟩ := Option.bind_eq_some_iff.1 h
    obtain ⟨⟨us, r'⟩, h', h⟩ := Option.bind_eq_some_iff.1 h
    cases h
    have := ih h'
    simp only [List.length_cons]; omega
  | case4 e r _ ih =>
    obtain ⟨c, -, h⟩ := Option.bind_eq_some_iff.1 h
    obtain ⟨⟨us, r'⟩, h', h⟩ := Option.bind_eq_some_iff.1 h
    cases h
    have := ih h'
    simp only [List.length_cons]; omega
  | case5 => contradiction
  | case6 c r _ _ _ _ ih =>
    obtain ⟨⟨us, r'⟩, h', h⟩ := Option.bind_eq_some_iff.1 h
    cases h
    have := ih h'
    simp only [List.length_cons]; omega

/-! ## Text -/

/-- Whether a unit is the first half of a pair. -/
def isLeading (n : Nat) : Bool := 0xD800 ≤ n && n < 0xDC00

/-- Whether a unit is the second half of a pair. -/
def isTrailing (n : Nat) : Bool := 0xDC00 ≤ n && n < 0xE000

/-- The characters that units make, unless one is left without its partner. -/
def chars? : List Unit → Option (List Char)
  | [] => some []
  | .char c :: units => (chars? units).map (c :: ·)
  | .code n :: .code k :: units =>
    if isLeading n then
      if isTrailing k then
        (chars? units).map (Char.ofNat (0x10000 + 0x400 * (n - 0xD800) + (k - 0xDC00)) :: ·)
      else none
    else if isTrailing n then none
    else (chars? (.code k :: units)).map (Char.ofNat n :: ·)
  | .code n :: units =>
    if isLeading n || isTrailing n then none else (chars? units).map (Char.ofNat n :: ·)

/-- The text of the literal whose opening quote has been read, and what follows the literal. -/
def read? (cs : List Char) : Option (Text × List Char) :=
  (readUnits? cs).map fun (units, rest) => ((chars? units).map String.ofList, rest)

theorem length_of_read? {cs rest : List Char} {t : Text} (h : read? cs = some (t, rest)) :
    rest.length < cs.length := by
  obtain ⟨⟨us, r⟩, h', h⟩ := Option.map_eq_some_iff.1 h
  cases h
  exact length_of_readUnits? h'

/-! ## Writing -/

/-- A character as a literal writes it: escaped if it is a quote, a backslash or a control. -/
def escape (c : Char) : List Char :=
  if c = '"' then ['\\', '"']
  else if c = '\\' then ['\\', '\\']
  else if c = '\x08' then ['\\', 'b']
  else if c = '\x0c' then ['\\', 'f']
  else if c = '\n' then ['\\', 'n']
  else if c = '\r' then ['\\', 'r']
  else if c = '\t' then ['\\', 't']
  else if isControl c then
    ['\\', 'u', '0', '0', Nat.digitChar (c.toNat / 16), Nat.digitChar (c.toNat % 16)]
  else [c]

/-- The literal of a text.  Without a text it is a unit without its partner. -/
def chars : Text → List Char
  | some s => '"' :: s.toList.flatMap escape ++ ['"']
  | none => ['"', '\\', 'u', 'd', '8', '0', '0', '"']

end Literal

end BlockShell.Json
