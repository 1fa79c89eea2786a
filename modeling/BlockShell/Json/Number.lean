import BlockShell.Double

/-!
# Number literals

A number literal keeps its digits as they are written.  A literal without sign, point and exponent
is natural and has a value of any size.  Any other literal is only asked whether it is in range,
that is, whether it stands for a finite double: its digits are taken up while they fit into 64 bits
and count as powers of ten after that, and the product with the power of ten must not round past
the largest double.
-/

namespace BlockShell.Json

/-- The parts of a number literal. -/
structure Number where
  negative : Bool
  /-- The digits before the point; more than one digit never start with a zero. -/
  whole : List Char
  /-- The digits after the point, empty without one. -/
  fraction : List Char
  /-- The digits of the exponent, and whether it is negative. -/
  exponent : Option (Bool × List Char)
  deriving Repr, DecidableEq

namespace Number

/-- The literal of a natural number. -/
def ofNat (n : Nat) : Number := ⟨false, Nat.toDigits 10 n, [], none⟩

/-- The value of a literal without sign, point and exponent. -/
def natural? (n : Number) : Option Nat :=
  if n.negative || !n.fraction.isEmpty || n.exponent.isSome then none
  else some (Nat.ofDigitChars 10 n.whole 0)

/-! ## Range -/

/-- Takes up digits while the number they make fits into 64 bits; the rest is left over. -/
def takeDigits (value : Nat) : List Char → Nat × List Char
  | [] => (value, [])
  | c :: cs =>
    let next := 10 * value + (c.toNat - '0'.toNat)
    if next < UInt64.size then takeDigits next cs else (value, c :: cs)

/-- The literal as a natural number times a power of ten. -/
def scientific (n : Number) : Nat × Int :=
  let (value, left) := takeDigits 0 n.whole
  let (value', left') := takeDigits value n.fraction
  let shift : Int := left.length - (n.fraction.length - left'.length : Nat)
  let exponent : Int := match n.exponent with
    | none => 0
    | some (negative, digits) =>
      let e : Nat := Nat.ofDigitChars 10 digits 0
      if negative then -(e : Int) else e
  (value', shift + exponent)

/-- Whether the literal stands for a finite double. -/
def inRange (n : Number) : Bool :=
  let (value, e) := n.scientific
  value == 0 || e < 0 ||
    (e ≤ 308 &&
      roundBinary (roundBinary value 1 * roundBinary (Nat.pow 10 e.toNat) 1) 1 < Nat.pow 2 1024)

/-! ## Text -/

/-- The literal as it is written. -/
def chars (n : Number) : List Char :=
  (if n.negative then ['-'] else []) ++ n.whole ++
    (if n.fraction.isEmpty then [] else '.' :: n.fraction) ++
    match n.exponent with
    | none => []
    | some (negative, digits) => 'e' :: (if negative then '-' :: digits else digits)

/-- A run of digits at the front, which must not be empty, and what follows it. -/
def readDigits? (cs : List Char) : Option (List Char × List Char) :=
  match cs.takeWhile Char.isDigit with
  | [] => none
  | digits => some (digits, cs.dropWhile Char.isDigit)

/-- The digits before the point: a single zero, or a run that starts with another digit. -/
def readWhole? : List Char → Option (List Char × List Char)
  | '0' :: rest => some (['0'], rest)
  | cs => readDigits? cs

/-- The digits after a point, none if there is no point, and what follows them. -/
def readFraction? : List Char → Option (List Char × List Char)
  | '.' :: rest => readDigits? rest
  | cs => some ([], cs)

/-- The sign of an exponent, whether it is negative, and what follows it. -/
def readSign : List Char → Bool × List Char
  | '-' :: rest => (true, rest)
  | '+' :: rest => (false, rest)
  | cs => (false, cs)

/-- An exponent, if there is one, and what follows it. -/
def readExponent? : List Char → Option (Option (Bool × List Char) × List Char)
  | [] => some (none, [])
  | c :: rest =>
    if c == 'e' || c == 'E' then
      (readDigits? (readSign rest).2).map fun e => (some ((readSign rest).1, e.1), e.2)
    else some (none, c :: rest)

/-- The longest literal at the front, after its sign has been taken, and what follows it. -/
def readUnsigned? (negative : Bool) (cs : List Char) : Option (Number × List Char) := do
  let (whole, cs) ← readWhole? cs
  let (fraction, cs) ← readFraction? cs
  let (exponent, cs) ← readExponent? cs
  return (⟨negative, whole, fraction, exponent⟩, cs)

/-- The longest literal at the front, and what follows it. -/
def read? : List Char → Option (Number × List Char)
  | '-' :: cs => readUnsigned? true cs
  | cs => readUnsigned? false cs

/-! ## A literal takes up text -/

theorem length_of_readDigits? {cs ds rest : List Char} (h : readDigits? cs = some (ds, rest)) :
    rest.length < cs.length := by
  unfold readDigits? at h
  split at h
  · contradiction
  · next hne =>
    cases h
    have := congrArg List.length (List.takeWhile_append_dropWhile (p := Char.isDigit) (l := cs))
    have hpos := List.length_pos_iff.2 hne
    rw [List.length_append] at this
    omega

theorem length_of_readWhole? {cs ds rest : List Char} (h : readWhole? cs = some (ds, rest)) :
    rest.length < cs.length := by
  unfold readWhole? at h
  split at h
  · cases h; simp
  · exact length_of_readDigits? h

theorem length_of_readFraction? {cs ds rest : List Char} (h : readFraction? cs = some (ds, rest)) :
    rest.length ≤ cs.length := by
  unfold readFraction? at h
  split at h
  · have := length_of_readDigits? h
    simp only [List.length_cons]; omega
  · cases h; exact Nat.le_refl _

theorem length_readSign (cs : List Char) : (readSign cs).2.length ≤ cs.length := by
  unfold readSign; split <;> simp

theorem length_of_readExponent? {cs rest : List Char} {e : Option (Bool × List Char)}
    (h : readExponent? cs = some (e, rest)) : rest.length ≤ cs.length := by
  unfold readExponent? at h
  split at h
  · cases h; exact Nat.le_refl _
  · next c cs =>
    split at h
    · obtain ⟨⟨ds, r⟩, hd, he⟩ := Option.map_eq_some_iff.1 h
      cases he
      have := length_of_readDigits? hd
      have := length_readSign cs
      simp only [List.length_cons]; omega
    · cases h; exact Nat.le_refl _

theorem length_of_readUnsigned? {b : Bool} {cs rest : List Char} {n : Number}
    (h : readUnsigned? b cs = some (n, rest)) : rest.length < cs.length := by
  unfold readUnsigned? at h
  obtain ⟨⟨w, cs₁⟩, h₁, h⟩ := Option.bind_eq_some_iff.1 h
  obtain ⟨⟨f, cs₂⟩, h₂, h⟩ := Option.bind_eq_some_iff.1 h
  obtain ⟨⟨e, cs₃⟩, h₃, h⟩ := Option.bind_eq_some_iff.1 h
  cases h
  have := length_of_readWhole? h₁
  have := length_of_readFraction? h₂
  have := length_of_readExponent? h₃
  omega

theorem length_of_read? {cs rest : List Char} {n : Number} (h : read? cs = some (n, rest)) :
    rest.length < cs.length := by
  unfold read? at h
  split at h
  · have := length_of_readUnsigned? h
    simp only [List.length_cons]; omega
  · exact length_of_readUnsigned? h

end Number

end BlockShell.Json
