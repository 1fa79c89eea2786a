import BlockShell.Text.Split

/-!
# Decimal numbers

Numbers are read from ASCII digits, as many as there are; leading zeros count for nothing.  A
natural number may carry a plus sign and an integer either sign.  Nothing else is a number, the
empty text and a sign on its own included.  A number with a point is read apart from these.
-/

namespace BlockShell.Text

/-- The number that a nonempty run of digits writes. -/
def digits? (cs : List Char) : Option Nat :=
  if cs ≠ [] ∧ cs.all Char.isDigit then some (Nat.ofDigitChars 10 cs 0) else none

/-- Digits, after a plus sign or none. -/
def natural? : List Char → Option Nat
  | '+' :: cs => digits? cs
  | cs => digits? cs

/-- Digits, after either sign or none. -/
def integer? : List Char → Option Int
  | '-' :: cs => (digits? cs).map fun n => -(n : Int)
  | cs => (natural? cs).map fun n => (n : Int)

/-- The unsigned number of 64 bits that a text writes; larger numbers are refused. -/
def word? (s : String) : Option UInt64 :=
  (natural? s.toList).bind fun n =>
    if h : n < UInt64.size then some (UInt64.ofNatLT n h) else none

/-- The signed number of 64 bits that a text writes; numbers beyond them are refused. -/
def signedWord? (s : String) : Option Int :=
  (integer? s.toList).bind fun n =>
    if -0x8000000000000000 ≤ n ∧ n < 0x8000000000000000 then some n else none

/-- Whether the signed number of 64 bits that a text writes differs from zero. -/
def flag? (s : String) : Option Bool := (signedWord? s).map (· != 0)

/-- A number with a point and no sign: its digits, of which there must be one on either side of the
point, and the power of ten that they are to be multiplied by.  An exponent may follow. -/
def pointed? (s : String) : Option (Nat × Int) := do
  let (significand, exponent) := (cutAt? (fun c => c == 'e' || c == 'E') s).getD (s, "0")
  let (whole, fraction) ← cutAt? (· == '.') significand
  let n ← digits? (whole.toList ++ fraction.toList)
  let e ← integer? exponent.toList
  return (n, e - fraction.length)

end BlockShell.Text
