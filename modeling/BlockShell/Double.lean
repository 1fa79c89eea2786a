import BlockShell.Text.Decimal

/-!
# Doubles

A double is a binary floating-point number of 64 bits.  The magnitude of a finite one is a whole
number of units of `2 ^ -1074`, and is kept as that number, so that nothing is lost on the way.  A
decimal is read as the double nearest to it, and a double is written with the fewest digits that
read back.
-/

namespace BlockShell

/-- A double without its sign. -/
inductive Magnitude where
  /-- So many units of `2 ^ -1074`. -/
  | finite (units : Nat)
  | infinite
  deriving Repr, DecidableEq

/-- A sign and a magnitude. -/
structure Double where
  negative : Bool
  magnitude : Magnitude
  deriving Repr, DecidableEq

/-! ## Rounding -/

/-- The whole number nearest to a quotient, of two the even one. -/
def roundDiv (n d : Nat) : Nat :=
  if d < 2 * (n % d) ∨ (2 * (n % d) = d ∧ n / d % 2 = 1) then n / d + 1 else n / d

/-- The number nearest to a quotient that has at most 53 binary digits before its trailing zeros, of
two the one whose last such digit is even. -/
def roundBinary (n d : Nat) : Nat :=
  let unit := Nat.pow 2 ((n / d).log2 - 52)
  roundDiv n (d * unit) * unit

namespace Magnitude

/-- Numbers past the largest finite one are infinite. -/
def ofUnits (units : Nat) : Magnitude := if units < Nat.pow 2 2098 then finite units else infinite

/-- The magnitude nearest to `digits` times a power of ten.  If the first digit stands too far from
the point, the rest need not be looked at. -/
def ofDecimal (digits : Nat) (power : Int) : Magnitude :=
  let place := power + (Nat.toDigits 10 digits).length
  if digits = 0 ∨ place < -323 then finite 0
  else if 310 < place then infinite
  else
    ofUnits (roundBinary (digits * Nat.pow 10 power.toNat * Nat.pow 2 1074)
      (Nat.pow 10 (-power).toNat))

/-! ## Shortest text

A decimal with 1074 places can be equal to any finite magnitude.  It is kept as a number of units of
`10 ^ -1074`, each of which is the same as `5 ^ -1074` units of `2 ^ -1074`. -/

/-- The number of places of a decimal. -/
def places : Nat := 1074

/-- Whether a decimal with 1074 places is read as the given magnitude. -/
def readsBack (units decimal : Nat) : Bool := roundBinary decimal (Nat.pow 5 places) == units

/-- Of the two multiples of `step` next to the decimal `exact`, the one that reads back; if both do,
the nearer, and of two equally near the greater. -/
def nearby? (units exact step : Nat) : Option Nat :=
  let low := exact / step * step
  match readsBack units low, readsBack units (low + step) with
  | true, true => some (if 2 * (exact - low) < step then low else low + step)
  | true, false => some low
  | false, true => some (low + step)
  | false, false => none

/-- Of the decimals that read back those with the fewest digits, and of these the nearest. -/
def shortest (units : Nat) : Nat :=
  let exact := units * Nat.pow 5 places
  let length := (Nat.toDigits 10 exact).length
  ((List.range length).findSome? fun n =>
    nearby? units exact (Nat.pow 10 (length - (n + 1)))).getD exact

/-- The digits of a decimal with 1074 places, without zeros at the end of its fraction. -/
def decimalText (decimal : Nat) : String :=
  let digits := Nat.toDigits 10 (decimal % Nat.pow 10 places)
  let fraction := List.replicate (places - digits.length) '0' ++ digits
  let whole := Nat.toDigits 10 (decimal / Nat.pow 10 places)
  match (fraction.reverse.dropWhile (· == '0')).reverse with
  | [] => String.ofList whole
  | fraction => String.ofList (whole ++ '.' :: fraction)

/-- A magnitude in digits, the fewest that read back. -/
def text : Magnitude → String
  | finite units => decimalText (shortest units)
  | infinite => "inf"

end Magnitude

namespace Double

/-- The double with a given sign whose magnitude is nearest to the number that a text writes. -/
def ofUnsigned? (negative : Bool) (s : String) : Option Double :=
  (Text.pointed? s).map fun (digits, power) => ⟨negative, .ofDecimal digits power⟩

/-- The double nearest to the number with a point that a text writes. -/
def ofText? (s : String) : Option Double :=
  match s.toList with
  | '-' :: cs => ofUnsigned? true (String.ofList cs)
  | '+' :: cs => ofUnsigned? false (String.ofList cs)
  | _ => ofUnsigned? false s

/-- A double in digits, with a sign in front if it is negative. -/
def text (x : Double) : String := (if x.negative then "-" else "") ++ x.magnitude.text

end Double

end BlockShell
