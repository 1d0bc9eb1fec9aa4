import Keypad.Decimal.Basic
import Keypad.Rounding

/-!
# Binary64 values as naturals

Every finite binary64 value is, up to its sign, a natural number of **units** of
`2 ^ -1074`, the least positive value of the format. Counting in units turns the spacing of
the format into plain arithmetic on naturals: no exponent is ever negative.

The **code** of a value is its encoding without the sign bit, as a natural. Codes are
ordered as the magnitudes they encode, the next code encodes the next larger magnitude, and
the code after that of the largest finite value is the code of infinity. So the code of a
rounded value can be computed as one sum, and a carry out of the significand moves on to
the next exponent by itself.

## Main definitions

* `Binary64.units` — the magnitude of a finite value, in units;
* `Binary64.nearestCode` — the code nearest to a quotient, halves to even;
* `Binary64.ofDecimal` — the value nearest to a decimal.
-/

namespace Keypad

namespace Binary64

/-! ### Codes -/

/-- How many units make one. -/
def unitsInOne : Nat := Nat.pow 2 1074

/-- The code of infinity, the first that encodes no finite magnitude. -/
def infinityCode : Nat := 2047 * Nat.pow 2 52

/-- The encoding of a value without its sign bit. -/
def code (x : Float) : Nat := x.toBits.toNat % Nat.pow 2 63

/-- Whether the sign bit is set. Negative zero is negative in this sense. -/
def isNegative (x : Float) : Bool := x.toBits.toNat / Nat.pow 2 63 == 1

/-- The magnitude that a code encodes, in units. Below `2 ^ 52` a code is its own
magnitude; from there on each further `2 ^ 52` codes are twice as far apart. -/
def unitsOfCode (c : Nat) : Nat :=
  let exponent := c / Nat.pow 2 52
  let fraction := c % Nat.pow 2 52
  if exponent = 0 then fraction else (Nat.pow 2 52 + fraction) * Nat.pow 2 (exponent - 1)

/-- The magnitude of a finite value, in units. -/
def units (x : Float) : Nat := unitsOfCode (code x)

/-! ### Rounding to the format -/

/-- The code of the magnitude nearest to `num / den`, halves going to the even code. The
spacing near a quotient of `n` units is `2 ^ (log2 n - 52)`, and one unit for the small
quotients, where the subtraction stops at zero. From the midpoint above the largest finite
magnitude on, the nearest code is that of infinity. -/
def nearestCode (num den : Nat) : Nat :=
  let scaled := num * unitsInOne
  let spacing := (scaled / den).log2 - 52
  min infinityCode (spacing * Nat.pow 2 52 + divNearest scaled (den * Nat.pow 2 spacing))

/-- The nonnegative value with the given code. -/
def ofCode (c : Nat) : Float := Float.ofBits (UInt64.ofNat c)

/-- The code nearest to a decimal. -/
def codeOfDecimal (d : Decimal) : Nat := nearestCode d.coefficient (Nat.pow 10 d.places)

/-- The binary64 value nearest to a decimal, halves going to the even code. -/
def ofDecimal (d : Decimal) : Float := ofCode (codeOfDecimal d)

/-- The binary64 value nearest to the decimal that a literal denotes, if it denotes one. -/
def ofLiteral? (literal : String) : Option Float :=
  (Decimal.ofLiteral? literal.toList).map ofDecimal

end Binary64

end Keypad
