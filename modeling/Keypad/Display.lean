import Keypad.Binary64.Basic

/-!
# The display

How a value is shown. The exact value is rounded once to the places the display has, zeros
at the end of the fraction are left out, and a point with nothing after it too. There is no
exponent and no grouping, so the largest values show all of their 309 digits.

A value that rounds to zero is shown as `0`: the display has **no negative zero**.

## Main definitions

* `displayPlaces` — how many fraction digits the display has;
* `shownDecimal` — the magnitude that is shown;
* `display` — the text that is shown.
-/

namespace Keypad

/-- The display has eight digits after the point. -/
def displayPlaces : Nat := 8

/-- The decimal shown for a finite value: its exact magnitude rounded to `displayPlaces`,
a half going to the even digit, in as few places as possible. -/
def shownDecimal (x : Float) : Decimal :=
  Decimal.reduce
    ⟨divNearest (Binary64.units x * Nat.pow 10 displayPlaces) Binary64.unitsInOne, displayPlaces⟩

/-- The text that the display shows for a value. -/
def display (x : Float) : String :=
  if x.isNaN then "NaN"
  else if x.isInf then
    if Binary64.isNegative x then "-Infinity" else "Infinity"
  else
    let shown := shownDecimal x
    let sign := if Binary64.isNegative x && shown.coefficient != 0 then ['-'] else []
    String.ofList (sign ++ shown.toList)

end Keypad
