import Keypad.Binary64.Basic

/-!
# The shortest decimal of a value

A binary64 value is written with as few digits as let it be read back. The decimals with
few digits are the multiples of a power of ten, a **grid**; the coarser the grid, the fewer
the digits. On each grid the two neighbours of the value are tried, the nearer one first,
and the first neighbour that reads back as the value is the answer. A value halfway between
its neighbours tries the larger one first.

The answer is always written in positional notation, so the values of the format take up
to 309 digits before the point and up to 324 after it.

## Main definitions

* `Binary64.gridNeighbours` — the two multiples of a power of ten around a magnitude;
* `Binary64.shortest` — the decimal of the coarsest grid that reads back;
* `Binary64.text` — a value as it is written inside an expression.
-/

namespace Keypad

namespace Binary64

/-! ### Grids -/

/-- A power of ten at or above the magnitude: its exponent is the number of digits of the
whole part, or, below one, comes from the number of digits of the reciprocal. -/
def gridCeiling (n : Nat) : Int :=
  if unitsInOne ≤ n then (Nat.toDigits 10 (n / unitsInOne)).length
  else 1 - ((Nat.toDigits 10 (unitsInOne / n)).length : Int)

/-- The multiples of `10 ^ k` next to a magnitude of `n` units, the nearer first and, of
two equally near, the larger. -/
def gridNeighbours (n : Nat) (k : Int) : List Decimal :=
  let step := Nat.pow 10 k.toNat
  let places := (-k).toNat
  let num := n * Nat.pow 10 places
  let den := unitsInOne * step
  let below : Decimal := ⟨num / den * step, places⟩
  let above : Decimal := ⟨(num / den + 1) * step, places⟩
  if 2 * (num % den) < den then [below, above] else [above, below]

/-- The decimal that is exactly a magnitude of `n` units: `1 / 2 ^ 1074` is
`5 ^ 1074 / 10 ^ 1074`. -/
def exactDecimal (n : Nat) : Decimal :=
  ⟨n * Nat.pow 5 1074, 1074⟩

/-- All neighbours that are tried, from the coarsest grid to the one of seventeen digits,
and the exact decimal after them. -/
def candidates (n : Nat) : List Decimal :=
  (List.range 18).flatMap (fun i : Nat => gridNeighbours n (gridCeiling n - i)) ++ [exactDecimal n]

/-- The decimal with the fewest digits that reads back as the code `c`, and of those the
nearest to its magnitude. -/
def shortest (c : Nat) : Decimal :=
  let n := unitsOfCode c
  (((candidates n).find? fun d => codeOfDecimal d == c).getD (exactDecimal n)).reduce

/-! ### Text -/

/-- A value as it is written inside an expression: its shortest decimal after its sign,
negative zero as `-0`, and an infinity as `inf`. -/
def text (x : Float) : String :=
  if x.isNaN then "NaN"
  else
    let sign := if isNegative x then ['-'] else []
    let magnitude := if x.isInf then "inf".toList else (shortest (code x)).toList
    String.ofList (sign ++ magnitude)

end Binary64

end Keypad
