/-!
# Decimals

A decimal is a natural number of equal parts of one, each part being a power of ten. It is
what a literal denotes before it is rounded to a binary value, and what a binary value is
rounded to before it is written.

## Main definitions

* `Decimal` — `coefficient / 10 ^ places`;
* `Decimal.ofLiteral?` — the decimal that a run of digits and points denotes;
* `Decimal.reduce` — the same decimal with as few places as possible;
* `Decimal.toList` — the decimal in positional notation, every place written.
-/

namespace Keypad

/-- The decimal `coefficient / 10 ^ places`. -/
structure Decimal where
  /-- How many parts of size `1 / 10 ^ places` there are. -/
  coefficient : Nat
  /-- How many digits follow the point. -/
  places : Nat
  deriving DecidableEq, Repr, Inhabited

namespace Decimal

/-! ### Reading -/

/-- The decimal that a literal denotes. A literal has digits, before a point, after it or
on both sides, and **at most one point**; a text without a digit or with a second point
denotes nothing. -/
def ofLiteral? (literal : List Char) : Option Decimal :=
  let whole := literal.takeWhile (· != '.')
  let fraction := (literal.dropWhile (· != '.')).drop 1
  let digits := whole ++ fraction
  if digits ≠ [] ∧ digits.all Char.isDigit then
    some ⟨Nat.ofDigitChars 10 digits 0, fraction.length⟩
  else
    none

/-! ### Fewest places -/

/-- The decimal `coefficient / 10 ^ places` without zeros at the end of its fraction. -/
def ofParts (coefficient : Nat) : Nat → Decimal
  | 0 => ⟨coefficient, 0⟩
  | places + 1 =>
      if coefficient % 10 = 0 then ofParts (coefficient / 10) places
      else ⟨coefficient, places + 1⟩

/-- The same decimal without zeros at the end of its fraction. -/
def reduce (d : Decimal) : Decimal :=
  ofParts d.coefficient d.places

/-- Reducing never adds a place. -/
theorem ofParts_places_le (coefficient places : Nat) :
    (ofParts coefficient places).places ≤ places := by
  induction places generalizing coefficient with
  | zero => simp [ofParts]
  | succ p ih =>
    rw [ofParts]
    split
    · exact Nat.le_succ_of_le (ih _)
    · exact Nat.le_refl _

/-- After reducing, the fraction is empty or ends in a digit other than zero. -/
theorem ofParts_places_eq_zero_or (coefficient places : Nat) :
    (ofParts coefficient places).places = 0 ∨
      (ofParts coefficient places).coefficient % 10 ≠ 0 := by
  induction places generalizing coefficient with
  | zero => simp [ofParts]
  | succ p ih =>
    rw [ofParts]
    split
    · exact ih _
    · next h => exact .inr h

/-! ### Writing -/

/-- The decimal in positional notation: the digits of its whole part, and, if it has
places, a point and exactly that many digits. -/
def toList (d : Decimal) : List Char :=
  let unit := Nat.pow 10 d.places
  let whole := Nat.toDigits 10 (d.coefficient / unit)
  if d.places = 0 then whole
  else whole ++ '.' :: (Nat.toDigits 10 (d.coefficient % unit)).leftpad d.places '0'

end Decimal

end Keypad
