/-!
# Rounding a quotient

The quotient of two naturals is rounded to the nearest natural, and a quotient halfway
between two naturals goes to the even one. This is the only rounding of the library: a
literal is rounded once to a binary value, and a binary value once to the digits shown.

## Main definitions

* `divNearest` — the nearest natural to a quotient, halves to even.
-/

namespace Keypad

/-- The natural nearest to `num / den`; a quotient halfway between two naturals goes to
the even one. -/
def divNearest (num den : Nat) : Nat :=
  let below := num / den
  let left := num % den
  if 2 * left < den then below
  else if 2 * left = den ∧ below % 2 = 0 then below
  else below + 1

end Keypad
