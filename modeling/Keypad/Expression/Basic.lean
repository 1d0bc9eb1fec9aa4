import Keypad.Operator
import Keypad.Text.Span

/-!
# Expressions

A checked expression: a first number, and then operators and numbers in turn. It begins
and ends with a number **by its type**, so evaluation has no shape to check.

## Main definitions

* `Operand` — a value with the place it was read from;
* `Expression` — `first (op operand)*`.
-/

namespace Keypad

/-- A number of an expression. -/
structure Operand where
  /-- Its value. -/
  value : Float
  /-- The place it was read from. -/
  span : Span
  deriving DecidableEq, Repr

/-- A first operand, followed by operators each with an operand of its own. -/
structure Expression where
  /-- The operand in front. -/
  first : Operand
  /-- The operators, each with the operand on its right. -/
  rest : List (Operator × Operand)
  deriving DecidableEq, Repr

end Keypad
