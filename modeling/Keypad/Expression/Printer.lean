import Keypad.Binary64.Shortest
import Keypad.Expression.Basic

/-!
# Writing an expression

An expression is written with single spaces around its operators and each value as its
shortest decimal, so what is written can be read again.

## Main definitions

* `Expression.text` — the written form.
-/

namespace Keypad

namespace Expression

/-- The operators and operands after the first operand, each with a space in front. -/
def restText : List (Operator × Operand) → String
  | [] => ""
  | (op, operand) :: rest =>
      " " ++ String.singleton op.symbol ++ " " ++ Binary64.text operand.value ++ restText rest

/-- The expression as text. -/
def text (e : Expression) : String :=
  Binary64.text e.first.value ++ restText e.rest

end Expression

end Keypad
