import Keypad.Expression.Parser

/-!
# The value of an expression

`*` and `/` bind tighter than `+` and `-`, and operators of one kind associate to the left.
Evaluation takes two passes. The first works out every `*` and `/` on the spot, in the
**latest term**, and leaves a value with a list of summands; the second adds them up from
left to right. Binary64 arithmetic is not associative, so this order is part of the
meaning; the passes are written for any four operations, and say in which order they are
applied to which values.

Dividing by zero is a fault, of either zero and whatever is divided; every other operation
has a value, which may be infinite or not a number.

## Main definitions

* `Arithmetic` — the four operations, `Arithmetic.binary64` — those of the format;
* `Terms.push` — one step of the first pass, `Expression.terms` — the first pass;
* `Terms.total` — the second pass;
* `Expression.value` — the value of an expression;
* `evaluate` — the value of a text. **The empty text is worth zero.**
-/

namespace Keypad

/-! ### Operations -/

/-- The four operations on values that an expression is worked out with. -/
structure Arithmetic where
  add : Float → Float → Float
  subtract : Float → Float → Float
  multiply : Float → Float → Float
  divide : Float → Float → Float

/-- The operations of the format, each rounded to the nearest value. -/
def Arithmetic.binary64 : Arithmetic :=
  ⟨fun x y => x + y, fun x y => x - y, fun x y => x * y, fun x y => x / y⟩

/-! ### Summands -/

/-- A value that is still to be added to a sum, or taken from it. -/
inductive Summand
  | add (x : Float)
  | subtract (x : Float)
  deriving DecidableEq, Repr

namespace Summand

/-- The sum after one more summand. -/
def applyTo (ar : Arithmetic) (sum : Float) : Summand → Float
  | add x => ar.add sum x
  | subtract x => ar.subtract sum x

/-- The summand with another value. -/
def map (f : Float → Float) : Summand → Summand
  | add x => add (f x)
  | subtract x => subtract (f x)

end Summand

/-! ### The first pass -/

/-- The terms that the first pass has read so far. -/
structure Terms where
  /-- The value of the first term. -/
  head : Float
  /-- The terms after it, the latest in front. -/
  later : List Summand
  deriving DecidableEq, Repr

namespace Terms

/-- The terms with another value of the latest one, which is the first term as long as no
other follows it. -/
def mapLatest (f : Float → Float) : Terms → Terms
  | ⟨head, []⟩ => ⟨f head, []⟩
  | ⟨head, latest :: earlier⟩ => ⟨head, latest.map f :: earlier⟩

/-- One step of the first pass: a `*` or `/` changes the latest term, and a `+` or `-`
begins another. -/
def push (ar : Arithmetic) (source : String) (t : Terms) :
    Operator × Operand → Except Fault Terms
  | (.star, x) => .ok (t.mapLatest fun left => ar.multiply left x.value)
  | (.slash, x) =>
      if x.value == 0.0 then .error (.divisionByZero ⟨source, x.span⟩)
      else .ok (t.mapLatest fun left => ar.divide left x.value)
  | (.plus, x) => .ok { t with later := .add x.value :: t.later }
  | (.minus, x) => .ok { t with later := .subtract x.value :: t.later }

/-! ### The second pass -/

/-- The sum of the terms, from left to right. -/
def total (ar : Arithmetic) (t : Terms) : Float :=
  t.later.reverse.foldl (Summand.applyTo ar) t.head

end Terms

/-! ### Expressions and texts -/

namespace Expression

/-- The first pass over an expression that was read from `source`. The leftmost zero
divisor is reported. -/
def terms (ar : Arithmetic) (source : String) (e : Expression) : Except Fault Terms :=
  e.rest.foldlM (Terms.push ar source) ⟨e.first.value, []⟩

/-- The value of an expression that was read from `source`. -/
def value (ar : Arithmetic) (source : String) (e : Expression) : Except Fault Float := do
  let terms ← e.terms ar source
  return terms.total ar

end Expression

/-- The value of a text. -/
def evaluate (mode : Mode) (text : String) : Except Fault Float :=
  if text.isEmpty then .ok 0.0
  else do
    let e ← parse mode text
    e.value .binary64 text

/-- A text that holds an expression is not empty, so its value is that of the expression. -/
theorem evaluate_of_parse {mode : Mode} {text : String} {e : Expression}
    (h : parse mode text = .ok e) : evaluate mode text = e.value .binary64 text := by
  have hempty : ¬ text.isEmpty = true := by
    intro hempty
    rw [String.isEmpty_iff.mp hempty, parse_empty] at h
    exact nomatch h
  rw [evaluate, if_neg hempty, h]
  rfl

end Keypad
