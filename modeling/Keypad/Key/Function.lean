import Keypad.Fault

/-!
# Function keys

The keys that apply a function of one argument to the value on the display. A session only
keeps finite numbers, so a function whose result is infinite or not a number is a fault.

## Main definitions

* `FunctionKey` — the eight functions;
* `FunctionKey.apply` — the function's value, or why it has none;
* `requireFinite` — a value, if it is finite.
-/

namespace Keypad

/-- The value, if it is a finite number. -/
def requireFinite (x : Float) : Except Fault Float :=
  if x.isFinite then .ok x else .error .nonFiniteResult

/-- What `requireFinite` lets through is finite and unchanged. -/
theorem requireFinite_eq_ok_iff {x y : Float} :
    requireFinite x = .ok y ↔ x.isFinite = true ∧ y = x := by
  rw [requireFinite]
  split
  · next h => exact ⟨fun hy => ⟨h, (Except.ok.inj hy).symm⟩, fun hy => by rw [hy.2]⟩
  · next h => exact ⟨fun hy => (nomatch hy), fun hy => absurd hy.1 h⟩

/-- A function of one argument that has a key. -/
inductive FunctionKey
  | sin
  | cos
  | tan
  | sqrt
  | square
  | reciprocal
  | percent
  | negate
  deriving DecidableEq, Repr

/-- Half a turn in radians, as a binary64 value. -/
def pi : Float := 3.141592653589793

/-- An angle in radians, from degrees: one multiplication with the quotient of `pi` and
180. -/
def radians (degrees : Float) : Float :=
  degrees * (pi / 180.0)

namespace FunctionKey

/-- What is written on the key. -/
def label : FunctionKey → String
  | sin => "sin"
  | cos => "cos"
  | tan => "tan"
  | sqrt => "√"
  | square => "x²"
  | reciprocal => "1/x"
  | percent => "%"
  | negate => "±"

/-- The function's value, which may be infinite or not a number. Angles are in degrees, and
a percentage is a hundredth. Only the reciprocal of zero, of either sign, has no value. -/
def rawValue (x : Float) : FunctionKey → Except Fault Float
  | sin => .ok (radians x).sin
  | cos => .ok (radians x).cos
  | tan => .ok (radians x).tan
  | sqrt => .ok x.sqrt
  | square => .ok (x * x)
  | reciprocal => if x == 0.0 then .error .reciprocalOfZero else .ok (1.0 / x)
  | percent => .ok (x / 100.0)
  | negate => .ok (-x)

/-- The function's value, which has to be finite. -/
def apply (f : FunctionKey) (x : Float) : Except Fault Float := do
  requireFinite (← f.rawValue x)

end FunctionKey

end Keypad
