import Keypad.Key.Function
import Keypad.Token.Basic

/-!
# Keys

The keys of the keypad and their labels. Some keys have two labels, one of which can be
typed in ASCII; a key is always written with its first.

## Main definitions

* `Key` — one key;
* `Key.label`, `Key.ofLabel` — a key's label, written and read;
* `UnknownKey` — why a label names no key.
-/

namespace Keypad

/-- One key of the keypad. -/
inductive Key
  /-- Types a character. Only the characters of `isKeypadChar` have such a key, but a front
  end may hand in any character, which is then refused. -/
  | input (c : Char)
  /-- Takes back the last character. -/
  | backspace
  /-- Empties the expression. -/
  | clear
  /-- Sets the memory to zero. -/
  | memoryClear
  /-- Types the value in memory. -/
  | memoryRecall
  /-- Adds the value of the expression to the memory. -/
  | memoryAdd
  /-- Takes the value of the expression from the memory. -/
  | memorySubtract
  /-- Applies a function to the value of the expression. -/
  | function (f : FunctionKey)
  /-- Replaces the expression by its value. -/
  | equals
  deriving DecidableEq, Repr

/-- A label that names no key. -/
structure UnknownKey where
  /-- The label. -/
  label : String
  deriving DecidableEq, Repr

namespace UnknownKey

/-- The sentence that explains the fault. -/
def message (u : UnknownKey) : String :=
  "unknown keypad command " ++ Fault.quoted u.label

/-- Advice for choosing a label. -/
def help : String :=
  "try a digit, an operator, `=`, `C`, `X`, `MC`, `MR`, `M+`, `M-` or a function key"

end UnknownKey

namespace Key

/-- What is written on the key. -/
def label : Key → String
  | input c => String.singleton c
  | backspace => "X"
  | clear => "C"
  | memoryClear => "MC"
  | memoryRecall => "MR"
  | memoryAdd => "M+"
  | memorySubtract => "M-"
  | function f => f.label
  | equals => "="

/-- The key that types a text of one character, if it has one. -/
def ofTyped (label : String) : Except UnknownKey Key :=
  match label.toList with
  | [c] => if isKeypadChar c then .ok (input c) else .error ⟨label⟩
  | _ => .error ⟨label⟩

/-- The key with the given label. Labels are exact: `c` is no key. -/
def ofLabel (label : String) : Except UnknownKey Key :=
  match label with
  | "X" => .ok backspace
  | "C" => .ok clear
  | "MC" => .ok memoryClear
  | "MR" => .ok memoryRecall
  | "M+" => .ok memoryAdd
  | "M-" => .ok memorySubtract
  | "=" => .ok equals
  | "sin" => .ok (function .sin)
  | "cos" => .ok (function .cos)
  | "tan" => .ok (function .tan)
  | "√" | "sqrt" => .ok (function .sqrt)
  | "x²" | "x^2" => .ok (function .square)
  | "1/x" => .ok (function .reciprocal)
  | "%" => .ok (function .percent)
  | "±" | "+/-" => .ok (function .negate)
  | _ => ofTyped label

end Key

end Keypad
