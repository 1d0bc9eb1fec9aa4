import Keypad.Display
import Keypad.Expression.Evaluator
import Keypad.Key.Basic

/-!
# Sessions

What a keypad remembers between presses: the pending expression, the text on the display
and a memory. A press works on them step by step, and a fault breaks it off where it is. Every
key makes its tests before it changes anything, so that a press has its whole effect or none,
with one exception: **a failed `=` shows an error and drops the expression**.

Only finite numbers enter a session. A result that is infinite or not a number is a fault,
and the memory keeps its old value when a sum would leave the finite range.

## Main definitions

* `Session` — the state, `Session.start` — the state at first;
* `Session.perform` — the work of a key;
* `Session.press` — one press, with the fault if there was one;
* `Session.setExpression` — typing over the whole display.
-/

namespace Keypad

/-- What a keypad remembers between presses. -/
structure Session where
  /-- The text that `=` evaluates. -/
  expression : String
  /-- The text on the display. -/
  display : String
  /-- The value in memory. -/
  memory : Float
  /-- How the expression is read. -/
  mode : Mode
  deriving DecidableEq, Repr

namespace Session

/-- The state before the first press: no expression, and zero in memory and on the
display. -/
def start (mode : Mode) : Session :=
  ⟨"", "0", 0.0, mode⟩

/-- Shown after a failed `=`. -/
def errorText : String := "Error"

/-! ### Parts of the work -/

/-- Replaces the expression, and shows it. -/
def setExpression (s : Session) (text : String) : Session :=
  { s with expression := text, display := text }

/-- Replaces the expression by a value. -/
def showValue (s : Session) (x : Float) : Session :=
  s.setExpression (Keypad.display x)

/-- The value of the expression, which has to be finite. -/
def current (s : Session) : Except Fault Float := do
  requireFinite (← evaluate s.mode s.expression)

/-- Takes back the last character. When none is left, the display shows zero; when there
was none, it stays as it is. -/
def takeBack (s : Session) : Session :=
  match s.expression.toList with
  | [] => s
  | [_] => { s with expression := "", display := "0" }
  | cs => s.setExpression (String.ofList cs.dropLast)

/-! ### Presses -/

/-- Work on a session. A fault breaks it off, and **what was changed until then stays
changed**. -/
abbrev Work := ExceptT Fault (StateM Session)

/-- The outcome of some work: what it gives or the fault that broke it off, and the session
that it leaves. -/
def Work.outcome {α : Type} (work : Work α) (s : Session) : Except Fault α × Session :=
  (work.run.run s).run

/-- The value of the expression, which has to be finite. -/
def value : Work Float := do
  (← get).current

/-- Puts into memory what an operation makes of the memory and the value of the expression, which
has to be finite too. -/
def accumulate (operation : Float → Float → Float) : Work Unit := do
  let x ← value
  let y ← requireFinite (operation (← get).memory x)
  modify fun s => { s with memory := y }

/-- The work of a key, in order: the tests that it can fail come first, and then the one change
that it makes. Only `=` makes a change when it fails. -/
def perform : Key → Work Unit
  | .input c => do
      unless isKeypadChar c do
        throw (.unexpectedCharacter c ⟨String.singleton c, .ofSize 0 c.utf8Size⟩)
      modify fun s => s.setExpression (s.expression.push c)
  | .backspace => modify takeBack
  | .clear => modify fun s => { s with expression := "", display := "0" }
  | .memoryClear => modify fun s => { s with memory := 0.0 }
  | .memoryRecall => modify fun s => s.setExpression (s.expression ++ Keypad.display s.memory)
  | .memoryAdd => accumulate fun memory x => memory + x
  | .memorySubtract => accumulate fun memory x => memory - x
  | .function f => do
      let y ← f.apply (← value)
      modify fun s => s.showValue y
  | .equals => do
      match (← get).current with
      | .ok x => modify fun s => s.showValue x
      | .error fault =>
          modify fun s => { s with expression := "", display := errorText }
          throw fault

/-- One press: the session that the work of the key leaves, and the fault if there was one. -/
def press (s : Session) (key : Key) : Session × Option Fault :=
  match (perform key).outcome s with
  | (.ok _, next) => (next, none)
  | (.error fault, next) => (next, some fault)

end Session

end Keypad
