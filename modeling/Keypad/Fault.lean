import Keypad.Operator
import Keypad.Text.Span

/-!
# Faults

Why a calculation fails. A fault is a cause with the data needed to explain it; its
wording, its code and the place it points at are functions of the cause, each written
down once.

The causes fall in two families. An **arithmetic** fault says that the text was well
formed but has no value; a **malformed** text never was an expression.

## Main definitions

* `Fault` — the nine causes, `Fault.kind` — their family;
* `Fault.message`, `Fault.code`, `Fault.help?` — the wording;
* `Fault.site?`, `Fault.caption?` — the marked place and what is written under it.
-/

namespace Keypad

/-- Why a calculation fails. -/
inductive Fault
  /-- A divisor is zero; the site is the divisor. -/
  | divisionByZero (site : Site)
  /-- The reciprocal of zero was asked for. -/
  | reciprocalOfZero
  /-- A result is infinite or not a number, where only finite numbers are kept. -/
  | nonFiniteResult
  /-- The text holds neither number nor operator. -/
  | emptyExpression
  /-- An operator stands where a number is due; the site is the operator. -/
  | expectedNumber (found : Operator) (site : Site)
  /-- A number stands where an operator is due; the site is the number. -/
  | expectedOperator (site : Site)
  /-- The text ends after an operator; the site is that operator. -/
  | trailingOperator (site : Site)
  /-- A run of digits and points is no number; the site is the run. -/
  | invalidNumber (literal : String) (site : Site)
  /-- A character that belongs to no expression; the site is the character. -/
  | unexpectedCharacter (char : Char) (site : Site)
  deriving DecidableEq, Repr, Inhabited

/-- The two families of faults. -/
inductive FaultKind
  /-- The text is an expression, but the arithmetic is undefined. -/
  | arithmetic
  /-- The text is no expression. -/
  | malformed
  deriving DecidableEq, Repr, Inhabited

namespace Fault

/-- The family of a fault. -/
def kind : Fault → FaultKind
  | divisionByZero _ | reciprocalOfZero | nonFiniteResult => .arithmetic
  | emptyExpression | expectedNumber _ _ | expectedOperator _ | trailingOperator _
  | invalidNumber _ _ | unexpectedCharacter _ _ => .malformed

/-! ### Wording -/

/-- A text between the marks that set off quoted input. -/
def quoted (text : String) : String :=
  "`" ++ text ++ "`"

/-- The sentence that explains the fault. -/
def message : Fault → String
  | divisionByZero _ => "division by zero"
  | reciprocalOfZero => "reciprocal of zero"
  | nonFiniteResult => "result is not a finite number"
  | emptyExpression => "empty expression"
  | expectedNumber found _ =>
      "expected a number, found " ++ quoted (String.singleton found.symbol)
  | expectedOperator _ => "expected an operator between two numbers"
  | trailingOperator _ => "expression ends with an operator"
  | invalidNumber literal _ => "invalid number " ++ quoted literal
  | unexpectedCharacter char _ => "unexpected character " ++ quoted (String.singleton char)

/-- The fault's stable identifier, for readers that do not parse sentences. -/
def code : Fault → String
  | divisionByZero _ => "calc::division_by_zero"
  | reciprocalOfZero => "calc::reciprocal_of_zero"
  | nonFiniteResult => "calc::non_finite"
  | emptyExpression => "calc::empty"
  | expectedNumber _ _ => "calc::expected_number"
  | expectedOperator _ => "calc::expected_operator"
  | trailingOperator _ => "calc::trailing_operator"
  | invalidNumber _ _ => "calc::invalid_number"
  | unexpectedCharacter _ _ => "calc::unexpected_character"

/-- Advice, where there is some: two numbers side by side are most often one number that
strict reading split at a blank. -/
def help? : Fault → Option String
  | expectedOperator _ => some "strict input keeps numbers split on whitespace"
  | _ => none

/-! ### The marked place -/

/-- The place the fault points at, for the faults that have one. -/
def site? : Fault → Option Site
  | divisionByZero site | expectedNumber _ site | expectedOperator site
  | trailingOperator site | invalidNumber _ site | unexpectedCharacter _ site => some site
  | reciprocalOfZero | nonFiniteResult | emptyExpression => none

/-- What is written under the marked place. -/
def caption? : Fault → Option String
  | divisionByZero _ => some "this divisor is zero"
  | expectedNumber _ _ => some "here"
  | expectedOperator _ => some "this number"
  | trailingOperator _ => some "nothing follows this"
  | invalidNumber _ _ => some "this numeric literal"
  | unexpectedCharacter _ _ => some "this input character"
  | reciprocalOfZero | nonFiniteResult | emptyExpression => none

/-- A fault has a caption exactly when it has a place to write it under. -/
theorem caption?_isSome (f : Fault) : f.caption?.isSome = f.site?.isSome := by
  cases f <;> rfl

end Fault

end Keypad
