/-!
# Operators

The four operators of a keypad: how each is typed, what it is called in a listing, and
which of them bind tighter than the others.

## Main definitions

* `Operator.ofChar?`, `Operator.symbol` — the character that types an operator, read and
  written;
* `Operator.isMultiplicative` — `*` and `/` bind tighter than `+` and `-`.
-/

namespace Keypad

/-- One of the four operators a keypad has. -/
inductive Operator
  | plus
  | minus
  | star
  | slash
  deriving DecidableEq, Repr, Inhabited

namespace Operator

/-- The operator that a character types, if it types one. -/
def ofChar? : Char → Option Operator
  | '+' => some plus
  | '-' => some minus
  | '*' => some star
  | '/' => some slash
  | _ => none

/-- The character that types the operator. -/
def symbol : Operator → Char
  | plus => '+'
  | minus => '-'
  | star => '*'
  | slash => '/'

/-- The operator's name in a token listing. -/
def name : Operator → String
  | plus => "Plus"
  | minus => "Minus"
  | star => "Star"
  | slash => "Slash"

/-- The operators `*` and `/` bind tighter than `+` and `-`. -/
def isMultiplicative : Operator → Bool
  | plus | minus => false
  | star | slash => true

@[simp] theorem ofChar?_symbol (op : Operator) : ofChar? op.symbol = some op := by
  cases op <;> rfl

/-- Reading and writing an operator are inverse: a character types `op` exactly when it is
the symbol of `op`. -/
theorem ofChar?_eq_some_iff {c : Char} {op : Operator} :
    ofChar? c = some op ↔ c = op.symbol := by
  constructor
  · intro h
    unfold ofChar? at h
    split at h <;> cases h <;> rfl
  · rintro rfl
    exact ofChar?_symbol op

end Operator

end Keypad
