import Keypad.Operator
import Keypad.Text.Span
import Keypad.Text.Blank

/-!
# Tokens

The units that a keypad text is made of, and the classes of character they are made from.

A number is kept as text: whether it denotes a value is not decided here. In permissive
reading a character can be dropped from inside a number, and then its literal is no longer
the part of the text between its ends; such a numeral is **gapped**.

## Main definitions

* `Mode` — what is done about characters that belong to no token;
* `Glyph` — the class of a character;
* `Numeral`, `Token` — a number as text, and a number or operator with its place;
* `Token.listing` — the line that describes a token.
-/

namespace Keypad

/-- What is done about characters that belong to no token. -/
inductive Mode
  /-- They are dropped without notice, as on a keypad that has no such keys. -/
  | permissive
  /-- Blanks separate tokens, and any other character is a fault. -/
  | strict
  deriving DecidableEq, Repr

/-- Unless asked otherwise, reading is permissive. -/
instance : Inhabited Mode := ⟨.permissive⟩

/-! ### Classes of characters -/

/-- Digits and the point make up numbers. Digits are those of ASCII. -/
def isNumeric (c : Char) : Bool :=
  c.isDigit || c == '.'

/-- The characters a keypad can type: digits, the point and the operators. -/
def isKeypadChar (c : Char) : Bool :=
  isNumeric c || (Operator.ofChar? c).isSome

/-- The class of a character. -/
inductive Glyph
  /-- A digit or the point. -/
  | numeric
  /-- The symbol of an operator. -/
  | operator (op : Operator)
  /-- A blank. -/
  | blank
  /-- Any other character. -/
  | foreign
  deriving DecidableEq, Repr

/-- The class of a character. The classes exclude each other, so the order of the tests
does not matter. -/
def Glyph.ofChar (c : Char) : Glyph :=
  if isNumeric c then .numeric
  else match Operator.ofChar? c with
    | some op => .operator op
    | none => if isBlank c then .blank else .foreign

/-! ### Numerals -/

/-- A number as it stands in a text. -/
structure Numeral where
  /-- Its digits and points, in order. -/
  literal : String
  /-- From its first digit or point to just past its last. -/
  span : Span
  /-- Whether characters were dropped from inside it. -/
  gapped : Bool
  deriving DecidableEq, Repr

namespace Numeral

/-- The numeral of one character at `offset`. -/
def single (c : Char) (offset : Nat) : Numeral :=
  ⟨String.singleton c, .ofSize offset c.utf8Size, false⟩

/-- The numeral with one more character, which stands at `offset`. There is a gap if that
is not where the numeral ended so far, and a gap stays. -/
def push (n : Numeral) (c : Char) (offset : Nat) : Numeral :=
  ⟨n.literal.push c, ⟨n.span.start, offset + c.utf8Size⟩, n.gapped || n.span.stop != offset⟩

/-- The numeral read so far, if any, with one more character. -/
def extend (pending : Option Numeral) (c : Char) (offset : Nat) : Numeral :=
  match pending with
  | none => single c offset
  | some n => n.push c offset

end Numeral

/-! ### Tokens -/

/-- A number or an operator, with its place in the text. -/
inductive Token
  | number (numeral : Numeral)
  | operator (op : Operator) (offset : Nat)
  deriving DecidableEq, Repr

namespace Token

/-- The place of a token. An operator takes one byte. -/
def span : Token → Span
  | number numeral => numeral.span
  | operator _ offset => .ofSize offset 1

/-- The line that describes a token in a listing. -/
def listing : Token → String
  | number ⟨literal, ⟨start, stop⟩, _⟩ =>
      "Number \x7b literal: \"" ++ literal ++ "\", span: " ++ toString start ++ ".."
        ++ toString stop ++ " \x7d"
  | operator op offset =>
      "Operator \x7b op: " ++ op.name ++ ", offset: " ++ toString offset ++ " \x7d"

end Token

end Keypad
