import Keypad.Binary64.Basic
import Keypad.Expression.Basic
import Keypad.Token.Lexer

/-!
# Reading an expression

Numbers and operators have to alternate, beginning and ending with a number. One `-` may
stand in front of the first number and becomes its sign, so that a negative result put back
on the display can be evaluated again; no other number can be signed.

The parser works on the items that the lexer hands out. **The item at which it stops is
used up**, so that it can be asked again for what follows a fault.

## Main definitions

* `Parser` — a text with the items that are still to be read;
* `Parser.parse` — reads one expression, or says why there is none;
* `parse` — reads a whole text.
-/

namespace Keypad

/-- A text and those of its items that are still to be read. -/
structure Parser where
  /-- The whole text. -/
  source : String
  /-- The items that are still to be read. -/
  items : List Item

namespace Parser

/-- The parser at the start of a text. -/
def ofText (mode : Mode) (text : String) : Parser :=
  ⟨text, (Lexer.ofText mode text).items⟩

/-! ### One item -/

/-- The operand that an item stands for, where a number is due. -/
def operandOfItem (source : String) : Item → Except Fault Operand
  | .error fault => .error fault
  | .ok (.operator op offset) => .error (.expectedNumber op ⟨source, .ofSize offset 1⟩)
  | .ok (.number n) =>
      match Binary64.ofLiteral? n.literal with
      | some value => .ok ⟨value, n.span⟩
      | none => .error (.invalidNumber n.literal ⟨source, n.span⟩)

/-- The operator that an item stands for, where an operator is due. -/
def operatorOfItem (source : String) : Item → Except Fault (Operator × Nat)
  | .error fault => .error fault
  | .ok (.operator op offset) => .ok (op, offset)
  | .ok (.number n) => .error (.expectedOperator ⟨source, n.span⟩)

/-! ### All items -/

/-- Reads an operand after the operator at `after`, and says what is left. -/
def parseOperand (source : String) (after : Nat) : List Item → Except Fault Operand × List Item
  | [] => (.error (.trailingOperator ⟨source, .ofSize after 1⟩), [])
  | item :: items => (operandOfItem source item, items)

/-- Reads the first operand, which may carry a sign, and says what is left. -/
def parseFirst (source : String) : List Item → Except Fault Operand × List Item
  | [] => (.error .emptyExpression, [])
  | .ok (.operator .minus offset) :: items =>
      let (operand, left) := parseOperand source offset items
      (operand.map fun x => ⟨-x.value, ⟨offset, x.span.stop⟩⟩, left)
  | item :: items => (operandOfItem source item, items)

/-- Reads operators and operands to the end of the items, and says what is left after a
fault. -/
def parseRest (source : String) :
    List Item → Except Fault (List (Operator × Operand)) × List Item
  | [] => (.ok [], [])
  | item :: items =>
      match operatorOfItem source item, items with
      | .error fault, _ => (.error fault, items)
      | .ok (_, offset), [] => (.error (.trailingOperator ⟨source, .ofSize offset 1⟩), [])
      | .ok (op, _), next :: left =>
          match operandOfItem source next with
          | .error fault => (.error fault, left)
          | .ok operand =>
              let (rest, unread) := parseRest source left
              (rest.map ((op, operand) :: ·), unread)

/-- Reads one expression from the items that are left. -/
def parse (p : Parser) : Except Fault Expression × Parser :=
  match parseFirst p.source p.items with
  | (.error fault, left) => (.error fault, ⟨p.source, left⟩)
  | (.ok first, items) =>
      let (rest, left) := parseRest p.source items
      (rest.map fun rest => ⟨first, rest⟩, ⟨p.source, left⟩)

end Parser

/-- The expression that a text denotes. -/
def parse (mode : Mode) (text : String) : Except Fault Expression :=
  (Parser.ofText mode text).parse.1

/-- The empty text holds no expression. -/
theorem parse_empty (mode : Mode) : parse mode "" = .error .emptyExpression := by
  have hitems : (Lexer.ofText mode "").items = [] := Lexer.items_of_next_none rfl
  rw [parse, Parser.ofText, hitems]
  rfl

end Keypad
