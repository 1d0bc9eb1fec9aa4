import Keypad.Proofs.Binary64.Rounded
import Keypad.Proofs.Expression.Blame
import Keypad.Proofs.Expression.Modes
import Keypad.Proofs.Token.Cut

/-!
# What one call of the parser reads

The parser reads items until one is not due or there is none left. What is due depends on
the items before in a simple way: a number at the beginning, where one `-` may stand in
front of it, then an operator behind every number and a number behind every operator. This
module gives the rule by itself, as an automaton without operands and without lists of them,
and **ties every call of the parser to it**: which items the call uses up, and which fault
or expression it comes to.

Of an expression it is said as well which tokens it was read from, with the number that each
literal denotes and the place of each operand.

## Main definitions

* `Expresses`: an expression holds the numbers and operators of a row of tokens.
* `Parser.Due`: what is due; `Due.read`, `Due.run`: how items change that.
* `Parser.Outcome`: what a call comes to that uses up a segment of the items.

## Main results

* `Parser.outcome_parse`: **every call of the parser has the outcome of its items.**
* `exists_expresses_of_parse`: an expression was read from all the tokens of its text.
-/

namespace Keypad

open Binary64 (IsRounded)

/-! ### What tokens express -/

/-- The number that a numeral denotes. -/
def Numeral.number (n : Numeral) : ℚ := literalValue 0 n.literal.toList

/-- **An operand holds a number as it was read**: what the number denotes, rounded once, and
the place of the number. -/
structure Operand.ReadFrom (x : Operand) (n : Numeral) : Prop where
  literal : IsLiteral n.literal.toList
  value : IsRounded x.value n.number
  span : x.span = n.span

/-- Operators and operands hold a row of operators and numbers in turn. -/
inductive ExpressesRest : List Token → List (Operator × Operand) → Prop
  | nil : ExpressesRest [] []
  | cons {op : Operator} {offset : Nat} {n : Numeral} {x : Operand} {tokens : List Token}
      {rest : List (Operator × Operand)} :
      x.ReadFrom n → ExpressesRest tokens rest →
      ExpressesRest (.operator op offset :: .number n :: tokens) ((op, x) :: rest)

/-- **An expression holds a row of tokens**: numbers and operators in turn. If a `-` stands
in front of the first number, the operand is negative and begins at the `-`. -/
inductive Expresses : List Token → Expression → Prop
  | plain {n : Numeral} {x : Operand} {tokens : List Token} {rest : List (Operator × Operand)} :
      x.ReadFrom n → ExpressesRest tokens rest → Expresses (.number n :: tokens) ⟨x, rest⟩
  | negative {offset : Nat} {n : Numeral} {x : Operand} {tokens : List Token}
      {rest : List (Operator × Operand)} :
      x.ReadFrom n → ExpressesRest tokens rest →
      Expresses (.operator .minus offset :: .number n :: tokens)
        ⟨⟨-x.value, ⟨offset, x.span.stop⟩⟩, rest⟩

namespace Parser

/-- **A number is an operand** exactly when its literal is one, and then the operand holds
the number. -/
theorem operandOfItem_number_eq_ok_iff {source : String} {n : Numeral} {x : Operand} :
    operandOfItem source (.ok (.number n)) = .ok x ↔ x.ReadFrom n := by
  constructor
  · intro h
    obtain ⟨m, hm, hvalue, hspan⟩ := number_of_operandOfItem h
    obtain rfl : n = m := Token.number.inj (Except.ok.inj hm)
    obtain ⟨hliteral, hrounded⟩ := Binary64.ofLiteral?_eq_some_iff.mp hvalue
    exact ⟨hliteral, hrounded, hspan⟩
  · rintro ⟨hliteral, hrounded, hspan⟩
    have hvalue := Binary64.ofLiteral?_eq_some_iff.mpr ⟨hliteral, hrounded⟩
    rw [operandOfItem, hvalue, ← hspan]

/-- **A number that is no literal is refused** as that. -/
theorem operandOfItem_of_not_isLiteral (source : String) {n : Numeral}
    (h : ¬ IsLiteral n.literal.toList) :
    operandOfItem source (.ok (.number n)) =
      .error (.invalidNumber n.literal ⟨source, n.span⟩) := by
  rw [operandOfItem, Binary64.ofLiteral?_eq_none_iff.mpr h]

/-- A literal is read. -/
theorem exists_operandOfItem_of_isLiteral (source : String) {n : Numeral}
    (h : IsLiteral n.literal.toList) : ∃ x, operandOfItem source (.ok (.number n)) = .ok x := by
  cases hread : Binary64.ofLiteral? n.literal with
  | some x => exact ⟨⟨x, n.span⟩, by rw [operandOfItem, hread]⟩
  | none => exact absurd h (Binary64.ofLiteral?_eq_none_iff.mp hread)

/-! ### What is due -/

/-- What the parser has to find next. -/
inductive Due
  /-- A first number, with a `-` in front or without. -/
  | first
  /-- A number, behind the operator at `after`. -/
  | number (after : Nat)
  /-- An operator, or the end. -/
  | operator
  deriving DecidableEq, Repr

namespace Due

/-- What is due behind an item, or the fault of an item that is not due. -/
def read (source : String) : Due → Item → Except Fault Due
  | _, .error fault => .error fault
  | .operator, .ok (.operator _ offset) => .ok (.number offset)
  | .operator, .ok (.number n) => .error (.expectedOperator ⟨source, n.span⟩)
  | .first, .ok (.operator op offset) =>
      if op = .minus then .ok (.number offset)
      else .error (.expectedNumber op ⟨source, .ofSize offset 1⟩)
  | .number _, .ok (.operator op offset) =>
      .error (.expectedNumber op ⟨source, .ofSize offset 1⟩)
  | .first, .ok (.number n)
  | .number _, .ok (.number n) =>
      if IsLiteral n.literal.toList then .ok .operator
      else .error (.invalidNumber n.literal ⟨source, n.span⟩)

/-- What is due behind some items, or the fault of the first that is not due. -/
def run (source : String) (due : Due) (items : List Item) : Except Fault Due :=
  items.foldlM (read source) due

/-- The fault of ending here, unless nothing is missing. -/
def atEnd (source : String) : Due → Option Fault
  | .first => some .emptyExpression
  | .number after => some (.trailingOperator ⟨source, .ofSize after 1⟩)
  | .operator => none

section

variable (source : String) {due due' : Due} {item : Item} {front items : List Item}

/-- Behind an operator, operands are due. -/
theorem read_number (after : Nat) (item : Item) :
    (Due.number after).read source item = (operandOfItem source item).map fun _ => .operator := by
  rcases item with fault | ⟨n⟩ | ⟨op, offset⟩
  · rfl
  · rw [read]
    split
    · next h =>
        obtain ⟨x, hx⟩ := exists_operandOfItem_of_isLiteral source h
        rw [hx]
        rfl
    · next h =>
        rw [operandOfItem_of_not_isLiteral source h]
        rfl
  · rfl

/-- Behind a number, operators are due. -/
theorem read_operator (item : Item) :
    Due.operator.read source item =
      (operatorOfItem source item).map fun p => .number p.2 := by
  rcases item with fault | ⟨n⟩ | ⟨op, offset⟩ <;> rfl

/-- At the beginning, what is no `-` has to be an operand. -/
theorem read_first (after : Nat) (h : ∀ offset, item ≠ .ok (.operator .minus offset)) :
    Due.first.read source item = (Due.number after).read source item := by
  rcases item with fault | ⟨n⟩ | ⟨op, offset⟩
  · rfl
  · rfl
  · refine if_neg ?_
    rintro rfl
    exact h offset rfl

/-- The items are read one behind the other. -/
theorem run_cons (h : due.read source item = .ok due') :
    due.run source (item :: items) = due'.run source items := by
  rw [run, List.foldlM_cons, h]
  rfl

/-- An item that is not due ends the reading. -/
theorem run_cons_error {fault : Fault} (h : due.read source item = .error fault) :
    due.run source (item :: items) = .error fault := by
  rw [run, List.foldlM_cons, h]
  rfl

/-- Some items are read, and then the others. -/
theorem run_append (h : due.run source front = .ok due') :
    due.run source (front ++ items) = due'.run source items := by
  rw [run, List.foldlM_append, ← run, h]
  rfl

end

end Due

/-! ### Outcomes -/

/-- **What a call comes to** that uses up `segment` and leaves `left`, when `Holds` says
which tokens a value holds. The items of the segment are due in turn, but for the last one
if it is refused. -/
inductive Outcome {α : Type} (source : String) (due : Due) (Holds : List Token → α → Prop) :
    (segment left : List Item) → Except Fault α → Prop
  /-- An item is not due. It is used up, and what is behind it is left. -/
  | refused {before : List Item} {due' : Due} {item : Item} {fault : Fault} {left : List Item} :
      due.run source before = .ok due' → due'.read source item = .error fault →
      Outcome source due Holds (before ++ [item]) left (.error fault)
  /-- The items run out where something is missing. -/
  | ended {segment : List Item} {due' : Due} {fault : Fault} :
      due.run source segment = .ok due' → due'.atEnd source = some fault →
      Outcome source due Holds segment [] (.error fault)
  /-- The items run out where nothing is missing. -/
  | complete {tokens : List Token} {due' : Due} {a : α} :
      due.run source (tokens.map .ok) = .ok due' → due'.atEnd source = none → Holds tokens a →
      Outcome source due Holds (tokens.map .ok) [] (.ok a)

namespace Outcome

section

variable {α : Type} {source : String} {due due' : Due} {Holds : List Token → α → Prop}
  {segment left : List Item} {r : Except Fault α} {fault : Fault}

/-- The first item is not due. -/
theorem of_read {item : Item} (h : due.read source item = .error fault) :
    Outcome source due Holds [item] left (.error fault) := by
  have hnone : due.run source [] = .ok due := rfl
  exact .refused hnone h

/-- The second item is not due. -/
theorem of_read_read {item next : Item} (h : due.read source item = .ok due')
    (hnext : due'.read source next = .error fault) :
    Outcome source due Holds [item, next] left (.error fault) := by
  have hitem : due.run source [item] = .ok due' := Due.run_cons source h
  exact .refused hitem hnext

/-- What comes behind some tokens. -/
theorem prepend {β : Type} {Holds' : List Token → β → Prop}
    (h : Outcome source due' Holds segment left r) (front : List Token)
    (hfront : due.run source (front.map .ok) = .ok due') (f : α → β)
    (hholds : ∀ tokens a, Holds tokens a → Holds' (front ++ tokens) (f a)) :
    Outcome source due Holds' (front.map .ok ++ segment) left (r.map f) := by
  cases h with
  | refused hbefore hitem =>
      rw [← List.append_assoc]
      exact .refused ((Due.run_append source hfront).trans hbefore) hitem
  | ended hsegment hend => exact .ended ((Due.run_append source hfront).trans hsegment) hend
  | complete htokens hend ha =>
      rw [← List.map_append]
      refine .complete ?_ hend (hholds _ _ ha)
      rw [List.map_append]
      exact (Due.run_append source hfront).trans htokens

/-- If some item is not due, the outcome is the fault of the first such item. -/
theorem eq_error_of_run (h : Outcome source due Holds segment left r)
    (hrun : due.run source (segment ++ left) = .error fault) : r = .error fault := by
  cases h with
  | refused hbefore hitem =>
      rw [List.append_assoc, Due.run_append source hbefore, List.singleton_append,
        Due.run_cons_error source hitem] at hrun
      rw [Except.error.inj hrun]
  -- a segment without a refused item is all there is
  | ended hsegment _ =>
      rw [List.append_nil, hsegment] at hrun
      cases hrun
  | complete htokens _ _ =>
      rw [List.append_nil, htokens] at hrun
      cases hrun

end

end Outcome

/-! ### The parser -/

section

variable (source : String)

/-- **After the first operand**, the parser reads operators and operands as they are due. -/
theorem outcome_parseRest (items : List Item) :
    ∃ segment, items = segment ++ (parseRest source items).2 ∧
      Outcome source .operator ExpressesRest segment (parseRest source items).2
        (parseRest source items).1 := by
  fun_induction parseRest source items with
  | case1 =>
      have hempty : Due.run source .operator (([] : List Token).map .ok) = .ok .operator := rfl
      exact ⟨[], rfl, .complete hempty rfl .nil⟩
  | case2 item items fault hop =>
      refine ⟨[item], rfl, .of_read ?_⟩
      rw [Due.read_operator, hop]
      rfl
  | case3 item op offset hop =>
      obtain rfl := operator_of_operatorOfItem hop
      have hread : Due.operator.read source (.ok (.operator op offset)) = .ok (.number offset) :=
        rfl
      exact ⟨[_], rfl, .ended (Due.run_cons source hread) rfl⟩
  | case4 item op offset next left hop fault hoperand =>
      obtain rfl := operator_of_operatorOfItem hop
      refine ⟨[_, next], rfl, .of_read_read rfl ?_⟩
      rw [Due.read_number, hoperand]
      rfl
  | case5 item op offset next left hop operand hoperand rest unread hrest ih =>
      -- the rest has an outcome of its own; the operator and the operand stand in front of it
      rw [hrest] at ih
      obtain ⟨segment, rfl, houtcome⟩ := ih
      obtain rfl := operator_of_operatorOfItem hop
      obtain ⟨n, rfl, -, -⟩ := number_of_operandOfItem hoperand
      refine ⟨_ :: _ :: segment, rfl,
        houtcome.prepend [.operator op offset, .number n] ?_ _ fun tokens rest h =>
          .cons (operandOfItem_number_eq_ok_iff.mp hoperand) h⟩
      refine (Due.run_cons source rfl).trans ((Due.run_cons source ?_).trans rfl)
      rw [Due.read_number, hoperand]
      rfl

/-- In the place of the first operand, a fault is that of the first item that is not due. -/
theorem outcome_of_parseFirst_error {items left : List Item} {fault : Fault}
    (h : parseFirst source items = (.error fault, left)) :
    ∃ segment, items = segment ++ left ∧
      Outcome source .first Expresses segment left (.error fault) := by
  have hminus (offset : Nat) :
      Due.first.read source (.ok (.operator .minus offset)) = .ok (.number offset) := rfl
  cases firstOperand_of_parseFirst h with
  | nothing =>
      have hempty : Due.run source .first [] = .ok .first := rfl
      exact ⟨[], rfl, .ended hempty rfl⟩
  | @unsigned offset => exact ⟨[_], rfl, .ended (Due.run_cons source (hminus offset)) rfl⟩
  | @signedRefused offset item _ _ hitem =>
      refine ⟨[_, item], rfl, .of_read_read (hminus offset) ?_⟩
      rw [Due.read_number, hitem]
      rfl
  | @refused item _ _ hne hitem =>
      refine ⟨[item], rfl, .of_read ?_⟩
      rw [Due.read_first source 0 hne, Due.read_number, hitem]
      rfl

/-- The first operand is a number, with a `-` in front or without. -/
theorem expresses_of_parseFirst_ok {items left : List Item} {x : Operand}
    (h : parseFirst source items = (.ok x, left)) :
    ∃ front : List Token, items = front.map .ok ++ left ∧
      Due.run source .first (front.map .ok) = .ok .operator ∧
      ∀ tokens rest, ExpressesRest tokens rest → Expresses (front ++ tokens) ⟨x, rest⟩ := by
  cases firstOperand_of_parseFirst h with
  | @signed offset item _ x hitem =>
      obtain ⟨n, rfl, -, -⟩ := number_of_operandOfItem hitem
      refine ⟨[.operator .minus offset, .number n], rfl, ?_, fun tokens rest hrest =>
        .negative (operandOfItem_number_eq_ok_iff.mp hitem) hrest⟩
      refine (Due.run_cons source rfl).trans ((Due.run_cons source ?_).trans rfl)
      rw [Due.read_number, hitem]
      rfl
  | plain hitem =>
      obtain ⟨n, rfl, -, -⟩ := number_of_operandOfItem hitem
      have hne (offset : Nat) : (.ok (.number n) : Item) ≠ .ok (.operator .minus offset) := by
        simp
      refine ⟨[.number n], rfl, (Due.run_cons source ?_).trans rfl, fun tokens rest hrest =>
        .plain (operandOfItem_number_eq_ok_iff.mp hitem) hrest⟩
      rw [Due.read_first source 0 hne, Due.read_number, hitem]
      rfl

end

/-- **Every call of the parser has the outcome of its items.** -/
theorem outcome_parse (p : Parser) :
    ∃ segment, p.items = segment ++ p.parse.2.items ∧
      Outcome p.source .first Expresses segment p.parse.2.items p.parse.1 := by
  rw [parse]
  split
  · next fault left hfirst => exact outcome_of_parseFirst_error p.source hfirst
  · next x items hfirst =>
      obtain ⟨front, hitems, hrun, hexpresses⟩ := expresses_of_parseFirst_ok p.source hfirst
      obtain ⟨segment, hsegment, houtcome⟩ := outcome_parseRest p.source items
      refine ⟨front.map .ok ++ segment, ?_, houtcome.prepend front hrun _ hexpresses⟩
      rw [hitems, List.append_assoc, ← hsegment]

end Parser

/-! ### Whole texts -/

/-- **An expression was read from all the tokens of its text.** -/
theorem exists_expresses_of_parse {mode : Mode} {text : String} {e : Expression}
    (h : parse mode text = .ok e) :
    ∃ tokens, tokenize mode text = .ok tokens ∧ Expresses tokens e := by
  obtain ⟨segment, hitems, houtcome⟩ := (Parser.ofText mode text).outcome_parse
  rw [parse] at h
  rw [h] at houtcome
  generalize (Parser.ofText mode text).parse.2.items = left at hitems houtcome
  cases houtcome with
  | @complete tokens _ _ _ _ hexpresses =>
      have hall : (Lexer.ofText mode text).items = tokens.map .ok :=
        hitems.trans (List.append_nil _)
      exact ⟨tokens, by rw [tokenize, hall, collect_map_ok], hexpresses⟩

end Keypad
