import Keypad.Proofs.Expression.Faults
import Mathlib.Data.List.Infix

/-!
# What a fault is about

A fault names a place, and the place is that of an item: of the item where the parser stopped,
or of a divisor. This module says of every fault **which items it is about**, and which
neighbours they have: a number stands where an operator is due only behind another number, a
trailing operator is the last item, and a divisor stands behind a `/`.

The parser can be asked again after a fault, and goes on with the items that are left. These
are the last of the items of the text, so whatever it finds then is about items of the text
too.

## Main results

* `Parser.Blames.of_suffix`: a fault about some last items is about all items.
* `Parser.blames_parse`: the faults of the parser are about its items.
* `Parser.blames_afterCalls`: **so are those of every later call.**
* `blames_evaluate`: the faults of evaluation are about the items of the text.
-/

namespace Keypad

namespace Parser

/-- The fault is about the items, and says so of `source`. -/
inductive Blames (source : String) (items : List Item) : Fault → Prop
  /-- The lexer handed the fault out. -/
  | handedOut {fault : Fault} : [.error fault] <:+: items → Blames source items fault
  /-- An operator stands where a number is due. -/
  | expectedNumber {op : Operator} {offset : Nat} :
      [.ok (.operator op offset)] <:+: items →
      Blames source items (.expectedNumber op ⟨source, .ofSize offset 1⟩)
  /-- A run of digits and points is no literal. -/
  | invalidNumber {n : Numeral} :
      [.ok (.number n)] <:+: items → Binary64.ofLiteral? n.literal = none →
      Blames source items (.invalidNumber n.literal ⟨source, n.span⟩)
  /-- A number stands behind a number. -/
  | expectedOperator {m n : Numeral} :
      [.ok (.number m), .ok (.number n)] <:+: items →
      Blames source items (.expectedOperator ⟨source, n.span⟩)
  /-- The last item is an operator. -/
  | trailingOperator {op : Operator} {offset : Nat} :
      [.ok (.operator op offset)] <:+ items →
      Blames source items (.trailingOperator ⟨source, .ofSize offset 1⟩)
  /-- A literal behind a `/` has the value zero. -/
  | divisionByZero {offset : Nat} {n : Numeral} {x : Float} :
      [.ok (.operator .slash offset), .ok (.number n)] <:+: items →
      Binary64.ofLiteral? n.literal = some x → (x == 0.0) = true →
      Blames source items (.divisionByZero ⟨source, n.span⟩)
  /-- There is no item. -/
  | emptyExpression : Blames source items .emptyExpression

/-- **A fault about some last items is about all items.** -/
theorem Blames.of_suffix {source : String} {items all : List Item} {fault : Fault}
    (h : Blames source items fault) (hsuffix : items <:+ all) : Blames source all fault := by
  cases h with
  | handedOut h => exact .handedOut (h.trans hsuffix.isInfix)
  | expectedNumber h => exact .expectedNumber (h.trans hsuffix.isInfix)
  | invalidNumber h hnone => exact .invalidNumber (h.trans hsuffix.isInfix) hnone
  | expectedOperator h => exact .expectedOperator (h.trans hsuffix.isInfix)
  | trailingOperator h => exact .trailingOperator (h.trans hsuffix)
  | divisionByZero h hvalue hzero =>
      exact .divisionByZero (h.trans hsuffix.isInfix) hvalue hzero
  | emptyExpression => exact .emptyExpression

/-! ### One item -/

section Item

variable {source : String} {item : Item} {items : List Item}

/-- An operand was read from a number. -/
theorem number_of_operandOfItem {x : Operand} (h : operandOfItem source item = .ok x) :
    ∃ n, item = .ok (.number n) ∧ Binary64.ofLiteral? n.literal = some x.value ∧
      x.span = n.span := by
  rcases item with fault | ⟨n⟩ | ⟨op, offset⟩
  · cases h
  · rw [operandOfItem] at h
    split at h
    · next value hvalue =>
        obtain rfl := Except.ok.inj h
        exact ⟨n, rfl, hvalue, rfl⟩
    · cases h
  · cases h

/-- An operator was read from that operator. -/
theorem operator_of_operatorOfItem {op : Operator} {offset : Nat}
    (h : operatorOfItem source item = .ok (op, offset)) : item = .ok (.operator op offset) := by
  rcases item with fault | ⟨n⟩ | ⟨op', offset'⟩
  · cases h
  · cases h
  · obtain ⟨rfl, rfl⟩ := Prod.mk.inj (Except.ok.inj h)
    rfl

/-- An item that is no operand is blamed. -/
theorem blames_operandOfItem {fault : Fault} (h : operandOfItem source item = .error fault) :
    Blames source (item :: items) fault := by
  have hfirst : [item] <:+: item :: items := (List.prefix_append [item] items).isInfix
  rcases item with fault' | ⟨n⟩ | ⟨op, offset⟩
  · obtain rfl := Except.error.inj h
    exact .handedOut hfirst
  · rw [operandOfItem] at h
    split at h
    · cases h
    · next hnone =>
        obtain rfl := Except.error.inj h
        exact .invalidNumber hfirst hnone
  · obtain rfl := Except.error.inj h
    exact .expectedNumber hfirst

/-- Behind a number, an item that is no operator is blamed. -/
theorem blames_operatorOfItem {fault : Fault} (m : Numeral)
    (h : operatorOfItem source item = .error fault) :
    Blames source (.ok (.number m) :: item :: items) fault := by
  rcases item with fault' | ⟨n⟩ | ⟨op, offset⟩
  · obtain rfl := Except.error.inj h
    exact .handedOut ⟨[.ok (.number m)], items, rfl⟩
  · obtain rfl := Except.error.inj h
    exact .expectedOperator ⟨[], items, rfl⟩
  · cases h

end Item

/-! ### All items -/

section Items

variable {source : String} {items left : List Item}

/-- **After the first operand**, which was a number, a fault is about that number and the
items behind it. -/
theorem blames_parseRest {fault : Fault} (m : Numeral)
    (h : parseRest source items = (.error fault, left)) :
    Blames source (.ok (.number m) :: items) fault := by
  fun_induction parseRest source items generalizing m left with
  | case1 => cases (Prod.mk.inj h).1
  | case2 item items fault' hop =>
      obtain rfl := Except.error.inj (Prod.mk.inj h).1
      exact blames_operatorOfItem m hop
  | case3 item op offset hop =>
      obtain rfl := Except.error.inj (Prod.mk.inj h).1
      obtain rfl := operator_of_operatorOfItem hop
      exact .trailingOperator ⟨[.ok (.number m)], rfl⟩
  | case4 item op offset next left' hop fault' hoperand =>
      obtain rfl := Except.error.inj (Prod.mk.inj h).1
      exact (blames_operandOfItem hoperand).of_suffix ⟨[.ok (.number m), item], rfl⟩
  | case5 item op offset next left' hop operand hoperand rest unread hrest ih =>
      obtain ⟨n, rfl, -, -⟩ := number_of_operandOfItem hoperand
      cases rest with
      | error fault' =>
          obtain rfl := Except.error.inj (Prod.mk.inj h).1
          exact (ih n hrest).of_suffix ⟨[.ok (.number m), item], rfl⟩
      | ok rest => cases (Prod.mk.inj h).1

/-- An operand after the first was read from a number behind its operator. -/
theorem infix_of_mem_parseRest {operands : List (Operator × Operand)} {op : Operator}
    {x : Operand} (h : parseRest source items = (.ok operands, left))
    (hmem : (op, x) ∈ operands) :
    ∃ offset n, [.ok (.operator op offset), .ok (.number n)] <:+: items ∧
      Binary64.ofLiteral? n.literal = some x.value ∧ x.span = n.span := by
  fun_induction parseRest source items generalizing operands left with
  | case1 =>
      obtain rfl := Except.ok.inj (Prod.mk.inj h).1
      cases hmem
  | case2 | case3 | case4 => cases (Prod.mk.inj h).1
  | case5 item op' offset next left' hop operand hoperand rest unread hrest ih =>
      cases rest with
      | error fault => cases (Prod.mk.inj h).1
      | ok rest =>
          obtain rfl := Except.ok.inj (Prod.mk.inj h).1
          rcases List.mem_cons.mp hmem with heq | hmem
          · obtain ⟨rfl, rfl⟩ := Prod.mk.inj heq
            obtain rfl := operator_of_operatorOfItem hop
            obtain ⟨n, rfl, hvalue, hspan⟩ := number_of_operandOfItem hoperand
            exact ⟨offset, n, ⟨[], left', rfl⟩, hvalue, hspan⟩
          · obtain ⟨offset', n, hinfix, hread⟩ := ih hrest hmem
            have hsuffix : left' <:+ item :: next :: left' := ⟨[item, next], rfl⟩
            exact ⟨offset', n, hinfix.trans hsuffix.isInfix, hread⟩

/-- What is left after the first operand are last items. -/
theorem suffix_parseRest (source : String) (items : List Item) :
    (parseRest source items).2 <:+ items := by
  fun_induction parseRest source items with
  | case1 => exact List.suffix_rfl
  | case2 item items fault hop => exact List.suffix_cons _ _
  | case3 item op offset hop => exact List.nil_suffix
  | case4 item op offset next left hop fault hoperand => exact ⟨[item, next], rfl⟩
  | case5 item op offset next left hop operand hoperand rest unread hrest ih =>
      rw [hrest] at ih
      exact ih.trans ⟨[item, next], rfl⟩

/-- A fault in the place of the first operand is about the items. -/
theorem blames_parseFirst {fault : Fault} (h : parseFirst source items = (.error fault, left)) :
    Blames source items fault := by
  cases firstOperand_of_parseFirst h with
  | nothing => exact .emptyExpression
  | unsigned => exact .trailingOperator List.suffix_rfl
  | signedRefused hitem =>
      exact (blames_operandOfItem hitem).of_suffix (List.suffix_cons _ _)
  | refused _ hitem => exact blames_operandOfItem hitem

/-- The first operand ends with a number, and behind it are the items that are left. -/
theorem suffix_of_parseFirst {x : Operand} (h : parseFirst source items = (.ok x, left)) :
    ∃ n, .ok (.number n) :: left <:+ items := by
  cases firstOperand_of_parseFirst h with
  | signed hitem =>
      obtain ⟨n, rfl, -, -⟩ := number_of_operandOfItem hitem
      exact ⟨n, List.suffix_cons _ _⟩
  | plain hitem =>
      obtain ⟨n, rfl, -, -⟩ := number_of_operandOfItem hitem
      exact ⟨n, List.suffix_rfl⟩

/-- What is left in the place of the first operand are last items. -/
theorem suffix_parseFirst (source : String) (items : List Item) :
    (parseFirst source items).2 <:+ items := by
  obtain ⟨r, left, hfirst⟩ : ∃ r left, parseFirst source items = (r, left) := ⟨_, _, rfl⟩
  rw [hfirst]
  cases firstOperand_of_parseFirst hfirst with
  | nothing => exact List.suffix_rfl
  | unsigned => exact List.nil_suffix
  | signedRefused | signed => exact ⟨[_, _], rfl⟩
  | refused | plain => exact List.suffix_cons _ _

end Items

/-! ### Calls of the parser -/

/-- The parser after so many calls. -/
def afterCalls (p : Parser) : Nat → Parser
  | 0 => p
  | n + 1 => p.parse.2.afterCalls n

/-- **The faults of the parser are about its items.** -/
theorem blames_parse {p : Parser} {fault : Fault} (h : p.parse.1 = .error fault) :
    Blames p.source p.items fault := by
  rw [parse] at h
  split at h
  · next fault' left hfirst =>
      obtain rfl := Except.error.inj h
      exact blames_parseFirst hfirst
  · next first items hfirst =>
      obtain ⟨m, hsuffix⟩ := suffix_of_parseFirst hfirst
      cases hrest : parseRest p.source items with
      | mk rest left =>
          rw [hrest] at h
          cases rest with
          | ok operands => cases h
          | error fault' =>
              obtain rfl := Except.error.inj h
              exact (blames_parseRest m hrest).of_suffix hsuffix

/-- An operand after the first was read from a number behind its operator. -/
theorem infix_of_mem_parse {p : Parser} {e : Expression} {op : Operator} {x : Operand}
    (h : p.parse.1 = .ok e) (hmem : (op, x) ∈ e.rest) :
    ∃ offset n, [.ok (.operator op offset), .ok (.number n)] <:+: p.items ∧
      Binary64.ofLiteral? n.literal = some x.value ∧ x.span = n.span := by
  rw [parse] at h
  split at h
  · cases h
  · next first items hfirst =>
      have hsuffix := suffix_parseFirst p.source p.items
      rw [hfirst] at hsuffix
      cases hrest : parseRest p.source items with
      | mk rest left =>
          rw [hrest] at h
          cases rest with
          | error fault => cases h
          | ok operands =>
              obtain rfl := Except.ok.inj h
              obtain ⟨offset, n, hinfix, hread⟩ := infix_of_mem_parseRest hrest hmem
              exact ⟨offset, n, hinfix.trans hsuffix.isInfix, hread⟩

/-- A call leaves last items of the same text. -/
theorem suffix_parse (p : Parser) : p.parse.2.source = p.source ∧ p.parse.2.items <:+ p.items := by
  have hfirst := suffix_parseFirst p.source p.items
  rw [parse]
  split
  · next fault left heq =>
      rw [heq] at hfirst
      exact ⟨rfl, hfirst⟩
  · next first items heq =>
      rw [heq] at hfirst
      exact ⟨rfl, (suffix_parseRest p.source items).trans hfirst⟩

/-- Calls leave last items of the same text. -/
theorem suffix_afterCalls (p : Parser) (n : Nat) :
    (p.afterCalls n).source = p.source ∧ (p.afterCalls n).items <:+ p.items := by
  induction n generalizing p with
  | zero => exact ⟨rfl, List.suffix_rfl⟩
  | succ n ih =>
      obtain ⟨hsource, hitems⟩ := ih p.parse.2
      obtain ⟨hsource', hitems'⟩ := p.suffix_parse
      exact ⟨hsource.trans hsource', hitems.trans hitems'⟩

/-- **The faults of every later call** are about the items of the text as well. -/
theorem blames_afterCalls {p : Parser} {n : Nat} {fault : Fault}
    (h : (p.afterCalls n).parse.1 = .error fault) : Blames p.source p.items fault := by
  obtain ⟨hsource, hitems⟩ := p.suffix_afterCalls n
  have hblames := blames_parse h
  rw [hsource] at hblames
  exact hblames.of_suffix hitems

end Parser

/-- **The faults of evaluation are about the items of the text.** -/
theorem blames_evaluate {mode : Mode} {text : String} {fault : Fault}
    (h : evaluate mode text = .error fault) :
    Parser.Blames text (Lexer.ofText mode text).items fault := by
  obtain ⟨-, hparse | ⟨e, x, hparse, hx, hzero, rfl⟩⟩ := fault_of_evaluate h
  · exact Parser.blames_parse hparse
  · obtain ⟨offset, n, hinfix, hvalue, hspan⟩ := Parser.infix_of_mem_parse hparse hx
    rw [hspan]
    exact .divisionByZero hinfix hvalue hzero

end Keypad
