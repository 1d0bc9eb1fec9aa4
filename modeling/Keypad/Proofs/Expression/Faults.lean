import Keypad.Proofs.Expression.Grammar
import Keypad.Proofs.Expression.Precedence
import Keypad.Proofs.Token.Layout

/-!
# Faults of permissive reading

Permissive reading hands out no fault, and no two numbers side by side. So the parser never
finds a number where an operator is due: all it can object to is that **a number is missing**
where one is due, because an operator stands there, or nothing, or a run of digits and
points that is no literal. Evaluation adds the zero divisor, and nothing else.

## Main results

* `Parser.fault_of_separate`: the faults of the parser on separate tokens.
* `fault_of_evaluate_permissive`: the faults of evaluation in permissive mode.
-/

namespace Keypad

/-- A number is due, and there is none: an operator, the end of the text, or a run of digits
and points that is no literal stands in its place. -/
def Fault.missesNumber : Fault → Bool
  | expectedNumber _ _ | trailingOperator _ | invalidNumber _ _ => true
  | divisionByZero _ | reciprocalOfZero | nonFiniteResult | emptyExpression
  | expectedOperator _ | unexpectedCharacter _ _ => false

namespace Parser

/-- The lexemes begin with an operator, if there are any. -/
def OperatorDue (ls : List Lexeme) : Prop :=
  ∀ literal, ls.head? ≠ some (.number literal)

/-- A token that is no operand leaves a number missing. -/
theorem missesNumber_of_operandOfItem {source : String} {item : Item} {l : Lexeme}
    {fault : Fault} (hl : item.lexeme? = some l)
    (h : operandOfItem source item = .error fault) : fault.missesNumber = true := by
  rcases item with fault' | ⟨n⟩ | ⟨op, offset⟩
  · cases hl
  · rw [operandOfItem] at h
    split at h
    · cases h
    · obtain rfl := Except.error.inj h
      rfl
  · obtain rfl := Except.error.inj h
    rfl

/-- Behind an operand that was read, separate lexemes go on with an operator. -/
theorem operatorDue_of_operandOfItem {source : String} {item : Item} {l : Lexeme}
    {ls : List Lexeme} {x : Operand} (hl : item.lexeme? = some l)
    (h : operandOfItem source item = .ok x) (hls : Lexer.Separate (l :: ls)) :
    OperatorDue ls ∧ Lexer.Separate ls := by
  obtain ⟨literal, hliteral, -⟩ := operandOfItem_eq_ok h
  obtain rfl := Option.some.inj (hl.symm.trans hliteral)
  obtain ⟨-, -, hnext, hrest⟩ := hls
  exact ⟨hnext, hrest⟩

/-- **After the first operand**, separate tokens can only miss a number. -/
theorem missesNumber_of_parseRest {source : String} {items left : List Item}
    {ls : List Lexeme} {fault : Fault} (hlexemes : Says items ls) (hls : Lexer.Separate ls)
    (hdue : OperatorDue ls) (h : parseRest source items = (.error fault, left)) :
    fault.missesNumber = true := by
  fun_induction parseRest source items generalizing ls left with
  | case1 => cases (Prod.mk.inj h).1
  | case2 item items fault' hop =>
      obtain ⟨l, ls', rfl, hl, -⟩ := Says.cons_iff.mp hlexemes
      cases l with
      | number literal => exact absurd rfl (hdue literal)
      | operator op =>
          obtain ⟨offset, hok⟩ := operatorOfItem_of_says source hl
          cases hop.symm.trans hok
  | case3 item op offset hop =>
      obtain rfl := Except.error.inj (Prod.mk.inj h).1
      rfl
  | case4 item op offset next left' hop fault' hoperand =>
      obtain rfl := Except.error.inj (Prod.mk.inj h).1
      obtain ⟨l, ls', rfl, -, hnext⟩ := Says.cons_iff.mp hlexemes
      obtain ⟨l', ls'', rfl, hl', -⟩ := Says.cons_iff.mp hnext
      exact missesNumber_of_operandOfItem hl' hoperand
  | case5 item op offset next left' hop operand hoperand rest unread hrest ih =>
      obtain ⟨l, ls', rfl, hl, hnext⟩ := Says.cons_iff.mp hlexemes
      obtain ⟨l', ls'', rfl, hl', hleft⟩ := Says.cons_iff.mp hnext
      obtain rfl := Option.some.inj (hl.symm.trans (operatorOfItem_eq_ok hop))
      obtain ⟨hdue', hls'⟩ := operatorDue_of_operandOfItem hl' hoperand hls
      cases rest with
      | error fault' =>
          obtain rfl := Except.error.inj (Prod.mk.inj h).1
          exact ih hleft hls' hdue' hrest
      | ok rest => cases (Prod.mk.inj h).1

/-- What reading the first of all items can come to: an operand, with an operator due behind
it, or a fault because a number is missing or there are no items. -/
def FirstRead (items : List Item) : Except Fault Operand × List Item → Prop
  | (.ok _, left) => ∃ ls, Says left ls ∧ Lexer.Separate ls ∧ OperatorDue ls
  | (.error fault, _) => fault.missesNumber = true ∨ fault = .emptyExpression ∧ items = []

/-- A token is read as an operand, or a number is missing. -/
theorem firstRead_operandOfItem {source : String} {items left : List Item} {item : Item}
    {l : Lexeme} {ls : List Lexeme} (hl : item.lexeme? = some l) (hlexemes : Says left ls)
    (hls : Lexer.Separate (l :: ls)) :
    FirstRead items (operandOfItem source item, left) := by
  cases hitem : operandOfItem source item with
  | ok x =>
      obtain ⟨hdue, hls⟩ := operatorDue_of_operandOfItem hl hitem hls
      exact ⟨ls, hlexemes, hls, hdue⟩
  | error fault => exact .inl (missesNumber_of_operandOfItem hl hitem)

/-- Changing the operand changes nothing about what is left. -/
theorem FirstRead.map {items left : List Item} {r : Except Fault Operand}
    (h : FirstRead items (r, left)) (f : Operand → Operand) :
    FirstRead items (r.map f, left) := by
  cases r with
  | ok x => exact h
  | error fault => exact h

/-- **The first operand** of separate tokens is read, or a number is missing, or there is no
token at all. -/
theorem firstRead_parseFirst (source : String) {items : List Item} {ls : List Lexeme}
    (hlexemes : Says items ls) (hls : Lexer.Separate ls) :
    FirstRead items (parseFirst source items) := by
  cases items with
  | nil => exact .inr ⟨rfl, rfl⟩
  | cons item items =>
      obtain ⟨l, ls, rfl, hl, hitems⟩ := Says.cons_iff.mp hlexemes
      rcases item with fault | ⟨n⟩ | ⟨op, offset⟩
      · exact nomatch hl
      · exact firstRead_operandOfItem hl hitems hls
      · cases op with
        | plus | star | slash => exact firstRead_operandOfItem hl hitems hls
        | minus =>
            obtain rfl : .operator .minus = l := Option.some.inj hl
            cases items with
            | nil => exact .inl rfl
            | cons next left =>
                obtain ⟨l', ls', rfl, hl', hleft⟩ := Says.cons_iff.mp hitems
                exact (firstRead_operandOfItem hl' hleft hls).map _

/-- **The faults of the parser on separate tokens**: a number is missing, or there is no
token at all. -/
theorem fault_of_separate {p : Parser} {ls : List Lexeme} {fault : Fault}
    (hlexemes : Says p.items ls) (hls : Lexer.Separate ls) (h : p.parse.1 = .error fault) :
    fault.missesNumber = true ∨ fault = .emptyExpression ∧ p.items = [] := by
  have hfirst := firstRead_parseFirst p.source hlexemes hls
  rw [Parser.parse] at h
  split at h
  · next fault' left heq =>
      rw [heq] at hfirst
      obtain rfl := Except.error.inj h
      exact hfirst
  · next first items heq =>
      rw [heq] at hfirst
      obtain ⟨ls', hlexemes', hls', hdue⟩ := hfirst
      cases hrest : parseRest p.source items with
      | mk rest left =>
          rw [hrest] at h
          cases rest with
          | ok operands => cases h
          | error fault' =>
              obtain rfl := Except.error.inj h
              exact .inl (missesNumber_of_parseRest hlexemes' hls' hdue hrest)

end Parser

/-- An expression has a value unless a divisor is zero, and then that divisor is named. -/
theorem Expression.fault_of_value {e : Expression} {ar : Arithmetic} {source : String}
    {fault : Fault} (h : e.value ar source = .error fault) :
    ∃ x, (.slash, x) ∈ e.rest ∧ (x.value == 0.0) = true ∧
      fault = .divisionByZero ⟨source, x.span⟩ := by
  rw [value] at h
  by_cases hzero : e.HasZeroDivisor
  · obtain ⟨⟨x, hx, hvalue, herror⟩, -⟩ := e.terms_eq_error hzero ar source
    rw [herror] at h
    exact ⟨x, hx, hvalue, (Except.error.inj h).symm⟩
  · obtain ⟨terms, hterms, -⟩ := e.terms_eq_onePass hzero ar source
    rw [hterms] at h
    cases h

/-- A fault of evaluation is a fault of the parser, or a divisor is zero. -/
theorem fault_of_evaluate {mode : Mode} {text : String} {fault : Fault}
    (h : evaluate mode text = .error fault) :
    text ≠ "" ∧ (parse mode text = .error fault ∨
      ∃ e x, parse mode text = .ok e ∧ (.slash, x) ∈ e.rest ∧ (x.value == 0.0) = true ∧
        fault = .divisionByZero ⟨text, x.span⟩) := by
  rw [evaluate] at h
  split at h
  · cases h
  · next hempty =>
      refine ⟨fun htext => hempty (String.isEmpty_iff.mpr htext), ?_⟩
      cases hparse : parse mode text with
      | error fault' =>
          rw [hparse] at h
          obtain rfl := Except.error.inj h
          exact .inl rfl
      | ok e =>
          rw [hparse] at h
          obtain ⟨x, hx, hvalue, hfault⟩ := Expression.fault_of_value h
          exact .inr ⟨e, x, rfl, hx, hvalue, hfault⟩

/-- **The faults of evaluation in permissive mode**: a number is missing, a divisor is zero,
or there is a text, but nothing in it that a keypad can type. -/
theorem fault_of_evaluate_permissive {text : String} {fault : Fault}
    (h : evaluate .permissive text = .error fault) :
    fault.missesNumber = true ∨ (∃ site, fault = .divisionByZero site) ∨
      fault = .emptyExpression ∧ text ≠ "" ∧ Lexer.typed text.toList = [] := by
  obtain ⟨hne, hparse | ⟨e, x, -, -, -, rfl⟩⟩ := fault_of_evaluate h
  · obtain ⟨k, hk⟩ := Cut.exists_permissive text.toList
    rcases Parser.fault_of_separate (k.items_say hk) k.separate hparse with hmisses | ⟨rfl, hnone⟩
    · exact .inl hmisses
    · rw [Parser.ofText, Lexer.items_cut hk, List.map_eq_nil_iff] at hnone
      refine .inr (.inr ⟨rfl, hne, ?_⟩)
      rw [← hk, ← k.layout.complete, hnone]
      rfl
  · exact .inr (.inl ⟨_, rfl⟩)

end Keypad
