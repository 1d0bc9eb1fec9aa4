import Keypad.Proofs.Expression.Reading
import Keypad.Proofs.Token.Calls

/-!
# A parser that is asked again and again

A parser holds a lexer and asks it for one token at a time, as it needs them; a call leaves
the lexer where it stopped, and the next call goes on from there. Nothing is reset after a
fault. This module gives the parser in that form and shows that a call comes to the same as
reading from the list of all items that are left, so **the queue of the lexer is never lost
between two calls**.

What a call reads and comes to is then known from its outcome. The items of a text are
tokens and possibly one fault behind them, and this settles when the calls are over: once a
call has come to the end of the items, every later call finds nothing.

## Main definitions

* `Lexer.parse`: a call of the parser, with one step of the lexer for each token.
* `Lexer.answer`, `Lexer.unread`: what the calls come to, and what they leave.
* `Fault.isLast`: the faults behind which nothing is left.

## Main results

* `Lexer.parse_eq`: a call reads from the items that are left.
* `parser_calls`: **what every call reads and comes to.**
-/

namespace Keypad

/-! ### Reading items, one operand at a time -/

namespace Parser

section

variable {source : String} {item : Item} {items left : List Item}

/-- What is no `-` is read as the first operand. -/
theorem parseFirst_of_ne_minus (h : ∀ offset, item ≠ .ok (.operator .minus offset)) :
    parseFirst source (item :: items) = (operandOfItem source item, items) := by
  rcases item with fault | ⟨n⟩ | ⟨op, offset⟩
  · rfl
  · rfl
  · cases op with
    | minus => exact absurd rfl (h offset)
    | plus | star | slash => rfl

/-- Without an operand behind the operator, the reading ends. -/
theorem parseRest_of_operand_error {op : Operator} {offset : Nat} {fault : Fault}
    (hop : operatorOfItem source item = .ok (op, offset))
    (h : parseOperand source offset items = (.error fault, left)) :
    parseRest source (item :: items) = (.error fault, left) := by
  cases items with
  | nil =>
      obtain ⟨hfault, rfl⟩ := Prod.mk.inj h
      rw [parseRest_of_trailing hop, Except.error.inj hfault]
  | cons next items =>
      obtain ⟨hnext, rfl⟩ := Prod.mk.inj h
      exact parseRest_of_not_operand hop hnext

/-- With an operand behind the operator, the reading goes on. -/
theorem parseRest_of_operand_ok {op : Operator} {offset : Nat} {x : Operand}
    (hop : operatorOfItem source item = .ok (op, offset))
    (h : parseOperand source offset items = (.ok x, left)) :
    parseRest source (item :: items) =
      ((parseRest source left).1.map ((op, x) :: ·), (parseRest source left).2) := by
  cases items with
  | nil => cases (Prod.mk.inj h).1
  | cons next items =>
      obtain ⟨hnext, rfl⟩ := Prod.mk.inj h
      exact parseRest_of_operand hop hnext

end

end Parser

/-! ### Tokens on demand -/

namespace Lexer

/-- Asks for an operand after the operator at `after`. -/
def parseOperand (l : Lexer) (after : Nat) : Except Fault Operand × Lexer :=
  match l.next with
  | (none, l') => (.error (.trailingOperator ⟨l.source, .ofSize after 1⟩), l')
  | (some item, l') => (Parser.operandOfItem l.source item, l')

/-- Asks for the first operand, which may carry a sign. -/
def parseFirst (l : Lexer) : Except Fault Operand × Lexer :=
  match l.next with
  | (none, l') => (.error .emptyExpression, l')
  | (some (.ok (.operator .minus offset)), l') =>
      let (operand, left) := l'.parseOperand offset
      (operand.map fun x => ⟨-x.value, ⟨offset, x.span.stop⟩⟩, left)
  | (some item, l') => (Parser.operandOfItem l.source item, l')

/-- An operand takes a step that hands something out. -/
theorem parseOperand_weight_lt {l l' : Lexer} {after : Nat} {x : Operand}
    (h : l.parseOperand after = (.ok x, l')) : l'.weight < l.weight := by
  rw [parseOperand] at h
  split at h
  · cases (Prod.mk.inj h).1
  · next hnext =>
      obtain ⟨-, rfl⟩ := Prod.mk.inj h
      exact next_weight_lt hnext

/-- Asks for operators and operands until there is nothing left. -/
def parseRest (l : Lexer) : Except Fault (List (Operator × Operand)) × Lexer :=
  match _step : l.next with
  | (none, l') => (.ok [], l')
  | (some item, l') =>
      match Parser.operatorOfItem l.source item with
      | .error fault => (.error fault, l')
      | .ok (op, offset) =>
          match _operand : l'.parseOperand offset with
          | (.error fault, left) => (.error fault, left)
          | (.ok operand, left) =>
              let (rest, unread) := left.parseRest
              (rest.map ((op, operand) :: ·), unread)
termination_by l.weight
decreasing_by exact Nat.lt_trans (parseOperand_weight_lt _operand) (next_weight_lt _step)

/-- **One call**: asks for an expression, and leaves the lexer where it stopped. -/
def parse (l : Lexer) : Except Fault Expression × Lexer :=
  match l.parseFirst with
  | (.error fault, left) => (.error fault, left)
  | (.ok first, l') =>
      let (rest, left) := l'.parseRest
      (rest.map fun rest => ⟨first, rest⟩, left)

/-! ### Asking comes to the same as reading the items -/

/-- An operand is asked for as it is read from the items. -/
theorem parseOperand_eq (l : Lexer) (after : Nat) :
    Parser.parseOperand l.source after l.items =
        ((l.parseOperand after).1, (l.parseOperand after).2.items) ∧
      (l.parseOperand after).2.source = l.source := by
  have hsource := l.source_next
  rw [parseOperand]
  split
  · next l' hnext =>
      rw [items_of_next_none hnext, items_of_exhausted hnext]
      rw [hnext] at hsource
      exact ⟨rfl, hsource⟩
  · next item l' hnext =>
      rw [items_of_next_some hnext]
      rw [hnext] at hsource
      exact ⟨rfl, hsource⟩

/-- So is the first operand. -/
theorem parseFirst_eq (l : Lexer) :
    Parser.parseFirst l.source l.items = (l.parseFirst.1, l.parseFirst.2.items) ∧
      l.parseFirst.2.source = l.source := by
  have hsource := l.source_next
  rw [parseFirst]
  split
  · next l' hnext =>
      rw [items_of_next_none hnext, items_of_exhausted hnext]
      rw [hnext] at hsource
      exact ⟨rfl, hsource⟩
  · next offset l' hnext =>
      rw [items_of_next_some hnext]
      rw [hnext] at hsource
      obtain ⟨hoperand, hleft⟩ := l'.parseOperand_eq offset
      rw [hsource] at hoperand
      refine ⟨?_, hleft.trans hsource⟩
      rw [Parser.parseFirst, hoperand]
  · next item l' hminus hnext =>
      rw [items_of_next_some hnext]
      rw [hnext] at hsource
      refine ⟨Parser.parseFirst_of_ne_minus ?_, hsource⟩
      rintro offset rfl
      exact hminus offset rfl

/-- So are the operators and operands behind it. -/
theorem parseRest_eq (l : Lexer) :
    Parser.parseRest l.source l.items = (l.parseRest.1, l.parseRest.2.items) ∧
      l.parseRest.2.source = l.source := by
  have hsource := l.source_next
  fun_induction parseRest l with
  | case1 l l' hnext =>
      rw [items_of_next_none hnext, items_of_exhausted hnext]
      rw [hnext] at hsource
      exact ⟨rfl, hsource⟩
  | case2 l item l' hnext fault hop =>
      rw [items_of_next_some hnext, Parser.parseRest_of_not_operator hop]
      rw [hnext] at hsource
      exact ⟨rfl, hsource⟩
  | case3 l item l' hnext op offset hop fault left hoperand =>
      rw [hnext] at hsource
      obtain ⟨hread, hleft⟩ := l'.parseOperand_eq offset
      rw [hsource, hoperand] at hread
      rw [hoperand] at hleft
      rw [items_of_next_some hnext, Parser.parseRest_of_operand_error hop hread]
      exact ⟨rfl, hleft.trans hsource⟩
  | case4 l item l' hnext op offset hop operand left hoperand rest unread hrest ih =>
      rw [hnext] at hsource
      obtain ⟨hread, hleft⟩ := l'.parseOperand_eq offset
      rw [hsource, hoperand] at hread
      rw [hoperand] at hleft
      obtain ⟨hrest', hunread⟩ := ih left.source_next
      rw [hrest] at hrest' hunread
      rw [hleft, hsource] at hrest' hunread
      rw [items_of_next_some hnext, Parser.parseRest_of_operand_ok hop hread, hrest']
      exact ⟨rfl, hunread⟩

/-- **A call reads from the items that are left**, and leaves what it has not read. -/
theorem parse_eq (l : Lexer) :
    (⟨l.source, l.items⟩ : Parser).parse = (l.parse.1, ⟨l.source, l.parse.2.items⟩) ∧
      l.parse.2.source = l.source := by
  obtain ⟨hfirst, hleft⟩ := l.parseFirst_eq
  rw [parse]
  split
  · next fault left h =>
      rw [h] at hfirst hleft
      refine ⟨?_, hleft⟩
      simp only [Parser.parse, hfirst]
  · next first left h =>
      rw [h] at hfirst hleft
      obtain ⟨hrest, hsource⟩ := left.parseRest_eq
      rw [hleft] at hrest hsource
      refine ⟨?_, hsource⟩
      simp only [Parser.parse, hfirst, hrest]

/-! ### Call after call -/

/-- The lexer after so many calls. -/
def afterParses (l : Lexer) : Nat → Lexer
  | 0 => l
  | n + 1 => l.parse.2.afterParses n

/-- What the call with the given number comes to; the first has the number zero. -/
def answer (l : Lexer) (n : Nat) : Except Fault Expression := (l.afterParses n).parse.1

/-- The items that are left for the call with the given number. -/
def unread (l : Lexer) (n : Nat) : List Item := (l.afterParses n).items

/-- One call more leaves what the last one left. -/
theorem afterParses_succ (l : Lexer) (n : Nat) :
    l.afterParses (n + 1) = (l.afterParses n).parse.2 := by
  induction n generalizing l with
  | zero => rfl
  | succ n ih => rw [afterParses, ih, afterParses]

/-- **The calls are those of a parser** on the items of the lexer. -/
theorem afterCalls_eq (l : Lexer) (n : Nat) :
    (⟨l.source, l.items⟩ : Parser).afterCalls n = ⟨l.source, l.unread n⟩ ∧
      (l.afterParses n).source = l.source := by
  induction n generalizing l with
  | zero => exact ⟨rfl, rfl⟩
  | succ n ih =>
      obtain ⟨hparse, hsource⟩ := l.parse_eq
      obtain ⟨hcalls, hafter⟩ := ih l.parse.2
      rw [hsource] at hcalls hafter
      rw [Parser.afterCalls, hparse, hcalls]
      exact ⟨rfl, hafter⟩

/-- What a call comes to is read from the items that are left for it, and from them alone. -/
theorem parse_unread (l : Lexer) (n : Nat) :
    (⟨l.source, l.unread n⟩ : Parser).parse = (l.answer n, ⟨l.source, l.unread (n + 1)⟩) := by
  obtain ⟨hparse, -⟩ := (l.afterParses n).parse_eq
  rw [(l.afterCalls_eq n).2] at hparse
  rw [unread, hparse, answer, unread, afterParses_succ]

/-- **Every call has the outcome of the items that are left for it.** -/
theorem outcome_answer (l : Lexer) (n : Nat) :
    ∃ segment, l.unread n = segment ++ l.unread (n + 1) ∧
      Parser.Outcome l.source .first Expresses segment (l.unread (n + 1)) (l.answer n) := by
  have houtcome := (⟨l.source, l.unread n⟩ : Parser).outcome_parse
  rw [l.parse_unread n] at houtcome
  exact houtcome

end Lexer

/-! ### The end of the items -/

/-- The faults of a call behind which nothing is left. -/
def Fault.isLast : Fault → Bool
  | .emptyExpression | .trailingOperator _ | .unexpectedCharacter _ _ => true
  | .divisionByZero _ | .reciprocalOfZero | .nonFiniteResult | .expectedNumber _ _
  | .expectedOperator _ | .invalidNumber _ _ => false

namespace Parser

section

variable {α : Type} {source : String} {due due' : Due} {Holds : List Token → α → Prop}
  {items segment left : List Item} {r : Except Fault α}

/-- An item that is not due is a fault itself, or a token that does not end the calls. -/
theorem Due.error_or_isLast_of_read {item : Item} {fault : Fault} :
    due.read source item = .error fault → item = .error fault ∨ fault.isLast = false := by
  fun_cases Due.read with
  | case1 => rintro ⟨⟩; exact .inl rfl
  | case2 | case4 | case7 | case9 => exact nofun
  | case3 | case5 | case6 | case8 | case10 => rintro ⟨⟩; exact .inr rfl

/-- Behind an item, a first number is never due. -/
theorem Due.read_ne_first (item : Item) : due.read source item ≠ .ok .first := by
  fun_cases Due.read <;> exact nofun

/-- Only at the beginning, a first number is due. -/
theorem Due.eq_nil_of_run (h : due.run source items = .ok .first) : items = [] := by
  induction items generalizing due with
  | nil => rfl
  | cons item items ih =>
      cases hitem : due.read source item with
      | error fault => cases (run_cons_error source hitem).symm.trans h
      | ok due' =>
          rw [run_cons source hitem] at h
          obtain rfl := ih h
          rw [Except.ok.inj h] at hitem
          exact absurd hitem (read_ne_first item)

/-- After a result at the end of the items, nothing is left. -/
theorem Outcome.left_eq_nil (h : Outcome source due Holds segment left r)
    (hitems : FaultLast (segment ++ left)) (hr : ∀ fault, r = .error fault → fault.isLast = true) :
    left = [] := by
  cases h with
  | @refused before due' item fault left _ hitem =>
      rcases Due.error_or_isLast_of_read hitem with rfl | hlast
      · rw [List.append_assoc] at hitems
        exact hitems.of_append.of_error.1
      · exact absurd (hr fault rfl) (by rw [hlast]; decide)
  | ended | complete => rfl

/-- **The expression is empty** exactly if there is no item. -/
theorem Outcome.eq_emptyExpression_iff (h : Outcome source .first Holds segment left r)
    (hitems : FaultLast (segment ++ left)) :
    r = .error .emptyExpression ↔ segment ++ left = [] := by
  cases h with
  | @refused before due' item fault left _ hitem =>
      refine iff_of_false ?_ (by simp)
      intro hempty
      obtain rfl := Except.error.inj hempty
      rcases Due.error_or_isLast_of_read hitem with rfl | hlast
      · rw [List.append_assoc] at hitems
        obtain ⟨-, c, site, hfault⟩ := hitems.of_append.of_error
        cases hfault
      · cases hlast
  | @ended segment due' fault hrun hend =>
      rw [List.append_nil]
      constructor
      · intro hempty
        obtain rfl := Except.error.inj hempty
        cases due' with
        | first => exact Due.eq_nil_of_run hrun
        | number | operator => cases hend
      · rintro rfl
        obtain rfl := Except.ok.inj hrun
        rw [Option.some.inj hend]
  | @complete tokens due' a hrun hend _ =>
      refine iff_of_false nofun ?_
      intro hnil
      rw [List.append_nil] at hnil
      rw [hnil] at hrun
      obtain rfl := Except.ok.inj hrun
      cases hend

end

end Parser

/-! ### The calls for a text -/

namespace Lexer

/-- What is left for a call are last items. -/
theorem faultLast_unread {l : Lexer} (h : FaultLast l.items) (n : Nat) :
    FaultLast (l.unread n) := by
  obtain ⟨-, hsuffix⟩ := (⟨l.source, l.items⟩ : Parser).suffix_afterCalls n
  rw [(l.afterCalls_eq n).1] at hsuffix
  obtain ⟨front, (hfront : front ++ l.unread n = l.items)⟩ := hsuffix
  rw [← hfront] at h
  exact h.of_append

/-- When nothing is left for a call, nothing is left for a later one. -/
theorem unread_eq_nil_of_le {l : Lexer} {m n : Nat} (h : l.unread n = []) (hle : n ≤ m) :
    l.unread m = [] := by
  induction m, hle using Nat.le_induction with
  | base => exact h
  | succ m _ ih =>
      obtain ⟨segment, hsegment, -⟩ := l.outcome_answer m
      exact (List.append_eq_nil_iff.mp (hsegment.symm.trans ih)).2

end Lexer

/-- **What every call of a parser reads and comes to.** The items of a text are tokens, and
possibly one fault behind them. The calls ask for them one at a time, which comes to the same
as reading from the list of those that are left; so what a call comes to, and what it leaves,
depends on these items alone.

Every call uses up a segment in front of what is left, up to the first item that is not due
(`Parser.Outcome`): it comes to the fault of that item, or to the fault of ending where
something is missing, or to the expression that the segment holds. The expression is empty
exactly if nothing was left for the call. After an expression, after the faults of an ending
and after a foreign character nothing is left, and so every later call finds nothing. -/
theorem parser_calls (mode : Mode) (text : String) :
    let l := Lexer.ofText mode text
    (l.unread 0 = l.items ∧ FaultLast l.items) ∧
    (∀ n, (Parser.ofText mode text).afterCalls n = ⟨text, l.unread n⟩ ∧
      ((Parser.ofText mode text).afterCalls n).parse = (l.answer n, ⟨text, l.unread (n + 1)⟩)) ∧
    (∀ (mode' : Mode) (m n : Nat), (Lexer.ofText mode' text).unread m = l.unread n →
      (Lexer.ofText mode' text).answer m = l.answer n ∧
        (Lexer.ofText mode' text).unread (m + 1) = l.unread (n + 1)) ∧
    (∀ n, ∃ segment, l.unread n = segment ++ l.unread (n + 1) ∧
      Parser.Outcome text .first Expresses segment (l.unread (n + 1)) (l.answer n)) ∧
    (∀ n, l.answer n = .error .emptyExpression ↔ l.unread n = []) ∧
    ∀ n, (∀ fault, l.answer n = .error fault → fault.isLast = true) →
      ∀ m, n < m → l.answer m = .error .emptyExpression := by
  intro l
  have hitems : FaultLast l.items := Lexer.faultLast_items mode text
  have hempty (n : Nat) : l.answer n = .error .emptyExpression ↔ l.unread n = [] := by
    obtain ⟨segment, hsegment, houtcome⟩ := l.outcome_answer n
    rw [hsegment]
    exact houtcome.eq_emptyExpression_iff (hsegment ▸ l.faultLast_unread hitems n)
  refine ⟨⟨rfl, hitems⟩, ?_, ?_, l.outcome_answer, hempty, ?_⟩
  · intro n
    have hcalls : (Parser.ofText mode text).afterCalls n = ⟨text, l.unread n⟩ :=
      (l.afterCalls_eq n).1
    rw [hcalls]
    exact ⟨rfl, l.parse_unread n⟩
  · intro mode' m n heq
    have hparse : (⟨text, (Lexer.ofText mode' text).unread m⟩ : Parser).parse =
        ((Lexer.ofText mode' text).answer m, ⟨text, (Lexer.ofText mode' text).unread (m + 1)⟩) :=
      (Lexer.ofText mode' text).parse_unread m
    rw [heq] at hparse
    obtain ⟨hanswer, hleft⟩ := Prod.mk.inj (hparse.symm.trans (l.parse_unread n))
    exact ⟨hanswer, congrArg Parser.items hleft⟩
  · intro n hlast m hlt
    obtain ⟨segment, hsegment, houtcome⟩ := l.outcome_answer n
    have hleft := houtcome.left_eq_nil (hsegment ▸ l.faultLast_unread hitems n) hlast
    exact (hempty m).mpr (Lexer.unread_eq_nil_of_le hleft hlt)

end Keypad
