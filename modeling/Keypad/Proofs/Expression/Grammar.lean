import Keypad.Expression.Evaluator
import Keypad.Proofs.Decimal.Literal
import Keypad.Proofs.Token.Lexeme
import Mathlib.Data.List.Forall2

/-!
# The grammar of expressions

Which texts hold an expression, and which expression they hold. The grammar is

```
-? N ([+-*/] N)*
```

where `N` is a literal: digits and points, with at least one digit and at most one point.
A sentence of the grammar is a `Phrase`. In permissive mode a text matches a phrase when the
phrase is what is left of it without the characters that a keypad cannot type; in strict
mode, when the text is the phrase with blanks in front of its lexemes, between them and
behind them.

The parser sees items and not characters, so the proof goes through the lexemes of the
phrase: the parser accepts exactly the items that say a phrase, and a lexer finds exactly
the lexemes that a text spells.

## Main results

* `Phrase.parse_of_says`, `Phrase.says_of_parse`: the parser accepts the items that say a
  phrase, and reads its operands and operators.
* `Phrase.matches_iff_says`: a text matches a phrase exactly when its items say it.
* `parse_eq_ok_iff_matches`: the parser accepts exactly the grammar, in both modes.
-/

namespace Keypad

/-! ### Phrases -/

/-- A literal as it stands in a phrase. -/
abbrev Literal := { cs : List Char // IsLiteral cs }

/-- A sentence of the grammar `-? N ([+-*/] N)*`. -/
structure Phrase where
  /-- Whether there is a `-` in front. -/
  negative : Bool
  /-- The first literal. -/
  first : Literal
  /-- The operators, each with the literal on its right. -/
  rest : List (Operator × Literal)

namespace Phrase

/-- The lexemes of `([+-*/] N)*`. -/
def restLexemes (rest : List (Operator × Literal)) : List Lexeme :=
  rest.flatMap fun p => [.operator p.1, .number p.2]

/-- The lexemes of a phrase. -/
def lexemes (p : Phrase) : List Lexeme :=
  (if p.negative then [.operator .minus] else []) ++ .number p.first :: restLexemes p.rest

/-- Whether a text is the phrase, in either mode. -/
def Matches (p : Phrase) : Mode → List Char → Prop
  | .permissive, cs => Lexer.typed cs = p.lexemes.flatMap Lexeme.chars
  | .strict, cs => Spelled p.lexemes cs

/-- An operand holds the value nearest to a literal. -/
def Reads (literal : Literal) (x : Float) : Prop :=
  Binary64.ofLiteral? (String.ofList literal) = some x

/-- Operators and operands are those of the phrase, in the same order. -/
def ReadsRest (literals : List (Operator × Literal)) (operands : List (Operator × Operand)) :
    Prop :=
  List.Forall₂ (fun p q => q.1 = p.1 ∧ Reads p.2 q.2.value) literals operands

/-- An expression holds the operands and operators of the phrase in order, with the first
operand negated if there is a `-` in front, and no other. -/
def Denotes (p : Phrase) (e : Expression) : Prop :=
  (∃ x, Reads p.first x ∧ e.first.value = if p.negative then -x else x) ∧
    ReadsRest p.rest e.rest

end Phrase

/-- A literal has a value. -/
theorem Literal.exists_reads (literal : Literal) : ∃ x, Phrase.Reads literal x := by
  obtain ⟨d, hd⟩ := Option.isSome_iff_exists.mp (Decimal.isSome_ofLiteral?_iff.mpr literal.2)
  exact ⟨Binary64.ofDecimal d, by simp [Phrase.Reads, Binary64.ofLiteral?, hd]⟩

/-- Only a literal has a value. -/
theorem isLiteral_of_ofLiteral? {text : String} {x : Float}
    (h : Binary64.ofLiteral? text = some x) : IsLiteral text.toList := by
  rw [Binary64.ofLiteral?, Option.map_eq_some_iff] at h
  obtain ⟨d, hd, -⟩ := h
  exact Decimal.isSome_ofLiteral?_iff.mp (by rw [hd]; rfl)

/-! ### The parser reads phrases -/

namespace Parser

/-- The operand that an item stands for is the value of a literal that the item says. -/
theorem operandOfItem_eq_ok {source : String} {item : Item} {x : Operand}
    (h : operandOfItem source item = .ok x) :
    ∃ literal : Literal, item.lexeme? = some (.number literal) ∧
      Phrase.Reads literal x.value := by
  rcases item with fault | ⟨n⟩ | ⟨op, offset⟩
  · exact nomatch h
  · rw [operandOfItem] at h
    split at h
    · next value hvalue =>
        obtain rfl := Except.ok.inj h
        refine ⟨⟨n.literal.toList, isLiteral_of_ofLiteral? hvalue⟩, rfl, ?_⟩
        rw [Phrase.Reads, String.ofList_toList]
        exact hvalue
    · exact nomatch h
  · exact nomatch h

/-- An item that says a literal stands for an operand. -/
theorem operandOfItem_of_says (source : String) {item : Item} {literal : Literal}
    (h : item.lexeme? = some (.number literal)) :
    ∃ x, operandOfItem source item = .ok x ∧ Phrase.Reads literal x.value := by
  rcases item with fault | ⟨n⟩ | ⟨op, offset⟩
  · exact nomatch h
  · obtain ⟨x, hx⟩ := literal.exists_reads
    have hliteral : n.literal.toList = literal := by
      simpa [Item.lexeme?, Token.lexeme] using h
    have hread : Binary64.ofLiteral? n.literal = some x := by
      rw [← String.ofList_toList (s := n.literal), hliteral]
      exact hx
    exact ⟨⟨x, n.span⟩, by rw [operandOfItem, hread], hx⟩
  · exact absurd h (by simp [Item.lexeme?, Token.lexeme])

/-- The operator that an item stands for is what the item says. -/
theorem operatorOfItem_eq_ok {source : String} {item : Item} {op : Operator} {offset : Nat}
    (h : operatorOfItem source item = .ok (op, offset)) :
    item.lexeme? = some (.operator op) := by
  rcases item with fault | ⟨n⟩ | ⟨op', offset'⟩
  · exact nomatch h
  · exact nomatch h
  · obtain ⟨rfl, -⟩ := Prod.mk.inj (Except.ok.inj h)
    rfl

/-- An item that says an operator stands for it. -/
theorem operatorOfItem_of_says (source : String) {item : Item} {op : Operator}
    (h : item.lexeme? = some (.operator op)) :
    ∃ offset, operatorOfItem source item = .ok (op, offset) := by
  rcases item with fault | ⟨n⟩ | ⟨op', offset⟩
  · exact nomatch h
  · exact absurd h (by simp [Item.lexeme?, Token.lexeme])
  · obtain rfl : op' = op := by simpa [Item.lexeme?, Token.lexeme] using h
    exact ⟨offset, rfl⟩

/-- **The ways in which the first operand is read**, or is not, and what is left. -/
inductive FirstOperand (source : String) :
    List Item → Except Fault Operand → List Item → Prop
  /-- There is no item. -/
  | nothing : FirstOperand source [] (.error .emptyExpression) []
  /-- There is a sign and nothing behind it. -/
  | unsigned {offset : Nat} :
      FirstOperand source [.ok (.operator .minus offset)]
        (.error (.trailingOperator ⟨source, .ofSize offset 1⟩)) []
  /-- The item behind a sign is no operand. -/
  | signedRefused {offset : Nat} {item : Item} {left : List Item} {fault : Fault} :
      operandOfItem source item = .error fault →
      FirstOperand source (.ok (.operator .minus offset) :: item :: left) (.error fault) left
  /-- The item behind a sign is an operand, and is negated. -/
  | signed {offset : Nat} {item : Item} {left : List Item} {x : Operand} :
      operandOfItem source item = .ok x →
      FirstOperand source (.ok (.operator .minus offset) :: item :: left)
        (.ok ⟨-x.value, ⟨offset, x.span.stop⟩⟩) left
  /-- The first item is neither a sign nor an operand. -/
  | refused {item : Item} {left : List Item} {fault : Fault} :
      (∀ offset, item ≠ .ok (.operator .minus offset)) →
      operandOfItem source item = .error fault →
      FirstOperand source (item :: left) (.error fault) left
  /-- The first item is an operand. -/
  | plain {item : Item} {left : List Item} {x : Operand} :
      operandOfItem source item = .ok x → FirstOperand source (item :: left) (.ok x) left

/-- The first operand is read in one of these ways. -/
theorem firstOperand_of_parseFirst {source : String} {items left : List Item}
    {r : Except Fault Operand} (h : parseFirst source items = (r, left)) :
    FirstOperand source items r left := by
  rw [parseFirst.eq_def] at h
  split at h
  · obtain ⟨rfl, rfl⟩ := Prod.mk.inj h
    exact .nothing
  · next offset items =>
      cases items with
      | nil =>
          obtain ⟨rfl, rfl⟩ := Prod.mk.inj h
          exact .unsigned
      | cons item items =>
          obtain ⟨rfl, rfl⟩ := Prod.mk.inj h
          cases hitem : operandOfItem source item with
          | error fault => exact .signedRefused hitem
          | ok x => exact .signed hitem
  · next item items hminus =>
      obtain ⟨hr, rfl⟩ := Prod.mk.inj h
      cases hitem : operandOfItem source item with
      | error fault =>
          rw [← hr, hitem]
          exact .refused (fun offset heq => hminus offset heq) hitem
      | ok x =>
          rw [← hr, hitem]
          exact .plain hitem

/-- What is accepted after the first operand says operators and literals in turn. -/
theorem says_of_parseRest {source : String} {items left : List Item}
    {operands : List (Operator × Operand)}
    (h : parseRest source items = (.ok operands, left)) :
    ∃ literals, Says items (Phrase.restLexemes literals) ∧
      Phrase.ReadsRest literals operands := by
  fun_induction parseRest source items generalizing operands left with
  | case1 =>
      obtain ⟨hoperands, -⟩ := Prod.mk.inj h
      obtain rfl := Except.ok.inj hoperands
      exact ⟨[], Says.nil_iff.mpr rfl, List.Forall₂.nil⟩
  | case2 item items fault hop => exact nomatch (Prod.mk.inj h).1
  | case3 item op offset hop => exact nomatch (Prod.mk.inj h).1
  | case4 item op offset next left' hop fault hoperand => exact nomatch (Prod.mk.inj h).1
  | case5 item op offset next left' hop operand hoperand rest unread hrest ih =>
      obtain ⟨hoperands, -⟩ := Prod.mk.inj h
      cases rest with
      | error fault => exact nomatch hoperands
      | ok rest =>
          obtain rfl := Except.ok.inj hoperands
          obtain ⟨literals, hsays, hreads⟩ := ih hrest
          obtain ⟨literal, hliteral, hread⟩ := operandOfItem_eq_ok hoperand
          refine ⟨(op, literal) :: literals, ?_, List.Forall₂.cons ⟨rfl, hread⟩ hreads⟩
          exact Says.cons_iff.mpr ⟨_, _, rfl, operatorOfItem_eq_ok hop,
            Says.cons_iff.mpr ⟨_, _, rfl, hliteral, hsays⟩⟩

/-- Items that say operators and literals in turn are accepted after the first operand. -/
theorem parseRest_of_says (source : String) {literals : List (Operator × Literal)}
    {items : List Item} (h : Says items (Phrase.restLexemes literals)) :
    ∃ operands, parseRest source items = (.ok operands, []) ∧
      Phrase.ReadsRest literals operands := by
  induction literals generalizing items with
  | nil =>
      cases items with
      | nil => exact ⟨[], rfl, List.Forall₂.nil⟩
      | cons item items => exact absurd (Says.cons_iff.mp h) (by simp [Phrase.restLexemes])
  | cons p literals ih =>
      obtain ⟨op, literal⟩ := p
      obtain ⟨item, items, rfl, hsaysOp, h⟩ := Says.iff_cons.mp h
      obtain ⟨next, items, rfl, hsaysLiteral, hrest⟩ := Says.iff_cons.mp h
      obtain ⟨offset, hop⟩ := operatorOfItem_of_says source hsaysOp
      obtain ⟨x, hx, hread⟩ := operandOfItem_of_says source hsaysLiteral
      obtain ⟨operands, hparse, hreads⟩ := ih hrest
      refine ⟨(op, x) :: operands, ?_, List.Forall₂.cons ⟨rfl, hread⟩ hreads⟩
      rw [parseRest.eq_def]
      simp only [hop, hx, hparse]
      rfl

/-- The first operand is read from a literal, with a `-` in front or without. -/
theorem says_of_parseFirst {source : String} {items left : List Item} {x : Operand}
    (h : parseFirst source items = (.ok x, left)) :
    ∃ (negative : Bool) (literal : Literal) (said : List Item) (v : Float),
      items = said ++ left ∧
      Says said ((if negative then [.operator .minus] else []) ++ [.number literal]) ∧
      Phrase.Reads literal v ∧ x.value = if negative then -v else v := by
  cases firstOperand_of_parseFirst h with
  | @signed offset item _ x hitem =>
      obtain ⟨literal, hliteral, hread⟩ := operandOfItem_eq_ok hitem
      exact ⟨true, literal, [_, item], x.value, rfl, Says.cons_iff.mpr
        ⟨_, _, rfl, rfl, Says.cons_iff.mpr ⟨_, _, rfl, hliteral, Says.nil_iff.mpr rfl⟩⟩,
        hread, rfl⟩
  | @plain item _ _ hitem =>
      obtain ⟨literal, hliteral, hread⟩ := operandOfItem_eq_ok hitem
      exact ⟨false, literal, [item], x.value, rfl,
        Says.cons_iff.mpr ⟨_, _, rfl, hliteral, Says.nil_iff.mpr rfl⟩, hread, rfl⟩

/-- A literal, with a `-` in front or without, is read as the first operand. -/
theorem parseFirst_of_says (source : String) {negative : Bool} {literal : Literal}
    {items : List Item} {ls : List Lexeme}
    (h : Says items ((if negative then [.operator .minus] else []) ++
      .number literal :: ls)) :
    ∃ x v left, parseFirst source items = (.ok x, left) ∧ Says left ls ∧
      Phrase.Reads literal v ∧ x.value = if negative then -v else v := by
  cases negative with
  | false =>
      obtain ⟨item, left, rfl, hliteral, hleft⟩ := Says.iff_cons.mp h
      obtain ⟨x, hx, hread⟩ := operandOfItem_of_says source hliteral
      refine ⟨x, x.value, left, ?_, hleft, hread, rfl⟩
      rw [parseFirst.eq_def]
      split
      · next heq => cases heq
      · next heq =>
          obtain ⟨rfl, -⟩ := List.cons.inj heq
          exact absurd hliteral (by simp [Item.lexeme?, Token.lexeme])
      · next heq =>
          obtain ⟨rfl, rfl⟩ := List.cons.inj heq
          rw [hx]
  | true =>
      obtain ⟨item, items, rfl, hminus, h⟩ := Says.iff_cons.mp h
      obtain ⟨next, left, rfl, hliteral, hleft⟩ := Says.iff_cons.mp h
      obtain ⟨x, hx, hread⟩ := operandOfItem_of_says source hliteral
      rcases item with fault | ⟨n⟩ | ⟨op, offset⟩
      · cases hminus
      · exact absurd hminus (by simp [Item.lexeme?, Token.lexeme])
      · obtain rfl : op = .minus := by simpa [Item.lexeme?, Token.lexeme] using hminus
        refine ⟨⟨-x.value, ⟨offset, x.span.stop⟩⟩, x.value, left, ?_, hleft, hread, rfl⟩
        rw [parseFirst, parseOperand, hx]
        rfl

end Parser

namespace Phrase

/-- **What the parser accepts says a phrase**, and the expression holds its operands and
operators. -/
theorem says_of_parse {p : Parser} {e : Expression} (h : p.parse.1 = .ok e) :
    ∃ phrase : Phrase, Says p.items phrase.lexemes ∧ phrase.Denotes e := by
  rw [Parser.parse] at h
  split at h
  · exact nomatch h
  · next first items hfirst =>
      obtain ⟨negative, literal, said, v, hitems, hsaid, hread, hvalue⟩ :=
        Parser.says_of_parseFirst hfirst
      cases hrest : Parser.parseRest p.source items with
      | mk rest left =>
          rw [hrest] at h
          cases rest with
          | error fault => exact nomatch h
          | ok operands =>
              obtain rfl := Except.ok.inj h
              obtain ⟨literals, hsays, hreads⟩ := Parser.says_of_parseRest hrest
              refine ⟨⟨negative, literal, literals⟩, ?_, ⟨v, hread, hvalue⟩, hreads⟩
              have h := hsaid.append hsays
              rw [List.append_assoc] at h
              rw [hitems]
              exact h

/-- **Items that say a phrase are accepted.** -/
theorem parse_of_says (source : String) {items : List Item} {phrase : Phrase}
    (h : Says items phrase.lexemes) :
    ∃ e, (⟨source, items⟩ : Parser).parse.1 = .ok e ∧ phrase.Denotes e := by
  obtain ⟨first, v, left, hfirst, hleft, hread, hvalue⟩ :=
    Parser.parseFirst_of_says source h
  obtain ⟨operands, hrest, hreads⟩ := Parser.parseRest_of_says source hleft
  refine ⟨⟨first, operands⟩, ?_, ⟨v, hread, hvalue⟩, hreads⟩
  simp only [Parser.parse, hfirst, hrest]
  rfl

/-! ### Texts match the phrases that their items say -/

/-- No literal follows a literal. -/
theorem head?_restLexemes (rest : List (Operator × Literal)) (literal : List Char) :
    (restLexemes rest).head? ≠ some (.number literal) := by
  cases rest with
  | nil => exact nofun
  | cons p rest => exact nofun

/-- A literal in front of lexemes that begin with no other is found again. -/
theorem separate_number (literal : Literal) {ls : List Lexeme}
    (hnext : ∀ next, ls.head? ≠ some (.number next)) (hls : Lexer.Separate ls) :
    Lexer.Separate (.number literal :: ls) := by
  obtain ⟨c, hc, -⟩ := literal.2.digit
  exact ⟨List.ne_nil_of_mem hc, literal.2.isNumeric, hnext, hls⟩

/-- The lexemes after the first literal are found again. -/
theorem separate_restLexemes (rest : List (Operator × Literal)) :
    Lexer.Separate (restLexemes rest) := by
  induction rest with
  | nil => trivial
  | cons p rest ih => exact separate_number p.2 (head?_restLexemes rest) ih

/-- The lexemes of a phrase are found again. -/
theorem separate_lexemes (p : Phrase) : Lexer.Separate p.lexemes := by
  have hfirst : Lexer.Separate (.number p.first :: restLexemes p.rest) :=
    separate_number p.first (head?_restLexemes p.rest) (separate_restLexemes p.rest)
  rw [lexemes]
  split
  · exact hfirst
  · exact hfirst

/-- Strict reading says a phrase exactly where the text spells it. -/
theorem says_stream_iff (p : Phrase) (source : String) (cs : List Char) :
    Says (Lexer.stream source .strict none 0 cs) p.lexemes ↔ Spelled p.lexemes cs :=
  ⟨fun h => Lexer.spelledAfter_of_says h,
    fun h => Lexer.says_of_spelled source h p.separate_lexemes 0⟩

/-- **A text matches a phrase exactly when its items say it.** -/
theorem matches_iff_says (p : Phrase) (mode : Mode) (text : String) :
    p.Matches mode text.toList ↔ Says (Lexer.ofText mode text).items p.lexemes := by
  rw [Lexer.items_ofText]
  cases mode with
  | strict => exact (p.says_stream_iff text text.toList).symm
  | permissive =>
      have hstrict := Lexer.lexemes_permissive text text text.toList none none rfl 0 0
      rw [Says, hstrict, ← Says, says_stream_iff]
      constructor
      · intro h
        rw [show Lexer.typed text.toList = p.lexemes.flatMap Lexeme.chars from h]
        exact Spelled.flatMap_chars p.lexemes
      · intro h
        exact h.eq_flatMap_chars fun c hc => Lexer.isBlank_of_mem_typed hc

/-- A phrase matches its own characters, in both modes. -/
theorem matches_chars (p : Phrase) (mode : Mode) :
    p.Matches mode (p.lexemes.flatMap Lexeme.chars) := by
  cases mode with
  | strict => exact Spelled.flatMap_chars p.lexemes
  | permissive => exact Lexer.typed_flatMap_chars p.separate_lexemes

end Phrase

/-! ### Faults of the parser -/

namespace Parser

/-- All faults among the items say that the text is malformed. -/
def Malformed (items : List Item) : Prop :=
  ∀ fault, .error fault ∈ items → fault.kind = .malformed

/-- An item that is no operand is malformed. -/
theorem kind_of_operandOfItem {source : String} {item : Item} {items : List Item}
    {fault : Fault} (h : operandOfItem source item = .error fault)
    (hitems : Malformed (item :: items)) : fault.kind = .malformed := by
  rcases item with fault' | ⟨n⟩ | ⟨op, offset⟩
  · obtain rfl := Except.error.inj h
    exact hitems _ (List.mem_cons_self ..)
  · rw [operandOfItem] at h
    split at h
    · exact nomatch h
    · obtain rfl := Except.error.inj h
      rfl
  · obtain rfl := Except.error.inj h
    rfl

/-- An item that is no operator is malformed. -/
theorem kind_of_operatorOfItem {source : String} {item : Item} {items : List Item}
    {fault : Fault} (h : operatorOfItem source item = .error fault)
    (hitems : Malformed (item :: items)) : fault.kind = .malformed := by
  rcases item with fault' | ⟨n⟩ | ⟨op, offset⟩
  · obtain rfl := Except.error.inj h
    exact hitems _ (List.mem_cons_self ..)
  · obtain rfl := Except.error.inj h
    rfl
  · exact nomatch h

/-- Fewer items have fewer faults. -/
theorem Malformed.tail {item : Item} {items : List Item} (h : Malformed (item :: items)) :
    Malformed items :=
  fun fault hfault => h fault (List.mem_cons_of_mem _ hfault)

/-- What is refused in the place of a first operand is malformed, and so are the items that
are left. -/
theorem kind_of_parseFirst {source : String} {items left : List Item}
    {r : Except Fault Operand} (h : parseFirst source items = (r, left))
    (hitems : Malformed items) :
    Malformed left ∧ ∀ fault, r = .error fault → fault.kind = .malformed := by
  cases firstOperand_of_parseFirst h with
  | nothing =>
      refine ⟨hitems, ?_⟩
      rintro fault ⟨⟩
      rfl
  | unsigned =>
      refine ⟨hitems.tail, ?_⟩
      rintro fault ⟨⟩
      rfl
  | signedRefused hitem =>
      refine ⟨hitems.tail.tail, ?_⟩
      rintro fault ⟨⟩
      exact kind_of_operandOfItem hitem hitems.tail
  | refused _ hitem =>
      refine ⟨hitems.tail, ?_⟩
      rintro fault ⟨⟩
      exact kind_of_operandOfItem hitem hitems
  | signed _ => exact ⟨hitems.tail.tail, fun fault hfault => nomatch hfault⟩
  | plain _ => exact ⟨hitems.tail, fun fault hfault => nomatch hfault⟩

/-- What is refused after the first operand is malformed. -/
theorem kind_of_parseRest {source : String} {items left : List Item} {fault : Fault}
    (h : parseRest source items = (.error fault, left)) (hitems : Malformed items) :
    fault.kind = .malformed := by
  fun_induction parseRest source items generalizing left with
  | case1 => exact nomatch (Prod.mk.inj h).1
  | case2 item items fault' hop =>
      obtain rfl := Except.error.inj (Prod.mk.inj h).1
      exact kind_of_operatorOfItem hop hitems
  | case3 item op offset hop =>
      obtain rfl := Except.error.inj (Prod.mk.inj h).1
      rfl
  | case4 item op offset next left' hop fault' hoperand =>
      obtain rfl := Except.error.inj (Prod.mk.inj h).1
      exact kind_of_operandOfItem hoperand hitems.tail
  | case5 item op offset next left' hop operand hoperand rest unread hrest ih =>
      have hresult := (Prod.mk.inj h).1
      cases rest with
      | error fault' =>
          obtain rfl := Except.error.inj hresult
          exact ih hrest hitems.tail.tail
      | ok rest => exact nomatch hresult

/-- **What the parser refuses is malformed.** -/
theorem kind_of_parse {p : Parser} {fault : Fault} (h : p.parse.1 = .error fault)
    (hitems : Malformed p.items) : fault.kind = .malformed := by
  rw [Parser.parse] at h
  split at h
  · next fault' left hfirst =>
      obtain rfl := Except.error.inj h
      exact (kind_of_parseFirst hfirst hitems).2 _ rfl
  · next first items hfirst =>
      cases hrest : parseRest p.source items with
      | mk rest left =>
          rw [hrest] at h
          cases rest with
          | error fault' =>
              obtain rfl := Except.error.inj h
              exact kind_of_parseRest hrest (kind_of_parseFirst hfirst hitems).1
          | ok operands => exact nomatch h

end Parser

/-- A text that holds no expression is malformed. -/
theorem kind_of_parse_eq_error {mode : Mode} {text : String} {fault : Fault}
    (h : parse mode text = .error fault) : fault.kind = .malformed := by
  refine Parser.kind_of_parse h ?_
  intro fault' hmem
  rw [Parser.ofText, Lexer.items_ofText] at hmem
  exact Lexer.kind_of_error_mem_stream hmem

/-! ### The grammar -/

/-- A text that matches a phrase holds an expression, with the operands and operators of
the phrase. -/
theorem parse_of_matches {mode : Mode} {text : String} {p : Phrase}
    (h : p.Matches mode text.toList) : ∃ e, parse mode text = .ok e ∧ p.Denotes e :=
  Phrase.parse_of_says text ((p.matches_iff_says mode text).mp h)

/-- A text that holds an expression matches a phrase. -/
theorem exists_matches_of_parse {mode : Mode} {text : String} {e : Expression}
    (h : parse mode text = .ok e) : ∃ p : Phrase, p.Matches mode text.toList := by
  obtain ⟨p, hsays, -⟩ := Phrase.says_of_parse h
  exact ⟨p, (p.matches_iff_says mode text).mpr hsays⟩

/-- **The parser accepts exactly its grammar**, in both modes. A text holds an expression
exactly when it matches a phrase; the expression then holds the operands and operators of
the phrase in order, with the first operand negated exactly if the phrase begins with `-`.
Any other text but the empty one is malformed, and the empty text is worth zero. -/
theorem parse_eq_ok_iff_matches (mode : Mode) (text : String) :
    ((∃ e, parse mode text = .ok e) ↔ ∃ p : Phrase, p.Matches mode text.toList) ∧
      (∀ (e : Expression) (p : Phrase), parse mode text = .ok e →
        p.Matches mode text.toList → p.Denotes e) ∧
      (text ≠ "" → (¬ ∃ p : Phrase, p.Matches mode text.toList) →
        ∃ fault, evaluate mode text = .error fault ∧ fault.kind = .malformed) ∧
      evaluate mode "" = .ok 0.0 := by
  refine ⟨⟨?_, ?_⟩, ?_, ?_, rfl⟩
  · rintro ⟨e, h⟩
    exact exists_matches_of_parse h
  · rintro ⟨p, h⟩
    obtain ⟨e, he, -⟩ := parse_of_matches h
    exact ⟨e, he⟩
  · intro e p he hp
    obtain ⟨e', he', hdenotes⟩ := parse_of_matches hp
    obtain rfl := Except.ok.inj (he.symm.trans he')
    exact hdenotes
  · intro hne hnone
    cases hparse : parse mode text with
    | ok e => exact absurd (exists_matches_of_parse hparse) hnone
    | error fault =>
        refine ⟨fault, ?_, kind_of_parse_eq_error hparse⟩
        rw [evaluate, if_neg (by rwa [String.isEmpty_iff]), hparse]
        rfl

end Keypad
