import Keypad.Proofs.Expression.Faults

/-!
# Strict reading restricts permissive reading

The items of a text in the two modes are the same up to the first place where the modes
part: a blank that splits a number, or a foreign character. Behind such a place strict
reading goes on with a number or a fault, and the parser cannot get past it: it has found a
number where an operator is due, or that fault, or a split number that is no literal.

So **strict reading comes to the same result as permissive reading, unless it stops with one
of three faults**. A text that a keypad can type has no such place, and is read in the same
way in both modes.

## Main results

* `Lexer.agrees_stream`: the items in the two modes agree as far as strict reading gets.
* `Parser.keeps_parse`: then the results agree, unless the first is one of three faults.
* `evaluate_permissive_of_strict`: what strict reading comes to, permissive reading does.
* `evaluate_of_typed`: a text that a keypad can type has one value in both modes.
-/

namespace Keypad

/-- The faults that strict reading reports and permissive reading may not: permissive
reading drops foreign characters, and a blank inside a number as well. -/
def Fault.dependsOnMode : Fault → Bool
  | unexpectedCharacter _ _ | expectedOperator _ | invalidNumber _ _ => true
  | divisionByZero _ | reciprocalOfZero | nonFiniteResult | emptyExpression
  | expectedNumber _ _ | trailingOperator _ => false

/-! ### Items that agree -/

/-- Where an operator is due, the parser stops at these items, with a fault that depends on
the mode. -/
def Blocked : List Item → Prop
  | .error fault :: _ => fault.dependsOnMode = true
  | .ok (.number _) :: _ => True
  | .ok (.operator _ _) :: _ => False
  | [] => False

/-- The second items are the first, as far as the parser gets with the first. -/
inductive Agrees : List Item → List Item → Prop
  | nil : Agrees [] []
  | cons {items items' : List Item} (item : Item) :
      Agrees items items' → Agrees (item :: items) (item :: items')
  /-- The parser stops at a fault. -/
  | fault {fault : Fault} {items items' : List Item} :
      fault.dependsOnMode = true → Agrees (.error fault :: items) items'
  /-- The parser stops at the number, or behind it. -/
  | number {n : Numeral} {items items' : List Item} :
      Blocked items → Agrees (.ok (.number n) :: items) items'

/-- The same items in front change nothing. -/
theorem Agrees.append_left {items items' : List Item} (h : Agrees items items')
    (front : List Item) : Agrees (front ++ items) (front ++ items') := by
  induction front with
  | nil => exact h
  | cons item front ih => exact .cons item ih

namespace Lexer

/-- Strict reading goes on with a number that it has begun, or with a fault. -/
theorem blocked_stream (source : String) (n : Numeral) (offset : Nat) (cs : List Char) :
    Blocked (stream source .strict (some n) offset cs) := by
  induction cs generalizing n offset with
  | nil => trivial
  | cons c rest ih =>
      cases hglyph : Glyph.ofChar c with
      | numeric =>
          rw [stream_numeric _ _ _ _ _ hglyph]
          exact ih _ _
      | operator op =>
          rw [stream_operator _ _ _ _ _ hglyph]
          trivial
      | blank =>
          rw [stream_blank _ _ _ _ hglyph]
          trivial
      | foreign =>
          rw [stream_foreign _ _ _ _ hglyph]
          rfl

/-- **The items of a text in the two modes agree**, when the same part of a number has been
read in both, and also when strict reading has ended that number already. -/
theorem agrees_stream (source : String) (offset : Nat) (cs : List Char) :
    (∀ pending, Agrees (stream source .strict pending offset cs)
        (stream source .permissive pending offset cs)) ∧
      ∀ n, Agrees (.ok (.number n) :: stream source .strict none offset cs)
        (stream source .permissive (some n) offset cs) := by
  induction cs generalizing offset with
  | nil =>
      refine ⟨?_, fun n => .cons _ .nil⟩
      intro pending
      cases pending with
      | none => exact .nil
      | some n => exact .cons _ .nil
  | cons c rest ih =>
      obtain ⟨hsame, hended⟩ := ih (offset + c.utf8Size)
      cases hglyph : Glyph.ofChar c with
      | numeric =>
          simp only [stream_numeric _ _ _ _ _ hglyph]
          exact ⟨fun pending => hsame _, fun n => .number (blocked_stream ..)⟩
      | operator op =>
          simp only [stream_operator _ _ _ _ _ hglyph]
          refine ⟨fun pending => ?_, fun n => ?_⟩
          · exact Agrees.append_left (.cons _ (hsame none)) _
          · exact .cons _ (.cons _ (hsame none))
      | blank =>
          simp only [stream_blank _ _ _ _ hglyph, stream_skip _ _ _ _ (.inl hglyph)]
          refine ⟨fun pending => ?_, hended⟩
          cases pending with
          | none => exact hsame none
          | some n => exact hended n
      | foreign =>
          simp only [stream_foreign _ _ _ _ hglyph]
          exact ⟨fun pending => .fault rfl, fun n => .number rfl⟩

/-- The items of a text in the two modes agree. -/
theorem agrees_items (text : String) :
    Agrees (ofText .strict text).items (ofText .permissive text).items := by
  rw [items_ofText, items_ofText]
  exact (agrees_stream text 0 text.toList).1 none

end Lexer

/-! ### Results that agree -/

/-- The second result is the first, unless that is a fault that depends on the mode. -/
def Keeps {α : Type} (r r' : Except Fault α) : Prop :=
  r' = r ∨ ∃ fault, r = .error fault ∧ fault.dependsOnMode = true

namespace Keeps

variable {α β : Type}

/-- A fault that depends on the mode may become anything. -/
theorem of_dependsOnMode {fault : Fault} (h : fault.dependsOnMode = true)
    (r' : Except Fault α) : Keeps (.error fault) r' :=
  .inr ⟨fault, rfl, h⟩

/-- What is done with results that agree agrees. -/
theorem bind {r r' : Except Fault α} (h : Keeps r r') (f : α → Except Fault β) :
    Keeps (r >>= f) (r' >>= f) := by
  rcases h with rfl | ⟨fault, rfl, hfault⟩
  · exact .inl rfl
  · exact .of_dependsOnMode hfault _

/-- Results that agree still do so when their values are changed in the same way. -/
theorem map {r r' : Except Fault α} (h : Keeps r r') (f : α → β) :
    Keeps (r.map f) (r'.map f) := by
  rcases h with rfl | ⟨fault, rfl, hfault⟩
  · exact .inl rfl
  · exact .of_dependsOnMode hfault _

end Keeps

namespace Parser

section Steps

variable {source : String} {item next : Item} {items : List Item}

/-- What is no operator ends the reading. -/
theorem parseRest_of_not_operator {fault : Fault}
    (h : operatorOfItem source item = .error fault) :
    parseRest source (item :: items) = (.error fault, items) := by
  rw [parseRest.eq_def]
  simp only [h]

/-- An operator with nothing behind it ends the reading. -/
theorem parseRest_of_trailing {op : Operator} {offset : Nat}
    (h : operatorOfItem source item = .ok (op, offset)) :
    parseRest source [item] =
      (.error (.trailingOperator ⟨source, .ofSize offset 1⟩), []) := by
  rw [parseRest.eq_def]
  simp only [h]

/-- What is no operand ends the reading. -/
theorem parseRest_of_not_operand {op : Operator} {offset : Nat} {fault : Fault}
    (h : operatorOfItem source item = .ok (op, offset))
    (hnext : operandOfItem source next = .error fault) :
    parseRest source (item :: next :: items) = (.error fault, items) := by
  rw [parseRest.eq_def]
  simp only [h, hnext]

/-- An operator and an operand are read, and then what is left. -/
theorem parseRest_of_operand {op : Operator} {offset : Nat} {operand : Operand}
    (h : operatorOfItem source item = .ok (op, offset))
    (hnext : operandOfItem source next = .ok operand) :
    parseRest source (item :: next :: items) =
      ((parseRest source items).1.map ((op, operand) :: ·), (parseRest source items).2) := by
  rw [parseRest.eq_def]
  simp only [h, hnext]

/-- Where an operator is due, the parser does stop at blocked items. -/
theorem parseRest_of_blocked (source : String) (h : Blocked items) :
    ∃ fault left, parseRest source items = (.error fault, left) ∧
      fault.dependsOnMode = true := by
  match items, h with
  | .error fault :: items, h => exact ⟨fault, items, parseRest_of_not_operator rfl, h⟩
  | .ok (.number n) :: items, _ => exact ⟨_, items, parseRest_of_not_operator rfl, rfl⟩

/-- Where an operator is due, the first of items that agree is the same, or the parser stops
at it. -/
theorem agrees_operator (source : String) {items' : List Item}
    (h : Agrees (item :: items) items') :
    (∃ left, items' = item :: left ∧ Agrees items left) ∨
      ∃ fault, operatorOfItem source item = .error fault ∧ fault.dependsOnMode = true := by
  cases h with
  | cons _ h => exact .inl ⟨_, rfl, h⟩
  | fault hfault => exact .inr ⟨_, rfl, hfault⟩
  | number hblocked => exact .inr ⟨_, rfl, rfl⟩

/-- Where a number is due, the first of items that agree is the same, or the parser stops at
it, or it reads it and stops behind it. -/
theorem agrees_operand (source : String) {items' : List Item}
    (h : Agrees (item :: items) items') :
    (∃ left, items' = item :: left ∧ Agrees items left) ∨
      (∃ fault, operandOfItem source item = .error fault ∧ fault.dependsOnMode = true) ∨
      (∃ x, operandOfItem source item = .ok x) ∧ Blocked items := by
  cases h with
  | cons _ h => exact .inl ⟨_, rfl, h⟩
  | fault hfault => exact .inr (.inl ⟨_, rfl, hfault⟩)
  | @number n _ _ hblocked =>
      cases hread : Binary64.ofLiteral? n.literal with
      | some x => exact .inr (.inr ⟨⟨_, by rw [operandOfItem, hread]⟩, hblocked⟩)
      | none => exact .inr (.inl ⟨_, by rw [operandOfItem, hread], rfl⟩)

end Steps

/-- **After the first operand**, items that agree come to results that agree. -/
theorem keeps_parseRest (source : String) {items items' : List Item}
    (h : Agrees items items') :
    Keeps (parseRest source items).1 (parseRest source items').1 := by
  fun_induction parseRest source items generalizing items' with
  | case1 =>
      cases h with
      | nil => exact .inl rfl
  | case2 item items fault hop =>
      rcases agrees_operator source h with ⟨left', rfl, -⟩ | ⟨fault', hfault, hmode⟩
      · exact .inl (by rw [parseRest_of_not_operator hop])
      · obtain rfl := Except.error.inj (hop.symm.trans hfault)
        exact .of_dependsOnMode hmode _
  | case3 item op offset hop =>
      rcases agrees_operator source h with ⟨left', rfl, hleft⟩ | ⟨fault, hfault, -⟩
      · cases hleft with
        | nil => exact .inl (by rw [parseRest_of_trailing hop])
      · cases hop.symm.trans hfault
  | case4 item op offset next left hop fault hoperand =>
      rcases agrees_operator source h with ⟨left', rfl, hleft⟩ | ⟨fault', hfault, -⟩
      · rcases agrees_operand source hleft with
          ⟨left'', rfl, -⟩ | ⟨fault', hfault, hmode⟩ | ⟨⟨x, hx⟩, -⟩
        · exact .inl (by rw [parseRest_of_not_operand hop hoperand])
        · obtain rfl := Except.error.inj (hoperand.symm.trans hfault)
          exact .of_dependsOnMode hmode _
        · cases hoperand.symm.trans hx
      · cases hop.symm.trans hfault
  | case5 item op offset next left hop operand hoperand rest unread hrest ih =>
      rcases agrees_operator source h with ⟨left', rfl, hleft⟩ | ⟨fault, hfault, -⟩
      · rcases agrees_operand source hleft with
          ⟨left'', rfl, hleft'⟩ | ⟨fault, hfault, -⟩ | ⟨-, hblocked⟩
        · have hkeeps := (ih hleft').map ((op, operand) :: ·)
          rw [hrest] at hkeeps
          rw [parseRest_of_operand hop hoperand]
          exact hkeeps
        · cases hoperand.symm.trans hfault
        · obtain ⟨fault, left'', hparse, hmode⟩ := parseRest_of_blocked source hblocked
          obtain ⟨rfl, rfl⟩ := Prod.mk.inj (hrest.symm.trans hparse)
          exact .of_dependsOnMode hmode _
      · cases hop.symm.trans hfault

/-- What is read of items that agree: the same, with items left that agree; or a fault that
depends on the mode; or an operand, with such a fault to come. -/
def ReadsAlike (r r' : Except Fault Operand × List Item) : Prop :=
  r'.1 = r.1 ∧ Agrees r.2 r'.2 ∨
    (∃ fault, r.1 = .error fault ∧ fault.dependsOnMode = true) ∨
    (∃ x, r.1 = .ok x) ∧ Blocked r.2

/-- Changing the operand changes nothing about what is left. -/
theorem ReadsAlike.map {r r' : Except Fault Operand} {left left' : List Item}
    (h : ReadsAlike (r, left) (r', left')) (f : Operand → Operand) :
    ReadsAlike (r.map f, left) (r'.map f, left') := by
  rcases h with ⟨rfl, h⟩ | ⟨fault, rfl, hmode⟩ | ⟨⟨x, rfl⟩, hblocked⟩
  · exact .inl ⟨rfl, h⟩
  · exact .inr (.inl ⟨fault, rfl, hmode⟩)
  · exact .inr (.inr ⟨⟨f x, rfl⟩, hblocked⟩)

/-- What reads an item as an operand reads items that agree alike. -/
theorem readsAlike_of_operand (source : String) {item : Item} {items items' : List Item}
    {read : List Item → Except Fault Operand × List Item}
    (hread : ∀ left, read (item :: left) = (operandOfItem source item, left))
    (h : Agrees (item :: items) items') : ReadsAlike (read (item :: items)) (read items') := by
  rw [hread]
  rcases agrees_operand source h with ⟨left, rfl, hleft⟩ | hfault | hblocked
  · rw [hread]
    exact .inl ⟨rfl, hleft⟩
  · exact .inr (.inl hfault)
  · exact .inr (.inr hblocked)

/-- **The first operand** of items that agree is read alike. -/
theorem readsAlike_parseFirst (source : String) {items items' : List Item}
    (h : Agrees items items') :
    ReadsAlike (parseFirst source items) (parseFirst source items') := by
  cases items with
  | nil =>
      cases h with
      | nil => exact .inl ⟨rfl, .nil⟩
  | cons item items =>
      rcases item with fault | ⟨n⟩ | ⟨op, offset⟩
      · exact readsAlike_of_operand source (fun _ => rfl) h
      · exact readsAlike_of_operand source (fun _ => rfl) h
      · cases op with
        | plus | star | slash => exact readsAlike_of_operand source (fun _ => rfl) h
        | minus =>
            cases h with
            | cons _ hleft =>
                -- a sign: the operand stands behind it
                cases items with
                | nil =>
                    cases hleft with
                    | nil => exact .inl ⟨rfl, .nil⟩
                | cons next items =>
                    have hread (left : List Item) :
                        parseOperand source offset (next :: left) =
                          (operandOfItem source next, left) := rfl
                    exact (readsAlike_of_operand source hread hleft).map _

/-- The parser reads a first operand, and then the rest. -/
theorem parse_fst (p : Parser) :
    p.parse.1 = (parseFirst p.source p.items).1 >>= fun first =>
      (parseRest p.source (parseFirst p.source p.items).2).1.map fun rest => ⟨first, rest⟩ := by
  rw [parse]
  cases parseFirst p.source p.items with
  | mk first left =>
      cases first with
      | error fault => rfl
      | ok first => rfl

/-- **Items that agree come to results that agree.** -/
theorem keeps_parse (source : String) {items items' : List Item} (h : Agrees items items') :
    Keeps (⟨source, items⟩ : Parser).parse.1 (⟨source, items'⟩ : Parser).parse.1 := by
  rw [parse_fst, parse_fst]
  dsimp only
  rcases readsAlike_parseFirst source h with
    ⟨heq, hleft⟩ | ⟨fault, hfault, hmode⟩ | ⟨⟨x, hx⟩, hblocked⟩
  · rw [heq]
    cases (parseFirst source items).1 with
    | error fault => exact .inl rfl
    | ok first => exact (keeps_parseRest source hleft).map _
  · rw [hfault]
    exact .of_dependsOnMode hmode _
  · obtain ⟨fault, left, hrest, hmode⟩ := parseRest_of_blocked source hblocked
    rw [hx, hrest]
    exact .of_dependsOnMode hmode _

end Parser

/-! ### Texts in the two modes -/

/-- The expressions that a text holds in the two modes agree. -/
theorem keeps_parse_text (text : String) :
    Keeps (parse .strict text) (parse .permissive text) :=
  Parser.keeps_parse text (Lexer.agrees_items text)

/-- The values of a text in the two modes agree. -/
theorem keeps_evaluate (text : String) :
    Keeps (evaluate .strict text) (evaluate .permissive text) := by
  rw [evaluate, evaluate]
  split
  · exact .inl rfl
  · exact (keeps_parse_text text).bind _

/-- What strict reading comes to, if it is a value or one of four faults. -/
def Settles : Except Fault Float → Prop
  | .ok _ => True
  | .error (.divisionByZero _) => True
  | .error .emptyExpression => True
  | .error (.trailingOperator _) => True
  | .error (.expectedNumber _ _) => True
  | .error _ => False

/-- **Strict mode only restricts permissive mode.** What a text comes to in strict mode, if
it is a value or one of four faults, it comes to in permissive mode, with the same source and
span; and an expression that is read in strict mode is read in permissive mode, with all of
its spans. So what permissive mode may change is one of three faults, and two of them it
never reports. -/
theorem evaluate_permissive_of_strict (text : String) :
    (Settles (evaluate .strict text) →
      evaluate .permissive text = evaluate .strict text) ∧
      (∀ e, parse .strict text = .ok e → parse .permissive text = .ok e) ∧
      (evaluate .permissive text ≠ evaluate .strict text →
        ∃ fault, evaluate .strict text = .error fault ∧ fault.dependsOnMode = true) ∧
      ∀ fault, evaluate .permissive text = .error fault →
        (∀ c site, fault ≠ .unexpectedCharacter c site) ∧
          ∀ site, fault ≠ .expectedOperator site := by
  refine ⟨?_, ?_, ?_, ?_⟩
  · intro hsettles
    refine (keeps_evaluate text).resolve_right ?_
    rintro ⟨fault, hfault, hmode⟩
    rw [hfault] at hsettles
    cases fault with
    | divisionByZero | reciprocalOfZero | nonFiniteResult | emptyExpression | expectedNumber
    | trailingOperator => exact nomatch hmode
    | expectedOperator | invalidNumber | unexpectedCharacter => exact hsettles
  · intro e he
    rcases keeps_parse_text text with hsame | ⟨fault, hfault, -⟩
    · exact hsame.trans he
    · exact nomatch he.symm.trans hfault
  · intro hne
    exact (keeps_evaluate text).resolve_left hne
  · intro fault hfault
    rcases fault_of_evaluate_permissive hfault with hmisses | ⟨site, rfl⟩ | ⟨rfl, -⟩
    · refine ⟨?_, ?_⟩
      · rintro c site rfl
        exact nomatch hmisses
      · rintro site rfl
        exact nomatch hmisses
    · exact ⟨nofun, nofun⟩
    · exact ⟨nofun, nofun⟩

/-! ### Texts that a keypad can type -/

namespace Lexer

/-- The mode does not matter for characters that a keypad can type. -/
theorem stream_of_typed (source : String) (mode mode' : Mode) {cs : List Char}
    (h : ∀ c ∈ cs, isKeypadChar c = true) (pending : Option Numeral) (offset : Nat) :
    stream source mode pending offset cs = stream source mode' pending offset cs := by
  induction cs generalizing pending offset with
  | nil => rfl
  | cons c rest ih =>
      obtain ⟨hc, hrest⟩ := List.forall_mem_cons.mp h
      rcases isKeypadChar_iff_glyph.mp hc with hglyph | ⟨op, hglyph⟩
      · rw [stream_numeric _ _ _ _ _ hglyph, stream_numeric _ _ _ _ _ hglyph]
        exact ih hrest _ _
      · rw [stream_operator _ _ _ _ _ hglyph, stream_operator _ _ _ _ _ hglyph, ih hrest]

end Lexer

/-- **A text that a keypad can type has one value in both modes.** -/
theorem evaluate_of_typed (mode mode' : Mode) {text : String}
    (h : ∀ c ∈ text.toList, isKeypadChar c = true) : evaluate mode text = evaluate mode' text := by
  rw [evaluate, evaluate, parse, parse, Parser.ofText, Parser.ofText, Lexer.items_ofText,
    Lexer.items_ofText, Lexer.stream_of_typed text mode mode' h]

/-- The faults of a text that a keypad can type. -/
theorem fault_of_evaluate_typed {mode : Mode} {text : String} {fault : Fault}
    (htyped : ∀ c ∈ text.toList, isKeypadChar c = true)
    (h : evaluate mode text = .error fault) :
    fault.missesNumber = true ∨ ∃ site, fault = .divisionByZero site := by
  rw [evaluate_of_typed mode .permissive htyped] at h
  rcases fault_of_evaluate_permissive h with hmisses | hzero | ⟨-, hne, hnone⟩
  · exact .inl hmisses
  · exact .inr hzero
  · rw [Lexer.typed, List.filter_eq_self.mpr htyped, String.toList_eq_nil_iff] at hnone
    exact absurd hnone hne

end Keypad
