import Keypad.Proofs.Expression.Modes

/-!
# Dropped characters are invisible

Permissive reading drops what a keypad cannot type. Two texts of which the same is left have
tokens that say the same and differ in their places only, and a place is never looked at: it
is carried along, and in the end it is put into a fault. So both texts have one value, or
the same fault, **each at its own token of one index**.

Two runs are compared. The results of their steps are related by one relation, which is
closed under `bind`; every function of the reading then has one lemma, that related arguments
have related results.

## Main definitions

* `Fault.moveTo`: the same fault at another place.
* `Twins`: tokens of one index, in two token sequences, that say the same.
* `Alike`: results of two runs that differ in their places only.

## Main results

* `Alike.bind`, `Alike.foldlM`: runs that are related step by step have related results.
* `Parser.alike_parse`: related items hold related expressions, or lead to related faults.
* `evaluate_alike_of_typed_eq`: **two texts of which the same is left** evaluate alike.
-/

namespace Keypad

/-! ### Faults at another place -/

namespace Fault

/-- The same fault at another place. -/
def moveTo (site : Site) : Fault → Fault
  | divisionByZero _ => divisionByZero site
  | expectedNumber found _ => expectedNumber found site
  | expectedOperator _ => expectedOperator site
  | trailingOperator _ => trailingOperator site
  | invalidNumber literal _ => invalidNumber literal site
  | unexpectedCharacter c _ => unexpectedCharacter c site
  | reciprocalOfZero => reciprocalOfZero
  | nonFiniteResult => nonFiniteResult
  | emptyExpression => emptyExpression

/-- A fault that has a place has the place that it is moved to. -/
theorem site?_moveTo (site : Site) (fault : Fault) :
    (fault.moveTo site).site? = fault.site?.map fun _ => site := by
  cases fault <;> rfl

end Fault

/-! ### Tokens that say the same -/

/-- A text with its tokens. -/
structure Reading where
  /-- The text. -/
  source : String
  /-- Its tokens, in order. -/
  tokens : List Token

/-- Tokens that say the same are numbers of one literal, or one operator. -/
theorem Token.cases_of_lexeme_eq {t u : Token} (h : t.lexeme = u.lexeme) :
    (∃ m n, t = .number m ∧ u = .number n ∧ m.literal = n.literal) ∨
      ∃ op offset offset', t = .operator op offset ∧ u = .operator op offset' := by
  cases t with
  | number m =>
      cases u with
      | number n => exact .inl ⟨m, n, rfl, rfl, String.toList_inj.mp (Lexeme.number.inj h)⟩
      | operator op offset' => exact nomatch h
  | operator op offset =>
      cases u with
      | number n => exact nomatch h
      | operator op' offset' =>
          obtain rfl := Lexeme.operator.inj h
          exact .inr ⟨op, offset, offset', rfl, rfl⟩

section Relations

variable (a b : Reading)

/-- Tokens of one index that say the same. -/
def Twins (t u : Token) : Prop :=
  t.lexeme = u.lexeme ∧ ∃ i : Nat, a.tokens[i]? = some t ∧ b.tokens[i]? = some u

/-- The same fault, each at its own token of one index. -/
inductive TwinFaults : Fault → Fault → Prop
  | emptyExpression : TwinFaults .emptyExpression .emptyExpression
  | moved {fault : Fault} {t u : Token} :
      Twins a b t u → fault.site? = some ⟨a.source, t.span⟩ →
        TwinFaults fault (fault.moveTo ⟨b.source, u.span⟩)

/-- Results of two runs: both have a value, and the values are related; or both have the same
fault, each at its own token. -/
inductive Alike {α : Type} (Same : α → α → Prop) : Except Fault α → Except Fault α → Prop
  | ok {x y : α} : Same x y → Alike Same (.ok x) (.ok y)
  | error {fault fault' : Fault} :
      TwinFaults a b fault fault' → Alike Same (.error fault) (.error fault')

/-- Operands of one value, each read from its own token. -/
structure TwinOperands (x y : Operand) : Prop where
  value : x.value = y.value
  tokens : ∃ t u, Twins a b t u ∧ x.span = t.span ∧ y.span = u.span

/-- One operator, each with its operand. -/
def TwinSteps (p q : Operator × Operand) : Prop :=
  p.1 = q.1 ∧ TwinOperands a b p.2 q.2

/-- One operator, each with the place of its token. -/
def TwinOperators (p q : Operator × Nat) : Prop :=
  p.1 = q.1 ∧ Twins a b (.operator p.1 p.2) (.operator q.1 q.2)

/-- Expressions that differ in their places only. The place of the first operand is never
reported. -/
structure TwinExpressions (e f : Expression) : Prop where
  first : e.first.value = f.first.value
  rest : List.Forall₂ (TwinSteps a b) e.rest f.rest

end Relations

variable {a b : Reading}

/-- Tokens that say the same one after another are twins, and so are their items. -/
theorem forall₂_items (h : a.tokens.map Token.lexeme = b.tokens.map Token.lexeme) :
    List.Forall₂ (Alike a b (Twins a b)) (a.tokens.map .ok) (b.tokens.map .ok) := by
  have hlength : a.tokens.length = b.tokens.length := by
    simpa using congrArg List.length h
  rw [List.forall₂_map_left_iff, List.forall₂_map_right_iff]
  refine List.forall₂_iff_get.mpr ⟨hlength, fun i hi hi' => .ok ⟨?_, i, ?_, ?_⟩⟩
  · have hget := congrArg (fun ls => ls[i]?) h
    simpa [hi, hi'] using hget
  · simp [hi]
  · simp [hi']

/-! ### Runs that are related step by step -/

namespace Alike

variable {α β : Type} {Same : α → α → Prop} {Same' : β → β → Prop}

/-- Values that are related are so in a weaker sense. -/
theorem mono {r r' : Except Fault α} (h : Alike a b Same r r') {Weaker : α → α → Prop}
    (hweaker : ∀ x y, Same x y → Weaker x y) : Alike a b Weaker r r' := by
  cases h with
  | ok hsame => exact .ok (hweaker _ _ hsame)
  | error hfault => exact .error hfault

/-- Related runs go on in related ways. -/
theorem bind {r r' : Except Fault α} (h : Alike a b Same r r') {f g : α → Except Fault β}
    (hfg : ∀ x y, Same x y → Alike a b Same' (f x) (g y)) :
    Alike a b Same' (r >>= f) (r' >>= g) := by
  cases h with
  | ok hsame => exact hfg _ _ hsame
  | error hfault => exact .error hfault

/-- Related results stay related when their values are changed in related ways. -/
theorem map {r r' : Except Fault α} (h : Alike a b Same r r') {f g : α → β}
    (hfg : ∀ x y, Same x y → Same' (f x) (g y)) :
    Alike a b Same' (r.map f) (r'.map g) := by
  cases h with
  | ok hsame => exact .ok (hfg _ _ hsame)
  | error hfault => exact .error hfault

/-- **Runs that take related steps** have the same result. -/
theorem foldlM {σ : Type} {f g : σ → α → Except Fault σ}
    (hfg : ∀ s x y, Same x y → Alike a b Eq (f s x) (g s y)) {xs ys : List α}
    (h : List.Forall₂ Same xs ys) (s : σ) : Alike a b Eq (xs.foldlM f s) (ys.foldlM g s) := by
  induction h generalizing s with
  | nil => exact .ok rfl
  | cons hxy _ ih =>
      rw [List.foldlM_cons, List.foldlM_cons]
      refine (hfg s _ _ hxy).bind ?_
      rintro s' _ rfl
      exact ih s'

end Alike

/-! ### Reading -/

namespace Parser

/-- What reads a number from one item reads it from its twin. -/
theorem alike_operandOfItem {item item' : Item} (h : Alike a b (Twins a b) item item') :
    Alike a b (TwinOperands a b) (operandOfItem a.source item)
      (operandOfItem b.source item') := by
  cases h with
  | error hfault => exact .error hfault
  | ok htwins =>
      rcases Token.cases_of_lexeme_eq htwins.1 with
        ⟨m, n, rfl, rfl, hliteral⟩ | ⟨op, offset, offset', rfl, rfl⟩
      · simp only [operandOfItem, ← hliteral]
        cases Binary64.ofLiteral? m.literal with
        | some x => exact .ok ⟨rfl, _, _, htwins, rfl, rfl⟩
        | none => exact .error (.moved htwins rfl)
      · exact .error (.moved htwins rfl)

/-- What reads an operator from one item reads it from its twin. -/
theorem alike_operatorOfItem {item item' : Item} (h : Alike a b (Twins a b) item item') :
    Alike a b (TwinOperators a b) (operatorOfItem a.source item)
      (operatorOfItem b.source item') := by
  cases h with
  | error hfault => exact .error hfault
  | ok htwins =>
      rcases Token.cases_of_lexeme_eq htwins.1 with
        ⟨m, n, rfl, rfl, -⟩ | ⟨op, offset, offset', rfl, rfl⟩
      · exact .error (.moved htwins rfl)
      · exact .ok ⟨rfl, htwins⟩

/-- Reading an operand leaves no more items than there were. -/
theorem length_parseOperand_le (source : String) (after : Nat) (items : List Item) :
    (parseOperand source after items).2.length ≤ items.length := by
  cases items <;> simp [parseOperand]

/-- Behind an operator, an operand is read alike, and what is left is related. -/
theorem alike_parseOperand {p q : Operator × Nat} {items items' : List Item}
    (hpq : TwinOperators a b p q) (h : List.Forall₂ (Alike a b (Twins a b)) items items') :
    Alike a b (TwinOperands a b) (parseOperand a.source p.2 items).1
        (parseOperand b.source q.2 items').1 ∧
      List.Forall₂ (Alike a b (Twins a b)) (parseOperand a.source p.2 items).2
        (parseOperand b.source q.2 items').2 := by
  cases h with
  | nil => exact ⟨.error (.moved hpq.2 rfl), .nil⟩
  | cons hitem hitems => exact ⟨alike_operandOfItem hitem, hitems⟩

/-- The first operand is read alike, and what is left is related. -/
theorem alike_parseFirst {items items' : List Item}
    (h : List.Forall₂ (Alike a b (Twins a b)) items items') :
    Alike a b (fun x y => x.value = y.value) (parseFirst a.source items).1
        (parseFirst b.source items').1 ∧
      List.Forall₂ (Alike a b (Twins a b)) (parseFirst a.source items).2
        (parseFirst b.source items').2 := by
  cases h with
  | nil => exact ⟨.error .emptyExpression, .nil⟩
  | @cons item item' items items' hitem hitems =>
      have hoperand : Alike a b (fun x y => x.value = y.value)
          (operandOfItem a.source item) (operandOfItem b.source item') :=
        (alike_operandOfItem hitem).mono fun _ _ hxy => hxy.value
      cases hitem with
      | error hfault => exact ⟨hoperand, hitems⟩
      | ok htwins =>
          rcases Token.cases_of_lexeme_eq htwins.1 with
            ⟨m, n, rfl, rfl, -⟩ | ⟨op, offset, offset', rfl, rfl⟩
          · exact ⟨hoperand, hitems⟩
          · cases op with
            | plus | star | slash => exact ⟨hoperand, hitems⟩
            | minus =>
                -- a sign: the operand stands behind it
                have hsign : TwinOperators a b (.minus, offset) (.minus, offset') :=
                  ⟨rfl, htwins⟩
                obtain ⟨hsigned, hleft⟩ := alike_parseOperand hsign hitems
                exact ⟨hsigned.map fun _ _ hxy => congrArg (- ·) hxy.value, hleft⟩

/-- After the first operand: an operator, an operand, and the rest of what is left. -/
theorem parseRest_cons_fst (source : String) (item : Item) (items : List Item) :
    (parseRest source (item :: items)).1 =
      operatorOfItem source item >>= fun p =>
        (parseOperand source p.2 items).1 >>= fun x =>
          (parseRest source (parseOperand source p.2 items).2).1.map ((p.1, x) :: ·) := by
  cases hop : operatorOfItem source item with
  | error fault => rw [parseRest_of_not_operator hop]; rfl
  | ok p =>
      obtain ⟨op, offset⟩ := p
      cases items with
      | nil => rw [parseRest_of_trailing hop]; rfl
      | cons next items =>
          cases hnext : operandOfItem source next with
          | error fault =>
              rw [parseRest_of_not_operand hop hnext]
              simp only [parseOperand, hnext]
              rfl
          | ok x =>
              rw [parseRest_of_operand hop hnext]
              simp only [parseOperand, hnext]
              rfl

/-- **After the first operand**, related items come to related steps. -/
theorem alike_parseRest {items items' : List Item}
    (h : List.Forall₂ (Alike a b (Twins a b)) items items') :
    Alike a b (List.Forall₂ (TwinSteps a b)) (parseRest a.source items).1
      (parseRest b.source items').1 := by
  cases h with
  | nil => exact .ok .nil
  | cons hitem hitems =>
      rw [parseRest_cons_fst, parseRest_cons_fst]
      refine (alike_operatorOfItem hitem).bind fun p q hpq => ?_
      obtain ⟨hoperand, hleft⟩ := alike_parseOperand hpq hitems
      refine hoperand.bind fun x y hxy => ?_
      exact (alike_parseRest hleft).map fun _ _ hrest => .cons ⟨hpq.1, hxy⟩ hrest
termination_by items.length
decreasing_by exact Nat.lt_succ_of_le (length_parseOperand_le ..)

/-- **Related items hold related expressions**, or lead to related faults. -/
theorem alike_parse {items items' : List Item}
    (h : List.Forall₂ (Alike a b (Twins a b)) items items') :
    Alike a b (TwinExpressions a b) (⟨a.source, items⟩ : Parser).parse.1
      (⟨b.source, items'⟩ : Parser).parse.1 := by
  rw [parse_fst, parse_fst]
  obtain ⟨hfirst, hleft⟩ := alike_parseFirst h
  refine hfirst.bind fun x y hxy => ?_
  exact (alike_parseRest hleft).map fun _ _ hrest => ⟨hxy, hrest⟩

end Parser

/-! ### Evaluation -/

/-- A step of the first pass changes the same terms alike. -/
theorem Terms.alike_push (ar : Arithmetic) (t : Terms) {p q : Operator × Operand}
    (h : TwinSteps a b p q) : Alike a b Eq (t.push ar a.source p) (t.push ar b.source q) := by
  obtain ⟨op, x⟩ := p
  obtain ⟨op', y⟩ := q
  obtain ⟨rfl, hvalue, t, u, htwins, hx, hy⟩ := h
  dsimp only at hvalue hx hy
  cases op with
  | plus | minus | star => simp only [push, hvalue]; exact .ok rfl
  | slash =>
      simp only [push, hvalue, hx, hy]
      split
      · exact .error (.moved htwins rfl)
      · exact .ok rfl

/-- Related expressions have one value, or the same fault. -/
theorem Expression.alike_value (ar : Arithmetic) {e f : Expression}
    (h : TwinExpressions a b e f) :
    Alike a b Eq (e.value ar a.source) (f.value ar b.source) := by
  rw [value, value, terms, terms, h.first]
  refine (Alike.foldlM (fun t _ _ => t.alike_push ar) h.rest _).bind ?_
  rintro t _ rfl
  exact .ok rfl

/-- A text that is not empty is evaluated as the expression that it holds. -/
theorem evaluate_of_ne_empty (mode : Mode) {text : String} (h : text ≠ "") :
    evaluate mode text = parse mode text >>= Expression.value .binary64 text := by
  rw [evaluate, if_neg (mt String.isEmpty_iff.mp h)]

/-- **Texts whose tokens say the same** have one value, or the same fault. -/
theorem alike_evaluate {mode mode' : Mode}
    (hitems : (Lexer.ofText mode a.source).items = a.tokens.map .ok)
    (hitems' : (Lexer.ofText mode' b.source).items = b.tokens.map .ok)
    (hlexemes : a.tokens.map Token.lexeme = b.tokens.map Token.lexeme)
    (ha : a.source ≠ "") (hb : b.source ≠ "") :
    Alike a b Eq (evaluate mode a.source) (evaluate mode' b.source) := by
  rw [evaluate_of_ne_empty mode ha, evaluate_of_ne_empty mode' hb, parse, parse,
    Parser.ofText, Parser.ofText, hitems, hitems']
  exact (Parser.alike_parse (forall₂_items hlexemes)).bind
    fun _ _ h => Expression.alike_value .binary64 h

/-! ### Texts of which the same is left -/

/-- The items of texts of which the same is left say the same. -/
theorem Lexer.lexemes_of_typed_eq {text text' : String}
    (h : typed text.toList = typed text'.toList) :
    (ofText .permissive text).items.map Item.lexeme? =
      (ofText .permissive text').items.map Item.lexeme? := by
  have hstrict (s : String) := lexemes_permissive s "" s.toList none none rfl 0 0
  rw [items_ofText, items_ofText, hstrict, hstrict, h]

/-- A text of which nothing is left holds no expression. -/
theorem evaluate_of_typed_nil {text : String} (hne : text ≠ "")
    (h : Lexer.typed text.toList = []) :
    evaluate .permissive text = .error .emptyExpression := by
  have htyped : Lexer.typed text.toList = Lexer.typed "".toList := h
  have hsay := Lexer.lexemes_of_typed_eq htyped
  have hempty : (Lexer.ofText .permissive "").items = [] := Lexer.items_of_next_none rfl
  rw [hempty, List.map_nil, List.map_eq_nil_iff] at hsay
  rw [evaluate_of_ne_empty .permissive hne, parse, Parser.ofText, hsay]
  rfl

/-- **Dropped characters are invisible in permissive mode.** Let two texts be not empty, and
let the same digits, points and operators be left of both. Their tokens say the same one after
another; and either both texts have one value, or neither holds an expression, or both have
the same fault, and its site is, in each text, the token of one index. If nothing is left, they
hold no expression, while the empty text has a value. -/
theorem evaluate_alike_of_typed_eq {text text' : String} (hne : text ≠ "") (hne' : text' ≠ "")
    (htyped : Lexer.typed text.toList = Lexer.typed text'.toList) :
    ∃ ts us, tokenize .permissive text = .ok ts ∧ tokenize .permissive text' = .ok us ∧
      ts.map Token.lexeme = us.map Token.lexeme ∧
      ((∃ x, evaluate .permissive text = .ok x ∧ evaluate .permissive text' = .ok x) ∨
        (evaluate .permissive text = .error .emptyExpression ∧
          evaluate .permissive text' = .error .emptyExpression) ∨
        ∃ fault fault', ∃ i : Nat, ∃ t u, ts[i]? = some t ∧ us[i]? = some u ∧
          evaluate .permissive text = .error fault ∧
          evaluate .permissive text' = .error fault' ∧
          fault.site? = some ⟨text, t.span⟩ ∧ fault'.site? = some ⟨text', u.span⟩ ∧
          fault' = fault.moveTo ⟨text', u.span⟩) ∧
      (Lexer.typed text.toList = [] →
        evaluate .permissive text = .error .emptyExpression ∧
          evaluate .permissive text' = .error .emptyExpression) ∧
      evaluate .permissive "" = .ok 0.0 := by
  obtain ⟨k, hk⟩ := Cut.exists_permissive text.toList
  obtain ⟨k', hk'⟩ := Cut.exists_permissive text'.toList
  have hitems : (Lexer.ofText .permissive text).items = k.tokens.map .ok := Lexer.items_cut hk
  have hitems' : (Lexer.ofText .permissive text').items = k'.tokens.map .ok :=
    Lexer.items_cut hk'
  have hlexemes : k.tokens.map Token.lexeme = k'.tokens.map Token.lexeme := by
    refine (List.map_inj_right fun _ _ => Option.some.inj).mp ?_
    rw [← k.items_say hk, ← k'.items_say hk']
    exact Lexer.lexemes_of_typed_eq htyped
  have halike : Alike ⟨text, k.tokens⟩ ⟨text', k'.tokens⟩ Eq (evaluate .permissive text)
      (evaluate .permissive text') := alike_evaluate hitems hitems' hlexemes hne hne'
  refine ⟨k.tokens, k'.tokens, ?_, ?_, hlexemes, ?_, ?_, rfl⟩
  · rw [tokenize, hitems, collect_map_ok]
  · rw [tokenize, hitems', collect_map_ok]
  · generalize evaluate .permissive text = r at halike
    generalize evaluate .permissive text' = r' at halike
    cases halike with
    | ok hvalue => exact .inl ⟨_, rfl, congrArg _ hvalue.symm⟩
    | error hfault =>
        cases hfault with
        | emptyExpression => exact .inr (.inl ⟨rfl, rfl⟩)
        | @moved _ t u htwins hsite =>
            obtain ⟨-, i, ht, hu⟩ := htwins
            refine .inr (.inr ⟨_, _, i, t, u, ht, hu, rfl, rfl, hsite, ?_, rfl⟩)
            rw [Fault.site?_moveTo, hsite]
            rfl
  · intro hnil
    exact ⟨evaluate_of_typed_nil hne hnil, evaluate_of_typed_nil hne' (htyped ▸ hnil)⟩

/-- A divisor with a gap, and the same divisor without one. -/
theorem evaluate_alike_of_typed_eq_zero :
    Lexer.typed "5/.0 0x".toList = Lexer.typed "5é/.00".toList ∧
      evaluate .permissive "5/.0 0x" = .error (.divisionByZero ⟨"5/.0 0x", ⟨2, 6⟩⟩) ∧
      ∃ us, ∃ i : Nat, ∃ u, tokenize .permissive "5é/.00" = .ok us ∧ us[i]? = some u ∧
        evaluate .permissive "5é/.00" = .error (.divisionByZero ⟨"5é/.00", u.span⟩) := by
  have htyped : Lexer.typed "5/.0 0x".toList = Lexer.typed "5é/.00".toList := by
    decide +kernel
  have hzero : evaluate .permissive "5/.0 0x" =
      .error (.divisionByZero ⟨"5/.0 0x", ⟨2, 6⟩⟩) := by
    decide +kernel
  refine ⟨htyped, hzero, ?_⟩
  obtain ⟨ts, us, -, hus, -, ⟨x, hx, -⟩ | ⟨hempty, -⟩ |
    ⟨fault, fault', i, t, u, -, hu, hfault, hfault', -, -, hmoved⟩, -⟩ :=
      evaluate_alike_of_typed_eq (by decide) (by decide) htyped
  · exact nomatch hzero.symm.trans hx
  · exact nomatch hzero.symm.trans hempty
  · obtain rfl := Except.error.inj (hzero.symm.trans hfault)
    exact ⟨us, i, u, hus, hu, hfault'.trans (congrArg _ hmoved)⟩

end Keypad
