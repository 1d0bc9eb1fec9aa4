import Keypad.Proofs.Expression.Diagnostics
import Keypad.Proofs.Expression.Reading

/-!
# Operands are read exactly

Between a literal and the operand that it becomes stands one rounding, and nothing else: no
limit on the digits, no second rounding, no value that is not a number. The sign of an
operand comes from the one `-` that may stand in front of an expression, so **no operand but
the first is ever negative**, and the first has its sign even if it is zero.

Which literals are refused is said by counting: those without a digit and those with several
points.

## Main results

* `Expresses.isNegative_first_iff`: the first operand is negative behind a `-` only.
* `ExpressesRest.isNegative`: the others are not.
* `parse_eq_invalidNumber_iff`: when a text is refused for an invalid number.
* `operands_exact`: **every operand is its literal, rounded once.**
-/

namespace Keypad

open Binary64 (IsRounded isNegative)

/-! ### Signs -/

/-- What is read from a number is a number, without a sign. -/
theorem Operand.ReadFrom.isNegative {x : Operand} {n : Numeral} (h : x.ReadFrom n) :
    x.value.isNaN = false ∧ isNegative x.value = false :=
  ⟨h.value.isNaN, h.value.isNegative⟩

/-- **The operands after the first have no sign.** -/
theorem ExpressesRest.isNegative {tokens : List Token} {rest : List (Operator × Operand)}
    (h : ExpressesRest tokens rest) :
    ∀ p ∈ rest, p.2.value.isNaN = false ∧ isNegative p.2.value = false := by
  induction h with
  | nil => exact fun p hp => absurd hp List.not_mem_nil
  | cons hx _ ih =>
      intro p hp
      rcases List.mem_cons.mp hp with rfl | hp
      · exact hx.isNegative
      · exact ih p hp

/-- So have those of an expression. -/
theorem Expresses.isNegative_rest {tokens : List Token} {e : Expression}
    (h : Expresses tokens e) :
    ∀ p ∈ e.rest, p.2.value.isNaN = false ∧ isNegative p.2.value = false := by
  cases h with
  | plain _ hrest => exact hrest.isNegative
  | negative _ hrest => exact hrest.isNegative

/-- **The first operand has a sign** exactly if the tokens begin with a `-`. -/
theorem Expresses.isNegative_first_iff {tokens : List Token} {e : Expression}
    (h : Expresses tokens e) :
    e.first.value.isNaN = false ∧ (isNegative e.first.value = true ↔
      ∃ offset, tokens.head? = some (.operator .minus offset)) := by
  cases h with
  | plain hx _ =>
      obtain ⟨hnum, hneg⟩ := hx.isNegative
      refine ⟨hnum, iff_of_false (by rw [hneg]; exact Bool.false_ne_true) ?_⟩
      rintro ⟨offset, hhead⟩
      exact nomatch Option.some.inj hhead
  | @negative offset n x tokens rest hx _ =>
      obtain ⟨hnum, hneg⟩ := hx.isNegative
      have hle := Binary64.isNaN_eq_false_iff.mp hnum
      obtain ⟨hsign, hcode⟩ := Binary64.neg_eq hle
      refine ⟨Binary64.isNaN_eq_false_iff.mpr (hcode.trans_le hle), iff_of_true ?_ ⟨offset, rfl⟩⟩
      rw [hsign, hneg]
      rfl

/-! ### Literals -/

/-- The literals of a text are made of digits and points. -/
theorem isNumeric_of_mem_items {mode : Mode} {text : String} {n : Numeral}
    (h : .ok (.number n) ∈ (Lexer.ofText mode text).items) :
    ∀ c ∈ n.literal.toList, isNumeric c = true := by
  obtain ⟨front, behind, hitems⟩ := List.append_of_mem h
  have hinfix : [.ok (.number n)] <:+: (Lexer.ofText mode text).items :=
    ⟨front, behind, by rw [hitems, List.append_assoc, List.singleton_append]⟩
  obtain ⟨before, after, back, hremain⟩ := exists_remain_append hinfix
  obtain ⟨gap, inside, after, -, -, hn, -⟩ := hremain.number
  intro c hc
  rw [hn.literal] at hc
  exact (List.mem_filter.mp hc).2

/-- **Digits and points are refused** for want of a digit, or for a second point. -/
theorem operandOfItem_eq_invalidNumber_iff (source : String) {n : Numeral}
    (hn : ∀ c ∈ n.literal.toList, isNumeric c = true) :
    Parser.operandOfItem source (.ok (.number n)) =
        .error (.invalidNumber n.literal ⟨source, n.span⟩) ↔
      (∀ c ∈ n.literal.toList, c.isDigit = false) ∨ 1 < n.literal.toList.count '.' := by
  rw [← not_isLiteral_iff hn]
  constructor
  · intro h hliteral
    obtain ⟨x, hx⟩ := Parser.exists_operandOfItem_of_isLiteral source hliteral
    cases hx.symm.trans h
  · exact Parser.operandOfItem_of_not_isLiteral source

/-- Where a number is due, only a number can be an invalid one. -/
theorem Parser.Due.number_of_read_invalidNumber {source : String} {due : Parser.Due}
    {item : Item} {literal : String} {site : Site} :
    due.read source item = .error (.invalidNumber literal site) →
      item = .error (.invalidNumber literal site) ∨
        ∃ n, item = .ok (.number n) ∧ due ≠ .operator ∧ ¬ IsLiteral n.literal.toList ∧
          literal = n.literal ∧ site = ⟨source, n.span⟩ := by
  fun_cases Parser.Due.read with
  | case1 =>
      rintro ⟨⟩
      exact .inl rfl
  | case2 | case3 | case4 | case5 | case6 | case7 | case9 => exact nofun
  | case8 n hn | case10 _ n hn =>
      rintro ⟨⟩
      exact .inr ⟨n, rfl, nofun, hn, rfl, rfl⟩

/-- Where a number is due, a number that is no literal is not. -/
theorem Parser.Due.read_of_not_isLiteral (source : String) {due : Parser.Due} {n : Numeral}
    (hdue : due ≠ .operator) (hn : ¬ IsLiteral n.literal.toList) :
    due.read source (.ok (.number n)) = .error (.invalidNumber n.literal ⟨source, n.span⟩) := by
  cases due with
  | operator => exact absurd rfl hdue
  | first | number => exact if_neg hn

/-- **A text has an invalid number** exactly if the first item that is not due is a number
where one is due, and has no digit or several points. -/
theorem parse_eq_invalidNumber_iff {mode : Mode} {text literal : String} {site : Site} :
    parse mode text = .error (.invalidNumber literal site) ↔
      ∃ before n left due, (Lexer.ofText mode text).items = before ++ .ok (.number n) :: left ∧
        Parser.Due.run text .first before = .ok due ∧ due ≠ .operator ∧
        ((∀ c ∈ n.literal.toList, c.isDigit = false) ∨ 1 < n.literal.toList.count '.') ∧
        literal = n.literal ∧ site = ⟨text, n.span⟩ := by
  obtain ⟨segment, hitems, houtcome⟩ := (Parser.ofText mode text).outcome_parse
  rw [parse]
  constructor
  · intro h
    rw [h] at houtcome
    generalize (Parser.ofText mode text).parse.2.items = left at hitems houtcome
    cases houtcome with
    | @refused before due item _ _ hrun hitem =>
        have hall : (Lexer.ofText mode text).items = before ++ item :: left := by
          rw [← List.singleton_append, ← List.append_assoc]
          exact hitems
        have hmem : item ∈ (Lexer.ofText mode text).items := by
          rw [hall]
          exact List.mem_append_right _ List.mem_cons_self
        rcases Parser.Due.number_of_read_invalidNumber hitem with
          rfl | ⟨n, rfl, hdue, hn, hliteral, hsite⟩
        · -- the lexer hands out no such fault
          obtain ⟨c, site', hfault⟩ := (Lexer.faultLast_items mode text).of_mem hmem
          cases hfault
        · exact ⟨before, n, left, due, hall, hrun, hdue,
            (not_isLiteral_iff (isNumeric_of_mem_items hmem)).mp hn, hliteral, hsite⟩
    | @ended _ due _ _ hend => cases due <;> cases hend
  · rintro ⟨before, n, left, due, hall, hrun, hdue, hn, rfl, rfl⟩
    have hmem : .ok (.number n) ∈ (Lexer.ofText mode text).items := by
      rw [hall]
      exact List.mem_append_right _ List.mem_cons_self
    have hinvalid := (not_isLiteral_iff (isNumeric_of_mem_items hmem)).mpr hn
    refine houtcome.eq_error_of_run ?_
    rw [← hitems]
    refine (congrArg (Parser.Due.run text .first) hall).trans ?_
    rw [Parser.Due.run_append text hrun]
    exact Parser.Due.run_cons_error text (Parser.Due.read_of_not_isLiteral text hdue hinvalid)

/-- The numeral with more zeros in front and behind. -/
def Numeral.pad (n : Numeral) (front back : ℕ) : Numeral :=
  ⟨String.ofList (List.replicate front '0' ++ n.literal.toList ++ List.replicate back '0'),
    n.span, n.gapped⟩

/-- Zeros in front, and at the end of the fraction, do not change what is read. -/
theorem operandOfItem_pad (source : String) {n : Numeral} {back : ℕ}
    (hn : IsLiteral n.literal.toList) (hback : back = 0 ∨ '.' ∈ n.literal.toList) (front : ℕ) :
    Parser.operandOfItem source (.ok (.number (n.pad front back))) =
      Parser.operandOfItem source (.ok (.number n)) := by
  have hread := Binary64.ofLiteral?_pad hn hback front
  rw [String.ofList_toList] at hread
  cases hvalue : Binary64.ofLiteral? n.literal with
  | none => exact absurd hn (Binary64.ofLiteral?_eq_none_iff.mp hvalue)
  | some x =>
      rw [hvalue] at hread
      rw [Parser.operandOfItem, Parser.operandOfItem, hvalue, Numeral.pad, hread]

/-! ### Operands -/

/-- **Operands are read exactly.** Whatever expression a text holds was read from all its
tokens, each operand being what its literal denotes, rounded once (`Expresses`); the first
operand has a sign exactly if the expression begins with a `-`, no other has, and none is
not a number.

A text is refused for an invalid number exactly if the first item that is not due is a
number where one is due and has no digit or several points. The numbers of a text are made
of digits and points; where such a number is due, it is refused exactly for these reasons
and is otherwise read as what its literal denotes, and zeros in front or at the end of the
fraction change nothing about that. -/
theorem operands_exact (mode : Mode) (text : String) :
    (∀ e, parse mode text = .ok e → ∃ tokens,
      tokenize mode text = .ok tokens ∧ Expresses tokens e ∧ e.first.value.isNaN = false ∧
        (isNegative e.first.value = true ↔
          ∃ offset, tokens.head? = some (.operator .minus offset)) ∧
        ∀ p ∈ e.rest, p.2.value.isNaN = false ∧ isNegative p.2.value = false) ∧
    (∀ literal site, parse mode text = .error (.invalidNumber literal site) ↔
      ∃ before n left due, (Lexer.ofText mode text).items = before ++ .ok (.number n) :: left ∧
        Parser.Due.run text .first before = .ok due ∧ due ≠ .operator ∧
        ((∀ c ∈ n.literal.toList, c.isDigit = false) ∨ 1 < n.literal.toList.count '.') ∧
        literal = n.literal ∧ site = ⟨text, n.span⟩) ∧
    (∀ n, .ok (.number n) ∈ (Lexer.ofText mode text).items →
      ∀ c ∈ n.literal.toList, isNumeric c = true) ∧
    ∀ n : Numeral, (∀ c ∈ n.literal.toList, isNumeric c = true) →
      (Parser.operandOfItem text (.ok (.number n)) =
          .error (.invalidNumber n.literal ⟨text, n.span⟩) ↔
        (∀ c ∈ n.literal.toList, c.isDigit = false) ∨ 1 < n.literal.toList.count '.') ∧
      (∀ x, Parser.operandOfItem text (.ok (.number n)) = .ok x ↔ x.ReadFrom n) ∧
      (IsLiteral n.literal.toList →
        ∀ front back, back = 0 ∨ '.' ∈ n.literal.toList →
          Parser.operandOfItem text (.ok (.number (n.pad front back))) =
            Parser.operandOfItem text (.ok (.number n))) := by
  refine ⟨?_, fun literal site => parse_eq_invalidNumber_iff,
    fun n => isNumeric_of_mem_items, ?_⟩
  · intro e h
    obtain ⟨tokens, htokens, hexpresses⟩ := exists_expresses_of_parse h
    obtain ⟨hnum, hsign⟩ := hexpresses.isNegative_first_iff
    exact ⟨tokens, htokens, hexpresses, hnum, hsign, hexpresses.isNegative_rest⟩
  · intro n hn
    exact ⟨operandOfItem_eq_invalidNumber_iff text hn,
      fun x => Parser.operandOfItem_number_eq_ok_iff,
      fun hliteral front back hback => operandOfItem_pad text hliteral hback front⟩

end Keypad
