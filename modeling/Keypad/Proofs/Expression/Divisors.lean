import Keypad.Proofs.Expression.Faults
import Keypad.Proofs.Expression.Reading

/-!
# Division by zero is a matter of literals

Every divisor is an operand, so it is a literal and never a computed value. Whether an
expression divides by zero can therefore be read off its tokens: a number right behind a `/`
denotes at most `2 ^ -1075`, which is rounded to zero. What has been worked out to the left
of it plays no part, whatever the operations come to.

The parser reads the whole text before anything is worked out, so a text that is no
expression says that, and **never that it divides by zero**, even if a zero divisor stands
in front of the fault.

## Main definitions

* `divisors`: the numbers right behind a `/`.
* `zeroDivisor?`: the leftmost of them that is rounded to zero.

## Main results

* `Expresses.value_of_zeroDivisor`, `Expresses.exists_value`: an expression divides by that
  number, or has a value if there is none.
* `evaluate_eq_divisionByZero_iff`: **when a text divides by zero**, and where.
-/

namespace Keypad

/-! ### Divisors -/

/-- The numbers right behind a `/`, in order. -/
def divisors : List Token → List Numeral
  | .operator .slash _ :: .number n :: tokens => n :: divisors tokens
  | _ :: tokens => divisors tokens
  | [] => []

/-- **The leftmost divisor that is rounded to zero**: it denotes at most `2 ^ -1075`, half
of the least positive value. -/
def zeroDivisor? (tokens : List Token) : Option Numeral :=
  (divisors tokens).find? fun n => n.number ≤ 1 / 2 ^ 1075

/-- A number behind another operator is no divisor. -/
theorem zeroDivisor?_of_ne_slash {op : Operator} (h : op ≠ .slash) (offset : Nat) (n : Numeral)
    (tokens : List Token) :
    zeroDivisor? (.operator op offset :: .number n :: tokens) = zeroDivisor? tokens := by
  cases op with
  | slash => exact absurd rfl h
  | plus | minus | star => rfl

/-- An operator and an operand: `/` refuses the operand exactly if it is read from a number
that is rounded to zero. -/
theorem zeroDivisor?_cons {op : Operator} {x : Operand} {n : Numeral} (hx : x.ReadFrom n)
    (offset : Nat) (tokens : List Token) :
    zeroDivisor? (.operator op offset :: .number n :: tokens) =
      if op.refuses x.value then some n else zeroDivisor? tokens := by
  by_cases hop : op = .slash
  · subst hop
    have hzero : Operator.slash.refuses x.value = decide (n.number ≤ 1 / 2 ^ 1075) :=
      Bool.eq_iff_iff.mpr (hx.value.beq_zero_iff.trans decide_eq_true_iff.symm)
    rw [zeroDivisor?, divisors, List.find?_cons, ← hzero]
    cases Operator.slash.refuses x.value with
    | true => rfl
    | false => rfl
  · have hrefuse : op.refuses x.value = false := by
      cases op with
      | slash => exact absurd rfl hop
      | plus | minus | star => rfl
    rw [zeroDivisor?_of_ne_slash hop, hrefuse]
    rfl

/-! ### The first pass -/

/-- **The first pass stops at the leftmost divisor that is rounded to zero**, whatever the
operations are and whatever terms it has read, and it gets to the end if there is none. -/
theorem ExpressesRest.foldlM_push_eq {tokens : List Token} {rest : List (Operator × Operand)}
    (h : ExpressesRest tokens rest) (ar : Arithmetic) (source : String) (t : Terms) :
    (∃ n, zeroDivisor? tokens = some n ∧
        rest.foldlM (Terms.push ar source) t = .error (.divisionByZero ⟨source, n.span⟩)) ∨
      zeroDivisor? tokens = none ∧ ∃ t', rest.foldlM (Terms.push ar source) t = .ok t' := by
  induction h generalizing t with
  | nil => exact .inr ⟨rfl, t, rfl⟩
  | @cons op offset n x tokens rest hx hrest ih =>
      -- a step is refused for its divisor alone, so nothing is asked about the terms
      rw [zeroDivisor?_cons hx, List.foldlM_cons]
      rcases t.push_eq ar source (op, x) with ⟨hrefuse, hpush⟩ | ⟨t', hrefuse, hpush, -⟩
      · rw [hrefuse, hpush]
        exact .inl ⟨n, rfl, by rw [← hx.span]; rfl⟩
      · rw [hrefuse, hpush]
        exact ih t'

/-- The first operand of an expression is no divisor. -/
theorem Expresses.exists_rest {tokens : List Token} {e : Expression} (h : Expresses tokens e) :
    ∃ behind, ExpressesRest behind e.rest ∧ zeroDivisor? behind = zeroDivisor? tokens := by
  cases h with
  | plain _ hrest => exact ⟨_, hrest, rfl⟩
  | negative _ hrest => exact ⟨_, hrest, rfl⟩

section

variable {tokens : List Token} {e : Expression}

/-- **With a zero divisor**, the leftmost one is reported. -/
theorem Expresses.value_of_zeroDivisor {n : Numeral} (h : Expresses tokens e)
    (hn : zeroDivisor? tokens = some n) (ar : Arithmetic) (source : String) :
    e.value ar source = .error (.divisionByZero ⟨source, n.span⟩) := by
  obtain ⟨behind, hrest, hdivisor⟩ := h.exists_rest
  rcases hrest.foldlM_push_eq ar source ⟨e.first.value, []⟩ with ⟨m, hm, hpush⟩ | ⟨hnone, -⟩
  · obtain rfl := Option.some.inj (hn.symm.trans (hdivisor.symm.trans hm))
    rw [Expression.value, Expression.terms, hpush]
    rfl
  · cases hn.symm.trans (hdivisor.symm.trans hnone)

/-- **Without a zero divisor**, an expression has a value. -/
theorem Expresses.exists_value (h : Expresses tokens e) (hnone : zeroDivisor? tokens = none)
    (ar : Arithmetic) (source : String) : ∃ x, e.value ar source = .ok x := by
  obtain ⟨behind, hrest, hdivisor⟩ := h.exists_rest
  rcases hrest.foldlM_push_eq ar source ⟨e.first.value, []⟩ with ⟨m, hm, -⟩ | ⟨-, t, hpush⟩
  · cases hnone.symm.trans (hdivisor.symm.trans hm)
  · refine ⟨t.total ar, ?_⟩
    rw [Expression.value, Expression.terms, hpush]
    rfl

end

/-! ### Texts -/

/-- **Division by zero is decided by the literals**, after the text is known to be an
expression. A text divides by zero exactly if it is not empty, holds an expression, and one
of its divisors denotes at most `2 ^ -1075`; the fault names the leftmost one. A text that
holds no expression has the fault of the parser instead, and one that holds an expression
without such a divisor has a value. None of this depends on what the operations come to:
it is the same for any four of them. -/
theorem evaluate_eq_divisionByZero_iff (mode : Mode) (text : String) :
    (∀ site, evaluate mode text = .error (.divisionByZero site) ↔
      text ≠ "" ∧ ∃ e tokens n, parse mode text = .ok e ∧ tokenize mode text = .ok tokens ∧
        zeroDivisor? tokens = some n ∧ site = ⟨text, n.span⟩) ∧
    (∀ fault, parse mode text = .error fault → fault.kind = .malformed ∧
      ∀ site, evaluate mode text ≠ .error (.divisionByZero site)) ∧
    ∀ e tokens, parse mode text = .ok e → tokenize mode text = .ok tokens →
      (zeroDivisor? tokens = none → ∃ x, evaluate mode text = .ok x) ∧
      ∀ ar : Arithmetic,
        (∀ n, zeroDivisor? tokens = some n →
          e.value ar text = .error (.divisionByZero ⟨text, n.span⟩)) ∧
        (zeroDivisor? tokens = none → ∃ x, e.value ar text = .ok x) := by
  have hexpresses {e : Expression} {tokens : List Token} (hparse : parse mode text = .ok e)
      (htokens : tokenize mode text = .ok tokens) : Expresses tokens e := by
    obtain ⟨tokens', htokens', h⟩ := exists_expresses_of_parse hparse
    obtain rfl := Except.ok.inj (htokens.symm.trans htokens')
    exact h
  refine ⟨?_, ?_, ?_⟩
  · intro site
    constructor
    · intro h
      obtain ⟨hne, hparse | ⟨e, -, hparse, -⟩⟩ := fault_of_evaluate h
      · exact nomatch kind_of_parse_eq_error hparse
      · obtain ⟨tokens, htokens, hexpr⟩ := exists_expresses_of_parse hparse
        rw [evaluate_of_parse hparse] at h
        cases hdivisor : zeroDivisor? tokens with
        | none =>
            obtain ⟨x, hvalue⟩ := hexpr.exists_value hdivisor .binary64 text
            cases hvalue.symm.trans h
        | some n =>
            cases (hexpr.value_of_zeroDivisor hdivisor .binary64 text).symm.trans h
            exact ⟨hne, e, tokens, n, hparse, htokens, hdivisor, rfl⟩
    · rintro ⟨-, e, tokens, n, hparse, htokens, hn, rfl⟩
      rw [evaluate_of_parse hparse]
      exact (hexpresses hparse htokens).value_of_zeroDivisor hn .binary64 text
  · intro fault hparse
    refine ⟨kind_of_parse_eq_error hparse, fun site h => ?_⟩
    obtain ⟨-, hfault | ⟨e, -, hok, -⟩⟩ := fault_of_evaluate h
    · exact nomatch kind_of_parse_eq_error hfault
    · cases hok.symm.trans hparse
  · intro e tokens hparse htokens
    have hexpr := hexpresses hparse htokens
    refine ⟨fun hnone => ?_, fun ar => ⟨fun n hn => hexpr.value_of_zeroDivisor hn ar text,
      fun hnone => hexpr.exists_value hnone ar text⟩⟩
    rw [evaluate_of_parse hparse]
    exact hexpr.exists_value hnone .binary64 text

end Keypad
