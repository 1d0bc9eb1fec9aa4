import Keypad.Expression.Evaluator

/-!
# Evaluation by precedence

An expression is a flat list, and its value depends on how the list is bracketed. This
module says which bracketing is meant, by the grammar

```
sum  = term (('+' | '-') term)*
term = operand (('*' | '/') operand)*
```

with every chain associated to the left, and shows that the two passes of the evaluator
compute the value of that bracketing. The trees of the grammar are the predicates
`OperationTree.IsTerm` and `OperationTree.IsSum`; what a tree is worth is
`OperationTree.eval`, which does not know about passes, terms or summands.

The bridge between the two is a third evaluator, which reads the list once and carries a
sum, the operator that waits behind it and the term that is being read (`Chain`). It is
written for any kind of value: over trees it builds the bracketing, and over binary64
values it evaluates.

**Nothing is assumed about the four operations.** All statements are for an arbitrary
`Arithmetic`, so they also say that the same operations are applied to the same values.

## Main results

* `OperationTree.eq_tree_of_isSum`, `Expression.isSum_tree`: the bracketing exists
  and is unique.
* `Expression.eval_tree`: the tree and the one-pass evaluator agree.
* `Expression.terms_eq_onePass`: the two passes and the one-pass evaluator agree.
* `exists_precedence_tree`: the two passes compute the value of the bracketing, and fail
  exactly when it has none.
-/

namespace Keypad

/-! ### Operations by name -/

/-- The operation that an operator stands for. -/
def Arithmetic.operate (ar : Arithmetic) : Operator → Float → Float → Float
  | .plus => ar.add
  | .minus => ar.subtract
  | .star => ar.multiply
  | .slash => ar.divide

/-- Whether the operator refuses a value on its right: `/` refuses both zeros. -/
def Operator.refuses : Operator → Float → Bool
  | .slash, x => x == 0.0
  | _, _ => false

/-- An operator that refuses anything is multiplicative. -/
theorem Operator.refuses_of_not_isMultiplicative {op : Operator}
    (h : op.isMultiplicative = false) (x : Float) : op.refuses x = false := by
  cases op with
  | plus => rfl
  | minus => rfl
  | star => rfl
  | slash => exact absurd h (by decide)

/-! ### Trees -/

/-- A bracketed expression: operations over operands. -/
inductive OperationTree
  | operand (x : Operand)
  | operation (op : Operator) (left right : OperationTree)

namespace OperationTree

/-- The operands and operators of a tree from left to right, without the brackets. -/
def expression : OperationTree → Expression
  | operand x => ⟨x, []⟩
  | operation op left right =>
      ⟨left.expression.first,
        left.expression.rest ++ (op, right.expression.first) :: right.expression.rest⟩

/-- The trees of `term = operand (('*' | '/') operand)*`. -/
inductive IsTerm : OperationTree → Prop
  | operand (x : Operand) : IsTerm (operand x)
  | chain {op : Operator} {left : OperationTree} (x : Operand) :
      IsTerm left → op.isMultiplicative = true → IsTerm (operation op left (.operand x))

/-- The trees of `sum = term (('+' | '-') term)*`. -/
inductive IsSum : OperationTree → Prop
  | term {t : OperationTree} : IsTerm t → IsSum t
  | chain {op : Operator} {left right : OperationTree} :
      IsSum left → op.isMultiplicative = false → IsTerm right →
      IsSum (operation op left right)

/-- What a tree is worth: nothing, if a divisor is zero. -/
def eval (ar : Arithmetic) : OperationTree → Option Float
  | operand x => some x.value
  | operation op left right => do
      let a ← left.eval ar
      let b ← right.eval ar
      if op.refuses b then none else some (ar.operate op a b)

end OperationTree

/-! ### Reading the list once -/

/-- What a one-pass reader carries: a sum with the operator that waits behind it, once
there is one, and the term that is being read. -/
structure Chain (α : Type) where
  /-- The sum of the terms before, with the operator after it. -/
  sum : Option (α × Operator)
  /-- The term so far. -/
  term : α

namespace Chain

variable {α : Type} (operate : Operator → α → α → α)

/-- The sum with the term that is being read. -/
def close : Chain α → α
  | ⟨none, term⟩ => term
  | ⟨some (sum, op), term⟩ => operate op sum term

/-- One step: `*` and `/` extend the term, `+` and `-` close the sum and begin another
term. -/
def push (c : Chain α) (op : Operator) (x : α) : Chain α :=
  if op.isMultiplicative then ⟨c.sum, operate op c.term x⟩ else ⟨some (c.close operate, op), x⟩

end Chain

/-- One step of the one-pass evaluator. -/
def Arithmetic.step (ar : Arithmetic) (c : Chain Float) (p : Operator × Operand) :
    Option (Chain Float) :=
  if p.1.refuses p.2.value then none else some (c.push ar.operate p.1 p.2.value)

namespace Expression

/-- The value of an expression by the one-pass evaluator. -/
def onePass (ar : Arithmetic) (e : Expression) : Option Float :=
  (e.rest.foldlM ar.step ⟨none, e.first.value⟩).map (Chain.close ar.operate)

/-- The bracketing of an expression: the one-pass reader over trees. -/
def tree (e : Expression) : OperationTree :=
  (e.rest.foldl (fun c p => c.push .operation p.1 (.operand p.2))
    (⟨none, .operand e.first⟩ : Chain OperationTree)).close .operation

/-- Some operand that follows a `/` is zero. -/
def HasZeroDivisor (e : Expression) : Prop :=
  ∃ x, (.slash, x) ∈ e.rest ∧ (x.value == 0.0) = true

end Expression

/-! ### The bracketing exists and is unique -/

namespace OperationTree

/-- Reading on over the operators and operands of a term that stands behind a waiting sum
only extends the term. -/
theorem IsTerm.foldl_push {t : OperationTree} (h : t.IsTerm)
    (sum : Option (OperationTree × Operator)) :
    t.expression.rest.foldl (fun c p => c.push .operation p.1 (.operand p.2))
      (⟨sum, .operand t.expression.first⟩ : Chain OperationTree) = ⟨sum, t⟩ := by
  induction h with
  | operand x => rfl
  | chain x _ hop ih =>
      simp only [expression, List.foldl_append, List.foldl_cons, List.foldl_nil]
      rw [ih, Chain.push, if_pos hop]

/-- Reading a whole sum and closing it gives the tree back. -/
theorem IsSum.close_foldl_push {t : OperationTree} (h : t.IsSum) :
    (t.expression.rest.foldl (fun c p => c.push .operation p.1 (.operand p.2))
      (⟨none, .operand t.expression.first⟩ : Chain OperationTree)).close .operation = t := by
  induction h with
  | term h => rw [h.foldl_push]; rfl
  | chain _ hop hright ih =>
      simp only [expression, List.foldl_append, List.foldl_cons]
      rw [Chain.push, hop, if_neg Bool.false_ne_true, ih, hright.foldl_push]
      rfl

/-- **Uniqueness**: a tree of the grammar is the bracketing of its own operands and
operators. -/
theorem eq_tree_of_isSum {t : OperationTree} (h : t.IsSum) : t = t.expression.tree :=
  h.close_foldl_push.symm

end OperationTree

namespace Chain

/-- What a one-pass reader over trees has in hand: a term, and behind it a sum with an
additive operator. -/
structure Grammatical (c : Chain OperationTree) : Prop where
  isTerm : c.term.IsTerm
  isSum : ∀ left op, c.sum = some (left, op) → left.IsSum ∧ op.isMultiplicative = false

/-- Closing what is in hand gives a tree of the grammar. -/
theorem Grammatical.isSum_close {c : Chain OperationTree} (h : c.Grammatical) :
    (c.close .operation).IsSum := by
  obtain ⟨_ | ⟨left, op⟩, term⟩ := c
  · exact .term h.isTerm
  · obtain ⟨hleft, hop⟩ := h.isSum left op rfl
    exact .chain hleft hop h.isTerm

/-- One step keeps to the grammar. -/
theorem Grammatical.push {c : Chain OperationTree} (h : c.Grammatical) (op : Operator)
    (x : Operand) : (c.push .operation op (.operand x)).Grammatical := by
  rw [Chain.push]
  split
  · next hop => exact ⟨.chain x h.isTerm hop, h.isSum⟩
  · next hop =>
      refine ⟨.operand x, ?_⟩
      rintro left op' ⟨rfl, rfl⟩
      exact ⟨h.isSum_close, Bool.eq_false_iff.mpr hop⟩

/-- One step reads one operator and one operand. -/
theorem expression_close_push (c : Chain OperationTree) (op : Operator) (x : Operand) :
    ((c.push .operation op (.operand x)).close .operation).expression =
      ⟨(c.close .operation).expression.first,
        (c.close .operation).expression.rest ++ [(op, x)]⟩ := by
  rw [Chain.push]
  split
  · obtain ⟨_ | ⟨left, waiting⟩, term⟩ := c
    · rfl
    · simp [close, OperationTree.expression]
  · rfl

end Chain

namespace Expression

/-- Reading on keeps to the grammar and reads all that is there, in order. -/
theorem foldl_push_grammatical (rest : List (Operator × Operand)) (c : Chain OperationTree)
    (h : c.Grammatical) :
    (rest.foldl (fun c p => c.push .operation p.1 (.operand p.2)) c).Grammatical ∧
      ((rest.foldl (fun c p => c.push .operation p.1 (.operand p.2)) c).close
        .operation).expression =
        ⟨(c.close .operation).expression.first,
          (c.close .operation).expression.rest ++ rest⟩ := by
  induction rest generalizing c with
  | nil => exact ⟨h, by simp⟩
  | cons p rest ih =>
      obtain ⟨hgram, hexpr⟩ := ih (c.push .operation p.1 (.operand p.2)) (h.push p.1 p.2)
      refine ⟨hgram, ?_⟩
      rw [List.foldl_cons, hexpr, Chain.expression_close_push]
      simp

/-- The bracketing of an expression is a tree of the grammar over that expression. -/
theorem isSum_tree (e : Expression) : e.tree.IsSum ∧ e.tree.expression = e := by
  have hstart : (⟨none, .operand e.first⟩ : Chain OperationTree).Grammatical :=
    ⟨.operand e.first, fun _ _ h => nomatch h⟩
  obtain ⟨hgram, hexpr⟩ := foldl_push_grammatical e.rest _ hstart
  exact ⟨hgram.isSum_close, by rw [tree, hexpr]; rfl⟩

end Expression

/-! ### The tree and the one-pass evaluator -/

namespace Chain

/-- What the sum in hand is worth, with its operator. -/
def evalSum (ar : Arithmetic) :
    Option (OperationTree × Operator) → Option (Option (Float × Operator))
  | none => some none
  | some (left, op) => (left.eval ar).map fun sum => some (sum, op)

/-- What the values in hand are worth: nothing, if a divisor among them is zero. -/
def eval (ar : Arithmetic) (c : Chain OperationTree) : Option (Chain Float) := do
  let term ← c.term.eval ar
  let sum ← evalSum ar c.sum
  return ⟨sum, term⟩

/-- Closing commutes with evaluation, since additive operators refuse nothing. -/
theorem Grammatical.eval_close {c : Chain OperationTree} (h : c.Grammatical)
    (ar : Arithmetic) :
    (c.close .operation).eval ar = (c.eval ar).map (close ar.operate) := by
  obtain ⟨_ | ⟨left, op⟩, term⟩ := c
  · cases hterm : term.eval ar <;> simp [close, eval, evalSum, hterm]
  · obtain ⟨-, hop⟩ := h.isSum left op rfl
    have hrefuse := Operator.refuses_of_not_isMultiplicative hop
    cases hterm : term.eval ar <;> cases hleft : left.eval ar <;>
      simp [close, eval, evalSum, OperationTree.eval, hterm, hleft, hrefuse]

/-- One step commutes with evaluation. -/
theorem Grammatical.eval_push {c : Chain OperationTree} (h : c.Grammatical)
    (ar : Arithmetic) (p : Operator × Operand) :
    (c.push .operation p.1 (.operand p.2)).eval ar = (c.eval ar).bind fun d => ar.step d p := by
  obtain ⟨op, x⟩ := p
  by_cases hop : op.isMultiplicative = true
  · -- the operator joins the term, which may refuse the operand; the sum waits
    cases hterm : c.term.eval ar <;> cases hsum : evalSum ar c.sum <;>
      by_cases hx : op.refuses x.value = true <;>
      simp [Chain.push, hop, eval, OperationTree.eval, Arithmetic.step, hterm, hsum, hx]
  · have hclose := h.eval_close ar
    have hrefuse := Operator.refuses_of_not_isMultiplicative (Bool.eq_false_iff.mpr hop)
    cases heval : c.eval ar with
    | none =>
        rw [heval] at hclose
        simp [Chain.push, hop, eval, evalSum, OperationTree.eval, hclose]
    | some d =>
        rw [heval] at hclose
        simp [Chain.push, hop, eval, evalSum, OperationTree.eval, Arithmetic.step, hclose,
          hrefuse]

end Chain

namespace Expression

/-- Reading on commutes with evaluation: the trees in hand after reading on are worth what
the one-pass evaluator makes of their values. -/
theorem eval_foldl_push (ar : Arithmetic) (rest : List (Operator × Operand))
    (c : Chain OperationTree) (h : c.Grammatical) :
    (rest.foldl (fun c p => c.push .operation p.1 (.operand p.2)) c).eval ar =
      (c.eval ar).bind fun d => rest.foldlM ar.step d := by
  induction rest generalizing c with
  | nil => cases hc : c.eval ar <;> simp [hc]
  | cons p rest ih =>
      rw [List.foldl_cons, ih _ (h.push p.1 p.2), h.eval_push ar p, Option.bind_assoc]
      rfl

/-- **The tree is worth what the one-pass evaluator computes.** -/
theorem eval_tree (ar : Arithmetic) (e : Expression) : e.tree.eval ar = e.onePass ar := by
  have hstart : (⟨none, .operand e.first⟩ : Chain OperationTree).Grammatical :=
    ⟨.operand e.first, fun _ _ h => nomatch h⟩
  obtain ⟨hgram, -⟩ := foldl_push_grammatical e.rest _ hstart
  rw [tree, hgram.eval_close, eval_foldl_push ar e.rest _ hstart, onePass]
  rfl

end Expression

/-! ### The two passes and the one-pass evaluator -/

namespace Terms

/-- The one-pass reader's view of the terms: all but the latest are summed, and the latest
is the term that is being read. -/
def chain (ar : Arithmetic) : Terms → Chain Float
  | ⟨head, []⟩ => ⟨none, head⟩
  | ⟨head, .add x :: earlier⟩ => ⟨some ((⟨head, earlier⟩ : Terms).total ar, .plus), x⟩
  | ⟨head, .subtract x :: earlier⟩ => ⟨some ((⟨head, earlier⟩ : Terms).total ar, .minus), x⟩

/-- The latest term is added last. -/
theorem total_cons (ar : Arithmetic) (head : Float) (latest : Summand)
    (earlier : List Summand) :
    (⟨head, latest :: earlier⟩ : Terms).total ar =
      latest.applyTo ar ((⟨head, earlier⟩ : Terms).total ar) := by
  simp [total, List.foldl_append]

/-- The second pass closes the chain. -/
theorem close_chain (ar : Arithmetic) (t : Terms) :
    (t.chain ar).close ar.operate = t.total ar := by
  obtain ⟨head, _ | ⟨_ | _, earlier⟩⟩ := t
  · rfl
  · rw [total_cons]; rfl
  · rw [total_cons]; rfl

/-- Changing the latest term changes the term that is being read. -/
theorem chain_mapLatest (ar : Arithmetic) (f : Float → Float) (t : Terms) :
    (t.mapLatest f).chain ar = ⟨(t.chain ar).sum, f (t.chain ar).term⟩ := by
  obtain ⟨head, _ | ⟨_ | _, earlier⟩⟩ := t <;> rfl

/-- **One step of the first pass is one step of the one-pass evaluator**, and it fails at
the operands that the operator refuses, naming the operand. -/
theorem push_eq (ar : Arithmetic) (source : String) (t : Terms) (p : Operator × Operand) :
    (p.1.refuses p.2.value = true ∧
        t.push ar source p = .error (.divisionByZero ⟨source, p.2.span⟩)) ∨
      ∃ t', p.1.refuses p.2.value = false ∧ t.push ar source p = .ok t' ∧
        t'.chain ar = (t.chain ar).push ar.operate p.1 p.2.value := by
  obtain ⟨op, x⟩ := p
  cases op with
  | plus => exact .inr ⟨_, rfl, rfl, by rw [Chain.push, close_chain]; rfl⟩
  | minus => exact .inr ⟨_, rfl, rfl, by rw [Chain.push, close_chain]; rfl⟩
  | star => exact .inr ⟨_, rfl, rfl, chain_mapLatest ar _ t⟩
  | slash =>
      cases hx : (x.value == 0.0) with
      | true => exact .inl ⟨hx, by rw [push, if_pos hx]⟩
      | false =>
          refine .inr ⟨t.mapLatest fun left => ar.divide left x.value, hx, ?_, ?_⟩
          · rw [push, if_neg (by rw [hx]; decide)]
          · exact chain_mapLatest ar _ t

end Terms

namespace Expression

/-- The first pass over a list either reads it all, and the one-pass evaluator comes to the
same chain, or stops at an operand that is refused, and the one-pass evaluator fails. -/
theorem foldlM_push_eq (ar : Arithmetic) (source : String)
    (rest : List (Operator × Operand)) (t : Terms) :
    (∃ p ∈ rest, p.1.refuses p.2.value = true ∧
        rest.foldlM (Terms.push ar source) t = .error (.divisionByZero ⟨source, p.2.span⟩) ∧
        rest.foldlM ar.step (t.chain ar) = none) ∨
      ∃ t', (∀ p ∈ rest, p.1.refuses p.2.value = false) ∧
        rest.foldlM (Terms.push ar source) t = .ok t' ∧
        rest.foldlM ar.step (t.chain ar) = some (t'.chain ar) := by
  induction rest generalizing t with
  | nil => exact .inr ⟨t, by simp, rfl, rfl⟩
  | cons p rest ih =>
      rcases t.push_eq ar source p with ⟨hp, hpush⟩ | ⟨t₁, hp, hpush, hchain⟩
      · refine .inl ⟨p, by simp, hp, ?_, ?_⟩
        · rw [List.foldlM_cons, hpush]; rfl
        · rw [List.foldlM_cons, Arithmetic.step, if_pos hp]; rfl
      · have hstep : ar.step (t.chain ar) p = some (t₁.chain ar) := by
          rw [Arithmetic.step, if_neg (by rw [hp]; decide), hchain]
        rcases ih t₁ with ⟨q, hq, hzero, hterms, hnone⟩ | ⟨t', hall, hterms, hsome⟩
        · refine .inl ⟨q, List.mem_cons_of_mem p hq, hzero, ?_, ?_⟩
          · rw [List.foldlM_cons, hpush]; exact hterms
          · rw [List.foldlM_cons, hstep]; exact hnone
        · refine .inr ⟨t', ?_, ?_, ?_⟩
          · exact List.forall_mem_cons.mpr ⟨hp, hall⟩
          · rw [List.foldlM_cons, hpush]; exact hterms
          · rw [List.foldlM_cons, hstep]; exact hsome

/-- Only a zero behind a `/` is refused. -/
theorem hasZeroDivisor_iff (e : Expression) :
    e.HasZeroDivisor ↔ ∃ p ∈ e.rest, p.1.refuses p.2.value = true := by
  constructor
  · rintro ⟨x, hmem, hx⟩
    exact ⟨_, hmem, hx⟩
  · rintro ⟨⟨op, x⟩, hmem, hx⟩
    cases op with
    | slash => exact ⟨x, hmem, hx⟩
    | plus | minus | star => exact absurd hx (by simp [Operator.refuses])

/-- **Without a zero divisor** the two passes come to the value of the one-pass evaluator. -/
theorem terms_eq_onePass {e : Expression} (h : ¬ e.HasZeroDivisor) (ar : Arithmetic)
    (source : String) :
    ∃ terms, e.terms ar source = .ok terms ∧ e.onePass ar = some (terms.total ar) := by
  rcases foldlM_push_eq ar source e.rest ⟨e.first.value, []⟩ with
    ⟨p, hp, hzero, -⟩ | ⟨t, -, hterms, hsome⟩
  · exact absurd (e.hasZeroDivisor_iff.mpr ⟨p, hp, hzero⟩) h
  · refine ⟨t, hterms, ?_⟩
    rw [onePass, ← Terms.close_chain]
    exact congrArg (Option.map _) hsome

/-- **With a zero divisor** the first pass reports one, and the one-pass evaluator fails. -/
theorem terms_eq_error {e : Expression} (h : e.HasZeroDivisor) (ar : Arithmetic)
    (source : String) :
    (∃ x, (.slash, x) ∈ e.rest ∧ (x.value == 0.0) = true ∧
        e.terms ar source = .error (.divisionByZero ⟨source, x.span⟩)) ∧
      e.onePass ar = none := by
  rcases foldlM_push_eq ar source e.rest ⟨e.first.value, []⟩ with
    ⟨⟨op, x⟩, hp, hzero, hterms, hnone⟩ | ⟨t, hall, -⟩
  · refine ⟨?_, congrArg (Option.map _) hnone⟩
    cases op with
    | slash => exact ⟨x, hp, hzero, hterms⟩
    | plus | minus | star => exact absurd hzero (by simp [Operator.refuses])
  · obtain ⟨p, hp, hzero⟩ := e.hasZeroDivisor_iff.mp h
    exact absurd hzero (by rw [hall p hp]; decide)

end Expression

/-! ### The value of the bracketing -/

/-- **Evaluation follows the precedence tree.** Every expression has exactly one bracketing
by the grammar. Whatever the four operations are, and whatever the operands: if no divisor
is zero, the two passes come to the value of that tree, and so does the one-pass evaluator;
if some divisor is zero, the first pass reports one and the tree has no value. So a text
that holds an expression without a zero divisor evaluates to the value of its tree. -/
theorem exists_precedence_tree (e : Expression) :
    ∃ t : OperationTree, (t.IsSum ∧ t.expression = e) ∧
      (∀ t' : OperationTree, t'.IsSum → t'.expression = e → t' = t) ∧
      (∀ (ar : Arithmetic) (source : String), ¬ e.HasZeroDivisor →
        ∃ terms, e.terms ar source = .ok terms ∧ t.eval ar = some (terms.total ar) ∧
          e.onePass ar = some (terms.total ar)) ∧
      (∀ (ar : Arithmetic) (source : String), e.HasZeroDivisor →
        (∃ x, (.slash, x) ∈ e.rest ∧ (x.value == 0.0) = true ∧
          e.terms ar source = .error (.divisionByZero ⟨source, x.span⟩)) ∧
        t.eval ar = none ∧ e.onePass ar = none) ∧
      (∀ (mode : Mode) (text : String), parse mode text = .ok e → ¬ e.HasZeroDivisor →
        ∃ x, evaluate mode text = .ok x ∧ t.eval .binary64 = some x ∧
          e.onePass .binary64 = some x) := by
  refine ⟨e.tree, e.isSum_tree, ?_, ?_, ?_, ?_⟩
  · rintro t' hsum rfl
    exact OperationTree.eq_tree_of_isSum hsum
  · intro ar source hzero
    obtain ⟨terms, hterms, hone⟩ := Expression.terms_eq_onePass hzero ar source
    exact ⟨terms, hterms, by rw [e.eval_tree, hone], hone⟩
  · intro ar source hzero
    obtain ⟨herror, hone⟩ := Expression.terms_eq_error hzero ar source
    exact ⟨herror, by rw [e.eval_tree, hone], hone⟩
  · intro mode text hparse hzero
    obtain ⟨terms, hterms, hone⟩ := Expression.terms_eq_onePass hzero .binary64 text
    refine ⟨terms.total .binary64, ?_, by rw [e.eval_tree, hone], hone⟩
    rw [evaluate_of_parse hparse, Expression.value, hterms]
    rfl

end Keypad
