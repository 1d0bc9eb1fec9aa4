import Keypad.Expression.Printer
import Keypad.Proofs.Binary64.Shortest
import Keypad.Proofs.Expression.Faults
import Keypad.Proofs.Expression.Operands
import Keypad.Proofs.Expression.Precedence

/-!
# A printed expression parses back

An expression is written with its values and without the places they were read from, so
reading it again cannot give back the places. **It gives back everything else**: the
operators, and every value to the bit. What is written depends on these only, and so does
what an expression comes to.

A value is written with its sign, and a sign can be read in front of an expression only.
That is enough, since an expression that was read has no other sign; and an infinity cannot
be read at all, so the values have to be finite.

## Main definitions

* `Expression.values`: an expression without its places.
* `Expression.phrase`: an expression as a sentence of the grammar.

## Main results

* `Expression.spelled_text`: the written form spells the phrase, with single blanks.
* `Expression.value_of_values_eq`: expressions of the same values come to the same.
* `parse_printed`: **the written form is read as an expression of the same values.**
-/

namespace Keypad

open Binary64 (code isNegative shortest)

namespace Expression

/-! ### What does not depend on places -/

/-- An expression without its places: its operators, and the values of its operands. -/
def values (e : Expression) : Float × List (Operator × Float) :=
  (e.first.value, e.rest.map fun p => (p.1, p.2.value))

section

variable {e f : Expression}

/-- Operands of the same values are written alike. -/
theorem restText_congr {rest rest' : List (Operator × Operand)}
    (h : rest.map (fun p => (p.1, p.2.value)) = rest'.map fun p => (p.1, p.2.value)) :
    restText rest = restText rest' := by
  induction rest generalizing rest' with
  | nil => rw [List.map_eq_nil_iff.mp h.symm]
  | cons p rest ih =>
      cases rest' with
      | nil => cases h
      | cons q rest' =>
          obtain ⟨hstep, hrest⟩ := List.cons.inj h
          obtain ⟨hop, hvalue⟩ := Prod.mk.inj hstep
          rw [restText, restText, hop, hvalue, ih hrest]

/-- **Expressions of the same values are written alike.** -/
theorem text_of_values_eq (h : e.values = f.values) : e.text = f.text := by
  obtain ⟨hfirst, hrest⟩ := Prod.mk.inj h
  rw [text, text, hfirst, restText_congr hrest]

/-- The one-pass evaluator looks at values only. -/
theorem onePass_of_values_eq (h : e.values = f.values) (ar : Arithmetic) :
    e.onePass ar = f.onePass ar := by
  let step (c : Chain Float) (p : Operator × Float) : Option (Chain Float) :=
    if p.1.refuses p.2 then none else some (c.push ar.operate p.1 p.2)
  have hvalues (g : Expression) : g.onePass ar =
      (g.values.2.foldlM step ⟨none, g.values.1⟩).map (Chain.close ar.operate) := by
    rw [values, List.foldlM_map]
    rfl
  rw [hvalues e, hvalues f, h]

/-- An expression has the value that the one-pass evaluator comes to, or none. -/
theorem toOption_value (e : Expression) (ar : Arithmetic) (source : String) :
    (e.value ar source).toOption = e.onePass ar := by
  by_cases hzero : e.HasZeroDivisor
  · obtain ⟨⟨x, -, -, hterms⟩, hone⟩ := e.terms_eq_error hzero ar source
    rw [value, hterms, hone]
    rfl
  · obtain ⟨terms, hterms, hone⟩ := e.terms_eq_onePass hzero ar source
    rw [value, hterms, hone]
    rfl

/-- **Expressions of the same values come to the same value**, or both divide by zero. -/
theorem value_of_values_eq (h : e.values = f.values) (ar : Arithmetic)
    (source source' : String) :
    (∃ x, e.value ar source = .ok x ∧ f.value ar source' = .ok x) ∨
      ∃ site site', e.value ar source = .error (.divisionByZero site) ∧
        f.value ar source' = .error (.divisionByZero site') := by
  have hoption : (e.value ar source).toOption = (f.value ar source').toOption := by
    rw [toOption_value, toOption_value, onePass_of_values_eq h]
  cases he : e.value ar source with
  | ok x =>
      cases hf : f.value ar source' with
      | ok y =>
          rw [he, hf] at hoption
          exact .inl ⟨x, rfl, congrArg Except.ok (Option.some.inj hoption).symm⟩
      | error fault =>
          rw [he, hf] at hoption
          cases hoption
  | error fault =>
      cases hf : f.value ar source' with
      | ok y =>
          rw [he, hf] at hoption
          cases hoption
      | error fault' =>
          obtain ⟨x, -, -, rfl⟩ := fault_of_value he
          obtain ⟨y, -, -, rfl⟩ := fault_of_value hf
          exact .inr ⟨_, _, rfl, rfl⟩

end

/-! ### The written form -/

/-- The literal that a value is written as, without its sign. -/
def literal (x : Float) : Literal :=
  ⟨(shortest (code x)).toList, (shortest (code x)).isLiteral_toList⟩

/-- The literal is the shortest decimal. -/
theorem coe_literal (x : Float) : (literal x).1 = (shortest (code x)).toList := by
  unfold literal
  dsimp only

-- comparing literals has to stop at their values and not compute their digits
attribute [irreducible] literal

/-- A finite value is written as its sign and its literal. -/
theorem toList_text {x : Float} (h : x.isFinite = true) :
    (Binary64.text x).toList = (if isNegative x then ['-'] else []) ++ (literal x).1 := by
  rw [coe_literal, Binary64.toList_text h]

/-- **Reading the literal of a value gives it back**, with the sign put in front again. -/
theorem eq_of_reads_literal {x y : Float} (h : x.isFinite = true)
    (hread : Phrase.Reads (literal x) y) : (if isNegative x then -y else y) = x := by
  rw [Phrase.Reads, coe_literal, Binary64.ofLiteral?_shortest h, Option.some_inj] at hread
  rw [← hread, Binary64.signed_ofCode h]

/-- **The expression as a sentence of the grammar**: the literals of its values, and a `-`
in front if the first has a sign. -/
def phrase (e : Expression) : Phrase :=
  ⟨isNegative e.first.value, literal e.first.value, e.rest.map fun p => (p.1, literal p.2.value)⟩

/-- Operators and operands without a sign are written as their lexemes, each behind a
blank. -/
theorem spelled_restText {rest : List (Operator × Operand)}
    (h : ∀ p ∈ rest, p.2.value.isFinite = true ∧ isNegative p.2.value = false) :
    Spelled (Phrase.restLexemes (rest.map fun p => (p.1, literal p.2.value)))
      (restText rest).toList := by
  have hblank : ∀ c ∈ [' '], isBlank c = true := List.forall_mem_singleton.mpr (by decide)
  induction rest with
  | nil => exact .nil (by simp [restText])
  | cons p rest ih =>
      obtain ⟨⟨hfinite, hneg⟩, hrest⟩ := List.forall_mem_cons.mp h
      have htext : (restText (p :: rest)).toList = [' '] ++ [p.1.symbol] ++
          ([' '] ++ (literal p.2.value).1 ++ (restText rest).toList) := by
        simp [restText, toList_text hfinite, hneg]
      rw [htext, List.map_cons, Phrase.restLexemes, List.flatMap_cons]
      exact .cons (l := .operator p.1) hblank (.cons (l := .number _) hblank (ih hrest))

/-- **The written form spells the phrase**, if the values are finite and only the first has
a sign. -/
theorem spelled_text {e : Expression} (hfirst : e.first.value.isFinite = true)
    (hrest : ∀ p ∈ e.rest, p.2.value.isFinite = true ∧ isNegative p.2.value = false) :
    Spelled e.phrase.lexemes e.text.toList := by
  have hspelled : Spelled (.number e.phrase.first :: Phrase.restLexemes e.phrase.rest)
      ((literal e.first.value).1 ++ (restText e.rest).toList) :=
    .chars_append (.number (literal e.first.value)) (spelled_restText hrest)
  have hnegative : e.phrase.negative = isNegative e.first.value := rfl
  rw [text, String.toList_append, toList_text hfirst, List.append_assoc, Phrase.lexemes,
    hnegative]
  cases isNegative e.first.value with
  | true =>
      rw [if_pos rfl, if_pos rfl]
      exact .chars_append (.operator .minus) hspelled
  | false =>
      rw [if_neg Bool.false_ne_true, if_neg Bool.false_ne_true]
      exact hspelled

/-- What the literals of operands without a sign denote are the values of the operands. -/
theorem map_values_of_readsRest {rest rest' : List (Operator × Operand)}
    (hrest : ∀ p ∈ rest, p.2.value.isFinite = true ∧ isNegative p.2.value = false)
    (h : Phrase.ReadsRest (rest.map fun p => (p.1, literal p.2.value)) rest') :
    rest'.map (fun p => (p.1, p.2.value)) = rest.map fun p => (p.1, p.2.value) := by
  induction rest generalizing rest' with
  | nil =>
      rw [Phrase.ReadsRest, List.map_nil, List.forall₂_nil_left_iff] at h
      rw [h]
  | cons p rest ih =>
      obtain ⟨⟨hfinite, hneg⟩, hrest⟩ := List.forall_mem_cons.mp hrest
      rw [Phrase.ReadsRest, List.map_cons, List.forall₂_cons_left_iff] at h
      obtain ⟨q, left, ⟨hop, hread⟩, hleft, rfl⟩ := h
      have hvalue := eq_of_reads_literal hfinite hread
      rw [if_neg (by rw [hneg]; decide)] at hvalue
      rw [List.map_cons, List.map_cons, hop, hvalue, ih hrest hleft]

/-- **What the phrase denotes has the values of the expression.** -/
theorem values_of_denotes {e e' : Expression} (hfirst : e.first.value.isFinite = true)
    (hrest : ∀ p ∈ e.rest, p.2.value.isFinite = true ∧ isNegative p.2.value = false)
    (h : e.phrase.Denotes e') : e'.values = e.values := by
  obtain ⟨⟨x, hx, hvalue⟩, hreads⟩ := h
  exact Prod.ext (hvalue.trans (eq_of_reads_literal hfirst hx))
    (map_values_of_readsRest hrest hreads)

/-- An expression whose values are finite and of which only the first has a sign is read
back from its written form, but for the places. -/
theorem exists_parse_text {e : Expression} (hfirst : e.first.value.isFinite = true)
    (hrest : ∀ p ∈ e.rest, p.2.value.isFinite = true ∧ isNegative p.2.value = false)
    (mode : Mode) : ∃ e', parse mode e.text = .ok e' ∧ e'.values = e.values := by
  have hmatches : e.phrase.Matches .strict e.text.toList := spelled_text hfirst hrest
  obtain ⟨e', hstrict, hdenotes⟩ := parse_of_matches hmatches
  refine ⟨e', ?_, values_of_denotes hfirst hrest hdenotes⟩
  cases mode with
  | strict => exact hstrict
  | permissive =>
      rcases keeps_parse_text e.text with hsame | ⟨fault, hfault, -⟩
      · exact hsame.trans hstrict
      · cases hstrict.symm.trans hfault

end Expression

/-! ### Expressions that were read -/

/-- **A printed expression parses back.** Let a text hold an expression with finite values
only. Its written form holds, in either mode, an expression with the same operators and the
same values to the bit, negative zero included; that is written in the same way; and both
texts have the same value, or both divide by zero. -/
theorem parse_printed {mode : Mode} {text : String} {e : Expression}
    (h : parse mode text = .ok e) (hfirst : e.first.value.isFinite = true)
    (hrest : ∀ p ∈ e.rest, p.2.value.isFinite = true) (mode' : Mode) :
    ∃ e', parse mode' e.text = .ok e' ∧ e'.values = e.values ∧ e'.text = e.text ∧
      ((∃ x, evaluate mode text = .ok x ∧ evaluate mode' e.text = .ok x) ∨
        ∃ site site', evaluate mode text = .error (.divisionByZero site) ∧
          evaluate mode' e.text = .error (.divisionByZero site')) := by
  obtain ⟨tokens, -, hexpresses⟩ := exists_expresses_of_parse h
  have hsigns : ∀ p ∈ e.rest, p.2.value.isFinite = true ∧ isNegative p.2.value = false :=
    fun p hp => ⟨hrest p hp, (hexpresses.isNegative_rest p hp).2⟩
  obtain ⟨e', hparse, hvalues⟩ := Expression.exists_parse_text hfirst hsigns mode'
  refine ⟨e', hparse, hvalues, Expression.text_of_values_eq hvalues, ?_⟩
  rw [evaluate_of_parse h, evaluate_of_parse hparse]
  exact Expression.value_of_values_eq hvalues.symm .binary64 text e.text

/-- A negative zero and a literal that is written shorter, with a character dropped. -/
theorem parse_printed_negative_zero :
    parse .permissive "-0*.1x0" = .ok ⟨⟨-0.0, ⟨0, 2⟩⟩, [(.star, ⟨0.1, ⟨3, 7⟩⟩)]⟩ ∧
      ∃ e', parse .strict "-0 * 0.1" = .ok e' ∧
        e'.values = (-0.0, [(.star, 0.1)]) ∧ e'.text = "-0 * 0.1" ∧
        ((∃ x, evaluate .permissive "-0*.1x0" = .ok x ∧ evaluate .strict "-0 * 0.1" = .ok x) ∨
          ∃ site site', evaluate .permissive "-0*.1x0" = .error (.divisionByZero site) ∧
            evaluate .strict "-0 * 0.1" = .error (.divisionByZero site')) := by
  have h : parse .permissive "-0*.1x0" =
      .ok ⟨⟨-0.0, ⟨0, 2⟩⟩, [(.star, ⟨0.1, ⟨3, 7⟩⟩)]⟩ := by
    decide +kernel
  have htext : (⟨⟨-0.0, ⟨0, 2⟩⟩, [(.star, ⟨0.1, ⟨3, 7⟩⟩)]⟩ : Expression).text = "-0 * 0.1" := by
    decide +kernel
  have hprinted := parse_printed h (by decide +kernel) (by decide +kernel) .strict
  rw [htext] at hprinted
  exact ⟨h, hprinted⟩

end Keypad
