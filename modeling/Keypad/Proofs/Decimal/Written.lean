import Keypad.Proofs.Decimal.Literal
import Mathlib.Algebra.Order.Field.Rat
import Mathlib.Tactic.FieldSimp
import Mathlib.Tactic.NormNum
import Mathlib.Tactic.Positivity

/-!
# Written decimals

Positional notation keeps everything about a decimal: its places are the digits behind the
point, zeros at the end among them, and its coefficient is what all of the digits spell.
Reading the notation gives back the same decimal, and not just an equal number.

What number a text denotes is said digit by digit (`literalValue`), without the reader and
without decimals.

## Main results

* `literalValue_pad`: zeros in front, and at the end of the fraction, do not count.
* `Decimal.toRat_of_ofLiteral?`: the decimal read from a literal is the number that the
  literal denotes.
* `Decimal.toRat_reduce`: leaving out zeros does not change the number.
* `Decimal.ofLiteral?_toList`: **a written decimal is read back** as it was.
* `Decimal.isLiteral_toList`: a written decimal is a literal.
* `DenotesNumber.unique`: a text denotes one number at most.
-/

namespace Keypad

/-! ### What a literal denotes -/

/-- The number that digits behind a point denote: each is worth a tenth of the one before. -/
def fractionValue : List Char → ℚ
  | [] => 0
  | c :: cs => ((c.toNat - '0'.toNat : ℕ) + fractionValue cs) / 10

/-- The number that a literal denotes, after digits that denote `value`: each digit is worth
one and the digits before it ten times as much, up to the point. -/
def literalValue (value : ℚ) : List Char → ℚ
  | [] => value
  | c :: cs =>
      if c = '.' then value + fractionValue cs
      else literalValue (10 * value + (c.toNat - '0'.toNat : ℕ)) cs

/-- Digits before the point denote a natural. -/
theorem literalValue_append {whole : List Char} (h : '.' ∉ whole) (value : ℕ)
    (rest : List Char) :
    literalValue value (whole ++ rest) =
      literalValue (Nat.ofDigitChars 10 whole value : ℕ) rest := by
  induction whole generalizing value with
  | nil => rw [List.nil_append, Nat.ofDigitChars_nil]
  | cons c whole ih =>
      rw [List.mem_cons, not_or] at h
      obtain ⟨hc, hwhole⟩ := h
      rw [List.cons_append, literalValue, if_neg (Ne.symm hc), Nat.ofDigitChars_cons,
        ← ih hwhole]
      push_cast
      rfl

/-- Digits behind the point denote so many parts of a power of ten. -/
theorem fractionValue_eq (cs : List Char) :
    fractionValue cs = Nat.ofDigitChars 10 cs 0 / 10 ^ cs.length := by
  induction cs with
  | nil => simp [fractionValue]
  | cons c cs ih =>
      have hstep (value : ℕ) : Nat.ofDigitChars 10 cs value =
          10 ^ cs.length * value + Nat.ofDigitChars 10 cs 0 :=
        Nat.ofDigitChars_eq_ofDigitChars_zero
      rw [fractionValue, ih, Nat.ofDigitChars_cons, hstep (10 * 0 + _), List.length_cons,
        pow_succ, Nat.mul_zero, Nat.zero_add]
      push_cast
      field_simp

/-! ### Zeros that do not count -/

/-- Zeros in front do not count. -/
theorem literalValue_replicate_append (k : ℕ) (cs : List Char) :
    literalValue 0 (List.replicate k '0' ++ cs) = literalValue 0 cs := by
  induction k with
  | zero => rfl
  | succ k ih =>
      have hzero : 10 * (0 : ℚ) + ('0'.toNat - '0'.toNat : ℕ) = 0 := by norm_num
      rw [List.replicate_succ, List.cons_append, literalValue, if_neg (by decide), hzero, ih]

/-- Zeros at the end of a fraction do not count. -/
theorem fractionValue_append_replicate (cs : List Char) (k : ℕ) :
    fractionValue (cs ++ List.replicate k '0') = fractionValue cs := by
  induction cs with
  | nil =>
      rw [List.nil_append]
      induction k with
      | zero => rfl
      | succ k ih =>
          simp only [List.replicate_succ, fractionValue, ih]
          norm_num
  | cons c cs ih => rw [List.cons_append, fractionValue, ih, fractionValue]

/-- Zeros at the end of a literal with a point do not count. -/
theorem literalValue_append_replicate {cs : List Char} (h : '.' ∈ cs) (value : ℚ) (k : ℕ) :
    literalValue value (cs ++ List.replicate k '0') = literalValue value cs := by
  induction cs generalizing value with
  | nil => exact absurd h List.not_mem_nil
  | cons c cs ih =>
      rw [List.cons_append, literalValue, literalValue]
      split
      · rw [fractionValue_append_replicate]
      · next hc => exact ih ((List.mem_cons.mp h).resolve_left (Ne.symm hc)) _

/-- **Zeros in front, and at the end of the fraction, do not count.** -/
theorem literalValue_pad {cs : List Char} {back : ℕ} (h : back = 0 ∨ '.' ∈ cs) (front : ℕ) :
    literalValue 0 (List.replicate front '0' ++ cs ++ List.replicate back '0') =
      literalValue 0 cs := by
  rw [List.append_assoc, literalValue_replicate_append]
  rcases h with rfl | hpoint
  · rw [List.replicate_zero, List.append_nil]
  · exact literalValue_append_replicate hpoint 0 back

namespace Decimal

/-! ### Numbers -/

/-- The number that a decimal is. -/
def toRat (d : Decimal) : ℚ := d.coefficient / 10 ^ d.places

/-- No decimal is negative. -/
theorem toRat_nonneg (d : Decimal) : 0 ≤ d.toRat := by
  rw [toRat]
  positivity

/-- Dropping zeros from the end of the fraction does not change what the decimal denotes. -/
theorem ofParts_denotes (coefficient places : ℕ) :
    (ofParts coefficient places).coefficient * 10 ^ places
      = coefficient * 10 ^ (ofParts coefficient places).places := by
  induction places generalizing coefficient with
  | zero => simp [ofParts]
  | succ p ih =>
    rw [ofParts]
    split
    · next h =>
      have hdiv : coefficient = coefficient / 10 * 10 := by omega
      rw [Nat.pow_succ, ← Nat.mul_assoc, ih (coefficient / 10), Nat.mul_right_comm, ← hdiv]
    · rfl

/-- Leaving out zeros at the end of the fraction does not change the number. -/
theorem toRat_reduce (d : Decimal) : d.reduce.toRat = d.toRat := by
  have hnat := ofParts_denotes d.coefficient d.places
  rw [toRat, toRat, reduce, div_eq_div_iff (by positivity) (by positivity)]
  exact_mod_cast hnat

/-- A decimal is zero exactly when its coefficient is. -/
theorem toRat_eq_zero_iff {d : Decimal} : d.toRat = 0 ↔ d.coefficient = 0 := by
  have hpow : (10 : ℚ) ^ d.places ≠ 0 := by positivity
  rw [toRat, div_eq_zero_iff, or_iff_left hpow, Nat.cast_eq_zero]

/-- **The decimal read from a literal is the number that the literal denotes.** -/
theorem toRat_of_ofLiteral? {cs : List Char} {d : Decimal} (h : ofLiteral? cs = some d) :
    d.toRat = literalValue 0 cs := by
  by_cases hpoint : '.' ∈ cs
  · obtain ⟨whole, fraction, rfl, hwhole⟩ := List.eq_append_cons_of_mem hpoint
    rw [ofLiteral?_append hwhole, Option.ite_none_right_eq_some] at h
    obtain rfl := Option.some.inj h.2
    have hstep (value : ℕ) : Nat.ofDigitChars 10 fraction value =
        10 ^ fraction.length * value + Nat.ofDigitChars 10 fraction 0 :=
      Nat.ofDigitChars_eq_ofDigitChars_zero
    have hvalue := literalValue_append hwhole 0 ('.' :: fraction)
    rw [Nat.cast_zero] at hvalue
    rw [hvalue, literalValue, if_pos rfl, fractionValue_eq, toRat, Nat.ofDigitChars_append,
      hstep]
    push_cast
    field_simp
  · rw [ofLiteral?_of_not_mem hpoint, Option.ite_none_right_eq_some] at h
    obtain rfl := Option.some.inj h.2
    have hvalue := literalValue_append hpoint 0 []
    rw [Nat.cast_zero, List.append_nil] at hvalue
    rw [hvalue, literalValue, toRat, pow_zero, div_one]

/-! ### Digits -/

/-- The digits of a number in base ten are digits. -/
theorem all_isDigit_toDigits (n : ℕ) : (Nat.toDigits 10 n).all Char.isDigit = true := by
  rw [List.all_eq_true]
  intro c hc
  exact Nat.isDigit_of_mem_toDigits (by omega) (by omega) hc

/-- No digit is a point. -/
theorem point_not_mem_toDigits (n : ℕ) : '.' ∉ Nat.toDigits 10 n := by
  intro hmem
  have hdigit := Nat.isDigit_of_mem_toDigits (by omega) (by omega) hmem
  exact absurd hdigit (by decide)

/-- The digits of a fraction: as many as there are places, and all of them digits with the
value of the fraction. -/
theorem leftpad_toDigits {n places : ℕ} (hplaces : places ≠ 0) (hn : n < 10 ^ places) :
    ((Nat.toDigits 10 n).leftpad places '0').length = places ∧
      ((Nat.toDigits 10 n).leftpad places '0').all Char.isDigit = true ∧
      Nat.ofDigitChars 10 ((Nat.toDigits 10 n).leftpad places '0') 0 = n := by
  have hlength : (Nat.toDigits 10 n).length ≤ places :=
    (Nat.length_toDigits_le_iff (by omega) (Nat.pos_of_ne_zero hplaces)).mpr hn
  refine ⟨?_, ?_, ?_⟩
  · rw [List.length_leftpad, Nat.max_eq_left hlength]
  · rw [List.leftpad, List.all_append, all_isDigit_toDigits, Bool.and_true, List.all_eq_true]
    intro c hc
    rw [List.eq_of_mem_replicate hc]
    rfl
  · rw [List.leftpad, Nat.ofDigitChars_append, Nat.ofDigitChars_replicate_zero, Nat.mul_zero,
      Nat.ofDigitChars_ten_toDigits]

/-! ### Reading what was written -/

/-- A decimal in positional notation. -/
theorem toList_eq (d : Decimal) :
    d.toList = if d.places = 0 then Nat.toDigits 10 (d.coefficient / 10 ^ d.places)
      else Nat.toDigits 10 (d.coefficient / 10 ^ d.places) ++
        '.' :: (Nat.toDigits 10 (d.coefficient % 10 ^ d.places)).leftpad d.places '0' := rfl

/-- **A written decimal is read back** as it was. -/
theorem ofLiteral?_toList (d : Decimal) : ofLiteral? d.toList = some d := by
  obtain ⟨coefficient, places⟩ := d
  by_cases hplaces : places = 0
  · subst hplaces
    have hread : (⟨coefficient, 0⟩ : Decimal).toList = Nat.toDigits 10 coefficient := by
      simp [toList_eq]
    rw [hread, ofLiteral?_of_not_mem (point_not_mem_toDigits _),
      if_pos ⟨Nat.toDigits_ne_nil, all_isDigit_toDigits _⟩, Nat.ofDigitChars_ten_toDigits]
  · have hmod : coefficient % 10 ^ places < 10 ^ places := Nat.mod_lt _ (by positivity)
    obtain ⟨hlength, hall, hvalue⟩ := leftpad_toDigits hplaces hmod
    simp only [toList_eq, if_neg hplaces]
    set whole := Nat.toDigits 10 (coefficient / 10 ^ places) with hwhole
    set fraction := (Nat.toDigits 10 (coefficient % 10 ^ places)).leftpad places '0'
    have hne : whole ++ fraction ≠ [] :=
      List.append_ne_nil_of_left_ne_nil Nat.toDigits_ne_nil _
    have hdigits : (whole ++ fraction).all Char.isDigit = true := by
      rw [List.all_append, all_isDigit_toDigits, hall, Bool.and_true]
    have hnumber : Nat.ofDigitChars 10 (whole ++ fraction) 0 = coefficient := by
      rw [Nat.ofDigitChars_append, hwhole, Nat.ofDigitChars_ten_toDigits,
        Nat.ofDigitChars_eq_ofDigitChars_zero, hlength, hvalue]
      exact Nat.div_add_mod coefficient (10 ^ places)
    rw [ofLiteral?_append (point_not_mem_toDigits _), if_pos ⟨hne, hdigits⟩, hnumber, hlength]

/-- A written decimal is a literal. -/
theorem isLiteral_toList (d : Decimal) : IsLiteral d.toList :=
  isSome_ofLiteral?_iff.mp (by rw [ofLiteral?_toList]; rfl)

end Decimal

/-- A written decimal denotes its number. -/
theorem Decimal.literalValue_toList (d : Decimal) : literalValue 0 d.toList = d.toRat :=
  (toRat_of_ofLiteral? d.ofLiteral?_toList).symm

/-- **The number that a text denotes**: that of a literal, with a `-` in front if it is
negative. -/
def DenotesNumber (cs : List Char) (q : ℚ) : Prop :=
  (IsLiteral cs ∧ q = literalValue 0 cs) ∨
    ∃ literal, cs = '-' :: literal ∧ IsLiteral literal ∧ q = -literalValue 0 literal

/-- No literal starts with a `-`. -/
theorem not_isLiteral_minus_cons (cs : List Char) : ¬ IsLiteral ('-' :: cs) := by
  intro h
  exact absurd (h.isNumeric '-' List.mem_cons_self) (by decide)

/-- A text denotes one number at most. -/
theorem DenotesNumber.unique {cs : List Char} {p q : ℚ} (hp : DenotesNumber cs p)
    (hq : DenotesNumber cs q) : p = q := by
  rcases hp with ⟨hliteral, rfl⟩ | ⟨literal, rfl, -, rfl⟩
  · rcases hq with ⟨-, rfl⟩ | ⟨literal, rfl, -⟩
    · rfl
    · exact absurd hliteral (not_isLiteral_minus_cons _)
  · rcases hq with ⟨hliteral, -⟩ | ⟨literal', heq, -, rfl⟩
    · exact absurd hliteral (not_isLiteral_minus_cons _)
    · rw [(List.cons.inj heq).2]

end Keypad
