import Keypad.Proofs.Display.Shown
import Keypad.Proofs.Expression.Grammar

/-!
# Reading the display back

What the display shows for a finite value is a text that can be evaluated: a literal, with a
`-` in front if it is negative. Evaluating it gives the value nearest to the number shown.
That value need not be the one that was shown, but the display shows it in the same way.

## Main results

* `evaluate_display`: what is shown evaluates to `readBack`, in both modes.
* `isNearest_readBack`: this is the value nearest to the number shown.
* `display_readBack`: **it is shown in the same way**.
* `evaluate_display_roundTrip`: all of this, and when the value itself is read back.
-/

namespace Keypad

open Binary64

/-! ### Written decimals as expressions -/

/-- A written decimal with a sign, as a phrase. -/
def signedPhrase (negative : Bool) (d : Decimal) : Phrase :=
  ⟨negative, ⟨d.toList, d.isLiteral_toList⟩, []⟩

/-- The characters of a decimal with a sign. -/
theorem chars_signedPhrase (negative : Bool) (d : Decimal) :
    (signedPhrase negative d).lexemes.flatMap Lexeme.chars =
      (if negative then ['-'] else []) ++ d.toList := by
  cases negative with
  | false => simp [signedPhrase, Phrase.lexemes, Phrase.restLexemes, Lexeme.chars]
  | true =>
      simp [signedPhrase, Phrase.lexemes, Phrase.restLexemes, Lexeme.chars, Operator.symbol]

/-- **A written decimal evaluates** to the nearest value, with its sign, in both modes. -/
theorem evaluate_signed (mode : Mode) {text : String} {negative : Bool} {d : Decimal}
    (h : text.toList = (if negative then ['-'] else []) ++ d.toList) :
    evaluate mode text = .ok (if negative then -ofDecimal d else ofDecimal d) := by
  have hmatches : (signedPhrase negative d).Matches mode text.toList := by
    rw [h, ← chars_signedPhrase]
    exact (signedPhrase negative d).matches_chars mode
  obtain ⟨e, hparse, ⟨y, hread, hfirst⟩, hrest⟩ := parse_of_matches hmatches
  have hy : ofDecimal d = y := by
    rw [Phrase.Reads, ofLiteral?, String.toList_ofList] at hread
    simp only [signedPhrase, Decimal.ofLiteral?_toList] at hread
    exact Option.some.inj hread
  have hnil : e.rest = [] := List.forall₂_nil_left_iff.mp hrest
  rw [evaluate_of_parse hparse, Expression.value, Expression.terms, hnil, hy]
  exact congrArg Except.ok hfirst

/-- A written decimal without a sign evaluates to the nearest value. -/
theorem evaluate_decimal (mode : Mode) (d : Decimal) :
    evaluate mode (String.ofList d.toList) = .ok (ofDecimal d) :=
  @evaluate_signed mode _ false d String.toList_ofList

/-- A written decimal with a sign denotes the number with that sign. -/
theorem denotesNumber_signed (negative : Bool) (d : Decimal) :
    DenotesNumber ((if negative then ['-'] else []) ++ d.toList)
      (if negative then -d.toRat else d.toRat) := by
  rw [← d.literalValue_toList]
  cases negative with
  | true => exact .inr ⟨d.toList, rfl, d.isLiteral_toList, rfl⟩
  | false => exact .inl ⟨d.isLiteral_toList, rfl⟩

/-! ### The text that is shown -/

/-- Whether a value is shown with a `-`. -/
def shownNegative (x : Float) : Bool := isNegative x && (shownDecimal x).coefficient != 0

/-- The number that is shown for a value. -/
def shownRat (x : Float) : ℚ :=
  if shownNegative x then -(shownDecimal x).toRat else (shownDecimal x).toRat

/-- The value that is read back from what is shown. -/
def readBack (x : Float) : Float :=
  if shownNegative x then -ofDecimal (shownDecimal x) else ofDecimal (shownDecimal x)

/-- A finite value is shown as a decimal, with a sign unless the decimal is zero. -/
theorem display_of_finite {x : Float} (h : x.isFinite = true) :
    display x =
      String.ofList ((if shownNegative x then ['-'] else []) ++ (shownDecimal x).toList) := by
  have hcode := (isFinite_iff x).mp h
  have hnan : ¬ x.isNaN = true := by
    rw [isNaN_iff]
    omega
  have hinf : ¬ x.isInf = true := by
    rw [isInf_iff]
    omega
  rw [display, if_neg hnan, if_neg hinf]
  rfl

/-- **What is shown for a finite value evaluates**, in both modes. -/
theorem evaluate_display (mode : Mode) {x : Float} (h : x.isFinite = true) :
    evaluate mode (display x) = .ok (readBack x) :=
  evaluate_signed mode (by rw [display_of_finite h, String.toList_ofList])

/-- The text that is shown denotes the number that is shown. -/
theorem denotesNumber_display {x : Float} (h : x.isFinite = true) :
    DenotesNumber (display x).toList (shownRat x) := by
  rw [display_of_finite h, String.toList_ofList, shownRat]
  exact denotesNumber_signed (shownNegative x) (shownDecimal x)

/-! ### The value that is read back -/

/-- The decimal that is shown counts parts. -/
theorem shownDecimal_eq (x : Float) :
    shownDecimal x = Decimal.reduce ⟨shownParts (units x), displayPlaces⟩ := rfl

/-- What is shown is a number of parts. -/
theorem toRat_shownDecimal (x : Float) :
    (shownDecimal x).toRat * unitsInOne = shownParts (units x) * unitsInPart := by
  rw [shownDecimal_eq, Decimal.toRat_reduce, Decimal.toRat, unitsInPart, div_mul_eq_mul_div,
    mul_div_assoc]

/-- Nothing but zeros is shown for no parts. -/
theorem coefficient_shownDecimal_eq_zero_iff (x : Float) :
    (shownDecimal x).coefficient = 0 ↔ shownParts (units x) = 0 := by
  rw [← Decimal.toRat_eq_zero_iff, shownDecimal_eq, Decimal.toRat_reduce,
    Decimal.toRat_eq_zero_iff]

/-- The code that is read back is the nearest to the parts shown. -/
theorem isNearestCode_codeOfDecimal_shownDecimal (x : Float) :
    IsNearestCode infinityCode (codeOfDecimal (shownDecimal x))
      (shownParts (units x) * unitsInPart) := by
  rw [← toRat_shownDecimal]
  exact isNearestCode_codeOfDecimal _

/-- **The value that is read back is finite**, and shows as many parts. -/
theorem shownParts_codeOfDecimal {x : Float} (h : x.isFinite = true) :
    shownParts (unitsOfCode (codeOfDecimal (shownDecimal x))) = shownParts (units x) ∧
      codeOfDecimal (shownDecimal x) < infinityCode :=
  shownParts_congr ((isFinite_iff x).mp h) (isNearestCode_codeOfDecimal_shownDecimal x)

/-- Sign and code of the value that is read back. -/
theorem readBack_sign_code {x : Float} (h : x.isFinite = true) :
    isNegative (readBack x) = shownNegative x ∧
      code (readBack x) = codeOfDecimal (shownDecimal x) := by
  have hlt := (shownParts_codeOfDecimal h).2
  obtain ⟨hneg, hcode⟩ := code_ofCode hlt.le
  rw [readBack, ofDecimal]
  cases shownNegative x with
  | false => exact ⟨hneg, hcode⟩
  | true =>
      obtain ⟨hneg', hcode'⟩ := neg_eq (hcode.trans_le hlt.le)
      exact ⟨hneg'.trans (by rw [hneg]; rfl), hcode'.trans hcode⟩

/-- **The value that is read back is the nearest to the number shown.** -/
theorem isNearest_readBack {x : Float} (h : x.isFinite = true) :
    IsNearest (readBack x) (shownRat x) := by
  have hnear := isNearest_ofDecimal (shownParts_codeOfDecimal h).2
  rw [readBack, shownRat]
  cases shownNegative x with
  | false => exact hnear
  | true => exact hnear.neg

/-- **The value that is read back is shown in the same way.** -/
theorem display_readBack {x : Float} (h : x.isFinite = true) :
    display (readBack x) = display x := by
  obtain ⟨hparts, hlt⟩ := shownParts_codeOfDecimal h
  obtain ⟨hneg, hcode⟩ := readBack_sign_code h
  have hfinite : (readBack x).isFinite = true := (isFinite_iff _).mpr (hcode.trans_lt hlt)
  have hunits : shownParts (units (readBack x)) = shownParts (units x) := by
    rw [units, hcode, hparts]
  have hshown : shownDecimal (readBack x) = shownDecimal x := by
    rw [shownDecimal_eq, hunits, shownDecimal_eq]
  have hnegative : shownNegative (readBack x) = shownNegative x := by
    rw [shownNegative, hneg, hshown, shownNegative, Bool.and_assoc, Bool.and_self]
  rw [display_of_finite hfinite, display_of_finite h, hshown, hnegative]

/-! ### Values that are read back as they were -/

/-- The value itself is read back, negative zero as zero. -/
def ReadsItself (x : Float) : Prop :=
  (x ≠ -0.0 → readBack x = x) ∧ (x = -0.0 → readBack x = 0.0)

/-- **The value itself is read back exactly if its code is.** -/
theorem readsItself_iff {x : Float} (h : x.isFinite = true) :
    ReadsItself x ↔ codeOfDecimal (shownDecimal x) = code x := by
  obtain ⟨hneg, hcode⟩ := readBack_sign_code h
  obtain ⟨hneg0, hcode0, hneg1, hcode1⟩ := zero_sign_code
  constructor
  · rintro ⟨hself, hzero⟩
    rw [← hcode]
    by_cases hx : x = -0.0
    · rw [hzero hx, hx, hcode0, hcode1]
    · rw [hself hx]
  · intro heq
    constructor
    · intro hx
      refine Binary64.ext ?_ (hcode.trans heq)
      -- a value that is shown without its sign is shown as zero
      rw [hneg, shownNegative]
      cases hsign : isNegative x with
      | false => rfl
      | true =>
          rw [Bool.true_and, bne_iff_ne]
          intro hcoefficient
          have hnear := isNearestCode_codeOfDecimal_shownDecimal x
          rw [(coefficient_shownDecimal_eq_zero_iff x).mp hcoefficient, Nat.cast_zero,
            zero_mul, heq] at hnear
          exact hx (Binary64.ext (hsign.trans hneg1.symm) (hnear.eq_zero.trans hcode1.symm))
    · intro hx
      have hunits : units x = 0 := by rw [units, hx, hcode1, unitsOfCode_zero]
      have hparts : shownParts (units x) = 0 := by
        refine shownParts_eq_of_lt ?_
        rw [hunits, Nat.cast_zero, zero_mul, sub_self, abs_zero]
        exact half_pos unitsInPart_pos
      have hplus : shownNegative x = false := by
        rw [shownNegative, (coefficient_shownDecimal_eq_zero_iff x).mpr hparts,
          bne_self_eq_false, Bool.and_false]
      refine Binary64.ext ?_ ?_
      · rw [hneg, hplus, hneg0]
      · rw [hcode, heq, hx, hcode0, hcode1]

/-- A whole number of parts, in units. -/
theorem abs_div_mul_unitsInOne (k : ℤ) :
    |(k : ℚ) / 10 ^ 8| * unitsInOne = k.natAbs * unitsInPart := by
  have hpow : (0 : ℚ) < 10 ^ 8 := by positivity
  rw [abs_div, abs_of_pos hpow, unitsInPart, displayPlaces, Nat.cast_natAbs,
    Int.cast_abs, div_mul_eq_mul_div, mul_div_assoc]

/-- A value is nearest to a whole number of parts if its code is, since a whole number of
parts may have either sign. -/
theorem exists_isNearest_iff {x : Float} (h : x.isFinite = true) :
    (∃ k : ℤ, IsNearest x (k / 10 ^ 8)) ↔
      ∃ k : ℕ, IsNearestCode infinityCode (code x) (k * unitsInPart) := by
  constructor
  · rintro ⟨k, hk⟩
    refine ⟨k.natAbs, ?_⟩
    rw [← abs_div_mul_unitsInOne]
    exact (isNearest_iff.mp hk).1
  · rintro ⟨k, hk⟩
    have hlt := (isFinite_iff x).mp h
    by_cases hzero : k = 0
    · rw [hzero, Nat.cast_zero, zero_mul] at hk
      refine ⟨0, isNearest_iff.mpr ⟨?_, hlt, .inl hk.eq_zero⟩⟩
      rw [Int.cast_zero, zero_div, abs_zero, zero_mul]
      exact hk
    · have hpos : (0 : ℚ) < k / 10 ^ 8 := by
        have hk0 : (0 : ℚ) < k := by exact_mod_cast Nat.pos_of_ne_zero hzero
        positivity
      have hside : ∃ k' : ℤ, k'.natAbs = k ∧ (isNegative x = true ↔ (k' / 10 ^ 8 : ℚ) < 0) := by
        cases isNegative x with
        | true =>
            refine ⟨-k, Int.natAbs_neg k, iff_of_true rfl ?_⟩
            rw [Int.cast_neg, Int.cast_natCast, neg_div]
            exact neg_neg_of_pos hpos
        | false =>
            refine ⟨k, Int.natAbs_natCast k, iff_of_false Bool.false_ne_true ?_⟩
            rw [Int.cast_natCast]
            exact not_lt.mpr hpos.le
      obtain ⟨k', hk', hsign⟩ := hside
      refine ⟨k', isNearest_iff.mpr ⟨?_, hlt, .inr hsign⟩⟩
      rw [abs_div_mul_unitsInOne, hk']
      exact hk

/-- A value is at least `2 ^ 26` when it has that many units. -/
theorem two_pow_le_units {x : Float} (h : 2 ^ 26 ≤ |toRat x|) :
    (2 : ℚ) ^ (53 + spacingExponent) ≤ units x := by
  have hsum : 53 + spacingExponent = 26 + (27 + spacingExponent) := by omega
  rw [abs_toRat, magnitude, le_div_iff₀ unitsInOne_pos, unitsInOne_eq, Nat.cast_pow,
    Nat.cast_ofNat, ← pow_add, ← hsum] at h
  exact h

/-- **The display round trip.** What is shown for a finite value evaluates, in both modes,
to the finite value that is nearest to the number shown, and that value is shown in the same
way. It is the value itself exactly when the value is nearest to a whole number of parts of
`10 ^ -8`, except that negative zero comes back as zero; from `2 ^ 26` on it always is. -/
theorem evaluate_display_roundTrip (mode : Mode) {v : Float} (hv : v.isFinite = true) :
    ∃ (w : Float) (q : ℚ), evaluate mode (display v) = .ok w ∧
      DenotesNumber (display v).toList q ∧ IsNearest w q ∧ display w = display v ∧
      ((v ≠ -0.0 → w = v) ∧ (v = -0.0 → w = 0.0) ↔ ∃ k : ℤ, IsNearest v (k / 10 ^ 8)) ∧
      (2 ^ 26 ≤ |toRat v| → w = v) := by
  have hcode := (isFinite_iff v).mp hv
  have hnear := isNearestCode_codeOfDecimal_shownDecimal v
  refine ⟨readBack v, shownRat v, evaluate_display mode hv, denotesNumber_display hv,
    isNearest_readBack hv, display_readBack hv, ?_, ?_⟩
  · calc ReadsItself v
      _ ↔ codeOfDecimal (shownDecimal v) = code v := readsItself_iff hv
      _ ↔ ∃ k : ℕ, IsNearestCode infinityCode (code v) (k * unitsInPart) :=
        eq_iff_exists_isNearestCode hcode hnear
      _ ↔ ∃ k : ℤ, IsNearest v (k / 10 ^ 8) := (exists_isNearest_iff hv).symm
  · intro hlarge
    have hself : codeOfDecimal (shownDecimal v) = code v :=
      hnear.unique (isNearestCode_shownParts hcode.le (two_pow_le_units hlarge))
    refine ((readsItself_iff hv).mpr hself).1 ?_
    rintro rfl
    rw [abs_toRat, magnitude_eq_zero_iff.mpr zero_sign_code.2.2.2] at hlarge
    exact absurd hlarge (by norm_num)

/-- A small negative value is shown as zero, and zero is what is read back from it. -/
theorem evaluate_display_roundTrip_small :
    (-0.000000001 : Float).isFinite = true ∧
      ∃ (w : Float) (q : ℚ), evaluate .strict (display (-0.000000001)) = .ok w ∧
        DenotesNumber (display (-0.000000001)).toList q ∧ IsNearest w q ∧
        display w = display (-0.000000001) ∧
        (((-0.000000001 : Float) ≠ -0.0 → w = -0.000000001) ∧
            ((-0.000000001 : Float) = -0.0 → w = 0.0) ↔
          ∃ k : ℤ, IsNearest (-0.000000001) (k / 10 ^ 8)) ∧
        (2 ^ 26 ≤ |toRat (-0.000000001)| → w = -0.000000001) :=
  ⟨by decide, evaluate_display_roundTrip .strict (by decide)⟩

end Keypad
