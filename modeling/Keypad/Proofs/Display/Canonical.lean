import Keypad.Proofs.Display.RoundTrip
import Mathlib.Algebra.Group.Int.Even

/-!
# One text for each rounded value

The display is a function of a single integer: how many parts of `10 ^ -8`, with their sign,
are nearest to the value. That integer is rounded once, from the exact value, and the text
is the shortest decimal that denotes so many parts. A value that rounds to no parts has no
sign left to show, and the parts that are left out at the end of the fraction are zeros, so
neither the sign nor the point can tell apart two values that round alike.

## Main results

* `isNearestMultiple_shownInt`, `IsNearestMultiple.unique`: **the rounding is to the nearest
  multiple**, even on a tie, and there is one such multiple.
* `isCanonical_display`: the text has no superfluous zero, point or sign.
* `display_eq_display_iff`: two values are shown alike exactly if they round alike.
* `shownInt_neg`: the rounding is symmetric about zero.
* `display_canonical`: all of this for one value.
-/

namespace Keypad

open Binary64

/-! ### Canonical texts -/

/-- The integer part of a canonical decimal: `0`, or digits that do not start with `0`. -/
def IsWholePart (cs : List Char) : Prop :=
  cs = ['0'] ∨ ∃ c ds, cs = c :: ds ∧ c ≠ '0' ∧ cs.all Char.isDigit = true

/-- The fraction of a canonical decimal: nothing at all, or a point and up to `places`
digits, of which the last is not `0`. -/
def IsFractionPart (places : ℕ) (cs : List Char) : Prop :=
  cs = [] ∨ ∃ ds d, cs = '.' :: (ds ++ [d]) ∧ ds.length < places ∧ d ≠ '0' ∧
    (ds ++ [d]).all Char.isDigit = true

/-- A decimal with at most `places` digits behind the point and nothing superfluous, with a
`-` in front of it if it is negative. -/
def IsCanonical (places : ℕ) (cs : List Char) : Prop :=
  ∃ sign whole fraction, cs = sign ++ (whole ++ fraction) ∧ (sign = [] ∨ sign = ['-']) ∧
    IsWholePart whole ∧ IsFractionPart places fraction

namespace Decimal

/-- The last digit of a number. -/
theorem exists_toDigits_eq_append (n : ℕ) :
    ∃ ds, Nat.toDigits 10 n = ds ++ [Nat.digitChar (n % 10)] := by
  by_cases h : n < 10
  · exact ⟨[], by rw [Nat.toDigits_of_lt_base h, Nat.mod_eq_of_lt h, List.nil_append]⟩
  · exact ⟨_, Nat.toDigits_of_base_le (by omega) (Nat.not_lt.mp h)⟩

/-- The digits of a number that is not zero do not start with `0`. -/
theorem exists_toDigits_eq_cons {n : ℕ} (h : n ≠ 0) :
    ∃ c ds, Nat.toDigits 10 n = c :: ds ∧ c ≠ '0' := by
  induction n using Nat.strong_induction_on with
  | _ n ih =>
    by_cases hsmall : n < 10
    · exact ⟨_, [], Nat.toDigits_of_lt_base hsmall, mt Nat.digitChar_eq_zero.mp h⟩
    · obtain ⟨c, ds, htens, hc⟩ := ih (n / 10) (by omega) (by omega)
      refine ⟨c, ds ++ [Nat.digitChar (n % 10)], ?_, hc⟩
      rw [Nat.toDigits_of_base_le (by omega) (Nat.not_lt.mp hsmall), htens, List.cons_append]

/-- The digits of a number are an integer part. -/
theorem isWholePart_toDigits (n : ℕ) : IsWholePart (Nat.toDigits 10 n) := by
  by_cases h : n = 0
  · rw [h]
    exact .inl rfl
  · obtain ⟨c, ds, heq, hc⟩ := exists_toDigits_eq_cons h
    exact .inr ⟨c, ds, heq, hc, all_isDigit_toDigits n⟩

/-- Digits that are filled up with zeros in front are a fraction, unless the last is `0`. -/
theorem isFractionPart_leftpad {n places : ℕ} (hplaces : places ≠ 0) (hn : n < 10 ^ places)
    (hlast : n % 10 ≠ 0) :
    IsFractionPart places ('.' :: (Nat.toDigits 10 n).leftpad places '0') := by
  obtain ⟨hlength, hall, -⟩ := leftpad_toDigits hplaces hn
  obtain ⟨ds, hds⟩ := exists_toDigits_eq_append n
  obtain ⟨zeros, hpad⟩ : ∃ zeros, (Nat.toDigits 10 n).leftpad places '0' =
      zeros ++ ds ++ [Nat.digitChar (n % 10)] :=
    ⟨_, by rw [List.leftpad, hds, List.append_assoc]⟩
  rw [hpad] at hlength hall ⊢
  refine .inr ⟨_, _, rfl, ?_, mt Nat.digitChar_eq_zero.mp hlast, hall⟩
  rw [List.length_append, List.length_singleton] at hlength
  omega

/-- **A decimal in as few places as possible has nothing superfluous.** -/
theorem toList_reduce (d : Decimal) :
    ∃ whole fraction, d.reduce.toList = whole ++ fraction ∧ IsWholePart whole ∧
      IsFractionPart d.places fraction := by
  have hle : d.reduce.places ≤ d.places := ofParts_places_le d.coefficient d.places
  have hlast : d.reduce.places = 0 ∨ d.reduce.coefficient % 10 ≠ 0 :=
    ofParts_places_eq_zero_or d.coefficient d.places
  generalize d.reduce = r at hle hlast ⊢
  rw [toList_eq]
  by_cases hplaces : r.places = 0
  · rw [if_pos hplaces]
    exact ⟨_, [], (List.append_nil _).symm, isWholePart_toDigits _, .inl rfl⟩
  · rw [if_neg hplaces]
    refine ⟨_, _, rfl, isWholePart_toDigits _, ?_⟩
    have hdvd : 10 ∣ 10 ^ r.places := dvd_pow_self 10 hplaces
    have hlast' : r.coefficient % 10 ^ r.places % 10 ≠ 0 := by
      rw [Nat.mod_mod_of_dvd _ hdvd]
      exact hlast.resolve_left hplaces
    rcases isFractionPart_leftpad hplaces (Nat.mod_lt _ (by positivity)) hlast' with
      hnil | ⟨ds, c, heq, hlength, hc⟩
    · exact .inl hnil
    · exact .inr ⟨ds, c, heq, by omega, hc⟩

end Decimal

/-! ### The nearest multiple -/

/-- The multiple of `10 ^ -8` **nearest to a rational**: none is nearer, and if another one
is as near, then this one is even. -/
structure IsNearestMultiple (q : ℚ) (k : ℤ) : Prop where
  le : ∀ j : ℤ, |k / 10 ^ 8 - q| ≤ |j / 10 ^ 8 - q|
  even : ∀ j : ℤ, |k / 10 ^ 8 - q| = |j / 10 ^ 8 - q| → j ≠ k → Even k

/-- A distance to a multiple, in parts. -/
theorem abs_div_sub (k : ℤ) (q : ℚ) : |k / 10 ^ 8 - q| = |k - q * 10 ^ 8| / 10 ^ 8 := by
  have hpow : (0 : ℚ) < 10 ^ 8 := by positivity
  rw [← abs_of_pos hpow, ← abs_div, abs_of_pos hpow, sub_div, mul_div_cancel_right₀ _ hpow.ne']

/-- An integer at most a half away, and even on a tie, is the nearest multiple. -/
theorem isNearestMultiple_of_abs_le_half {q : ℚ} {k : ℤ} (hle : |k - q * 10 ^ 8| ≤ 1 / 2)
    (heven : |k - q * 10 ^ 8| = 1 / 2 → Even k) : IsNearestMultiple q k := by
  have hpow : (0 : ℚ) < 10 ^ 8 := by positivity
  have hother (j : ℤ) (hne : j ≠ k) :=
    nearest_of_one_le_abs_sub hle (one_le_abs_cast_sub_of_ne hne)
  constructor
  · intro j
    rw [abs_div_sub, abs_div_sub, div_le_div_iff_of_pos_right hpow]
    by_cases hsame : j = k
    · rw [hsame]
    · exact (hother j hsame).1
  · intro j heq hne
    rw [abs_div_sub, abs_div_sub, div_left_inj' hpow.ne'] at heq
    exact heven ((hother j hne).2 heq)

/-- **There is one nearest multiple**: between two that are even there is a third, and it
would be nearer. -/
theorem IsNearestMultiple.unique {q : ℚ} {k k' : ℤ} (h : IsNearestMultiple q k)
    (h' : IsNearestMultiple q k') : k = k' := by
  by_contra hne
  have heq := le_antisymm (h.le k') (h'.le k)
  obtain ⟨m, hm⟩ := h.even k' heq (Ne.symm hne)
  obtain ⟨m', hm'⟩ := h'.even k heq.symm hne
  -- the middle between the two is a whole number of parts as well
  have hmiddle := h.le (m + m')
  have hk : (k : ℚ) = m + m := by exact_mod_cast hm
  have hk' : (k' : ℚ) = m' + m' := by exact_mod_cast hm'
  have hcast : (k : ℚ) ≠ k' := Int.cast_injective.ne hne
  rcases abs_eq_abs.mp heq with hsame | hopposite
  · exact hcast (by linarith)
  · -- the two are on opposite sides, so that middle is `q` itself
    have hzero : ((m + m' : ℤ) : ℚ) / 10 ^ 8 - q = 0 := by
      rw [Int.cast_add]
      linarith
    rw [hzero, abs_zero] at hmiddle
    have hexact := abs_eq_zero.mp (le_antisymm hmiddle (abs_nonneg _))
    exact hcast (by linarith)

/-! ### The integer that is shown -/

/-- How many parts are shown for a value, with their sign. -/
def shownInt (x : Float) : ℤ :=
  if isNegative x then -shownParts (units x) else shownParts (units x)

/-- Its magnitude is the number of parts. -/
theorem natAbs_shownInt (x : Float) : (shownInt x).natAbs = shownParts (units x) := by
  rw [shownInt]
  split
  · rw [Int.natAbs_neg, Int.natAbs_natCast]
  · rw [Int.natAbs_natCast]

/-- The rounding does not depend on the sign: it goes as far on either side of zero. -/
theorem abs_shownInt_sub (x : Float) :
    |shownInt x - toRat x * 10 ^ 8| =
      |(shownParts (units x) : ℚ) - (units x * 10 ^ displayPlaces : ℕ) / unitsInOne| := by
  have hscale : ((units x * 10 ^ displayPlaces : ℕ) : ℚ) / unitsInOne = magnitude x * 10 ^ 8 := by
    rw [Nat.cast_mul, Nat.cast_pow, Nat.cast_ofNat, displayPlaces, magnitude, div_mul_eq_mul_div]
  rw [hscale, shownInt, toRat]
  cases isNegative x with
  | false => rfl
  | true =>
      rw [if_pos rfl, if_pos rfl, Int.cast_neg, Int.cast_natCast, neg_mul, neg_sub_neg,
        abs_sub_comm]

/-- **The integer that is shown is the nearest**, even on a tie. -/
theorem isNearestMultiple_shownInt (x : Float) : IsNearestMultiple (toRat x) (shownInt x) := by
  obtain ⟨hle, heven⟩ :=
    divNearest_spec (units x * 10 ^ displayPlaces) (Nat.cast_pos.mp unitsInOne_pos)
  rw [← shownParts, ← abs_shownInt_sub] at hle heven
  refine isNearestMultiple_of_abs_le_half hle ?_
  intro htie
  rw [← Int.natAbs_even, natAbs_shownInt, Nat.even_iff]
  exact heven htie

/-- The magnitude that is shown, by its parts. -/
theorem shownDecimal_eq_natAbs (x : Float) :
    shownDecimal x = Decimal.reduce ⟨(shownInt x).natAbs, displayPlaces⟩ := by
  rw [natAbs_shownInt, shownDecimal_eq]

/-- A `-` is shown if the parts that are shown are less than none. -/
theorem shownNegative_eq (x : Float) : shownNegative x = decide (shownInt x < 0) := by
  have hparts := coefficient_shownDecimal_eq_zero_iff x
  rw [shownNegative, shownInt]
  generalize shownParts (units x) = parts at hparts ⊢
  cases isNegative x with
  | false => simp
  | true =>
      rw [Bool.true_and, if_pos rfl, Bool.eq_iff_iff, bne_iff_ne, decide_eq_true_iff, ne_eq,
        hparts]
      omega

/-- The number that is shown is that many parts. -/
theorem shownRat_eq (x : Float) : shownRat x = shownInt x / 10 ^ 8 := by
  have hrat : (shownDecimal x).toRat = (shownInt x).natAbs / 10 ^ 8 := by
    rw [shownDecimal_eq_natAbs, Decimal.toRat_reduce, Decimal.toRat, displayPlaces]
  rw [shownRat, hrat, shownNegative_eq]
  by_cases hneg : shownInt x < 0
  · rw [if_pos (decide_eq_true hneg), Nat.cast_natAbs, abs_of_neg hneg, Int.cast_neg, neg_div,
      neg_neg]
  · rw [if_neg (by simpa using hneg), Nat.cast_natAbs, abs_of_nonneg (not_lt.mp hneg)]

/-- **The text is a function of the integer that is shown.** -/
theorem display_eq_of_shownInt {x y : Float} (hx : x.isFinite = true) (hy : y.isFinite = true)
    (h : shownInt x = shownInt y) : display x = display y := by
  rw [display_of_finite hx, display_of_finite hy, shownNegative_eq, shownNegative_eq,
    shownDecimal_eq_natAbs, shownDecimal_eq_natAbs, h]

/-- **Two values are shown alike exactly if the same integer is shown for them.** -/
theorem display_eq_display_iff {x y : Float} (hx : x.isFinite = true)
    (hy : y.isFinite = true) : display x = display y ↔ shownInt x = shownInt y := by
  refine ⟨?_, display_eq_of_shownInt hx hy⟩
  intro h
  have hdenotes := denotesNumber_display hx
  rw [h] at hdenotes
  have hrat := hdenotes.unique (denotesNumber_display hy)
  have hpow : (10 : ℚ) ^ 8 ≠ 0 := by positivity
  rw [shownRat_eq, shownRat_eq, div_left_inj' hpow, Int.cast_inj] at hrat
  exact hrat

/-! ### The sign -/

/-- **The rounding is symmetric**, also on a tie: negation only changes the sign of what is
shown. -/
theorem shownInt_neg {x : Float} (h : x.isFinite = true) : shownInt (-x) = -shownInt x := by
  have hle : code x ≤ infinityCode := ((isFinite_iff x).mp h).le
  rw [shownInt, shownInt, (neg_eq hle).1, units_neg hle]
  generalize shownParts (units x) = parts
  cases isNegative x with
  | false => simp
  | true => simp

/-- **Negating what is read back of a negated value** shows the value itself. Zero has no
sign on the display, so one that is lost on the way is not missed. -/
theorem display_neg_readBack {x : Float} (h : x.isFinite = true) :
    display (-readBack (-x)) = display x := by
  have hneg : (-x).isFinite = true := isFinite_neg h
  have hback : (readBack (-x)).isFinite = true := (isNearest_readBack hneg).finite
  refine display_eq_of_shownInt (isFinite_neg hback) h ?_
  calc shownInt (-readBack (-x))
    _ = -shownInt (readBack (-x)) := shownInt_neg hback
    _ = -shownInt (-x) := by
      rw [(display_eq_display_iff hback hneg).mp (display_readBack hneg)]
    _ = shownInt x := by rw [shownInt_neg h, neg_neg]

/-! ### The text that is shown -/

/-- **Nothing superfluous is shown.** -/
theorem isCanonical_display {x : Float} (h : x.isFinite = true) :
    IsCanonical displayPlaces (display x).toList := by
  obtain ⟨whole, fraction, htext, hwhole, hfraction⟩ :=
    Decimal.toList_reduce ⟨shownParts (units x), displayPlaces⟩
  rw [display_of_finite h, String.toList_ofList, shownDecimal_eq, htext]
  refine ⟨_, whole, fraction, rfl, ?_, hwhole, hfraction⟩
  split
  · exact .inr rfl
  · exact .inl rfl

/-- **No negative zero is shown.** -/
theorem display_ne_negative_zero {x : Float} (h : x.isFinite = true) : display x ≠ "-0" := by
  intro hzero
  have hdenotes : DenotesNumber "-0".toList (-0) :=
    .inr ⟨(⟨0, 0⟩ : Decimal).toList, rfl, Decimal.isLiteral_toList _, by
      rw [Decimal.literalValue_toList, Decimal.toRat_eq_zero_iff.mpr rfl]⟩
  rw [← hzero] at hdenotes
  have hnone : shownInt x = 0 := by
    have hrat := (denotesNumber_display h).unique hdenotes
    rw [shownRat_eq, neg_zero, div_eq_zero_iff, or_iff_left (by positivity)] at hrat
    exact_mod_cast hrat
  -- without a sign the text is a literal
  have hplus : ¬ shownNegative x = true := by
    rw [shownNegative_eq, hnone]
    decide
  rw [display_of_finite h, if_neg hplus, List.nil_append] at hzero
  have hliteral := Decimal.isLiteral_toList (shownDecimal x)
  rw [← String.toList_ofList (l := (shownDecimal x).toList), hzero] at hliteral
  exact not_isLiteral_minus_cons ['0'] hliteral

/-- **The display is the canonical rounded decimal.** What is shown for a finite value has no
superfluous zero, point or sign. It denotes the one multiple of `10 ^ -8` that is nearest to
the exact value, the even one of two, and no other number; and a finite value is shown in the
same way exactly if that is its nearest multiple too. -/
theorem display_canonical {v : Float} (hv : v.isFinite = true) :
    IsCanonical 8 (display v).toList ∧ display v ≠ "-0" ∧
      ∃ k : ℤ, (∀ j, IsNearestMultiple (toRat v) j ↔ j = k) ∧
        (∀ q, DenotesNumber (display v).toList q ↔ q = k / 10 ^ 8) ∧
        ∀ w : Float, w.isFinite = true →
          (display w = display v ↔ IsNearestMultiple (toRat w) k) := by
  have hnear := isNearestMultiple_shownInt v
  have hdenotes := denotesNumber_display hv
  rw [shownRat_eq] at hdenotes
  refine ⟨isCanonical_display hv, display_ne_negative_zero hv, shownInt v, ?_, ?_, ?_⟩
  · intro j
    refine ⟨fun hj => hj.unique hnear, ?_⟩
    rintro rfl
    exact hnear
  · intro q
    refine ⟨fun hq => hq.unique hdenotes, ?_⟩
    rintro rfl
    exact hdenotes
  · intro w hw
    rw [display_eq_display_iff hw hv]
    constructor
    · intro heq
      rw [← heq]
      exact isNearestMultiple_shownInt w
    · exact (isNearestMultiple_shownInt w).unique

/-- An exact half: `1 / 512` lies between two multiples, and the even one is shown. -/
theorem display_canonical_half :
    (0.001953125 : Float).isFinite = true ∧ display 0.001953125 = "0.00195312" ∧
      IsCanonical 8 (display 0.001953125).toList ∧ display 0.001953125 ≠ "-0" ∧
      ∃ k : ℤ, (∀ j, IsNearestMultiple (toRat 0.001953125) j ↔ j = k) ∧
        (∀ q, DenotesNumber (display 0.001953125).toList q ↔ q = k / 10 ^ 8) ∧
        ∀ w : Float, w.isFinite = true →
          (display w = display 0.001953125 ↔ IsNearestMultiple (toRat w) k) :=
  ⟨by decide, by decide +kernel, display_canonical (by decide)⟩

end Keypad
