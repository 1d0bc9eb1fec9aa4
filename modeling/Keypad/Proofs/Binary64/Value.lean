import Keypad.Proofs.Binary64.Nearest
import Keypad.Proofs.Decimal.Written

/-!
# Values as rationals

Every value but those that are not numbers stands for a rational, and the two zeros for the
same one. This module says what the nearest value to a rational is, and reduces the question
to codes: the nearest value has the sign of the rational and the nearest code to its
magnitude.

An infinity stands for `± 2 ^ 1024`, the magnitude that its code would encode if the
exponents went on. It takes part in the comparison but is never called nearest, so a
rational from the midpoint above the largest finite value on has **no nearest value**.

## Main results

* `isNearest_iff`: the nearest value by its sign and its code.
* `IsNearest.neg`: nearest values come in pairs of opposite sign.
* `isNearest_ofDecimal`: the value read from a decimal is the nearest, if it is finite.
-/

namespace Keypad

namespace Binary64

/-! ### The rational of a value -/

/-- One is `2 ^ 1074` units. -/
theorem cast_unitsInOne : (unitsInOne : ℚ) = 2 ^ 1074 := by
  unfold unitsInOne
  -- no step needs the power itself
  generalize 1074 = k
  rw [Nat.pow_eq, Nat.cast_pow, Nat.cast_ofNat]

/-- One is a positive number of units. -/
theorem unitsInOne_pos : (0 : ℚ) < unitsInOne := by
  rw [cast_unitsInOne]
  exact pow_pos two_pos 1074

/-- The magnitude of a value. -/
def magnitude (x : Float) : ℚ := units x / unitsInOne

/-- The rational that a value stands for. -/
def toRat (x : Float) : ℚ := if isNegative x then -magnitude x else magnitude x

/-- No magnitude is negative. -/
theorem magnitude_nonneg (x : Float) : 0 ≤ magnitude x :=
  div_nonneg (Nat.cast_nonneg _) unitsInOne_pos.le

/-- The magnitude is the rational without its sign. -/
theorem abs_toRat (x : Float) : |toRat x| = magnitude x := by
  rw [toRat]
  split
  · rw [abs_neg, abs_of_nonneg (magnitude_nonneg x)]
  · rw [abs_of_nonneg (magnitude_nonneg x)]

/-- Only the code zero has no magnitude. -/
theorem magnitude_eq_zero_iff {x : Float} : magnitude x = 0 ↔ code x = 0 := by
  rw [magnitude, div_eq_zero_iff, or_iff_left unitsInOne_pos.ne', Nat.cast_eq_zero, units]
  constructor
  · intro h
    exact strictMono_unitsOfCode.injective (h.trans unitsOfCode_zero.symm)
  · intro h
    rw [h, unitsOfCode_zero]

/-- Negation negates the rational. -/
theorem toRat_neg {x : Float} (h : code x ≤ infinityCode) : toRat (-x) = -toRat x := by
  obtain ⟨hneg, hcode⟩ := neg_eq h
  have hmag : magnitude (-x) = magnitude x := by rw [magnitude, units, hcode, magnitude, units]
  rw [toRat, toRat, hneg, hmag]
  cases isNegative x with
  | true => exact (neg_neg _).symm
  | false => rfl

/-- A value is not farther from a rational than its magnitude from that of the rational. -/
theorem abs_magnitude_sub_le (x : Float) (q : ℚ) : abs (magnitude x - |q|) ≤ |toRat x - q| := by
  rw [← abs_toRat]
  exact abs_abs_sub_abs_le (toRat x) q

/-- A value on the same side of zero is as far away as its magnitude. -/
theorem abs_toRat_sub_of_sign {x : Float} {q : ℚ}
    (h : code x = 0 ∨ (isNegative x = true ↔ q < 0)) :
    |toRat x - q| = abs (magnitude x - |q|) := by
  rcases h with hzero | hsign
  · have hmag := magnitude_eq_zero_iff.mpr hzero
    have hrat : toRat x = 0 := by rw [← abs_eq_zero, abs_toRat, hmag]
    rw [hrat, hmag, zero_sub, zero_sub, abs_neg, abs_neg, abs_abs]
  · by_cases hq : q < 0
    · rw [toRat, if_pos (hsign.mpr hq), abs_of_neg hq, ← abs_neg, neg_sub_left, neg_neg,
        sub_neg_eq_add, add_comm]
    · rw [toRat, if_neg (mt hsign.mp hq), abs_of_nonneg (not_lt.mp hq)]

/-- A value on the other side of zero is farther away than zero, by its magnitude. -/
theorem abs_toRat_sub_of_not_sign {x : Float} {q : ℚ}
    (h : ¬ (isNegative x = true ↔ q < 0)) : |toRat x - q| = magnitude x + |q| := by
  have hmag := magnitude_nonneg x
  by_cases hq : q < 0
  · have hneg : ¬ isNegative x = true := fun hneg => h (iff_of_true hneg hq)
    rw [toRat, if_neg hneg, abs_of_neg hq, abs_of_pos (by linarith)]
    ring
  · have hneg : isNegative x = true := by
      by_contra hneg
      exact h (iff_of_false hneg hq)
    have hq' : 0 ≤ q := not_lt.mp hq
    rw [toRat, if_pos hneg, abs_of_nonneg hq', abs_of_nonpos (by linarith)]
    ring

/-- Every code up to that of infinity belongs to a value on the side of a rational. -/
theorem exists_code_of_sign {c : ℕ} (hc : c ≤ infinityCode) (q : ℚ) :
    ∃ y : Float, code y = c ∧ (isNegative y = true ↔ q < 0) := by
  obtain ⟨hneg, hcode⟩ := code_ofCode hc
  by_cases hq : q < 0
  · obtain ⟨hneg', hcode'⟩ := neg_eq (hcode.trans_le hc)
    exact ⟨-ofCode c, hcode'.trans hcode, by simp [hneg', hneg, hq]⟩
  · exact ⟨ofCode c, hcode, by simp [hneg, hq]⟩

/-! ### The nearest value -/

/-- **The finite value nearest to a rational.** No other value is nearer, and if a
different one is as near, the last bit of the encoding is zero. -/
structure IsNearest (x : Float) (q : ℚ) : Prop where
  finite : x.isFinite = true
  le : ∀ y : Float, y.isNaN = false → |toRat x - q| ≤ |toRat y - q|
  even : ∀ y : Float, y.isNaN = false → |toRat x - q| = |toRat y - q| → toRat y ≠ toRat x →
    code x % 2 = 0

/-- A value that is a number has a code up to that of infinity. -/
theorem isNaN_eq_false_iff {x : Float} : x.isNaN = false ↔ code x ≤ infinityCode := by
  rw [← Bool.not_eq_true, isNaN_iff, Nat.not_lt]

/-- The nearest code, with magnitudes measured in ones. -/
theorem isNearestCode_mul_iff {last c : ℕ} {r : ℚ} :
    IsNearestCode last c (r * unitsInOne) ↔ c ≤ last ∧ ∀ c' ≤ last,
      |(unitsOfCode c : ℚ) / unitsInOne - r| ≤ |(unitsOfCode c' : ℚ) / unitsInOne - r| ∧
        (|(unitsOfCode c : ℚ) / unitsInOne - r| = |(unitsOfCode c' : ℚ) / unitsInOne - r| →
          c' ≠ c → c % 2 = 0) := by
  simp only [IsNearestCode, abs_sub_mul unitsInOne_pos, mul_le_mul_iff_left₀ unitsInOne_pos,
    mul_left_inj' unitsInOne_pos.ne']

/-- The nearest value is on the side of the rational, unless it is a zero. -/
theorem IsNearest.sign {x : Float} {q : ℚ} (h : IsNearest x q) :
    code x = 0 ∨ (isNegative x = true ↔ q < 0) := by
  by_contra hside
  obtain ⟨hzero, hside⟩ := not_or.mp hside
  have hpos : 0 < magnitude x :=
    lt_of_le_of_ne (magnitude_nonneg x) (Ne.symm (mt magnitude_eq_zero_iff.mp hzero))
  -- a zero would be nearer
  obtain ⟨z, hz, -⟩ := exists_code_of_sign (Nat.zero_le infinityCode) q
  have hle := h.le z (isNaN_eq_false_iff.mpr (hz.trans_le (Nat.zero_le _)))
  rw [abs_toRat_sub_of_sign (.inl hz), magnitude_eq_zero_iff.mpr hz, zero_sub, abs_neg,
    abs_abs, abs_toRat_sub_of_not_sign hside] at hle
  linarith

/-- Of two opposite values, the one on the other side of zero is not as near. -/
theorem code_eq_zero_of_as_near {x y : Float} {q : ℚ} (hside : isNegative x = true ↔ q < 0)
    (hcode : code y = code x) (hne : toRat y ≠ toRat x)
    (hzero : abs (magnitude x - |q|) ≤ |q|) (hnear : abs (magnitude x - |q|) = |toRat y - q|) :
    code x = 0 := by
  have hmag : magnitude y = magnitude x := by rw [magnitude, units, hcode, magnitude, units]
  have hother : ¬ (isNegative y = true ↔ q < 0) := by
    intro hside'
    have hneg : isNegative y = isNegative x := Bool.eq_iff_iff.mpr (hside'.trans hside.symm)
    exact hne (by rw [toRat, toRat, hneg, hmag])
  rw [abs_toRat_sub_of_not_sign hother, hmag] at hnear
  exact magnitude_eq_zero_iff.mp (le_antisymm (by linarith) (magnitude_nonneg x))

/-- **The nearest value by sign and code.** -/
theorem isNearest_iff {x : Float} {q : ℚ} :
    IsNearest x q ↔ IsNearestCode infinityCode (code x) (|q| * unitsInOne) ∧
      code x < infinityCode ∧ (code x = 0 ∨ (isNegative x = true ↔ q < 0)) := by
  rw [isNearestCode_mul_iff]
  constructor
  · intro h
    have hcode := (isFinite_iff x).mp h.finite
    have hx := abs_toRat_sub_of_sign h.sign
    refine ⟨⟨hcode.le, ?_⟩, hcode, h.sign⟩
    intro c' hc'
    obtain ⟨y, rfl, hsign⟩ := exists_code_of_sign hc' q
    have hnum := isNaN_eq_false_iff.mpr hc'
    have hy := abs_toRat_sub_of_sign (.inr hsign)
    rw [magnitude, units] at hx hy
    rw [← hx, ← hy]
    refine ⟨h.le y hnum, ?_⟩
    intro heq hne
    refine h.even y hnum heq ?_
    intro hsame
    have hmag : magnitude y = magnitude x := by rw [← abs_toRat, hsame, abs_toRat]
    rw [magnitude, magnitude, div_left_inj' unitsInOne_pos.ne', Nat.cast_inj] at hmag
    exact hne (strictMono_unitsOfCode.injective hmag)
  · rintro ⟨⟨-, hmin⟩, hcode, hsign⟩
    have hx := abs_toRat_sub_of_sign hsign
    refine ⟨(isFinite_iff x).mpr hcode, ?_, ?_⟩
    · intro y hy
      rw [hx]
      exact (hmin (code y) (isNaN_eq_false_iff.mp hy)).1.trans (abs_magnitude_sub_le y q)
    · intro y hy heq hne
      obtain ⟨hle, heven⟩ := hmin (code y) (isNaN_eq_false_iff.mp hy)
      rw [hx] at heq
      have hdist : abs (magnitude x - |q|) = abs (magnitude y - |q|) :=
        le_antisymm hle (heq ▸ abs_magnitude_sub_le y q)
      by_cases hsame : code y = code x
      · rcases hsign with hzero | hside
        · rw [hzero]
        · have hle0 : abs (magnitude x - |q|) ≤ |q| := by
            have hzero := (hmin 0 (Nat.zero_le _)).1
            rw [unitsOfCode_zero, Nat.cast_zero, zero_div, zero_sub, abs_neg, abs_abs] at hzero
            exact hzero
          rw [code_eq_zero_of_as_near hside hsame hne hle0 heq]
      · exact heven hdist hsame

/-- Nearest values come in pairs of opposite sign. -/
theorem IsNearest.neg {x : Float} {q : ℚ} (h : IsNearest x q) : IsNearest (-x) (-q) := by
  have hlt : code x < infinityCode := (isFinite_iff x).mp h.finite
  obtain ⟨-, hcode⟩ := neg_eq hlt.le
  have hx : |toRat (-x) - -q| = |toRat x - q| := by
    rw [toRat_neg hlt.le, neg_sub_neg, abs_sub_comm]
  have hmirror (y : Float) (hy : y.isNaN = false) :
      (-y).isNaN = false ∧ toRat (-y) = -toRat y ∧ |toRat y - -q| = |toRat (-y) - q| := by
    have hy' : code y ≤ infinityCode := isNaN_eq_false_iff.mp hy
    refine ⟨isNaN_eq_false_iff.mpr ((neg_eq hy').2.trans_le hy'), toRat_neg hy', ?_⟩
    rw [toRat_neg hy', ← abs_neg, neg_sub, sub_eq_add_neg, add_comm, sub_eq_add_neg]
  refine ⟨(isFinite_iff _).mpr (hcode.trans_lt hlt), ?_, ?_⟩
  · intro y hy
    obtain ⟨hnum, -, hdist⟩ := hmirror y hy
    rw [hx, hdist]
    exact h.le (-y) hnum
  · intro y hy heq hne
    obtain ⟨hnum, hrat, hdist⟩ := hmirror y hy
    rw [hx, hdist] at heq
    rw [hcode]
    refine h.even (-y) hnum heq ?_
    intro hsame
    refine hne ?_
    rw [toRat_neg hlt.le, ← hsame, hrat, neg_neg]

/-- The code of a decimal is the nearest to it. -/
theorem isNearestCode_codeOfDecimal (d : Decimal) :
    IsNearestCode infinityCode (codeOfDecimal d) (d.toRat * unitsInOne) := by
  have hpow : 0 < 10 ^ d.places := Nat.pow_pos (by omega)
  have hnear := isNearestCode_nearestCode d.coefficient hpow
  rw [Nat.cast_pow, Nat.cast_ofNat, mul_div_right_comm] at hnear
  exact hnear

/-- **The value read from a decimal is the nearest**, if it is finite. -/
theorem isNearest_ofDecimal {d : Decimal} (h : codeOfDecimal d < infinityCode) :
    IsNearest (ofDecimal d) d.toRat := by
  obtain ⟨hneg, hcode⟩ := code_ofCode h.le
  refine isNearest_iff.mpr ⟨?_, by rwa [ofDecimal, hcode], .inr ?_⟩
  · rw [ofDecimal, hcode, abs_of_nonneg d.toRat_nonneg]
    exact isNearestCode_codeOfDecimal d
  · rw [ofDecimal, hneg]
    simp [d.toRat_nonneg]

end Binary64

end Keypad
