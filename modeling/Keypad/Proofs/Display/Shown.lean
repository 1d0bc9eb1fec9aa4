import Keypad.Display
import Keypad.Proofs.Binary64.Value

/-!
# What is shown, and which code it is nearest to

The display counts in **parts** of `10 ^ -8`, the format in spacings that grow with the
value. The two meet at `2 ^ 26`. Below, a spacing is less than a part: reading what is shown
may come to another code, but what that code shows is the same. From there on a spacing is
more than a part: what is shown is nearest to the very code that was shown.

Everything here is about magnitudes in units, so a part is a rational number of units.

## Main results

* `shownParts_of_isNearestCode`: below `2 ^ 26`, the code nearest to a number of parts shows
  that number.
* `isNearestCode_shownParts`: from `2 ^ 26` on, a code is nearest to what it shows.
* `shownParts_congr`: **what is read back shows the same**, and is finite.
* `eq_iff_exists_isNearestCode`: what is read back is the code itself exactly when that code
  is nearest to some number of parts.
-/

namespace Keypad

open Binary64

/-! ### Parts -/

/-- How many units a shown part has. -/
def unitsInPart : ℚ := unitsInOne / 10 ^ displayPlaces

/-- How many parts the display shows for a magnitude. -/
def shownParts (u : ℕ) : ℕ := divNearest (u * 10 ^ displayPlaces) unitsInOne

/-- The spacing below `2 ^ 26` is two to this power, in units. -/
@[irreducible]
def spacingExponent : ℕ := 1047

/-- Some spacings make one. -/
theorem unitsInOne_eq : unitsInOne = 2 ^ (27 + spacingExponent) := by
  have hexponent : 1074 = 27 + spacingExponent := by rw [spacingExponent]
  rw [unitsInOne, hexponent, Nat.pow_eq]

/-- **A part lies between two spacings**: the one below `2 ^ 26`, and the one from there
on. -/
theorem spacing_lt_unitsInPart :
    2 ^ spacingExponent < unitsInPart ∧ unitsInPart < 2 ^ (spacingExponent + 1) := by
  have hpos : (0 : ℚ) < 2 ^ spacingExponent := by positivity
  rw [unitsInPart, unitsInOne_eq, displayPlaces, Nat.cast_pow, Nat.cast_ofNat, pow_add,
    lt_div_iff₀ (by norm_num), div_lt_iff₀ (by norm_num), pow_succ _ spacingExponent]
  constructor
  · linarith
  · linarith

/-- A part is a positive number of units. -/
theorem unitsInPart_pos : 0 < unitsInPart :=
  lt_trans (by positivity) spacing_lt_unitsInPart.1

/-- How many parts `2 ^ 26` has. -/
theorem mul_unitsInPart : (2 ^ 26 * 10 ^ 8 : ℕ) * unitsInPart = 2 ^ (53 + spacingExponent) := by
  have hsum : 53 + spacingExponent = 26 + (27 + spacingExponent) := by omega
  rw [hsum, pow_add, unitsInPart, unitsInOne_eq, displayPlaces, Nat.cast_mul, Nat.cast_pow,
    Nat.cast_pow, Nat.cast_pow, Nat.cast_ofNat, Nat.cast_ofNat]
  field_simp

/-- A magnitude in parts. -/
theorem div_unitsInPart (u : ℕ) :
    ((u * 10 ^ displayPlaces : ℕ) : ℚ) / unitsInOne = u / unitsInPart := by
  rw [unitsInPart, div_div_eq_mul_div, Nat.cast_mul, Nat.cast_pow, Nat.cast_ofNat]

/-- What is shown is at most half a part away. -/
theorem abs_shownParts_sub_le (u : ℕ) : |shownParts u * unitsInPart - u| ≤ unitsInPart / 2 := by
  obtain ⟨hle, -⟩ := divNearest_spec (u * 10 ^ displayPlaces) (Nat.cast_pos.mp unitsInOne_pos)
  rw [div_unitsInPart] at hle
  rw [abs_mul_sub unitsInPart_pos]
  have hscaled := mul_le_mul_of_nonneg_right hle unitsInPart_pos.le
  rw [shownParts]
  linarith

/-- A number of parts less than half a part away is shown. -/
theorem shownParts_eq_of_lt {u k : ℕ} (h : |k * unitsInPart - u| < unitsInPart / 2) :
    shownParts u = k := by
  refine divNearest_eq_of_lt _ (Nat.cast_pos.mp unitsInOne_pos) ?_
  rw [div_unitsInPart]
  rw [abs_mul_sub unitsInPart_pos] at h
  by_contra hge
  have hscaled := mul_le_mul_of_nonneg_right (not_lt.mp hge) unitsInPart_pos.le
  linarith

/-- Below `2 ^ 26`, at most `2 ^ 26` is shown. -/
theorem shownParts_mul_le {u : ℕ} (h : (u : ℚ) < 2 ^ (53 + spacingExponent)) :
    shownParts u * unitsInPart ≤ 2 ^ (53 + spacingExponent) := by
  have hpos := unitsInPart_pos
  have habs := (abs_le.mp (abs_shownParts_sub_le u)).2
  rw [← mul_unitsInPart] at h ⊢
  refine mul_le_mul_of_nonneg_right ?_ hpos.le
  have hlt : (shownParts u : ℚ) < (2 ^ 26 * 10 ^ 8 : ℕ) + 1 := by
    by_contra hge
    have hscaled := mul_le_mul_of_nonneg_right (not_lt.mp hge) hpos.le
    linarith
  exact_mod_cast Nat.lt_succ_iff.mp (by exact_mod_cast hlt)

/-! ### The code of what is shown -/

/-- The code of infinity is far above `2 ^ 26`. -/
theorem two_pow_le_infinity : 2 ^ (54 + spacingExponent) ≤ unitsOfCode infinityCode := by
  obtain ⟨e, he, hcode⟩ : ∃ e, 2 + spacingExponent ≤ e ∧
      infinityCode = e * 2 ^ 52 + 2 ^ 52 := by
    refine ⟨2046, ?_, rfl⟩
    rw [spacingExponent]
    omega
  rw [hcode, unitsOfCode_grid (by omega) (.inr (Nat.le_refl _)), ← Nat.pow_add]
  exact Nat.pow_le_pow_right two_pos (by omega)

/-- There is a code of `2 ^ 26`, and it is finite. -/
theorem exists_unitsOfCode_eq_two_pow :
    ∃ c ≤ infinityCode, unitsOfCode c = 2 ^ (53 + spacingExponent) := by
  obtain ⟨c, hc⟩ := exists_unitsOfCode_eq spacingExponent (Nat.le_refl (2 ^ 53))
  rw [← Nat.pow_add] at hc
  refine ⟨c, ?_, hc⟩
  rw [← strictMono_unitsOfCode.le_iff_le, hc]
  exact Nat.le_trans (Nat.pow_le_pow_right two_pos (by omega)) two_pow_le_infinity

/-- **Below `2 ^ 26` the nearest code is near**: less than half a part away. -/
theorem abs_mul_unitsInPart_sub_lt {c k : ℕ} (h : IsNearestCode infinityCode c (k * unitsInPart))
    (hk : k * unitsInPart ≤ 2 ^ (53 + spacingExponent)) :
    |k * unitsInPart - unitsOfCode c| < unitsInPart / 2 := by
  have hlast : 2 ^ (53 + spacingExponent) ≤ unitsOfCode infinityCode :=
    Nat.le_trans (Nat.pow_le_pow_right two_pos (by omega)) two_pow_le_infinity
  have hk0 : 0 ≤ k * unitsInPart := mul_nonneg (Nat.cast_nonneg k) unitsInPart_pos.le
  have hle := IsNearestCode.abs_sub_le h hk0 hk hlast
  have hspacing := spacing_lt_unitsInPart.1
  rw [abs_sub_comm]
  linarith

/-- **Below `2 ^ 26` the code nearest to a number of parts shows that number.** -/
theorem shownParts_of_isNearestCode {c k : ℕ}
    (h : IsNearestCode infinityCode c (k * unitsInPart))
    (hk : k * unitsInPart ≤ 2 ^ (53 + spacingExponent)) : shownParts (unitsOfCode c) = k :=
  shownParts_eq_of_lt (abs_mul_unitsInPart_sub_lt h hk)

/-- **From `2 ^ 26` on, a code is nearest to what it shows.** -/
theorem isNearestCode_shownParts {c : ℕ} (hc : c ≤ infinityCode)
    (h : (2 : ℚ) ^ (53 + spacingExponent) ≤ unitsOfCode c) :
    IsNearestCode infinityCode c (shownParts (unitsOfCode c) * unitsInPart) := by
  rcases h.eq_or_lt with heq | hlt
  · -- `2 ^ 26` itself is shown as it is, and the spacing below it does not matter
    have hparts : shownParts (unitsOfCode c) = 2 ^ 26 * 10 ^ 8 := by
      refine shownParts_eq_of_lt ?_
      rw [mul_unitsInPart, heq, sub_self, abs_zero]
      exact half_pos unitsInPart_pos
    rw [hparts, mul_unitsInPart, heq]
    exact IsNearestCode.self hc
  · have hlt' : 2 ^ (52 + (spacingExponent + 1)) < unitsOfCode c := by
      have hsum : 52 + (spacingExponent + 1) = 53 + spacingExponent := by omega
      rw [hsum]
      exact_mod_cast hlt
    refine isNearestCode_of_abs_lt hc hlt' ?_
    have hle := abs_shownParts_sub_le (unitsOfCode c)
    have hspacing := spacing_lt_unitsInPart.2
    rw [abs_sub_comm] at hle
    linarith

/-- **What is read back shows the same, and is finite.** -/
theorem shownParts_congr {c c' : ℕ} (hc : c < infinityCode)
    (h : IsNearestCode infinityCode c' (shownParts (unitsOfCode c) * unitsInPart)) :
    shownParts (unitsOfCode c') = shownParts (unitsOfCode c) ∧ c' < infinityCode := by
  by_cases hlarge : (2 : ℚ) ^ (53 + spacingExponent) ≤ unitsOfCode c
  · rw [h.unique (isNearestCode_shownParts hc.le hlarge)]
    exact ⟨rfl, hc⟩
  · have hk := shownParts_mul_le (not_le.mp hlarge)
    refine ⟨shownParts_of_isNearestCode h hk, ?_⟩
    have hnear := (abs_lt.mp (abs_mul_unitsInPart_sub_lt h hk)).1
    have hpart := spacing_lt_unitsInPart.2
    have hfar : (unitsOfCode c' : ℚ) < 2 ^ (54 + spacingExponent) := by
      have hmono : (2 : ℚ) ^ (spacingExponent + 1) ≤ 2 ^ (53 + spacingExponent) :=
        pow_le_pow_right₀ one_le_two (by omega)
      have hdouble : (2 : ℚ) ^ (54 + spacingExponent) = 2 * 2 ^ (53 + spacingExponent) := by
        rw [← pow_succ', Nat.add_right_comm]
      linarith
    have hfar' : unitsOfCode c' < 2 ^ (54 + spacingExponent) := by exact_mod_cast hfar
    exact strictMono_unitsOfCode.lt_iff_lt.mp (Nat.lt_of_lt_of_le hfar' two_pow_le_infinity)

/-- **What is read back is the code itself exactly when that code is nearest to some number
of parts.** -/
theorem eq_iff_exists_isNearestCode {c c' : ℕ} (hc : c < infinityCode)
    (h : IsNearestCode infinityCode c' (shownParts (unitsOfCode c) * unitsInPart)) :
    c' = c ↔ ∃ k : ℕ, IsNearestCode infinityCode c (k * unitsInPart) := by
  constructor
  · rintro rfl
    exact ⟨_, h⟩
  · rintro ⟨k, hk⟩
    by_cases hlarge : (2 : ℚ) ^ (53 + spacingExponent) ≤ unitsOfCode c
    · exact h.unique (isNearestCode_shownParts hc.le hlarge)
    · -- were there more than `2 ^ 26`, then `2 ^ 26` would be nearer
      have hkle : k * unitsInPart ≤ 2 ^ (53 + spacingExponent) := by
        obtain ⟨top, hle, htop⟩ := exists_unitsOfCode_eq_two_pow
        have hnear := (hk.2 top hle).1
        rw [htop, Nat.cast_pow, Nat.cast_ofNat] at hnear
        by_contra hgt
        have hgt' := not_le.mp hgt
        have hsmall := not_le.mp hlarge
        rw [abs_of_neg (by linarith), abs_of_neg (by linarith)] at hnear
        linarith
      rw [shownParts_of_isNearestCode hk hkle] at h
      exact h.unique hk

end Keypad
