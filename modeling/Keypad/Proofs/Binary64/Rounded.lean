import Keypad.Proofs.Binary64.Value

/-!
# Literals as they are read

A literal is read by rounding the decimal that it denotes once, however many digits there
are. This module says which value comes out without the reader and without codes: at both
ends of the format a comparison with a power of two decides, and in between the value is the
nearest. The value is unique, so a literal has the value of every other literal that denotes
the same decimal.

Whether a code stays below a given one is decided at the midpoint behind it, and on the
midpoint the even code wins. Both ends of the format are cases of this: up to `2 ^ -1075`,
half of the least unit, everything is zero, and from `2 ^ 1024 - 2 ^ 970` on, the midpoint
behind the largest finite magnitude, everything is infinite.

## Main definitions

* `IsRounded`: a value is what a rational that is not negative is rounded to.

## Main results

* `IsNearestCode.le_iff`: the midpoint behind a code decides.
* `ofLiteral?_eq_some_iff`: **reading a literal is rounding what it denotes.**
* `ofLiteral?_pad`: zeros that do not count do not change the value.
-/

namespace Keypad

namespace Binary64

/-! ### The midpoint decides -/

/-- The lower of two points is as near as the upper one up to their midpoint. -/
theorem abs_sub_le_abs_sub_iff_le_add {a b : ℚ} (h : a < b) (x : ℚ) :
    |a - x| ≤ |b - x| ↔ 2 * x ≤ a + b := by
  have hfactor : (b - x) ^ 2 - (a - x) ^ 2 = (b - a) * (a + b - 2 * x) := by ring
  rw [← sq_le_sq, ← sub_nonneg, hfactor, mul_nonneg_iff_of_pos_left (sub_pos.mpr h), sub_nonneg]

/-- The upper of two points is as near as the lower one from their midpoint on. -/
theorem abs_sub_le_abs_sub_iff_add_le {a b : ℚ} (h : a < b) (x : ℚ) :
    |b - x| ≤ |a - x| ↔ a + b ≤ 2 * x := by
  have hfactor : (a - x) ^ 2 - (b - x) ^ 2 = (b - a) * (2 * x - (a + b)) := by ring
  rw [← sq_le_sq, ← sub_nonneg, hfactor, mul_nonneg_iff_of_pos_left (sub_pos.mpr h), sub_nonneg]

/-- **The nearest code is at most a given one** up to the midpoint between that code and the
next, and on the midpoint if the given code is the even one of the two. -/
theorem IsNearestCode.le_iff {last c d : ℕ} {x : ℚ} (h : IsNearestCode last d x) (hc : c < last) :
    d ≤ c ↔ 2 * x < unitsOfCode c + unitsOfCode (c + 1) ∨
      2 * x = unitsOfCode c + unitsOfCode (c + 1) ∧ c % 2 = 0 := by
  have hmono {m n : ℕ} (hmn : m ≤ n) : (unitsOfCode m : ℚ) ≤ unitsOfCode n := by
    exact_mod_cast strictMono_unitsOfCode.monotone hmn
  have hstrict {m n : ℕ} (hmn : m < n) : (unitsOfCode m : ℚ) < unitsOfCode n := by
    exact_mod_cast strictMono_unitsOfCode hmn
  constructor
  · intro hd
    obtain ⟨hle, heven⟩ := h.2 (c + 1) hc
    have hmid := (abs_sub_le_abs_sub_iff_le_add (hstrict (Nat.lt_succ_of_le hd)) x).mp hle
    have hdc := hmono hd
    rcases lt_or_eq_of_le (hmid.trans (add_le_add_left hdc _)) with hlt | heq
    · exact .inl hlt
    · -- at the midpoint the code itself is the nearest, and the next one is as near
      obtain rfl : d = c := hd.antisymm (Nat.le_of_not_lt fun hlt => by linarith [hstrict hlt])
      have hback := (abs_sub_le_abs_sub_iff_add_le (hstrict (Nat.lt_succ_self d)) x).mpr heq.ge
      exact .inr ⟨heq, heven (hle.antisymm hback) (Nat.succ_ne_self d)⟩
  · intro hmid
    by_contra hd
    have hcd : c < d := Nat.lt_of_not_le hd
    obtain ⟨hle, heven⟩ := h.2 c hc.le
    have hnear := (abs_sub_le_abs_sub_iff_add_le (hstrict hcd) x).mp hle
    have hnext := hmono (Nat.succ_le_of_lt hcd)
    rcases hmid with hlt | ⟨heq, hc2⟩
    · linarith
    · -- the next code is the nearest, and the code itself is as near
      obtain rfl : d = c + 1 := (Nat.le_of_not_lt fun hlt => by linarith [hstrict hlt]).antisymm hcd
      have hback := (abs_sub_le_abs_sub_iff_le_add (hstrict hcd) x).mpr heq.le
      have hodd := heven (hle.antisymm hback) hcd.ne
      omega

/-! ### Both ends of the format -/

/-- The magnitudes of the last finite code and of the code of infinity. -/
theorem unitsOfCode_last :
    unitsOfCode (infinityCode - 1) = (2 ^ 53 - 1) * 2 ^ 2045 ∧
      unitsOfCode infinityCode = 2 ^ 53 * 2 ^ 2045 := by
  have hlast := unitsOfCode_grid (s := 2045) (m := 2 ^ 53 - 1) (by omega) (.inr (by omega))
  have hinf := unitsOfCode_grid (s := 2045) (m := 2 ^ 53) le_rfl (.inr (by omega))
  have hcode : 2045 * 2 ^ 52 + (2 ^ 53 - 1) = infinityCode - 1 := by
    rw [infinityCode_eq]
    omega
  have hcode' : 2045 * 2 ^ 52 + 2 ^ 53 = infinityCode := by
    rw [infinityCode_eq]
    omega
  rw [hcode] at hlast
  rw [hcode'] at hinf
  exact ⟨hlast, hinf⟩

/-- **Underflow**: up to half a unit, the nearest code is that of zero. -/
theorem IsNearestCode.eq_zero_iff {c : ℕ} {q : ℚ}
    (h : IsNearestCode infinityCode c (q * unitsInOne)) : c = 0 ↔ q ≤ 1 / 2 ^ 1075 := by
  have hone : unitsOfCode (0 + 1) = 1 := unitsOfCode_of_lt (by decide)
  have hpow : (2 : ℚ) ^ 1075 = unitsInOne * 2 := by rw [cast_unitsInOne, ← pow_succ]
  rw [← Nat.le_zero, h.le_iff (by decide), unitsOfCode_zero, hone, Nat.cast_zero, Nat.cast_one,
    zero_add, and_iff_left (Nat.zero_mod 2), ← le_iff_lt_or_eq, hpow,
    le_div_iff₀ (mul_pos unitsInOne_pos two_pos), mul_comm 2, mul_assoc]

/-- **Overflow**: from the midpoint behind the last finite magnitude on, the nearest code is
that of infinity. -/
theorem IsNearestCode.eq_infinityCode_iff {c : ℕ} {q : ℚ}
    (h : IsNearestCode infinityCode c (q * unitsInOne)) :
    c = infinityCode ↔ 2 ^ 1024 - 2 ^ 970 ≤ q := by
  obtain ⟨hlast, hinf⟩ := unitsOfCode_last
  have hpos : 0 < infinityCode := by decide
  have hodd : ¬ (infinityCode - 1) % 2 = 0 := by decide
  have hle := h.le_iff (Nat.sub_one_lt_of_lt hpos)
  rw [Nat.sub_one_add_one hpos.ne', hlast, hinf, or_iff_left fun hmid => hodd hmid.2] at hle
  -- the two magnitudes add up to twice the threshold, in units
  have hsum (p : ℕ) : (((2 ^ 53 - 1) * p : ℕ) : ℚ) + (2 ^ 53 * p : ℕ) = (2 ^ 54 - 1) * p := by
    push_cast
    ring
  have hpow : ((2 ^ 2045 : ℕ) : ℚ) = 2 ^ 970 * (2 * unitsInOne) := by
    rw [cast_unitsInOne, ← pow_succ', ← pow_add, Nat.cast_pow, Nat.cast_ofNat]
  have hthreshold : (2 ^ 54 - 1) * 2 ^ 970 = (2 ^ 1024 - 2 ^ 970 : ℚ) := by
    rw [sub_mul, one_mul, ← pow_add]
  rw [hsum, hpow, ← mul_assoc (2 ^ 54 - 1), hthreshold, mul_left_comm,
    mul_lt_mul_iff_left₀ (mul_pos two_pos unitsInOne_pos)] at hle
  have hc := h.1
  rw [← not_lt, ← hle]
  omega

/-! ### Rounded values -/

/-- **What a rational that is not negative is rounded to**: infinity from the midpoint
behind the largest finite value on, zero up to half of the least positive value, and the
nearest value in between. -/
structure IsRounded (x : Float) (q : ℚ) : Prop where
  isNegative : isNegative x = false
  isNaN : x.isNaN = false
  isInf_iff : x.isInf = true ↔ 2 ^ 1024 - 2 ^ 970 ≤ q
  eq_zero_iff : x = 0.0 ↔ q ≤ 1 / 2 ^ 1075
  nearest : q < 2 ^ 1024 - 2 ^ 970 → IsNearest x q

/-- A value without a sign is zero when its code is. -/
theorem eq_zero_iff_code {x : Float} (h : isNegative x = false) : x = 0.0 ↔ code x = 0 := by
  obtain ⟨hneg, hcode, -, -⟩ := zero_sign_code
  constructor
  · rintro rfl
    exact hcode
  · intro hx
    exact ext (h.trans hneg.symm) (hx.trans hcode.symm)

/-- **The value read from a decimal is what the decimal is rounded to.** -/
theorem isRounded_ofDecimal (d : Decimal) : IsRounded (ofDecimal d) d.toRat := by
  have hnear := isNearestCode_codeOfDecimal d
  obtain ⟨hneg, hcode⟩ : isNegative (ofDecimal d) = false ∧ code (ofDecimal d) = codeOfDecimal d :=
    code_ofCode hnear.1
  refine ⟨hneg, ?_, ?_, ?_, ?_⟩
  · rw [isNaN_eq_false_iff, hcode]
    exact hnear.1
  · rw [isInf_iff, hcode, hnear.eq_infinityCode_iff]
  · rw [eq_zero_iff_code hneg, hcode, hnear.eq_zero_iff]
  · intro hq
    rw [← not_le, ← hnear.eq_infinityCode_iff] at hq
    exact isNearest_ofDecimal (lt_of_le_of_ne hnear.1 hq)

/-- A rational is rounded to one value only. -/
theorem IsRounded.unique {x y : Float} {q : ℚ} (hx : IsRounded x q) (hy : IsRounded y q) :
    x = y := by
  refine ext (hx.isNegative.trans hy.isNegative.symm) ?_
  rcases le_or_gt (2 ^ 1024 - 2 ^ 970) q with hq | hq
  · rw [(Binary64.isInf_iff x).mp (hx.isInf_iff.mpr hq),
      (Binary64.isInf_iff y).mp (hy.isInf_iff.mpr hq)]
  · exact (isNearest_iff.mp (hx.nearest hq)).1.unique (isNearest_iff.mp (hy.nearest hq)).1

/-- What compares as zero is rounded from at most half of the least positive value. -/
theorem IsRounded.beq_zero_iff {x : Float} {q : ℚ} (h : IsRounded x q) :
    (x == 0.0) = true ↔ q ≤ 1 / 2 ^ 1075 := by
  rw [Binary64.beq_zero_iff, ← eq_zero_iff_code h.isNegative, h.eq_zero_iff]

/-! ### Reading literals -/

/-- **Reading a literal is rounding what it denotes**, and nothing but a literal is read. -/
theorem ofLiteral?_eq_some_iff {literal : String} {x : Float} :
    ofLiteral? literal = some x ↔
      IsLiteral literal.toList ∧ IsRounded x (literalValue 0 literal.toList) := by
  rw [ofLiteral?, Option.map_eq_some_iff]
  constructor
  · rintro ⟨d, hd, rfl⟩
    rw [← Decimal.toRat_of_ofLiteral? hd]
    exact ⟨Decimal.isSome_ofLiteral?_iff.mp (by rw [hd]; rfl), isRounded_ofDecimal d⟩
  · rintro ⟨hliteral, hrounded⟩
    obtain ⟨d, hd⟩ := Option.isSome_iff_exists.mp (Decimal.isSome_ofLiteral?_iff.mpr hliteral)
    rw [← Decimal.toRat_of_ofLiteral? hd] at hrounded
    exact ⟨d, hd, (isRounded_ofDecimal d).unique hrounded⟩

/-- What is not read is no literal. -/
theorem ofLiteral?_eq_none_iff {literal : String} :
    ofLiteral? literal = none ↔ ¬ IsLiteral literal.toList := by
  rw [ofLiteral?, Option.map_eq_none_iff, ← Decimal.isSome_ofLiteral?_iff, Bool.not_eq_true,
    Option.isSome_eq_false_iff, Option.isNone_iff_eq_none]

/-- **Zeros in front, and at the end of the fraction, do not change the value.** -/
theorem ofLiteral?_pad {cs : List Char} {back : ℕ} (hcs : IsLiteral cs)
    (hback : back = 0 ∨ '.' ∈ cs) (front : ℕ) :
    ofLiteral? (String.ofList (List.replicate front '0' ++ cs ++ List.replicate back '0')) =
      ofLiteral? (String.ofList cs) := by
  refine Option.ext fun x => ?_
  rw [ofLiteral?_eq_some_iff, ofLiteral?_eq_some_iff, String.toList_ofList,
    String.toList_ofList, literalValue_pad hback, and_iff_right (hcs.pad front back),
    and_iff_right hcs]

end Binary64

end Keypad
