import Keypad.Rounding
import Mathlib.Algebra.Order.Field.Rat
import Mathlib.Algebra.Order.Ring.Abs
import Mathlib.Tactic.Linarith
import Mathlib.Tactic.NormNum
import Mathlib.Tactic.Positivity

/-!
# What a rounded quotient is

`divNearest` computes with a floor and a remainder. Here it is characterised by its distance
to the exact quotient: at most a half, and an even result when it is a half. Both rules of
the library, that of the display and that of the binary format, rest on these statements.

## Main results

* `divNearest_spec`: the result is at most a half away, and even on a tie.
* `divNearest_eq_of_lt`: a natural that is less than a half away is the result.
* `nearest_of_abs_le_half`: a natural at most a half away is nearest among the naturals.
-/

namespace Keypad

/-! ### Distances on a grid -/

/-- A distance to a multiple of `s`, counted in steps of `s`. -/
theorem abs_mul_sub {s : ℚ} (hs : 0 < s) (n x : ℚ) : |n * s - x| = |n - x / s| * s := by
  rw [← abs_of_pos hs, ← abs_mul, abs_of_pos hs, sub_mul, div_mul_cancel₀ _ hs.ne']

/-- A distance from a multiple of `s`, counted in steps of `s`. -/
theorem abs_sub_mul {s : ℚ} (hs : 0 < s) (x n : ℚ) : |x - n * s| = |x / s - n| * s := by
  rw [abs_sub_comm, abs_mul_sub hs, abs_sub_comm]

/-- Different integers are at least one apart. -/
theorem one_le_abs_cast_sub_of_ne {m m' : ℤ} (h : m' ≠ m) : (1 : ℚ) ≤ |(m' : ℚ) - m| := by
  have hint : 1 ≤ |m' - m| := Int.one_le_abs (sub_ne_zero.mpr h)
  exact_mod_cast hint

/-- Different naturals are at least one apart. -/
theorem one_le_abs_sub_of_ne {m m' : ℕ} (h : m' ≠ m) : (1 : ℚ) ≤ |(m' : ℚ) - m| := by
  have hstep := one_le_abs_cast_sub_of_ne (Nat.cast_injective.ne h : (m' : ℤ) ≠ m)
  rwa [Int.cast_natCast, Int.cast_natCast] at hstep

/-- What is at most a half away is nearer than what is one step off, and if that is as near,
both are a half away. -/
theorem nearest_of_one_le_abs_sub {x x' y : ℚ} (h : |x - y| ≤ 1 / 2) (hstep : 1 ≤ |x' - x|) :
    |x - y| ≤ |x' - y| ∧ (|x - y| = |x' - y| → |x - y| = 1 / 2) := by
  have htriangle : |x' - x| ≤ |x' - y| + |x - y| := by
    rw [abs_sub_comm x]
    exact abs_sub_le _ _ _
  exact ⟨by linarith, fun heq => by linarith⟩

/-! ### Rounded quotients -/

/-- A quotient is its floor and a fraction. -/
theorem div_eq_floor_add (num : ℕ) {den : ℕ} (h : 0 < den) :
    (num : ℚ) / den = (num / den : ℕ) + (num % den : ℕ) / den := by
  have hd : (den : ℚ) ≠ 0 := by exact_mod_cast h.ne'
  rw [div_eq_iff hd, add_mul, div_mul_cancel₀ _ hd]
  exact_mod_cast (Nat.div_add_mod' num den).symm

/-- A rounded quotient is at most a half away, and even if it is a half away. -/
theorem divNearest_spec (num : ℕ) {den : ℕ} (h : 0 < den) :
    |(divNearest num den : ℚ) - num / den| ≤ 1 / 2 ∧
      (|(divNearest num den : ℚ) - num / den| = 1 / 2 → divNearest num den % 2 = 0) := by
  have hd : (0 : ℚ) < den := by exact_mod_cast h
  rw [div_eq_floor_add num h]
  have hfrac : (0 : ℚ) ≤ (num % den : ℕ) / den := by positivity
  have hhalf : ((num % den : ℕ) : ℚ) / den < 1 / 2 ↔ 2 * (num % den) < den := by
    rw [div_lt_div_iff₀ hd two_pos, one_mul, mul_comm]
    exact_mod_cast Iff.rfl
  have hhalf' : ((num % den : ℕ) : ℚ) / den = 1 / 2 ↔ 2 * (num % den) = den := by
    rw [div_eq_div_iff hd.ne' two_ne_zero, one_mul, mul_comm]
    exact_mod_cast Iff.rfl
  have hone : ((num % den : ℕ) : ℚ) / den < 1 := by
    rw [div_lt_one hd]
    exact_mod_cast Nat.mod_lt num h
  set f : ℚ := (num % den : ℕ) / den
  by_cases hbelow : 2 * (num % den) < den
  · have hq : divNearest num den = num / den := by rw [divNearest, if_pos hbelow]
    have hf : f < 1 / 2 := hhalf.mpr hbelow
    have hdist : |((num / den : ℕ) : ℚ) - ((num / den : ℕ) + f)| = f := by
      rw [sub_add_cancel_left, abs_neg, abs_of_nonneg hfrac]
    rw [hq, hdist]
    exact ⟨hf.le, fun heq => absurd heq hf.ne⟩
  · by_cases htie : 2 * (num % den) = den ∧ num / den % 2 = 0
    · have hq : divNearest num den = num / den := by
        rw [divNearest, if_neg hbelow, if_pos htie]
      have hdist : |((num / den : ℕ) : ℚ) - ((num / den : ℕ) + f)| = f := by
        rw [sub_add_cancel_left, abs_neg, abs_of_nonneg hfrac]
      rw [hq, hdist]
      exact ⟨(hhalf'.mpr htie.1).le, fun _ => htie.2⟩
    · have hq : divNearest num den = num / den + 1 := by
        rw [divNearest, if_neg hbelow, if_neg htie]
      have hf : 1 / 2 ≤ f := not_lt.mp (mt hhalf.mp hbelow)
      have hdist : |((num / den + 1 : ℕ) : ℚ) - ((num / den : ℕ) + f)| = 1 - f := by
        rw [Nat.cast_succ, add_sub_add_left_eq_sub, abs_of_pos (by linarith)]
      rw [hq, hdist]
      refine ⟨by linarith, ?_⟩
      intro heq
      have hexact : 2 * (num % den) = den := hhalf'.mp (by linarith)
      have hodd : ¬ num / den % 2 = 0 := fun heven => htie ⟨hexact, heven⟩
      omega

/-- A natural less than a half away from a quotient is the rounded quotient. -/
theorem divNearest_eq_of_lt (num : ℕ) {den : ℕ} (h : 0 < den) {k : ℕ}
    (hk : |(k : ℚ) - num / den| < 1 / 2) : divNearest num den = k := by
  obtain ⟨hle, -⟩ := divNearest_spec num h
  have hdist : |(divNearest num den : ℚ) - k| < 1 := by
    calc |(divNearest num den : ℚ) - k|
        ≤ |(divNearest num den : ℚ) - num / den| + |(k : ℚ) - num / den| := by
          rw [abs_sub_comm (k : ℚ)]
          exact abs_sub_le _ _ _
      _ < 1 := by linarith
  have hint : |(divNearest num den : ℤ) - k| < 1 := by exact_mod_cast hdist
  rw [Int.abs_lt_one_iff] at hint
  omega

/-- A natural at most a half away is nearest, and only an exact half is as near to another. -/
theorem nearest_of_abs_le_half {m : ℕ} {y : ℚ} (h : |(m : ℚ) - y| ≤ 1 / 2) (m' : ℕ) :
    |(m : ℚ) - y| ≤ |(m' : ℚ) - y| ∧
      (|(m : ℚ) - y| = |(m' : ℚ) - y| → m' ≠ m → |(m : ℚ) - y| = 1 / 2) := by
  by_cases hsame : m' = m
  · rw [hsame]
    exact ⟨le_refl _, fun _ hne => absurd rfl hne⟩
  · obtain ⟨hle, htie⟩ := nearest_of_one_le_abs_sub h (one_le_abs_sub_of_ne hsame)
    exact ⟨hle, fun heq _ => htie heq⟩

end Keypad
