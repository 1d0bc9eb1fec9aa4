import Keypad.Proofs.Binary64.Bits
import Keypad.Proofs.Rounding
import Mathlib.Data.Nat.Cast.Order.Field
import Mathlib.Data.Rat.Floor
import Mathlib.Order.Monotone.Basic
import Mathlib.Tactic.Linarith
import Mathlib.Tactic.Ring

/-!
# The nearest code

Rounding to the format picks a spacing, divides and adds up a code. Here the code that comes
out is characterised by what it encodes: no other code encodes a magnitude nearer to the
quotient, and if another is as near, the code is even. Magnitudes are counted in units and
compared with a rational number of units, so one statement covers the small values, every
binade, the step from one binade to the next and the step to infinity.

The code of infinity takes part in the comparison, with the magnitude that it would encode
if the exponents went on. So a quotient rounds to infinity from the midpoint between the
largest finite magnitude and that one.

## Main results

* `strictMono_unitsOfCode`: codes are ordered as the magnitudes they encode.
* `IsNearestCode.unique`: there is at most one nearest code.
* `isNearestCode_of_grid`: rounding on one grid finds the nearest of all codes.
* `isNearestCode_nearestCode`: **rounding finds the nearest code.**
-/

namespace Keypad

namespace Binary64

/-! ### Magnitudes of codes -/

/-- The magnitude of a code, by its exponent and its fraction. -/
theorem unitsOfCode_eq (c : ℕ) :
    unitsOfCode c = if c / 2 ^ 52 = 0 then c % 2 ^ 52
      else (2 ^ 52 + c % 2 ^ 52) * 2 ^ (c / 2 ^ 52 - 1) := rfl

/-- A code below the normal ones is its own magnitude. -/
theorem unitsOfCode_of_lt {c : ℕ} (h : c < 2 ^ 52) : unitsOfCode c = c := by
  rw [unitsOfCode_eq, Nat.div_eq_of_lt h, Nat.mod_eq_of_lt h, if_pos rfl]

/-- The code zero is that of a zero. -/
theorem unitsOfCode_zero : unitsOfCode 0 = 0 :=
  unitsOfCode_of_lt (Nat.two_pow_pos 52)

/-- A normal code is a significand and an exponent. -/
theorem unitsOfCode_normal (e : ℕ) {f : ℕ} (h : f < 2 ^ 52) :
    unitsOfCode ((e + 1) * 2 ^ 52 + f) = (2 ^ 52 + f) * 2 ^ e := by
  have hdiv : ((e + 1) * 2 ^ 52 + f) / 2 ^ 52 = e + 1 := by omega
  have hmod : ((e + 1) * 2 ^ 52 + f) % 2 ^ 52 = f := by omega
  rw [unitsOfCode_eq, hdiv, hmod, if_neg (Nat.succ_ne_zero e), Nat.add_sub_cancel]

/-- Every code is a small one or a normal one. -/
theorem code_cases (c : ℕ) :
    c < 2 ^ 52 ∨ ∃ e f, f < 2 ^ 52 ∧ c = (e + 1) * 2 ^ 52 + f := by
  by_cases h : c < 2 ^ 52
  · exact .inl h
  · refine .inr ⟨c / 2 ^ 52 - 1, c % 2 ^ 52, Nat.mod_lt _ (Nat.two_pow_pos 52), ?_⟩
    omega

/-- **The grid of a binade.** Around a spacing of `2 ^ s` units, a code that is `m` steps
above `s` full exponents has the magnitude `m * 2 ^ s`. -/
theorem unitsOfCode_grid {s m : ℕ} (hm : m ≤ 2 ^ 53) (hs : s = 0 ∨ 2 ^ 52 ≤ m) :
    unitsOfCode (s * 2 ^ 52 + m) = m * 2 ^ s := by
  by_cases hsmall : m < 2 ^ 52
  · obtain rfl : s = 0 := hs.resolve_right (Nat.not_le.mpr hsmall)
    rw [Nat.zero_mul, Nat.zero_add, unitsOfCode_of_lt hsmall, Nat.pow_zero, Nat.mul_one]
  · by_cases hfull : m < 2 ^ 53
    · have hcode : s * 2 ^ 52 + m = (s + 1) * 2 ^ 52 + (m - 2 ^ 52) := by omega
      have hm' : 2 ^ 52 + (m - 2 ^ 52) = m := by omega
      rw [hcode, unitsOfCode_normal s (by omega), hm']
    · -- the significand is full: the next exponent takes over
      obtain rfl : m = 2 ^ 53 := by omega
      have hcode : s * 2 ^ 52 + 2 ^ 53 = (s + 1 + 1) * 2 ^ 52 + 0 := by omega
      rw [hcode, unitsOfCode_normal (s + 1) (Nat.two_pow_pos 52)]
      ring

/-- The next code has a larger magnitude. -/
theorem unitsOfCode_lt_succ (c : ℕ) : unitsOfCode c < unitsOfCode (c + 1) := by
  rcases code_cases c with h | ⟨e, f, hf, rfl⟩
  · have hgrid := unitsOfCode_grid (s := 0) (m := c + 1) (by omega) (.inl rfl)
    rw [Nat.zero_mul, Nat.zero_add, Nat.pow_zero, Nat.mul_one] at hgrid
    rw [hgrid, unitsOfCode_of_lt h]
    exact Nat.lt_succ_self c
  · have hcode : (e + 1) * 2 ^ 52 + f = e * 2 ^ 52 + (2 ^ 52 + f) := by omega
    have h1 := unitsOfCode_grid (s := e) (m := 2 ^ 52 + f) (by omega) (.inr (by omega))
    have h2 := unitsOfCode_grid (s := e) (m := 2 ^ 52 + f + 1) (by omega) (.inr (by omega))
    rw [hcode, Nat.add_assoc, h1, h2]
    exact Nat.mul_lt_mul_of_pos_right (Nat.lt_succ_self _) (Nat.two_pow_pos e)

/-- **Codes are ordered as the magnitudes they encode.** -/
theorem strictMono_unitsOfCode : StrictMono unitsOfCode :=
  strictMono_nat_of_lt_succ unitsOfCode_lt_succ

/-- A magnitude lies below a binade or on its grid. -/
theorem unitsOfCode_lt_or_dvd (c s : ℕ) :
    unitsOfCode c < 2 ^ (52 + s) ∨ 2 ^ s ∣ unitsOfCode c := by
  rcases code_cases c with h | ⟨e, f, hf, rfl⟩
  · left
    rw [unitsOfCode_of_lt h]
    exact Nat.lt_of_lt_of_le h (Nat.pow_le_pow_right two_pos (Nat.le_add_right 52 s))
  · rw [unitsOfCode_normal e hf]
    by_cases hes : s ≤ e
    · exact .inr (Dvd.dvd.mul_left (Nat.pow_dvd_pow 2 hes) _)
    · left
      calc (2 ^ 52 + f) * 2 ^ e < 2 ^ 53 * 2 ^ e :=
            Nat.mul_lt_mul_of_pos_right (by omega) (Nat.two_pow_pos e)
        _ = 2 ^ (53 + e) := (pow_add 2 53 e).symm
        _ ≤ 2 ^ (52 + s) := Nat.pow_le_pow_right two_pos (by omega)

/-! ### The nearest code -/

/-- The code encodes a magnitude nearest to `x` units, and is even if another is as near.
The codes up to `last` are compared. -/
def IsNearestCode (last c : ℕ) (x : ℚ) : Prop :=
  c ≤ last ∧ ∀ c' ≤ last, |(unitsOfCode c : ℚ) - x| ≤ |(unitsOfCode c' : ℚ) - x| ∧
    (|(unitsOfCode c : ℚ) - x| = |(unitsOfCode c' : ℚ) - x| → c' ≠ c → c % 2 = 0)

namespace IsNearestCode

variable {last c c' : ℕ} {x : ℚ}

/-- **The nearest code is unique.** Of two codes equally near, one is odd, or there is a
nearer one between them. -/
theorem unique (h : IsNearestCode last c x) (h' : IsNearestCode last c' x) : c = c' := by
  wlog hlt : c < c' generalizing c c' with H
  · rcases Nat.lt_or_ge c' c with hgt | hge
    · exact (H h' h hgt).symm
    · omega
  obtain ⟨hc, hmin⟩ := h
  obtain ⟨hc', hmin'⟩ := h'
  have heq : |(unitsOfCode c : ℚ) - x| = |(unitsOfCode c' : ℚ) - x| :=
    le_antisymm (hmin c' hc').1 (hmin' c hc).1
  have heven : c % 2 = 0 := (hmin c' hc').2 heq hlt.ne'
  have heven' : c' % 2 = 0 := (hmin' c hc).2 heq.symm hlt.ne
  -- both are even, so the code after the lower one lies strictly between
  have hlt' : c + 1 < c' := by omega
  have h1 : (unitsOfCode c : ℚ) < unitsOfCode (c + 1) := by
    exact_mod_cast strictMono_unitsOfCode (Nat.lt_succ_self c)
  have h2 : (unitsOfCode (c + 1) : ℚ) < unitsOfCode c' := by
    exact_mod_cast strictMono_unitsOfCode hlt'
  have hbetween := (hmin (c + 1) (by omega)).1
  exfalso
  rcases abs_cases ((unitsOfCode c : ℚ) - x) with ⟨ha, _⟩ | ⟨ha, _⟩ <;>
    rcases abs_cases ((unitsOfCode c' : ℚ) - x) with ⟨hb, _⟩ | ⟨hb, _⟩ <;>
    rcases abs_cases ((unitsOfCode (c + 1) : ℚ) - x) with ⟨hd, _⟩ | ⟨hd, _⟩ <;>
    linarith

/-- With fewer codes to choose from, the nearest is the same one or the last. -/
theorem min_of_le {last' : ℕ} (h : IsNearestCode last c x) (hle : last' ≤ last) :
    IsNearestCode last' (min last' c) x := by
  obtain ⟨hc, hmin⟩ := h
  rcases Nat.le_total c last' with hc' | hc'
  · rw [Nat.min_eq_right hc']
    exact ⟨hc', fun d hd => hmin d (Nat.le_trans hd hle)⟩
  · rw [Nat.min_eq_left hc']
    refine ⟨Nat.le_refl _, ?_⟩
    intro d hd
    have hdl : (unitsOfCode d : ℚ) ≤ unitsOfCode last' := by
      exact_mod_cast strictMono_unitsOfCode.monotone hd
    have hlc : (unitsOfCode last' : ℚ) ≤ unitsOfCode c := by
      exact_mod_cast strictMono_unitsOfCode.monotone hc'
    by_cases hx : (unitsOfCode last' : ℚ) ≤ x
    · -- nothing that is left reaches up to `x`
      have hdist (u : ℚ) (hu : u ≤ unitsOfCode last') : |u - x| = x - u := by
        rw [abs_sub_comm, abs_of_nonneg (by linarith)]
      rw [hdist _ le_rfl, hdist _ hdl]
      refine ⟨by linarith, ?_⟩
      intro heq hne
      have hlt : (unitsOfCode d : ℚ) < unitsOfCode last' := by
        exact_mod_cast strictMono_unitsOfCode (Nat.lt_of_le_of_ne hd hne)
      linarith
    · -- the last code is nearer than those above it, so it was the nearest before
      have hback := (hmin last' hle).1
      rw [abs_of_nonneg (by linarith), abs_of_nonneg (by linarith)] at hback
      have heq : (unitsOfCode last' : ℚ) = unitsOfCode c := by linarith
      obtain rfl : last' = c := strictMono_unitsOfCode.injective (by exact_mod_cast heq)
      exact hmin d (Nat.le_trans hd hle)

/-- A code that encodes exactly `x` units is the nearest. -/
theorem self (hc : c ≤ last) : IsNearestCode last c (unitsOfCode c) := by
  refine ⟨hc, ?_⟩
  intro c' _
  rw [sub_self, abs_zero]
  refine ⟨abs_nonneg _, ?_⟩
  intro heq hne
  have hsame : (unitsOfCode c' : ℚ) = unitsOfCode c := sub_eq_zero.mp (abs_eq_zero.mp heq.symm)
  exact absurd (strictMono_unitsOfCode.injective (by exact_mod_cast hsame)) hne

/-- The code zero is nearest to zero. -/
theorem eq_zero (h : IsNearestCode last c 0) : c = 0 := by
  have hzero := self (Nat.zero_le last)
  rw [unitsOfCode_zero, Nat.cast_zero] at hzero
  exact h.unique hzero

end IsNearestCode

/-! ### How far codes are apart -/

/-- Every multiple of a spacing is a magnitude if its significand fits. -/
theorem exists_unitsOfCode_eq (s : ℕ) {m : ℕ} (hm : m ≤ 2 ^ 53) :
    ∃ c, unitsOfCode c = m * 2 ^ s := by
  induction s generalizing m with
  | zero => exact ⟨_, unitsOfCode_grid hm (.inl rfl)⟩
  | succ s ih =>
      by_cases hfull : 2 ^ 52 ≤ m
      · exact ⟨_, unitsOfCode_grid hm (.inr hfull)⟩
      · -- the significand has room for another bit
        obtain ⟨c, hc⟩ := ih (m := 2 * m) (by omega)
        refine ⟨c, ?_⟩
        rw [hc, Nat.pow_succ]
        ring

/-- **The nearest code is near.** Up to `2 ^ (53 + s)` units it is at most half of `2 ^ s`
units away. -/
theorem IsNearestCode.abs_sub_le {last c s : ℕ} {x : ℚ} (h : IsNearestCode last c x)
    (hx : 0 ≤ x) (hxs : x ≤ 2 ^ (53 + s)) (hlast : 2 ^ (53 + s) ≤ unitsOfCode last) :
    |(unitsOfCode c : ℚ) - x| ≤ 2 ^ s / 2 := by
  have hpos : (0 : ℚ) < 2 ^ s := by positivity
  have hquot : x / 2 ^ s ≤ 2 ^ 53 := by rwa [div_le_iff₀ hpos, ← pow_add]
  have hquot0 : 0 ≤ x / 2 ^ s := div_nonneg hx hpos.le
  -- a multiple of the spacing that is at most half a spacing away
  have hfloor := Nat.floor_le (a := x / 2 ^ s + 1 / 2) (by linarith)
  have hfloor' := Nat.lt_floor_add_one (x / 2 ^ s + 1 / 2)
  set m := ⌊x / 2 ^ s + 1 / 2⌋₊
  have hm : m ≤ 2 ^ 53 := by
    have hlt : (m : ℚ) < 2 ^ 53 + 1 := by linarith
    exact Nat.lt_succ_iff.mp (by exact_mod_cast hlt)
  obtain ⟨c', hc'⟩ := exists_unitsOfCode_eq s hm
  have hle : c' ≤ last := by
    rw [← strictMono_unitsOfCode.le_iff_le, hc']
    refine Nat.le_trans ?_ hlast
    rw [pow_add]
    exact Nat.mul_le_mul_right _ hm
  refine (h.2 c' hle).1.trans ?_
  have hdist : |(m : ℚ) - x / 2 ^ s| ≤ 1 / 2 := abs_le.mpr ⟨by linarith, by linarith⟩
  calc |(unitsOfCode c' : ℚ) - x| = |(m : ℚ) - x / 2 ^ s| * 2 ^ s := by
        rw [hc', Nat.cast_mul, Nat.cast_pow, Nat.cast_ofNat, abs_mul_sub hpos]
    _ ≤ 1 / 2 * 2 ^ s := mul_le_mul_of_nonneg_right hdist hpos.le
    _ = 2 ^ s / 2 := by ring

/-- Above `2 ^ (52 + s)` units, other magnitudes are `2 ^ s` units away. -/
theorem two_pow_le_abs_sub {s c c' : ℕ} (hc : 2 ^ (52 + s) < unitsOfCode c) (hne : c' ≠ c) :
    (2 : ℚ) ^ s ≤ |(unitsOfCode c' : ℚ) - unitsOfCode c| := by
  have hpos : (0 : ℚ) < 2 ^ s := by positivity
  obtain ⟨m, hm⟩ := (unitsOfCode_lt_or_dvd c s).resolve_left (Nat.lt_asymm hc)
  rcases unitsOfCode_lt_or_dvd c' s with hbelow | ⟨m', hm'⟩
  · -- the grid has a point between the two
    have hm52 : 2 ^ 52 < m := by
      rw [hm, Nat.add_comm, pow_add] at hc
      exact Nat.lt_of_mul_lt_mul_left hc
    have hstep : 2 ^ (52 + s) + 2 ^ s ≤ unitsOfCode c := by
      rw [hm, Nat.add_comm 52, pow_add, ← Nat.mul_succ]
      exact Nat.mul_le_mul_left _ hm52
    have hbelow' : (unitsOfCode c' : ℚ) < 2 ^ (52 + s) := by exact_mod_cast hbelow
    have hstep' : (2 : ℚ) ^ (52 + s) + 2 ^ s ≤ unitsOfCode c := by exact_mod_cast hstep
    rw [abs_of_neg (by linarith)]
    linarith
  · have hne' : m' ≠ m := by
      rintro rfl
      exact hne (strictMono_unitsOfCode.injective (hm'.trans hm.symm))
    have hone := one_le_abs_sub_of_ne hne'
    rw [hm, hm', Nat.cast_mul, Nat.cast_mul, ← mul_sub, abs_mul, Nat.cast_pow, Nat.cast_ofNat,
      abs_of_pos hpos]
    exact le_mul_of_one_le_right hpos.le hone

/-- **A code is nearest to all that is less than half a spacing away.** -/
theorem isNearestCode_of_abs_lt {last s c : ℕ} {x : ℚ} (hlast : c ≤ last)
    (hc : 2 ^ (52 + s) < unitsOfCode c) (hx : |(unitsOfCode c : ℚ) - x| < 2 ^ s / 2) :
    IsNearestCode last c x := by
  refine ⟨hlast, ?_⟩
  intro c' _
  by_cases hsame : c' = c
  · rw [hsame]
    exact ⟨le_refl _, fun _ hne => absurd rfl hne⟩
  · have hgap := two_pow_le_abs_sub hc hsame
    have htriangle := abs_sub_le (unitsOfCode c' : ℚ) x (unitsOfCode c)
    rw [abs_sub_comm x] at htriangle
    exact ⟨by linarith, fun heq => by linarith⟩

/-! ### Rounding -/

/-- The code that rounding comes to before the codes end at infinity. -/
def unboundedCode (num den : ℕ) : ℕ :=
  let scaled := num * unitsInOne
  let spacing := (scaled / den).log2 - 52
  spacing * 2 ^ 52 + divNearest scaled (den * 2 ^ spacing)

/-- Rounding stops at infinity. -/
theorem nearestCode_eq_min (num den : ℕ) :
    nearestCode num den = min infinityCode (unboundedCode num den) := rfl

/-- **Rounding on one grid.** Let the grid of spacing `2 ^ s` reach around `x`; then the
code of the nearest multiple of the spacing is nearest among all codes. -/
theorem isNearestCode_of_grid {s m last : ℕ} {x : ℚ} (hm : m ≤ 2 ^ 53)
    (hs : s = 0 ∨ 2 ^ 52 ≤ m) (hlow : s = 0 ∨ 2 ^ (52 + s) ≤ x)
    (hnear : |(m : ℚ) - x / 2 ^ s| ≤ 1 / 2)
    (heven : |(m : ℚ) - x / 2 ^ s| = 1 / 2 → m % 2 = 0)
    (hlast : s * 2 ^ 52 + m ≤ last) : IsNearestCode last (s * 2 ^ 52 + m) x := by
  have hpos : (0 : ℚ) < 2 ^ s := by positivity
  have hscale (n : ℚ) : |n * 2 ^ s - x| = |n - x / 2 ^ s| * 2 ^ s := abs_mul_sub hpos n x
  refine ⟨hlast, ?_⟩
  intro c' _
  rw [unitsOfCode_grid hm hs, Nat.cast_mul, Nat.cast_pow, Nat.cast_ofNat, hscale]
  by_cases hdvd : 2 ^ s ∣ unitsOfCode c'
  · -- both magnitudes are on the grid, where different ones are a step apart
    obtain ⟨m', hm'⟩ := hdvd
    obtain ⟨hle, htie⟩ := nearest_of_abs_le_half hnear m'
    rw [hm', Nat.mul_comm, Nat.cast_mul, Nat.cast_pow, Nat.cast_ofNat, hscale]
    refine ⟨mul_le_mul_of_nonneg_right hle hpos.le, ?_⟩
    intro heq hne
    have hne' : m' ≠ m := by
      rintro rfl
      refine hne (strictMono_unitsOfCode.injective ?_)
      rw [hm', unitsOfCode_grid hm hs, Nat.mul_comm]
    have hm2 := heven (htie (mul_right_cancel₀ hpos.ne' heq) hne')
    omega
  · -- a magnitude off the grid lies below it, and the lowest point of the grid is nearer
    have hs0 : s ≠ 0 := by
      rintro rfl
      exact hdvd (one_dvd _)
    have hbelow : (unitsOfCode c' : ℚ) < 2 ^ (52 + s) := by
      exact_mod_cast (unitsOfCode_lt_or_dvd c' s).resolve_right hdvd
    have hx : 2 ^ (52 + s) ≤ x := hlow.resolve_left hs0
    have hlowest : |(m : ℚ) - x / 2 ^ s| * 2 ^ s ≤ x - 2 ^ (52 + s) := by
      have hle := mul_le_mul_of_nonneg_right (nearest_of_abs_le_half hnear (2 ^ 52)).1 hpos.le
      have habs : |(2 : ℚ) ^ (52 + s) - x| = x - 2 ^ (52 + s) := by
        rw [abs_sub_comm, abs_of_nonneg (by linarith)]
      rw [← hscale (2 ^ 52 : ℕ), Nat.cast_pow, Nat.cast_ofNat, ← pow_add, habs] at hle
      exact hle
    have hfar : |(unitsOfCode c' : ℚ) - x| = x - unitsOfCode c' := by
      rw [abs_sub_comm, abs_of_pos (by linarith)]
    rw [hfar]
    exact ⟨by linarith, fun heq => by linarith⟩

/-- **The significand fits.** The spacing that rounding takes leaves the quotient at most
`2 ^ 53` steps from zero, and at least `2 ^ 52` unless a step is a unit. -/
theorem divNearest_spacing (scaled den : ℕ) :
    let s := (scaled / den).log2 - 52
    divNearest scaled (den * 2 ^ s) ≤ 2 ^ 53 ∧
      (s = 0 ∨ 2 ^ 52 ≤ divNearest scaled (den * 2 ^ s) ∧ 2 ^ (52 + s) ≤ scaled / den) := by
  intro s
  have hlog : scaled / den < 2 ^ (53 + s) :=
    Nat.lt_of_lt_of_le Nat.lt_log2_self (Nat.pow_le_pow_right two_pos (by omega))
  have hquot : scaled / (den * 2 ^ s) < 2 ^ 53 := by
    rw [← Nat.div_div_eq_div_mul, Nat.div_lt_iff_lt_mul (Nat.two_pow_pos s), ← pow_add]
    exact hlog
  have hfloor : scaled / (den * 2 ^ s) ≤ divNearest scaled (den * 2 ^ s) ∧
      divNearest scaled (den * 2 ^ s) ≤ scaled / (den * 2 ^ s) + 1 := by
    rw [divNearest]
    split <;> [skip; split] <;> omega
  refine ⟨by omega, ?_⟩
  by_cases hs : s = 0
  · exact .inl hs
  · have hne : scaled / den ≠ 0 := by
      intro h0
      simp [s, h0] at hs
    have hlow : 2 ^ (52 + s) ≤ scaled / den :=
      Nat.le_trans (Nat.pow_le_pow_right two_pos (by omega)) (Nat.log2_self_le hne)
    refine .inr ⟨?_, hlow⟩
    refine Nat.le_trans ?_ hfloor.1
    rw [← Nat.div_div_eq_div_mul, Nat.le_div_iff_mul_le (Nat.two_pow_pos s), ← pow_add]
    exact hlow

/-- **Rounding finds the nearest code.** -/
theorem isNearestCode_nearestCode (num : ℕ) {den : ℕ} (hden : 0 < den) :
    IsNearestCode infinityCode (nearestCode num den) (num * unitsInOne / den) := by
  obtain ⟨hm, hs⟩ := divNearest_spacing (num * unitsInOne) den
  rw [nearestCode_eq_min]
  set last := max infinityCode (unboundedCode num den)
  have hinf : infinityCode ≤ last := Nat.le_max_left ..
  have hlast : unboundedCode num den ≤ last := Nat.le_max_right ..
  refine IsNearestCode.min_of_le ?_ hinf
  clear_value last
  rw [unboundedCode] at hlast ⊢
  set s := (num * unitsInOne / den).log2 - 52
  have hden' : 0 < den * 2 ^ s := Nat.mul_pos hden (Nat.two_pow_pos s)
  obtain ⟨hnear, heven⟩ := divNearest_spec (num * unitsInOne) hden'
  have hquot : ((num * unitsInOne : ℕ) : ℚ) / (den * 2 ^ s : ℕ)
      = num * unitsInOne / den / 2 ^ s := by
    rw [Nat.cast_mul, Nat.cast_mul, Nat.cast_pow, Nat.cast_ofNat, div_div]
  rw [hquot] at hnear heven
  have hlow : s = 0 ∨ (2 : ℚ) ^ (52 + s) ≤ num * unitsInOne / den := by
    refine hs.imp_right ?_
    intro hs
    calc (2 : ℚ) ^ (52 + s) ≤ (num * unitsInOne / den : ℕ) := by exact_mod_cast hs.2
      _ ≤ (num * unitsInOne : ℕ) / den := Nat.cast_div_le
      _ = num * unitsInOne / den := by rw [Nat.cast_mul]
  exact isNearestCode_of_grid hm (hs.imp_right And.left) hlow hnear heven hlast

end Binary64

end Keypad
