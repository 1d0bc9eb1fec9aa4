import Keypad.Decimal.Basic
import Keypad.Token.Basic
import Mathlib.Data.List.TakeWhile

/-!
# Literals

Which runs of digits and points denote a decimal. The reader splits a literal at its first
point; here the same is said without splitting: a literal has a digit, and at most one
point.

## Main results

* `Decimal.ofLiteral?_of_not_mem`, `Decimal.ofLiteral?_append`: the decimal of a literal
  without a point, and of one that is split at its first point.
* `Decimal.isSome_ofLiteral?_iff`: a run denotes a decimal exactly when it is a literal.
* `not_isLiteral_iff`: a run is no literal for want of a digit, or for a second point.
* `IsLiteral.pad`: a literal with more zeros in front and behind is a literal.
-/

namespace Keypad

/-- A run of digits and points with at least one digit and at most one point. -/
structure IsLiteral (cs : List Char) : Prop where
  isNumeric : ∀ c ∈ cs, isNumeric c = true
  digit : ∃ c ∈ cs, c.isDigit = true
  point : cs.count '.' ≤ 1

namespace Decimal

/-- A run that is not split at a point. -/
theorem ofLiteral?_of_not_mem {cs : List Char} (h : '.' ∉ cs) :
    ofLiteral? cs =
      if cs ≠ [] ∧ cs.all Char.isDigit then some ⟨Nat.ofDigitChars 10 cs 0, 0⟩ else none := by
  have hne : ∀ c ∈ cs, (c != '.') = true := by
    intro c hc
    rw [bne_iff_ne]
    rintro rfl
    exact h hc
  have hwhole : cs.takeWhile (· != '.') = cs := List.takeWhile_eq_self_iff.mpr hne
  have hfraction : cs.dropWhile (· != '.') = [] := List.dropWhile_eq_nil_iff.mpr hne
  simp only [ofLiteral?, hwhole, hfraction, List.drop_nil, List.append_nil, List.length_nil]

/-- A run that is split at its first point. -/
theorem ofLiteral?_append {whole : List Char} (h : '.' ∉ whole) (fraction : List Char) :
    ofLiteral? (whole ++ '.' :: fraction) =
      if whole ++ fraction ≠ [] ∧ (whole ++ fraction).all Char.isDigit then
        some ⟨Nat.ofDigitChars 10 (whole ++ fraction) 0, fraction.length⟩
      else none := by
  have hne : ∀ c ∈ whole, (c != '.') = true := by
    intro c hc
    rw [bne_iff_ne]
    rintro rfl
    exact h hc
  have hwhole : (whole ++ '.' :: fraction).takeWhile (· != '.') = whole := by
    rw [List.takeWhile_append_of_pos hne, List.takeWhile_cons_of_neg (by simp),
      List.append_nil]
  have hfraction : (whole ++ '.' :: fraction).dropWhile (· != '.') = '.' :: fraction := by
    rw [List.dropWhile_append_of_pos hne, List.dropWhile_cons_of_neg (by simp)]
  simp only [ofLiteral?, hwhole, hfraction, List.drop_succ_cons, List.drop_zero]

/-- Without a point, a run with at least one digit is a run of digits that is not empty. -/
theorem forall_isDigit_iff {ds : List Char} :
    (∀ c ∈ ds, isNumeric c = true) ∧ (∃ c ∈ ds, c.isDigit = true) ∧ '.' ∉ ds ↔
      ds ≠ [] ∧ ds.all Char.isDigit = true := by
  rw [List.all_eq_true]
  constructor
  · rintro ⟨hnum, ⟨c, hc, -⟩, hpoint⟩
    refine ⟨List.ne_nil_of_mem hc, ?_⟩
    intro d hd
    have hd' := hnum d hd
    rw [isNumeric, Bool.or_eq_true, beq_iff_eq] at hd'
    rcases hd' with hdigit | rfl
    · exact hdigit
    · exact absurd hd hpoint
  · rintro ⟨hne, hall⟩
    obtain ⟨c, hc⟩ := List.exists_mem_of_ne_nil _ hne
    refine ⟨?_, ⟨c, hc, hall c hc⟩, ?_⟩
    · intro d hd
      rw [isNumeric, hall d hd, Bool.true_or]
    · intro hpoint
      exact absurd (hall '.' hpoint) (by decide)

/-- A literal that is split at a point has no other point. -/
theorem isLiteral_append_iff (whole fraction : List Char) :
    IsLiteral (whole ++ '.' :: fraction) ↔
      whole ++ fraction ≠ [] ∧ (whole ++ fraction).all Char.isDigit = true := by
  rw [← forall_isDigit_iff]
  have hperm : (whole ++ '.' :: fraction).Perm ('.' :: (whole ++ fraction)) :=
    List.perm_middle
  have hnum : isNumeric '.' = true := by decide
  have hdigit : Char.isDigit '.' = false := by decide
  constructor
  · rintro ⟨hall, ⟨c, hc, hc'⟩, hcount⟩
    rw [hperm.count_eq, List.count_cons_self] at hcount
    refine ⟨fun d hd => hall d (hperm.mem_iff.mpr (List.mem_cons_of_mem _ hd)), ?_, ?_⟩
    · rcases List.mem_cons.mp (hperm.mem_iff.mp hc) with rfl | hc
      · exact absurd hc' (by rw [hdigit]; decide)
      · exact ⟨c, hc, hc'⟩
    · rw [← List.count_eq_zero]
      omega
  · rintro ⟨hall, ⟨c, hc, hc'⟩, hpoint⟩
    refine ⟨?_, ⟨c, hperm.mem_iff.mpr (List.mem_cons_of_mem _ hc), hc'⟩, ?_⟩
    · intro d hd
      rcases List.mem_cons.mp (hperm.mem_iff.mp hd) with rfl | hd
      · exact hnum
      · exact hall d hd
    · rw [hperm.count_eq, List.count_cons_self, List.count_eq_zero.mpr hpoint]

/-- **A run denotes a decimal exactly when it is a literal**: digits and points, with at
least one digit and at most one point. -/
theorem isSome_ofLiteral?_iff {cs : List Char} :
    (ofLiteral? cs).isSome = true ↔ IsLiteral cs := by
  by_cases hpoint : '.' ∈ cs
  · obtain ⟨whole, fraction, rfl, hwhole⟩ := List.eq_append_cons_of_mem hpoint
    rw [ofLiteral?_append hwhole, isLiteral_append_iff, Option.isSome_ite]
  · rw [ofLiteral?_of_not_mem hpoint, Option.isSome_ite, ← forall_isDigit_iff]
    constructor
    · rintro ⟨hnum, hdigit, -⟩
      exact ⟨hnum, hdigit, by rw [List.count_eq_zero.mpr hpoint]; exact Nat.zero_le 1⟩
    · rintro ⟨hnum, hdigit, -⟩
      exact ⟨hnum, hdigit, hpoint⟩

end Decimal

/-- Whether a run is a literal can be found out by reading it. -/
instance : DecidablePred IsLiteral :=
  fun _ => decidable_of_iff _ Decimal.isSome_ofLiteral?_iff

/-- **Digits and points are no literal** when no digit is among them, or several points. -/
theorem not_isLiteral_iff {cs : List Char} (hcs : ∀ c ∈ cs, isNumeric c = true) :
    ¬ IsLiteral cs ↔ (∀ c ∈ cs, c.isDigit = false) ∨ 1 < cs.count '.' := by
  constructor
  · intro h
    by_cases hpoint : cs.count '.' ≤ 1
    · refine .inl fun c hc => Bool.eq_false_iff.mpr fun hdigit => ?_
      exact h ⟨hcs, ⟨c, hc, hdigit⟩, hpoint⟩
    · exact .inr (Nat.lt_of_not_le hpoint)
  · rintro hcause ⟨-, ⟨c, hc, hdigit⟩, hpoint⟩
    rcases hcause with hnone | hseveral
    · exact absurd hdigit (by rw [hnone c hc]; decide)
    · exact absurd hpoint (Nat.not_le.mpr hseveral)

/-- A literal with more zeros in front and behind is a literal. -/
theorem IsLiteral.pad {cs : List Char} (h : IsLiteral cs) (front back : ℕ) :
    IsLiteral (List.replicate front '0' ++ cs ++ List.replicate back '0') where
  isNumeric := by
    intro c hc
    simp only [List.mem_append, List.mem_replicate] at hc
    rcases hc with (⟨-, rfl⟩ | hc) | ⟨-, rfl⟩
    · rfl
    · exact h.isNumeric c hc
    · rfl
  digit := by
    obtain ⟨c, hc, hdigit⟩ := h.digit
    exact ⟨c, List.mem_append_left _ (List.mem_append_right _ hc), hdigit⟩
  point := by
    have hzeros (k : ℕ) : (List.replicate k '0').count '.' = 0 :=
      List.count_eq_zero.mpr fun hmem => absurd (List.eq_of_mem_replicate hmem) (by decide)
    rw [List.count_append, List.count_append, hzeros, hzeros, Nat.zero_add, Nat.add_zero]
    exact h.point

end Keypad
