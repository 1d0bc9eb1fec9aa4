import Keypad.Binary64.Shortest
import Keypad.Proofs.Binary64.Value

/-!
# The shortest decimal reads back

The decimal that a value is written as was found by trying: each candidate is read, and the
first that comes to the code of the value is taken. Behind all candidates stands the decimal
that is exactly the value, so **some candidate always reads back**, down to the least
positive value. Leaving out zeros at the end does not change what is read.

The sign is written apart, and read apart: a value is the value of its code with its sign,
and that holds of negative zero as well.

## Main results

* `codeOfDecimal_shortest`: the shortest decimal of a code is read as the code.
* `toList_text`: a finite value is written as its sign and the shortest decimal of its code.
* `ofLiteral?_shortest`: **reading that decimal gives the value back**, but for the sign.
-/

namespace Keypad

namespace Binary64

/-! ### Decimals of one number -/

/-- Decimals that are the same number are read alike. -/
theorem codeOfDecimal_congr {d d' : Decimal} (h : d.toRat = d'.toRat) :
    codeOfDecimal d = codeOfDecimal d' := by
  have hd := isNearestCode_codeOfDecimal d
  rw [h] at hd
  exact hd.unique (isNearestCode_codeOfDecimal d')

/-- The exact decimal is a number of units. -/
theorem toRat_exactDecimal (n : ℕ) : (exactDecimal n).toRat * unitsInOne = n := by
  have hpow (k : ℕ) : ((n * Nat.pow 5 k : ℕ) : ℚ) / 10 ^ k * 2 ^ k = n := by
    have hten : (10 : ℚ) ^ k = 5 ^ k * 2 ^ k := by
      rw [← mul_pow]
      norm_num
    rw [Nat.pow_eq, hten]
    push_cast
    field_simp
  rw [cast_unitsInOne]
  unfold exactDecimal Decimal.toRat
  -- no step needs the powers themselves
  generalize 1074 = k
  exact hpow k

/-- The exact decimal of a code is read as the code. -/
theorem codeOfDecimal_exactDecimal {c : ℕ} (h : c ≤ infinityCode) :
    codeOfDecimal (exactDecimal (unitsOfCode c)) = c := by
  have hnear := isNearestCode_codeOfDecimal (exactDecimal (unitsOfCode c))
  rw [toRat_exactDecimal] at hnear
  exact hnear.unique (.self h)

/-- **The shortest decimal of a code is read as the code.** -/
theorem codeOfDecimal_shortest {c : ℕ} (h : c ≤ infinityCode) :
    codeOfDecimal (shortest c) = c := by
  have hshortest : shortest c = (((candidates (unitsOfCode c)).find? fun d =>
      codeOfDecimal d == c).getD (exactDecimal (unitsOfCode c))).reduce := rfl
  rw [hshortest, codeOfDecimal_congr (Decimal.toRat_reduce _)]
  cases hfind : (candidates (unitsOfCode c)).find? fun d => codeOfDecimal d == c with
  | none =>
      rw [Option.getD_none]
      exact codeOfDecimal_exactDecimal h
  | some d =>
      have hd := List.find?_some hfind
      rw [beq_iff_eq] at hd
      rw [Option.getD_some]
      exact hd

/-! ### Values as they are written -/

/-- A finite value is written as its sign and the shortest decimal of its code. -/
theorem toList_text {x : Float} (h : x.isFinite = true) :
    (text x).toList = (if isNegative x then ['-'] else []) ++ (shortest (code x)).toList := by
  have hcode := (isFinite_iff x).mp h
  have hnan : ¬ x.isNaN = true := by
    rw [isNaN_iff]
    omega
  have hinf : ¬ x.isInf = true := by
    rw [isInf_iff]
    omega
  rw [text, if_neg hnan, if_neg hinf, String.toList_ofList]

/-- **Reading the shortest decimal gives back the value of the code.** -/
theorem ofLiteral?_shortest {x : Float} (h : x.isFinite = true) :
    ofLiteral? (String.ofList (shortest (code x)).toList) = some (ofCode (code x)) := by
  have hcode := (isFinite_iff x).mp h
  rw [ofLiteral?, String.toList_ofList, Decimal.ofLiteral?_toList, Option.map_some, ofDecimal,
    codeOfDecimal_shortest hcode.le]

/-- A value is the value of its code, with its sign. -/
theorem signed_ofCode {x : Float} (h : x.isFinite = true) :
    (if isNegative x then -ofCode (code x) else ofCode (code x)) = x := by
  have hcode := ((isFinite_iff x).mp h).le
  obtain ⟨hneg, hc⟩ := code_ofCode hcode
  cases hx : isNegative x with
  | false => exact ext (hneg.trans hx.symm) hc
  | true =>
      obtain ⟨hsign, hc'⟩ := neg_eq (hc.trans_le hcode)
      refine ext ?_ (hc'.trans hc)
      rw [if_pos rfl, hsign, hneg, hx]
      rfl

end Binary64

end Keypad
