import Keypad.Binary64.Basic
import Mathlib

/-!
# Sign and code of a value

The library reads a binary64 value through its sign bit and its code. This module derives
both from the bit patterns behind `Float`, and says what the operations that only touch
these parts do to them: the tests for infinities and for values that are not numbers,
negation, and the value of a code.

Values are packed and unpacked bit by bit in the core model. Every pattern up to the
infinities is packed back as it was; above them every pattern stands for the one value that
is not a number. Negation unpacks to the same pattern with the other sign.

## Main results

* `Binary64.ext`: a value is its sign and its code.
* `Binary64.isNaN_iff`, `Binary64.isFinite_iff`, `Binary64.isInf_iff`: the three kinds of
  value by their codes.
* `Binary64.beq_zero_iff`: the values that equal zero by their code.
* `Binary64.code_ofCode`: the value of a code has that code, and no sign.
* `Binary64.neg_eq`: negation flips the sign and keeps the code.
-/

namespace Keypad

namespace Binary64

open Float.Model (Format UnpackedFloat)
open Float.Model.UnpackedFloat
  (Sign unpack pack packComponents unpackExponent unpackMantissa unpackSign isNaNBits)

/-! ### The fields of a pattern -/

/-- The bit pattern of a value. -/
abbrev Word := BitVec Format.binary64.numBits

/-- The exponent field of a pattern. -/
theorem toNat_unpackExponent (b : Word) :
    (unpackExponent b).toNat = b.toNat / 2 ^ 52 % 2 ^ 11 := by
  simp [unpackExponent, BitVec.extractLsb_toNat, Nat.shiftRight_eq_div_pow]

/-- The fraction field of a pattern. -/
theorem toNat_unpackMantissa (b : Word) :
    (unpackMantissa b).toNat = b.toNat % 2 ^ 52 := by
  simp [unpackMantissa, BitVec.extractLsb_toNat]

/-- The sign field of a pattern. -/
theorem toNat_unpackSign (b : Word) :
    (unpackSign b).toNat = b.toNat / 2 ^ 63 := by
  have h : b.toNat < 2 ^ 64 := b.isLt
  simp [unpackSign, BitVec.extractLsb_toNat, Nat.shiftRight_eq_div_pow]
  omega

/-- The exponent field is full for the infinities and above. -/
theorem unpackExponent_eq_allOnes_iff (b : Word) :
    unpackExponent b = -1#_ ↔ b.toNat / 2 ^ 52 % 2 ^ 11 = 2047 := by
  rw [← toNat_unpackExponent]
  constructor
  · intro h
    rw [h]
    rfl
  · intro h
    exact BitVec.eq_of_toNat_eq h

/-- The fraction field is empty for the infinities. -/
theorem unpackMantissa_eq_zero_iff (b : Word) :
    unpackMantissa b = 0#_ ↔ b.toNat % 2 ^ 52 = 0 := by
  rw [← toNat_unpackMantissa]
  constructor
  · intro h
    rw [h]
    rfl
  · intro h
    exact BitVec.eq_of_toNat_eq h

/-- The exponent field is empty for the small values. -/
theorem unpackExponent_eq_zero_iff (b : Word) :
    unpackExponent b = 0#_ ↔ b.toNat / 2 ^ 52 % 2 ^ 11 = 0 := by
  rw [← toNat_unpackExponent]
  constructor
  · intro h
    rw [h]
    rfl
  · intro h
    exact BitVec.eq_of_toNat_eq h

/-! ### Patterns with another sign -/

/-- The pattern with another sign. -/
def withSign (b : Word) (s : Sign) : Word :=
  packComponents Format.binary64 s (unpackExponent b) (unpackMantissa b)

/-- A pattern with its own sign is itself. -/
theorem withSign_unpackSign (b : Word) : withSign b (Sign.ofBitVec (unpackSign b)) = b :=
  UnpackedFloat.packComponents_unpackSign_unpackExponent_unpackMantissa b

/-- Another sign keeps the bits below it. -/
theorem toNat_withSign (b : Word) (s : Sign) :
    (withSign b s).toNat = s.toBitVec.toNat * 2 ^ 63 + b.toNat % 2 ^ 63 := by
  have hb : b.toNat < 2 ^ 64 := b.isLt
  have hfields : (withSign b s).toNat =
      (s.toBitVec.toNat * 2 ^ 11 + (unpackExponent b).toNat) * 2 ^ 52 +
        (unpackMantissa b).toNat := by
    simp only [withSign, packComponents, BitVec.toNat_append]
    rw [← Nat.shiftLeft_add_eq_or_of_lt (unpackExponent b).isLt,
      ← Nat.shiftLeft_add_eq_or_of_lt (unpackMantissa b).isLt]
    simp [Nat.shiftLeft_eq]
  rw [hfields, toNat_unpackExponent, toNat_unpackMantissa]
  omega

/-- **Negation is another sign.** -/
theorem neg_unpack_withSign (b : Word) (s : Sign) :
    (unpack Format.binary64 (withSign b s)).neg = unpack Format.binary64 (withSign b (-s)) := by
  simp only [unpack, withSign, UnpackedFloat.unpackExponent_packComponents,
    UnpackedFloat.unpackMantissa_packComponents, UnpackedFloat.unpackSign_packComponents,
    UnpackedFloat.Sign.ofBitVec_toBitVec]
  split
  · split <;> rfl
  · split
    · split <;> rfl
    · rfl

/-! ### Kinds of patterns -/

/-- The code of infinity has a full exponent and an empty fraction. -/
theorem infinityCode_eq : infinityCode = 2047 * 2 ^ 52 := rfl

/-- **The kind of a pattern** depends on the bits below its sign. -/
theorem unpack_kind (b : Word) :
    ((unpack Format.binary64 b).isNaN = true ↔ infinityCode < b.toNat % 2 ^ 63) ∧
      ((unpack Format.binary64 b).isInf = true ↔ b.toNat % 2 ^ 63 = infinityCode) ∧
      ((unpack Format.binary64 b).isFinite = true ↔ b.toNat % 2 ^ 63 < infinityCode) := by
  have hb : b.toNat < 2 ^ 64 := b.isLt
  have hexp := unpackExponent_eq_allOnes_iff b
  have hmant := unpackMantissa_eq_zero_iff b
  have hbelow (h : ¬ unpackExponent b = -1#_) : b.toNat % 2 ^ 63 < infinityCode := by
    rw [hexp] at h
    rw [infinityCode_eq]
    omega
  fun_cases unpack with
  | case1 _ _ _ _ hevec hmvec =>
      have hcode : b.toNat % 2 ^ 63 = infinityCode := by
        have he := hexp.mp hevec
        have hm := hmant.mp hmvec
        rw [infinityCode_eq]
        omega
      exact ⟨iff_of_false nofun (by omega), iff_of_true rfl hcode,
        iff_of_false nofun (by omega)⟩
  | case2 _ _ hevec hmvec =>
      have hcode : infinityCode < b.toNat % 2 ^ 63 := by
        have he := hexp.mp hevec
        have hm := mt hmant.mpr hmvec
        rw [infinityCode_eq]
        omega
      exact ⟨iff_of_true rfl hcode, iff_of_false nofun (by omega),
        iff_of_false nofun (by omega)⟩
  | case3 _ _ _ _ hne _ _ =>
      have hcode := hbelow hne
      exact ⟨iff_of_false nofun (by omega), iff_of_false nofun (by omega), iff_of_true rfl hcode⟩
  | case4 _ _ _ _ _ hne _ _ =>
      have hcode := hbelow hne
      exact ⟨iff_of_false nofun (by omega), iff_of_false nofun (by omega), iff_of_true rfl hcode⟩
  | case5 _ _ _ _ _ hne _ =>
      have hcode := hbelow hne
      exact ⟨iff_of_false nofun (by omega), iff_of_false nofun (by omega), iff_of_true rfl hcode⟩

/-- **A pattern compares as zero** when the bits below its sign are zero. -/
theorem beq_zero_unpack_iff (b : Word) :
    (unpack Format.binary64 b).beq (.zero .positive) = true ↔ b.toNat % 2 ^ 63 = 0 := by
  have hb : b.toNat < 2 ^ 64 := b.isLt
  have hexp := unpackExponent_eq_allOnes_iff b
  have hexp0 := unpackExponent_eq_zero_iff b
  have hmant := unpackMantissa_eq_zero_iff b
  fun_cases unpack with
  | case1 _ _ _ s he _ =>
      have hcode := hexp.mp he
      refine iff_of_false ?_ (by omega)
      cases s <;> decide
  | case2 _ _ he _ =>
      have hcode := hexp.mp he
      exact iff_of_false nofun (by omega)
  | case3 _ _ _ s _ he hm =>
      have hcode := hexp0.mp he
      have hcode' := hmant.mp hm
      refine iff_of_true ?_ (by omega)
      cases s <;> rfl
  | case4 _ _ _ _ s _ he hm =>
      have hcode := mt hmant.mpr hm
      refine iff_of_false ?_ (by omega)
      cases s <;> nofun
  | case5 _ _ _ _ s _ he =>
      have hcode := mt hexp0.mpr he
      refine iff_of_false ?_ (by omega)
      cases s <;> nofun

/-- **A pattern up to the infinities is packed back as it was.** -/
theorem pack_unpack_of_le {b : Word} (h : b.toNat % 2 ^ 63 ≤ infinityCode) :
    pack Format.binary64 (unpack Format.binary64 b) = b := by
  have hb : b.toNat < 2 ^ 64 := b.isLt
  have hnum : isNaNBits b = false := by
    rw [isNaNBits, decide_eq_false_iff_not, unpackExponent_eq_allOnes_iff, ne_eq,
      unpackMantissa_eq_zero_iff]
    rw [infinityCode_eq] at h
    omega
  rw [UnpackedFloat.pack_unpack, hnum, if_neg Bool.false_ne_true]

/-! ### Sign and code -/

/-- The pattern of a value. -/
def word (x : Float) : Word := x.toBits.toBitVec

/-- The pattern of a value is its code below its sign bit. -/
theorem toNat_word (x : Float) : (word x).toNat = (isNegative x).toNat * 2 ^ 63 + code x := by
  have h : (word x).toNat < 2 ^ 64 := (word x).isLt
  change (word x).toNat = ((word x).toNat / 2 ^ 63 == 1).toNat * 2 ^ 63 + (word x).toNat % 2 ^ 63
  cases hneg : ((word x).toNat / 2 ^ 63 == 1) with
  | true =>
      rw [beq_iff_eq] at hneg
      rw [Bool.toNat_true]
      omega
  | false =>
      rw [beq_eq_false_iff_ne] at hneg
      rw [Bool.toNat_false]
      omega

/-- A code leaves the sign bit free. -/
theorem code_lt (x : Float) : code x < 2 ^ 63 := Nat.mod_lt _ (Nat.two_pow_pos 63)

/-- **A value is its sign and its code.** -/
theorem ext {x y : Float} (hneg : isNegative x = isNegative y) (hcode : code x = code y) :
    x = y := by
  refine Float.toBits_inj.mp (UInt64.toBitVec_inj.mp (BitVec.eq_of_toNat_eq ?_))
  change (word x).toNat = (word y).toNat
  rw [toNat_word, toNat_word, hneg, hcode]

/-- Sign and code of a value can be read off its pattern. -/
theorem of_toNat_word {x : Float} {negative : Bool} {c : ℕ} (hc : c < 2 ^ 63)
    (h : (word x).toNat = negative.toNat * 2 ^ 63 + c) :
    isNegative x = negative ∧ code x = c := by
  have hx := toNat_word x
  have hlt := code_lt x
  have hsign : (isNegative x).toNat = negative.toNat := by omega
  refine ⟨?_, by omega⟩
  cases hn : isNegative x <;> cases negative <;> simp_all

/-- The codes above infinity are not numbers. -/
theorem isNaN_iff (x : Float) : x.isNaN = true ↔ infinityCode < code x :=
  (unpack_kind (word x)).1

/-- One code is infinite. -/
theorem isInf_iff (x : Float) : x.isInf = true ↔ code x = infinityCode :=
  (unpack_kind (word x)).2.1

/-- The codes below infinity are finite. -/
theorem isFinite_iff (x : Float) : x.isFinite = true ↔ code x < infinityCode :=
  (unpack_kind (word x)).2.2

/-- A value equals zero exactly when its code is zero, whatever its sign. -/
theorem beq_zero_iff (x : Float) : (x == 0.0) = true ↔ code x = 0 :=
  beq_zero_unpack_iff (word x)

/-- The value of a code has that code, and no sign. -/
theorem code_ofCode {c : ℕ} (h : c ≤ infinityCode) :
    isNegative (ofCode c) = false ∧ code (ofCode c) = c := by
  have hc : c < 2 ^ 63 := Nat.lt_of_le_of_lt h (by decide)
  have hword : (UInt64.ofNat c).toBitVec.toNat = c :=
    UInt64.toNat_ofNat_of_lt' (Nat.lt_of_lt_of_le hc (by decide))
  refine of_toNat_word hc ?_
  change (pack Format.binary64 (unpack Format.binary64 (UInt64.ofNat c).toBitVec)).toNat = _
  rw [pack_unpack_of_le (by rw [hword, Nat.mod_eq_of_lt hc]; exact h), hword, Bool.toNat_false,
    Nat.zero_mul, Nat.zero_add]

/-- Negation flips the sign and keeps the code. -/
theorem neg_eq {x : Float} (h : code x ≤ infinityCode) :
    isNegative (-x) = !isNegative x ∧ code (-x) = code x := by
  refine of_toNat_word (code_lt x) ?_
  change (pack Format.binary64 (unpack Format.binary64 (word x)).neg).toNat = _
  obtain ⟨s, hs, hneg⟩ : ∃ s : Sign, s.toBitVec.toNat = (word x).toNat / 2 ^ 63 ∧
      (unpack Format.binary64 (word x)).neg =
        unpack Format.binary64 (withSign (word x) (-s)) := by
    refine ⟨Sign.ofBitVec (unpackSign (word x)), ?_, ?_⟩
    · rw [UnpackedFloat.Sign.toBitVec_ofBitVec, toNat_unpackSign]
    · rw [← neg_unpack_withSign, withSign_unpackSign]
  have hword : (withSign (word x) (-s)).toNat = (-s).toBitVec.toNat * 2 ^ 63 + code x :=
    toNat_withSign (word x) (-s)
  have hlt := code_lt x
  have hflip : (-s).toBitVec.toNat = (!isNegative x).toNat := by
    have hsign : isNegative x = ((word x).toNat / 2 ^ 63 == 1) := rfl
    rw [hsign, ← hs]
    cases s <;> rfl
  rw [hneg, pack_unpack_of_le (by omega), hword, hflip]

/-- Negation keeps a finite value finite. -/
theorem isFinite_neg {x : Float} (h : x.isFinite = true) : (-x).isFinite = true := by
  have hcode := (isFinite_iff x).mp h
  exact (isFinite_iff _).mpr ((neg_eq hcode.le).2.trans_lt hcode)

/-- Negation keeps the magnitude. -/
theorem units_neg {x : Float} (h : code x ≤ infinityCode) : units (-x) = units x := by
  rw [units, (neg_eq h).2, units]

/-- Signs and codes of the two zeros. -/
theorem zero_sign_code :
    isNegative 0.0 = false ∧ code 0.0 = 0 ∧ isNegative (-0.0) = true ∧ code (-0.0) = 0 := by
  decide

end Binary64

end Keypad
