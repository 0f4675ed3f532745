import Mathlib
import Treewalk.Number.Written
import Treewalk.Proofs.Number.Shortest

/-! # Doubles and their bits

A double is known by its bits, and there is one NaN only. What `Binary.ofFloat` reads off the bits
tells finite doubles, infinities and NaN apart as the tests on doubles do, and the bits of a finite
double are put together again from its sign, mantissa and exponent. An integral double is therefore
read back from its integer, every finite one from its shortest decimal, and one with a sign from its
absolute value.
-/

namespace Treewalk.Number

open Float.Model (Format)
open Float.Model.UnpackedFloat

/-! ## The fields of a bit pattern -/

section Fields

variable (b : BitVec Format.binary64.numBits)

theorem unpackMantissa_toNat : (unpackMantissa b).toNat = b.toNat % 2 ^ 52 := by
  simp [unpackMantissa]

theorem unpackExponent_toNat : (unpackExponent b).toNat = b.toNat / 2 ^ 52 % 2 ^ 11 := by
  simp [unpackExponent, Nat.shiftRight_eq_div_pow]

variable {b}

theorem unpackExponent_eq_ones_iff :
    unpackExponent b = -1#_ ↔ b.toNat / 2 ^ 52 % 2 ^ 11 = 0x7FF := by
  rw [← BitVec.toNat_inj, unpackExponent_toNat]
  rfl

theorem unpackMantissa_eq_zero_iff : unpackMantissa b = 0#_ ↔ b.toNat % 2 ^ 52 = 0 := by
  rw [← BitVec.toNat_inj, unpackMantissa_toNat]
  rfl

end Fields

/-- A double is determined by its bits as a number. -/
theorem eq_of_toBits_toNat {x : Float} {n : Nat} (h : x.toBits.toNat = n) :
    Float.ofBits (UInt64.ofNat n) = x := by
  rw [← h, UInt64.ofNat_toNat, Float.ofBits_toBits]

/-! ## What the bits stand for -/

namespace Binary

variable {x : Float} {negative : Bool} {m : Nat} {e : Int}

/-- Finite doubles are those whose exponent bits are not all set. -/
theorem isFinite_iff (x : Float) :
    x.isFinite = true ↔ x.toBits.toNat / 2 ^ 52 % 2 ^ 11 ≠ 0x7FF := by
  change (unpack .binary64 x.toBits.toBitVec).isFinite = true ↔ _
  rw [← UInt64.toNat_toBitVec, ← not_iff_not, not_not, ← unpackExponent_eq_ones_iff]
  unfold unpack
  dsimp only
  split
  next hones => split <;> simp_all [Float.Model.UnpackedFloat.isFinite]
  next hones =>
    split
    · split <;> simp_all [Float.Model.UnpackedFloat.isFinite]
    · simp_all [Float.Model.UnpackedFloat.isFinite]

/-- There is one NaN only. -/
theorem eq_notANumber (hones : x.toBits.toNat / 2 ^ 52 % 2 ^ 11 = 0x7FF)
    (hpayload : x.toBits.toNat % 2 ^ 52 ≠ 0) : x = notANumber := by
  rw [← UInt64.toNat_toBitVec] at hones hpayload
  have hbits := x.toModel.valid.eq_packedNaN (unpackExponent_eq_ones_iff.mpr hones)
    (unpackMantissa_eq_zero_iff.not.mpr hpayload)
  have hnat : x.toBits.toNat = 0x7FF8000000000000 := congrArg BitVec.toNat hbits
  exact (eq_of_toBits_toNat hnat).symm

theorem neg_infinity : -infinity = Float.ofBits 0xFFF0000000000000 := by decide

/-- A double that is not finite is the NaN or an infinity. -/
theorem eq_of_not_isFinite (h : x.isFinite = false) :
    (ofFloat x = .nan ∧ x = notANumber) ∨ (ofFloat x = .infinite false ∧ x = infinity) ∨
      (ofFloat x = .infinite true ∧ x = -infinity) := by
  have hbound : x.toBits.toNat < 2 ^ 64 := x.toBits.toNat_lt
  have hones : x.toBits.toNat / 2 ^ 52 % 2 ^ 11 = 0x7FF := by
    by_contra hne
    rw [(isFinite_iff x).mpr hne] at h
    cases h
  have hpow : Nat.pow 2 52 = 2 ^ 52 ∧ Nat.pow 2 11 = 2 ^ 11 ∧ Nat.pow 2 63 = 2 ^ 63 :=
    ⟨rfl, rfl, rfl⟩
  unfold ofFloat
  simp only [hpow, hones, ↓reduceIte]
  by_cases hpayload : x.toBits.toNat % 2 ^ 52 = 0
  · right
    rw [if_pos hpayload]
    by_cases hsign : 2 ^ 63 ≤ x.toBits.toNat
    · right
      have hnat : x.toBits.toNat = 0xFFF0000000000000 := by omega
      rw [neg_infinity]
      exact ⟨by rw [decide_eq_true hsign], (eq_of_toBits_toNat hnat).symm⟩
    · left
      have hnat : x.toBits.toNat = 0x7FF0000000000000 := by omega
      exact ⟨by rw [decide_eq_false hsign], (eq_of_toBits_toNat hnat).symm⟩
  · left
    rw [if_neg hpayload]
    exact ⟨rfl, eq_notANumber hones hpayload⟩

/-- The sign, mantissa and exponent of a finite double, and its bits. -/
theorem exists_finite (h : x.isFinite = true) :
    ∃ negative m e, ofFloat x = .finite negative m e ∧
      x.toBits.toNat = magnitudeBits m e + (if negative then Nat.pow 2 63 else 0) ∧
      (m = 0 ∧ e = minExponent ∨ Canonical m e) := by
  have hbound : x.toBits.toNat < 2 ^ 64 := x.toBits.toNat_lt
  have hones := (isFinite_iff x).mp h
  have hpow : Nat.pow 2 52 = 2 ^ 52 ∧ Nat.pow 2 11 = 2 ^ 11 ∧ Nat.pow 2 63 = 2 ^ 63 :=
    ⟨rfl, rfl, rfl⟩
  unfold ofFloat
  simp only [hpow, if_neg hones]
  have hsign : (if decide (2 ^ 63 ≤ x.toBits.toNat) = true then 2 ^ 63 else 0) =
      x.toBits.toNat / 2 ^ 63 * 2 ^ 63 := by
    by_cases hle : 2 ^ 63 ≤ x.toBits.toNat
    · rw [if_pos (decide_eq_true hle)]
      omega
    · rw [if_neg (by simpa using hle)]
      omega
  by_cases hsub : x.toBits.toNat / 2 ^ 52 % 2 ^ 11 = 0
  · rw [if_pos hsub]
    refine ⟨_, _, _, rfl, ?_, ?_⟩
    · rw [hsign]
      unfold magnitudeBits
      rw [sub_self]
      omega
    · by_cases hzero : x.toBits.toNat % 2 ^ 52 = 0
      · exact .inl ⟨hzero, rfl⟩
      · right
        refine ⟨by omega, by omega, le_refl _, ?_, .inl rfl⟩
        unfold minExponent
        omega
  · rw [if_neg hsub]
    refine ⟨_, _, _, rfl, ?_, .inr ⟨by omega, by omega, ?_, by omega, .inr (by omega)⟩⟩
    · rw [hsign]
      unfold magnitudeBits minExponent
      omega
    · unfold minExponent
      omega

end Binary

/-! ## Finite doubles are read back -/

section ReadBack

variable {x : Float} {negative : Bool} {m : Nat} {e : Int}

/-- A finite double is read from every decimal with the value of its shortest one. -/
theorem ofDecimal_eq_of_finite (hfinite : x.isFinite = true)
    (h : Binary.ofFloat x = .finite negative m e) (hm : m ≠ 0) {digits : Nat} {exponent : Int}
    (hvalue : (digits : ℚ) * 10 ^ exponent = (shortest m e).value) :
    ofDecimal negative digits exponent = x := by
  obtain ⟨negative', m', e', hfields, hbits, hcases⟩ := Binary.exists_finite hfinite
  cases h.symm.trans hfields
  have hcanonical := hcases.resolve_left fun hzero => hm hzero.1
  have hholds := shortest_holds hcanonical
  rw [← hvalue] at hholds
  rw [ofDecimal_of_holds hcanonical hholds, ← hbits]
  exact eq_of_toBits_toNat rfl

/-- A zero is read from its sign. -/
theorem ofDecimal_zero_of_finite (hfinite : x.isFinite = true)
    (h : Binary.ofFloat x = .finite negative 0 e) (exponent : Int) :
    ofDecimal negative 0 exponent = x := by
  obtain ⟨negative', m', e', hfields, hbits, hcases⟩ := Binary.exists_finite hfinite
  cases h.symm.trans hfields
  have hleast : e = Binary.minExponent := by
    rcases hcases with ⟨_, hleast⟩ | hcanonical
    · exact hleast
    · exact absurd hcanonical.pos (Nat.lt_irrefl 0)
  have hmagnitude : Binary.magnitudeBits 0 e = 0 := by
    rw [hleast]
    rfl
  rw [hmagnitude] at hbits
  unfold ofDecimal ofFraction
  simp only [↓reduceIte]
  exact eq_of_toBits_toNat hbits

end ReadBack

/-! ## Integral doubles -/

/-- The same number, with the positive zero for the negative one. -/
def dropZeroSign (x : Float) : Float := if x.toBits = 0x8000000000000000 then Float.ofBits 0 else x

/-- There is one negative zero. -/
theorem eq_negativeZero {x : Float} (h : x.toBits = 0x8000000000000000) :
    x = Float.ofBits 0x8000000000000000 := by
  rw [← h, Float.ofBits_toBits]

/-- The integer of a zero of either sign. -/
theorem toInt?_of_zero {x : Float} {negative : Bool}
    (h : Binary.ofFloat x = .finite negative 0 Binary.minExponent) : toInt? x = some 0 := by
  unfold toInt?
  rw [h]
  dsimp only
  rw [if_neg (by decide), Nat.zero_mod, if_pos rfl, Nat.zero_div]
  cases negative <;> rfl

theorem ofFloat_negativeZero :
    Binary.ofFloat (Float.ofBits 0x8000000000000000) = .finite true 0 Binary.minExponent := by
  decide

/-- Only a zero loses its sign. -/
theorem dropZeroSign_eq_self {x : Float} (h : toInt? x ≠ some 0) : dropZeroSign x = x := by
  refine if_neg fun hbits => h ?_
  rw [eq_negativeZero hbits, toInt?_of_zero ofFloat_negativeZero]

/-- A number other than NaN is equal to itself. -/
theorem beq_self_of_not_isNaN {x : Float} (h : x.isNaN = false) : (x == x) = true := by
  rw [Float.isNaN_eq_decide_eq_nan, decide_eq_false_iff_not] at h
  exact Float.beq_iff_ne_nan_and_eq.mpr ⟨h, h, .inl rfl⟩

/-- Dropping the sign of a zero gives an equal number, since both zeros are equal. -/
theorem dropZeroSign_beq {x : Float} (h : x.isNaN = false) : (dropZeroSign x == x) = true := by
  unfold dropZeroSign
  split
  next hbits =>
    rw [eq_negativeZero hbits]
    decide
  next => exact beq_self_of_not_isNaN h

/-- The value of a double is in its interval. -/
theorem Rounding.holds_value {m : Nat} (hm : 0 < m) (e : Int) :
    (Rounding.ofBinary m e).Holds (m * 2 ^ e) := by
  have hpow : (0 : ℚ) < 2 ^ e := by positivity
  have hgap : 0 < Rounding.lowerGap m e := by
    unfold Rounding.lowerGap
    split <;> norm_num
  unfold Holds
  rw [low_ratio hm, high_ratio]
  split <;> constructor <;> nlinarith

/-- The integer of an integral double is its value. -/
theorem toInt?_eq_some {x : Float} {negative : Bool} {m : Nat} {e n : Int}
    (hfields : Binary.ofFloat x = .finite negative m e) (h : toInt? x = some n) :
    (n.natAbs : ℚ) = m * 2 ^ e ∧ (n ≠ 0 → (decide (n < 0) = negative)) := by
  unfold toInt? at h
  rw [hfields] at h
  dsimp only at h
  have hsigned : ∀ k : Nat, (if negative = true then -(k : Int) else k).natAbs = k ∧
      ((if negative = true then -(k : Int) else k) ≠ 0 →
        decide ((if negative = true then -(k : Int) else k) < 0) = negative) := by
    intro k
    cases negative with
    | true =>
        simp only [↓reduceIte, Int.natAbs_neg, Int.natAbs_natCast, decide_eq_true_eq, true_and]
        omega
    | false =>
        simp only [Bool.false_eq_true, ↓reduceIte, Int.natAbs_natCast, decide_eq_false_iff_not,
          true_and]
        omega
  split at h
  next hexponent =>
    obtain ⟨k, rfl⟩ := Int.eq_ofNat_of_zero_le hexponent
    cases h
    refine ⟨?_, (hsigned _).2⟩
    rw [(hsigned _).1]
    simp
  next hexponent =>
    obtain ⟨k, hk⟩ : ∃ k : Nat, e = -(k : Int) := ⟨(-e).toNat, by omega⟩
    subst hk
    rw [neg_neg, Int.toNat_natCast] at h
    split at h
    next hdvd =>
      cases h
      refine ⟨?_, (hsigned _).2⟩
      rw [(hsigned _).1, Nat.cast_div (Nat.dvd_of_mod_eq_zero hdvd) (by simp)]
      simp [zpow_neg, div_eq_mul_inv]
    next => cases h

/-- An integral double is read from its integer, up to the sign of a zero. -/
theorem ofInt?_of_toInt? {x : Float} {n : Int} (hfinite : x.isFinite = true)
    (h : toInt? x = some n) : ofInt? n = some (dropZeroSign x) := by
  obtain ⟨negative, m, e, hfields, hbits, hcases⟩ := Binary.exists_finite hfinite
  obtain ⟨hvalue, hsign⟩ := toInt?_eq_some hfields h
  have hpow : (0 : ℚ) < 2 ^ e := by positivity
  rcases hcases with ⟨rfl, hleast⟩ | hcanonical
  · -- a zero of either sign
    have hzero : n = 0 := by
      rw [Nat.cast_zero, zero_mul] at hvalue
      exact Int.natAbs_eq_zero.mp (by exact_mod_cast hvalue)
    have hmagnitude : Binary.magnitudeBits 0 e = 0 := by
      rw [hleast]
      rfl
    rw [hmagnitude] at hbits
    rw [hzero]
    cases negative with
    | true =>
        have hx : x.toBits = 0x8000000000000000 := UInt64.toNat_inj.mp hbits
        rw [dropZeroSign, if_pos hx]
        rfl
    | false =>
        have hx := eq_of_toBits_toNat hbits
        rw [← hx]
        decide
  · have hne : n ≠ 0 := by
      rintro rfl
      have hpos : (0 : ℚ) < m * 2 ^ e := by
        have : (0 : ℚ) < m := by exact_mod_cast hcanonical.pos
        positivity
      rw [← hvalue] at hpos
      exact absurd hpos (by simp)
    have habs : 0 < n.natAbs := Int.natAbs_pos.mpr hne
    have hholds : (Rounding.ofBinary m e).Holds ((n.natAbs : ℚ) / (1 : Nat)) := by
      rw [Nat.cast_one, div_one, hvalue]
      exact Rounding.holds_value hcanonical.pos e
    have hnearest := nearestBits_of_holds hcanonical habs Nat.one_pos hholds
    have hplain : dropZeroSign x = x := dropZeroSign_eq_self (by rw [h]; simpa using hne)
    unfold ofInt?
    rw [if_neg hne, if_pos (hnearest ▸ hcanonical.magnitudeBits_lt), hsign hne,
      ofFraction_of_holds hcanonical habs Nat.one_pos hholds, ← hbits, hplain]
    exact congrArg some (eq_of_toBits_toNat rfl)

/-! ## Signs -/

def signBit (x : Float) : Bool := decide (Nat.pow 2 63 ≤ x.toBits.toNat)

def unsigned (b : BitVec Format.binary64.numBits) : BitVec Format.binary64.numBits :=
  packComponents .binary64 .positive (unpackExponent b) (unpackMantissa b)

/-- A bit pattern without its sign stands for the absolute value. -/
theorem unpack_unsigned (b : BitVec Format.binary64.numBits) :
    unpack .binary64 (unsigned b) = (unpack .binary64 b).abs := by
  unfold unpack unsigned
  simp only [unpackMantissa_packComponents, unpackExponent_packComponents,
    unpackSign_packComponents, Sign.ofBitVec_toBitVec]
  split
  · split <;> rfl
  · split
    · split <;> rfl
    · rfl

theorem neg_abs_unpack {b : BitVec Format.binary64.numBits} (h : unpackSign b = 1#1) :
    (unpack .binary64 b).abs.neg = unpack .binary64 b := by
  unfold unpack
  simp only [h]
  split
  · split <;> rfl
  · split
    · split <;> rfl
    · rfl

variable {x : Float}

theorem unpackSign_of_signBit (h : signBit x = true) :
    @unpackSign .binary64 x.toBits.toBitVec = 1#1 := by
  have hbound : x.toBits.toNat < 2 ^ 64 := x.toBits.toNat_lt
  have hsign : 2 ^ 63 ≤ x.toBits.toNat := of_decide_eq_true h
  have hnat : (@unpackSign .binary64 x.toBits.toBitVec).toNat =
      x.toBits.toNat / 2 ^ 63 % 2 := by
    simp [unpackSign, Nat.shiftRight_eq_div_pow]
  rw [← BitVec.toNat_inj, hnat]
  change _ = 1
  omega

/-- NaN has no sign. -/
theorem not_isNaNBits (h : signBit x = true) :
    @isNaNBits .binary64 x.toBits.toBitVec = false := by
  rw [Bool.eq_false_iff]
  intro hnan
  obtain ⟨hexponent, hmantissa⟩ := of_decide_eq_true hnan
  have hbits := x.toModel.valid.eq_packedNaN hexponent hmantissa
  have hsign := unpackSign_of_signBit h
  change x.toBits.toBitVec = _ at hbits
  rw [hbits] at hsign
  exact absurd hsign (by decide)

/-- A double with its sign bit set is its absolute value with a sign. -/
theorem neg_abs (h : signBit x = true) : -x.abs = x := by
  have hunsigned : isNaNBits (unsigned x.toBits.toBitVec) = false := by
    unfold isNaNBits unsigned
    rw [unpackExponent_packComponents, unpackMantissa_packComponents]
    exact not_isNaNBits h
  have habs : x.abs.toModel.unpack = x.toModel.unpack.abs := by
    change unpack .binary64 (pack .binary64 (unpack .binary64 x.toBits.toBitVec).abs) =
      (unpack .binary64 x.toBits.toBitVec).abs
    rw [← unpack_unsigned, pack_unpack, if_neg (Bool.eq_false_iff.mp hunsigned)]
  change Float.ofModel (.pack x.abs.toModel.unpack.neg) = x
  have hneg : x.toModel.unpack.abs.neg = x.toModel.unpack :=
    neg_abs_unpack (unpackSign_of_signBit h)
  rw [habs, hneg]
  exact Float.ofBits_toBits x

end Treewalk.Number
