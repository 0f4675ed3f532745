import Mathlib.Data.Nat.Cast.Order.Field
import Treewalk.Proofs.Number.Rounding

/-! # The shortest decimal reads back

The decimal that is searched for a double lies in the interval of the double: a grid of decimals is
only left by one of its points that does, and on the grid of seventeen digits there always is one,
because its points are closer to each other than the ends of the interval are. Whatever decimal lies
in the interval, reading it gives the bits of the double.
-/

namespace Treewalk.Number

def Decimal.value (d : Decimal) : ℚ := d.digits * 10 ^ d.exponent

/-! ## Counting digits -/

theorem digitCount_pos (n : Nat) : 0 < digitCount n := Nat.length_toDigits_pos

theorem lt_pow_digitCount (n : Nat) : n < 10 ^ digitCount n :=
  (Nat.length_toDigits_le_iff (by decide) (digitCount_pos n)).mp (Nat.le_refl _)

/-- The first digit of a positive number is not zero. -/
theorem pow_digitCount_le {n : Nat} (hn : 0 < n) : 10 ^ (digitCount n - 1) ≤ n := by
  by_cases hone : digitCount n = 1
  · rw [hone]
    exact hn
  · by_contra hlt
    have hpos := digitCount_pos n
    have hshort := (Nat.length_toDigits_le_iff (by decide) (by omega : 0 < digitCount n - 1)).mpr
      (Nat.lt_of_not_le hlt)
    unfold digitCount at *
    omega

/-- Trailing zeros may stand in the digits or in the exponent. -/
theorem Decimal.trim_value (fuel digits : Nat) (exponent : Int) :
    (trim fuel digits exponent).value = digits * 10 ^ exponent := by
  induction fuel generalizing digits exponent with
  | zero => rfl
  | succ fuel ih =>
      unfold trim
      split
      next htrim =>
        rw [ih, zpow_add_one₀ (by norm_num)]
        have hdigits : (10 * (digits / 10) : Nat) = digits := by omega
        have hcast : (10 : ℚ) * ((digits / 10 : Nat) : ℚ) = digits := by exact_mod_cast hdigits
        rw [← hcast]
        ring
      next => rfl

/-! ## Points of a grid -/

namespace Rounding

variable {r : Rounding} {place : Int}

/-- The scale that makes the points of a grid integral. -/
theorem grid_ratio (r : Rounding) (place : Int) (c : Nat) :
    (c : ℚ) * 10 ^ place * (r.den * (Nat.pow 10 (-place).toNat : Nat)) =
      c * (r.den * Nat.pow 10 place.toNat : Nat) := by
  have hten : (10 : ℚ) ≠ 0 := by norm_num
  have hpow : (10 : ℚ) ^ place * 10 ^ ((-place).toNat : Int) = 10 ^ (place.toNat : Int) := by
    rw [← zpow_add₀ hten]
    congr 1
    omega
  simp only [zpow_natCast] at hpow
  simp only [Nat.pow_eq, Nat.cast_mul, Nat.cast_pow, Nat.cast_ofNat]
  rw [← hpow]
  ring

/-- Whether the `c`-th point of a grid is in an interval. -/
def fits (r : Rounding) (place : Int) (c : Nat) : Bool :=
  let scale := Nat.pow 10 (-place).toNat
  let unit := r.den * Nat.pow 10 place.toNat
  if r.closed then r.low * scale ≤ c * unit && c * unit ≤ r.high * scale
  else r.low * scale < c * unit && c * unit < r.high * scale

/-- A point of a grid is taken exactly if it rounds to the double. -/
theorem fits_iff (hden : 0 < r.den) (place : Int) (c : Nat) :
    r.fits place c = true ↔ r.Holds (c * 10 ^ place) := by
  have hratio := grid_ratio r place c
  have hdenq : (0 : ℚ) < r.den := by exact_mod_cast hden
  have hscale : (0 : ℚ) < (Nat.pow 10 (-place).toNat : Nat) := by
    exact_mod_cast Nat.pow_pos (by decide : 0 < 10)
  unfold fits Holds
  dsimp only
  generalize Nat.pow 10 (-place).toNat = scale at *
  generalize r.den * Nat.pow 10 place.toNat = unit at *
  generalize (c : ℚ) * 10 ^ place = v at *
  have hle : ∀ a : Nat, a * scale ≤ c * unit ↔ (a : ℚ) / r.den ≤ v := by
    intro a
    rw [div_le_iff₀ hdenq, ← mul_le_mul_iff_left₀ hscale, mul_assoc, hratio]
    norm_cast
  have hge : ∀ a : Nat, c * unit ≤ a * scale ↔ v ≤ (a : ℚ) / r.den := by
    intro a
    rw [le_div_iff₀ hdenq, ← mul_le_mul_iff_left₀ hscale, mul_assoc, hratio]
    norm_cast
  split
  · rw [Bool.and_eq_true, decide_eq_true_iff, decide_eq_true_iff, hle, hge]
  · rw [Bool.and_eq_true, decide_eq_true_iff, decide_eq_true_iff, ← not_le, ← not_le, hle, hge,
      not_le, not_le]

/-- The points of a grid around the value are taken if they round to the double: the nearer one if
both do. -/
theorem onGrid?_eq (r : Rounding) (place : Int) :
    r.onGrid? place =
      let value := r.value * Nat.pow 10 (-place).toNat
      let unit := r.den * Nat.pow 10 place.toNat
      match r.fits place (value / unit), r.fits place (value / unit + 1) with
      | true, true => some (roundDiv value unit)
      | true, false => some (value / unit)
      | false, true => some (value / unit + 1)
      | false, false => none := rfl

theorem roundDiv_cases (num den : Nat) :
    roundDiv num den = num / den ∨ roundDiv num den = num / den + 1 := by
  unfold roundDiv
  dsimp only
  split
  · exact .inr rfl
  · exact .inl rfl

/-- The point that is found on a grid is in the interval. -/
theorem holds_of_onGrid? (hden : 0 < r.den) {c : Nat} (h : r.onGrid? place = some c) :
    r.Holds (c * 10 ^ place) := by
  rw [onGrid?_eq] at h
  dsimp only at h
  rw [← fits_iff hden]
  split at h
  next hbelow habove =>
    cases h
    rcases roundDiv_cases (r.value * Nat.pow 10 (-place).toNat)
      (r.den * Nat.pow 10 place.toNat) with heq | heq
    · rw [heq]; exact hbelow
    · rw [heq]; exact habove
  next hbelow _ => cases h; exact hbelow
  next _ habove => cases h; exact habove
  next => cases h

/-- A number in the interval that is not above the value can only miss the lower end. -/
theorem le_low_of_not_holds {v : ℚ} (hhigh : v < r.high / r.den) (h : ¬ r.Holds v) :
    v ≤ r.low / r.den := by
  by_contra hlow
  rw [not_le] at hlow
  apply h
  unfold Holds
  split
  · exact ⟨hlow.le, hhigh.le⟩
  · exact ⟨hlow, hhigh⟩

/-- What is above the lower end and is not rounded to the double is not below the upper end. -/
theorem high_le_of_not_holds {v : ℚ} (hlow : r.low / r.den < v) (h : ¬ r.Holds v) :
    (r.high : ℚ) / r.den ≤ v := by
  by_contra hhigh
  rw [not_le] at hhigh
  apply h
  unfold Holds
  split
  · exact ⟨hlow.le, hhigh.le⟩
  · exact ⟨hlow, hhigh⟩

/-- The value lies between two neighbours on a grid. -/
theorem value_between (hden : 0 < r.den) (place : Int) :
    let below := r.value * Nat.pow 10 (-place).toNat / (r.den * Nat.pow 10 place.toNat)
    (below : ℚ) * 10 ^ place ≤ r.value / r.den ∧
      (r.value : ℚ) / r.den < (below + 1 : Nat) * 10 ^ place := by
  intro below
  have hdenq : (0 : ℚ) < r.den := by exact_mod_cast hden
  have hscale : (0 : ℚ) < (Nat.pow 10 (-place).toNat : Nat) := by
    exact_mod_cast Nat.pow_pos (by decide : 0 < 10)
  have hunit : 0 < r.den * Nat.pow 10 place.toNat := Nat.mul_pos hden (Nat.pow_pos (by decide))
  have hlow : below * (r.den * Nat.pow 10 place.toNat) ≤ r.value * Nat.pow 10 (-place).toNat :=
    Nat.div_mul_le_self _ _
  have hhigh : r.value * Nat.pow 10 (-place).toNat <
      (below + 1) * (r.den * Nat.pow 10 place.toNat) :=
    Nat.lt_mul_of_div_lt (Nat.lt_succ_self _) hunit
  have hbelow := grid_ratio r place below
  have habove := grid_ratio r place (below + 1)
  generalize Nat.pow 10 (-place).toNat = scale at *
  generalize r.den * Nat.pow 10 place.toNat = unit at *
  constructor
  · rw [le_div_iff₀ hdenq, ← mul_le_mul_iff_left₀ hscale, mul_assoc, hbelow]
    exact_mod_cast hlow
  · rw [div_lt_iff₀ hdenq, ← mul_lt_mul_iff_left₀ hscale, mul_assoc, habove]
    exact_mod_cast hhigh

/-- On a grid that is finer than the interval is wide, one of the two points around the value is in
the interval. -/
theorem onGrid?_isSome (hden : 0 < r.den) (hlow : (r.low : ℚ) / r.den < r.value / r.den)
    (hhigh : (r.value : ℚ) / r.den < r.high / r.den)
    (hfine : (10 : ℚ) ^ place < r.high / r.den - r.low / r.den) :
    (r.onGrid? place).isSome := by
  obtain ⟨hbelow, habove⟩ := r.value_between hden place
  rw [onGrid?_eq]
  dsimp only
  generalize r.value * Nat.pow 10 (-place).toNat / (r.den * Nat.pow 10 place.toNat) = below at *
  cases hfirst : r.fits place below with
  | true => cases r.fits place (below + 1) <;> rfl
  | false =>
      cases hsecond : r.fits place (below + 1) with
      | true => rfl
      | false =>
          -- both points miss the interval, so that it lies between them
          exfalso
          rw [← Bool.not_eq_true, fits_iff hden] at hfirst hsecond
          have hleft := le_low_of_not_holds (lt_of_le_of_lt hbelow hhigh) hfirst
          have hright := high_le_of_not_holds (lt_trans hlow habove) hsecond
          push_cast at hright
          linarith

/-- A search finds a decimal in the interval if one of the grids it tries has one. -/
theorem search_holds (hden : 0 < r.den) (magnitude : Int) {tries count last : Nat}
    (hcount : count ≤ last) (hlast : last < count + tries)
    (hhit : (r.onGrid? (magnitude - last)).isSome) :
    r.Holds (r.search magnitude tries count).value := by
  induction tries generalizing count with
  | zero => omega
  | succ tries ih =>
      unfold search
      cases hgrid : r.onGrid? (magnitude - count) with
      | some digits =>
          dsimp only
          rw [Decimal.trim_value]
          exact holds_of_onGrid? hden hgrid
      | none =>
          have hne : count ≠ last := by
            rintro rfl
            rw [hgrid] at hhit
            cases hhit
          exact ih (by omega) (by omega)

/-- The magnitude of a value tells its first digit's place. -/
theorem pow_magnitude_le (hden : 0 < r.den) (hvalue : 0 < r.value) :
    (10 : ℚ) ^ (r.magnitude - 1) ≤ r.value / r.den := by
  have hdenq : (0 : ℚ) < r.den := by exact_mod_cast hden
  unfold magnitude
  split
  next hge =>
    have hquotient : 0 < r.value / r.den := Nat.div_pos hge hden
    have hdigits := pow_digitCount_le hquotient
    have hpos := digitCount_pos (r.value / r.den)
    have hexponent : (digitCount (r.value / r.den) : Int) - 1 =
        ((digitCount (r.value / r.den) - 1 : Nat) : Int) := by omega
    rw [hexponent, zpow_natCast]
    calc ((10 : ℚ) ^ (digitCount (r.value / r.den) - 1))
        ≤ (r.value / r.den : Nat) := by exact_mod_cast hdigits
      _ ≤ r.value / r.den := Nat.cast_div_le
  next =>
    have hdigits := lt_pow_digitCount (r.den / r.value)
    have hexponent : (1 : Int) - digitCount (r.den / r.value) - 1 =
        -(digitCount (r.den / r.value) : Int) := by ring
    rw [hexponent, zpow_neg, zpow_natCast, le_div_iff₀ hdenq, inv_mul_le_iff₀ (by positivity)]
    have hbound := (Nat.div_lt_iff_lt_mul hvalue).mp hdigits
    exact_mod_cast hbound.le

end Rounding

/-- Sixteen decimal places after the first digit are finer than the interval is wide. -/
theorem mantissa_lt_width {m : Nat} {e : Int} (h : Binary.Canonical m e) :
    (m : ℚ) / 10 ^ 16 < 1 / 2 + Rounding.lowerGap m e := by
  rw [div_lt_iff₀ (by positivity)]
  unfold Rounding.lowerGap
  split
  next hnear =>
    rw [hnear.1]
    norm_num
  next =>
    have hlt : (m : ℚ) < 2 ^ 53 := by exact_mod_cast h.lt
    norm_num at hlt ⊢
    linarith

/-- The shortest decimal of a double is in its interval. -/
theorem shortest_holds {m : Nat} {e : Int} (h : Binary.Canonical m e) :
    (Rounding.ofBinary m e).Holds (shortest m e).value := by
  have hden := Rounding.ofBinary_den_pos m e
  have hpow : (0 : ℚ) < 2 ^ e := by positivity
  have hvalue := Rounding.value_ratio m e
  have hlow := Rounding.low_ratio h.pos e
  have hhigh := Rounding.high_ratio m e
  have hgap : 0 < Rounding.lowerGap m e := by
    unfold Rounding.lowerGap
    split <;> norm_num
  have hpos : 0 < (Rounding.ofBinary m e).value :=
    Nat.mul_pos (Nat.mul_pos (by decide) h.pos) (Nat.pow_pos (by decide))
  have hmagnitude := Rounding.pow_magnitude_le hden hpos
  -- seventeen digits are always enough
  have hfine : (10 : ℚ) ^ ((Rounding.ofBinary m e).magnitude - (17 : Nat)) <
      (Rounding.ofBinary m e).high / (Rounding.ofBinary m e).den -
        (Rounding.ofBinary m e).low / (Rounding.ofBinary m e).den := by
    have hsplit : (Rounding.ofBinary m e).magnitude - (17 : Nat) =
        (Rounding.ofBinary m e).magnitude - 1 - (16 : Nat) := by omega
    have hwide := mantissa_lt_width h
    rw [hvalue] at hmagnitude
    rw [hlow, hhigh, hsplit, zpow_sub₀ (by norm_num), zpow_natCast]
    calc (10 : ℚ) ^ ((Rounding.ofBinary m e).magnitude - 1) / 10 ^ 16
        ≤ (m : ℚ) * 2 ^ e / 10 ^ 16 := by gcongr
      _ = (m : ℚ) / 10 ^ 16 * 2 ^ e := by ring
      _ < (1 / 2 + Rounding.lowerGap m e) * 2 ^ e := by gcongr
      _ = (m + 1 / 2) * 2 ^ e - (m - Rounding.lowerGap m e) * 2 ^ e := by ring
  unfold shortest
  refine Rounding.search_holds hden _ (by decide : 1 ≤ 17) (by decide) ?_
  refine Rounding.onGrid?_isSome hden ?_ ?_ hfine
  · rw [hlow, hvalue]
    nlinarith
  · rw [hhigh, hvalue]
    nlinarith

/-! ## Reading decimals -/

section OfDecimal

variable {m digits : Nat} {e exponent : Int}

theorem two_pow_le_ten_pow : 2 ^ 1076 ≤ 10 ^ 400 := by decide +kernel

/-- Numbers in the interval of a double are neither huge nor tiny. -/
theorem Rounding.Holds.bounds {v : ℚ} (h : Binary.Canonical m e)
    (hholds : (Rounding.ofBinary m e).Holds v) :
    (10 : ℚ) ^ (-400 : Int) ≤ v ∧ v < 10 ^ (400 : Int) := by
  obtain ⟨hlow, hhigh, _⟩ := hholds.near h.pos
  have hpow : (0 : ℚ) < 2 ^ e := by positivity
  have hgap := Rounding.lowerGap_le m e
  have hone : (1 : ℚ) ≤ m := by exact_mod_cast h.pos
  have hmost : (m : ℚ) < 2 ^ 53 := by exact_mod_cast h.lt
  rw [le_div_iff₀ hpow] at hlow
  rw [div_le_iff₀ hpow] at hhigh
  have hten : (2 : ℚ) ^ 1076 ≤ 10 ^ 400 := by exact_mod_cast two_pow_le_ten_pow
  constructor
  · have hleast : (2 : ℚ) ^ (-1074 : Int) ≤ 2 ^ e := zpow_le_zpow_right₀ (by norm_num) h.least
    have hhalf : (1 : ℚ) / 2 ≤ m - Rounding.lowerGap m e := by linarith
    calc (10 : ℚ) ^ (-400 : Int) ≤ (2 ^ 1076)⁻¹ := by
          rw [zpow_neg]
          exact inv_anti₀ (by positivity) (by exact_mod_cast hten)
      _ = 2 ^ (-2 : Int) * 2 ^ (-1074 : Int) := by
          rw [← zpow_add₀ (by norm_num), ← zpow_natCast, ← zpow_neg]
          norm_num
      _ ≤ (m - Rounding.lowerGap m e) * 2 ^ e := by
          gcongr
          norm_num
          linarith
      _ ≤ v := hlow
  · have hlargest : (2 : ℚ) ^ e ≤ 2 ^ (971 : Int) := zpow_le_zpow_right₀ (by norm_num) h.most
    have hsum : (m : ℚ) + 1 / 2 < 2 ^ (54 : Int) := by
      have hdouble : (2 : ℚ) ^ (54 : Int) = 2 * 2 ^ 53 := by norm_num
      rw [hdouble]
      linarith
    calc v ≤ (m + 1 / 2) * 2 ^ e := hhigh
      _ < 2 ^ (54 : Int) * 2 ^ e := by gcongr
      _ ≤ 2 ^ (54 : Int) * 2 ^ (971 : Int) := by gcongr
      _ = 2 ^ (1025 : Int) := by
          rw [← zpow_add₀ (by norm_num)]
          norm_num
      _ ≤ 2 ^ (1076 : Int) := zpow_le_zpow_right₀ (by norm_num) (by norm_num)
      _ ≤ 10 ^ (400 : Int) := by exact_mod_cast hten

/-- Where the first digit of a decimal stands. -/
theorem decimal_between (hdigits : 0 < digits) (exponent : Int) :
    (10 : ℚ) ^ (exponent + digitCount digits - 1) ≤ digits * 10 ^ exponent ∧
      (digits : ℚ) * 10 ^ exponent < 10 ^ (exponent + digitCount digits) := by
  have hten : (10 : ℚ) ≠ 0 := by norm_num
  have hpow : (0 : ℚ) < 10 ^ exponent := by positivity
  have hcount := digitCount_pos digits
  constructor
  · have hfirst : (10 : ℚ) ^ (digitCount digits - 1) ≤ digits := by
      exact_mod_cast pow_digitCount_le hdigits
    have hexponent : exponent + digitCount digits - 1 =
        ((digitCount digits - 1 : Nat) : Int) + exponent := by omega
    rw [hexponent, zpow_add₀ hten, zpow_natCast]
    gcongr
  · have hlast : (digits : ℚ) < 10 ^ digitCount digits := by
      exact_mod_cast lt_pow_digitCount digits
    rw [add_comm, zpow_add₀ hten, zpow_natCast]
    gcongr

/-- A fraction in the interval of a double is rounded to it. -/
theorem ofFraction_of_holds {num den : Nat} (h : Binary.Canonical m e) (hnum : 0 < num)
    (hden : 0 < den) (hholds : (Rounding.ofBinary m e).Holds (num / den)) (negative : Bool) :
    ofFraction negative num den = Float.ofBits (UInt64.ofNat
      (Binary.magnitudeBits m e + if negative then Nat.pow 2 63 else 0)) := by
  unfold ofFraction
  rw [if_neg hnum.ne', nearestBits_of_holds h hnum hden hholds]

/-- A decimal in the interval of a double has digits. -/
theorem digits_pos_of_holds (h : Binary.Canonical m e)
    (hholds : (Rounding.ofBinary m e).Holds (digits * 10 ^ exponent)) : 0 < digits := by
  rcases Nat.eq_zero_or_pos digits with rfl | hpos
  · have hleast := (hholds.bounds h).1
    have hpow : (0 : ℚ) < 10 ^ (-400 : Int) := by positivity
    rw [Nat.cast_zero, zero_mul] at hleast
    exact absurd hleast (not_le.mpr hpow)
  · exact hpos

/-- Whatever decimal is in the interval of a double, reading it gives the double. -/
theorem ofDecimal_of_holds (h : Binary.Canonical m e)
    (hholds : (Rounding.ofBinary m e).Holds (digits * 10 ^ exponent)) (negative : Bool) :
    ofDecimal negative digits exponent = Float.ofBits (UInt64.ofNat
      (Binary.magnitudeBits m e + if negative then Nat.pow 2 63 else 0)) := by
  obtain ⟨hsmall, hlarge⟩ := hholds.bounds h
  have hdigits := digits_pos_of_holds h hholds
  obtain ⟨hfirst, hlast⟩ := decimal_between hdigits exponent
  have htop : exponent + digitCount digits - 1 < 400 :=
    (zpow_lt_zpow_iff_right₀ (by norm_num)).mp (lt_of_le_of_lt hfirst hlarge)
  have hbottom : -400 < exponent + digitCount digits :=
    (zpow_lt_zpow_iff_right₀ (by norm_num)).mp (lt_of_le_of_lt hsmall hlast)
  have hwidth : ((Nat.toDigits 10 digits).length : Int) = digitCount digits := rfl
  unfold ofDecimal
  dsimp only
  rw [if_neg hdigits.ne', hwidth, if_neg (by omega), if_neg (by omega)]
  split
  next hexponent =>
    obtain ⟨n, rfl⟩ := Int.eq_ofNat_of_zero_le hexponent
    have hpos : 0 < digits * Nat.pow 10 n := Nat.mul_pos hdigits (Nat.pow_pos (by decide))
    refine ofFraction_of_holds h hpos Nat.one_pos ?_ negative
    simpa using hholds
  next hexponent =>
    obtain ⟨n, hn⟩ : ∃ n : Nat, exponent = -(n : Int) := ⟨(-exponent).toNat, by omega⟩
    subst hn
    have hpos : 0 < Nat.pow 10 n := Nat.pow_pos (by decide)
    rw [neg_neg, Int.toNat_natCast]
    refine ofFraction_of_holds h hdigits hpos ?_ negative
    rw [zpow_neg, zpow_natCast, ← div_eq_mul_inv] at hholds
    simpa using hholds

end OfDecimal

end Treewalk.Number
