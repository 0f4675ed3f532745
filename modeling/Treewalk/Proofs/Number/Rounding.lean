import Mathlib.Algebra.Order.Field.Power
import Mathlib.Algebra.Order.Field.Rat
import Mathlib.Tactic.FieldSimp
import Mathlib.Tactic.Linarith
import Mathlib.Tactic.NormNum
import Mathlib.Tactic.Positivity
import Mathlib.Tactic.Ring
import Treewalk.Number.Shortest

/-! # Rounding a fraction to the nearest double

A finite double other than zero is `mantissa · 2 ^ exponent`, and the reals that it is nearest to
make up an interval. Every fraction in this interval is rounded to the bits of the double. The
exponent that rounding picks for the fraction is that of the double, except just below a power of
two, where it is one less and the mantissa is rounded up to the next power.
-/

namespace Treewalk.Number

/-- Mantissa and exponent of a positive finite double. -/
structure Binary.Canonical (mantissa : Nat) (exponent : Int) : Prop where
  pos : 0 < mantissa
  lt : mantissa < 2 ^ 53
  least : minExponent ≤ exponent
  most : exponent ≤ 971
  normal : exponent = minExponent ∨ 2 ^ 52 ≤ mantissa

def Binary.magnitudeBits (mantissa : Nat) (exponent : Int) : Nat :=
  (exponent - minExponent).toNat * 2 ^ 52 + mantissa

/-- The bits of a finite double come before those of infinity. -/
theorem Binary.Canonical.magnitudeBits_lt {m : Nat} {e : Int} (h : Canonical m e) :
    magnitudeBits m e < infinityBits := by
  have hleast := h.least
  have hmost := h.most
  have hlt := h.lt
  unfold magnitudeBits infinityBits minExponent at *
  have hexponent : (e - -1074).toNat ≤ 2045 := by omega
  have hpow : Nat.pow 2 52 = 2 ^ 52 := rfl
  rw [hpow]
  omega

/-! ## Quotients rounded to the nearest integer -/

section RoundDiv

variable {num den m : Nat}

/-- How far a quotient is above its whole part. -/
theorem mod_eq_of_ratio (num : Nat) (hden : 0 < den) :
    ((num % den : Nat) : ℚ) = ((num : ℚ) / den - (num / den : Nat)) * den := by
  have hdiv : ((den * (num / den) + num % den : Nat) : ℚ) = num := by rw [Nat.div_add_mod]
  have hne : (den : ℚ) ≠ 0 := by positivity
  push_cast at hdiv
  field_simp
  linarith

/-- The quotient that is less than half away, or half away and even, is the rounded one. -/
theorem roundDiv_eq (hden : 0 < den) (hlow : (m : ℚ) - 1 / 2 ≤ num / den)
    (hhigh : (num : ℚ) / den ≤ m + 1 / 2)
    (htie : (num : ℚ) / den = m - 1 / 2 ∨ (num : ℚ) / den = m + 1 / 2 → m % 2 = 0) :
    roundDiv num den = m := by
  have hpos : (0 : ℚ) < den := by exact_mod_cast hden
  have hmod := mod_eq_of_ratio num hden
  have hmodlt : ((num % den : Nat) : ℚ) < den := by exact_mod_cast Nat.mod_lt num hden
  have hmodpos : (0 : ℚ) ≤ ((num % den : Nat) : ℚ) := by positivity
  generalize hratio : (num : ℚ) / den = v at *
  generalize hquotient : num / den = quotient at *
  generalize hremainder : num % den = remainder at *
  have hfloor : (quotient : ℚ) ≤ v ∧ v < quotient + 1 := by
    constructor <;> nlinarith
  -- the rounded quotient is the whole part or the next integer
  have hcases : m = quotient ∨ m = quotient + 1 := by
    have hupper : (m : ℚ) < quotient + 2 := by linarith
    have hlower : (quotient : ℚ) < m + 1 := by linarith
    have hupper : m < quotient + 2 := by exact_mod_cast hupper
    have hlower : quotient < m + 1 := by exact_mod_cast hlower
    omega
  unfold roundDiv
  dsimp only
  rw [hquotient, hremainder]
  rcases hcases with rfl | rfl
  · rw [if_neg]
    rintro (habove | ⟨hhalf, hodd⟩)
    · have habove : (den : ℚ) < 2 * remainder := by exact_mod_cast habove
      nlinarith
    · have hhalf : (2 : ℚ) * remainder = den := by exact_mod_cast hhalf
      have htied : v = m + 1 / 2 := by
        have : (v - m - 1 / 2) * den = 0 := by linarith
        rcases mul_eq_zero.mp this with h | h <;> linarith
      have := htie (.inr htied)
      omega
  · rw [if_pos]
    push_cast at hlow hhigh htie
    by_cases htied : v = quotient + 1 / 2
    · right
      have heven := htie (.inl (by linarith))
      refine ⟨?_, by omega⟩
      have : (2 : ℚ) * remainder = den := by
        rw [hmod, htied]
        ring
      exact_mod_cast this
    · left
      have hstrict : (quotient : ℚ) + 1 / 2 < v := lt_of_le_of_ne (by linarith) (Ne.symm htied)
      have : (den : ℚ) < 2 * remainder := by nlinarith
      exact_mod_cast this

end RoundDiv

/-! ## The exponent of a fraction -/

section Exponent

variable {num den : Nat}

/-- A fraction divided by a power of two, as a fraction of naturals. -/
def scaledBy (num den : Nat) (e : Int) : Nat × Nat :=
  if 0 ≤ e then (num, den * Nat.pow 2 e.toNat) else (num * Nat.pow 2 (-e).toNat, den)

theorem scaledBy_pos (num : Nat) (hden : 0 < den) (e : Int) : 0 < (scaledBy num den e).2 := by
  unfold scaledBy
  split
  · exact Nat.mul_pos hden (Nat.pow_pos (by decide))
  · exact hden

/-- Scaling a fraction divides it by the power of two. -/
theorem scaledBy_ratio (num den : Nat) (e : Int) :
    ((scaledBy num den e).1 : ℚ) / (scaledBy num den e).2 = (num : ℚ) / den / 2 ^ e := by
  unfold scaledBy
  split
  next he =>
    obtain ⟨n, rfl⟩ := Int.eq_ofNat_of_zero_le he
    simp only [Int.toNat_natCast, Nat.pow_eq, Nat.cast_mul, Nat.cast_pow, Nat.cast_ofNat,
      zpow_natCast]
    rw [div_div]
  next he =>
    obtain ⟨n, hn⟩ : ∃ n : Nat, e = -(n : Int) := ⟨(-e).toNat, by omega⟩
    subst hn
    simp only [neg_neg, Int.toNat_natCast, Nat.pow_eq, Nat.cast_mul, Nat.cast_pow, Nat.cast_ofNat,
      zpow_neg, zpow_natCast]
    rw [div_inv_eq_mul, div_mul_eq_mul_div]

def exponentOf (num den : Nat) : Int :=
  let first : Int := max ((num.log2 : Int) - (den.log2 : Int) - 53) Binary.minExponent
  let start := scaledBy num den first
  if Nat.pow 2 53 ≤ start.1 / start.2 then first + 1 else first

/-- The nearest double in one formula: the exponent's part of the bits, and the rounded mantissa on
top of it. -/
theorem nearestBits_eq (num den : Nat) :
    nearestBits num den =
      min ((exponentOf num den - Binary.minExponent).toNat * Nat.pow 2 52 +
        roundDiv (scaledBy num den (exponentOf num den)).1
          (scaledBy num den (exponentOf num den)).2) Binary.infinityBits := rfl

/-- Where a fraction lies between powers of two, by its logarithms. -/
theorem ratio_between (hnum : 0 < num) (hden : 0 < den) :
    (2 : ℚ) ^ ((num.log2 : Int) - den.log2 - 1) ≤ (num : ℚ) / den ∧
      (num : ℚ) / den < 2 ^ ((num.log2 : Int) - den.log2 + 1) := by
  have hpos : (0 : ℚ) < den := by exact_mod_cast hden
  have hnumLow : (2 : ℚ) ^ num.log2 ≤ num := by exact_mod_cast Nat.log2_self_le hnum.ne'
  have hnumHigh : (num : ℚ) < 2 ^ (num.log2 + 1) := by exact_mod_cast Nat.lt_log2_self
  have hdenLow : (2 : ℚ) ^ den.log2 ≤ den := by exact_mod_cast Nat.log2_self_le hden.ne'
  have hdenHigh : (den : ℚ) < 2 ^ (den.log2 + 1) := by exact_mod_cast Nat.lt_log2_self
  have htwo : (2 : ℚ) ≠ 0 := by norm_num
  constructor
  · rw [le_div_iff₀ hpos]
    calc (2 : ℚ) ^ ((num.log2 : Int) - den.log2 - 1) * den
        ≤ 2 ^ ((num.log2 : Int) - den.log2 - 1) * 2 ^ (den.log2 + 1) := by gcongr
      _ = 2 ^ num.log2 := by
        rw [← zpow_natCast, ← zpow_natCast, ← zpow_add₀ htwo]
        congr 1
        push_cast
        ring
      _ ≤ num := hnumLow
  · rw [div_lt_iff₀ hpos]
    calc (num : ℚ) < 2 ^ (num.log2 + 1) := hnumHigh
      _ = 2 ^ ((num.log2 : Int) - den.log2 + 1) * 2 ^ den.log2 := by
        rw [← zpow_natCast, ← zpow_natCast, ← zpow_add₀ htwo]
        congr 1
        push_cast
        ring
      _ ≤ 2 ^ ((num.log2 : Int) - den.log2 + 1) * den := by gcongr

/-- The exponent leaves less than 53 bits before the point, and 53 unless it is the least one. -/
theorem exponentOf_spec (hnum : 0 < num) (hden : 0 < den) :
    Binary.minExponent ≤ exponentOf num den ∧
      (num : ℚ) / den / 2 ^ exponentOf num den < 2 ^ 53 ∧
      (exponentOf num den = Binary.minExponent ∨
        (2 : ℚ) ^ 52 ≤ (num : ℚ) / den / 2 ^ exponentOf num den) := by
  obtain ⟨hlow, hhigh⟩ := ratio_between hnum hden
  have htwo : (2 : ℚ) ≠ 0 := by norm_num
  unfold exponentOf
  dsimp only
  generalize hfirst : max ((num.log2 : Int) - (den.log2 : Int) - 53) Binary.minExponent = first
  have hratio := scaledBy_ratio num den first
  have hscaled := scaledBy_pos num hden first
  have hleast : Binary.minExponent ≤ first := hfirst ▸ le_max_right _ _
  have hpow : (0 : ℚ) < 2 ^ first := by positivity
  have hcompare : Nat.pow 2 53 ≤ (scaledBy num den first).1 / (scaledBy num den first).2 ↔
      (2 : ℚ) ^ 53 ≤ (num : ℚ) / den / 2 ^ first := by
    rw [Nat.le_div_iff_mul_le hscaled, ← hratio, le_div_iff₀ (by exact_mod_cast hscaled)]
    norm_cast
  split
  next hlarge =>
    rw [hcompare] at hlarge
    rw [zpow_add_one₀ htwo, ← div_div]
    generalize hv : (num : ℚ) / den / 2 ^ first = v at *
    have hbelow : v < 2 ^ 54 := by
      rw [← hv, div_lt_iff₀ hpow]
      refine lt_of_lt_of_le hhigh ?_
      rw [← zpow_natCast, ← zpow_add₀ htwo]
      apply zpow_le_zpow_right₀ (by norm_num)
      have := le_max_left ((num.log2 : Int) - (den.log2 : Int) - 53) Binary.minExponent
      push_cast
      omega
    refine ⟨by omega, ?_, .inr ?_⟩ <;> linarith
  next hsmall =>
    rw [hcompare, not_le] at hsmall
    refine ⟨hleast, hsmall, ?_⟩
    by_cases hmin : first = Binary.minExponent
    · exact .inl hmin
    · right
      have hnormal : first = (num.log2 : Int) - den.log2 - 53 := by
        rcases max_choice ((num.log2 : Int) - (den.log2 : Int) - 53) Binary.minExponent with h | h
        · rw [← hfirst, h]
        · exact absurd (hfirst.symm.trans h) hmin
      rw [le_div_iff₀ hpow]
      refine le_trans (le_of_eq ?_) hlow
      rw [← zpow_natCast, ← zpow_add₀ htwo, hnormal]
      congr 1
      push_cast
      ring

end Exponent

/-! ## The interval of a double -/

namespace Rounding

/-- Whether a number is rounded to the double of an interval. -/
def Holds (r : Rounding) (v : ℚ) : Prop :=
  if r.closed then (r.low : ℚ) / r.den ≤ v ∧ v ≤ r.high / r.den
  else (r.low : ℚ) / r.den < v ∧ v < r.high / r.den

variable {m : Nat} {e : Int}

theorem ofBinary_den_pos (m : Nat) (e : Int) : 0 < (ofBinary m e).den :=
  Nat.pow_pos (by decide)

/-- The unit that the ends of an interval are measured in. -/
theorem unit_ratio (e : Int) :
    ((Nat.pow 2 (e - 2).toNat : Nat) : ℚ) / (Nat.pow 2 (2 - e).toNat : Nat) = 2 ^ e / 4 := by
  have htwo : (2 : ℚ) ≠ 0 := by norm_num
  have hpow : (2 : ℚ) ^ ((e - 2).toNat : Int) / 2 ^ ((2 - e).toNat : Int) =
      2 ^ e / 2 ^ (2 : Int) := by
    rw [← zpow_sub₀ htwo, ← zpow_sub₀ htwo]
    congr 1
    omega
  simp only [Nat.pow_eq, Nat.cast_pow, Nat.cast_ofNat]
  rw [← zpow_natCast, ← zpow_natCast, hpow]
  norm_num

/-- A multiple of the unit. -/
theorem multiple_ratio (k : Nat) (e : Int) :
    ((k * Nat.pow 2 (e - 2).toNat : Nat) : ℚ) / (Nat.pow 2 (2 - e).toNat : Nat) =
      k / 4 * 2 ^ e := by
  rw [Nat.cast_mul, mul_div_assoc, unit_ratio]
  ring

/-- The value of an interval is the double itself. -/
theorem value_ratio (m : Nat) (e : Int) :
    ((ofBinary m e).value : ℚ) / (ofBinary m e).den = m * 2 ^ e := by
  have h := multiple_ratio (4 * m) e
  push_cast at h
  simp only [ofBinary]
  push_cast
  rw [h]
  ring

/-- The upper end of an interval is half a unit above the double. -/
theorem high_ratio (m : Nat) (e : Int) :
    ((ofBinary m e).high : ℚ) / (ofBinary m e).den = (m + 1 / 2) * 2 ^ e := by
  have h := multiple_ratio (4 * m + 2) e
  push_cast at h
  simp only [ofBinary]
  push_cast
  rw [h]
  ring

/-- Half a unit of the mantissa, or a quarter just above a power of two. -/
def lowerGap (m : Nat) (e : Int) : ℚ :=
  if m = 2 ^ 52 ∧ Binary.minExponent < e then 1 / 4 else 1 / 2

/-- The lower end of an interval is half a unit below the double, or a quarter where units get
smaller. -/
theorem low_ratio (hm : 0 < m) (e : Int) :
    ((ofBinary m e).low : ℚ) / (ofBinary m e).den = (m - lowerGap m e) * 2 ^ e := by
  unfold lowerGap ofBinary
  by_cases hnear : m = 2 ^ 52 ∧ Binary.minExponent < e
  · have hnear' : m = Nat.pow 2 52 ∧ Binary.minExponent < e := hnear
    rw [if_pos hnear]
    simp only [hnear', decide_true, ↓reduceIte, and_self]
    rw [multiple_ratio]
    norm_num
  · have hnear' : ¬ (m = Nat.pow 2 52 ∧ Binary.minExponent < e) := hnear
    simp only [hnear', decide_false, Bool.false_eq_true, ↓reduceIte]
    rw [multiple_ratio, if_neg hnear, Nat.cast_sub (by omega)]
    push_cast
    ring

theorem lowerGap_le (m : Nat) (e : Int) : lowerGap m e ≤ 1 / 2 := by
  unfold lowerGap
  split <;> norm_num

/-- What the interval of a double says of a number, in units of the mantissa: it is at most half a
unit away, and less if the mantissa is odd. -/
theorem Holds.near {v : ℚ} (hm : 0 < m) (h : (ofBinary m e).Holds v) :
    (m : ℚ) - lowerGap m e ≤ v / 2 ^ e ∧ v / 2 ^ e ≤ m + 1 / 2 ∧
      (v / 2 ^ e = m - lowerGap m e ∨ v / 2 ^ e = m + 1 / 2 → m % 2 = 0) := by
  have hpow : (0 : ℚ) < 2 ^ e := by positivity
  unfold Holds at h
  rw [low_ratio hm, high_ratio] at h
  split at h
  next hclosed =>
    have heven : m % 2 = 0 := by simpa [ofBinary] using hclosed
    rw [le_div_iff₀ hpow, div_le_iff₀ hpow]
    exact ⟨h.1, h.2, fun _ => heven⟩
  next =>
    have hlow : (m : ℚ) - lowerGap m e < v / 2 ^ e := by rw [lt_div_iff₀ hpow]; exact h.1
    have hhigh : v / 2 ^ e < m + 1 / 2 := by rw [div_lt_iff₀ hpow]; exact h.2
    refine ⟨hlow.le, hhigh.le, ?_⟩
    rintro (heq | heq)
    · exact absurd heq hlow.ne'
    · exact absurd heq hhigh.ne

end Rounding

section NearestBits

variable {num den m : Nat} {e : Int}

theorem mul_zpow_le_div_zpow {w : ℚ} (hw : 0 ≤ w) {j k : Int} (h : j + k ≤ 0) :
    w * 2 ^ j ≤ w / 2 ^ k := by
  rw [div_eq_mul_inv, ← zpow_neg]
  exact mul_le_mul_of_nonneg_left (zpow_le_zpow_right₀ (by norm_num) (by omega)) hw

theorem div_zpow_le_mul_zpow {w : ℚ} (hw : 0 ≤ w) {j k : Int} (h : 0 ≤ j + k) :
    w / 2 ^ k ≤ w * 2 ^ j := by
  rw [div_eq_mul_inv, ← zpow_neg]
  exact mul_le_mul_of_nonneg_left (zpow_le_zpow_right₀ (by norm_num) (by omega)) hw

/-- The exponent of a number in the interval of a double is that of the double, or one less for a
power of two. -/
theorem exponentOf_of_holds (h : Binary.Canonical m e) (hnum : 0 < num) (hden : 0 < den)
    (hholds : (Rounding.ofBinary m e).Holds (num / den)) :
    exponentOf num den = e ∨
      exponentOf num den = e - 1 ∧ m = 2 ^ 52 ∧ Binary.minExponent < e := by
  obtain ⟨hleast, hbelow, hnormal⟩ := exponentOf_spec hnum hden
  obtain ⟨hlow, hhigh, _⟩ := hholds.near h.pos
  have hgap := Rounding.lowerGap_le m e
  have htwo : (2 : ℚ) ≠ 0 := by norm_num
  have hmhigh : (m : ℚ) ≤ 2 ^ 53 - 1 := by
    have : m + 1 ≤ 2 ^ 53 := h.lt
    have : ((m + 1 : Nat) : ℚ) ≤ (2 ^ 53 : Nat) := by exact_mod_cast this
    push_cast at this
    linarith
  -- what is divided by the other exponent, in terms of what is divided by that of the double
  have hshift : ∀ k : Int, (num : ℚ) / den / 2 ^ (e + k) = (num : ℚ) / den / 2 ^ e / 2 ^ k := by
    intro k
    rw [zpow_add₀ htwo, ← div_div]
  have hw : (0 : ℚ) ≤ (num : ℚ) / den / 2 ^ e := by positivity
  obtain ⟨k, hk⟩ : ∃ k : Int, exponentOf num den = e + k := ⟨exponentOf num den - e, by ring⟩
  have heleast := h.least
  rw [hk, hshift] at hbelow hnormal
  generalize (num : ℚ) / den / 2 ^ e = w at *
  rcases lt_trichotomy k 0 with hneg | rfl | hpos
  · right
    have hhalf : w * 2 ^ (1 : Int) ≤ w / 2 ^ k := mul_zpow_le_div_zpow hw (by omega)
    rw [zpow_one] at hhalf
    have hsmall : w < 2 ^ 52 := by linarith
    have hinner : Binary.minExponent < e := by omega
    have hmlow : 2 ^ 52 ≤ m := by
      rcases h.normal with heq | hge
      · omega
      · exact hge
    have hm : m = 2 ^ 52 := by
      have : (m : ℚ) < 2 ^ 52 + 1 := by linarith
      have : m < 2 ^ 52 + 1 := by exact_mod_cast this
      omega
    refine ⟨?_, hm, hinner⟩
    by_contra hne
    have hquarter : w * 2 ^ (2 : Int) ≤ w / 2 ^ k := mul_zpow_le_div_zpow hw (by omega)
    have hmq : (m : ℚ) = 2 ^ 52 := by exact_mod_cast hm
    norm_num at hquarter
    linarith
  · exact .inl (by rw [hk, add_zero])
  · exfalso
    have hge : (2 : ℚ) ^ 52 ≤ w / 2 ^ k := by
      rcases hnormal with heq | hge
      · omega
      · exact hge
    have hdouble : w / 2 ^ k ≤ w * 2 ^ (-1 : Int) := div_zpow_le_mul_zpow hw (by omega)
    norm_num at hdouble
    linarith

/-- A fraction in the interval of a double is rounded to its bits. -/
theorem nearestBits_of_holds (h : Binary.Canonical m e) (hnum : 0 < num) (hden : 0 < den)
    (hholds : (Rounding.ofBinary m e).Holds (num / den)) :
    nearestBits num den = Binary.magnitudeBits m e := by
  obtain ⟨hlow, hhigh, htie⟩ := hholds.near h.pos
  have hgap := Rounding.lowerGap_le m e
  have hscaled := scaledBy_pos num hden (exponentOf num den)
  have hratio := scaledBy_ratio num den (exponentOf num den)
  have hfinite := h.magnitudeBits_lt
  rw [nearestBits_eq]
  suffices hbits : (exponentOf num den - Binary.minExponent).toNat * Nat.pow 2 52 +
      roundDiv (scaledBy num den (exponentOf num den)).1
        (scaledBy num den (exponentOf num den)).2 = Binary.magnitudeBits m e by
    rw [hbits, min_eq_left hfinite.le]
  rcases exponentOf_of_holds h hnum hden hholds with heq | ⟨heq, hm, hinner⟩
  · rw [heq] at hscaled hratio ⊢
    rw [roundDiv_eq hscaled (m := m) (by rw [hratio]; linarith) (by rw [hratio]; exact hhigh)]
    · rfl
    · rw [hratio]
      rintro (htied | htied)
      · refine htie (.inl (le_antisymm ?_ hlow))
        linarith
      · exact htie (.inr htied)
  · -- just below a power of two the mantissa is rounded up to the next power
    obtain ⟨_, hbelow, _⟩ := exponentOf_spec hnum hden
    have htwice : (num : ℚ) / den / 2 ^ (e - 1) = (num : ℚ) / den / 2 ^ e * 2 := by
      rw [zpow_sub_one₀ (by norm_num : (2 : ℚ) ≠ 0)]
      field_simp
    rw [heq] at hscaled hratio hbelow ⊢
    rw [htwice] at hratio hbelow
    have hquarter : Rounding.lowerGap m e = 1 / 4 := if_pos ⟨hm, hinner⟩
    rw [hquarter, hm] at hlow
    push_cast at hlow
    rw [roundDiv_eq hscaled (m := 2 ^ 53)]
    · unfold Binary.magnitudeBits Binary.minExponent at *
      have hpow : Nat.pow 2 52 = 2 ^ 52 := rfl
      rw [hm, hpow]
      omega
    · rw [hratio]
      push_cast
      linarith
    · rw [hratio]
      push_cast
      linarith
    · intro _
      norm_num

end NearestBits

end Treewalk.Number
