import Treewalk.Number.Binary

/-! # The shortest decimal that reads back

Every finite double is the nearest one to a whole interval of reals. Among the decimals inside that
interval, the written one has the fewest digits; among those, it is nearest to the double itself.
For one, two, up to seventeen digits the two neighbours of the double on that decimal grid are
tested by exact comparison of naturals.
-/

namespace Treewalk.Number

/-- A positive decimal, `digits · 10 ^ exponent`. -/
structure Decimal where
  digits : Nat
  exponent : Int
  deriving Repr, DecidableEq

/-- Number of decimal digits of a natural number; zero has one. -/
def digitCount (n : Nat) : Nat := (Nat.toDigits 10 n).length

/-- The positive reals that round to one double, over a common denominator: the double itself, the
ends of its interval, and whether the ends belong to it. -/
structure Rounding where
  value : Nat
  low : Nat
  high : Nat
  den : Nat
  closed : Bool

/-- The interval of a positive double. Below a power of two the next double is half as far away. -/
def Rounding.ofBinary (mantissa : Nat) (exponent : Int) : Rounding :=
  let near := decide (mantissa = Nat.pow 2 52 ∧ Binary.minExponent < exponent)
  let up := Nat.pow 2 (exponent - 2).toNat
  { value := 4 * mantissa * up
    low := (4 * mantissa - if near then 1 else 2) * up
    high := (4 * mantissa + 2) * up
    den := Nat.pow 2 (2 - exponent).toNat
    closed := mantissa % 2 = 0 }

/-- The `k` with `10 ^ (k - 1) ≤ value < 10 ^ k`. -/
def Rounding.magnitude (r : Rounding) : Int :=
  if r.den ≤ r.value then digitCount (r.value / r.den)
  else 1 - (digitCount (r.den / r.value) : Int)

/-- The multiple of `10 ^ place` that reads back, if one of the two around the value does: the
nearer one, and the even one of two equally near. -/
def Rounding.onGrid? (r : Rounding) (place : Int) : Option Nat :=
  let scale := Nat.pow 10 (-place).toNat
  let unit := r.den * Nat.pow 10 place.toNat
  let value := r.value * scale
  let below := value / unit
  let fits (c : Nat) : Bool :=
    if r.closed then r.low * scale ≤ c * unit && c * unit ≤ r.high * scale
    else r.low * scale < c * unit && c * unit < r.high * scale
  match fits below, fits (below + 1) with
  | true, true => some (roundDiv value unit)
  | true, false => some below
  | false, true => some (below + 1)
  | false, false => none

/-- Moves factors of ten from the digits to the exponent. -/
def Decimal.trim : Nat → Nat → Int → Decimal
  | 0, digits, exponent => ⟨digits, exponent⟩
  | fuel + 1, digits, exponent =>
    if digits ≠ 0 ∧ digits % 10 = 0 then trim fuel (digits / 10) (exponent + 1)
    else ⟨digits, exponent⟩

/-- Tries `count`, `count + 1`, … digits, `tries` times. -/
def Rounding.search (r : Rounding) (magnitude : Int) : (tries count : Nat) → Decimal
  | 0, _ => ⟨r.value / r.den, 0⟩
  | tries + 1, count =>
    match r.onGrid? (magnitude - count) with
    | some digits => Decimal.trim 20 digits (magnitude - count)
    | none => r.search magnitude tries (count + 1)

/-- The shortest decimal that rounds to `mantissa · 2 ^ exponent`. Seventeen digits always do. -/
def shortest (mantissa : Nat) (exponent : Int) : Decimal :=
  let r := Rounding.ofBinary mantissa exponent
  r.search r.magnitude 17 1

end Treewalk.Number
