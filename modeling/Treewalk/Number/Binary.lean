/-! # Double-precision numbers as exact integers

A finite double is `± mantissa · 2 ^ exponent`. Reading it that way, and rounding a fraction of
naturals back to the nearest double, is exact integer arithmetic, so that the decimal texts built on
it need no floating-point step of their own.
-/

namespace Treewalk.Number

/-- What the bit pattern of a double stands for. -/
inductive Binary where
  /-- `mantissa · 2 ^ exponent`, negated when `negative` holds; zero keeps its sign. -/
  | finite (negative : Bool) (mantissa : Nat) (exponent : Int)
  | infinite (negative : Bool)
  | nan
  deriving Repr, DecidableEq

/-- The exponent of the smallest positive double, `2 ^ -1074`. -/
def Binary.minExponent : Int := -1074

def Binary.infinityBits : Nat := 0x7FF * Nat.pow 2 52

def Binary.ofFloat (x : Float) : Binary :=
  let bits : Nat := x.toBits.toNat
  let negative := decide (Nat.pow 2 63 ≤ bits)
  let biased : Nat := bits / Nat.pow 2 52 % Nat.pow 2 11
  let fraction := bits % Nat.pow 2 52
  if biased = 0x7FF then
    if fraction = 0 then .infinite negative else .nan
  else if biased = 0 then .finite negative fraction minExponent
  else .finite negative (fraction + Nat.pow 2 52) ((biased : Int) - 1075)

/-- The quotient rounded to the nearest integer, a tie going to the even neighbour. -/
def roundDiv (num den : Nat) : Nat :=
  let quotient := num / den
  let twice := 2 * (num % den)
  if twice > den ∨ (twice = den ∧ quotient % 2 = 1) then quotient + 1 else quotient

/-- The magnitude bits of the double nearest to `num / den`, infinity from half a unit above the
largest finite double on. Both arguments are positive. -/
def nearestBits (num den : Nat) : Nat :=
  let scaled (e : Int) : Nat × Nat :=
    if 0 ≤ e then (num, den * Nat.pow 2 e.toNat) else (num * Nat.pow 2 (-e).toNat, den)
  let first : Int := max ((num.log2 : Int) - (den.log2 : Int) - 53) Binary.minExponent
  let start := scaled first
  let e := if Nat.pow 2 53 ≤ start.1 / start.2 then first + 1 else first
  let parts := scaled e
  min ((e - Binary.minExponent).toNat * Nat.pow 2 52 + roundDiv parts.1 parts.2) Binary.infinityBits

/-- The double nearest to `± num / den`. -/
def ofFraction (negative : Bool) (num den : Nat) : Float :=
  let magnitude := if num = 0 then 0 else nearestBits num den
  Float.ofBits (UInt64.ofNat (magnitude + if negative then Nat.pow 2 63 else 0))

/-- The double nearest to `± digits · 10 ^ exponent`. An exponent beyond the range of doubles is
cut down to one that is still beyond it, so that no huge power is formed. -/
def ofDecimal (negative : Bool) (digits : Nat) (exponent : Int) : Float :=
  let width : Int := (Nat.toDigits 10 digits).length
  if digits = 0 then ofFraction negative 0 1
  else if exponent + width > 400 then ofFraction negative (Nat.pow 2 1025) 1
  else if exponent + width < -400 then ofFraction negative 0 1
  else if 0 ≤ exponent then ofFraction negative (digits * Nat.pow 10 exponent.toNat) 1
  else ofFraction negative digits (Nat.pow 10 (-exponent).toNat)

/-- The double nearest to an integer, unless it lies beyond the finite doubles. -/
def ofInt? (n : Int) : Option Float :=
  if n = 0 then some (ofFraction false 0 1)
  else if nearestBits n.natAbs 1 < Binary.infinityBits then
    some (ofFraction (decide (n < 0)) n.natAbs 1)
  else none

/-- The integer that an integral double is equal to; the sign of zero is lost. -/
def toInt? (x : Float) : Option Int :=
  match Binary.ofFloat x with
  | .finite negative mantissa exponent =>
    let signed (n : Nat) : Int := if negative then -(n : Int) else n
    if 0 ≤ exponent then some (signed (mantissa * Nat.pow 2 exponent.toNat))
    else
      let unit := Nat.pow 2 (-exponent).toNat
      if mantissa % unit = 0 then some (signed (mantissa / unit)) else none
  | _ => none

def infinity : Float := Float.ofBits 0x7FF0000000000000

/-- The quiet NaN with no payload. -/
def notANumber : Float := Float.ofBits 0x7FF8000000000000

end Treewalk.Number
