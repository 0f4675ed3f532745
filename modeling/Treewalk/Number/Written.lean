import Treewalk.Number.Shortest

/-! # How numbers are written

Two texts of a number are in use: the full one, which always shows that a number is a double
(`1.0`, `1e+16`, `inf`), and the plain one that programs print (`1`, `0.5`, `Infinity`).
-/

namespace Treewalk.Number

/-- The spelling decisions of a decimal notation. -/
structure Layout where
  /-- Least exponent of ten that is written without an exponent part. -/
  leastPositional : Int
  /-- First exponent of ten that needs an exponent part again. -/
  firstScientific : Int
  /-- Least number of digits of the exponent part. -/
  exponentWidth : Nat

/-- Positional from `0.0001` to below `10 ^ 16`; exponents have a sign and two digits. -/
def Layout.full : Layout := ⟨-4, 16, 2⟩

def natText (n : Nat) : String := String.ofList (Nat.toDigits 10 n)

/-- Decimal digits of an integer, with `-` in front of a negative one. -/
def intText (n : Int) : String := if n < 0 then "-" ++ natText n.natAbs else natText n.natAbs

def copies (count : Nat) (c : Char) : String := String.ofList (List.replicate count c)

/-- The text of a positive decimal in a layout. An integral value keeps `.0`. -/
def Layout.write (layout : Layout) (d : Decimal) : String :=
  let digits := Nat.toDigits 10 d.digits
  let exponent : Int := d.exponent + digits.length - 1
  if layout.leastPositional ≤ exponent ∧ exponent < layout.firstScientific then
    if 0 ≤ d.exponent then String.ofList digits ++ copies d.exponent.toNat '0' ++ ".0"
    else if 0 ≤ exponent then
      let whole := exponent.toNat + 1
      String.ofList (digits.take whole) ++ "." ++ String.ofList (digits.drop whole)
    else "0." ++ copies (-exponent - 1).toNat '0' ++ String.ofList digits
  else
    let mantissa :=
      match digits with
      | [] => ""
      | [c] => String.ofList [c]
      | c :: rest => String.ofList [c] ++ "." ++ String.ofList rest
    let size := natText exponent.natAbs
    let sign := if exponent < 0 then "-" else "+"
    mantissa ++ "e" ++ sign ++ copies (layout.exponentWidth - size.length) '0' ++ size

/-- The full text of a double: it reads back to the same double, and shows that it is one. -/
def fullText (x : Float) : String :=
  match Binary.ofFloat x with
  | .nan => "nan"
  | .infinite negative => if negative then "-inf" else "inf"
  | .finite negative mantissa exponent =>
    let sign := if negative then "-" else ""
    if mantissa = 0 then sign ++ "0.0"
    else sign ++ Layout.full.write (shortest mantissa exponent)

/-- The bound below which integral numbers are printed by their digits. -/
def integerTextBound : Nat := Nat.pow 10 21

/-- The text that programs print: integral numbers below `10 ^ 21` by their digits. -/
def plainText (x : Float) : String :=
  match Binary.ofFloat x with
  | .nan => "NaN"
  | .infinite negative => if negative then "-Infinity" else "Infinity"
  | .finite .. =>
    match toInt? x with
    | some n => if n.natAbs < integerTextBound then intText n else fullText x
    | none => fullText x

end Treewalk.Number
