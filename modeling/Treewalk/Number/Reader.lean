import Treewalk.Number.Binary
import Treewalk.Number.Digits
import Treewalk.Text.DecimalDigit

/-! # Reading a number from a text

The text may have blanks around it, a sign, underscores between digits, a fraction and an exponent,
or be a word for an infinity or for NaN in any case. Digits may come from any script.
-/

namespace Treewalk.Number

/-- The blanks of ASCII. -/
def isPlainBlank (c : Char) : Bool := (0x09 ≤ c.toNat && c.toNat ≤ 0x0D) || c == ' '

def isBlank (c : Char) : Bool :=
  let n := c.toNat
  isPlainBlank c || (0x1C ≤ n && n ≤ 0x1F) || n == 0x85 || n == 0xA0 || n == 0x1680
    || (0x2000 ≤ n && n ≤ 0x200A) || n == 0x2028 || n == 0x2029 || n == 0x202F || n == 0x205F
    || n == 0x3000

def strip (isBlank : Char → Bool) (cs : List Char) : List Char :=
  ((cs.dropWhile isBlank).reverse.dropWhile isBlank).reverse

/-- The characters that are read as a number: without the blanks around them and with plain digits.
Information separators are blanks only next to characters that are not ASCII. -/
def simplify (cs : List Char) : List Char :=
  if cs.all (·.toNat < 0x80) then strip isPlainBlank cs
  else (strip isBlank cs).map Text.plainDigit

/-- Digits at the front and the rest. An underscore may stand between two digits. -/
def takeDigits (afterDigit : Bool) : List Char → List Char × List Char
  | [] => ([], [])
  | c :: rest =>
    if isDigit c then
      let (digits, tail) := takeDigits true rest
      (c :: digits, tail)
    else if afterDigit && c == '_' && rest.head?.any isDigit then takeDigits false rest
    else ([], c :: rest)

def takeSign : List Char → Bool × List Char
  | '-' :: rest => (true, rest)
  | '+' :: rest => (false, rest)
  | cs => (false, cs)

/-- The exponent after a mantissa; nothing stands for zero. -/
def exponent? : List Char → Option Int
  | [] => some 0
  | e :: rest =>
    if e == 'e' || e == 'E' then
      let (negative, rest) := takeSign rest
      let (digits, rest) := takeDigits false rest
      if digits.isEmpty || !rest.isEmpty then none
      else
        let value : Int := digitsValue digits
        some (if negative then -value else value)
    else none

def ofText? (text : String) : Option Float :=
  let (negative, cs) := takeSign (simplify text.toList)
  let word := String.ofList (cs.map Char.toLower)
  if word == "inf" || word == "infinity" then some (if negative then -infinity else infinity)
  else if word == "nan" then some notANumber
  else
    let (whole, rest) := takeDigits false cs
    let (fraction, rest) := match rest with
      | '.' :: rest => takeDigits false rest
      | rest => ([], rest)
    if whole.isEmpty && fraction.isEmpty then none
    else
      (exponent? rest).map fun e =>
        ofDecimal negative (digitsValue (whole ++ fraction)) (e - fraction.length)

end Treewalk.Number
