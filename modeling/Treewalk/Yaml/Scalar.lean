import Treewalk.Datum
import Treewalk.Number.Digits

/-! # Plain YAML scalars

A scalar without quotes is read by its form: the words for truth values and for nothing, integers in
several bases, decimal and sexagesimal numbers, and texts for the rest, as YAML 1.1 has it. The
writer uses the same reading to find out which texts need quotes.
-/

namespace Treewalk.Yaml

def trueWords : List String :=
  ["yes", "Yes", "YES", "true", "True", "TRUE", "on", "On", "ON"]

def falseWords : List String :=
  ["no", "No", "NO", "false", "False", "FALSE", "off", "Off", "OFF"]

/-- The words for nothing; the empty scalar is one of them. -/
def nullWords : List String := ["~", "null", "Null", "NULL", ""]

def takeSign : List Char → Bool × List Char
  | '-' :: rest => (true, rest)
  | '+' :: rest => (false, rest)
  | cs => (false, cs)

def isSpacedDigit (c : Char) : Bool := Number.isDigit c || c == '_'

def dropUnderscores (cs : List Char) : List Char := cs.filter (· != '_')

def digitValue (c : Char) : Nat :=
  if Number.isDigit c then c.toNat - '0'.toNat
  else if 'a' ≤ c && c ≤ 'f' then c.toNat - 'a'.toNat + 10
  else c.toNat - 'A'.toNat + 10

def baseValue (base : Nat) (cs : List Char) : Nat :=
  (dropUnderscores cs).foldl (fun n c => base * n + digitValue c) 0

def isHexDigit (c : Char) : Bool :=
  Number.isDigit c || ('a' ≤ c && c ≤ 'f') || ('A' ≤ c && c ≤ 'F')

def cutAt (separator : Char) : List Char → List (List Char)
  | [] => [[]]
  | c :: rest =>
    match cutAt separator rest with
    | first :: others => if c == separator then [] :: first :: others else (c :: first) :: others
    | [] => [[c]]

/-- A part of a sexagesimal number after the first: one or two digits below sixty. -/
def isSexagesimalPart : List Char → Bool
  | [c] => Number.isDigit c
  | [c, d] => '0' ≤ c && c ≤ '5' && Number.isDigit d
  | _ => false

/-- The natural number that an unsigned integer scalar stands for. -/
def natural? (cs : List Char) : Option Nat :=
  match cs with
  | '0' :: 'b' :: digits =>
    if !digits.isEmpty && digits.all (fun c => c == '0' || c == '1' || c == '_') then
      some (baseValue 2 digits)
    else none
  | '0' :: 'x' :: digits =>
    if !digits.isEmpty && digits.all (fun c => isHexDigit c || c == '_') then
      some (baseValue 16 digits)
    else none
  | ['0'] => some 0
  | '0' :: digits =>
    if digits.all (fun c => ('0' ≤ c && c ≤ '7') || c == '_') then some (baseValue 8 digits)
    else none
  | first :: _ =>
    if Number.isDigit first then
      match cutAt ':' cs with
      | [digits] => if digits.all isSpacedDigit then some (baseValue 10 digits) else none
      | lead :: parts =>
        if lead.all isSpacedDigit && parts.all isSexagesimalPart then
          some (parts.foldl (fun n part => 60 * n + baseValue 10 part) (baseValue 10 lead))
        else none
      | [] => none
    else none
  | [] => none

/-- The exponent part of a number with a point: a sign is needed. -/
def exponent? : List Char → Option Int
  | [] => some 0
  | e :: sign :: digits =>
    if (e == 'e' || e == 'E') && (sign == '+' || sign == '-')
        && !digits.isEmpty && digits.all Number.isDigit then
      let value : Int := Number.digitsValue digits
      some (if sign == '-' then -value else value)
    else none
  | _ => none

/-- The number that a scalar with a point stands for. -/
def pointed? (cs : List Char) : Option Float :=
  let (negative, body) := takeSign cs
  let signed := body.length != cs.length
  let infinite := [".inf", ".Inf", ".INF"].contains (String.ofList body)
  if infinite then some (if negative then -Number.infinity else Number.infinity)
  else if [".nan", ".NaN", ".NAN"].contains (String.ofList cs) then some Number.notANumber
  else
    let whole := body.takeWhile isSpacedDigit
    match body.dropWhile isSpacedDigit with
    | '.' :: rest =>
      let fraction := rest.takeWhile isSpacedDigit
      let wellFormed :=
        if whole.isEmpty then !signed && fraction.head?.any Number.isDigit
        else whole.head?.any Number.isDigit
      if wellFormed then
        (exponent? (rest.dropWhile isSpacedDigit)).map fun e =>
          let fraction := dropUnderscores fraction
          Number.ofDecimal negative (Number.digitsValue (dropUnderscores whole ++ fraction))
            (e - fraction.length)
      else none
    | _ => none

/-- The number that a sexagesimal scalar with a point stands for. -/
def sexagesimal? (cs : List Char) : Option Float :=
  let (negative, body) := takeSign cs
  let whole := body.takeWhile (· != '.')
  match body.dropWhile (· != '.'), cutAt ':' whole with
  | '.' :: fraction, lead :: part :: parts =>
    if lead.head?.any Number.isDigit && lead.all isSpacedDigit
        && (part :: parts).all isSexagesimalPart && fraction.all isSpacedDigit then
      let fraction := dropUnderscores fraction
      let last := ((part :: parts).getLast?.getD [])
      let ending := Number.ofDecimal false (Number.digitsValue (last ++ fraction))
        (-(fraction.length : Int))
      let leading := (lead :: (part :: parts).dropLast).foldl
        (fun n digits => 60 * n + baseValue 10 digits) 0
      let value := ending + Number.ofDecimal false (60 * leading) 0
      some (if negative then -value else value)
    else none
  | _, _ => none

def resolve (text : String) : Datum :=
  if nullWords.contains text then .null
  else if trueWords.contains text then .bool true
  else if falseWords.contains text then .bool false
  else
    let cs := text.toList
    let (negative, body) := takeSign cs
    match natural? body with
    | some n => .int (if negative then -(n : Int) else n)
    | none =>
      match (pointed? cs).or (sexagesimal? cs) with
      | some x => .float x
      | none => .text text

/-- Whether some characters are a day, `yyyy-mm-dd`, perhaps with a time after it. -/
def looksLikeDate (cs : List Char) : Bool :=
  let year := cs.takeWhile Number.isDigit
  match cs.dropWhile Number.isDigit with
  | '-' :: rest =>
    let month := rest.takeWhile Number.isDigit
    match rest.dropWhile Number.isDigit with
    | '-' :: rest =>
      let day := rest.takeWhile Number.isDigit
      let time := rest.dropWhile Number.isDigit
      year.length == 4 && (month.length == 1 || month.length == 2)
        && (day.length == 1 || day.length == 2)
        && (if time.isEmpty then month.length == 2 && day.length == 2
          else time.any (· == ':'))
    | _ => false
  | _ => false

/-- Whether a plain scalar would be read as something other than a text. -/
def isSpecial (text : String) : Bool :=
  match resolve text with
  | .text _ => text == "<<" || text == "=" || looksLikeDate text.toList
  | _ => true

end Treewalk.Yaml
