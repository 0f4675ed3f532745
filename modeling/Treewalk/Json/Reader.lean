import Treewalk.Datum
import Treewalk.Number.Digits

/-! # Reading JSON text

Besides the numbers of the standard, `NaN`, `Infinity` and `-Infinity` are read. A number with a
fraction or an exponent is a double, any other an integer of any size. Of two entries with the same
key the later value wins, in the place of the earlier one. A text that is no JSON is reported with
the position at which reading cannot go on.
-/

namespace Treewalk.Json

inductive Problem where
  | expectingValue
  | expectingComma
  | expectingColon
  | expectingKey
  | unterminatedString
  | controlCharacter
  | invalidEscape
  | invalidCodePoint
  | extraData
  | byteOrderMark
  deriving DecidableEq, Repr, Inhabited

def Problem.text : Problem → String
  | expectingValue => "Expecting value"
  | expectingComma => "Expecting ',' delimiter"
  | expectingColon => "Expecting ':' delimiter"
  | expectingKey => "Expecting property name enclosed in double quotes"
  | unterminatedString => "Unterminated string starting at"
  | controlCharacter => "Invalid control character at"
  | invalidEscape => "Invalid \\escape"
  | invalidCodePoint => "Invalid \\uXXXX escape"
  | extraData => "Extra data"
  | byteOrderMark => "Unexpected UTF-8 BOM (decode using utf-8-sig)"

inductive ReadError where
  /-- A problem at an offset, counted in characters. -/
  | problem (what : Problem) (offset : Nat)
  /-- Nested beyond the limit. -/
  | tooDeep
  deriving DecidableEq, Repr, Inhabited

/-- The message for a problem: where it is by line, column and offset. -/
def problemText (text : String) (what : Problem) (offset : Nat) : String :=
  let before := text.toList.take offset
  let line := before.count '\n' + 1
  let column := (before.reverse.takeWhile (· != '\n')).length + 1
  what.text ++ ": line " ++ Number.natText line ++ " column " ++ Number.natText column
    ++ " (char " ++ Number.natText offset ++ ")"

/-- A place in a text: the offset and the characters from there on. -/
structure Place where
  offset : Nat
  rest : List Char

def Place.skip (p : Place) (count : Nat) : Place := ⟨p.offset + count, p.rest.drop count⟩

abbrev Read (α : Type) := Place → Except ReadError (α × Place)

def failAt {α : Type} (what : Problem) (offset : Nat) : Except ReadError α :=
  .error (.problem what offset)

/-- The blanks that may stand between the parts of a text. -/
def isBlank (c : Char) : Bool := c == ' ' || c == '\t' || c == '\n' || c == '\r'

def Place.skipBlanks (p : Place) : Place := p.skip (p.rest.takeWhile isBlank).length

def hexDigit? (c : Char) : Option Nat :=
  if '0' ≤ c && c ≤ '9' then some (c.toNat - '0'.toNat)
  else if 'a' ≤ c && c ≤ 'f' then some (c.toNat - 'a'.toNat + 10)
  else if 'A' ≤ c && c ≤ 'F' then some (c.toNat - 'A'.toNat + 10)
  else none

def fourHex? : List Char → Option Nat
  | a :: b :: c :: d :: _ => do
    let a ← hexDigit? a
    let b ← hexDigit? b
    let c ← hexDigit? c
    let d ← hexDigit? d
    some (((a * 16 + b) * 16 + c) * 16 + d)
  | _ => none

/-- The character that a letter stands for after a backslash. -/
def shortEscape? : Char → Option Char
  | '"' => some '"'
  | '\\' => some '\\'
  | '/' => some '/'
  | 'b' => some (Char.ofNat 8)
  | 'f' => some (Char.ofNat 12)
  | 'n' => some '\n'
  | 'r' => some '\r'
  | 't' => some '\t'
  | _ => none

/-- The character of a code unit; half a surrogate pair becomes the replacement character. -/
def unitChar (n : Nat) : Char :=
  if 0xD800 ≤ n && n ≤ 0xDFFF then Char.ofNat 0xFFFD else Char.ofNat n

/-- A code point escape after `\u`: the character and the number of characters read. A high
surrogate takes the low surrogate escaped right after it. `p` is the place after the `u`. -/
def codePoint (p : Place) : Except ReadError (Char × Nat) :=
  let invalid := failAt .invalidCodePoint (p.offset - 1)
  if p.rest.length < 5 then invalid
  else
    match fourHex? p.rest with
    | none => invalid
    | some high =>
      let after := p.rest.drop 4
      if 0xD800 ≤ high && high ≤ 0xDBFF && 6 < after.length
          && after.take 2 == ['\\', 'u'] then
        match fourHex? (after.drop 2) with
        | none => failAt .invalidCodePoint (p.offset + 5)
        | some low =>
          if 0xDC00 ≤ low && low ≤ 0xDFFF then
            .ok (Char.ofNat (0x10000 + (high - 0xD800) * 0x400 + (low - 0xDC00)), 10)
          else .ok (unitChar high, 4)
      else .ok (unitChar high, 4)

/-- The characters of a string up to its closing quote. `start` is where the string begins. Every
round reads a character. -/
def stringChars (start : Nat) : Nat → List Char → Read (List Char)
  | 0, _, _ => failAt .unterminatedString start
  | rounds + 1, sofar, p =>
    match p.rest with
    | [] => failAt .unterminatedString start
    | '"' :: _ => .ok (sofar.reverse, p.skip 1)
    | '\\' :: [] => failAt .unterminatedString start
    | '\\' :: 'u' :: _ => do
      let (c, count) ← codePoint (p.skip 2)
      stringChars start rounds (c :: sofar) (p.skip (2 + count))
    | '\\' :: c :: _ =>
      match shortEscape? c with
      | some c => stringChars start rounds (c :: sofar) (p.skip 2)
      | none => failAt .invalidEscape p.offset
    | c :: _ =>
      if c.toNat ≤ 0x1F then failAt .controlCharacter p.offset
      else stringChars start rounds (c :: sofar) (p.skip 1)

/-- A string; the place is that of its opening quote. -/
def string : Read String := fun p => do
  let (cs, q) ← stringChars p.offset (p.rest.length + 1) [] (p.skip 1)
  .ok (String.ofList cs, q)

/-- The exponent part at the front: its value and its length. -/
def exponentPart? (cs : List Char) : Option (Int × Nat) :=
  match cs with
  | e :: rest =>
    if e == 'e' || e == 'E' then
      let (negative, signed, rest) := match rest with
        | '-' :: rest => (true, 1, rest)
        | '+' :: rest => (false, 1, rest)
        | rest => (false, 0, rest)
      let digits := rest.takeWhile Number.isDigit
      if digits.isEmpty then none
      else
        let value : Int := Number.digitsValue digits
        some (if negative then -value else value, 1 + signed + digits.length)
    else none
  | [] => none

/-- The whole part at the front: digits without a leading zero, or a zero. -/
def wholePart? : List Char → Option (List Char)
  | '0' :: _ => some ['0']
  | cs =>
    let digits := cs.takeWhile Number.isDigit
    if digits.isEmpty then none else some digits

/-- Whether a minus stands at the front, and the length of the sign. -/
def signPart : List Char → Bool × Nat
  | '-' :: _ => (true, 1)
  | _ => (false, 0)

/-- The digits of the fraction at the front; a point without digits is none. -/
def fractionPart : List Char → List Char
  | '.' :: rest => rest.takeWhile Number.isDigit
  | _ => []

/-- A number. What follows it, a leading zero's digits included, is left for the caller. -/
def number : Read Datum := fun p =>
  let (negative, signed) := signPart p.rest
  match wholePart? (p.rest.drop signed) with
  | none => failAt .expectingValue p.offset
  | some whole =>
    let rest := p.rest.drop (signed + whole.length)
    let fraction := fractionPart rest
    let pointed := if fraction.isEmpty then 0 else 1 + fraction.length
    let (exponent, tail) := (exponentPart? (rest.drop pointed)).getD (0, 0)
    let q := p.skip (signed + whole.length + pointed + tail)
    if pointed + tail = 0 then
      let value : Int := Number.digitsValue whole
      .ok (.int (if negative then -value else value), q)
    else
      let digits := Number.digitsValue (whole ++ fraction)
      .ok (.float (Number.ofDecimal negative digits (exponent - fraction.length)), q)

def setEntry (key : String) (value : Datum) : List (Datum × Datum) → List (Datum × Datum)
  | [] => [(.text key, value)]
  | entry :: rest =>
    match entry.1 with
    | .text k => if k == key then (entry.1, value) :: rest else entry :: setEntry key value rest
    | _ => entry :: setEntry key value rest

/-- The items of a list up to its closing bracket. Every round reads a value. -/
def items (value : Read Datum) : Nat → Read (List Datum)
  | 0, p => failAt .expectingValue p.offset
  | rounds + 1, p => do
    let (first, p) ← value p
    let p := p.skipBlanks
    match p.rest with
    | ']' :: _ => .ok ([first], p.skip 1)
    | ',' :: _ => do
      let (others, p) ← items value rounds (p.skip 1).skipBlanks
      .ok (first :: others, p)
    | _ => failAt .expectingComma p.offset

def entry (value : Read Datum) : Read (String × Datum) := fun p =>
  match p.rest with
  | '"' :: _ => do
    let (key, p) ← string p
    let p := p.skipBlanks
    match p.rest with
    | ':' :: _ => do
      let (v, p) ← value (p.skip 1).skipBlanks
      .ok ((key, v), p)
    | _ => failAt .expectingColon p.offset
  | _ => failAt .expectingKey p.offset

/-- The entries of a dictionary up to its closing brace. Every round reads an entry. -/
def entries (value : Read Datum) : Nat → List (Datum × Datum) → Read (List (Datum × Datum))
  | 0, _, p => failAt .expectingKey p.offset
  | rounds + 1, sofar, p => do
    let ((key, v), p) ← entry value p
    let sofar := setEntry key v sofar
    let p := p.skipBlanks
    match p.rest with
    | '\x7d' :: _ => .ok (sofar, p.skip 1)
    | ',' :: _ => entries value rounds sofar (p.skip 1).skipBlanks
    | _ => failAt .expectingComma p.offset

def words : List (List Char × Datum) :=
  [ ("null".toList, .null), ("true".toList, .bool true), ("false".toList, .bool false),
    ("NaN".toList, .float Number.notANumber), ("Infinity".toList, .float Number.infinity),
    ("-Infinity".toList, .float (-Number.infinity)) ]

def value : (limit : Nat) → Read Datum
  | 0, _ => .error .tooDeep
  | limit + 1, p =>
    match p.rest with
    | '"' :: _ => do
      let (s, p) ← string p
      .ok (.text s, p)
    | '[' :: _ =>
      let p := (p.skip 1).skipBlanks
      match p.rest with
      | ']' :: _ => .ok (.list [], p.skip 1)
      | _ => do
        let (xs, p) ← items (value limit) (p.rest.length + 1) p
        .ok (.list xs, p)
    | '\x7b' :: _ =>
      let p := (p.skip 1).skipBlanks
      match p.rest with
      | '\x7d' :: _ => .ok (.dict [], p.skip 1)
      | _ => do
        let (es, p) ← entries (value limit) (p.rest.length + 1) [] p
        .ok (.dict es, p)
    | _ =>
      match words.find? (fun word => word.1.isPrefixOf p.rest) with
      | some (word, d) => .ok (d, p.skip word.length)
      | none => number p

/-- Lists and dictionaries that may stand inside each other, where nothing else is said. -/
def depthLimit : Nat := 990

def read (text : String) (limit : Nat := depthLimit) : Except ReadError Datum := do
  let cs := text.toList
  if cs.head? == some (Char.ofNat 0xFEFF) then failAt .byteOrderMark 0
  else
    let start : Place := ⟨0, cs⟩
    let (d, p) ← value limit start.skipBlanks
    let p := p.skipBlanks
    if p.rest.isEmpty then .ok d else failAt .extraData p.offset

end Treewalk.Json
