import Treewalk.Yaml.Scalar

/-! # Writing a mapping as YAML

Each entry has a line `key: value`. A text stands there plain if it would be read back as that very
text; otherwise it is quoted, with quotation marks and escapes when it holds characters outside
ASCII. A long value is folded at blanks once the line has passed column eighty, and goes on two
columns further in.
-/

namespace Treewalk.Yaml

/-- The column after which a scalar is folded. -/
def bestWidth : Nat := 80

/-- The indentation of the lines that a value goes on with. -/
def continuation : String := "\n  "

/-- What matters about a text for the choice of its quotes. -/
structure Traits where
  plain : Bool
  singleQuoted : Bool
  multiline : Bool

def isBreak (c : Char) : Bool :=
  c == '\n' || c.toNat == 0x85 || c.toNat == 0x2028 || c.toNat == 0x2029

/-- The characters that count as white space around indicators. -/
def isWhite (c : Char) : Bool :=
  c == ' ' || c == '\t' || c == '\r' || c.toNat == 0 || isBreak c

/-- The characters that a plain or single-quoted scalar can hold. -/
def isOrdinary (c : Char) : Bool := c == '\n' || (0x20 ≤ c.toNat && c.toNat ≤ 0x7E)

/-- Whether the next character is white space or there is none. -/
def endsHere (rest : List Char) : Bool := rest.head?.all isWhite

/-- Whether an indicator stands where a plain scalar cannot have it: a colon before a blank, or a
number sign after one. -/
def hasIndicator (afterWhite : Bool) : List Char → Bool
  | [] => false
  | c :: rest =>
    (c == ':' && endsHere rest) || (c == '#' && afterWhite) || hasIndicator (isWhite c) rest

def opensWithIndicator : List Char → Bool
  | [] => false
  | c :: rest =>
    "#,[]\x7b\x7d&*!|>'\"%@`".toList.contains c
      || ((c == '?' || c == ':' || c == '-') && endsHere rest)

/-- Whether a character of one class is followed by one of another. -/
def hasPair (first second : Char → Bool) : List Char → Bool
  | a :: b :: rest => (first a && second b) || hasPair first second (b :: rest)
  | _ => false

def traits (cs : List Char) : Traits :=
  let isBlank (c : Char) : Bool := c == ' '
  let edge (c : Option Char) : Bool := c.any fun c => isBlank c || isBreak c
  let broken := cs.any isBreak
  let special := !cs.all isOrdinary
  let indicator :=
    "---".toList.isPrefixOf cs || "...".toList.isPrefixOf cs
      || opensWithIndicator cs || hasIndicator (cs.head?.any isWhite) (cs.drop 1)
  let spaced := hasPair isBlank isBreak cs
  let indented := hasPair isBreak isBlank cs
  { plain := !(edge cs.head? || edge cs.getLast? || indented || spaced || special || broken
      || indicator)
    singleQuoted := !(indented || spaced || special)
    multiline := broken }

/-- The letters that stand for characters after a backslash. -/
def escapeLetter? (c : Char) : Option Char :=
  match c.toNat with
  | 0x00 => some '0'
  | 0x07 => some 'a'
  | 0x08 => some 'b'
  | 0x09 => some 't'
  | 0x0A => some 'n'
  | 0x0B => some 'v'
  | 0x0C => some 'f'
  | 0x0D => some 'r'
  | 0x1B => some 'e'
  | 0x22 => some '"'
  | 0x5C => some '\\'
  | 0x85 => some 'N'
  | 0xA0 => some '_'
  | 0x2028 => some 'L'
  | 0x2029 => some 'P'
  | _ => none

def upperHex (width n : Nat) : List Char := (Text.hex width n).map Char.toUpper

/-- How a double-quoted scalar writes a character that it escapes. -/
def escaped (c : Char) : List Char :=
  match escapeLetter? c with
  | some letter => ['\\', letter]
  | none =>
    let n := c.toNat
    if n ≤ 0xFF then '\\' :: 'x' :: upperHex 2 n
    else if n ≤ 0xFFFF then '\\' :: 'u' :: upperHex 4 n
    else '\\' :: 'U' :: upperHex 8 n

def isVerbatim (c : Char) : Bool :=
  0x20 ≤ c.toNat && c.toNat ≤ 0x7E && c != '"' && c != '\\'

/-- The characters of a double-quoted scalar. `column` is where the last written part ended, `held`
the characters read since, backwards. A scalar that may be folded is broken by a backslash in front
of a blank or next to an escape once the line is too long, but never at its ends; `isFirst` says
that nothing was read yet. -/
def doubleChars (fold isFirst : Bool) (column : Nat) (held : List Char) : List Char → List Char
  | [] => held.reverse
  | c :: rest =>
    let mayFold := fold && !isFirst && !rest.isEmpty
    if isVerbatim c then
      if mayFold && (c == ' ' || held.isEmpty) && column + held.length > bestWidth then
        let guarded := if c == ' ' then ['\\'] else []
        held.reverse ++ '\\' :: continuation.toList ++ guarded ++
          doubleChars fold false (2 + guarded.length) [c] rest
      else doubleChars fold false column (c :: held) rest
    else
      let shown := held.reverse ++ escaped c
      let column := column + shown.length
      if mayFold && column > bestWidth + 1 then
        let guarded := if rest.head? == some ' ' then ['\\'] else []
        shown ++ '\\' :: continuation.toList ++ guarded ++
          doubleChars fold false (2 + guarded.length) [] rest
      else shown ++ doubleChars fold false column [] rest

/-- Plain words, folded at single blanks; `afterBlank` says that the last character was one. -/
def plainChars (fold afterBlank : Bool) (column : Nat) : List Char → List Char
  | [] => []
  | c :: rest =>
    if c == ' ' && fold && !afterBlank && column > bestWidth && rest.head?.any (· != ' ') then
      continuation.toList ++ plainChars fold false 2 rest
    else c :: plainChars fold (c == ' ') (column + 1) rest

/-- The characters of a single-quoted scalar after the character `previous`: an apostrophe is
written twice, a run of line feeds has one more of them, and lines are folded at single blanks. -/
def singleChars (fold : Bool) (column : Nat) (previous : Option Char) : List Char → List Char
  | [] => []
  | c :: rest =>
    if c == '\n' then
      let shown := if previous == some '\n' then ['\n'] else ['\n', '\n']
      if rest.head? == some '\n' then shown ++ singleChars fold 0 (some c) rest
      else shown ++ ' ' :: ' ' :: singleChars fold 2 (some c) rest
    else if c == ' ' && fold && column > bestWidth && previous.any (· != ' ')
        && rest.head?.any (· != ' ') then
      continuation.toList ++ singleChars fold 2 (some c) rest
    else if c == '\'' then '\'' :: '\'' :: singleChars fold (column + 2) (some c) rest
    else c :: singleChars fold (column + 1) (some c) rest

def scalarText (isKey fold : Bool) (column : Nat) (text : String) : String :=
  let cs := text.toList
  let t := traits cs
  if !cs.isEmpty && t.plain && !isSpecial text then String.ofList (plainChars fold false column cs)
  else if t.singleQuoted && !(isKey && t.multiline) then
    "'" ++ String.ofList (singleChars fold (column + 1) none cs) ++ "'"
  else "\"" ++ String.ofList (doubleChars fold true (column + 1) [] cs) ++ "\""

/-- A double: its full text, with a point in front of the exponent. -/
def floatText (x : Float) : String :=
  let cs := (Number.fullText x).toList
  if cs.contains '.' || !cs.contains 'e' then String.ofList cs
  else
    String.ofList (cs.takeWhile (· != 'e') ++ ['.', '0'] ++ cs.dropWhile (· != 'e'))

/-- A datum as a scalar that begins in a column. Lists and dictionaries are none. -/
def datumText (isKey fold : Bool) (column : Nat) : Datum → String
  | .null => "null"
  | .bool b => if b then "true" else "false"
  | .int n => Number.intText n
  | .float x => floatText x
  | .text s => scalarText isKey fold column s
  | .list _ => "[]"
  | .dict _ => "\x7b\x7d"

/-- Keys from this length on, and empty ones, do not stand in front of their value. -/
def keyLimit : Nat := 123

/-- Whether a key stands in front of its value on one line. -/
def isSimpleKey : Datum → Bool
  | .text s => !s.isEmpty && !(s.toList.any isBreak) && s.length < keyLimit
  | _ => true

def entryText (key value : Datum) : String :=
  if isSimpleKey key then
    let key := datumText true false 0 key
    key ++ ": " ++ datumText false true (key.length + 2) value
  else "? " ++ datumText false true 2 key ++ "\n: " ++ datumText false true 2 value

/-- A mapping of scalars, one entry after the other. -/
def write (entries : List (Datum × Datum)) : String :=
  if entries.isEmpty then "\x7b\x7d"
  else "\n".intercalate (entries.map fun (key, value) => entryText key value)

end Treewalk.Yaml
