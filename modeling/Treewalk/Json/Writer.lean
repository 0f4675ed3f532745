import Treewalk.Datum

/-! # Writing JSON text

On one line items are separated by `", "`; with an indentation every item has a line of its own.
Characters outside ASCII are escaped by their UTF-16 units.
-/

namespace Treewalk.Json

def unitEscape (n : Nat) : List Char := '\\' :: 'u' :: Text.hex 4 n

def stringChar (c : Char) : List Char :=
  let n := c.toNat
  if c = '"' then ['\\', '"']
  else if c = '\\' then ['\\', '\\']
  else if c = '\n' then ['\\', 'n']
  else if c = '\r' then ['\\', 'r']
  else if c = '\t' then ['\\', 't']
  else if n = 8 then ['\\', 'b']
  else if n = 12 then ['\\', 'f']
  else if 0x20 ≤ n ∧ n < 0x7F then [c]
  else if n < 0x10000 then unitEscape n
  else
    let m := n - 0x10000
    unitEscape (0xD800 + m / 0x400) ++ unitEscape (0xDC00 + m % 0x400)

def stringText (s : String) : String :=
  String.ofList ('"' :: s.toList.flatMap stringChar ++ ['"'])

/-- A double; what JSON has no number for is written as a word. -/
def floatText (x : Float) : String :=
  if x.isFinite then Number.fullText x else Number.plainText x

/-- The key of an entry: a text as it is, another scalar by its JSON text. -/
def keyText : Datum → String
  | .text s => stringText s
  | .null => "\"null\""
  | .bool b => if b then "\"true\"" else "\"false\""
  | .int n => "\"" ++ Number.intText n ++ "\""
  | .float x => "\"" ++ floatText x ++ "\""
  | _ => "\"\""

/-- Parts between brackets. Without an indentation they stand on one line; with one, each has its
own line, `width` blanks further in than the brackets, which stand at `level` times that. -/
def enclose (indent : Option Nat) (level : Nat) (openText closeText : String)
    (parts : List String) : String :=
  if parts.isEmpty then openText ++ closeText
  else
    match indent with
    | none => openText ++ ", ".intercalate parts ++ closeText
    | some width =>
      let inner := "\n" ++ Number.copies (width * (level + 1)) ' '
      let outer := "\n" ++ Number.copies (width * level) ' '
      openText ++ inner ++ ("," ++ inner).intercalate parts ++ outer ++ closeText

mutual

/-- The text of a datum that stands inside `level` others. -/
def writeAt (indent : Option Nat) (level : Nat) : Datum → String
  | .null => "null"
  | .bool b => if b then "true" else "false"
  | .int n => Number.intText n
  | .float x => floatText x
  | .text s => stringText s
  | .list items => enclose indent level "[" "]" (itemTexts indent (level + 1) items)
  | .dict entries => enclose indent level "\x7b" "\x7d" (entryTexts indent (level + 1) entries)

def itemTexts (indent : Option Nat) (level : Nat) : List Datum → List String
  | [] => []
  | d :: rest => writeAt indent level d :: itemTexts indent level rest

def entryTexts (indent : Option Nat) (level : Nat) : List (Datum × Datum) → List String
  | [] => []
  | (key, d) :: rest =>
    (keyText key ++ ": " ++ writeAt indent level d) :: entryTexts indent level rest

end

def write (indent : Option Nat) (d : Datum) : String := writeAt indent 0 d

end Treewalk.Json
