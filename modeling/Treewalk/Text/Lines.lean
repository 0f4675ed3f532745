/-! # Lines of a text

Two notions of line are in use. Line *numbers* of positions count line feeds only. The *shown* line
of a diagnostic is taken from the text cut at every line boundary of Unicode. Files are read with
`\r\n` and `\r` turned into line feeds.
-/

namespace Treewalk.Text

/-- The characters that end a shown line; `\r\n` counts as one of them. -/
def isLineBreak (c : Char) : Bool :=
  let n := c.toNat
  (0x0A ≤ n && n ≤ 0x0D) || (0x1C ≤ n && n ≤ 0x1E) || n == 0x85 || n == 0x2028 || n == 0x2029

/-- Cuts characters at line breaks; `current` holds the line being read, backwards. A break at the
very end opens no further line. -/
def cutLines (current : List Char) : List Char → List (List Char)
  | [] => if current.isEmpty then [] else [current.reverse]
  | '\r' :: '\n' :: rest => current.reverse :: cutLines [] rest
  | c :: rest =>
    if isLineBreak c then current.reverse :: cutLines [] rest else cutLines (c :: current) rest

def shownLines (text : String) : List String :=
  (cutLines [] text.toList).map String.ofList

/-- The shown line with a number counted from one, if there is one. -/
def shownLine? (text : String) (number : Int) : Option String :=
  if 1 ≤ number then (shownLines text)[(number - 1).toNat]? else none

/-- Turns `\r\n` and `\r` into line feeds. -/
def unifyBreaks : List Char → List Char
  | [] => []
  | '\r' :: '\n' :: rest => '\n' :: unifyBreaks rest
  | c :: rest => (if c = '\r' then '\n' else c) :: unifyBreaks rest

end Treewalk.Text
