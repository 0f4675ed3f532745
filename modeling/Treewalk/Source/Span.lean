import Treewalk.Number.Written

/-! # Positions in a source text -/

namespace Treewalk

/-- A position: line and column count from one, the offset counts characters from zero. -/
structure Location where
  line : Int := 1
  column : Int := 1
  offset : Nat := 0
  file : Option String := none
  deriving DecidableEq, Repr, Inhabited

namespace Location

/-- The position one character further. Only a line feed opens a new line. -/
def step (loc : Location) (c : Char) : Location :=
  if c = '\n' then { loc with line := loc.line + 1, column := 1, offset := loc.offset + 1 }
  else { loc with column := loc.column + 1, offset := loc.offset + 1 }

def advance (loc : Location) (cs : List Char) : Location := cs.foldl step loc

/-- The file name and a colon; nothing for a text without a name. -/
def filePart (loc : Location) : String :=
  match loc.file with
  | some name => if name.isEmpty then "" else name ++ ":"
  | none => ""

/-- `line:column`. -/
def point (loc : Location) : String :=
  Number.intText loc.line ++ ":" ++ Number.intText loc.column

/-- `file:line:column`. -/
def text (loc : Location) : String := loc.filePart ++ loc.point

end Location

/-- The characters from `start` up to but excluding `stop`. -/
structure Span where
  start : Location
  stop : Location
  deriving DecidableEq, Repr, Inhabited

/-- `file:line:column-line:column`. -/
def Span.text (s : Span) : String := s.start.text ++ "-" ++ s.stop.point

end Treewalk
