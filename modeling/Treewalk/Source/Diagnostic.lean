import Treewalk.Source.Span

/-! # Diagnostics

A diagnostic is the report of one error: a header line, the source line with a row of carets under
the place, and hints.
-/

namespace Treewalk

structure Diagnostic where
  code : String
  message : String
  span : Option Span := none
  sourceLine : Option String := none
  hints : List String := []
  deriving Repr, Inhabited

namespace Diagnostic

/-- `location: error[code]: message`. -/
def header (d : Diagnostic) : String :=
  let place := match d.span with
    | some span => span.start.text ++ ": "
    | none => ""
  place ++ "error[" ++ d.code ++ "]: " ++ d.message

/-- Number of carets under a source line: the columns of the span on its first line, at least
one. -/
def caretCount (line : String) (span : Span) : Nat :=
  let endColumn := if span.start.line = span.stop.line then span.stop.column else line.length + 1
  max 1 (endColumn - span.start.column).toNat

/-- The line number, at least three characters wide. -/
def gutter (number : Int) : String :=
  let text := Number.intText number
  Number.copies (3 - text.length) ' ' ++ text

def sourceRows (line : String) (span : Span) : List String :=
  [ "  |",
    gutter span.start.line ++ " | " ++ line,
    "    | " ++ Number.copies (span.start.column - 1).toNat ' '
      ++ Number.copies (caretCount line span) '^' ]

/-- The report; the source rows need a source line and a span. -/
def format (showSource : Bool) (d : Diagnostic) : String :=
  let rows := match d.sourceLine, d.span with
    | some line, some span => if showSource then sourceRows line span else []
    | _, _ => []
  "\n".intercalate (d.header :: rows ++ d.hints.map ("    = hint: " ++ ·))

def text (d : Diagnostic) : String := d.format true

end Diagnostic

end Treewalk
