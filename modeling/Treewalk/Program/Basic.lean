import Treewalk.Datum
import Treewalk.Source.Span

/-! # Programs

A program is a list of statements. Nodes that were parsed carry the span of their text; nodes built
in another way carry none. A tree that was put together from foreign data may have places that
cannot be run: such a place is `malformed`, with the reason that is reported once a run reaches it.
-/

namespace Treewalk

inductive Operator where
  | add | subtract | multiply | divide | and | or | greater | less | strictEqual
  deriving DecidableEq, Repr, Inhabited

namespace Operator

def spelling : Operator → String
  | add => "+"
  | subtract => "-"
  | multiply => "*"
  | divide => "/"
  | and => "&&"
  | or => "||"
  | greater => ">"
  | less => "<"
  | strictEqual => "==="

def label : Operator → String
  | add => "ADD"
  | subtract => "SUBTRACT"
  | multiply => "MULTIPLY"
  | divide => "DIVIDE"
  | and => "AND"
  | or => "OR"
  | greater => "GREATER"
  | less => "LESS"
  | strictEqual => "STRICT_EQUAL"

def all : List Operator :=
  [add, subtract, multiply, divide, and, or, greater, less, strictEqual]

def ofSpelling? (text : String) : Option Operator := all.find? (·.spelling == text)

end Operator

inductive Malformed where
  /-- No node of the expected sort; the datum names what stands there instead. -/
  | unknown (kind : Datum)
  /-- A text in the place of a number that is no number. -/
  | notNumeric (text : String)
  /-- Neither a number nor a text in the place of a number. -/
  | notANumber
  /-- An integer beyond the finite numbers. -/
  | outOfRange
  /-- A list or dictionary in the place of a name or operator. -/
  | notAKey
  /-- Something without items in the place of a list. -/
  | notAList
  /-- A text was needed. -/
  | notAText

/-- The message for a text in the place of a number that is no number. -/
def Malformed.notNumericMessage (text : String) : String :=
  "could not convert string to float: " ++ Text.quoted text

mutual

inductive Expr where
  | number (span : Option Span) (value : Float)
  | boolean (span : Option Span) (value : Bool)
  | variable (span : Option Span) (name : Name)
  | binary (span : Option Span) (operator : Operator) (left right : Expr)
  | function (span : Option Span) (parameters : List Name) (body : List Stmt)
  | call (span : Option Span) (callee : Name) (arguments : List Expr)
  | malformed (reason : Malformed)

inductive Stmt where
  | declare (span : Option Span) (name : Name) (value : Expr)
  | assign (span : Option Span) (name : Name) (value : Expr)
  | branch (span : Option Span) (test : Expr) (thenPart elsePart : List Stmt)
  | loop (span : Option Span) (test : Expr) (body : List Stmt)
  | print (span : Option Span) (value : Expr)
  | discard (span : Option Span) (value : Expr)
  | give (span : Option Span) (value : Expr)
  | malformed (reason : Malformed)

end

instance : Inhabited Expr := ⟨.malformed .notAList⟩
instance : Inhabited Stmt := ⟨.malformed .notAList⟩

/-- A program: the statements of its top level. -/
abbrev Program := List Stmt

def Expr.span? : Expr → Option Span
  | number span _ => span
  | boolean span _ => span
  | .variable span _ => span
  | binary span .. => span
  | function span .. => span
  | call span .. => span
  | malformed _ => none

def Stmt.span? : Stmt → Option Span
  | declare span .. => span
  | assign span .. => span
  | branch span .. => span
  | loop span .. => span
  | print span _ => span
  | discard span _ => span
  | give span _ => span
  | malformed _ => none

end Treewalk
