import Treewalk.Evaluation.Value
import Treewalk.Source.Diagnostic

/-! # Errors of a run -/

namespace Treewalk

inductive Conditional where
  | branch | loop
  deriving DecidableEq, Repr, Inhabited

/-- The word that opens a conditional statement. -/
def Conditional.text : Conditional → String
  | branch => "if"
  | loop => "while"

inductive RuntimeError where
  | unknownExpression (kind : Datum)
  | unknownStatement (kind : Datum)
  | undefinedVariable (name : Name)
  | duplicateDeclaration (name : Name)
  | assignmentToUndeclared (name : Name)
  /-- The left operand of a logical operator is no truth value. -/
  | operandNotBoolean (operator : Operator) (left : Value.Kind)
  /-- An operand of an arithmetic operator or comparison is no number. -/
  | operandsNotNumbers (operator : Operator) (left right : Value.Kind)
  | divisionByZero
  | nonBooleanCondition (statement : Conditional) (kind : Value.Kind)
  | notCallable (name : Name) (kind : Value.Kind)
  | arityMismatch (name : Name) (expected got : Nat)
  | missingReturnValue (name : Name)
  | returnOutsideFunction
  | recursionLimitExceeded
  deriving Inhabited

/-- What messages call the operators that need numbers. -/
def Operator.category : Operator → String
  | less | greater => "comparison"
  | _ => "arithmetic"

namespace RuntimeError

def code : RuntimeError → String
  | unknownExpression _ => "E201"
  | unknownStatement _ => "E202"
  | undefinedVariable _ => "E401"
  | duplicateDeclaration _ => "E402"
  | assignmentToUndeclared _ => "E403"
  | operandNotBoolean .. => "E404"
  | operandsNotNumbers .. => "E404"
  | divisionByZero => "E405"
  | nonBooleanCondition .. => "E406"
  | notCallable .. => "E407"
  | arityMismatch .. => "E408"
  | missingReturnValue _ => "E409"
  | returnOutsideFunction => "E410"
  | recursionLimitExceeded => "E411"

def message : RuntimeError → String
  | unknownExpression kind => "unknown expression: " ++ kind.plain
  | unknownStatement kind => "unknown statement: " ++ kind.plain
  | undefinedVariable name => "undefined variable: " ++ name.plain
  | duplicateDeclaration name => "duplicate variable declaration: " ++ name.plain
  | assignmentToUndeclared name => "assignment to undeclared variable: " ++ name.plain
  | operandNotBoolean operator _ => "left operand of " ++ operator.spelling ++ " must be boolean"
  | operandsNotNumbers operator left right =>
    operator.category ++ " operations require numbers, got " ++ left.text ++ " and " ++ right.text
  | divisionByZero => "division by zero"
  | nonBooleanCondition statement kind =>
    statement.text ++ " condition must evaluate to a boolean, got " ++ kind.text
  | notCallable name kind => "'" ++ name.plain ++ "' is not a function, got " ++ kind.text
  | arityMismatch name expected got =>
    "'" ++ name.plain ++ "' expects " ++ Number.natText expected ++ " argument(s), got "
      ++ Number.natText got
  | missingReturnValue name => "'" ++ name.plain ++ "' finished without returning a value"
  | returnOutsideFunction => "return statement outside of a function"
  | recursionLimitExceeded => "maximum recursion depth exceeded"

def hints : RuntimeError → List String
  | unknownExpression _ => ["the parser and evaluator disagree on the AST schema"]
  | unknownStatement _ => ["the parser and evaluator disagree on the AST schema"]
  | duplicateDeclaration name => ["use '" ++ name.plain ++ " = ...' to change an existing variable"]
  | assignmentToUndeclared name => ["declare it first with 'let " ++ name.plain ++ " = ...'"]
  | recursionLimitExceeded =>
    ["check for unbounded recursion or split very long expressions"]
  | _ => []

/-- The report of a runtime error, which has no place in a source. -/
def diagnostic (e : RuntimeError) : Diagnostic :=
  { code := e.code, message := e.message, hints := e.hints }

end RuntimeError

inductive Failure where
  | error (error : RuntimeError)
  /-- The tree holds something that cannot be run. -/
  | malformed (reason : Malformed)
  /-- Nested beyond the depth limit. -/
  | tooDeep
  /-- A loop went on beyond the allowed number of iterations. -/
  | unfinished
  deriving Inhabited

def Malformed.inExpression : Malformed → Failure
  | unknown kind => .error (.unknownExpression kind)
  | reason => .malformed reason

def Malformed.inStatement : Malformed → Failure
  | unknown kind => .error (.unknownStatement kind)
  | reason => .malformed reason

end Treewalk
