import Treewalk.Program.Node

/-! # The outline of a program

The outline lists the nodes of a program, a node before its parts and parts in their order, each
with its span.
-/

namespace Treewalk.Outline

mutual

def ofExpr : Expr → List (Label × Option Span)
  | .number span _ => [(.number, span)]
  | .boolean span _ => [(.boolean, span)]
  | .variable span _ => [(.variable, span)]
  | .binary span _ left right => (.binary, span) :: ofExpr left ++ ofExpr right
  | .function span _ body => (.function, span) :: ofStmts body
  | .call span _ arguments => (.call, span) :: ofExprs arguments
  | .malformed _ => []

def ofStmt : Stmt → List (Label × Option Span)
  | .declare span _ value => (.declare, span) :: ofExpr value
  | .assign span _ value => (.assign, span) :: ofExpr value
  | .branch span test thenPart elsePart =>
    (.branch, span) :: ofExpr test ++ ofStmts thenPart ++ ofStmts elsePart
  | .loop span test body => (.loop, span) :: ofExpr test ++ ofStmts body
  | .print span value => (.print, span) :: ofExpr value
  | .discard span value => (.discard, span) :: ofExpr value
  | .give span value => (.give, span) :: ofExpr value
  | .malformed _ => []

def ofStmts : List Stmt → List (Label × Option Span)
  | [] => []
  | s :: rest => ofStmt s ++ ofStmts rest

def ofExprs : List Expr → List (Label × Option Span)
  | [] => []
  | e :: rest => ofExpr e ++ ofExprs rest

end

def text : Label × Option Span → String
  | (label, some span) => label.name ++ " " ++ span.text
  | (label, none) => label.name ++ " None"

end Treewalk.Outline
