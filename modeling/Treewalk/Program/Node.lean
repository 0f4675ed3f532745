import Treewalk.Number.Reader
import Treewalk.Program.Basic

/-! # Loosely built trees

A tree can be put together by hand, with anything in any place. `Node` is such a tree: labelled
nodes, and in their fields nodes, lists, operators, data and foreign things. `Node.toStmt` and
`Node.toExpr` make of it what a run sees, with a malformed place where a run would get stuck.
-/

namespace Treewalk

inductive Label where
  | number | boolean | variable | binary | function | call
  | declare | assign | branch | loop | print | discard | give
  deriving DecidableEq, Repr, Inhabited

namespace Label

def name : Label → String
  | number => "NumberLiteral"
  | boolean => "BooleanLiteral"
  | .variable => "Variable"
  | binary => "BinaryOp"
  | function => "FunctionLiteral"
  | call => "Call"
  | declare => "Let"
  | assign => "Assignment"
  | branch => "If"
  | loop => "While"
  | print => "Print"
  | discard => "ExpressionStatement"
  | give => "Return"

def fieldNames : Label → List String
  | number => ["value"]
  | boolean => ["value"]
  | .variable => ["name"]
  | binary => ["operator", "left", "right"]
  | function => ["parameters", "body"]
  | call => ["callee", "arguments"]
  | declare => ["name", "expression"]
  | assign => ["name", "expression"]
  | branch => ["test", "true_part", "false_part"]
  | loop => ["test", "body"]
  | print => ["expression"]
  | discard => ["expression"]
  | give => ["expression"]

def all : List Label :=
  [number, boolean, .variable, binary, function, call, declare, assign, branch, loop, print,
    discard, give]

def ofName? (text : String) : Option Label := all.find? (·.name == text)

end Label

inductive Node where
  | datum (value : Datum)
  | operator (operator : Operator)
  /-- A thing of another type, known by the name of its type and its literal. -/
  | foreign (typeName literal : String)
  | list (items : List Node)
  | node (label : Label) (fields : List Node)
  deriving Inhabited

namespace Node

def typeName : Node → String
  | datum d => d.typeName
  | operator _ => "BinaryOperator"
  | foreign typeName _ => typeName
  | list _ => "list"
  | node label _ => label.name

/-- What a walk over nodes says about one that it has no rule for. -/
def unvisitedMessage (n : Node) : String := "No visitor for " ++ n.typeName

def operatorLiteral (o : Operator) : String :=
  "<BinaryOperator." ++ o.label ++ ": '" ++ o.spelling ++ "'>"

mutual

def literal : Node → String
  | datum d => d.literal
  | operator o => operatorLiteral o
  | foreign _ literal => literal
  | list items => "[" ++ ", ".intercalate (literals items) ++ "]"
  | node label fields =>
    label.name ++ "(" ++ ", ".intercalate (fieldLiterals label.fieldNames fields) ++ ")"

def literals : List Node → List String
  | [] => []
  | n :: rest => literal n :: literals rest

def fieldLiterals : List String → List Node → List String
  | name :: names, n :: rest => (name ++ "=" ++ literal n) :: fieldLiterals names rest
  | _, _ => []

end

def truthy : Node → Bool
  | datum d => d.truthy
  | list items => !items.isEmpty
  | _ => true

/-- The data that a datum is made of when it is gone through item by item: the items of a list, the
keys of a dictionary, the characters of a text. -/
def itemsOf? : Datum → Option (List Datum)
  | .list items => some items
  | .dict entries => some (entries.map (·.1))
  | .text s => some (s.toList.map fun c => .text (String.ofList [c]))
  | _ => none

mutual

/-- The datum that stands in a place, if nothing but data does. -/
def datum? : Node → Option Datum
  | datum d => some d
  | list items => (data? items).map .list
  | _ => none

def data? : List Node → Option (List Datum)
  | [] => some []
  | n :: rest => do
    let d ← datum? n
    let ds ← data? rest
    some (d :: ds)

end

/-- The name in the place of a name. An operator is named by its spelling; what can be no name is a
list, which cannot be looked up. -/
def toName : Node → Name
  | operator o => .text o.spelling
  | foreign _ literal => .text literal
  | n => (n.datum?).getD (.list [])

/-- The parameters in the place of parameters, if there are items there. -/
def toParameters? : Node → Option (List Name)
  | list items => some (items.map toName)
  | datum d => itemsOf? d
  | _ => none

def toNumber : Node → Except Malformed Float
  | datum (.float x) => .ok x
  | datum (.bool b) => .ok (if b then 1 else 0)
  | datum (.int n) =>
    match Number.ofInt? n with
    | some x => .ok x
    | none => .error .outOfRange
  | datum (.text s) =>
    match Number.ofText? s with
    | some x => .ok x
    | none => .error (.notNumeric s)
  | _ => .error .notANumber

def badOperator : Node → Malformed
  | datum d =>
    match d.key? with
    | some _ => .unknown (.text ("operator " ++ d.plain))
    | none => .notAKey
  | foreign _ literal => .unknown (.text ("operator " ++ literal))
  | _ => .notAKey

mutual

def toExpr : Node → Expr
  | node .number [value] =>
    match toNumber value with
    | .ok x => .number none x
    | .error reason => .malformed reason
  | node .boolean [value] => .boolean none value.truthy
  | node .variable [name] => .variable none name.toName
  | node .binary [operator o, left, right] => .binary none o (toExpr left) (toExpr right)
  | node .binary [other, _, _] => .malformed (badOperator other)
  | node .function [parameters, body] =>
    match toParameters? parameters with
    | some names => .function none names (toBlock body)
    | none => .malformed .notAList
  | node .call [callee, arguments] => .call none callee.toName (toArguments arguments)
  | other => .malformed (.unknown (.text other.typeName))

def toStmt : Node → Stmt
  | node .declare [name, value] => .declare none name.toName (toExpr value)
  | node .assign [name, value] => .assign none name.toName (toExpr value)
  | node .branch [test, thenPart, elsePart] =>
    .branch none (toExpr test) (toBlock thenPart) (toBlock elsePart)
  | node .loop [test, body] => .loop none (toExpr test) (toBlock body)
  | node .print [value] => .print none (toExpr value)
  | node .discard [value] => .discard none (toExpr value)
  | node .give [value] => .give none (toExpr value)
  | other => .malformed (.unknown (.text other.typeName))

def toBlock : Node → List Stmt
  | list items => toStmts items
  | datum d =>
    match itemsOf? d with
    | some ds => ds.map fun d => .malformed (.unknown (.text d.typeName))
    | none => [.malformed .notAList]
  | _ => [.malformed .notAList]

def toStmts : List Node → List Stmt
  | [] => []
  | n :: rest => toStmt n :: toStmts rest

def toArguments : Node → List Expr
  | list items => toExprs items
  | datum d =>
    match itemsOf? d with
    | some ds => ds.map fun d => .malformed (.unknown (.text d.typeName))
    | none => [.malformed .notAList]
  | _ => [.malformed .notAList]

def toExprs : List Node → List Expr
  | [] => []
  | n :: rest => toExpr n :: toExprs rest

end

/-- A list of texts and other names. -/
def ofNames (names : List Name) : Node := list (names.map datum)

mutual

def ofExpr : Expr → Node
  | .number _ value => node .number [datum (.float value)]
  | .boolean _ value => node .boolean [datum (.bool value)]
  | .variable _ name => node .variable [datum name]
  | .binary _ o left right => node .binary [operator o, ofExpr left, ofExpr right]
  | .function _ parameters body => node .function [ofNames parameters, list (ofStmts body)]
  | .call _ callee arguments => node .call [datum callee, list (ofExprs arguments)]
  | .malformed _ => datum .null

def ofStmt : Stmt → Node
  | .declare _ name value => node .declare [datum name, ofExpr value]
  | .assign _ name value => node .assign [datum name, ofExpr value]
  | .branch _ test thenPart elsePart =>
    node .branch [ofExpr test, list (ofStmts thenPart), list (ofStmts elsePart)]
  | .loop _ test body => node .loop [ofExpr test, list (ofStmts body)]
  | .print _ value => node .print [ofExpr value]
  | .discard _ value => node .discard [ofExpr value]
  | .give _ value => node .give [ofExpr value]
  | .malformed _ => datum .null

def ofStmts : List Stmt → List Node
  | [] => []
  | s :: rest => ofStmt s :: ofStmts rest

def ofExprs : List Expr → List Node
  | [] => []
  | e :: rest => ofExpr e :: ofExprs rest

end

mutual

/-- The number of nodes inside each other. -/
def nesting : Node → Nat
  | list items => nestings items
  | node _ fields => nestings fields + 1
  | _ => 0

def nestings : List Node → Nat
  | [] => 0
  | n :: rest => max (nesting n) (nestings rest)

end

/-- Nodes that may stand inside each other where a tree is written or compared and nothing else is
said. -/
def depthLimit : Nat := 900

mutual

/-- Equality of trees; data are compared as data. -/
def same : Node → Node → Bool
  | datum a, datum b => a.same b
  | operator a, operator b => a == b
  | foreign a b, foreign c d => a == c && b == d
  | list as, list bs => sameAll as bs
  | list as, datum (.list ds) => sameAll as (ds.map datum)
  | node a as, node b bs => a == b && sameAll as bs
  | _, _ => false

def sameAll : List Node → List Node → Bool
  | [], [] => true
  | a :: as, b :: bs => same a b && sameAll as bs
  | _, _ => false

end

end Node

def Program.toNodes (program : Program) : List Node := Node.ofStmts program

def Program.ofNodes (nodes : List Node) : Program := Node.toStmts nodes

end Treewalk
