import Treewalk.Evaluation.Error
import Treewalk.Json.Reader
import Treewalk.Json.Writer
import Treewalk.Program.Node

/-! # Programs as JSON

A node is a dictionary with its kind and its parts. Numbers that JSON cannot hold are written as the
texts `Infinity`, `-Infinity` and `NaN`. Decoding checks kinds and operators and trusts the rest: a
missing part is reported when it is needed, and names are taken as they come.
-/

namespace Treewalk

/-- Why a datum is no program, or a tree cannot be written as one. -/
inductive CodecError where
  /-- An unknown kind or operator. -/
  | error (error : RuntimeError)
  /-- A part that has to be there, or a text that has to be known, is missing. -/
  | missing (key : String)
  /-- Something of the wrong sort. -/
  | malformed (reason : Malformed)
  /-- A tree node has something else in the place of an operator. -/
  | notAnOperator
  /-- The datum of a program is no list. -/
  | notAProgram
  /-- The text is no JSON. -/
  | unreadable (error : Json.ReadError)
  /-- Nested beyond the limit. -/
  | tooDeep
  deriving Inhabited

def CodecError.notAProgramMessage : String := "AST JSON must be a list of statements"

namespace Codec

/-- The kind of the node that a datum stands for: its entry `kind`, or the type of what is no
dictionary. -/
def kindOf : Datum → Datum
  | d@(.dict _) => (d.get? "kind").getD .null
  | d => .text d.typeName

/-- A part that has to be there. -/
def part (d : Datum) (key : String) : Except CodecError Datum :=
  match d.get? key with
  | some value => .ok value
  | none => .error (.missing key)

/-- The items of a part that may be missing. -/
def parts (d : Datum) (key : String) : Except CodecError (List Datum) :=
  match d.get? key with
  | none => .ok []
  | some value =>
    match Node.itemsOf? value with
    | some items => .ok items
    | none => .error (.malformed .notAList)

/-- The number that a datum stands for. Of texts only those for non-finite numbers are known. -/
def numberOf : Datum → Except CodecError Float
  | .text "Infinity" => .ok Number.infinity
  | .text "-Infinity" => .ok (-Number.infinity)
  | .text "NaN" => .ok Number.notANumber
  | .text other => .error (.missing other)
  | d => (Node.toNumber (.datum d)).mapError .malformed

def operatorOf (d : Datum) : Except CodecError Operator :=
  let given := (d.get? "operator").getD .null
  match given.key? with
  | none => .error (.malformed .notAKey)
  | some key =>
    let known := match key with
      | .text s => Operator.ofSpelling? s
      | _ => none
    match known with
    | some operator => .ok operator
    | none => .error (.error (.unknownExpression (.text ("operator " ++ given.plain))))

def decodeAll {α : Type} (decode : Datum → Except CodecError α) :
    List Datum → Except CodecError (List α)
  | [] => .ok []
  | d :: rest => do
    let first ← decode d
    let others ← decodeAll decode rest
    .ok (first :: others)

mutual

/-- Decodes an expression nested less deeply than the limit. -/
def decodeExpr : (limit : Nat) → Datum → Except CodecError Expr
  | 0, _ => .error .tooDeep
  | limit + 1, d =>
    match kindOf d with
    | .text "number" => do
      let value ← part d "value"
      let x ← numberOf value
      .ok (.number none x)
    | .text "boolean" => do
      let value ← part d "value"
      .ok (.boolean none value.truthy)
    | .text "variable" => do
      let name ← part d "name"
      .ok (.variable none name)
    | .text "operator" => do
      let operator ← operatorOf d
      let left ← part d "left"
      let left ← decodeExpr limit left
      let right ← part d "right"
      let right ← decodeExpr limit right
      .ok (.binary none operator left right)
    | .text "function" => do
      let parameters ← parts d "parameters"
      let body ← parts d "body"
      let body ← decodeAll (decodeStmt limit) body
      .ok (.function none parameters body)
    | .text "call" => do
      let callee ← part d "callee"
      let arguments ← parts d "arguments"
      let arguments ← decodeAll (decodeExpr limit) arguments
      .ok (.call none callee arguments)
    | kind => .error (.error (.unknownExpression kind))

/-- Decodes a statement nested less deeply than the limit. -/
def decodeStmt : (limit : Nat) → Datum → Except CodecError Stmt
  | 0, _ => .error .tooDeep
  | limit + 1, d =>
    match kindOf d with
    | .text "let" => do
      let name ← part d "name"
      let value ← part d "expression"
      let value ← decodeExpr limit value
      .ok (.declare none name value)
    | .text "assignment" => do
      let name ← part d "name"
      let value ← part d "expression"
      let value ← decodeExpr limit value
      .ok (.assign none name value)
    | .text "if" => do
      let test ← part d "test"
      let test ← decodeExpr limit test
      let thenPart ← parts d "truePart"
      let thenPart ← decodeAll (decodeStmt limit) thenPart
      let elsePart ← parts d "falsePart"
      let elsePart ← decodeAll (decodeStmt limit) elsePart
      .ok (.branch none test thenPart elsePart)
    | .text "while" => do
      let test ← part d "test"
      let test ← decodeExpr limit test
      let body ← parts d "body"
      let body ← decodeAll (decodeStmt limit) body
      .ok (.loop none test body)
    | .text "print" => do
      let value ← part d "expression"
      let value ← decodeExpr limit value
      .ok (.print none value)
    | .text "expression" => do
      let value ← part d "expression"
      let value ← decodeExpr limit value
      .ok (.discard none value)
    | .text "return" => do
      let value ← part d "expression"
      let value ← decodeExpr limit value
      .ok (.give none value)
    | kind => .error (.error (.unknownStatement kind))

end

def record (entries : List (String × Datum)) : Datum :=
  .dict (entries.map fun (key, value) => (.text key, value))

/-- The bound below which integral numbers are written as integers. -/
def integerBound : Nat := Nat.pow 2 53

def numberDatum (x : Float) : Datum :=
  if x.isFinite then
    match Number.toInt? x with
    | some n => if n.natAbs < integerBound then .int n else .float x
    | none => .float x
  else .text (Number.plainText x)

/-- The datum of what stands in the place of a number. Integers stay as they are. -/
def encodeNumber : Node → Except CodecError Datum
  | .datum (.float x) => .ok (numberDatum x)
  | .datum (.bool b) => .ok (.int b.toNat)
  | .datum (.int n) =>
    match Number.ofInt? n with
    | some _ => .ok (.int n)
    | none => .error (.malformed .outOfRange)
  | _ => .error (.malformed .notANumber)

/-- The datum of what stands in a place that is written as it is. -/
def encodePlain (n : Node) : Except CodecError Datum :=
  match n.datum? with
  | some d => .ok d
  | none => .error (.malformed .notAText)

/-- The data of what stands in the place of a list of names. -/
def encodeNames : Node → Except CodecError Datum
  | .list items =>
    match Node.data? items with
    | some ds => .ok (.list ds)
    | none => .error (.malformed .notAText)
  | .datum d =>
    match Node.itemsOf? d with
    | some ds => .ok (.list ds)
    | none => .error (.malformed .notAList)
  | _ => .error (.malformed .notAList)

/-- The failure of finding a datum in the place of a list of nodes: its first item is no node. -/
def encodeForeignItems (unknown : Datum → RuntimeError) (d : Datum) :
    Except CodecError (List Datum) :=
  match Node.itemsOf? d with
  | some [] => .ok []
  | some (first :: _) => .error (.error (unknown (.text first.typeName)))
  | none => .error (.malformed .notAList)

mutual

def encodeExpr : Node → Except CodecError Datum
  | .node .number [value] => do
    let value ← encodeNumber value
    .ok (record [("kind", .text "number"), ("value", value)])
  | .node .boolean [value] => do
    let value ← encodePlain value
    .ok (record [("kind", .text "boolean"), ("value", value)])
  | .node .variable [name] => do
    let name ← encodePlain name
    .ok (record [("kind", .text "variable"), ("name", name)])
  | .node .binary [.operator operator, left, right] => do
    let left ← encodeExpr left
    let right ← encodeExpr right
    .ok (record [("kind", .text "operator"), ("operator", .text operator.spelling),
      ("left", left), ("right", right)])
  | .node .binary [_, _, _] => .error .notAnOperator
  | .node .function [parameters, body] => do
    let parameters ← encodeNames parameters
    let body ← encodeBlock body
    .ok (record [("kind", .text "function"), ("parameters", parameters), ("body", .list body)])
  | .node .call [callee, arguments] => do
    let callee ← encodePlain callee
    let arguments ← encodeArguments arguments
    .ok (record [("kind", .text "call"), ("callee", callee), ("arguments", .list arguments)])
  | other => .error (.error (.unknownExpression (.text other.typeName)))

def encodeStmt : Node → Except CodecError Datum
  | .node .declare [name, value] => do
    let name ← encodePlain name
    let value ← encodeExpr value
    .ok (record [("kind", .text "let"), ("name", name), ("expression", value)])
  | .node .assign [name, value] => do
    let name ← encodePlain name
    let value ← encodeExpr value
    .ok (record [("kind", .text "assignment"), ("name", name), ("expression", value)])
  | .node .branch [test, thenPart, elsePart] => do
    let test ← encodeExpr test
    let thenPart ← encodeBlock thenPart
    let elsePart ← encodeBlock elsePart
    .ok (record [("kind", .text "if"), ("test", test), ("truePart", .list thenPart),
      ("falsePart", .list elsePart)])
  | .node .loop [test, body] => do
    let test ← encodeExpr test
    let body ← encodeBlock body
    .ok (record [("kind", .text "while"), ("test", test), ("body", .list body)])
  | .node .print [value] => do
    let value ← encodeExpr value
    .ok (record [("kind", .text "print"), ("expression", value)])
  | .node .discard [value] => do
    let value ← encodeExpr value
    .ok (record [("kind", .text "expression"), ("expression", value)])
  | .node .give [value] => do
    let value ← encodeExpr value
    .ok (record [("kind", .text "return"), ("expression", value)])
  | other => .error (.error (.unknownStatement (.text other.typeName)))

/-- The data of what stands in the place of a list of statements. -/
def encodeBlock : Node → Except CodecError (List Datum)
  | .list items => encodeStmts items
  | .datum d => encodeForeignItems .unknownStatement d
  | _ => .error (.malformed .notAList)

def encodeStmts : List Node → Except CodecError (List Datum)
  | [] => .ok []
  | n :: rest => do
    let first ← encodeStmt n
    let others ← encodeStmts rest
    .ok (first :: others)

/-- The data of what stands in the place of a list of arguments. -/
def encodeArguments : Node → Except CodecError (List Datum)
  | .list items => encodeExprs items
  | .datum d => encodeForeignItems .unknownExpression d
  | _ => .error (.malformed .notAList)

def encodeExprs : List Node → Except CodecError (List Datum)
  | [] => .ok []
  | n :: rest => do
    let first ← encodeExpr n
    let others ← encodeExprs rest
    .ok (first :: others)

end

/-- Lets through trees that are nested within the limit. -/
def checkNesting (nodes : List Node) (limit : Nat := Node.depthLimit) : Except CodecError Unit :=
  if Node.nestings nodes ≤ limit then .ok () else .error .tooDeep

end Codec

def Expr.ofDatum (d : Datum) (limit : Nat := Json.depthLimit) : Except CodecError Expr :=
  Codec.decodeExpr limit d

def Stmt.ofDatum (d : Datum) (limit : Nat := Json.depthLimit) : Except CodecError Stmt :=
  Codec.decodeStmt limit d

namespace Program

def ofDatum (d : Datum) (limit : Nat := Json.depthLimit) : Except CodecError Program :=
  match d with
  | .list items => Codec.decodeAll (fun d => Stmt.ofDatum d limit) items
  | _ => .error .notAProgram

def ofJson (text : String) (limit : Nat := Json.depthLimit) : Except CodecError Program := do
  let d ← (Json.read text limit).mapError fun
    | .tooDeep => .tooDeep
    | e => .unreadable e
  ofDatum d limit

def nodesToJson (indent : Option Nat) (nodes : List Node) (limit : Nat := Node.depthLimit) :
    Except CodecError String := do
  Codec.checkNesting nodes limit
  let data ← Codec.encodeStmts nodes
  .ok (Json.write indent (.list data))

def toJson (indent : Option Nat) (program : Program) (limit : Nat := Node.depthLimit) :
    Except CodecError String :=
  nodesToJson indent program.toNodes limit

end Program

end Treewalk
