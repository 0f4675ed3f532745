import Treewalk.Evaluation.State

/-! # The rules of evaluation

`evalStep` and `execStep` say what one expression or statement does, given how its parts are
evaluated and executed. `eval` and `exec` apply the rules to themselves, up to a nesting depth.
-/

namespace Treewalk

namespace Rules

def evalAll (eval : Expr → Eval Value) : List Expr → Eval (List Value)
  | [] => pure []
  | e :: rest => do
    let value ← eval e
    let values ← evalAll eval rest
    pure (value :: values)

/-- Executes statements up to and including the first that returns. -/
def sequence (exec : Stmt → Eval Unit) : List Stmt → Eval Unit
  | [] => pure ()
  | stmt :: rest => do
    exec stmt
    Eval.unlessReturning (sequence exec rest)

def arithmetic (operator : Operator) (a b : Float) : Except RuntimeError Value :=
  match operator with
  | .add => .ok (.number (a + b))
  | .subtract => .ok (.number (a - b))
  | .multiply => .ok (.number (a * b))
  | .divide => if b == 0 then .error .divisionByZero else .ok (.number (a / b))
  | .less => .ok (.boolean (a < b))
  | _ => .ok (.boolean (b < a))

/-- What an arithmetic operator or comparison does with two values: both have to be numbers. -/
def operate (operator : Operator) : Value → Value → Except RuntimeError Value
  | .number x, .number y => arithmetic operator x y
  | a, b => .error (.operandsNotNumbers operator a.kind b.kind)

/-- A logical operator: the right operand is left alone if the left one decides, and its value is
not checked if it is needed. -/
def logical (operator : Operator) (decides : Bool) (left right : Eval Value) : Eval Value := do
  match ← left with
  | .boolean b => if b = decides then pure (.boolean b) else right
  | v => Eval.fail (.operandNotBoolean operator v.kind)

/-- A binary operator on two operands that are evaluated from left to right. -/
def binary (operator : Operator) (left right : Eval Value) : Eval Value :=
  match operator with
  | .and => logical .and false left right
  | .or => logical .or true left right
  | .strictEqual => do
    let a ← left
    let b ← right
    pure (.boolean (a.strictEquals b))
  | _ => do
    let a ← left
    let b ← right
    Eval.ofExcept (operate operator a b)

/-- Binds parameters in a frame, the last of equal ones winning. -/
def bindAll (frame : FrameId) : List (Name × Value) → Eval Unit
  | [] => pure ()
  | (name, value) :: rest => do
    let _ ← Eval.keyOf name
    Eval.onStore (·.set frame name value)
    bindAll frame rest

/-- Runs the body of a closure on some arguments, in a fresh child of the frame that the closure was
made in. Yields nothing if the body does not return. -/
def invoke (exec : Stmt → Eval Unit) (callee : Name) (closure : Closure) (values : List Value) :
    Eval (Option Value) := do
  let frame ← Eval.newFrame ("call:" ++ callee.plain) closure.frame
  bindAll frame (closure.parameters.zip values)
  Eval.record (.called callee values)
  Eval.within frame 1 (sequence exec closure.body)
  Eval.takePending

/-- A call by name. The arguments are evaluated in the caller's frame. Yields nothing if the body
does not return. -/
def call (eval : Expr → Eval Value) (exec : Stmt → Eval Unit) (callee : Name)
    (arguments : List Expr) : Eval (Option Value) := do
  match ← Eval.lookup callee with
  | .function id =>
    match (← get).store.closures[id]? with
    | none => Eval.fail (.undefinedVariable callee)
    | some closure =>
      if arguments.length ≠ closure.parameters.length then
        Eval.fail (.arityMismatch callee closure.parameters.length arguments.length)
      else
        let values ← evalAll eval arguments
        invoke exec callee closure values
  | v => Eval.fail (.notCallable callee v.kind)

def evalStep (eval : Expr → Eval Value) (exec : Stmt → Eval Unit) : Expr → Eval Value
  | .number _ value => pure (.number value)
  | .boolean _ value => pure (.boolean value)
  | .variable _ name => Eval.lookup name
  | .binary _ operator left right => binary operator (eval left) (eval right)
  | .function _ parameters body => Eval.newClosure parameters body
  | .call _ callee arguments => do
    match ← call eval exec callee arguments with
    | some value => pure value
    | none => Eval.fail (.missingReturnValue callee)
  | .malformed reason => throw reason.inExpression

/-- A loop: each iteration tests first and then runs the body, until the test fails or the body
returns. -/
def loop (test : Eval Value) (body : Eval Unit) : (iterations : Nat) → Eval Unit
  | 0 => throw .unfinished
  | iterations + 1 => do
    match ← test with
    | .boolean true =>
      body
      Eval.unlessReturning (loop test body iterations)
    | .boolean false => pure ()
    | v => Eval.fail (.nonBooleanCondition .loop v.kind)

/-- Binds a name in the current frame. A closure without a name takes it. -/
def bindHere (name : Name) (v : Value) : Eval Unit := do
  let frame := (← get).context.frame
  Eval.onStore fun store => (store.nameValue name v).set frame name v
  Eval.record (.declared name v)

/-- Declares a name in the current frame, which must not bind it yet. -/
def declare (name : Name) (value : Eval Value) : Eval Unit := do
  let key ← Eval.keyOf name
  let s ← get
  if s.store.hasLocal s.context.frame key then Eval.fail (.duplicateDeclaration name)
  else
    let v ← value
    bindHere name v

/-- Gives a new value to the innermost visible variable of a name. -/
def assign (name : Name) (value : Eval Value) : Eval Unit := do
  let key ← Eval.keyOf name
  let s ← get
  match s.store.find? s.context.frame key with
  | none => Eval.fail (.assignmentToUndeclared name)
  | some target =>
    let v ← value
    Eval.onStore (·.set target name v)

/-- Starts the return of a value, which only a call can end. -/
def give (value : Eval Value) : Eval Unit := do
  if (← get).context.callDepth = 0 then Eval.fail .returnOutsideFunction
  else
    let v ← value
    Eval.signal v

def execStep (iterations : Nat) (eval : Expr → Eval Value) (exec : Stmt → Eval Unit) :
    Stmt → Eval Unit
  | .declare _ name value => declare name (eval value)
  | .assign _ name value => assign name (eval value)
  | .branch _ test thenPart elsePart => do
    match ← eval test with
    | .boolean true => Eval.inChild "if-then" (sequence exec thenPart)
    | .boolean false => Eval.inChild "if-else" (sequence exec elsePart)
    | v => Eval.fail (.nonBooleanCondition .branch v.kind)
  | .loop _ test body =>
    loop (eval test) (Eval.inChild "while-body" (sequence exec body)) iterations
  | .print _ value => do
    let v ← eval value
    Eval.record (.printing v)
    Eval.emit v
  | .discard _ (.call _ callee arguments) => do
    let _ ← call eval exec callee arguments
  | .discard _ value => do
    let _ ← eval value
  | .give _ value => give (eval value)
  | .malformed reason => throw reason.inStatement

end Rules

structure Limits where
  /-- Expressions and statements that may be evaluated inside each other. -/
  depth : Nat
  /-- Iterations of one loop. -/
  iterations : Nat
  deriving Repr, Inhabited

def Limits.standard : Limits := ⟨1000, Nat.pow 10 15⟩

mutual

/-- Evaluates an expression nested less deeply than the limit. -/
def eval (iterations : Nat) : (depth : Nat) → Expr → Eval Value
  | 0, _ => throw .tooDeep
  | depth + 1, e => Rules.evalStep (eval iterations depth) (exec iterations depth) e

/-- Executes a statement nested less deeply than the limit. -/
def exec (iterations : Nat) : (depth : Nat) → Stmt → Eval Unit
  | 0, _ => throw .tooDeep
  | depth + 1, s => Rules.execStep iterations (eval iterations depth) (exec iterations depth) s

end

end Treewalk
