import Treewalk.Evaluation.Run

/-! # The meaning of programs as a relation

The language is lexically scoped, and its meaning can be said without a context that changes. An
expression or statement is run in a scope and takes a world, the store and what was printed, to
another world. An expression ends in a value or a failure. Statements end normally, by returning a
value, or in a failure; a list of them stops at the first that does not end normally. Blocks run in
a fresh child of their scope's frame, the body of a call in a fresh child of the frame that its
closure was made in.
-/

namespace Treewalk

namespace Reference

/-- What running a piece of program changes. -/
structure World where
  store : Store
  printed : Array Value

/-- Where a piece of program is run: its frame, and whether it belongs to the body of a call. -/
structure Scope where
  frame : FrameId
  inCall : Bool

inductive Outcome where
  | normal
  | returned (value : Value)
  | error (failure : Failure)

/-- The result that the left operand of an operator decides on its own, if it does. -/
def decided : Operator → Value → Option (Except Failure Value)
  | .and, .boolean b => if b then none else some (.ok (.boolean false))
  | .or, .boolean b => if b then some (.ok (.boolean true)) else none
  | .and, v => some (.error (.error (.operandNotBoolean .and v.kind)))
  | .or, v => some (.error (.error (.operandNotBoolean .or v.kind)))
  | _, _ => none

def combined : Operator → Value → Value → Except Failure Value
  | .and, _, right => .ok right
  | .or, _, right => .ok right
  | .strictEqual, left, right => .ok (.boolean (left.strictEquals right))
  | operator, left, right => (Rules.operate operator left right).mapError .error

namespace World

/-- The world in which a program starts: one frame without bindings. -/
def initial : World := { store := { frames := #[{ name := "global" }] }, printed := #[] }

def lookup (w : World) (frame : FrameId) (name : Name) : Except Failure Value :=
  match name.key? with
  | none => .error (.malformed .notAKey)
  | some key =>
    match w.store.get? frame key with
    | some value => .ok value
    | none => .error (.error (.undefinedVariable name))

/-- The closure that a call by name with a number of arguments runs. -/
def callee (w : World) (frame : FrameId) (name : Name) (arguments : Nat) :
    Except Failure Closure :=
  match w.lookup frame name with
  | .error failure => .error failure
  | .ok (.function id) =>
    match w.store.closures[id]? with
    | none => .error (.error (.undefinedVariable name))
    | some closure =>
      if arguments ≠ closure.parameters.length then
        .error (.error (.arityMismatch name closure.parameters.length arguments))
      else .ok closure
  | .ok v => .error (.error (.notCallable name v.kind))

def declarable (w : World) (frame : FrameId) (name : Name) : Except Failure Unit :=
  match name.key? with
  | none => .error (.malformed .notAKey)
  | some key =>
    if w.store.hasLocal frame key then .error (.error (.duplicateDeclaration name)) else .ok ()

/-- The innermost frame that binds a name. -/
def target (w : World) (frame : FrameId) (name : Name) : Except Failure FrameId :=
  match name.key? with
  | none => .error (.malformed .notAKey)
  | some key =>
    match w.store.find? frame key with
    | some target => .ok target
    | none => .error (.error (.assignmentToUndeclared name))

/-- Declares a name in a frame; a closure without a name takes it. -/
def declare (w : World) (frame : FrameId) (name : Name) (v : Value) : World :=
  { w with store := (w.store.nameValue name v).set frame name v }

def assign (w : World) (frame : FrameId) (name : Name) (v : Value) : World :=
  { w with store := w.store.set frame name v }

def print (w : World) (v : Value) : World := { w with printed := w.printed.push v }

def addFrame (w : World) (name : String) (parent : FrameId) : World :=
  { w with store := (w.store.addFrame { name, parent := some parent }).2 }

def addClosure (w : World) (parameters : List Name) (body : List Stmt) (frame : FrameId) : World :=
  { w with store := (w.store.addClosure { parameters, body, frame }).2 }

/-- Binds parameters in a frame, up to the first that is no key. -/
def bindAll (w : World) (frame : FrameId) : List (Name × Value) → Option Failure × World
  | [] => (none, w)
  | (name, value) :: rest =>
    match name.key? with
    | none => (some (.malformed .notAKey), w)
    | some _ => bindAll (w.assign frame name value) frame rest

/-- The world in which the body of a call starts: a fresh frame binds the parameters. -/
def enter (w : World) (callee : Name) (closure : Closure) (values : List Value) :
    Option Failure × World :=
  (w.addFrame ("call:" ++ callee.plain) closure.frame).bindAll w.store.frames.size
    (closure.parameters.zip values)

end World

mutual

inductive Evaluates : Scope → Expr → World → Except Failure Value → World → Prop where
  | number {scope w span value} :
      Evaluates scope (.number span value) w (.ok (.number value)) w
  | boolean {scope w span value} :
      Evaluates scope (.boolean span value) w (.ok (.boolean value)) w
  | lookup {scope w span name} :
      Evaluates scope (.variable span name) w (w.lookup scope.frame name) w
  | function {scope w span parameters body} :
      Evaluates scope (.function span parameters body) w
        (.ok (.function w.store.closures.size)) (w.addClosure parameters body scope.frame)
  | leftError {scope w w₁ span operator left right failure} :
      Evaluates scope left w (.error failure) w₁ →
      Evaluates scope (.binary span operator left right) w (.error failure) w₁
  | decided {scope w w₁ span operator left right a result} :
      Evaluates scope left w (.ok a) w₁ → decided operator a = some result →
      Evaluates scope (.binary span operator left right) w result w₁
  | rightError {scope w w₁ w₂ span operator left right a failure} :
      Evaluates scope left w (.ok a) w₁ → decided operator a = none →
      Evaluates scope right w₁ (.error failure) w₂ →
      Evaluates scope (.binary span operator left right) w (.error failure) w₂
  | combined {scope w w₁ w₂ span operator left right a b} :
      Evaluates scope left w (.ok a) w₁ → decided operator a = none →
      Evaluates scope right w₁ (.ok b) w₂ →
      Evaluates scope (.binary span operator left right) w (combined operator a b) w₂
  | callReturned {scope w w₁ span callee arguments v} :
      Calls scope callee arguments w (.returned v) w₁ →
      Evaluates scope (.call span callee arguments) w (.ok v) w₁
  | callNormal {scope w w₁ span callee arguments} :
      Calls scope callee arguments w .normal w₁ →
      Evaluates scope (.call span callee arguments) w
        (.error (.error (.missingReturnValue callee))) w₁
  | callError {scope w w₁ span callee arguments failure} :
      Calls scope callee arguments w (.error failure) w₁ →
      Evaluates scope (.call span callee arguments) w (.error failure) w₁
  | malformed {scope w reason} :
      Evaluates scope (.malformed reason) w (.error reason.inExpression) w

/-- Expressions are evaluated from left to right, up to the first failure. -/
inductive EvaluatesAll :
    Scope → List Expr → World → Except Failure (List Value) → World → Prop where
  | nil {scope w} : EvaluatesAll scope [] w (.ok []) w
  | headError {scope w w₁ e rest failure} :
      Evaluates scope e w (.error failure) w₁ →
      EvaluatesAll scope (e :: rest) w (.error failure) w₁
  | tailError {scope w w₁ w₂ e rest v failure} :
      Evaluates scope e w (.ok v) w₁ → EvaluatesAll scope rest w₁ (.error failure) w₂ →
      EvaluatesAll scope (e :: rest) w (.error failure) w₂
  | cons {scope w w₁ w₂ e rest v vs} :
      Evaluates scope e w (.ok v) w₁ → EvaluatesAll scope rest w₁ (.ok vs) w₂ →
      EvaluatesAll scope (e :: rest) w (.ok (v :: vs)) w₂

/-- A call ends as the body of its closure does. -/
inductive Calls : Scope → Name → List Expr → World → Outcome → World → Prop where
  | refused {scope w callee arguments failure} :
      w.callee scope.frame callee arguments.length = .error failure →
      Calls scope callee arguments w (.error failure) w
  | argumentError {scope w w₁ callee arguments closure failure} :
      w.callee scope.frame callee arguments.length = .ok closure →
      EvaluatesAll scope arguments w (.error failure) w₁ →
      Calls scope callee arguments w (.error failure) w₁
  | parameterError {scope w w₁ w₂ callee arguments closure values failure} :
      w.callee scope.frame callee arguments.length = .ok closure →
      EvaluatesAll scope arguments w (.ok values) w₁ →
      w₁.enter callee closure values = (some failure, w₂) →
      Calls scope callee arguments w (.error failure) w₂
  | body {scope w w₁ w₂ w₃ callee arguments closure values outcome} :
      w.callee scope.frame callee arguments.length = .ok closure →
      EvaluatesAll scope arguments w (.ok values) w₁ →
      w₁.enter callee closure values = (none, w₂) →
      ExecutesAll ⟨w₁.store.frames.size, true⟩ closure.body w₂ outcome w₃ →
      Calls scope callee arguments w outcome w₃

/-- A statement ends normally, by returning, or in a failure. -/
inductive Executes : Scope → Stmt → World → Outcome → World → Prop where
  | declareRefused {scope w span name value failure} :
      w.declarable scope.frame name = .error failure →
      Executes scope (.declare span name value) w (.error failure) w
  | declareError {scope w w₁ span name value failure} :
      w.declarable scope.frame name = .ok () →
      Evaluates scope value w (.error failure) w₁ →
      Executes scope (.declare span name value) w (.error failure) w₁
  | declare {scope w w₁ span name value v} :
      w.declarable scope.frame name = .ok () →
      Evaluates scope value w (.ok v) w₁ →
      Executes scope (.declare span name value) w .normal (w₁.declare scope.frame name v)
  | assignRefused {scope w span name value failure} :
      w.target scope.frame name = .error failure →
      Executes scope (.assign span name value) w (.error failure) w
  | assignError {scope w w₁ span name value target failure} :
      w.target scope.frame name = .ok target →
      Evaluates scope value w (.error failure) w₁ →
      Executes scope (.assign span name value) w (.error failure) w₁
  | assign {scope w w₁ span name value target v} :
      w.target scope.frame name = .ok target →
      Evaluates scope value w (.ok v) w₁ →
      Executes scope (.assign span name value) w .normal (w₁.assign target name v)
  | branchError {scope w w₁ span test thenPart elsePart failure} :
      Evaluates scope test w (.error failure) w₁ →
      Executes scope (.branch span test thenPart elsePart) w (.error failure) w₁
  | branchRefused {scope w w₁ span test thenPart elsePart v} :
      Evaluates scope test w (.ok v) w₁ → (∀ b, v ≠ .boolean b) →
      Executes scope (.branch span test thenPart elsePart) w
        (.error (.error (.nonBooleanCondition .branch v.kind))) w₁
  | branchThen {scope w w₁ w₂ span test thenPart elsePart outcome} :
      Evaluates scope test w (.ok (.boolean true)) w₁ →
      ExecutesAll { scope with frame := w₁.store.frames.size } thenPart
        (w₁.addFrame "if-then" scope.frame) outcome w₂ →
      Executes scope (.branch span test thenPart elsePart) w outcome w₂
  | branchElse {scope w w₁ w₂ span test thenPart elsePart outcome} :
      Evaluates scope test w (.ok (.boolean false)) w₁ →
      ExecutesAll { scope with frame := w₁.store.frames.size } elsePart
        (w₁.addFrame "if-else" scope.frame) outcome w₂ →
      Executes scope (.branch span test thenPart elsePart) w outcome w₂
  | loop {scope w w₁ span test body outcome} :
      Iterates scope test body w outcome w₁ →
      Executes scope (.loop span test body) w outcome w₁
  | printError {scope w w₁ span value failure} :
      Evaluates scope value w (.error failure) w₁ →
      Executes scope (.print span value) w (.error failure) w₁
  | print {scope w w₁ span value v} :
      Evaluates scope value w (.ok v) w₁ →
      Executes scope (.print span value) w .normal (w₁.print v)
  | callError {scope w w₁ span place callee arguments failure} :
      Calls scope callee arguments w (.error failure) w₁ →
      Executes scope (.discard span (.call place callee arguments)) w (.error failure) w₁
  | callNormal {scope w w₁ span place callee arguments} :
      Calls scope callee arguments w .normal w₁ →
      Executes scope (.discard span (.call place callee arguments)) w .normal w₁
  | callReturned {scope w w₁ span place callee arguments v} :
      Calls scope callee arguments w (.returned v) w₁ →
      Executes scope (.discard span (.call place callee arguments)) w .normal w₁
  | discardError {scope w w₁ span value failure} :
      (∀ place callee arguments, value ≠ .call place callee arguments) →
      Evaluates scope value w (.error failure) w₁ →
      Executes scope (.discard span value) w (.error failure) w₁
  | discard {scope w w₁ span value v} :
      (∀ place callee arguments, value ≠ .call place callee arguments) →
      Evaluates scope value w (.ok v) w₁ →
      Executes scope (.discard span value) w .normal w₁
  | giveRefused {scope w span value} :
      scope.inCall = false →
      Executes scope (.give span value) w (.error (.error .returnOutsideFunction)) w
  | giveError {scope w w₁ span value failure} :
      scope.inCall = true → Evaluates scope value w (.error failure) w₁ →
      Executes scope (.give span value) w (.error failure) w₁
  | give {scope w w₁ span value v} :
      scope.inCall = true → Evaluates scope value w (.ok v) w₁ →
      Executes scope (.give span value) w (.returned v) w₁
  | malformed {scope w reason} :
      Executes scope (.malformed reason) w (.error reason.inStatement) w

/-- Statements are executed in order, up to the first that does not end normally. -/
inductive ExecutesAll : Scope → List Stmt → World → Outcome → World → Prop where
  | nil {scope w} : ExecutesAll scope [] w .normal w
  | stopped {scope w w₁ stmt rest outcome} :
      Executes scope stmt w outcome w₁ → outcome ≠ .normal →
      ExecutesAll scope (stmt :: rest) w outcome w₁
  | cons {scope w w₁ w₂ stmt rest outcome} :
      Executes scope stmt w .normal w₁ → ExecutesAll scope rest w₁ outcome w₂ →
      ExecutesAll scope (stmt :: rest) w outcome w₂

/-- A loop tests first and then runs its body in a fresh frame, as long as the test is true and the
body ends normally. -/
inductive Iterates : Scope → Expr → List Stmt → World → Outcome → World → Prop where
  | testError {scope w w₁ test body failure} :
      Evaluates scope test w (.error failure) w₁ →
      Iterates scope test body w (.error failure) w₁
  | testRefused {scope w w₁ test body v} :
      Evaluates scope test w (.ok v) w₁ → (∀ b, v ≠ .boolean b) →
      Iterates scope test body w (.error (.error (.nonBooleanCondition .loop v.kind))) w₁
  | done {scope w w₁ test body} :
      Evaluates scope test w (.ok (.boolean false)) w₁ →
      Iterates scope test body w .normal w₁
  | stopped {scope w w₁ w₂ test body outcome} :
      Evaluates scope test w (.ok (.boolean true)) w₁ →
      ExecutesAll { scope with frame := w₁.store.frames.size } body
        (w₁.addFrame "while-body" scope.frame) outcome w₂ →
      outcome ≠ .normal →
      Iterates scope test body w outcome w₂
  | again {scope w w₁ w₂ w₃ test body outcome} :
      Evaluates scope test w (.ok (.boolean true)) w₁ →
      ExecutesAll { scope with frame := w₁.store.frames.size } body
        (w₁.addFrame "while-body" scope.frame) .normal w₂ →
      Iterates scope test body w₂ outcome w₃ →
      Iterates scope test body w outcome w₃

end

/-- A program is run at the top level of a fresh world. What can be seen of its end are the bindings
of the top level and what was printed. -/
def Runs (program : Program) (outcome : Outcome) (bindings : List (Name × Value))
    (printed : Array Value) : Prop :=
  ∃ w, ExecutesAll ⟨Store.root, false⟩ program World.initial outcome w ∧
    w.store.bindings Store.root = bindings ∧ w.printed = printed

end Reference

end Treewalk
