import Treewalk.Proofs.Evaluation.Equations
import Treewalk.Proofs.Evaluation.Nesting

/-! # Where a run fails

A failure is raised by one part of the program, in the state in which the run fails. Which failures
a part raises on its own account is a matter of the rules of evaluation, and is written out here as
a relation.

The statement at which a run fails is the innermost one that is under way. It is found by following
the rules again: an action that consists of several ones fails where the first of them fails that
does.
-/

namespace Treewalk

open Reference (world settle decided combined)

/-- The failures that a part raises itself in a state, not by way of the parts in it. -/
inductive Part.Raises : Part → State → Failure → Prop where
  | lookup {span name s failure} : (world s).lookup s.context.frame name = .error failure →
      Part.Raises (.expr (.variable span name)) s failure
  | decided {span operator left right s v failure} :
      decided operator v = some (.error failure) →
      Part.Raises (.expr (.binary span operator left right)) s failure
  | combined {span operator left right s v w failure} :
      combined operator v w = .error failure →
      Part.Raises (.expr (.binary span operator left right)) s failure
  | callee {span callee arguments s failure} :
      (world s).callee s.context.frame callee arguments.length = .error failure →
      Part.Raises (.expr (.call span callee arguments)) s failure
  | parameter {span callee arguments s name} {id : ClosureId} {closure} :
      s.store.closures[id]? = some closure → name ∈ closure.parameters → name.key? = none →
      Part.Raises (.expr (.call span callee arguments)) s (.malformed .notAKey)
  | noReturn {span callee arguments s} :
      Part.Raises (.expr (.call span callee arguments)) s (.error (.missingReturnValue callee))
  | malformedExpr {reason s} : Part.Raises (.expr (.malformed reason)) s reason.inExpression
  | declare {span name value s failure} :
      (world s).declarable s.context.frame name = .error failure →
      Part.Raises (.stmt (.declare span name value)) s failure
  | assign {span name value s failure} : (world s).target s.context.frame name = .error failure →
      Part.Raises (.stmt (.assign span name value)) s failure
  | branch {span test thenPart elsePart s kind} :
      Part.Raises (.stmt (.branch span test thenPart elsePart)) s
        (.error (.nonBooleanCondition .branch kind))
  | loop {span test body s kind} :
      Part.Raises (.stmt (.loop span test body)) s (.error (.nonBooleanCondition .loop kind))
  | unfinished {span test body s} : Part.Raises (.stmt (.loop span test body)) s .unfinished
  | give {span value s} : s.context.callDepth = 0 →
      Part.Raises (.stmt (.give span value)) s (.error .returnOutsideFunction)
  | malformedStmt {reason s} : Part.Raises (.stmt (.malformed reason)) s reason.inStatement

/-! ## Failures that names and values lead to -/

/-- Whether an error is one that names or values lead to. -/
def RuntimeError.isOrdinary : RuntimeError → Bool
  | .unknownExpression _ => false
  | .unknownStatement _ => false
  | .returnOutsideFunction => false
  | .recursionLimitExceeded => false
  | _ => true

def Failure.Ordinary : Failure → Prop
  | .error e => e.isOrdinary = true
  | _ => False

/-- The failures that the operands of an operator lead to. -/
inductive Failure.OfOperands : Failure → Prop where
  | notBoolean {operator left} : Failure.OfOperands (.error (.operandNotBoolean operator left))
  | notNumbers {operator left right} :
      Failure.OfOperands (.error (.operandsNotNumbers operator left right))
  | divisionByZero : Failure.OfOperands (.error .divisionByZero)

/-- What operands lead to is an ordinary error. -/
theorem Failure.OfOperands.ordinary {failure : Failure} (h : failure.OfOperands) :
    failure.Ordinary := by
  cases h <;> rfl

/-- The failures that follow from a name: it is no key, or the failure is an ordinary one. -/
def Failure.OfName (name : Name) (failure : Failure) : Prop :=
  (name.key? = none ∧ failure = .malformed .notAKey) ∨ failure.Ordinary

namespace Reference

variable {w : World} {frame : FrameId} {name : Name} {failure : Failure}

/-- A look-up fails for its name only. -/
theorem World.lookup_error (h : w.lookup frame name = .error failure) :
    failure.OfName name := by
  unfold lookup at h
  split at h
  next hkey =>
    cases h
    exact .inl ⟨hkey, rfl⟩
  · split at h <;> cases h
    exact .inr rfl

/-- Before its arguments are evaluated, a call fails for its name only. -/
theorem World.callee_error {arguments : Nat} (h : w.callee frame name arguments = .error failure) :
    failure.OfName name := by
  unfold callee at h
  split at h
  next hlookup =>
    cases h
    exact lookup_error hlookup
  · split at h
    · cases h
      exact .inr rfl
    · split at h <;> cases h
      exact .inr rfl
  · cases h
    exact .inr rfl

/-- A declaration is refused for its name only. -/
theorem World.declarable_error (h : w.declarable frame name = .error failure) :
    failure.OfName name := by
  unfold declarable at h
  split at h
  next hkey =>
    cases h
    exact .inl ⟨hkey, rfl⟩
  · split at h <;> cases h
    exact .inr rfl

/-- An assignment is refused for its name only. -/
theorem World.target_error (h : w.target frame name = .error failure) :
    failure.OfName name := by
  unfold target at h
  split at h
  next hkey =>
    cases h
    exact .inl ⟨hkey, rfl⟩
  · split at h <;> cases h
    exact .inr rfl

/-- A left operand that decides fails for its kind only. -/
theorem decided_error {operator : Operator} {v : Value}
    (h : decided operator v = some (.error failure)) : failure.OfOperands := by
  unfold decided at h
  split at h
  · split at h <;> cases h
  · split at h <;> cases h
  · cases h
    exact .notBoolean
  · cases h
    exact .notBoolean
  · cases h

/-- Arithmetic fails for the kinds of its operands, and division for a zero. -/
theorem operate_error {operator : Operator} {v w : Value} {e : RuntimeError}
    (h : Rules.operate operator v w = .error e) : (Failure.error e).OfOperands := by
  unfold Rules.operate at h
  split at h
  · unfold Rules.arithmetic at h
    split at h
    case h_4 =>
      split at h <;> cases h
      exact .divisionByZero
    all_goals cases h
  · cases h
    exact .notNumbers

theorem combined_error {operator : Operator} {v w : Value}
    (h : combined operator v w = .error failure) : failure.OfOperands := by
  unfold combined at h
  split at h
  · cases h
  · cases h
  · cases h
  · cases hoperate : Rules.operate operator v w with
    | ok x =>
        rw [hoperate] at h
        cases h
    | error e =>
        rw [hoperate] at h
        cases h
        exact operate_error hoperate

end Reference

/-! ## The innermost statement under way -/

/-- The action that leaves the state alone and has a given result. -/
def Reference.settled {α : Type} (r : Except Failure α) : Eval α := fun s => settle s r

/-- What a binary operator does once its left operand has a value. -/
def Reference.afterLeft (operator : Operator) (v : Value) (right : Eval Value) : Eval Value :=
  match decided operator v with
  | some result => settled result
  | none => do
    let w ← right
    settled (combined operator v w)

/-- A binary operator is its left operand and then what that leaves to be done. -/
theorem Reference.binary_eq (operator : Operator) (left right : Eval Value) :
    Rules.binary operator left right = (do let v ← left; afterLeft operator v right) := by
  funext s
  rw [binary_apply, Eval.bind_apply]
  cases left s with
  | error failure t => rfl
  | ok v t =>
      unfold afterLeft
      dsimp only
      cases decided operator v with
      | some result => rfl
      | none =>
          refine Eq.trans ?_ (Eval.bind_apply right _ t).symm
          cases right t <;> rfl

namespace Culprit

variable {α : Type}

/-- The culprit of an action and what follows it: that of the action, if it fails. -/
def after (action : Eval α) (first : State → Option Stmt) (next : α → State → Option Stmt)
    (s : State) : Option Stmt :=
  match action s with
  | .ok a t => next a t
  | .error _ _ => first s

def unlessReturning (culprit : State → Option Stmt) (s : State) : Option Stmt :=
  if s.context.pending.isSome then none else culprit s

def inChild (name : String) (culprit : State → Option Stmt) (s : State) : Option Stmt :=
  culprit (Eval.entering (Eval.withFrame s name s.context.frame) s.store.frames.size 0)

section Rules

variable (eval : Expr → Eval Value) (exec : Stmt → Eval Unit)
  (inExpr : Expr → State → Option Stmt) (inStmt : Stmt → State → Option Stmt)

def evalAll : List Expr → State → Option Stmt
  | [] => fun _ => none
  | e :: rest => after (eval e) (inExpr e) fun _ => evalAll rest

def sequence : List Stmt → State → Option Stmt
  | [] => fun _ => none
  | stmt :: rest => after (exec stmt) (inStmt stmt) fun _ => unlessReturning (sequence rest)

def binary (operator : Operator) (left right : Expr) : State → Option Stmt :=
  after (eval left) (inExpr left) fun v =>
    match decided operator v with
    | some _ => fun _ => none
    | none => after (eval right) (inExpr right) fun _ _ => none

def invoke (callee : Name) (closure : Closure) (values : List Value) (s : State) : Option Stmt :=
  match (world s).enter callee closure values with
  | (some _, _) => none
  | (none, w) =>
    sequence exec inStmt closure.body
      (Eval.entering (Reference.entered s callee values w) s.store.frames.size 1)

def call (callee : Name) (arguments : List Expr) (s : State) : Option Stmt :=
  match (world s).callee s.context.frame callee arguments.length with
  | .error _ => none
  | .ok closure =>
    after (Rules.evalAll eval arguments) (evalAll eval inExpr arguments)
      (invoke exec inStmt callee closure) s

/-- The culprit of an expression: a statement in the body of a call, if there is one. -/
def evalStep : Expr → State → Option Stmt
  | .binary _ operator left right => binary eval inExpr operator left right
  | .call _ callee arguments =>
    after (Rules.call eval exec callee arguments) (call eval exec inExpr inStmt callee arguments)
      fun _ _ => none
  | _ => fun _ => none

def loop (test : Eval Value) (body : Eval Unit) (inTest inBody : State → Option Stmt) :
    (iterations : Nat) → State → Option Stmt
  | 0 => fun _ => none
  | iterations + 1 => after test inTest fun v =>
    match v with
    | .boolean true =>
      after body inBody fun _ => unlessReturning (loop test body inTest inBody iterations)
    | _ => fun _ => none

def execStep (iterations : Nat) : Stmt → State → Option Stmt
  | .declare _ name value => fun s =>
    match (world s).declarable s.context.frame name with
    | .error _ => none
    | .ok _ => inExpr value s
  | .assign _ name value => fun s =>
    match (world s).target s.context.frame name with
    | .error _ => none
    | .ok _ => inExpr value s
  | .branch _ test thenPart elsePart => after (eval test) (inExpr test) fun v =>
    match v with
    | .boolean true => inChild "if-then" (sequence exec inStmt thenPart)
    | .boolean false => inChild "if-else" (sequence exec inStmt elsePart)
    | _ => fun _ => none
  | .loop _ test body =>
    loop (eval test) (Eval.inChild "while-body" (Rules.sequence exec body)) (inExpr test)
      (inChild "while-body" (sequence exec inStmt body)) iterations
  | .print _ value => inExpr value
  | .discard _ (.call _ callee arguments) => call eval exec inExpr inStmt callee arguments
  | .discard _ value => inExpr value
  | .give _ value => fun s => if s.context.callDepth = 0 then none else inExpr value s
  | .malformed _ => fun _ => none

end Rules

mutual

/-- The innermost statement under way where an expression fails. -/
def eval (iterations : Nat) : (depth : Nat) → Expr → State → Option Stmt
  | 0, _, _ => none
  | depth + 1, e, s =>
    evalStep (Treewalk.eval iterations depth) (Treewalk.exec iterations depth)
      (eval iterations depth) (exec iterations depth) e s

/-- The innermost statement under way where a statement fails. -/
def exec (iterations : Nat) : (depth : Nat) → Stmt → State → Option Stmt
  | 0, _, _ => none
  | depth + 1, stmt, s =>
    (execStep (Treewalk.eval iterations depth) (Treewalk.exec iterations depth)
      (eval iterations depth) (exec iterations depth) iterations stmt s).or (some stmt)

end

/-- The innermost statement under way where statements of the top level fail. -/
def execAll (limits : Limits) : List Stmt → State → Option Stmt
  | [] => fun _ => none
  | stmt :: rest =>
    after (Treewalk.exec limits.iterations limits.depth stmt)
      (exec limits.iterations limits.depth stmt) fun _ => execAll limits rest

end Culprit

/-- The statement at which the run of a program fails: the innermost one that is under way. -/
def Program.culprit (limits : Limits) (program : Program) : Option Stmt :=
  Culprit.execAll limits program State.initial

end Treewalk
