import Treewalk.Evaluation.Run

/-! # Contracts of evaluation

A contract says how the state may change while an action runs, both for an action that yields a
result and for one that fails. The rules of evaluation put actions together in a few ways only.
Contracts that are kept by each of these ways are therefore kept by every expression and every
statement, whatever the limits are.
-/

namespace Treewalk

namespace Eval

variable {α β : Type}

theorem pure_apply (a : α) (s : State) : (pure a : Eval α) s = .ok a s := rfl

theorem get_apply (s : State) : (get : Eval State) s = .ok s s := rfl

/-- What comes second starts where what comes first ended, and is left out if that failed. -/
theorem bind_apply (first : Eval α) (next : α → Eval β) (s : State) :
    (first >>= next) s =
      match first s with
      | .ok a t => next a t
      | .error failure t => .error failure t := by
  change EStateM.bind first next s = _
  unfold EStateM.bind
  cases first s <;> rfl

/-- What a return passes over is left out without a trace. -/
theorem unlessReturning_apply (action : Eval Unit) (s : State) :
    unlessReturning action s =
      if s.context.pending.isSome then .ok () s else action s := by
  simp only [unlessReturning, isReturning, bind_apply, get_apply, pure_apply]
  split <;> rfl

def entering (s : State) (frame : FrameId) (calls : Nat) : State :=
  { s with
    context := { s.context with frame, callDepth := s.context.callDepth + calls }
    trace := s.trace.push (.entered frame) }

/-- The state after `within`, given the one in which it started and the one its action reached. -/
def leaving (s : State) (calls : Nat) (t : State) : State :=
  { t with context := { t.context with
      frame := s.context.frame, callDepth := t.context.callDepth - calls } }

/-- The action of `within` starts with its frame entered, and is followed by leaving it, also if it
fails. -/
theorem within_apply (frame : FrameId) (calls : Nat) (action : Eval α) (s : State) :
    within frame calls action s =
      match action (entering s frame calls) with
      | .ok a t => .ok a (leaving s calls t)
      | .error failure t => .error failure (leaving s calls t) := rfl

def withFrame (s : State) (name : String) (parent : FrameId) : State :=
  { s with store := (s.store.addFrame { name, parent := some parent }).2 }

theorem newFrame_apply (name : String) (parent : FrameId) (s : State) :
    newFrame name parent s = .ok s.store.frames.size (withFrame s name parent) := rfl

/-- A block runs in a child of the current frame, inside of the same calls. -/
theorem inChild_apply (name : String) (action : Eval α) (s : State) :
    inChild name action s =
      within s.store.frames.size 0 action (withFrame s name s.context.frame) := by
  unfold inChild
  rw [bind_apply, get_apply]
  dsimp only
  rw [bind_apply, newFrame_apply]

theorem keyOf_apply (name : Name) (s : State) :
    keyOf name s =
      match name.key? with
      | some key => .ok key s
      | none => .error (.malformed .notAKey) s := by
  unfold keyOf
  cases name.key? <;> rfl

end Eval

/-- How the state may change under an action, apart for success and failure. -/
structure Contract where
  ok : State → State → Prop
  error : State → State → Prop

namespace Contract

variable {α β : Type}

/-- Whether a contract allows a result after a state. -/
def Allows (contract : Contract) (s : State) : EStateM.Result Failure State α → Prop
  | .ok _ t => contract.ok s t
  | .error _ t => contract.error s t

/-- An action keeps a contract from every state. -/
def Holds (contract : Contract) (action : Eval α) : Prop := ∀ s, contract.Allows s (action s)

/-- What one contract allows first and the other afterwards, the other allows as a whole. -/
structure Precedes (first whole : Contract) : Prop where
  ok {s t u : State} : first.ok s t → whole.ok t u → whole.ok s u
  late {s t u : State} : first.ok s t → whole.error t u → whole.error s u
  early {s t : State} : first.error s t → whole.error s t

structure Implies (strong weak : Contract) : Prop where
  ok {s t : State} : strong.ok s t → weak.ok s t
  error {s t : State} : strong.error s t → weak.error s t

variable {contract first whole strong weak : Contract}

/-- What keeps a contract keeps every weaker one. -/
theorem Holds.weaken {action : Eval α} (himplies : strong.Implies weak)
    (haction : strong.Holds action) : weak.Holds action := by
  intro s
  have hstep := haction s
  cases hrun : action s with
  | ok a t =>
      rw [hrun] at hstep
      exact himplies.ok hstep
  | error failure t =>
      rw [hrun] at hstep
      exact himplies.error hstep

/-- Actions one after the other keep a contract that the first of them prepares. -/
theorem Holds.bind {action : Eval α} {next : α → Eval β} (hprecedes : first.Precedes whole)
    (haction : first.Holds action) (hnext : ∀ a, whole.Holds (next a)) :
    whole.Holds (action >>= next) := by
  intro s
  rw [Eval.bind_apply]
  have hfirst := haction s
  cases hrun : action s with
  | ok a t =>
      rw [hrun] at hfirst
      have hrest := hnext a t
      dsimp only
      cases hlast : next a t with
      | ok b u =>
          rw [hlast] at hrest
          exact hprecedes.ok hfirst hrest
      | error failure u =>
          rw [hlast] at hrest
          exact hprecedes.late hfirst hrest
  | error failure t =>
      rw [hrun] at hfirst
      exact hprecedes.early hfirst

end Contract

/-- What is promised of expressions, of statements other than declarations, and of statements in
general. -/
structure Contracts where
  value : Contract
  effect : Contract
  statement : Contract

/-- Contracts that the rules keep if the parts they are applied to keep them. -/
structure Contracts.Kept (contracts : Contracts) : Prop where
  unchanged (s : State) : contracts.value.ok s s
  refused (s : State) : contracts.value.error s s
  value_value : contracts.value.Precedes contracts.value
  value_effect : contracts.value.Precedes contracts.effect
  effect_statement : contracts.effect.Implies contracts.statement
  value_implies : contracts.value.Implies contracts.effect
  record (event : Event) : contracts.value.Holds (Eval.record event)
  emit (v : Value) : contracts.value.Holds (Eval.emit v)
  newClosure (parameters : List Name) (body : List Stmt) :
    contracts.value.Holds (Eval.newClosure parameters body)
  invoke {exec : Stmt → Eval Unit} (callee : Name) (closure : Closure) (values : List Value) :
    contracts.statement.Holds (Rules.sequence exec closure.body) →
      contracts.value.Holds (Rules.invoke exec callee closure values)
  inChild {action : Eval Unit} (name : String) :
    contracts.statement.Holds action → contracts.effect.Holds (Eval.inChild name action)
  assign {value : Eval Value} (name : Name) :
    contracts.value.Holds value → contracts.effect.Holds (Rules.assign name value)
  give {value : Eval Value} :
    contracts.value.Holds value → contracts.effect.Holds (Rules.give value)
  declare {value : Eval Value} (name : Name) :
    contracts.value.Holds value → contracts.statement.Holds (Rules.declare name value)
  repeated {action next : Eval Unit} :
    contracts.effect.Holds action → contracts.effect.Holds next →
      contracts.effect.Holds (do action; Eval.unlessReturning next)
  continued {action next : Eval Unit} :
    contracts.statement.Holds action → contracts.statement.Holds next →
      contracts.statement.Holds (do action; Eval.unlessReturning next)

namespace Contracts.Kept

variable {α : Type} {contracts : Contracts} (hkept : contracts.Kept)

include hkept

theorem pure (a : α) : contracts.value.Holds (Pure.pure a : Eval α) := hkept.unchanged

theorem throw (failure : Failure) :
    contracts.value.Holds (MonadExcept.throw failure : Eval α) := hkept.refused

theorem fail (e : RuntimeError) : contracts.value.Holds (Eval.fail e : Eval α) := hkept.refused

theorem get : contracts.value.Holds (MonadState.get : Eval State) := hkept.unchanged

theorem keyOf (name : Name) : contracts.value.Holds (Eval.keyOf name) := by
  unfold Eval.keyOf
  cases name.key? with
  | some key => exact hkept.pure key
  | none => exact hkept.throw _

theorem lookup (name : Name) : contracts.value.Holds (Eval.lookup name) := by
  refine .bind hkept.value_value (hkept.keyOf name) fun key => ?_
  refine .bind hkept.value_value hkept.get fun s => ?_
  cases s.store.get? s.context.frame key with
  | some value => exact hkept.pure value
  | none => exact hkept.fail _

/-- Arguments keep what each expression keeps. -/
theorem evalAll {eval : Expr → Eval Value} (heval : ∀ e, contracts.value.Holds (eval e))
    (es : List Expr) : contracts.value.Holds (Rules.evalAll eval es) := by
  induction es with
  | nil => exact hkept.pure []
  | cons e rest ih =>
      refine .bind hkept.value_value (heval e) fun value => ?_
      exact .bind hkept.value_value ih fun values => hkept.pure (value :: values)

/-- A logical operator keeps what its operands keep, whether it needs the right one or not. -/
theorem logical (operator : Operator) (decides : Bool) {left right : Eval Value}
    (hleft : contracts.value.Holds left) (hright : contracts.value.Holds right) :
    contracts.value.Holds (Rules.logical operator decides left right) := by
  refine .bind hkept.value_value hleft fun a => ?_
  cases a with
  | boolean b =>
      dsimp only
      split
      · exact hkept.pure _
      · exact hright
  | number x => exact hkept.fail _
  | function id => exact hkept.fail _

theorem ofExcept (result : Except RuntimeError α) :
    contracts.value.Holds (Eval.ofExcept result) := by
  cases result with
  | ok a => exact hkept.pure a
  | error e => exact hkept.fail e

theorem binary (operator : Operator) {left right : Eval Value}
    (hleft : contracts.value.Holds left) (hright : contracts.value.Holds right) :
    contracts.value.Holds (Rules.binary operator left right) := by
  unfold Rules.binary
  split
  · exact hkept.logical _ _ hleft hright
  · exact hkept.logical _ _ hleft hright
  · refine .bind hkept.value_value hleft fun a => ?_
    exact .bind hkept.value_value hright fun b => hkept.pure _
  · refine .bind hkept.value_value hleft fun a => ?_
    exact .bind hkept.value_value hright fun b => hkept.ofExcept _

/-- Statements one after the other keep what each of them keeps. -/
theorem sequence {exec : Stmt → Eval Unit} (hexec : ∀ stmt, contracts.statement.Holds (exec stmt))
    (stmts : List Stmt) : contracts.statement.Holds (Rules.sequence exec stmts) := by
  induction stmts with
  | nil => exact ((hkept.pure ()).weaken hkept.value_implies).weaken hkept.effect_statement
  | cons stmt rest ih => exact hkept.continued (hexec stmt) ih

/-- A call keeps what its arguments and its body keep. -/
theorem call {eval : Expr → Eval Value} {exec : Stmt → Eval Unit}
    (heval : ∀ e, contracts.value.Holds (eval e))
    (hexec : ∀ stmt, contracts.statement.Holds (exec stmt)) (callee : Name)
    (arguments : List Expr) : contracts.value.Holds (Rules.call eval exec callee arguments) := by
  refine .bind hkept.value_value (hkept.lookup callee) fun v => ?_
  cases v with
  | number x => exact hkept.fail _
  | boolean b => exact hkept.fail _
  | function id =>
      refine .bind hkept.value_value hkept.get fun s => ?_
      split
      · exact hkept.fail _
      next closure _ =>
        split
        · exact hkept.fail _
        · refine .bind hkept.value_value (hkept.evalAll heval arguments) fun values => ?_
          exact hkept.invoke callee closure values (hkept.sequence hexec closure.body)

/-- The step over expressions: what expressions nested less deeply keep, all expressions keep. -/
theorem evalStep {eval : Expr → Eval Value} {exec : Stmt → Eval Unit}
    (heval : ∀ e, contracts.value.Holds (eval e))
    (hexec : ∀ stmt, contracts.statement.Holds (exec stmt)) (e : Expr) :
    contracts.value.Holds (Rules.evalStep eval exec e) := by
  cases e with
  | number span value => exact hkept.pure _
  | boolean span value => exact hkept.pure _
  | «variable» span name => exact hkept.lookup name
  | binary span operator left right => exact hkept.binary operator (heval left) (heval right)
  | function span parameters body => exact hkept.newClosure parameters body
  | call span callee arguments =>
      refine .bind hkept.value_value (hkept.call heval hexec callee arguments) fun result => ?_
      cases result with
      | some value => exact hkept.pure value
      | none => exact hkept.fail _
  | malformed reason => exact hkept.throw _

/-- A loop keeps what its test and its body keep. The induction is on the rounds that are left. -/
theorem loop {test : Eval Value} {body : Eval Unit} (htest : contracts.value.Holds test)
    (hbody : contracts.effect.Holds body) (iterations : Nat) :
    contracts.effect.Holds (Rules.loop test body iterations) := by
  induction iterations with
  | zero => exact (hkept.throw _).weaken hkept.value_implies
  | succ iterations ih =>
      refine .bind hkept.value_effect htest fun v => ?_
      cases v with
      | boolean b =>
          cases b with
          | true => exact hkept.repeated hbody ih
          | false => exact (hkept.pure ()).weaken hkept.value_implies
      | number x => exact (hkept.fail _).weaken hkept.value_implies
      | function id => exact (hkept.fail _).weaken hkept.value_implies

/-- A statement other than a declaration keeps the stronger contract. -/
theorem execStep_effect {eval : Expr → Eval Value} {exec : Stmt → Eval Unit} (iterations : Nat)
    (heval : ∀ e, contracts.value.Holds (eval e))
    (hexec : ∀ stmt, contracts.statement.Holds (exec stmt)) (stmt : Stmt)
    (hstmt : ∀ span name value, stmt ≠ .declare span name value) :
    contracts.effect.Holds (Rules.execStep iterations eval exec stmt) := by
  have hblock : ∀ name stmts,
      contracts.effect.Holds (Eval.inChild name (Rules.sequence exec stmts)) :=
    fun name stmts => hkept.inChild name (hkept.sequence hexec stmts)
  cases stmt with
  | declare span name value => exact absurd rfl (hstmt span name value)
  | assign span name value => exact hkept.assign name (heval value)
  | branch span test thenPart elsePart =>
      refine .bind hkept.value_effect (heval test) fun v => ?_
      cases v with
      | boolean b => cases b <;> exact hblock _ _
      | number x => exact (hkept.fail _).weaken hkept.value_implies
      | function id => exact (hkept.fail _).weaken hkept.value_implies
  | loop span test body => exact hkept.loop (heval test) (hblock _ body) iterations
  | print span value =>
      refine Contract.Holds.weaken hkept.value_implies ?_
      refine .bind hkept.value_value (heval value) fun v => ?_
      exact .bind hkept.value_value (hkept.record _) fun _ => hkept.emit v
  | discard span value =>
      refine Contract.Holds.weaken hkept.value_implies ?_
      cases value with
      | call span callee arguments =>
          exact .bind hkept.value_value (hkept.call heval hexec callee arguments)
            fun _ => hkept.pure ()
      | _ => exact .bind hkept.value_value (heval _) fun _ => hkept.pure ()
  | give span value => exact hkept.give (heval value)
  | malformed reason => exact (hkept.throw _).weaken hkept.value_implies

/-- The step over statements: what parts nested less deeply keep, all statements keep. -/
theorem execStep {eval : Expr → Eval Value} {exec : Stmt → Eval Unit} (iterations : Nat)
    (heval : ∀ e, contracts.value.Holds (eval e))
    (hexec : ∀ stmt, contracts.statement.Holds (exec stmt)) (stmt : Stmt) :
    contracts.statement.Holds (Rules.execStep iterations eval exec stmt) := by
  cases stmt with
  | declare span name value => exact hkept.declare name (heval value)
  | _ =>
      refine (hkept.execStep_effect iterations heval hexec _ ?_).weaken hkept.effect_statement
      intro span name value heq
      cases heq

/-- Expressions and statements keep the contracts, however deeply they are nested. -/
theorem eval_exec (iterations depth : Nat) :
    (∀ e, contracts.value.Holds (eval iterations depth e)) ∧
      ∀ stmt, contracts.statement.Holds (exec iterations depth stmt) := by
  induction depth with
  | zero =>
      refine ⟨fun e => hkept.throw _, fun stmt => ?_⟩
      exact ((hkept.throw _).weaken hkept.value_implies).weaken hkept.effect_statement
  | succ depth ih =>
      exact ⟨hkept.evalStep ih.1 ih.2, hkept.execStep iterations ih.1 ih.2⟩

/-- Contracts that the rules keep hold of every expression, within any limits. -/
theorem eval (iterations depth : Nat) (e : Expr) :
    contracts.value.Holds (Treewalk.eval iterations depth e) :=
  (hkept.eval_exec iterations depth).1 e

/-- Contracts that the rules keep hold of every statement, within any limits. -/
theorem exec (iterations depth : Nat) (stmt : Stmt) :
    contracts.statement.Holds (Treewalk.exec iterations depth stmt) :=
  (hkept.eval_exec iterations depth).2 stmt

/-- A statement other than a declaration keeps the stronger contract at every depth. -/
theorem exec_effect (iterations depth : Nat) (stmt : Stmt)
    (hstmt : ∀ span name value, stmt ≠ .declare span name value) :
    contracts.effect.Holds (Treewalk.exec iterations depth stmt) := by
  cases depth with
  | zero => exact (hkept.throw _).weaken hkept.value_implies
  | succ depth =>
      exact hkept.execStep_effect iterations (hkept.eval iterations depth)
        (hkept.exec iterations depth) stmt hstmt

end Contracts.Kept

end Treewalk
