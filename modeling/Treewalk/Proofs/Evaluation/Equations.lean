import Treewalk.Proofs.Evaluation.Discipline
import Treewalk.Proofs.Evaluation.Reference

/-! # The rules of evaluation seen from outside the context

Each rule is written out as a function of the state: what it looks up, which part it runs next and
in which state, and what it makes of the result. The look-ups are those of `Reference`.
-/

namespace Treewalk

namespace Reference

variable {α : Type}

/-- What a state is outside of its context. -/
def world (s : State) : World := ⟨s.store, s.context.printed⟩

def scope (s : State) : Scope := ⟨s.context.frame, decide (0 < s.context.callDepth)⟩

/-- The result of an action that leaves the state alone. -/
def settle (s : State) : Except Failure α → EStateM.Result Failure State α
  | .ok a => .ok a s
  | .error failure => .error failure s

section Equations

variable {eval : Expr → Eval Value} {exec : Stmt → Eval Unit}

/-- A look-up leaves the state alone, and finds what the world holds. -/
theorem lookup_apply (name : Name) (s : State) :
    Eval.lookup name s = settle s ((world s).lookup s.context.frame name) := by
  unfold Eval.lookup World.lookup
  rw [Eval.bind_apply, Eval.keyOf_apply]
  cases name.key? with
  | none => rfl
  | some key =>
      dsimp only
      rw [Eval.bind_apply, Eval.get_apply]
      dsimp only [world]
      cases s.store.get? s.context.frame key <;> rfl

/-- A logical operator looks at the right operand only if the left one leaves it open. -/
theorem logical_apply (operator : Operator) (decides : Bool) (left right : Eval Value)
    (s : State) :
    Rules.logical operator decides left right s =
      match left s with
      | .error failure t => .error failure t
      | .ok (.boolean b) t => if b = decides then .ok (.boolean b) t else right t
      | .ok v t => .error (.error (.operandNotBoolean operator v.kind)) t := by
  unfold Rules.logical
  rw [Eval.bind_apply]
  cases left s with
  | error failure t => rfl
  | ok a t =>
      cases a with
      | boolean b => dsimp only; split <;> rfl
      | number x => rfl
      | function id => rfl

/-- Both operands are evaluated before the operator looks at them. -/
theorem operate_apply (operator : Operator) (left right : Eval Value) (s : State) :
    (do
      let a ← left
      let b ← right
      Eval.ofExcept (Rules.operate operator a b) : Eval Value) s =
      match left s with
      | .error failure t => .error failure t
      | .ok a t =>
        match right t with
        | .error failure u => .error failure u
        | .ok b u => settle u ((Rules.operate operator a b).mapError .error) := by
  rw [Eval.bind_apply]
  cases left s with
  | error failure t => rfl
  | ok a t =>
      dsimp only
      rw [Eval.bind_apply]
      cases right t with
      | error failure u => rfl
      | ok b u =>
          dsimp only
          cases Rules.operate operator a b <;> rfl

/-- All operators in one form: what the left operand decides alone, and what both make together. -/
theorem binary_apply (operator : Operator) (left right : Eval Value) (s : State) :
    Rules.binary operator left right s =
      match left s with
      | .error failure t => .error failure t
      | .ok a t =>
        match decided operator a with
        | some result => settle t result
        | none =>
          match right t with
          | .error failure u => .error failure u
          | .ok b u => settle u (combined operator a b) := by
  have hright : ∀ t, right t =
      match right t with
      | .error failure u => .error failure u
      | .ok b u => settle u (.ok b) := by
    intro t
    cases right t <;> rfl
  cases operator with
  | and =>
      refine (logical_apply .and false left right s).trans ?_
      cases left s with
      | error failure t => rfl
      | ok a t =>
          cases a with
          | boolean b => cases b <;> first | rfl | exact hright t
          | number x => rfl
          | function id => rfl
  | or =>
      refine (logical_apply .or true left right s).trans ?_
      cases left s with
      | error failure t => rfl
      | ok a t =>
          cases a with
          | boolean b => cases b <;> first | rfl | exact hright t
          | number x => rfl
          | function id => rfl
  | strictEqual =>
      unfold Rules.binary
      dsimp only
      rw [Eval.bind_apply]
      cases left s with
      | error failure t => rfl
      | ok a t =>
          dsimp only
          rw [Eval.bind_apply]
          dsimp only [decided]
          cases right t <;> rfl
  | _ => exact operate_apply _ left right s

/-- Parameters are bound up to the first that is no key, and what was bound stays bound. -/
theorem bindAll_apply (frame : FrameId) (entries : List (Name × Value)) (s : State) :
    Rules.bindAll frame entries s =
      match (world s).bindAll frame entries with
      | (some failure, w) => .error failure { s with store := w.store }
      | (none, w) => .ok () { s with store := w.store } := by
  induction entries generalizing s with
  | nil => rfl
  | cons entry rest ih =>
      obtain ⟨name, value⟩ := entry
      unfold Rules.bindAll World.bindAll
      rw [Eval.bind_apply, Eval.keyOf_apply]
      cases name.key? with
      | none => rfl
      | some key => exact ih { s with store := s.store.set frame name value }

/-- Binding parameters prints nothing. -/
theorem bindAll_printed (w : World) (frame : FrameId) (entries : List (Name × Value)) :
    (w.bindAll frame entries).2.printed = w.printed := by
  induction entries generalizing w with
  | nil => rfl
  | cons entry rest ih =>
      unfold World.bindAll
      cases entry.1.key? with
      | none => rfl
      | some key => exact ih _

theorem enter_printed {w w₁ : World} {callee : Name} {closure : Closure} {values : List Value}
    {failure : Option Failure} (h : w.enter callee closure values = (failure, w₁)) :
    w₁.printed = w.printed := by
  have hprinted := bindAll_printed (w.addFrame ("call:" ++ callee.plain) closure.frame)
    w.store.frames.size (closure.parameters.zip values)
  unfold World.enter at h
  rw [h] at hprinted
  exact hprinted

def entered (s : State) (callee : Name) (values : List Value) (w : World) : State :=
  { s with store := w.store, trace := s.trace.push (.called callee values) }

/-- A call binds its parameters in a fresh frame and then runs its body there, inside of one more
call. -/
theorem invoke_apply (callee : Name) (closure : Closure) (values : List Value) (s : State) :
    Rules.invoke exec callee closure values s =
      match (world s).enter callee closure values with
      | (some failure, w) => .error failure { s with store := w.store }
      | (none, w) =>
        (do
          Eval.within s.store.frames.size 1 (Rules.sequence exec closure.body)
          Eval.takePending : Eval (Option Value)) (entered s callee values w) := by
  have henter : (world s).enter callee closure values =
      (world (Eval.withFrame s ("call:" ++ callee.plain) closure.frame)).bindAll
        s.store.frames.size (closure.parameters.zip values) := rfl
  unfold Rules.invoke
  rw [henter, Eval.bind_apply, Eval.newFrame_apply]
  dsimp only
  rw [Eval.bind_apply, bindAll_apply]
  cases World.bindAll _ _ _ with
  | mk failure w => cases failure <;> rfl

/-- A callee is looked up, found to be a closure and checked for its arity before any argument is
evaluated. -/
theorem call_apply (callee : Name) (arguments : List Expr) (s : State) :
    Rules.call eval exec callee arguments s =
      match (world s).callee s.context.frame callee arguments.length with
      | .error failure => .error failure s
      | .ok closure =>
        (do
          let values ← Rules.evalAll eval arguments
          Rules.invoke exec callee closure values : Eval (Option Value)) s := by
  unfold Rules.call World.callee
  rw [Eval.bind_apply, lookup_apply]
  cases (world s).lookup s.context.frame callee with
  | error failure => rfl
  | ok v =>
      cases v with
      | number x => rfl
      | boolean b => rfl
      | function id =>
          dsimp only [settle]
          rw [Eval.bind_apply, Eval.get_apply]
          dsimp only [world]
          cases s.store.closures[id]? with
          | none => rfl
          | some closure =>
              dsimp only
              split <;> rfl

/-- Whether a name may be declared is checked before its value is evaluated. -/
theorem declare_apply (name : Name) (value : Eval Value) (s : State) :
    Rules.declare name value s =
      match (world s).declarable s.context.frame name with
      | .error failure => .error failure s
      | .ok () => (do let v ← value; Rules.bindHere name v : Eval Unit) s := by
  unfold Rules.declare World.declarable
  rw [Eval.bind_apply, Eval.keyOf_apply]
  cases name.key? with
  | none => rfl
  | some key =>
      dsimp only
      rw [Eval.bind_apply, Eval.get_apply]
      dsimp only [world]
      by_cases hlocal : s.store.hasLocal s.context.frame key = true
      · simp only [hlocal, ↓reduceIte]
        rfl
      · simp only [hlocal, Bool.false_eq_true, ↓reduceIte]

/-- The frame of an assignment is looked for before its value is evaluated. -/
theorem assign_apply (name : Name) (value : Eval Value) (s : State) :
    Rules.assign name value s =
      match (world s).target s.context.frame name with
      | .error failure => .error failure s
      | .ok target => (do let v ← value; Eval.onStore (·.set target name v) : Eval Unit) s := by
  unfold Rules.assign World.target
  rw [Eval.bind_apply, Eval.keyOf_apply]
  cases name.key? with
  | none => rfl
  | some key =>
      dsimp only
      rw [Eval.bind_apply, Eval.get_apply]
      dsimp only [world]
      cases s.store.find? s.context.frame key <;> rfl

end Equations

end Reference

end Treewalk
