import Treewalk.Proofs.Evaluation.Toplevel
import Treewalk.Proofs.Program.Behaviour

/-! # Code after a return is dead

What stands after a return in the same list of statements is never executed: inside a call the
return is under way, and outside of calls it fails. Such code can be left out anywhere, also in the
bodies of functions, which are kept in closures and called later.

Of all programs that differ in dead code only, one has none left. Each of them runs as this one
does, step by step, in states that differ in the bodies of their closures only.
-/

namespace Treewalk

def Stmt.isReturn : Stmt → Bool
  | .give .. => true
  | _ => false

/-! ## Programs with dead code left out -/

mutual

/-- The second expression is the first one with dead code left out of bodies of functions in it. -/
inductive Expr.Pruned : Expr → Expr → Prop where
  | number {span value} : Expr.Pruned (.number span value) (.number span value)
  | boolean {span value} : Expr.Pruned (.boolean span value) (.boolean span value)
  | variable {span name} : Expr.Pruned (.variable span name) (.variable span name)
  | binary {span operator left left' right right'} :
      Expr.Pruned left left' → Expr.Pruned right right' →
      Expr.Pruned (.binary span operator left right) (.binary span operator left' right')
  | function {span parameters body body'} : Stmt.AllPruned body body' →
      Expr.Pruned (.function span parameters body) (.function span parameters body')
  | call {span callee arguments arguments'} : Expr.AllPruned arguments arguments' →
      Expr.Pruned (.call span callee arguments) (.call span callee arguments')
  | malformed {reason} : Expr.Pruned (.malformed reason) (.malformed reason)

inductive Expr.AllPruned : List Expr → List Expr → Prop where
  | nil : Expr.AllPruned [] []
  | cons {e e' es es'} : Expr.Pruned e e' → Expr.AllPruned es es' →
      Expr.AllPruned (e :: es) (e' :: es')

/-- The second statement is the first one with dead code left out of lists of statements in it. -/
inductive Stmt.Pruned : Stmt → Stmt → Prop where
  | declare {span name value value'} : Expr.Pruned value value' →
      Stmt.Pruned (.declare span name value) (.declare span name value')
  | assign {span name value value'} : Expr.Pruned value value' →
      Stmt.Pruned (.assign span name value) (.assign span name value')
  | branch {span test test' thenPart thenPart' elsePart elsePart'} :
      Expr.Pruned test test' → Stmt.AllPruned thenPart thenPart' →
      Stmt.AllPruned elsePart elsePart' →
      Stmt.Pruned (.branch span test thenPart elsePart) (.branch span test' thenPart' elsePart')
  | loop {span test test' body body'} : Expr.Pruned test test' → Stmt.AllPruned body body' →
      Stmt.Pruned (.loop span test body) (.loop span test' body')
  | print {span value value'} : Expr.Pruned value value' →
      Stmt.Pruned (.print span value) (.print span value')
  | discard {span value value'} : Expr.Pruned value value' →
      Stmt.Pruned (.discard span value) (.discard span value')
  | give {span value value'} : Expr.Pruned value value' →
      Stmt.Pruned (.give span value) (.give span value')
  | malformed {reason} : Stmt.Pruned (.malformed reason) (.malformed reason)

/-- The second list is the first one with dead code left out: the list may be cut after a return. -/
inductive Stmt.AllPruned : List Stmt → List Stmt → Prop where
  | nil : Stmt.AllPruned [] []
  | cons {stmt stmt' rest rest'} : Stmt.Pruned stmt stmt' → Stmt.AllPruned rest rest' →
      Stmt.AllPruned (stmt :: rest) (stmt' :: rest')
  | cut {stmt stmt' rest} : stmt.isReturn = true → Stmt.Pruned stmt stmt' →
      Stmt.AllPruned (stmt :: rest) [stmt']

end

mutual

def Expr.live : Expr → Expr
  | .number span value => .number span value
  | .boolean span value => .boolean span value
  | .variable span name => .variable span name
  | .binary span operator left right => .binary span operator left.live right.live
  | .function span parameters body => .function span parameters (Stmt.allLive body)
  | .call span callee arguments => .call span callee (Expr.allLive arguments)
  | .malformed reason => .malformed reason

def Expr.allLive : List Expr → List Expr
  | [] => []
  | e :: rest => e.live :: Expr.allLive rest

def Stmt.live : Stmt → Stmt
  | .declare span name value => .declare span name value.live
  | .assign span name value => .assign span name value.live
  | .branch span test thenPart elsePart =>
    .branch span test.live (Stmt.allLive thenPart) (Stmt.allLive elsePart)
  | .loop span test body => .loop span test.live (Stmt.allLive body)
  | .print span value => .print span value.live
  | .discard span value => .discard span value.live
  | .give span value => .give span value.live
  | .malformed reason => .malformed reason

/-- Statements up to the first return, and without dead code in them. -/
def Stmt.allLive : List Stmt → List Stmt
  | [] => []
  | stmt :: rest => stmt.live :: if stmt.isReturn then [] else Stmt.allLive rest

end

/-- Leaving out dead code makes no statement a return, and none not a return. -/
theorem Stmt.Pruned.isReturn_eq {stmt stmt' : Stmt} (h : stmt.Pruned stmt') :
    stmt'.isReturn = stmt.isReturn := by
  cases h <;> rfl

mutual

/-- Whatever dead code was left out, leaving out all of it ends in the same expression. -/
theorem Expr.Pruned.live_eq : ∀ {e e' : Expr}, e.Pruned e' → e'.live = e.live
  | _, _, .number => rfl
  | _, _, .boolean => rfl
  | _, _, .variable => rfl
  | _, _, .binary hleft hright => by rw [Expr.live, Expr.live, hleft.live_eq, hright.live_eq]
  | _, _, .function hbody => by rw [Expr.live, Expr.live, hbody.live_eq]
  | _, _, .call harguments => by rw [Expr.live, Expr.live, harguments.live_eq]
  | _, _, .malformed => rfl

theorem Expr.AllPruned.live_eq : ∀ {es es' : List Expr}, Expr.AllPruned es es' →
    Expr.allLive es' = Expr.allLive es
  | _, _, .nil => rfl
  | _, _, .cons he hrest => by rw [Expr.allLive, Expr.allLive, he.live_eq, hrest.live_eq]

/-- Whatever dead code was left out, leaving out all of it ends in the same statement. -/
theorem Stmt.Pruned.live_eq : ∀ {stmt stmt' : Stmt}, stmt.Pruned stmt' → stmt'.live = stmt.live
  | _, _, .declare hvalue => by rw [Stmt.live, Stmt.live, hvalue.live_eq]
  | _, _, .assign hvalue => by rw [Stmt.live, Stmt.live, hvalue.live_eq]
  | _, _, .branch htest hthen helse => by
    rw [Stmt.live, Stmt.live, htest.live_eq, hthen.live_eq, helse.live_eq]
  | _, _, .loop htest hbody => by rw [Stmt.live, Stmt.live, htest.live_eq, hbody.live_eq]
  | _, _, .print hvalue => by rw [Stmt.live, Stmt.live, hvalue.live_eq]
  | _, _, .discard hvalue => by rw [Stmt.live, Stmt.live, hvalue.live_eq]
  | _, _, .give hvalue => by rw [Stmt.live, Stmt.live, hvalue.live_eq]
  | _, _, .malformed => rfl

theorem Stmt.AllPruned.live_eq : ∀ {stmts stmts' : List Stmt}, Stmt.AllPruned stmts stmts' →
    Stmt.allLive stmts' = Stmt.allLive stmts
  | _, _, .nil => rfl
  | _, _, .cons hstmt hrest => by
    rw [Stmt.allLive, Stmt.allLive, hstmt.live_eq, hstmt.isReturn_eq, hrest.live_eq]
  | _, _, .cut hreturn hstmt => by
    simp only [Stmt.allLive, hstmt.live_eq, hstmt.isReturn_eq, hreturn, if_true]

end

theorem Expr.length_allLive (es : List Expr) : (Expr.allLive es).length = es.length := by
  induction es with
  | nil => rfl
  | cons e rest ih => rw [Expr.allLive, List.length_cons, List.length_cons, ih]

/-! ## States with dead code left out -/

def Closure.live (closure : Closure) : Closure := { closure with body := Stmt.allLive closure.body }

def Store.live (store : Store) : Store := { store with closures := store.closures.map Closure.live }

def State.live (s : State) : State := { s with store := s.store.live }

namespace Store

theorem getElem?_live (store : Store) (id : ClosureId) :
    store.live.closures[id]? = store.closures[id]?.map Closure.live := Array.getElem?_map

/-- A closure may be trimmed before or after it is added. -/
theorem addClosure_live (store : Store) (closure : Closure) :
    (store.addClosure closure).2.live = (store.live.addClosure closure.live).2 := by
  simp only [Store.live, Store.addClosure, Array.map_push]

theorem nameValue_live (store : Store) (name : Name) (v : Value) :
    (store.nameValue name v).live = store.live.nameValue name v := by
  cases v with
  | number x => rfl
  | boolean b => rfl
  | function id =>
      simp only [Store.live, Store.nameValue, Store.nameClosure, Store.mk.injEq, true_and]
      apply Array.ext_getElem?
      intro i
      simp only [Array.getElem?_map, Array.getElem?_modify]
      split
      · rw [Option.map_map, Option.map_map]
        congr 1
        funext closure
        exact apply_ite Closure.live _ _ _
      · rfl

/-- What frames look up knows nothing of closures. -/
theorem chainUpTo_live (store : Store) (count : Nat) (id : FrameId) :
    store.live.chainUpTo count id = store.chainUpTo count id := by
  induction count generalizing id with
  | zero => rfl
  | succ count ih =>
      have hframes : store.live.frames = store.frames := rfl
      simp only [Store.chainUpTo, ih, hframes]

theorem find?_live (store : Store) (id : FrameId) (key : Key) :
    store.live.find? id key = store.find? id key := by
  unfold Store.find? Store.chain
  rw [chainUpTo_live]
  rfl

theorem get?_live (store : Store) (id : FrameId) (key : Key) :
    store.live.get? id key = store.get? id key := by
  unfold Store.get?
  rw [find?_live]
  rfl

/-- Dead code is not shown. -/
theorem text?_live (store : Store) (v : Value) : v.text? store.live = v.text? store := by
  cases v with
  | function id =>
      simp only [Value.text?, getElem?_live, Option.map_map]
      rfl
  | _ => rfl

/-- Values look the same, since bodies are not shown. -/
theorem datum?_live (store : Store) (v : Value) : v.datum? store.live = v.datum? store := by
  cases v with
  | function id => exact congrArg (Option.map Datum.text) (store.text?_live (.function id))
  | _ => rfl

end Store

namespace DeadCode

open Reference (world settle)

variable {α β : Type}

def trimmed : EStateM.Result Failure State α → EStateM.Result Failure State α
  | .ok a s => .ok a s.live
  | .error failure s => .error failure s.live

/-- The second action does to states without dead code what the first one does to states that have
dead code. -/
def Commutes (action action' : Eval α) : Prop := ∀ s : State, action' s.live = trimmed (action s)

theorem Commutes.bind {action action' : Eval α} {next next' : α → Eval β}
    (haction : Commutes action action') (hnext : ∀ a, Commutes (next a) (next' a)) :
    Commutes (action >>= next) (action' >>= next') := by
  intro s
  rw [Eval.bind_apply, Eval.bind_apply, haction s]
  cases action s with
  | ok a t => exact hnext a t
  | error failure t => rfl

theorem commutes_pure (a : α) : Commutes (pure a) (pure a) := fun _ => rfl

theorem commutes_throw (failure : Failure) :
    Commutes (throw failure : Eval α) (throw failure) := fun _ => rfl

theorem commutes_fail (e : RuntimeError) :
    Commutes (Eval.fail e : Eval α) (Eval.fail e) := fun _ => rfl

theorem commutes_record (event : Event) :
    Commutes (Eval.record event) (Eval.record event) := fun _ => rfl

theorem commutes_emit (v : Value) : Commutes (Eval.emit v) (Eval.emit v) := by
  intro s
  have htext : v.text? s.live.store = v.text? s.store := s.store.text?_live v
  exact congrArg (fun text? => EStateM.Result.ok () { s.live with
    context := { s.context with printed := s.context.printed.push v }
    echoed := s.echoed.push text? }) htext

theorem commutes_signal (v : Value) : Commutes (Eval.signal v) (Eval.signal v) := fun _ => rfl

theorem commutes_takePending : Commutes Eval.takePending Eval.takePending := fun _ => rfl

/-- Bindings know nothing of bodies. -/
theorem commutes_set (target : FrameId) (name : Name) (v : Value) :
    Commutes (Eval.onStore (·.set target name v)) (Eval.onStore (·.set target name v)) :=
  fun _ => rfl

theorem commutes_keyOf (name : Name) : Commutes (Eval.keyOf name) (Eval.keyOf name) := by
  unfold Eval.keyOf
  cases name.key? with
  | none => exact commutes_throw _
  | some key => exact commutes_pure key

theorem commutes_settle (r : Except Failure α) (s : State) :
    settle s.live r = trimmed (settle s r) := by
  cases r <;> rfl

theorem lookup_live (s : State) (frame : FrameId) (name : Name) :
    (world s.live).lookup frame name = (world s).lookup frame name := by
  simp only [Reference.World.lookup, world, State.live, Store.get?_live]

theorem target_live (s : State) (frame : FrameId) (name : Name) :
    (world s.live).target frame name = (world s).target frame name := by
  simp only [Reference.World.target, world, State.live, Store.find?_live]

/-- A call finds the same closure. -/
theorem callee_live (s : State) (frame : FrameId) (callee : Name) (count : Nat) :
    (world s.live).callee frame callee count =
      ((world s).callee frame callee count).map Closure.live := by
  unfold Reference.World.callee
  rw [lookup_live]
  cases (world s).lookup frame callee with
  | error failure => rfl
  | ok v =>
      cases v with
      | number x => rfl
      | boolean b => rfl
      | function id =>
          simp only [world, State.live, Store.getElem?_live]
          cases s.store.closures[id]? with
          | none => rfl
          | some closure =>
              simp only [Option.map_some, Closure.live]
              split <;> rfl

theorem commutes_lookup (name : Name) : Commutes (Eval.lookup name) (Eval.lookup name) := by
  intro s
  rw [Reference.lookup_apply, Reference.lookup_apply, lookup_live]
  exact commutes_settle _ s

/-- A literal without dead code makes a closure without dead code. -/
theorem commutes_newClosure (parameters : List Name) (body : List Stmt) :
    Commutes (Eval.newClosure parameters body)
      (Eval.newClosure parameters (Stmt.allLive body)) := by
  intro s
  have hstore := s.store.addClosure_live { parameters, body, frame := s.context.frame }
  have hsize : s.live.store.closures.size = s.store.closures.size := Array.size_map
  change EStateM.Result.ok (Value.function s.live.store.closures.size) _ = _
  rw [hsize]
  exact congrArg (fun store => EStateM.Result.ok (Value.function s.store.closures.size)
    { s with store }) hstore.symm

/-- Neither frames nor the count of calls have to do with dead code. -/
theorem commutes_within {action action' : Eval α} (haction : Commutes action action')
    (frame : FrameId) (calls : Nat) :
    Commutes (Eval.within frame calls action) (Eval.within frame calls action') := by
  intro s
  rw [Eval.within_apply, Eval.within_apply]
  have hinner := haction (Eval.entering s frame calls)
  change action' (Eval.entering s.live frame calls) = _ at hinner
  rw [hinner]
  cases action (Eval.entering s frame calls) <;> rfl

theorem commutes_inChild {action action' : Eval α} (haction : Commutes action action')
    (name : String) : Commutes (Eval.inChild name action) (Eval.inChild name action') := by
  intro s
  rw [Eval.inChild_apply, Eval.inChild_apply]
  exact commutes_within haction _ _ (Eval.withFrame s name s.context.frame)

theorem commutes_unlessReturning {action action' : Eval Unit} (haction : Commutes action action') :
    Commutes (Eval.unlessReturning action) (Eval.unlessReturning action') := by
  intro s
  rw [Eval.unlessReturning_apply, Eval.unlessReturning_apply]
  change (if s.context.pending.isSome then _ else _) = _
  split
  · rfl
  · exact haction s

/-! ## The rules of evaluation -/

section Operators

variable {left left' right right' : Eval Value} (hleft : Commutes left left')
  (hright : Commutes right right')

include hleft hright

theorem commutes_logical (operator : Operator) (decides : Bool) :
    Commutes (Rules.logical operator decides left right)
      (Rules.logical operator decides left' right') := by
  refine hleft.bind fun v => ?_
  cases v with
  | number x => exact commutes_fail _
  | boolean b =>
      dsimp only
      split
      · exact commutes_pure _
      · exact hright
  | function id => exact commutes_fail _

theorem commutes_binary (operator : Operator) :
    Commutes (Rules.binary operator left right) (Rules.binary operator left' right') := by
  have hoperate : Commutes
      (do let a ← left; let b ← right; Eval.ofExcept (Rules.operate operator a b))
      (do let a ← left'; let b ← right'; Eval.ofExcept (Rules.operate operator a b)) := by
    refine hleft.bind fun a => hright.bind fun b => ?_
    cases Rules.operate operator a b with
    | ok v => exact commutes_pure v
    | error e => exact commutes_fail e
  cases operator with
  | and => exact commutes_logical hleft hright _ _
  | or => exact commutes_logical hleft hright _ _
  | strictEqual => exact hleft.bind fun a => hright.bind fun b => commutes_pure _
  | _ => exact hoperate

end Operators

theorem commutes_bindAll (frame : FrameId) (entries : List (Name × Value)) :
    Commutes (Rules.bindAll frame entries) (Rules.bindAll frame entries) := by
  induction entries with
  | nil => exact commutes_pure ()
  | cons entry rest ih =>
      exact (commutes_keyOf entry.1).bind fun _ => (commutes_set _ _ _).bind fun _ => ih

section Rules

variable {eval : Expr → Eval Value} {exec : Stmt → Eval Unit}
  (heval : ∀ e, Commutes (eval e) (eval e.live))
  (hexec : ∀ stmt, Commutes (exec stmt) (exec stmt.live))
  (hreturn : ∀ stmt s t, stmt.isReturn = true → exec stmt s = .ok () t →
    t.context.pending.isSome = true)

include heval in
theorem commutes_evalAll (es : List Expr) :
    Commutes (Rules.evalAll eval es) (Rules.evalAll eval (Expr.allLive es)) := by
  induction es with
  | nil => exact commutes_pure []
  | cons e rest ih => exact (heval e).bind fun v => ih.bind fun vs => commutes_pure _

include hexec hreturn in
/-- After a return that ends, a list of statements is not gone on with. -/
theorem commutes_sequence (stmts : List Stmt) :
    Commutes (Rules.sequence exec stmts) (Rules.sequence exec (Stmt.allLive stmts)) := by
  induction stmts with
  | nil => exact commutes_pure ()
  | cons stmt rest ih =>
      rw [Stmt.allLive]
      cases hstmt : stmt.isReturn with
      | false => exact (hexec stmt).bind fun _ => commutes_unlessReturning ih
      | true =>
          intro s
          simp only [if_true, Rules.sequence, Eval.bind_apply, hexec stmt s]
          cases hrun : exec stmt s with
          | error failure t => rfl
          | ok a t =>
              have hpending := hreturn stmt s t hstmt hrun
              simp only [trimmed, Eval.unlessReturning_apply]
              rw [if_pos hpending]
              exact if_pos hpending

include hexec hreturn in
/-- A call runs the body of its closure up to the first return, so that nothing after it is
missed. -/
theorem commutes_invoke (callee : Name) (closure : Closure) (values : List Value) :
    Commutes (Rules.invoke exec callee closure values)
      (Rules.invoke exec callee closure.live values) := by
  have hbody := commutes_sequence hexec hreturn closure.body
  intro s
  change _ = trimmed ((Eval.newFrame _ closure.frame >>= _) s)
  rw [Eval.bind_apply, Eval.newFrame_apply]
  generalize hstart : Eval.withFrame s ("call:" ++ callee.plain) closure.frame = start
  have hsame : Rules.invoke exec callee closure.live values s.live =
      (do
        Rules.bindAll s.store.frames.size (closure.parameters.zip values)
        Eval.record (.called callee values)
        Eval.within s.store.frames.size 1 (Rules.sequence exec closure.live.body)
        Eval.takePending : Eval (Option Value)) start.live := by
    rw [← hstart]
    rfl
  rw [hsame]
  refine ((commutes_bindAll _ _).bind fun _ => (commutes_record _).bind fun _ => ?_) start
  exact (commutes_within hbody _ _).bind fun _ => commutes_takePending

include heval hexec hreturn in
/-- A call finds the trimmed closure where the closure was. -/
theorem commutes_call (callee : Name) (arguments : List Expr) :
    Commutes (Rules.call eval exec callee arguments)
      (Rules.call eval exec callee (Expr.allLive arguments)) := by
  intro s
  have hframe : s.live.context.frame = s.context.frame := rfl
  rw [Reference.call_apply, Reference.call_apply, hframe, callee_live, Expr.length_allLive]
  cases (world s).callee s.context.frame callee arguments.length with
  | error failure => rfl
  | ok closure =>
      have harguments := commutes_evalAll heval arguments
      exact harguments.bind (fun values => commutes_invoke hexec hreturn callee closure values) s

include heval hexec hreturn in
/-- The step over expressions: what commutes for parts nested less deeply commutes for all. -/
theorem commutes_evalStep (e : Expr) :
    Commutes (Rules.evalStep eval exec e) (Rules.evalStep eval exec e.live) := by
  cases e with
  | number span x => exact commutes_pure _
  | boolean span b => exact commutes_pure _
  | «variable» span name => exact commutes_lookup name
  | binary span operator left right => exact commutes_binary (heval left) (heval right) operator
  | function span parameters body => exact commutes_newClosure parameters body
  | call span callee arguments =>
      refine (commutes_call heval hexec hreturn callee arguments).bind fun result => ?_
      cases result with
      | none => exact commutes_fail _
      | some v => exact commutes_pure v
  | malformed reason => exact commutes_throw _

theorem commutes_loop {test test' : Eval Value} {body body' : Eval Unit}
    (htest : Commutes test test') (hbody : Commutes body body') (iterations : Nat) :
    Commutes (Rules.loop test body iterations) (Rules.loop test' body' iterations) := by
  induction iterations with
  | zero => exact commutes_throw _
  | succ iterations ih =>
      refine htest.bind fun v => ?_
      cases v with
      | number x => exact commutes_fail _
      | boolean b =>
          cases b with
          | true => exact hbody.bind fun _ => commutes_unlessReturning ih
          | false => exact commutes_pure ()
      | function id => exact commutes_fail _

theorem commutes_bindHere (name : Name) (v : Value) :
    Commutes (Rules.bindHere name v) (Rules.bindHere name v) := by
  intro s
  unfold Rules.bindHere
  rw [Eval.bind_apply, Eval.bind_apply, Eval.get_apply, Eval.get_apply]
  refine Commutes.bind (fun t => ?_) (fun _ => commutes_record _) s
  exact congrArg (fun store : Store => EStateM.Result.ok ()
    { t with store := store.set s.context.frame name v }) (t.store.nameValue_live name v).symm

theorem commutes_declare (name : Name) {value value' : Eval Value}
    (hvalue : Commutes value value') :
    Commutes (Rules.declare name value) (Rules.declare name value') := by
  intro s
  have hsame : (world s.live).declarable s.live.context.frame name =
      (world s).declarable s.context.frame name := rfl
  rw [Reference.declare_apply, Reference.declare_apply, hsame]
  cases (world s).declarable s.context.frame name with
  | error failure => rfl
  | ok _ => exact hvalue.bind (fun v => commutes_bindHere name v) s

theorem commutes_assign (name : Name) {value value' : Eval Value}
    (hvalue : Commutes value value') :
    Commutes (Rules.assign name value) (Rules.assign name value') := by
  intro s
  have hframe : s.live.context.frame = s.context.frame := rfl
  rw [Reference.assign_apply, Reference.assign_apply, hframe, target_live]
  cases (world s).target s.context.frame name with
  | error failure => rfl
  | ok target => exact hvalue.bind (fun v => commutes_set target name v) s

theorem commutes_give {value value' : Eval Value} (hvalue : Commutes value value') :
    Commutes (Rules.give value) (Rules.give value') := by
  intro s
  have hdepth : s.live.context.callDepth = s.context.callDepth := rfl
  unfold Rules.give
  rw [Eval.bind_apply, Eval.bind_apply, Eval.get_apply, Eval.get_apply]
  dsimp only
  rw [hdepth]
  split
  · rfl
  · exact hvalue.bind (fun v => commutes_signal v) s

include heval hexec hreturn in
/-- The step over statements: what commutes for parts nested less deeply commutes for all. -/
theorem commutes_execStep (iterations : Nat) (stmt : Stmt) :
    Commutes (Rules.execStep iterations eval exec stmt)
      (Rules.execStep iterations eval exec stmt.live) := by
  have hblock : ∀ name block, Commutes (Eval.inChild name (Rules.sequence exec block))
      (Eval.inChild name (Rules.sequence exec (Stmt.allLive block))) :=
    fun name block => commutes_inChild (commutes_sequence hexec hreturn block) name
  cases stmt with
  | declare span name value => exact commutes_declare name (heval value)
  | assign span name value => exact commutes_assign name (heval value)
  | branch span test thenPart elsePart =>
      refine (heval test).bind fun v => ?_
      cases v with
      | number x => exact commutes_fail _
      | boolean b =>
          cases b with
          | true => exact hblock _ thenPart
          | false => exact hblock _ elsePart
      | function id => exact commutes_fail _
  | loop span test body => exact commutes_loop (heval test) (hblock _ body) iterations
  | print span value =>
      exact (heval value).bind fun v => (commutes_record _).bind fun _ => commutes_emit v
  | discard span value =>
      have hvalue := heval value
      cases value with
      | call callSpan callee arguments =>
          exact (commutes_call heval hexec hreturn callee arguments).bind fun _ => commutes_pure ()
      | _ => exact hvalue.bind fun _ => commutes_pure ()
  | give span value => exact commutes_give (heval value)
  | malformed reason => exact commutes_throw _

end Rules

/-! ## Whole runs -/

/-- A return that ends is under way. -/
theorem pending_of_return {iterations depth : Nat} {stmt : Stmt} {s t : State}
    (hstmt : stmt.isReturn = true) (hrun : exec iterations depth stmt s = .ok () t) :
    t.context.pending.isSome = true := by
  cases depth with
  | zero => cases hrun
  | succ depth =>
      cases stmt with
      | give span value =>
          change Rules.give (eval iterations depth value) s = _ at hrun
          unfold Rules.give at hrun
          rw [Eval.bind_apply, Eval.get_apply] at hrun
          dsimp only at hrun
          split at hrun
          · cases hrun
          · rw [Eval.bind_apply] at hrun
            cases hvalue : eval iterations depth value s with
            | error failure u =>
                rw [hvalue] at hrun
                cases hrun
            | ok v u =>
                rw [hvalue] at hrun
                cases hrun
                rfl
      | _ => cases hstmt

/-- At every depth, what is executed without dead code leaves what is executed with it, trimmed. -/
theorem commutes_eval_exec (iterations depth : Nat) :
    (∀ e, Commutes (eval iterations depth e) (eval iterations depth e.live)) ∧
      ∀ stmt, Commutes (exec iterations depth stmt) (exec iterations depth stmt.live) := by
  induction depth with
  | zero => exact ⟨fun _ => commutes_throw _, fun _ => commutes_throw _⟩
  | succ depth ih =>
      have hreturn : ∀ stmt s t, stmt.isReturn = true → exec iterations depth stmt s = .ok () t →
          t.context.pending.isSome = true := fun _ _ _ => pending_of_return
      exact ⟨commutes_evalStep ih.1 ih.2 hreturn, commutes_execStep ih.1 ih.2 hreturn iterations⟩

/-- At the top level a return fails, so that what follows it is dead as well. -/
theorem execAll_live (limits : Limits) (program : Program) {s : State}
    (hdepth : s.context.callDepth = 0) (hpending : s.context.pending = none) :
    execAll limits (Stmt.allLive program) s.live = trimmed (execAll limits program s) := by
  induction program generalizing s with
  | nil => rfl
  | cons stmt rest ih =>
      have hstep := (commutes_eval_exec limits.iterations limits.depth).2 stmt s
      have hsignals := Discipline.kept.exec limits.iterations limits.depth stmt s
      rw [Stmt.allLive, Toplevel.execAll_cons, Toplevel.execAll_cons, hstep]
      cases hrun : exec limits.iterations limits.depth stmt s with
      | error failure t => rfl
      | ok a t =>
          rw [hrun] at hsignals
          obtain ⟨hrestored, hsignal⟩ := hsignals
          have hquiet : ¬ t.context.pending.isSome = true := fun hsome =>
            absurd hdepth (Nat.ne_of_gt (hsignal hpending hsome))
          cases hstmt : stmt.isReturn with
          | true => exact absurd (pending_of_return hstmt hrun) hquiet
          | false =>
              exact ih (hrestored.callDepth.trans hdepth)
                (Option.not_isSome_iff_eq_none.mp hquiet)

end DeadCode

/-- The names that the top level binds at the end of a run, with the texts of their values. -/
def RunResult.shown (r : RunResult) : List (Name × Option String) :=
  r.bindings.map fun binding => (binding.1, binding.2.text? r.state.store)

namespace State

variable {s t : State} (hlive : t.live = s.live)

include hlive

theorem store_of_live : t.store.live = s.store.live := by
  change t.live.store = s.live.store
  rw [hlive]

theorem text?_of_live (v : Value) : v.text? t.store = v.text? s.store := by
  rw [← t.store.text?_live, ← s.store.text?_live, store_of_live hlive]

theorem datum?_of_live (v : Value) : v.datum? t.store = v.datum? s.store := by
  rw [← t.store.datum?_live, ← s.store.datum?_live, store_of_live hlive]

theorem bindings_of_live (id : FrameId) : t.store.bindings id = s.store.bindings id := by
  change t.store.live.bindings id = s.store.live.bindings id
  rw [store_of_live hlive]

theorem context_of_live : t.context = s.context := by
  change t.live.context = s.live.context
  rw [hlive]

/-- States that differ in dead code show the same. -/
theorem sameView_of_live (failure : Option Failure) (trace trace' : Array Event) :
    RunResult.SameView ⟨{ s with trace }, failure⟩ ⟨{ t with trace := trace' }, failure⟩ ∧
      RunResult.shown ⟨{ t with trace := trace' }, failure⟩ =
        RunResult.shown ⟨{ s with trace }, failure⟩ := by
  have htext := text?_of_live hlive
  have hdatum := datum?_of_live hlive
  have hbindings := bindings_of_live hlive Store.root
  refine ⟨⟨rfl, rfl, ?_, fun format => ?_⟩, ?_⟩
  · simp only [RunResult.lines, context_of_live hlive, htext]
  · cases format <;>
      simp only [RunResult.report?, RunResult.bindings, Report.render?, Report.textOf?,
        Report.entriesOf?, hbindings, htext, hdatum]
  · simp only [RunResult.shown, RunResult.bindings, hbindings, htext]

end State

namespace Program

/-- Code after a return is dead. A program and the same program with the statements after a return
left out, in any of its lists of statements, run alike whatever the limits are: they end with the
same success and failure, print the same, and show the same names with the same values. -/
theorem run_pruned (limits : Limits) {program pruned : Program}
    (hpruned : Stmt.AllPruned program pruned) :
    (program.run limits).SameView (pruned.run limits) ∧
      (pruned.run limits).shown = (program.run limits).shown := by
  have hends : DeadCode.trimmed (execAll limits pruned State.initial) =
      DeadCode.trimmed (execAll limits program State.initial) := by
    rw [← DeadCode.execAll_live limits pruned rfl rfl,
      ← DeadCode.execAll_live limits program rfl rfl, hpruned.live_eq]
  unfold run
  generalize execAll limits program State.initial = r,
    execAll limits pruned State.initial = r' at hends
  cases r with
  | ok a s =>
      cases r' with
      | error failure t => cases hends
      | ok b t =>
          injection hends with _ hlive
          exact State.sameView_of_live hlive none _ _
  | error failure s =>
      cases r' with
      | ok b t => cases hends
      | error reason t =>
          injection hends with hreason hlive
          subst hreason
          -- what is added to the trace depends on the kind of failure
          cases reason <;> exact State.sameView_of_live hlive _ _ _

/-- Prints what a function returns from a loop, and returns at the top level. -/
def withReturns (dead : List Stmt) : Program :=
  let body : List Stmt :=
    [.loop none (.boolean none true) (.give none (.boolean none true) :: dead)]
  .declare none (.text "f") (.function none [] body) ::
    .print none (.call none (.text "f") []) :: .give none (.boolean none false) :: dead

/-- A statement that fails where it is executed. -/
def failing : List Stmt := [.print none (.variable none (.text "x"))]

theorem run_pruned_withReturns :
    Stmt.AllPruned (withReturns failing) (withReturns []) ∧
      (run ⟨6, 2⟩ (withReturns failing)).failure = some (.error .returnOutsideFunction) ∧
      (run ⟨6, 2⟩ (withReturns failing)).state.context.printed = #[.boolean true] ∧
      (run ⟨6, 2⟩ (withReturns failing)).SameView (run ⟨6, 2⟩ (withReturns [])) := by
  have hreturn : ∀ b, Stmt.AllPruned (.give none (.boolean none b) :: failing)
      [.give none (.boolean none b)] := fun _ => .cut rfl (.give .boolean)
  have hpruned : Stmt.AllPruned (withReturns failing) (withReturns []) :=
    .cons (.declare (.function (.cons (.loop .boolean (hreturn true)) .nil)))
      (.cons (.print (.call .nil)) (hreturn false))
  exact ⟨hpruned, rfl, rfl, (run_pruned ⟨6, 2⟩ hpruned).1⟩

end Program

end Treewalk
