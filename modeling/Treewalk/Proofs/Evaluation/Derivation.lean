import Treewalk.Proofs.Evaluation.Equations

/-! # Runs that end have derivations

Whatever an expression or statement ends in, unless a limit cuts it short, can be derived in
`Reference`. The induction is on the nesting depth; the discipline of the context says in which
scope the next part is run.
-/

namespace Treewalk

def Failure.isLimit : Failure → Bool
  | .tooDeep => true
  | .unfinished => true
  | _ => false

namespace Reference

variable {α : Type}

/-- How statements ended that left a return under way or not. -/
def Outcome.ofPending : Option Value → Outcome
  | none => .normal
  | some v => .returned v

/-- How the body of a call ended whose result is given. -/
def Outcome.ofCall : Except Failure (Option Value) → Outcome
  | .ok result => .ofPending result
  | .error failure => .error failure

/-- A result within the limits has a derivation. -/
def Derived (derives : Except Failure α → World → Prop) : EStateM.Result Failure State α → Prop
  | .ok a t => derives (.ok a) (world t)
  | .error failure t => failure.isLimit = false → derives (.error failure) (world t)

/-- The end of statements within the limits has a derivation. -/
def EndDerived (derives : Outcome → World → Prop) : EStateM.Result Failure State Unit → Prop
  | .ok _ t => derives (.ofPending t.context.pending) (world t)
  | .error failure t => failure.isLimit = false → derives (.error failure) (world t)

theorem EndDerived.imp {derives more : Outcome → World → Prop}
    {result : EStateM.Result Failure State Unit} (h : EndDerived derives result)
    (himp : ∀ outcome w, derives outcome w → more outcome w) : EndDerived more result := by
  cases result with
  | ok a t => exact himp _ _ h
  | error failure t => exact fun hlimit => himp _ _ (h hlimit)

/-- A world in which nothing more was printed is that of the state with its store. -/
theorem world_with_store {t : State} {w : World} (h : w.printed = (world t).printed) :
    world { t with store := w.store } = w := by
  cases w
  cases h
  rfl

/-- An expression that ended leaves the scope as it was, with no return under way. -/
theorem scope_of_quiet {action : Eval α} (haction : Discipline.contracts.value.Holds action)
    {s t : State} {a : α} (hs : s.context.pending = none) (hrun : action s = .ok a t) :
    scope t = scope s ∧ t.context.pending = none := by
  have hquiet := haction s
  rw [hrun] at hquiet
  refine ⟨?_, hquiet.2 hs⟩
  unfold scope
  rw [hquiet.1.frame, hquiet.1.callDepth]

/-- Statements that ended leave the scope as it was. -/
theorem scope_of_signals {action : Eval Unit}
    (haction : Discipline.contracts.statement.Holds action) {s t : State} {a : Unit}
    (hrun : action s = .ok a t) : scope t = scope s := by
  have hsignals := haction s
  rw [hrun] at hsignals
  unfold scope
  rw [hsignals.1.frame, hsignals.1.callDepth]

/-- The parts of expressions and statements keep the discipline and have derivations. -/
structure Sound (eval : Expr → Eval Value) (exec : Stmt → Eval Unit) : Prop where
  quiet : ∀ e, Discipline.contracts.value.Holds (eval e)
  signals : ∀ stmt, Discipline.contracts.statement.Holds (exec stmt)
  evaluates : ∀ e {s}, s.context.pending = none →
    Derived (Evaluates (scope s) e (world s)) (eval e s)
  executes : ∀ stmt {s}, s.context.pending = none →
    EndDerived (Executes (scope s) stmt (world s)) (exec stmt s)

namespace Sound

variable {eval : Expr → Eval Value} {exec : Stmt → Eval Unit} (hsound : Sound eval exec)

include hsound

/-- Arguments have a derivation that goes from left to right, up to the first failure. -/
theorem evalAll (es : List Expr) {s : State} (hs : s.context.pending = none) :
    Derived (EvaluatesAll (scope s) es (world s)) (Rules.evalAll eval es s) := by
  induction es generalizing s with
  | nil => exact .nil
  | cons e rest ih =>
      unfold Rules.evalAll
      rw [Eval.bind_apply]
      have hhead := hsound.evaluates e hs
      cases hrun : eval e s with
      | error failure t =>
          rw [hrun] at hhead
          exact fun hlimit => .headError (hhead hlimit)
      | ok v t =>
          rw [hrun] at hhead
          obtain ⟨hscope, ht⟩ := scope_of_quiet (hsound.quiet e) hs hrun
          have htail := ih ht
          rw [hscope] at htail
          dsimp only
          rw [Eval.bind_apply]
          cases hrest : Rules.evalAll eval rest t with
          | error failure u =>
              rw [hrest] at htail
              exact fun hlimit => .tailError hhead (htail hlimit)
          | ok vs u =>
              rw [hrest] at htail
              exact .cons hhead htail

/-- Statements have a derivation up to the first that does not end normally. -/
theorem sequence (stmts : List Stmt) {s : State} (hs : s.context.pending = none) :
    EndDerived (ExecutesAll (scope s) stmts (world s)) (Rules.sequence exec stmts s) := by
  induction stmts generalizing s with
  | nil =>
      change ExecutesAll _ _ _ (.ofPending s.context.pending) _
      rw [hs]
      exact .nil
  | cons stmt rest ih =>
      unfold Rules.sequence
      rw [Eval.bind_apply]
      have hhead := hsound.executes stmt hs
      cases hrun : exec stmt s with
      | error failure t =>
          rw [hrun] at hhead
          exact fun hlimit => .stopped (hhead hlimit) Outcome.noConfusion
      | ok a t =>
          rw [hrun] at hhead
          change Executes _ _ _ (.ofPending t.context.pending) _ at hhead
          dsimp only
          rw [Eval.unlessReturning_apply]
          cases hpending : t.context.pending with
          | some v =>
              rw [hpending] at hhead
              change ExecutesAll _ _ _ (.ofPending t.context.pending) _
              rw [hpending]
              exact .stopped hhead Outcome.noConfusion
          | none =>
              rw [hpending] at hhead
              have htail := ih hpending
              rw [scope_of_signals (hsound.signals stmt) hrun] at htail
              exact htail.imp fun _ _ => .cons hhead

/-- The body of a call starts with no return under way, and the call takes the one it leaves. -/
theorem invoke {callee : Name} {arguments : List Expr} {closure : Closure} {values : List Value}
    {s t : State} (hcallee : (world s).callee s.context.frame callee arguments.length = .ok closure)
    (harguments : EvaluatesAll (scope s) arguments (world s) (.ok values) (world t))
    (ht : t.context.pending = none) :
    Derived (fun result => Calls (scope s) callee arguments (world s) (.ofCall result))
      (Rules.invoke exec callee closure values t) := by
  rw [invoke_apply]
  cases henter : (world t).enter callee closure values with
  | mk refused w =>
      have hworld : world { t with store := w.store } = w := world_with_store (enter_printed henter)
      cases refused with
      | some failure =>
          intro _
          rw [hworld]
          exact .parameterError hcallee harguments henter
      | none =>
          dsimp only
          rw [Eval.bind_apply, Eval.within_apply]
          -- The caller's scope is left for the fresh frame and comes back only with `leaving`.
          let inner := Eval.entering (entered t callee values w) t.store.frames.size 1
          have hscope : scope inner = ⟨(world t).store.frames.size, true⟩ := by
            simp [scope, inner, Eval.entering, world]
          have hbody := hsound.sequence closure.body (s := inner) ht
          rw [hscope, show world inner = w from hworld] at hbody
          cases hrun : Rules.sequence exec closure.body inner with
          | error failure u =>
              rw [hrun] at hbody
              exact fun hlimit => .body hcallee harguments henter (hbody hlimit)
          | ok a u =>
              rw [hrun] at hbody
              exact .body hcallee harguments henter hbody

/-- A call has a derivation: its callee is looked up, its arguments are evaluated, its body is
run. -/
theorem call (callee : Name) (arguments : List Expr) {s : State}
    (hs : s.context.pending = none) :
    Derived (fun result => Calls (scope s) callee arguments (world s) (.ofCall result))
      (Rules.call eval exec callee arguments s) := by
  rw [call_apply]
  cases hcallee : (world s).callee s.context.frame callee arguments.length with
  | error failure => exact fun _ => .refused hcallee
  | ok closure =>
      dsimp only
      rw [Eval.bind_apply]
      have harguments := hsound.evalAll arguments hs
      cases hrun : Rules.evalAll eval arguments s with
      | error failure t =>
          rw [hrun] at harguments
          exact fun hlimit => .argumentError hcallee (harguments hlimit)
      | ok values t =>
          rw [hrun] at harguments
          have ht := (scope_of_quiet
            (Discipline.kept.evalAll hsound.quiet arguments) hs hrun).2
          exact hsound.invoke hcallee harguments ht

theorem binary (span : Option Span) (operator : Operator) (left right : Expr) {s : State}
    (hs : s.context.pending = none) :
    Derived (Evaluates (scope s) (.binary span operator left right) (world s))
      (Rules.binary operator (eval left) (eval right) s) := by
  rw [binary_apply]
  have hleft := hsound.evaluates left hs
  cases hrun : eval left s with
  | error failure t =>
      rw [hrun] at hleft
      exact fun hlimit => .leftError (hleft hlimit)
  | ok a t =>
      rw [hrun] at hleft
      obtain ⟨hscope, ht⟩ := scope_of_quiet (hsound.quiet left) hs hrun
      dsimp only
      cases hdecided : decided operator a with
      | some result =>
          cases result with
          | ok v => exact .decided hleft hdecided
          | error failure => exact fun _ => .decided hleft hdecided
      | none =>
          have hright := hsound.evaluates right ht
          rw [hscope] at hright
          dsimp only
          cases hrest : eval right t with
          | error failure u =>
              rw [hrest] at hright
              exact fun hlimit => .rightError hleft hdecided (hright hlimit)
          | ok b u =>
              rw [hrest] at hright
              have hcombined : Evaluates (scope s) (.binary span operator left right) (world s)
                  (combined operator a b) (world u) := .combined hleft hdecided hright
              dsimp only
              cases hresult : combined operator a b with
              | ok v =>
                  rw [hresult] at hcombined
                  exact hcombined
              | error failure =>
                  rw [hresult] at hcombined
                  exact fun _ => hcombined

/-- The step over expressions: if the parts of an expression have derivations, it has one. -/
theorem evalStep (e : Expr) {s : State} (hs : s.context.pending = none) :
    Derived (Evaluates (scope s) e (world s)) (Rules.evalStep eval exec e s) := by
  cases e with
  | number span value => exact .number
  | boolean span value => exact .boolean
  | «variable» span name =>
      change Derived _ (Eval.lookup name s)
      rw [lookup_apply]
      have hlookup : Evaluates (scope s) (.variable span name) (world s)
          ((world s).lookup s.context.frame name) (world s) := .lookup
      cases hresult : (world s).lookup s.context.frame name with
      | ok v =>
          rw [hresult] at hlookup
          exact hlookup
      | error failure =>
          rw [hresult] at hlookup
          exact fun _ => hlookup
  | binary span operator left right => exact hsound.binary span operator left right hs
  | function span parameters body => exact .function
  | call span callee arguments =>
      have hcall := hsound.call callee arguments hs
      dsimp only [Rules.evalStep]
      rw [Eval.bind_apply]
      cases hrun : Rules.call eval exec callee arguments s with
      | error failure t =>
          rw [hrun] at hcall
          exact fun hlimit => .callError (hcall hlimit)
      | ok returned t =>
          rw [hrun] at hcall
          cases returned with
          | some v => exact .callReturned hcall
          | none => exact fun _ => .callNormal hcall
  | malformed reason => exact fun _ => .malformed

/-- What a statement does after its expression starts in the statement's scope. -/
theorem after {derives : Outcome → World → Prop} {e : Expr} {next : Value → Eval Unit} {s : State}
    (hs : s.context.pending = none)
    (herror : ∀ failure w, Evaluates (scope s) e (world s) (.error failure) w →
      derives (.error failure) w)
    (hnext : ∀ v t, scope t = scope s → t.context.pending = none →
      Evaluates (scope s) e (world s) (.ok v) (world t) → EndDerived derives (next v t)) :
    EndDerived derives ((eval e >>= next) s) := by
  rw [Eval.bind_apply]
  have hvalue := hsound.evaluates e hs
  cases hrun : eval e s with
  | error failure t =>
      rw [hrun] at hvalue
      exact fun hlimit => herror failure _ (hvalue hlimit)
  | ok v t =>
      rw [hrun] at hvalue
      obtain ⟨hscope, ht⟩ := scope_of_quiet (hsound.quiet e) hs hrun
      exact hnext v t hscope ht hvalue

/-- A block has the derivation of its statements, in a frame that was added for it. -/
theorem block (name : String) (stmts : List Stmt) {s : State} (hs : s.context.pending = none) :
    EndDerived
      (ExecutesAll { scope s with frame := (world s).store.frames.size } stmts
        ((world s).addFrame name (scope s).frame))
      (Eval.inChild name (Rules.sequence exec stmts) s) := by
  rw [Eval.inChild_apply, Eval.within_apply]
  let inner := Eval.entering (Eval.withFrame s name s.context.frame) s.store.frames.size 0
  have hbody := hsound.sequence stmts (s := inner) hs
  cases hrun : Rules.sequence exec stmts inner with
  | error failure t =>
      rw [hrun] at hbody
      exact hbody
  | ok a t =>
      rw [hrun] at hbody
      exact hbody

/-- A loop has a derivation with a rule for each of its rounds. The induction is on the rounds that
are left. -/
theorem loop (test : Expr) (body : List Stmt) (iterations : Nat) {s : State}
    (hs : s.context.pending = none) :
    EndDerived (Iterates (scope s) test body (world s))
      (Rules.loop (eval test) (Eval.inChild "while-body" (Rules.sequence exec body))
        iterations s) := by
  induction iterations generalizing s with
  | zero => exact fun hlimit => absurd hlimit (by decide)
  | succ iterations ih =>
      unfold Rules.loop
      refine hsound.after hs (fun _ _ => .testError) fun v t hscope ht htest => ?_
      cases v with
      | number x => exact fun _ => .testRefused htest fun b hb => nomatch hb
      | function id => exact fun _ => .testRefused htest fun b hb => nomatch hb
      | boolean b =>
          cases b with
          | false =>
              change Iterates _ _ _ _ (.ofPending t.context.pending) _
              rw [ht]
              exact .done htest
          | true =>
              dsimp only
              rw [Eval.bind_apply]
              have hbody := hsound.block "while-body" body ht
              rw [hscope] at hbody
              cases hrun : Eval.inChild "while-body" (Rules.sequence exec body) t with
              | error failure u =>
                  rw [hrun] at hbody
                  exact fun hlimit => .stopped htest (hbody hlimit) Outcome.noConfusion
              | ok a u =>
                  rw [hrun] at hbody
                  change ExecutesAll _ _ _ (.ofPending u.context.pending) _ at hbody
                  dsimp only
                  rw [Eval.unlessReturning_apply]
                  cases hpending : u.context.pending with
                  | some v =>
                      rw [hpending] at hbody
                      change Iterates _ _ _ _ (.ofPending u.context.pending) _
                      rw [hpending]
                      exact .stopped htest hbody Outcome.noConfusion
                  | none =>
                      rw [hpending] at hbody
                      have hblock := Discipline.kept.inChild "while-body"
                        (Discipline.kept.sequence hsound.signals body)
                      have hrest := ih hpending
                      rw [scope_of_signals hblock hrun, hscope] at hrest
                      exact hrest.imp fun _ _ => .again htest hbody

theorem declare (span : Option Span) (name : Name) (value : Expr) {s : State}
    (hs : s.context.pending = none) :
    EndDerived (Executes (scope s) (.declare span name value) (world s))
      (Rules.declare name (eval value) s) := by
  rw [declare_apply]
  cases hdeclarable : (world s).declarable s.context.frame name with
  | error failure => exact fun _ => .declareRefused hdeclarable
  | ok _ =>
      refine hsound.after hs (fun _ _ => .declareError hdeclarable) fun v t hscope ht hvalue => ?_
      have hdeclare : Executes (scope s) (.declare span name value) (world s) .normal
          ((world t).declare (scope s).frame name v) := .declare hdeclarable hvalue
      rw [← hscope] at hdeclare ⊢
      change Executes _ _ _ (.ofPending t.context.pending) _
      rw [ht]
      exact hdeclare

theorem assign (span : Option Span) (name : Name) (value : Expr) {s : State}
    (hs : s.context.pending = none) :
    EndDerived (Executes (scope s) (.assign span name value) (world s))
      (Rules.assign name (eval value) s) := by
  rw [assign_apply]
  cases htarget : (world s).target s.context.frame name with
  | error failure => exact fun _ => .assignRefused htarget
  | ok target =>
      refine hsound.after hs (fun _ _ => .assignError htarget) fun v t hscope ht hvalue => ?_
      change Executes _ _ _ (.ofPending t.context.pending) _
      rw [ht]
      exact .assign htarget hvalue

theorem give (span : Option Span) (value : Expr) {s : State} (hs : s.context.pending = none) :
    EndDerived (Executes (scope s) (.give span value) (world s))
      (Rules.give (eval value) s) := by
  unfold Rules.give
  rw [Eval.bind_apply, Eval.get_apply]
  dsimp only
  split
  next hdepth => exact fun _ => .giveRefused (by simp [scope, hdepth])
  next hdepth =>
    have hcall : (scope s).inCall = true := by simp [scope, Nat.pos_of_ne_zero hdepth]
    refine hsound.after hs (fun _ _ => .giveError hcall) fun v t _ ht hvalue => ?_
    exact .give hcall hvalue

theorem branch (span : Option Span) (test : Expr) (thenPart elsePart : List Stmt)
    (iterations : Nat) {s : State} (hs : s.context.pending = none) :
    EndDerived (Executes (scope s) (.branch span test thenPart elsePart) (world s))
      (Rules.execStep iterations eval exec (.branch span test thenPart elsePart) s) := by
  refine hsound.after hs (fun _ _ => .branchError) fun v t hscope ht htest => ?_
  cases v with
  | number x => exact fun _ => .branchRefused htest fun b hb => nomatch hb
  | function id => exact fun _ => .branchRefused htest fun b hb => nomatch hb
  | boolean b =>
      cases b with
      | true =>
          have hblock := hsound.block "if-then" thenPart ht
          rw [hscope] at hblock
          exact hblock.imp fun _ _ => .branchThen htest
      | false =>
          have hblock := hsound.block "if-else" elsePart ht
          rw [hscope] at hblock
          exact hblock.imp fun _ _ => .branchElse htest

/-- A call that is a whole statement may return or not. -/
theorem discardCall (span place : Option Span) (callee : Name) (arguments : List Expr) {s : State}
    (hs : s.context.pending = none) :
    EndDerived (Executes (scope s) (.discard span (.call place callee arguments)) (world s))
      ((do let _ ← Rules.call eval exec callee arguments : Eval Unit) s) := by
  have hcall := hsound.call callee arguments hs
  rw [Eval.bind_apply]
  cases hrun : Rules.call eval exec callee arguments s with
  | error failure t =>
      rw [hrun] at hcall
      exact fun hlimit => .callError (hcall hlimit)
  | ok returned t =>
      rw [hrun] at hcall
      have ht := (scope_of_quiet
        (Discipline.kept.call hsound.quiet hsound.signals callee arguments) hs hrun).2
      change Executes _ _ _ (.ofPending t.context.pending) _
      rw [ht]
      cases returned with
      | some v => exact .callReturned hcall
      | none => exact .callNormal hcall

/-- A discarded expression that is no call has the derivation of its value. -/
theorem discard (span : Option Span) (value : Expr)
    (hvalue : ∀ place callee arguments, value ≠ .call place callee arguments) {s : State}
    (hs : s.context.pending = none) :
    EndDerived (Executes (scope s) (.discard span value) (world s))
      ((do let _ ← eval value : Eval Unit) s) := by
  refine hsound.after hs (fun _ _ => .discardError hvalue) fun v t _ ht hv => ?_
  change Executes _ _ _ (.ofPending t.context.pending) _
  rw [ht]
  exact .discard hvalue hv

theorem print (span : Option Span) (value : Expr) (iterations : Nat) {s : State}
    (hs : s.context.pending = none) :
    EndDerived (Executes (scope s) (.print span value) (world s))
      (Rules.execStep iterations eval exec (.print span value) s) := by
  refine hsound.after hs (fun _ _ => .printError) fun v t _ ht hv => ?_
  change Executes _ _ _ (.ofPending t.context.pending) _
  rw [ht]
  exact .print hv

/-- The step over statements: if the parts of a statement have derivations, it has one. -/
theorem execStep (iterations : Nat) (stmt : Stmt) {s : State} (hs : s.context.pending = none) :
    EndDerived (Executes (scope s) stmt (world s))
      (Rules.execStep iterations eval exec stmt s) := by
  cases stmt with
  | declare span name value => exact hsound.declare span name value hs
  | assign span name value => exact hsound.assign span name value hs
  | branch span test thenPart elsePart =>
      exact hsound.branch span test thenPart elsePart iterations hs
  | loop span test body => exact (hsound.loop test body iterations hs).imp fun _ _ => .loop
  | print span value => exact hsound.print span value iterations hs
  | discard span value =>
      cases value with
      | call place callee arguments => exact hsound.discardCall span place callee arguments hs
      | _ =>
          refine hsound.discard span _ ?_ hs
          intro place callee arguments heq
          cases heq
  | give span value => exact hsound.give span value hs
  | malformed reason => exact fun _ => .malformed

end Sound

/-- Expressions and statements that end within the limits have derivations. -/
theorem sound (iterations depth : Nat) : Sound (eval iterations depth) (exec iterations depth) := by
  induction depth with
  | zero =>
      refine ⟨Discipline.kept.eval iterations 0, Discipline.kept.exec iterations 0, ?_, ?_⟩
      · exact fun e s _ hlimit => absurd hlimit (by decide)
      · exact fun stmt s _ hlimit => absurd hlimit (by decide)
  | succ depth ih =>
      refine ⟨Discipline.kept.eval iterations _, Discipline.kept.exec iterations _, ?_, ?_⟩
      · exact fun e s hs => ih.evalStep e hs
      · exact fun stmt s hs => ih.execStep iterations stmt hs

end Reference

end Treewalk
