import Treewalk.Proofs.Evaluation.Derivation

/-! # Runs agree with derivations

Whatever can be derived in `Reference` is reached by every run whose limits are large enough. With
the derivations of `Derivation` this makes the two descriptions of a program equal, as far as a run
is not cut short by its limits.
-/

namespace Treewalk

namespace Reference

variable {α β : Type}

/-- From some point on, whatever else the limits are. -/
def Eventually (P : Limits → Prop) : Prop :=
  ∃ n, ∀ limits : Limits, n ≤ limits.depth → n ≤ limits.iterations → P limits

namespace Eventually

variable {P Q : Limits → Prop}

theorem always (h : ∀ limits, P limits) : Eventually P := ⟨0, fun limits _ _ => h limits⟩

/-- Two bounds that are large enough have a common one. -/
theorem and (hp : Eventually P) (hq : Eventually Q) :
    Eventually fun limits => P limits ∧ Q limits := by
  obtain ⟨n, hn⟩ := hp
  obtain ⟨m, hm⟩ := hq
  refine ⟨n + m, fun limits hdepth hiterations => ⟨hn limits ?_ ?_, hm limits ?_ ?_⟩⟩ <;> omega

theorem imp (hp : Eventually P) (h : ∀ limits, P limits → Q limits) : Eventually Q := by
  obtain ⟨n, hn⟩ := hp
  exact ⟨n, fun limits hdepth hiterations => h limits (hn limits hdepth hiterations)⟩

theorem iterations (n : Nat) : Eventually fun limits => n ≤ limits.iterations :=
  ⟨n, fun _ _ hiterations => hiterations⟩

/-- What holds of the parts holds of the whole one level further out. -/
theorem deeper (hp : Eventually P)
    (h : ∀ depth iterations, P ⟨depth, iterations⟩ → Q ⟨depth + 1, iterations⟩) :
    Eventually Q := by
  obtain ⟨n, hn⟩ := hp
  refine ⟨n + 1, fun limits hdepth hiterations => ?_⟩
  obtain ⟨depth, iterations⟩ := limits
  cases depth with
  | zero => exact absurd hdepth (Nat.not_succ_le_zero n)
  | succ depth =>
      refine h depth iterations (hn ⟨depth, iterations⟩ ?_ ?_)
      · exact Nat.le_of_succ_le_succ hdepth
      · exact Nat.le_of_succ_le hiterations

/-- A rule without parts needs one level. -/
theorem level (h : ∀ depth iterations, Q ⟨depth + 1, iterations⟩) : Eventually Q :=
  (always fun _ => trivial).deeper fun depth iterations (_ : True) => h depth iterations

end Eventually

namespace Outcome

def exit : Outcome → Except Failure Unit
  | .error failure => .error failure
  | _ => .ok ()

def value : Outcome → Except Failure (Option Value)
  | .normal => .ok none
  | .returned v => .ok (some v)
  | .error failure => .error failure

/-- Whether a return is under way as the end of the statements says. -/
def Leaves : Outcome → Option Value → Prop
  | .normal, pending => pending = none
  | .returned v, pending => pending = some v
  | .error _, _ => True

end Outcome

/-- Started in a scope and a world with no return under way, an action has a result with some
property. -/
def Started (action : Eval α) (within : Scope) (w : World)
    (P : EStateM.Result Failure State α → Prop) : Prop :=
  ∀ s, scope s = within → world s = w → s.context.pending = none → P (action s)

/-- An action ends in a result and another world. -/
def Yields (action : Eval α) (within : Scope) (w : World) (result : Except Failure α)
    (w' : World) : Prop :=
  Started action within w fun r => ∃ t, r = settle t result ∧ world t = w'

/-- Statements end in an outcome and another world. -/
def Ends (action : Eval Unit) (within : Scope) (w : World) (outcome : Outcome)
    (w' : World) : Prop :=
  Started action within w fun r =>
    ∃ t, r = settle t outcome.exit ∧ outcome.Leaves t.context.pending ∧ world t = w'

section Actions

variable {within : Scope} {w w₁ w₂ : World} {outcome : Outcome} {failure : Failure}

/-- What follows an action that yields a value is started where the action was. -/
theorem Yields.followed {action : Eval α} {next : α → Eval β} {a : α}
    {P : EStateM.Result Failure State β → Prop}
    (hquiet : Discipline.contracts.value.Holds action)
    (haction : Yields action within w (.ok a) w₁) (hnext : Started (next a) within w₁ P) :
    Started (action >>= next) within w P := by
  intro s hscope hworld hs
  obtain ⟨t, hrun, ht⟩ := haction s hscope hworld hs
  obtain ⟨hkeeps, hpending⟩ := scope_of_quiet hquiet hs hrun
  rw [Eval.bind_apply, hrun]
  exact hnext t (hkeeps.trans hscope) ht hpending

/-- Nothing follows an action that fails. -/
theorem Yields.failed {action : Eval α} {next : α → Eval β}
    {P : EStateM.Result Failure State β → Prop}
    (haction : Yields action within w (.error failure) w₁)
    (hP : ∀ t, world t = w₁ → P (.error failure t)) : Started (action >>= next) within w P := by
  intro s hscope hworld hs
  obtain ⟨t, hrun, ht⟩ := haction s hscope hworld hs
  rw [Eval.bind_apply, hrun]
  exact hP t ht

/-- What comes second starts in the same scope, since what comes first is quiet. -/
theorem Yields.bind {action : Eval α} {next : α → Eval β} {a : α} {result : Except Failure β}
    (hquiet : Discipline.contracts.value.Holds action)
    (haction : Yields action within w (.ok a) w₁) (hnext : Yields (next a) within w₁ result w₂) :
    Yields (action >>= next) within w result w₂ :=
  haction.followed hquiet hnext

/-- A failure is the end of all that follows. -/
theorem Yields.bind_error {action : Eval α} {next : α → Eval β}
    (haction : Yields action within w (.error failure) w₁) :
    Yields (action >>= next) within w (.error failure) w₁ :=
  haction.failed fun t ht => ⟨t, rfl, ht⟩

theorem Yields.bind_ends {action : Eval α} {next : α → Eval Unit} {a : α}
    (hquiet : Discipline.contracts.value.Holds action)
    (haction : Yields action within w (.ok a) w₁) (hnext : Ends (next a) within w₁ outcome w₂) :
    Ends (action >>= next) within w outcome w₂ :=
  haction.followed hquiet hnext

theorem Yields.ends_error {action : Eval α} {next : α → Eval Unit}
    (haction : Yields action within w (.error failure) w₁) :
    Ends (action >>= next) within w (.error failure) w₁ :=
  haction.failed fun t ht => ⟨t, rfl, trivial, ht⟩

theorem yields_pure (a : α) : Yields (pure a) within w (.ok a) w :=
  fun s _ hworld _ => ⟨s, rfl, hworld⟩

theorem ends_pure : Ends (pure ()) within w .normal w :=
  fun s _ hworld hs => ⟨s, rfl, hs, hworld⟩

theorem yields_fail (e : RuntimeError) :
    Yields (Eval.fail e : Eval α) within w (.error (.error e)) w :=
  fun s _ hworld _ => ⟨s, rfl, hworld⟩

theorem ends_fail (e : RuntimeError) : Ends (Eval.fail e) within w (.error (.error e)) w :=
  fun s _ hworld _ => ⟨s, rfl, trivial, hworld⟩

/-- Statements that end normally are followed by the next ones. -/
theorem Ends.continued {action next : Eval Unit}
    (hsignals : Discipline.contracts.statement.Holds action)
    (haction : Ends action within w .normal w₁) (hnext : Ends next within w₁ outcome w₂) :
    Ends (do action; Eval.unlessReturning next) within w outcome w₂ := by
  intro s hscope hworld hs
  obtain ⟨t, hrun, hpending, ht⟩ := haction s hscope hworld hs
  have hkeeps := scope_of_signals hsignals hrun
  obtain ⟨u, hlast, hu⟩ := hnext t (hkeeps.trans hscope) ht hpending
  refine ⟨u, ?_, hu⟩
  rw [Eval.bind_apply, hrun]
  dsimp only [Outcome.exit, settle]
  rw [Eval.unlessReturning_apply, show t.context.pending = none from hpending]
  exact hlast

/-- Statements that do not end normally are the last. -/
theorem Ends.stopped {action next : Eval Unit} (haction : Ends action within w outcome w₁)
    (houtcome : outcome ≠ .normal) :
    Ends (do action; Eval.unlessReturning next) within w outcome w₁ := by
  intro s hscope hworld hs
  obtain ⟨t, hrun, hleaves, ht⟩ := haction s hscope hworld hs
  refine ⟨t, ?_, hleaves, ht⟩
  rw [Eval.bind_apply, hrun]
  cases outcome with
  | normal => exact absurd rfl houtcome
  | error failure => rfl
  | returned v =>
      dsimp only [Outcome.exit, settle]
      rw [Eval.unlessReturning_apply, show t.context.pending = some v from hleaves]
      rfl

/-- A block is run in a fresh child of the current frame. -/
theorem Ends.inChild {action : Eval Unit} {name : String}
    (haction : Ends action { within with frame := w.store.frames.size }
      (w.addFrame name within.frame) outcome w₁) :
    Ends (Eval.inChild name action) within w outcome w₁ := by
  rintro s rfl rfl hs
  let inner := Eval.entering (Eval.withFrame s name s.context.frame) s.store.frames.size 0
  obtain ⟨t, hrun, hleaves, ht⟩ := haction inner rfl rfl hs
  refine ⟨Eval.leaving s 0 t, ?_, hleaves, ht⟩
  rw [Eval.inChild_apply, Eval.within_apply, hrun]
  cases outcome <;> rfl

end Actions

section Rules

variable {eval : Expr → Eval Value} {exec : Stmt → Eval Unit} {within : Scope}
  {w w₁ w₂ : World}

theorem yields_lookup (name : Name) :
    Yields (Eval.lookup name) within w (w.lookup within.frame name) w := by
  rintro s rfl rfl _
  exact ⟨s, lookup_apply name s, rfl⟩

/-- A new closure takes the next place in the world. -/
theorem yields_newClosure (parameters : List Name) (body : List Stmt) :
    Yields (Eval.newClosure parameters body) within w (.ok (.function w.store.closures.size))
      (w.addClosure parameters body within.frame) := by
  rintro s rfl rfl _
  exact ⟨_, rfl, rfl⟩

/-- An operator fails with its left operand. -/
theorem Yields.binary_error {operator : Operator} {left right : Eval Value} {failure : Failure}
    (hleft : Yields left within w (.error failure) w₁) :
    Yields (Rules.binary operator left right) within w (.error failure) w₁ := by
  intro s hscope hworld hs
  obtain ⟨t, hrun, ht⟩ := hleft s hscope hworld hs
  refine ⟨t, ?_, ht⟩
  rw [binary_apply, hrun]
  rfl

/-- Where the left operand decides, the right one is not evaluated. -/
theorem Yields.binary_decided {operator : Operator} {left right : Eval Value} {a : Value}
    {result : Except Failure Value} (hleft : Yields left within w (.ok a) w₁)
    (hdecided : decided operator a = some result) :
    Yields (Rules.binary operator left right) within w result w₁ := by
  intro s hscope hworld hs
  obtain ⟨t, hrun, ht⟩ := hleft s hscope hworld hs
  refine ⟨t, ?_, ht⟩
  rw [binary_apply, hrun]
  dsimp only [settle]
  rw [hdecided]

/-- An operator whose left operand does not decide makes what it can of both. -/
theorem Yields.binary {operator : Operator} {left right : Eval Value} {a : Value}
    {operand result : Except Failure Value} (hleft : Yields left within w (.ok a) w₁)
    (hquiet : Discipline.contracts.value.Holds left) (hdecided : decided operator a = none)
    (hright : Yields right within w₁ operand w₂)
    (hresult : operand.bind (combined operator a) = result) :
    Yields (Rules.binary operator left right) within w result w₂ := by
  intro s hscope hworld hs
  obtain ⟨t, hrun, ht⟩ := hleft s hscope hworld hs
  obtain ⟨hkeeps, hpending⟩ := scope_of_quiet hquiet hs hrun
  obtain ⟨u, hlast, hu⟩ := hright t (hkeeps.trans hscope) ht hpending
  refine ⟨u, ?_, hu⟩
  rw [binary_apply, hrun]
  dsimp only [settle]
  rw [hdecided]
  dsimp only
  rw [hlast, ← hresult]
  cases operand <;> rfl

/-- The body of a call is run in a fresh child of the frame that its closure was made in. -/
theorem Ends.invoke {callee : Name} {closure : Closure} {values : List Value} {outcome : Outcome}
    (henter : w.enter callee closure values = (none, w₁))
    (hbody : Ends (Rules.sequence exec closure.body) ⟨w.store.frames.size, true⟩ w₁ outcome w₂) :
    Yields (Rules.invoke exec callee closure values) within w outcome.value w₂ := by
  rintro s rfl rfl hs
  -- The body is a run of its own: it starts in the new frame, inside a call, with no return.
  let inner := Eval.entering (entered s callee values w₁) s.store.frames.size 1
  have hscope : scope inner = ⟨(world s).store.frames.size, true⟩ := by
    simp [scope, inner, Eval.entering, world]
  have hworld : world inner = w₁ := world_with_store (enter_printed henter)
  obtain ⟨t, hrun, hleaves, ht⟩ := hbody inner hscope hworld hs
  rw [invoke_apply, henter]
  dsimp only
  rw [Eval.bind_apply, Eval.within_apply, hrun]
  cases outcome with
  | normal => exact ⟨_, congrArg (EStateM.Result.ok · _) hleaves, ht⟩
  | returned v => exact ⟨_, congrArg (EStateM.Result.ok · _) hleaves, ht⟩
  | error failure => exact ⟨_, rfl, ht⟩

/-- A parameter that is no key fails before the body is run. -/
theorem yields_invoke_error {callee : Name} {closure : Closure} {values : List Value}
    {failure : Failure} (henter : w.enter callee closure values = (some failure, w₁)) :
    Yields (Rules.invoke exec callee closure values) within w (.error failure) w₁ := by
  rintro s rfl rfl _
  refine ⟨{ s with store := w₁.store }, ?_, world_with_store (enter_printed henter)⟩
  rw [invoke_apply, henter]
  rfl

/-- What cannot be called fails before its arguments are evaluated. -/
theorem yields_call_error {callee : Name} {arguments : List Expr} {failure : Failure}
    (hcallee : w.callee within.frame callee arguments.length = .error failure) :
    Yields (Rules.call eval exec callee arguments) within w (.error failure) w := by
  rintro s rfl rfl _
  refine ⟨s, ?_, rfl⟩
  rw [call_apply, show (world s).callee s.context.frame _ _ = _ from hcallee]
  rfl

/-- A call whose callee is found goes on with its arguments. -/
theorem Yields.call {callee : Name} {arguments : List Expr} {closure : Closure}
    {result : Except Failure (Option Value)}
    (hcallee : w.callee within.frame callee arguments.length = .ok closure)
    (hrest : Yields (do
      let values ← Rules.evalAll eval arguments
      Rules.invoke exec callee closure values : Eval (Option Value)) within w result w₁) :
    Yields (Rules.call eval exec callee arguments) within w result w₁ := by
  rintro s rfl rfl hs
  rw [call_apply, show (world s).callee s.context.frame _ _ = _ from hcallee]
  exact hrest s rfl rfl hs

/-- What cannot be declared fails before its value is evaluated. -/
theorem ends_declare_error {name : Name} {value : Eval Value} {failure : Failure}
    (hdeclarable : w.declarable within.frame name = .error failure) :
    Ends (Rules.declare name value) within w (.error failure) w := by
  rintro s rfl rfl _
  refine ⟨s, ?_, trivial, rfl⟩
  rw [declare_apply, show (world s).declarable s.context.frame _ = _ from hdeclarable]
  rfl

theorem Ends.declare {name : Name} {value : Eval Value} {outcome : Outcome}
    (hdeclarable : w.declarable within.frame name = .ok ())
    (hrest : Ends (do let v ← value; Rules.bindHere name v : Eval Unit) within w outcome w₁) :
    Ends (Rules.declare name value) within w outcome w₁ := by
  rintro s rfl rfl hs
  rw [declare_apply, show (world s).declarable s.context.frame _ = _ from hdeclarable]
  exact hrest s rfl rfl hs

theorem ends_bindHere (name : Name) (v : Value) :
    Ends (Rules.bindHere name v) within w .normal (w.declare within.frame name v) := by
  rintro s rfl rfl hs
  exact ⟨_, rfl, hs, rfl⟩

/-- An assignment to no variable fails before its value is evaluated. -/
theorem ends_assign_error {name : Name} {value : Eval Value} {failure : Failure}
    (htarget : w.target within.frame name = .error failure) :
    Ends (Rules.assign name value) within w (.error failure) w := by
  rintro s rfl rfl _
  refine ⟨s, ?_, trivial, rfl⟩
  rw [assign_apply, show (world s).target s.context.frame _ = _ from htarget]
  rfl

theorem Ends.assign {name : Name} {value : Eval Value} {target : FrameId} {outcome : Outcome}
    (htarget : w.target within.frame name = .ok target)
    (hrest : Ends (do let v ← value; Eval.onStore (·.set target name v) : Eval Unit)
      within w outcome w₁) :
    Ends (Rules.assign name value) within w outcome w₁ := by
  rintro s rfl rfl hs
  rw [assign_apply, show (world s).target s.context.frame _ = _ from htarget]
  exact hrest s rfl rfl hs

theorem ends_onStore (target : FrameId) (name : Name) (v : Value) :
    Ends (Eval.onStore (·.set target name v)) within w .normal (w.assign target name v) := by
  rintro s rfl rfl hs
  exact ⟨_, rfl, hs, rfl⟩

/-- A return outside of calls fails before its value is evaluated. -/
theorem ends_give_error {value : Eval Value} (hcall : within.inCall = false) :
    Ends (Rules.give value) within w (.error (.error .returnOutsideFunction)) w := by
  rintro s rfl rfl _
  have hdepth : s.context.callDepth = 0 := by simpa [scope] using hcall
  refine ⟨s, ?_, trivial, rfl⟩
  unfold Rules.give
  rw [Eval.bind_apply, Eval.get_apply]
  simp only [hdepth, ↓reduceIte]
  rfl

theorem Ends.give {value : Eval Value} {outcome : Outcome} (hcall : within.inCall = true)
    (hrest : Ends (do let v ← value; Eval.signal v : Eval Unit) within w outcome w₁) :
    Ends (Rules.give value) within w outcome w₁ := by
  rintro s rfl rfl hs
  have hdepth : s.context.callDepth ≠ 0 := by
    simpa [scope, Nat.pos_iff_ne_zero] using hcall
  unfold Rules.give
  rw [Eval.bind_apply, Eval.get_apply]
  simp only [hdepth, ↓reduceIte]
  exact hrest s rfl rfl hs

theorem ends_signal (v : Value) : Ends (Eval.signal v) within w (.returned v) w := by
  rintro s rfl rfl _
  exact ⟨_, rfl, rfl, rfl⟩

theorem ends_print (v : Value) :
    Ends (do Eval.record (.printing v); Eval.emit v) within w .normal (w.print v) := by
  rintro s rfl rfl hs
  exact ⟨_, rfl, hs, rfl⟩

end Rules

section Completeness

/-- The loop of a statement, with its own number of rounds. -/
def rounds (limits : Limits) (test : Expr) (body : List Stmt) : Nat → Eval Unit :=
  Rules.loop (eval limits.iterations limits.depth test)
    (Eval.inChild "while-body"
      (Rules.sequence (exec limits.iterations limits.depth) body))

/-- A call leaves the context of its caller as it was. -/
theorem call_quiet (iterations depth : Nat) (callee : Name) (arguments : List Expr) :
    Discipline.contracts.value.Holds
      (Rules.call (eval iterations depth) (exec iterations depth) callee arguments) :=
  Discipline.kept.call (Discipline.kept.eval iterations depth)
    (Discipline.kept.exec iterations depth) callee arguments

/-- A block leaves nothing behind in the context but a return. -/
theorem block_signals (limits : Limits) (name : String) (stmts : List Stmt) :
    Discipline.contracts.statement.Holds
      (Eval.inChild name (Rules.sequence (exec limits.iterations limits.depth) stmts)) :=
  Discipline.kept.inChild name
    (Discipline.kept.sequence (Discipline.kept.exec limits.iterations limits.depth) stmts)

-- Derivations are followed from the outside in: each case gives its parts to the rule of its form,
-- one level further out.
mutual

/-- What the rules derive for an expression, the interpreter does once its limits are large enough.
The induction is on the derivation, and each rule needs one level more than its premises. -/
theorem Evaluates.reached {within : Scope} {w w' : World} {e : Expr} {result : Except Failure Value}
    (h : Evaluates within e w result w') :
    Eventually fun limits =>
      Yields (eval limits.iterations limits.depth e) within w result w' := by
  match h with
  | .number => exact .level fun _ _ => yields_pure _
  | .boolean => exact .level fun _ _ => yields_pure _
  | .lookup => exact .level fun _ _ => yields_lookup _
  | .function => exact .level fun _ _ => yields_newClosure _ _
  | .leftError hleft => exact hleft.reached.deeper fun _ _ hleft => hleft.binary_error
  | .decided hleft hdecided =>
      exact hleft.reached.deeper fun _ _ hleft => hleft.binary_decided hdecided
  | .rightError hleft hdecided hright =>
      refine (hleft.reached.and hright.reached).deeper fun _ _ ⟨hleft, hright⟩ => ?_
      exact hleft.binary (Discipline.kept.eval _ _ _) hdecided hright rfl
  | .combined hleft hdecided hright =>
      refine (hleft.reached.and hright.reached).deeper fun _ _ ⟨hleft, hright⟩ => ?_
      exact hleft.binary (Discipline.kept.eval _ _ _) hdecided hright rfl
  | .callReturned hcall =>
      refine hcall.reached.deeper fun _ _ hcall => ?_
      exact .bind (call_quiet _ _ _ _) hcall (yields_pure _)
  | .callNormal hcall =>
      refine hcall.reached.deeper fun _ _ hcall => ?_
      exact .bind (call_quiet _ _ _ _) hcall (yields_fail _)
  | .callError hcall => exact hcall.reached.deeper fun _ _ hcall => hcall.bind_error
  | .malformed =>
      refine .level fun _ _ => ?_
      exact fun s _ hworld _ => ⟨s, rfl, hworld⟩

theorem EvaluatesAll.reached {within : Scope} {w w' : World} {es : List Expr}
    {result : Except Failure (List Value)} (h : EvaluatesAll within es w result w') :
    Eventually fun limits =>
      Yields (Rules.evalAll (eval limits.iterations limits.depth) es) within w result w' := by
  match h with
  | .nil => exact .always fun _ => yields_pure []
  | .headError hhead => exact hhead.reached.imp fun _ hhead => hhead.bind_error
  | .tailError hhead htail =>
      refine (hhead.reached.and htail.reached).imp fun limits ⟨hhead, htail⟩ => ?_
      exact .bind (Discipline.kept.eval _ _ _) hhead htail.bind_error
  | .cons hhead htail =>
      refine (hhead.reached.and htail.reached).imp fun limits ⟨hhead, htail⟩ => ?_
      refine .bind (Discipline.kept.eval _ _ _) hhead ?_
      exact .bind (Discipline.kept.evalAll (Discipline.kept.eval _ _) _) htail (yields_pure _)

/-- The body of a call is entered one level further in than the call. -/
theorem Calls.reached {within : Scope} {w w' : World} {callee : Name} {arguments : List Expr}
    {outcome : Outcome} (h : Calls within callee arguments w outcome w') :
    Eventually fun limits =>
      Yields (Rules.call (eval limits.iterations limits.depth)
        (exec limits.iterations limits.depth) callee arguments) within w outcome.value w' := by
  match h with
  | .refused hcallee => exact .always fun _ => yields_call_error hcallee
  | .argumentError hcallee harguments =>
      exact harguments.reached.imp fun _ harguments => .call hcallee harguments.bind_error
  | .parameterError hcallee harguments henter =>
      refine harguments.reached.imp fun _ harguments => .call hcallee ?_
      exact .bind (Discipline.kept.evalAll (Discipline.kept.eval _ _) _) harguments
        (yields_invoke_error henter)
  | .body hcallee harguments henter hbody =>
      refine (harguments.reached.and hbody.reached).imp fun _ ⟨harguments, hbody⟩ =>
        .call hcallee ?_
      exact .bind (Discipline.kept.evalAll (Discipline.kept.eval _ _) _) harguments
        (hbody.invoke henter)

/-- What the rules derive for a statement, the interpreter does once its limits are large enough. -/
theorem Executes.reached {within : Scope} {w w' : World} {stmt : Stmt} {outcome : Outcome}
    (h : Executes within stmt w outcome w') :
    Eventually fun limits =>
      Ends (exec limits.iterations limits.depth stmt) within w outcome w' := by
  match h with
  | .declareRefused hdeclarable => exact .level fun _ _ => ends_declare_error hdeclarable
  | .declareError hdeclarable hvalue =>
      exact hvalue.reached.deeper fun _ _ hvalue => .declare hdeclarable hvalue.ends_error
  | .declare hdeclarable hvalue =>
      refine hvalue.reached.deeper fun _ _ hvalue => .declare hdeclarable ?_
      exact hvalue.bind_ends (Discipline.kept.eval _ _ _) (ends_bindHere _ _)
  | .assignRefused htarget => exact .level fun _ _ => ends_assign_error htarget
  | .assignError htarget hvalue =>
      exact hvalue.reached.deeper fun _ _ hvalue => .assign htarget hvalue.ends_error
  | .assign htarget hvalue =>
      refine hvalue.reached.deeper fun _ _ hvalue => .assign htarget ?_
      exact hvalue.bind_ends (Discipline.kept.eval _ _ _) (ends_onStore _ _ _)
  | .branchError htest => exact htest.reached.deeper fun _ _ htest => htest.ends_error
  | @Executes.branchRefused _ _ _ _ _ _ _ v htest hv =>
      refine htest.reached.deeper fun _ _ htest =>
        htest.bind_ends (Discipline.kept.eval _ _ _) ?_
      cases v with
      | boolean b => exact absurd rfl (hv b)
      | number x => exact ends_fail _
      | function id => exact ends_fail _
  | .branchThen htest hbody =>
      refine (htest.reached.and hbody.reached).deeper fun _ _ ⟨htest, hbody⟩ => ?_
      exact htest.bind_ends (Discipline.kept.eval _ _ _) hbody.inChild
  | .branchElse htest hbody =>
      refine (htest.reached.and hbody.reached).deeper fun _ _ ⟨htest, hbody⟩ => ?_
      exact htest.bind_ends (Discipline.kept.eval _ _ _) hbody.inChild
  | .loop hloop =>
      obtain ⟨n, hloop⟩ := hloop.reached
      refine (hloop.and (.iterations n)).deeper fun depth iterations ⟨hloop, hn⟩ => ?_
      exact hloop iterations hn
  | .printError hvalue => exact hvalue.reached.deeper fun _ _ hvalue => hvalue.ends_error
  | .print hvalue =>
      refine hvalue.reached.deeper fun _ _ hvalue => ?_
      exact hvalue.bind_ends (Discipline.kept.eval _ _ _) (ends_print _)
  | .callError hcall => exact hcall.reached.deeper fun _ _ hcall => hcall.ends_error
  | .callNormal hcall =>
      refine hcall.reached.deeper fun _ _ hcall => ?_
      exact hcall.bind_ends (call_quiet _ _ _ _) ends_pure
  | .callReturned hcall =>
      refine hcall.reached.deeper fun _ _ hcall => ?_
      exact hcall.bind_ends (call_quiet _ _ _ _) ends_pure
  | @Executes.discardError _ _ _ _ value _ hshape hvalue =>
      refine hvalue.reached.deeper fun _ _ hvalue => ?_
      cases value with
      | call place callee arguments => exact absurd rfl (hshape place callee arguments)
      | _ => exact hvalue.ends_error
  | @Executes.discard _ _ _ _ value _ hshape hvalue =>
      refine hvalue.reached.deeper fun _ _ hvalue => ?_
      cases value with
      | call place callee arguments => exact absurd rfl (hshape place callee arguments)
      | _ => exact hvalue.bind_ends (Discipline.kept.eval _ _ _) ends_pure
  | .giveRefused hcall => exact .level fun _ _ => ends_give_error hcall
  | .giveError hcall hvalue =>
      exact hvalue.reached.deeper fun _ _ hvalue => .give hcall hvalue.ends_error
  | .give hcall hvalue =>
      refine hvalue.reached.deeper fun _ _ hvalue => .give hcall ?_
      exact hvalue.bind_ends (Discipline.kept.eval _ _ _) (ends_signal _)
  | .malformed =>
      refine .level fun _ _ => ?_
      exact fun s _ hworld _ => ⟨s, rfl, trivial, hworld⟩

theorem ExecutesAll.reached {within : Scope} {w w' : World} {stmts : List Stmt} {outcome : Outcome}
    (h : ExecutesAll within stmts w outcome w') :
    Eventually fun limits =>
      Ends (Rules.sequence (exec limits.iterations limits.depth) stmts) within w outcome w' := by
  match h with
  | .nil => exact .always fun _ => ends_pure
  | .stopped hhead houtcome => exact hhead.reached.imp fun _ hhead => hhead.stopped houtcome
  | .cons hhead htail =>
      refine (hhead.reached.and htail.reached).imp fun _ ⟨hhead, htail⟩ => ?_
      exact hhead.continued (Discipline.kept.exec _ _ _) htail

/-- A loop needs as many rounds as its derivation has, and more of them change nothing. -/
theorem Iterates.reached {within : Scope} {w w' : World} {test : Expr} {body : List Stmt}
    {outcome : Outcome} (h : Iterates within test body w outcome w') :
    ∃ n, Eventually fun limits =>
      ∀ k, n ≤ k → Ends (rounds limits test body k) within w outcome w' := by
  match h with
  | .testError htest =>
      refine ⟨1, htest.reached.imp fun _ htest k hk => ?_⟩
      obtain ⟨k, rfl⟩ := Nat.exists_eq_add_of_le' hk
      exact htest.ends_error
  | @Iterates.testRefused _ _ _ _ _ v htest hv =>
      refine ⟨1, htest.reached.imp fun _ htest k hk => ?_⟩
      obtain ⟨k, rfl⟩ := Nat.exists_eq_add_of_le' hk
      refine htest.bind_ends (Discipline.kept.eval _ _ _) ?_
      cases v with
      | boolean b => exact absurd rfl (hv b)
      | number x => exact ends_fail _
      | function id => exact ends_fail _
  | .done htest =>
      refine ⟨1, htest.reached.imp fun _ htest k hk => ?_⟩
      obtain ⟨k, rfl⟩ := Nat.exists_eq_add_of_le' hk
      exact htest.bind_ends (Discipline.kept.eval _ _ _) ends_pure
  | .stopped htest hbody houtcome =>
      refine ⟨1, (htest.reached.and hbody.reached).imp fun _ ⟨htest, hbody⟩ k hk => ?_⟩
      obtain ⟨k, rfl⟩ := Nat.exists_eq_add_of_le' hk
      exact htest.bind_ends (Discipline.kept.eval _ _ _) (hbody.inChild.stopped houtcome)
  | .again htest hbody hrest =>
      -- The rounds that are left are one less than those of this loop, the limits are the same.
      obtain ⟨n, hrest⟩ := hrest.reached
      refine ⟨n + 1, ((htest.reached.and hbody.reached).and hrest).imp
        fun limits ⟨⟨htest, hbody⟩, hrest⟩ k hk => ?_⟩
      obtain ⟨k, rfl⟩ := Nat.exists_eq_add_of_le' (Nat.le_of_add_left_le hk)
      refine htest.bind_ends (Discipline.kept.eval _ _ _) ?_
      exact hbody.inChild.continued (block_signals limits _ _)
        (hrest k (Nat.le_of_succ_le_succ hk))

end

end Completeness

theorem settle_injective {s t : State} {a b : Except Failure α} (h : settle s a = settle t b) :
    s = t ∧ a = b := by
  cases a <;> cases b <;> cases h <;> exact ⟨rfl, rfl⟩

/-- How an action exits and which return is under way determine its outcome. -/
theorem Outcome.eq_of_leaves {a b : Outcome} {pending : Option Value} (hexit : a.exit = b.exit)
    (ha : a.Leaves pending) (hb : b.Leaves pending) : a = b := by
  cases a <;> cases b <;> simp_all [Outcome.exit, Outcome.Leaves]

/-- Statements that are run from one state end in one way. -/
theorem Ends.unique {action : Eval Unit} {s : State} {a b : Outcome} {w w' : World}
    (hs : s.context.pending = none) (ha : Ends action (scope s) (world s) a w)
    (hb : Ends action (scope s) (world s) b w') : a = b ∧ w = w' := by
  obtain ⟨t, hrun, hleaves, rfl⟩ := ha s rfl rfl hs
  obtain ⟨u, hrun', hleaves', rfl⟩ := hb s rfl rfl hs
  obtain ⟨rfl, hexit⟩ := settle_injective (hrun.symm.trans hrun')
  exact ⟨Outcome.eq_of_leaves hexit hleaves hleaves', rfl⟩

/-- A program has one meaning. -/
theorem Runs.unique {program : Program} {a b : Outcome} {bindings bindings' : List (Name × Value)}
    {printed printed' : Array Value} (ha : Runs program a bindings printed)
    (hb : Runs program b bindings' printed') :
    a = b ∧ bindings = bindings' ∧ printed = printed' := by
  obtain ⟨w, hw, rfl, rfl⟩ := ha
  obtain ⟨w', hw', rfl, rfl⟩ := hb
  obtain ⟨n, hn⟩ := hw.reached.and hw'.reached
  obtain ⟨hends, hends'⟩ := hn ⟨n, n⟩ (Nat.le_refl n) (Nat.le_refl n)
  obtain ⟨rfl, rfl⟩ := Ends.unique (s := State.initial) rfl hends hends'
  exact ⟨rfl, rfl, rfl⟩

end Reference

/-- At the top level no statement leaves a return under way, so that all of them are executed. -/
theorem execAll_eq_sequence (limits : Limits) (stmts : List Stmt) {s : State}
    (hs : s.context.pending = none) (hdepth : s.context.callDepth = 0) :
    execAll limits stmts s =
      Rules.sequence (exec limits.iterations limits.depth) stmts s := by
  induction stmts generalizing s with
  | nil => rfl
  | cons stmt rest ih =>
      unfold execAll Rules.sequence
      rw [Eval.bind_apply, Eval.bind_apply]
      have hstep := Discipline.kept.exec limits.iterations limits.depth stmt s
      cases hrun : exec limits.iterations limits.depth stmt s with
      | error failure t => rfl
      | ok a t =>
          rw [hrun] at hstep
          obtain ⟨hrestored, hpending⟩ := hstep
          have ht : t.context.pending = none := by
            refine Option.not_isSome_iff_eq_none.mp fun hsome => ?_
            exact absurd hdepth (Nat.ne_of_gt (hpending hs hsome))
          dsimp only
          rw [Eval.unlessReturning_apply, ht]
          exact ih ht (hrestored.callDepth.trans hdepth)

namespace RunResult

def CutShort (r : RunResult) : Prop :=
  r.failure = some .unfinished ∨ r.failure = some (.error .recursionLimitExceeded)

structure EndsIn (r : RunResult) (failure : Option Failure) (bindings : List (Name × Value))
    (printed : Array Value) : Prop where
  failure : r.failure = failure
  bindings : r.bindings = bindings
  printed : r.state.context.printed = printed

end RunResult

namespace Reference

def Outcome.ofFailure : Option Failure → Outcome
  | none => .normal
  | some failure => .error failure

theorem Outcome.ofFailure_injective {a b : Option Failure} (h : ofFailure a = ofFailure b) :
    a = b := by
  cases a <;> cases b <;> cases h <;> rfl

/-- A run shows the world in which its statements end. -/
theorem run_endsIn (limits : Limits) (program : Program) (failure : Option Failure) {t : State}
    (hrun : Rules.sequence (exec limits.iterations limits.depth) program State.initial =
      settle t (Outcome.ofFailure failure).exit) :
    (program.run limits).EndsIn (failure.map Failure.ofRun) (t.store.bindings Store.root)
      t.context.printed := by
  have hall := execAll_eq_sequence limits program (s := State.initial) rfl rfl
  unfold Program.run
  rw [hall, hrun]
  cases failure with
  | none => exact ⟨rfl, rfl, rfl⟩
  | some failure =>
      dsimp only [Outcome.ofFailure, Outcome.exit, settle]
      cases failure <;> exact ⟨rfl, rfl, rfl⟩

/-- Outside of calls statements do not end by returning. -/
theorem Ends.not_returned {iterations depth : Nat} {stmts : List Stmt} {s : State} {w : World}
    {v : Value} (hs : s.context.pending = none) (hdepth : s.context.callDepth = 0) :
    ¬ Ends (Rules.sequence (exec iterations depth) stmts) (scope s) (world s) (.returned v) w := by
  intro hends
  obtain ⟨t, hrun, hleaves, _⟩ := hends s rfl rfl hs
  have hsignals := Discipline.kept.sequence (Discipline.kept.exec iterations depth) stmts s
  rw [hrun] at hsignals
  have hsome : t.context.pending.isSome := by
    rw [show t.context.pending = some v from hleaves]
    rfl
  exact absurd hdepth (Nat.ne_of_gt (hsignals.2 hs hsome))

/-- A program does not end by returning: its statements stand outside of calls. -/
theorem Runs.not_returned {program : Program} {v : Value} {bindings : List (Name × Value)}
    {printed : Array Value} : ¬ Runs program (.returned v) bindings printed := by
  rintro ⟨w, hw, _⟩
  obtain ⟨n, hn⟩ := hw.reached
  exact Ends.not_returned (s := State.initial) rfl rfl
    (hn ⟨n, n⟩ (Nat.le_refl n) (Nat.le_refl n))

/-- What a program means is what its runs show as soon as the limits are large enough. -/
theorem Runs.reached {program : Program} {failure : Option Failure}
    {bindings : List (Name × Value)} {printed : Array Value}
    (h : Runs program (.ofFailure failure) bindings printed) :
    Eventually fun limits =>
      (program.run limits).EndsIn (failure.map Failure.ofRun) bindings printed := by
  obtain ⟨w, hw, rfl, rfl⟩ := h
  refine hw.reached.imp fun limits hends => ?_
  obtain ⟨t, hrun, _, rfl⟩ := hends State.initial rfl rfl rfl
  exact run_endsIn limits program failure hrun

/-- What a run shows that is not cut short is what the program means. -/
theorem runs_of_run {program : Program} {limits : Limits}
    (hcut : ¬ (program.run limits).CutShort) :
    ∃ failure bindings printed, (program.run limits).EndsIn failure bindings printed ∧
      Runs program (.ofFailure failure) bindings printed := by
  have hderived := (sound limits.iterations limits.depth).sequence program (s := State.initial) rfl
  cases hrun : Rules.sequence (exec limits.iterations limits.depth) program State.initial with
  | ok a t =>
      rw [hrun] at hderived
      change ExecutesAll _ _ _ (.ofPending t.context.pending) _ at hderived
      refine ⟨none, _, _, run_endsIn limits program none hrun,
        world t, ?_, rfl, rfl⟩
      cases hpending : t.context.pending with
      | none =>
          rw [hpending] at hderived
          exact hderived
      | some v =>
          rw [hpending] at hderived
          exact absurd ⟨world t, hderived, rfl, rfl⟩ Runs.not_returned
  | error failure t =>
      rw [hrun] at hderived
      -- Of the failures that a limit causes, a run shows only those that cut it short.
      have hends := run_endsIn limits program (some failure) hrun
      have hlimit : failure.isLimit = false := by
        cases failure with
        | tooDeep => exact absurd (.inr hends.failure) hcut
        | unfinished => exact absurd (.inl hends.failure) hcut
        | _ => rfl
      have hkeeps : failure.ofRun = failure := by
        cases failure <;> first | rfl | cases hlimit
      refine ⟨some failure, _, _, ?_, world t, hderived hlimit, rfl, rfl⟩
      rw [Option.map_some, hkeeps] at hends
      exact hends

/-- Evaluation implements the lexically scoped meaning of programs. A run that its limits do not cut
short ends with some failure or none, bindings and printed values if and only if they are the
meaning of the program. Whatever can be derived for a program is in fact reached, with the same
bindings and printed values, by all runs with large enough limits, and nothing else can be derived:
no program returns at its top level. -/
theorem run_iff_runs (program : Program) :
    (∀ limits, ¬ (program.run limits).CutShort → ∀ failure bindings printed,
      (program.run limits).EndsIn failure bindings printed ↔
        Runs program (.ofFailure failure) bindings printed) ∧
    (∀ bindings printed, Runs program .normal bindings printed →
      ∃ n, ∀ limits : Limits, n ≤ limits.depth → n ≤ limits.iterations →
        (program.run limits).EndsIn none bindings printed) ∧
    (∀ e bindings printed, Runs program (.error (.error e)) bindings printed →
      ∃ n, ∀ limits : Limits, n ≤ limits.depth → n ≤ limits.iterations →
        (program.run limits).EndsIn (some (.error e)) bindings printed) ∧
    ∀ v bindings printed, ¬ Runs program (.returned v) bindings printed := by
  refine ⟨fun limits hcut failure bindings printed => ?_, fun bindings printed hruns => ?_,
    fun e bindings printed hruns => ?_, fun v bindings printed => Runs.not_returned⟩
  · obtain ⟨failure', bindings', printed', hends, hruns⟩ := runs_of_run hcut
    constructor
    · rintro ⟨rfl, rfl, rfl⟩
      rw [hends.failure, hends.bindings, hends.printed]
      exact hruns
    · intro hother
      obtain ⟨houtcome, rfl, rfl⟩ := hother.unique hruns
      rw [Outcome.ofFailure_injective houtcome]
      exact hends
  · exact @Runs.reached program none bindings printed hruns
  · exact @Runs.reached program (some (.error e)) bindings printed hruns

/-- A function that prints and returns inside a loop, and a call of it. -/
def returningLoop : Program :=
  let body : List Stmt :=
    [.loop none (.variable none (.text "x")) [.print none (.variable none (.text "x")),
      .give none (.boolean none false)]]
  [.declare none (.text "f") (.function none [.text "x"] body),
    .declare none (.text "y") (.call none (.text "f") [.boolean none true])]

/-- The state once the function is declared. -/
def returningLoopDeclared : State where
  store :=
    { frames := #[{ name := "global", bindings := [(.text "f", .function 0)] }]
      closures := #[{
        parameters := [.text "x"]
        body := [.loop none (.variable none (.text "x"))
          [.print none (.variable none (.text "x")), .give none (.boolean none false)]]
        frame := 0
        name := some (.text "f") }] }
  context := { frame := 0 }
  trace := #[.declared (.text "f") (.function 0)]

/-- The call returns from the first round of its loop, and the value is bound. -/
theorem run_iff_runs_returningLoop :
    ¬ (returningLoop.run ⟨8, 2⟩).CutShort ∧
      Runs returningLoop .normal
        [(.text "f", .function 0), (.text "y", .boolean false)] #[.boolean true] := by
  -- one statement at a time: evaluated at once, the states would be copied over and over
  have hdeclare : ∀ stmt ∈ returningLoop.head?,
      exec 2 8 stmt State.initial = .ok () returningLoopDeclared := by
    rintro _ ⟨⟩
    rfl
  have hcall : ∃ s, execAll ⟨8, 2⟩ returningLoop.tail returningLoopDeclared = .ok () s ∧
      s.store.bindings Store.root = [(.text "f", .function 0), (.text "y", .boolean false)] ∧
      s.context.printed = #[.boolean true] := ⟨_, rfl, rfl, rfl⟩
  obtain ⟨s, hcall, hbindings, hprinted⟩ := hcall
  have hrun : execAll ⟨8, 2⟩ returningLoop State.initial = .ok () s := by
    unfold returningLoop execAll
    rw [Eval.bind_apply, hdeclare _ rfl]
    exact hcall
  have hends : (returningLoop.run ⟨8, 2⟩).EndsIn none
      [(.text "f", .function 0), (.text "y", .boolean false)] #[.boolean true] := by
    unfold Program.run
    rw [hrun]
    exact ⟨rfl, hbindings, hprinted⟩
  have hcut : ¬ (returningLoop.run ⟨8, 2⟩).CutShort := by
    unfold RunResult.CutShort
    rw [hends.failure]
    rintro (h | h) <;> cases h
  exact ⟨hcut, ((run_iff_runs returningLoop).1 ⟨8, 2⟩ hcut none _ _).mp hends⟩

end Reference

end Treewalk
