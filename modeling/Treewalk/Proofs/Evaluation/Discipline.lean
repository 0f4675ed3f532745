import Treewalk.Proofs.Evaluation.Contract

/-! # The discipline of the context

Blocks and calls change the current frame and the number of active calls, and a return is under way
between its statement and its call. All of this is undone on every path: after an expression or a
statement, and after a failure at any depth of either, the context stands where it stood, and what
was printed before is still the beginning of what is printed.
-/

namespace Treewalk

/-- The context is back where it was; values may have been printed meanwhile. -/
structure Context.Restored (before after : Context) : Prop where
  frame : after.frame = before.frame
  callDepth : after.callDepth = before.callDepth
  printed : before.printed.toList <+: after.printed.toList

namespace Context.Restored

variable {a b c : Context}

theorem refl (a : Context) : a.Restored a := ⟨rfl, rfl, List.prefix_rfl⟩

theorem trans (hab : a.Restored b) (hbc : b.Restored c) : a.Restored c :=
  ⟨hbc.frame.trans hab.frame, hbc.callDepth.trans hab.callDepth, hab.printed.trans hbc.printed⟩

end Context.Restored

namespace Discipline

/-- The context is restored, and no return is under way that was not before. -/
def Quiet (s t : State) : Prop :=
  s.context.Restored t.context ∧ (s.context.pending = none → t.context.pending = none)

/-- The context is restored, and a return is under way only inside a call. -/
def Signals (s t : State) : Prop :=
  s.context.Restored t.context ∧
    (s.context.pending = none → t.context.pending.isSome → 0 < s.context.callDepth)

/-- Expressions end quietly, statements may start a return, and no failure leaves one behind. -/
def contracts : Contracts where
  value := ⟨Quiet, Quiet⟩
  effect := ⟨Signals, Quiet⟩
  statement := ⟨Signals, Quiet⟩

variable {s t u : State}

/-- What leaves the context alone is quiet. -/
theorem Quiet.of_context (h : t.context = s.context) : Quiet s t := by
  rw [Quiet, h]
  exact ⟨.refl _, id⟩

theorem Quiet.trans (hst : Quiet s t) (htu : Quiet t u) : Quiet s u :=
  ⟨hst.1.trans htu.1, fun hs => htu.2 (hst.2 hs)⟩

/-- Where no return is started, none is under way outside of calls. -/
theorem Quiet.signals (h : Quiet s t) : Signals s t := by
  refine ⟨h.1, fun hs hsome => ?_⟩
  rw [h.2 hs] at hsome
  cases hsome

/-- A quiet step changes nothing about which returns may follow it. -/
theorem Quiet.trans_signals (hst : Quiet s t) (htu : Signals t u) : Signals s u := by
  refine ⟨hst.1.trans htu.1, fun hs hsome => ?_⟩
  rw [← hst.1.callDepth]
  exact htu.2 (hst.2 hs) hsome

theorem value_value : contracts.value.Precedes contracts.value :=
  ⟨Quiet.trans, Quiet.trans, id⟩

theorem value_effect : contracts.value.Precedes contracts.effect :=
  ⟨Quiet.trans_signals, Quiet.trans, id⟩

theorem value_implies : contracts.value.Implies contracts.effect :=
  ⟨Quiet.signals, id⟩

theorem onStore_quiet (f : Store → Store) : contracts.value.Holds (Eval.onStore f) :=
  fun _ => Quiet.of_context rfl

theorem record_quiet (event : Event) : contracts.value.Holds (Eval.record event) :=
  fun _ => Quiet.of_context rfl

theorem newFrame_quiet (name : String) (parent : FrameId) :
    contracts.value.Holds (Eval.newFrame name parent) :=
  fun _ => Quiet.of_context rfl

theorem get_quiet : contracts.value.Holds (get : Eval State) :=
  fun _ => Quiet.of_context rfl

theorem fail_quiet {α : Type} (e : RuntimeError) : contracts.value.Holds (Eval.fail e : Eval α) :=
  fun _ => Quiet.of_context rfl

theorem keyOf_quiet (name : Name) : contracts.value.Holds (Eval.keyOf name) := by
  intro s
  rw [Eval.keyOf_apply]
  cases name.key? with
  | some key => exact Quiet.of_context rfl
  | none => exact Quiet.of_context rfl

/-- Parameters are bound in the store, without a change to the context. -/
theorem bindAll_quiet (frame : FrameId) (entries : List (Name × Value)) :
    contracts.value.Holds (Rules.bindAll frame entries) := by
  induction entries with
  | nil => exact fun _ => Quiet.of_context rfl
  | cons entry rest ih =>
      refine .bind value_value (keyOf_quiet entry.1) fun _ => ?_
      exact .bind value_value (onStore_quiet _) fun _ => ih

theorem bindHere_quiet (name : Name) (v : Value) :
    contracts.value.Holds (Rules.bindHere name v) := by
  refine .bind value_value get_quiet fun s => ?_
  exact .bind value_value (onStore_quiet _) fun _ => record_quiet _

/-- Leaving a frame takes off the calls that entering it added, since the action in between left the
count as it found it. -/
theorem restored_leaving {frame : FrameId} {calls : Nat}
    (h : (Eval.entering s frame calls).context.Restored t.context) :
    s.context.Restored (Eval.leaving s calls t).context where
  frame := rfl
  callDepth := by
    change t.context.callDepth - calls = s.context.callDepth
    rw [h.callDepth]
    exact Nat.add_sub_cancel ..
  printed := h.printed

/-- A call ends the return that its body starts. -/
theorem within_takePending {action : Eval Unit} (frame : FrameId) (calls : Nat)
    (haction : contracts.statement.Holds action) :
    contracts.value.Holds (do Eval.within frame calls action; Eval.takePending) := by
  intro s
  rw [Eval.bind_apply, Eval.within_apply]
  have hbody := haction (Eval.entering s frame calls)
  cases hrun : action (Eval.entering s frame calls) with
  | ok a t =>
      rw [hrun] at hbody
      have hleft := restored_leaving hbody.1
      exact ⟨⟨hleft.frame, hleft.callDepth, hleft.printed⟩, fun _ => rfl⟩
  | error failure t =>
      rw [hrun] at hbody
      exact ⟨restored_leaving hbody.1, hbody.2⟩

/-- A call is quiet: the return that its body starts ends with it. -/
theorem invoke_quiet {exec : Stmt → Eval Unit} (callee : Name) (closure : Closure)
    (values : List Value)
    (hbody : contracts.statement.Holds (Rules.sequence exec closure.body)) :
    contracts.value.Holds (Rules.invoke exec callee closure values) := by
  refine .bind value_value (newFrame_quiet _ _) fun frame => ?_
  refine .bind value_value (bindAll_quiet frame _) fun _ => ?_
  refine .bind value_value (record_quiet _) fun _ => ?_
  exact within_takePending frame 1 hbody

/-- A block passes the return of its statements on. -/
theorem inChild_signals {action : Eval Unit} (name : String)
    (haction : contracts.statement.Holds action) :
    contracts.effect.Holds (Eval.inChild name action) := by
  intro s
  rw [Eval.inChild_apply, Eval.within_apply]
  let outer := Eval.withFrame s name s.context.frame
  let inner := Eval.entering outer s.store.frames.size 0
  have hblock := haction inner
  cases hrun : action inner with
  | ok a t =>
      rw [hrun] at hblock
      exact ⟨restored_leaving (s := outer) hblock.1, hblock.2⟩
  | error failure t =>
      rw [hrun] at hblock
      exact ⟨restored_leaving (s := outer) hblock.1, hblock.2⟩

theorem assign_signals {value : Eval Value} (name : Name) (hvalue : contracts.value.Holds value) :
    contracts.effect.Holds (Rules.assign name value) := by
  refine Contract.Holds.weaken value_implies ?_
  refine .bind value_value (keyOf_quiet name) fun key => ?_
  refine .bind value_value get_quiet fun s => ?_
  cases s.store.find? s.context.frame key with
  | none => exact fail_quiet _
  | some target => exact .bind value_value hvalue fun v => onStore_quiet _

theorem declare_signals {value : Eval Value} (name : Name) (hvalue : contracts.value.Holds value) :
    contracts.statement.Holds (Rules.declare name value) := by
  refine Contract.Holds.weaken value_implies ?_
  refine .bind value_value (keyOf_quiet name) fun key => ?_
  refine .bind value_value get_quiet fun s => ?_
  split
  · exact fail_quiet _
  · exact .bind value_value hvalue fun v => bindHere_quiet name v

/-- A return is started inside of a call only. -/
theorem give_signals {value : Eval Value} (hvalue : contracts.value.Holds value) :
    contracts.effect.Holds (Rules.give value) := by
  intro s
  unfold Rules.give
  rw [Eval.bind_apply, Eval.get_apply]
  dsimp only
  split
  · exact Quiet.of_context rfl
  next hdepth =>
    rw [Eval.bind_apply]
    have hstep := hvalue s
    cases hrun : value s with
    | ok v t =>
        rw [hrun] at hstep
        exact ⟨hstep.1.trans ⟨rfl, rfl, List.prefix_rfl⟩, fun _ _ => Nat.pos_of_ne_zero hdepth⟩
    | error failure t =>
        rw [hrun] at hstep
        exact hstep

/-- What follows an action that may have started a return is run only if it has not. -/
theorem continued_signals {action next : Eval Unit} (haction : contracts.statement.Holds action)
    (hnext : contracts.statement.Holds next) :
    contracts.statement.Holds (do action; Eval.unlessReturning next) := by
  intro s
  rw [Eval.bind_apply]
  have hfirst := haction s
  cases hrun : action s with
  | error failure t =>
      rw [hrun] at hfirst
      exact hfirst
  | ok a t =>
      rw [hrun] at hfirst
      dsimp only
      rw [Eval.unlessReturning_apply]
      split
      · exact hfirst
      next hpending =>
        have hnone : t.context.pending = none := by simpa using hpending
        have hrest := hnext t
        cases hlast : next t with
        | ok b u =>
            rw [hlast] at hrest
            refine ⟨hfirst.1.trans hrest.1, fun _ hsome => ?_⟩
            rw [← hfirst.1.callDepth]
            exact hrest.2 hnone hsome
        | error failure u =>
            rw [hlast] at hrest
            exact ⟨hfirst.1.trans hrest.1, fun _ => hrest.2 hnone⟩

/-- All rules keep the discipline. -/
theorem kept : contracts.Kept where
  unchanged _ := Quiet.of_context rfl
  refused _ := Quiet.of_context rfl
  value_value := value_value
  value_effect := value_effect
  effect_statement := ⟨id, id⟩
  value_implies := value_implies
  record := record_quiet
  emit v s := ⟨⟨rfl, rfl, by simp⟩, id⟩
  newClosure _ _ _ := Quiet.of_context rfl
  invoke := invoke_quiet
  inChild := inChild_signals
  assign := assign_signals
  give := give_signals
  declare := declare_signals
  repeated := continued_signals
  continued := continued_signals

/-- Executes statements one after the other in one context, whether those before failed or not. -/
def attempts (iterations depth : Nat) : List Stmt → State → State
  | [], s => s
  | stmt :: rest, s =>
    match exec iterations depth stmt s with
    | .ok () t => attempts iterations depth rest t
    | .error _ t => attempts iterations depth rest t

/-- Outside of calls a context is as good as new after every attempt. -/
theorem attempts_quiet (iterations depth : Nat) (stmts : List Stmt) (s : State)
    (hdepth : s.context.callDepth = 0) : Quiet s (attempts iterations depth stmts s) := by
  induction stmts generalizing s with
  | nil => exact Quiet.of_context rfl
  | cons stmt rest ih =>
      have hstep := kept.exec iterations depth stmt s
      unfold attempts
      cases hrun : exec iterations depth stmt s with
      | ok a t =>
          rw [hrun] at hstep
          obtain ⟨hrestored, hpending⟩ := hstep
          have hquiet : Quiet s t := by
            refine ⟨hrestored, fun hs => Option.not_isSome_iff_eq_none.mp fun hsome => ?_⟩
            exact absurd hdepth (Nat.ne_of_gt (hpending hs hsome))
          exact hquiet.trans (ih t (hrestored.callDepth.trans hdepth))
      | error failure t =>
          rw [hrun] at hstep
          exact Quiet.trans hstep (ih t (hstep.1.callDepth.trans hdepth))

/-- From any state in which no return is under way, expressions and statements leave the context
where it was, with a result or with a failure. Only a statement that ends inside a call can leave a
return under way, and outside of calls the context can be used again after every failure. -/
theorem context_restored (iterations depth : Nat) (s : State) (hs : s.context.pending = none) :
    (∀ e v t, eval iterations depth e s = .ok v t →
      s.context.Restored t.context ∧ t.context.pending = none) ∧
    (∀ stmt t, exec iterations depth stmt s = .ok () t →
      s.context.Restored t.context ∧
        (t.context.pending.isSome → 0 < s.context.callDepth)) ∧
    (∀ e failure t, eval iterations depth e s = .error failure t →
      s.context.Restored t.context ∧ t.context.pending = none) ∧
    (∀ stmt failure t, exec iterations depth stmt s = .error failure t →
      s.context.Restored t.context ∧ t.context.pending = none) ∧
    (s.context.callDepth = 0 → ∀ stmts,
      s.context.Restored (attempts iterations depth stmts s).context ∧
        (attempts iterations depth stmts s).context.pending = none) := by
  have heval := fun e => kept.eval iterations depth e s
  have hexec := fun stmt => kept.exec iterations depth stmt s
  refine ⟨fun e v t hrun => ?_, fun stmt t hrun => ?_, fun e failure t hrun => ?_,
    fun stmt failure t hrun => ?_, fun hdepth stmts => ?_⟩
  · have hquiet := heval e
    rw [hrun] at hquiet
    exact ⟨hquiet.1, hquiet.2 hs⟩
  · have hsignals := hexec stmt
    rw [hrun] at hsignals
    exact ⟨hsignals.1, hsignals.2 hs⟩
  · have hquiet := heval e
    rw [hrun] at hquiet
    exact ⟨hquiet.1, hquiet.2 hs⟩
  · have hquiet := hexec stmt
    rw [hrun] at hquiet
    exact ⟨hquiet.1, hquiet.2 hs⟩
  · have hquiet := attempts_quiet iterations depth stmts s hdepth
    exact ⟨hquiet.1, hquiet.2 hs⟩

/-- A loop inside a call that returns in its first round leaves the return under way and restores
the rest. -/
theorem context_restored_returning_loop :
    let s : State := { State.initial with context := { frame := 0, callDepth := 1 } }
    let body : List Stmt := [.give none (.boolean none false)]
    s.context.pending = none ∧
      ∃ t, exec 2 4 (.loop none (.boolean none true) body) s = .ok () t ∧
        t.context.pending = some (.boolean false) ∧ s.context.Restored t.context := by
  intro s body
  refine ⟨rfl, _, rfl, rfl, ?_⟩
  exact ((context_restored 2 4 s rfl).2.1 (.loop none (.boolean none true) body) _ rfl).1

end Discipline

end Treewalk
