import Treewalk.Proofs.Evaluation.Simulation

/-! # Runs under watch

A watch looks at each expression and each statement at the moment at which it is about to be
executed, and at the state. It lets the part pass, or it raises an alarm that ends the run. A run
under watch follows the rules of evaluation, so that the watch sees whatever the rules execute. What
holds at every moment of a run is then what no watch for it ever raises an alarm about.

Spans have no say in this: programs that differ in their spans only go through the same moments.
-/

namespace Treewalk

/-- A part of a program that is executed on its own. -/
inductive Part where
  | expr (e : Expr)
  | stmt (stmt : Stmt)

namespace Part

def span? : Part → Option Span
  | expr e => e.span?
  | stmt s => s.span?

inductive Alike (like : Likeness) : Part → Part → Prop where
  | expr {e e'} : Expr.Alike like e e' → Alike like (.expr e) (.expr e')
  | stmt {s s'} : Stmt.Alike like s s' → Alike like (.stmt s) (.stmt s')

end Part

/-- What is executed as soon as a statement is: the statement, and a call whose value it discards,
which is not evaluated like other expressions since it need not return. -/
def Stmt.starts : Stmt → List Part
  | .discard span (.call callSpan callee arguments) =>
    [ .stmt (.discard span (.call callSpan callee arguments)),
      .expr (.call callSpan callee arguments) ]
  | stmt => [.stmt stmt]

abbrev Watch := Part → State → Bool

namespace Watch

variable {α : Type}

/-- Runs an action if all of some parts may be executed, and raises the alarm otherwise. -/
def guarded (watch : Watch) (alarm : Failure) (parts : List Part) (action : Eval α) : Eval α :=
  fun s => if parts.all (watch · s) then action s else .error alarm s

mutual

def eval (watch : Watch) (alarm : Failure) (iterations : Nat) : (depth : Nat) → Expr → Eval Value
  | 0, _ => throw .tooDeep
  | depth + 1, e =>
    watch.guarded alarm [.expr e]
      (Rules.evalStep (watch.eval alarm iterations depth) (watch.exec alarm iterations depth) e)

def exec (watch : Watch) (alarm : Failure) (iterations : Nat) : (depth : Nat) → Stmt → Eval Unit
  | 0, _ => throw .tooDeep
  | depth + 1, stmt =>
    watch.guarded alarm stmt.starts
      (Rules.execStep iterations (watch.eval alarm iterations depth)
        (watch.exec alarm iterations depth) stmt)

end

def execAll (watch : Watch) (alarm : Failure) (limits : Limits) : List Stmt → Eval Unit
  | [] => pure ()
  | stmt :: rest => do
    watch.exec alarm limits.iterations limits.depth stmt
    watch.execAll alarm limits rest

end Watch

def failureOf {α : Type} : EStateM.Result Failure State α → Option Failure
  | .ok _ _ => none
  | .error failure _ => some failure

/-- Whether something holds at every moment of a run: a watch that lets pass just this never raises
an alarm. Whatever failure stands for the alarm, the run under watch fails as the run itself does,
or does not fail either. -/
def Program.Always (limits : Limits) (program : Program) (property : Part → State → Prop) : Prop :=
  ∀ (watch : Watch) (alarm : Failure), (∀ part s, watch part s = true ↔ property part s) →
    failureOf (watch.execAll alarm limits program State.initial) =
      failureOf (execAll limits program State.initial)

/-- Nothing is out of sight, and only spans may differ. -/
def Slack.spans : Slack where
  like := .text
  frames _ := False
  closures _ := False

/-- Whether something has nothing to do with spans. -/
def SpanFree (property : Part → State → Prop) : Prop :=
  ∀ part part' s t, Part.Alike .text part part' → Tied .spans s t →
    (property part s ↔ property part' t)

namespace Slack

variable {watch : Watch} (alarm : Failure) {α β : Type} {post : α → β → Prop}

theorem failureOf_eq {slack : Slack} {s t : State} {r : EStateM.Result Failure State α}
    {r' : EStateM.Result Failure State β} (h : slack.Ends post s t r r') :
    failureOf r' = failureOf r := by
  cases h <;> rfl

/-- The top level that nothing was declared in passes for itself, if nothing is out of sight. -/
theorem tied_initial {slack : Slack} (hframes : ∀ id, ¬ slack.frames id)
    (hclosures : ∀ id, ¬ slack.closures id) : Tied slack State.initial State.initial where
  frame := rfl
  callDepth := rfl
  pending := .none
  printed := .nil
  frameCount := rfl
  frames := by
    intro id
    cases hframe : State.initial.store.frames[id]? with
    | none => exact .none
    | some frame =>
        have hmem : frame ∈ State.initial.store.frames := Array.mem_of_getElem? hframe
        obtain rfl : frame = { name := "global" } := by simpa [State.initial] using hmem
        exact .some ⟨rfl, rfl, fun _ => .nil⟩
  closureCount := rfl
  closures id := .none
  oldFrames id h := (hframes id h).elim
  oldClosures id h := (hclosures id h).elim
  current := hframes _
  parents _ _ parent _ _ _ := hframes parent
  captured _ closure _ _ := hframes closure.frame

/-- A watch that does not care for spans sees the same in parts that differ in their spans only. -/
theorem simulates_guarded {slack : Slack} {parts parts' : List Part} {action : Eval α}
    {action' : Eval β} (hparts : List.Forall₂ (Part.Alike slack.like) parts parts')
    (hwatch : ∀ part part' s t, Part.Alike slack.like part part' → Tied slack s t →
      watch part' t = watch part s)
    (haction : slack.Simulates post action action') :
    slack.Simulates post (watch.guarded alarm parts action)
      (watch.guarded alarm parts' action') := by
  intro s t h
  have hall : parts'.all (watch · t) = parts.all (watch · s) := by
    induction hparts with
    | nil => rfl
    | cons halike _ ih => rw [List.all_cons, List.all_cons, hwatch _ _ s t halike h, ih]
  unfold Watch.guarded
  rw [hall]
  split
  · exact haction s t h
  · exact .error (.of_store h rfl rfl)

/-- Statements that are alike start with parts that are alike. -/
theorem starts_alike {like : Likeness} {stmt stmt' : Stmt} (h : Stmt.Alike like stmt stmt') :
    List.Forall₂ (Part.Alike like) stmt.starts stmt'.starts := by
  have hstmt : Part.Alike like (.stmt stmt) (.stmt stmt') := .stmt h
  cases h with
  | discard _ hvalue =>
      have hexpr := Part.Alike.expr hvalue
      cases hvalue with
      | call => exact .cons hstmt (.cons hexpr .nil)
      | _ => exact .cons hstmt .nil
  | _ => exact .cons hstmt .nil

/-- Programs that are alike go along with each other under a watch that sees the same in them. -/
theorem simulates_watch_eval_exec {slack : Slack} (hlawful : slack.Lawful)
    (hwatch : ∀ part part' s t, Part.Alike slack.like part part' → Tied slack s t →
      watch part' t = watch part s) (iterations depth : Nat) :
    (∀ e e', Expr.Alike slack.like e e' →
      slack.Simulates slack.Agree (watch.eval alarm iterations depth e)
        (watch.eval alarm iterations depth e')) ∧
    ∀ stmt stmt', Stmt.Alike slack.like stmt stmt' →
      slack.Follows (watch.exec alarm iterations depth stmt)
        (watch.exec alarm iterations depth stmt') := by
  induction depth with
  | zero => exact ⟨fun _ _ _ => simulates_throw _, fun _ _ _ => simulates_throw _⟩
  | succ depth ih =>
      refine ⟨fun e e' halike => ?_, fun stmt stmt' halike => ?_⟩
      · exact simulates_guarded alarm (.cons (.expr halike) .nil) hwatch
          (simulates_evalStep ih.1 ih.2 hlawful halike)
      · exact simulates_guarded alarm (starts_alike halike) hwatch
          (follows_execStep ih.1 ih.2 iterations halike)

/-- Programs that are alike are run side by side. -/
theorem follows_execAll {slack : Slack} (hlawful : slack.Lawful) (limits : Limits)
    {program program' : Program} (halike : Stmt.AllAlike slack.like program program') :
    slack.Follows (execAll limits program) (execAll limits program') := by
  induction program generalizing program' with
  | nil =>
      cases halike
      exact simulates_pure trivial
  | cons stmt rest ih =>
      cases halike with
      | cons hstmt hrest =>
          have hfirst := (simulates_eval_exec hlawful limits.iterations limits.depth).2 _ _ hstmt
          exact hfirst.bind fun _ _ _ => ih hrest

/-- A watch that does not tell parts apart that are alike watches both programs alike. -/
theorem follows_watch_execAll {slack : Slack} (hlawful : slack.Lawful)
    (hwatch : ∀ part part' s t, Part.Alike slack.like part part' → Tied slack s t →
      watch part' t = watch part s) (limits : Limits)
    {program program' : Program} (halike : Stmt.AllAlike slack.like program program') :
    slack.Follows (watch.execAll alarm limits program) (watch.execAll alarm limits program') := by
  induction program generalizing program' with
  | nil =>
      cases halike
      exact simulates_pure trivial
  | cons stmt rest ih =>
      cases halike with
      | cons hstmt hrest =>
          have hboth := simulates_watch_eval_exec alarm hlawful hwatch limits.iterations
            limits.depth
          have hfirst := hboth.2 _ _ hstmt
          exact hfirst.bind fun _ _ _ => ih hrest

end Slack

/-- Programs that differ in their spans only go through the same moments. -/
theorem Program.always_congr (limits : Limits) {program program' : Program}
    (halike : Stmt.AllAlike .text program program') {property : Part → State → Prop}
    (hfree : SpanFree property) :
    program.Always limits property ↔ program'.Always limits property := by
  have hlawful : Slack.spans.Lawful := .of_eq rfl
  have htop : Tied .spans State.initial State.initial :=
    Slack.tied_initial (fun _ => id) fun _ => id
  have hplain := Slack.failureOf_eq (Slack.follows_execAll hlawful limits halike _ _ htop)
  have hwatched : ∀ (watch : Watch) (alarm : Failure),
      (∀ part s, watch part s = true ↔ property part s) →
      failureOf (watch.execAll alarm limits program' State.initial) =
        failureOf (watch.execAll alarm limits program State.initial) := by
    intro watch alarm hexact
    refine Slack.failureOf_eq
      (Slack.follows_watch_execAll alarm hlawful ?_ limits halike _ _ htop)
    intro part part' s t hparts htied
    rw [Bool.eq_iff_iff, hexact, hexact]
    exact (hfree part part' s t hparts htied).symm
  constructor
  · intro h watch alarm hexact
    rw [hwatched watch alarm hexact, hplain]
    exact h watch alarm hexact
  · intro h watch alarm hexact
    rw [← hwatched watch alarm hexact, ← hplain]
    exact h watch alarm hexact

/-- A watch sees what is executed inside of a call. -/
example : ¬ Program.Always ⟨5, 1⟩
    [.declare none (.text "f") (.function none [] [.give none (.boolean none true)]),
      .print none (.call none (.text "f") [])]
    (fun _ s => s.context.callDepth = 0) := by
  intro h
  have hsame := h (fun _ s => s.context.callDepth == 0) .unfinished (by simp)
  cases hsame

end Treewalk
