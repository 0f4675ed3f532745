import Treewalk.Proofs.Evaluation.Agreement
import Treewalk.Proofs.Evaluation.Evolution

/-! # The names of the top level

Which names a run shows at its end can be read off the program text. Blocks, calls and assignments
may do what they like inside a statement of the top level: only a declaration that stands there
itself, and only one that succeeds, adds a name to the root frame, at its end.
-/

namespace Treewalk

def Stmt.declared? : Stmt → Option Name
  | .declare _ name _ => some name
  | _ => none

/-- The names that the statements of the top level declare, in program order. -/
def Program.declared (program : Program) : List Name := program.filterMap Stmt.declared?

/-- The names that the top level binds at the end of a run, in their order. -/
def RunResult.names (r : RunResult) : List Name := r.bindings.map (·.1)

/-- The run of a program fails in the statement after the first `k`: these end, and the statement
fails from the state in which they do. -/
def Program.FailsAt (program : Program) (limits : Limits) (k : Nat) (failure : Failure)
    (t : State) : Prop :=
  ∃ stmt s, program[k]? = some stmt ∧
    execAll limits (program.take k) State.initial = .ok () s ∧
    exec limits.iterations limits.depth stmt s = .error failure t

namespace Toplevel

/-- No two names are looked up by the same key. -/
def Distinct (names : List Name) : Prop := names.Pairwise fun a b => a.key? ≠ b.key?

/-- The top level is current, and its frame binds some distinct names. -/
structure Shows (names : List Name) (s : State) : Prop where
  frame : s.context.frame = Store.root
  root : ∃ root, s.store.frames[Store.root]? = some root ∧ root.names = names
  distinct : Distinct names

variable {names : List Name} {s t : State} {limits : Limits}

theorem shows_initial : Shows [] State.initial :=
  ⟨rfl, ⟨_, rfl, rfl⟩, .nil⟩

/-- The names of the bindings are those that were declared. -/
theorem Shows.bindings (h : Shows names s) :
    (s.store.bindings Store.root).map (·.1) = names := by
  obtain ⟨root, hroot, hnames⟩ := h.root
  simp only [Store.bindings, hroot]
  exact hnames

/-- A name whose key the root frame does not bind differs from all names bound there. -/
theorem Shows.distinct_append (h : Shows names s) {name : Name} {key : Key}
    (hkey : name.key? = some key) (hfree : s.store.hasLocal Store.root key = false) :
    Distinct (names ++ [name]) := by
  obtain ⟨root, hroot, rfl⟩ := h.root
  simp only [Store.hasLocal, hroot] at hfree
  apply List.pairwise_append.mpr
  refine ⟨h.distinct, List.pairwise_singleton _ _, ?_⟩
  intro other hother last hlast hsame
  rw [List.mem_singleton.mp hlast, hkey] at hsame
  have hbinds : root.binds key = true := Frame.binds_iff.mpr ⟨other, hother, hsame⟩
  rw [hbinds] at hfree
  cases hfree

/-- What a frame grows by is what the names of the top level grow by. -/
theorem Shows.grown (h : Shows names s) {added : FrameId → List Name} {events : List Event}
    (hfollows : s.Follows added events t) (hframe : t.context.frame = s.context.frame)
    (hdistinct : Distinct (names ++ added Store.root)) : Shows (names ++ added Store.root) t := by
  obtain ⟨root, hroot, rfl⟩ := h.root
  obtain ⟨after, hafter, hgrown⟩ := hfollows.frames hroot
  exact ⟨hframe.trans h.frame, ⟨after, hafter, hgrown.names⟩, hdistinct⟩

/-- A statement that ends adds the name it declares to the top level, or nothing. -/
theorem Shows.exec (h : Shows names s) {iterations depth : Nat} {stmt : Stmt}
    (hrun : exec iterations depth stmt s = .ok () t) :
    Shows (names ++ stmt.declared?.toList) t := by
  have hsignals := Discipline.kept.exec iterations depth stmt s
  rw [hrun] at hsignals
  have hframe : t.context.frame = s.context.frame := hsignals.1.frame
  cases stmt with
  | declare span name value =>
      have hstep := Evolution.exec_declare iterations depth span name value s
      rw [hrun] at hstep
      obtain ⟨⟨events, hfollows⟩, _, key, hkey, hfree⟩ := hstep
      rw [h.frame] at hfollows hfree
      exact h.grown hfollows hframe (h.distinct_append hkey hfree)
  | _ =>
      obtain ⟨events, hfollows⟩ := (Evolution.exec_follows iterations depth _ s).1 t hrun
      refine h.grown hfollows hframe ?_
      change Distinct (names ++ [])
      rw [List.append_nil]
      exact h.distinct

/-- A statement that fails adds no name to the top level. -/
theorem Shows.exec_error (h : Shows names s) {iterations depth : Nat} {stmt : Stmt}
    {failure : Failure} (hrun : Treewalk.exec iterations depth stmt s = .error failure t) :
    Shows names t := by
  have hquiet := Discipline.kept.exec iterations depth stmt s
  rw [hrun] at hquiet
  obtain ⟨events, hfollows⟩ := (Evolution.exec_follows iterations depth stmt s).2 failure t hrun
  have hgrown := h.grown hfollows hquiet.1.frame (by simpa [noNames] using h.distinct)
  simpa [noNames] using hgrown

/-- Statements of the top level are executed up to the first failure. -/
theorem execAll_cons (limits : Limits) (stmt : Stmt) (rest : List Stmt) (s : State) :
    execAll limits (stmt :: rest) s =
      match exec limits.iterations limits.depth stmt s with
      | .ok _ t => execAll limits rest t
      | .error failure t => .error failure t := by
  rw [execAll, Eval.bind_apply]
  cases exec limits.iterations limits.depth stmt s <;> rfl

/-- Statements that end one after the other add the names they declare, in their order. -/
theorem Shows.execAll (h : Shows names s) {program : Program}
    (hrun : execAll limits program s = .ok () t) : Shows (names ++ program.declared) t := by
  induction program generalizing names s with
  | nil =>
      cases hrun
      simpa [Program.declared] using h
  | cons stmt rest ih =>
      rw [execAll_cons] at hrun
      cases hstmt : Treewalk.exec limits.iterations limits.depth stmt s with
      | error failure u =>
          rw [hstmt] at hrun
          cases hrun
      | ok a u =>
          rw [hstmt] at hrun
          have hrest := ih (h.exec hstmt) hrun
          -- The name of the first statement moves from the front of the rest to the end of `names`.
          have hdeclared : Program.declared (stmt :: rest) =
              stmt.declared?.toList ++ Program.declared rest := by
            unfold Program.declared
            cases hname : stmt.declared? <;> simp [hname]
          rw [hdeclared, ← List.append_assoc]
          exact hrest

/-- Statements fail one after the other where the first of them fails. -/
theorem execAll_error_iff {program : Program} {failure : Failure} :
    execAll limits program s = .error failure t ↔
      ∃ k stmt u, program[k]? = some stmt ∧ execAll limits (program.take k) s = .ok () u ∧
        exec limits.iterations limits.depth stmt u = .error failure t := by
  induction program generalizing s with
  | nil =>
      constructor
      · intro hrun
        cases hrun
      · rintro ⟨k, stmt, u, hstmt, _⟩
        cases hstmt
  | cons first rest ih =>
      rw [execAll_cons]
      constructor
      · intro hrun
        cases hfirst : exec limits.iterations limits.depth first s with
        | error reason u =>
            rw [hfirst] at hrun
            cases hrun
            exact ⟨0, first, s, rfl, rfl, hfirst⟩
        | ok a u =>
            rw [hfirst] at hrun
            obtain ⟨k, stmt, v, hstmt, hbefore, hlast⟩ := ih.mp hrun
            refine ⟨k + 1, stmt, v, hstmt, ?_, hlast⟩
            rw [List.take_succ_cons, execAll_cons, hfirst]
            exact hbefore
      · rintro ⟨k, stmt, v, hstmt, hbefore, hlast⟩
        cases k with
        | zero =>
            cases hstmt
            cases hbefore
            rw [hlast]
        | succ k =>
            rw [List.take_succ_cons, execAll_cons] at hbefore
            cases hfirst : exec limits.iterations limits.depth first s with
            | error reason u =>
                rw [hfirst] at hbefore
                cases hbefore
            | ok a u =>
                rw [hfirst] at hbefore
                exact ih.mpr ⟨k, stmt, v, hstmt, hbefore, hlast⟩

/-- A run that reaches the end of its program ends in the state that this leaves. -/
theorem run_of_ok {program : Program} (hrun : execAll limits program State.initial = .ok () t) :
    (program.run limits).EndsIn none (t.store.bindings Store.root) t.context.printed := by
  unfold Program.run
  rw [hrun]
  exact ⟨rfl, rfl, rfl⟩

/-- A run that fails ends in the state in which it fails, and nesting beyond the limit counts as an
error. -/
theorem run_of_error {program : Program} {failure : Failure}
    (hrun : execAll limits program State.initial = .error failure t) :
    (program.run limits).EndsIn (some failure.ofRun) (t.store.bindings Store.root)
      t.context.printed := by
  unfold Program.run
  rw [hrun]
  cases failure <;> exact ⟨rfl, rfl, rfl⟩

/-- A run that ends shows exactly the names its program declares at the top level. -/
theorem names_of_success {program : Program} (hsuccess : (program.run limits).failure = none) :
    (program.run limits).names = program.declared ∧ Distinct (program.run limits).names := by
  cases hrun : execAll limits program State.initial with
  | error failure t =>
      rw [(run_of_error hrun).failure] at hsuccess
      cases hsuccess
  | ok a t =>
      have hshows := shows_initial.execAll hrun
      rw [List.nil_append] at hshows
      rw [RunResult.names, (run_of_ok hrun).bindings, hshows.bindings]
      exact ⟨rfl, hshows.distinct⟩

/-- The names at the end of a run are decided by the program text. A run that succeeds shows the
names of the declarations of the top level, in program order. A run that fails does so in one of the
statements of the top level; it shows the names of the declarations before that statement, and the
statements before it make up a program that succeeds, with the same names and with the beginning of
the same output. No two of the names are the same. -/
theorem names_of_run (limits : Limits) (program : Program) :
    ((program.run limits).failure = none →
      (program.run limits).names = program.declared ∧ Distinct (program.run limits).names) ∧
    (∀ failure, (program.run limits).failure = some failure →
      ∃ k reason t, program.FailsAt limits k reason t ∧ reason.ofRun = failure) ∧
    ∀ k reason t, program.FailsAt limits k reason t →
      let before := Program.run limits (program.take k)
      (program.run limits).failure = some reason.ofRun ∧
        (program.run limits).names = Program.declared (program.take k) ∧
        Distinct (program.run limits).names ∧
        before.failure = none ∧ before.names = (program.run limits).names ∧
        before.state.context.printed.toList <+:
          (program.run limits).state.context.printed.toList := by
  refine ⟨names_of_success, fun failure hfailure => ?_, fun k reason t hfails => ?_⟩
  · cases hrun : execAll limits program State.initial with
    | ok a t =>
        rw [(run_of_ok hrun).failure] at hfailure
        cases hfailure
    | error reason t =>
        obtain ⟨k, stmt, s, hstmt, hbefore, hlast⟩ := execAll_error_iff.mp hrun
        refine ⟨k, reason, t, ⟨stmt, s, hstmt, hbefore, hlast⟩, ?_⟩
        rw [(run_of_error hrun).failure] at hfailure
        exact Option.some.inj hfailure
  · obtain ⟨stmt, s, hstmt, hbefore, hlast⟩ := hfails
    have hends := run_of_error (execAll_error_iff.mpr ⟨k, stmt, s, hstmt, hbefore, hlast⟩)
    have hfirst := run_of_ok hbefore
    -- Up to the failing statement the two runs are one; that statement only adds output.
    have hshows := shows_initial.execAll hbefore
    rw [List.nil_append] at hshows
    have hquiet := Discipline.kept.exec limits.iterations limits.depth stmt s
    rw [hlast] at hquiet
    have hnames : (program.run limits).names = Program.declared (program.take k) := by
      rw [RunResult.names, hends.bindings]
      exact (hshows.exec_error hlast).bindings
    obtain ⟨hbound, hdistinct⟩ := names_of_success hfirst.failure
    refine ⟨hends.failure, hnames, ?_, hfirst.failure, hbound.trans hnames.symm, ?_⟩
    · rw [hnames, ← hbound]
      exact hdistinct
    · rw [hfirst.printed, hends.printed]
      exact hquiet.1.printed

end Toplevel

end Treewalk
