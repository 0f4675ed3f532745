import Treewalk.Proofs.Evaluation.Regime
import Treewalk.Proofs.Evaluation.Writes
import Treewalk.Proofs.Program.Concatenation

/-! # Globals

A name that the top level declares stays visible for the rest of the run: in every block, in every
iteration of a loop and in every call, however deep. The chain of every frame ends at the top level,
and frames never lose a name. Only shadowing can change what the name refers to, and a name that is
shadowed is found all the more.
-/

namespace Treewalk

open Reference (world decided combined)

/-- Whether a key is bound at the top level, above which there is no frame. -/
structure Store.Global (store : Store) (key : Key) : Prop where
  bound : store.hasLocal Store.root key = true
  nested : ∀ {id}, id ≠ Store.root → id < store.frames.size → (store.parent? id).isSome

namespace Store.Global

variable {store later : Store} {key : Key} {id : FrameId}

/-- A key that is bound at the top level stays bound there. -/
theorem grows (h : store.Global key) (hgrows : store.Grows later) : later.Global key where
  bound := hgrows.bound h.bound
  nested := by
    intro id hroot hid
    by_cases hold : id < store.frames.size
    · rw [hgrows.frames.parent id hold]
      exact h.nested hroot hold
    · exact hgrows.nested (Nat.le_of_not_lt hold) hid

/-- Every frame of the store sees the key. -/
theorem isSome_find? (h : store.Global key) (holder : store.Older) (hid : id < store.frames.size) :
    (store.find? id key).isSome := by
  induction id using Nat.strongRecOn with
  | ind id ih =>
      unfold find?
      rw [chain_eq holder, List.find?_cons]
      cases hlocal : store.hasLocal id key with
      | true => rfl
      | false =>
          have hroot : id ≠ Store.root := by
            rintro rfl
            rw [h.bound] at hlocal
            cases hlocal
          obtain ⟨parent, hparent⟩ := Option.isSome_iff_exists.mp (h.nested hroot hid)
          rw [hparent]
          have hlt := holder hparent
          exact ih parent hlt (Nat.lt_trans hlt hid)

/-- A key that is bound at the top level is found from every frame. -/
theorem exists_get? (h : store.Global key) (holder : store.Older) (hid : id < store.frames.size) :
    ∃ v, store.get? id key = some v := by
  obtain ⟨owner, howner⟩ := Option.isSome_iff_exists.mp (h.isSome_find? holder hid)
  have hlocal := hasLocal_of_find? howner
  rw [hasLocal_eq_isSome] at hlocal
  rw [get?_eq_cell? howner]
  exact Option.isSome_iff_exists.mp hlocal

end Store.Global

/-! ## Names that are not found -/

/-- The name that a failure says was not found. -/
def Failure.missing? : Failure → Option Name
  | .error (.undefinedVariable name) => some name
  | .error (.assignmentToUndeclared name) => some name
  | _ => none

namespace Globals

variable {key : Key} {s : State} {name other : Name} {failure : Failure}

/-- A name is looked up in vain if no frame of the chain binds it. -/
theorem get?_of_lookup_error {frame : FrameId}
    (h : (world s).lookup frame name = .error failure) (hmissing : failure.missing? = some other)
    (hkey : other.key? = some key) : s.store.get? frame key = none := by
  unfold Reference.World.lookup at h
  split at h
  · cases h
    cases hmissing
  next key' hkey' =>
    split at h
    · cases h
    next hnone =>
      cases h
      cases hmissing
      rw [hkey] at hkey'
      cases hkey'
      exact hnone

/-- A call says that a name was not found only if it was not. -/
theorem get?_of_callee_error {regime : Regime} (hholds : regime.Holds s) {arguments : Nat}
    (h : (world s).callee s.context.frame name arguments = .error failure)
    (hmissing : failure.missing? = some other) (hkey : other.key? = some key) :
    s.store.get? s.context.frame key = none := by
  unfold Reference.World.callee at h
  split at h
  next hlookup =>
    cases h
    exact get?_of_lookup_error hlookup hmissing hkey
  next id hlookup =>
    split at h
    next hnone =>
      -- what a name is bound to refers to a closure of the store
      have hhas : id < s.store.closures.size := Regime.has_of_lookup hholds hlookup
      exact absurd hhas (Nat.not_lt.mpr (Array.getElem?_eq_none_iff.mp hnone))
    · split at h <;> cases h
      cases hmissing
  · cases h
    cases hmissing

theorem find?_of_target_error {frame : FrameId}
    (h : (world s).target frame name = .error failure) (hmissing : failure.missing? = some other)
    (hkey : other.key? = some key) : s.store.find? frame key = none := by
  unfold Reference.World.target at h
  split at h
  · cases h
    cases hmissing
  next key' hkey' =>
    split at h
    · cases h
    next hnone =>
      cases h
      cases hmissing
      rw [hkey] at hkey'
      cases hkey'
      exact hnone

theorem missing?_of_declarable_error {frame : FrameId}
    (h : (world s).declarable frame name = .error failure) : failure.missing? = none := by
  unfold Reference.World.declarable at h
  split at h
  · cases h
    rfl
  · split at h <;> cases h
    rfl

theorem missing?_of_operands (h : failure.OfOperands) : failure.missing? = none := by
  cases h <;> rfl

theorem missing?_of_malformed (reason : Malformed) :
    reason.inExpression.missing? = none ∧ reason.inStatement.missing? = none := by
  cases reason <;> exact ⟨rfl, rfl⟩

/-! ## Runs -/

/-- A key is bound at the top level, and no failure says that a name with this key was not found. -/
def regime (key : Key) : Regime where
  stands s _ := s.store.Global key
  made _ _ := True
  fault failure _ := ∀ name, failure.missing? = some name → name.key? ≠ some key

/-- No part says of a key that is bound at the top level that it was not found. -/
theorem raised {part : Part} (hholds : (regime key).Holds s) (hglobal : s.store.Global key)
    (hraises : part.Raises s failure) (hmissing : failure.missing? = some other) :
    other.key? ≠ some key := by
  intro hkey
  have hfind := hglobal.isSome_find? hholds.sound.store.older hholds.sound.current
  obtain ⟨v, hget⟩ := hglobal.exists_get? hholds.sound.store.older hholds.sound.current
  cases hraises with
  | lookup h =>
      rw [get?_of_lookup_error h hmissing hkey] at hget
      cases hget
  | callee h =>
      rw [get?_of_callee_error hholds h hmissing hkey] at hget
      cases hget
  | assign h =>
      rw [find?_of_target_error h hmissing hkey] at hfind
      cases hfind
  | declare h =>
      rw [missing?_of_declarable_error h] at hmissing
      cases hmissing
  | decided h =>
      rw [missing?_of_operands (Reference.decided_error h)] at hmissing
      cases hmissing
  | combined h =>
      rw [missing?_of_operands (Reference.combined_error h)] at hmissing
      cases hmissing
  | malformedExpr =>
      rw [(missing?_of_malformed _).1] at hmissing
      cases hmissing
  | malformedStmt =>
      rw [(missing?_of_malformed _).2] at hmissing
      cases hmissing
  | parameter | noReturn | branch | loop | unfinished | give => cases hmissing

theorem lawful (key : Key) : (regime key).Lawful where
  stays hglobal honward := hglobal.grows honward.store
  operand hglobal _ := hglobal
  block hglobal _ _ hgrows _ := hglobal.grows hgrows
  literal _ := trivial
  body hglobal _ _ hgrows _ := hglobal.grows hgrows
  raised hholds hglobal hraises _ hmissing := raised hholds hglobal hraises hmissing
  tooDeep _ hmissing := by cases hmissing
  under _ _ hfault := hfault

def free : Regime := ⟨fun _ _ => True, fun _ _ => True, fun _ _ => True⟩

theorem free_lawful : free.Lawful := by constructor <;> intros <;> trivial

variable {limits : Limits} {program : Program}

/-- Statements of the top level lead to a sound state, with a store that has grown from the one that
runs start with. -/
theorem holds_of_execAll (hrun : execAll limits program State.initial = .ok () s) :
    free.Holds s ∧ State.initial.store.Grows s.store := by
  have hends := Regime.keeps_execAll free_lawful limits program State.initial
    (Regime.holds_initial free) fun _ _ => trivial
  rw [hrun] at hends
  cases hends with
  | ok hholds honward _ => exact ⟨hholds, honward.store⟩

/-- A name that the top level shows is bound there. -/
theorem hasLocal_of_shows {names : List Name} (h : Toplevel.Shows names s) (hname : name ∈ names)
    (hkey : name.key? = some key) : s.store.hasLocal Store.root key = true := by
  obtain ⟨root, hroot, rfl⟩ := h.root
  simp only [Store.hasLocal, hroot]
  exact Frame.binds_iff.mpr ⟨name, hname, hkey⟩

/-- A declaration at the top level that succeeds makes its name global. -/
theorem global_of_declare {span : Option Span} {value : Expr}
    (hrun : execAll limits (program ++ [.declare span name value]) State.initial = .ok () s) :
    ∃ key, name.key? = some key ∧ s.store.Global key := by
  have hsteps := hrun
  rw [execAll_append, Eval.bind_apply] at hsteps
  cases hbefore : execAll limits program State.initial with
  | error failure u =>
      rw [hbefore] at hsteps
      cases hsteps
  | ok a u =>
      rw [hbefore] at hsteps
      have hdeclare := Evolution.exec_declare limits.iterations limits.depth span name value u
      cases hlast : exec limits.iterations limits.depth (.declare span name value) u with
      | error failure t =>
          simp [Toplevel.execAll_cons, hlast] at hsteps
      | ok b t =>
          rw [hlast] at hdeclare
          obtain ⟨_, _, key, hkey, _⟩ := hdeclare
          have hshows := Toplevel.shows_initial.execAll hrun
          have hgrows := (holds_of_execAll hrun).2
          refine ⟨key, hkey, hasLocal_of_shows hshows ?_ hkey, fun hroot hid => ?_⟩
          · simp [Program.declared, Stmt.declared?]
          · exact hgrows.nested (Nat.one_le_iff_ne_zero.mpr hroot) hid

theorem missing?_ofRun (failure : Failure) : failure.ofRun.missing? = failure.missing? := by
  cases failure <;> rfl

/-- What is global stays so, and no failure says that it was not found. -/
theorem run_of_global (hrun : execAll limits program State.initial = .ok () s)
    (hglobal : s.store.Global key) (next : Program) :
    let result := Program.run limits (program ++ next)
    result.state.store.Older ∧ result.state.store.Global key ∧
      ∀ failure, result.failure = some failure →
        ∀ other, failure.missing? = some other → other.key? ≠ some key := by
  have hholds := (holds_of_execAll hrun).1
  have hends := Regime.keeps_execAll (lawful key) limits next s
    ⟨hholds.sound, hholds.echoes, fun _ => trivial⟩ fun _ _ => hglobal
  have hwhole : execAll limits (program ++ next) State.initial = execAll limits next s := by
    rw [execAll_append, Eval.bind_apply, hrun]
  unfold Program.run
  rw [hwhole]
  cases hnext : execAll limits next s with
  | ok a t =>
      rw [hnext] at hends
      cases hends with
      | ok hholds honward _ =>
          exact ⟨hholds.sound.store.older, hglobal.grows honward.store, nofun⟩
  | error raised t =>
      rw [hnext] at hends
      cases hends with
      | error hholds honward hfault =>
          have hlater := hglobal.grows honward.store
          have hfound : ∀ other, raised.ofRun.missing? = some other → other.key? ≠ some key := by
            intro other hother
            rw [missing?_ofRun] at hother
            exact hfault other hother
          dsimp only
          split
          all_goals
            refine ⟨hholds.sound.store.older, hlater, ?_⟩
            rintro failure ⟨⟩
            exact hfound

end Globals

/-- A global stays visible. Once a declaration at the top level has succeeded, the rest of the run
does not fail because the name is not found, be it looked up, called or assigned to, in whatever
block or call. Indeed every frame that the run ever makes sees the name. -/
theorem global_stays_visible (limits : Limits) (program : Program) {k : Nat} {span : Option Span}
    {name : Name} {value : Expr} (hstmt : program[k]? = some (.declare span name value))
    (hsuccess : (Program.run limits (program.take (k + 1))).failure = none) :
    (∀ other, other.key? = name.key? →
      (program.run limits).failure ≠ some (.error (.undefinedVariable other)) ∧
      (program.run limits).failure ≠ some (.error (.assignmentToUndeclared other))) ∧
    ∃ key, name.key? = some key ∧ ∀ id < (program.run limits).state.store.frames.size,
      ∃ v, (program.run limits).state.store.get? id key = some v := by
  have htake : program.take (k + 1) = program.take k ++ [.declare span name value] := by
    rw [List.take_add_one, hstmt]
    rfl
  cases hrun : execAll limits (program.take (k + 1)) State.initial with
  | error failure t =>
      rw [(Toplevel.run_of_error hrun).failure] at hsuccess
      cases hsuccess
  | ok a s =>
      obtain ⟨key, hkey, hglobal⟩ := Globals.global_of_declare (htake ▸ hrun)
      obtain ⟨holder, hlast, hfound⟩ := Globals.run_of_global hrun hglobal (program.drop (k + 1))
      rw [List.take_append_drop] at holder hlast hfound
      refine ⟨fun other hother => ?_, key, hkey, fun id hid => hlast.exists_get? holder hid⟩
      have hsame : other.key? = some key := hother.trans hkey
      exact ⟨fun hfailure => hfound _ hfailure other rfl hsame,
        fun hfailure => hfound _ hfailure other rfl hsame⟩

/-- A program that declares `x`, assigns to it in a block inside of a call, and then fails in that
call for another name. -/
def usesGlobal : Program :=
  [.declare none (.text "x") (.boolean none true),
    .declare none (.text "f") (.function none []
      [.branch none (.variable none (.text "x"))
          [.assign none (.text "x") (.boolean none false)] [],
        .give none (.variable none (.text "y"))]),
    .print none (.call none (.text "f") [])]

/-- The three frames of the run, of the top level, the call and the block, all see `x`. -/
theorem global_stays_visible_in_call :
    (Program.run ⟨9, 1⟩ (usesGlobal.take 1)).failure = none ∧
      ((usesGlobal.run ⟨9, 1⟩).failure.bind Failure.missing?).bind Datum.key? =
        some (.text "y") ∧
      (usesGlobal.run ⟨9, 1⟩).failure ≠ some (.error (.undefinedVariable (.text "x"))) ∧
      (usesGlobal.run ⟨9, 1⟩).state.store.frames.size = 3 ∧
      ∀ id < 3, ∃ v, (usesGlobal.run ⟨9, 1⟩).state.store.get? id (.text "x") = some v := by
  obtain ⟨hfailure, key, hkey, hvisible⟩ :=
    global_stays_visible ⟨9, 1⟩ usesGlobal (k := 0) rfl rfl
  cases hkey
  have hsize : (usesGlobal.run ⟨9, 1⟩).state.store.frames.size = 3 := by decide +kernel
  rw [hsize] at hvisible
  exact ⟨rfl, by decide +kernel, (hfailure (.text "x") rfl).1, hsize, hvisible⟩

end Treewalk
