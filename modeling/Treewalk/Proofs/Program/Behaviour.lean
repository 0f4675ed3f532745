import Treewalk.Proofs.Evaluation.Watch
import Treewalk.Proofs.Number.ZeroSign
import Treewalk.Proofs.Program.RoundTrip
import Treewalk.Report

/-! # A program behaves as the one read back from its text

The text of a program keeps neither spans nor the sign of a zero. A run does not show the
difference: operators turn numbers that differ in the sign of a zero into such numbers again, a
division by any zero fails, and a zero of either sign is shown as `0`. So the two runs go side by
side, with states that are alike up to the signs of zeros.
-/

namespace Treewalk

open Number (EqUpToZeroSign eqUpToZeroSign_dropZeroSign)

/-- Spans do not count, and neither does the sign of a zero. -/
def Likeness.zeroSign : Likeness := ⟨EqUpToZeroSign, fun _ _ => True⟩

/-- Nothing is out of sight, and only spans and the signs of zeros may differ. -/
def Slack.zeroSign : Slack where
  like := .zeroSign
  frames _ := False
  closures _ := False

/-! ## Bare programs are alike -/

mutual

/-- A bare expression passes for the original. -/
theorem Expr.alike_bare : (e : Expr) → Expr.Alike .zeroSign e e.bare
  | .number _ x => .number trivial (eqUpToZeroSign_dropZeroSign x)
  | .boolean _ _ => .boolean trivial
  | .variable _ _ => .variable trivial
  | .binary _ _ left right => .binary trivial left.alike_bare right.alike_bare
  | .function _ _ body => .function trivial (Stmt.allAlike_bare body)
  | .call _ _ arguments => .call trivial (Expr.allAlike_bare arguments)
  | .malformed _ => .malformed

theorem Expr.allAlike_bare : (es : List Expr) → Expr.AllAlike .zeroSign es (Expr.allBare es)
  | [] => .nil
  | e :: es => .cons e.alike_bare (Expr.allAlike_bare es)

theorem Stmt.alike_bare : (s : Stmt) → Stmt.Alike .zeroSign s s.bare
  | .declare _ _ value => .declare trivial value.alike_bare
  | .assign _ _ value => .assign trivial value.alike_bare
  | .branch _ test thenPart elsePart =>
    .branch trivial test.alike_bare (Stmt.allAlike_bare thenPart) (Stmt.allAlike_bare elsePart)
  | .loop _ test body => .loop trivial test.alike_bare (Stmt.allAlike_bare body)
  | .print _ value => .print trivial value.alike_bare
  | .discard _ value => .discard trivial value.alike_bare
  | .give _ value => .give trivial value.alike_bare
  | .malformed _ => .malformed

theorem Stmt.allAlike_bare : (ss : List Stmt) → Stmt.AllAlike .zeroSign ss (Stmt.allBare ss)
  | [] => .nil
  | s :: ss => .cons s.alike_bare (Stmt.allAlike_bare ss)

end

/-! ## Operators do not tell zeros apart -/

/-- Arithmetic on numbers that are equal up to the sign of a zero is so, too: a division by either
zero fails. -/
theorem arithmetic_sameEnd (operator : Operator) {a b x y : Float} (h : EqUpToZeroSign a x)
    (h' : EqUpToZeroSign b y) :
    SameEnd (Value.Alike .zeroSign) (Rules.arithmetic operator a b)
      (Rules.arithmetic operator x y) := by
  have hcompare : ∀ {p q : Prop} [Decidable p] [Decidable q], (q ↔ p) →
      SameEnd (Value.Alike .zeroSign) (.ok (.boolean (decide p)) : Except RuntimeError Value)
        (.ok (.boolean (decide q))) := by
    intro p q _ _ hiff
    rw [decide_eq_decide.mpr hiff]
    exact .ok .boolean
  cases operator with
  | add => exact .ok (.number (h.add h'))
  | subtract => exact .ok (.number (h.sub h'))
  | multiply => exact .ok (.number (h.mul h'))
  | divide =>
      have hzero : (y == 0) = (b == 0) := h'.beq_eq (b := 0) (y := 0) rfl
      unfold Rules.arithmetic
      rw [hzero]
      cases hb : b == 0 with
      | true => exact .error
      | false => exact .ok (.number (h.div h' hb))
  | less => exact hcompare (h.lt_iff h')
  | _ => exact hcompare (h'.lt_iff h)

/-- No operator tells the two zeros apart. -/
theorem Slack.zeroSign_lawful : Slack.zeroSign.Lawful where
  equal h h' := EqUpToZeroSign.beq_eq h h'
  arithmetic h h' := arithmetic_sameEnd _ h h'

/-! ## What a run shows -/

namespace RunResult

def lines (r : RunResult) : List (Option String) :=
  r.state.context.printed.toList.map (·.text? r.state.store)

/-- The report on the bindings at the end of a run, or at its failure. -/
def report? (r : RunResult) (format : OutputFormat) : Option String :=
  Report.render? r.state.store format r.bindings

/-- Runs that end alike and show the same. -/
structure SameView (r r' : RunResult) : Prop where
  success : r'.success = r.success
  failure : r'.failure = r.failure
  lines : r'.lines = r.lines
  report : ∀ format, r'.report? format = r.report? format

end RunResult

/-- A zero of either sign is reported as an integer. -/
theorem Value.datum?_of_zero (store : Store) {x : Float} (hfinite : x.isFinite = true)
    (h : Number.toInt? x = some 0) : (Value.number x).datum? store = some (.int 0) := by
  unfold Value.datum?
  dsimp only
  rw [if_pos hfinite, h]

namespace Tied

variable {s t : State} {v w : Value}

/-- Values that differ in the sign of a zero have the same text. -/
theorem text?_eq (h : Tied .zeroSign s t) (halike : Value.Alike .zeroSign v w) :
    w.text? t.store = v.text? s.store := by
  cases halike with
  | number hnumber =>
      refine congrArg some (hnumber.apply_eq Number.plainText ?_)
      rw [Number.plainText_of_zero Number.ofFloat_negativeZero,
        Number.plainText_of_zero Number.ofFloat_positiveZero]
  | boolean => rfl
  | @function id =>
      simp only [Value.text?]
      rcases h.closure_cases id with ⟨hs, ht⟩ | ⟨c, d, hs, ht, hclosures⟩
      · rw [hs, ht]
      · rw [hs, ht, Option.map_some, Option.map_some, hclosures.parameters]

theorem datum?_eq (h : Tied .zeroSign s t) (halike : Value.Alike .zeroSign v w) :
    w.datum? t.store = v.datum? s.store := by
  have htext := h.text?_eq halike
  cases halike with
  | number hnumber =>
      refine hnumber.apply_eq (fun x => Value.datum? s.store (.number x)) ?_
      rw [Value.datum?_of_zero _ (by decide) (Number.toInt?_of_zero Number.ofFloat_negativeZero),
        Value.datum?_of_zero _ (by decide) (Number.toInt?_of_zero Number.ofFloat_positiveZero)]
  | boolean => rfl
  | function => exact congrArg (Option.map Datum.text) htext

theorem bindings_alike (h : Tied .zeroSign s t) (id : FrameId) :
    Slack.zeroSign.Entries (s.store.bindings id) (t.store.bindings id) := by
  unfold Store.bindings
  rcases h.frame_cases id with ⟨hs, ht⟩ | ⟨f, g, hs, ht, halike⟩
  · rw [hs, ht]
    exact .nil
  · rw [hs, ht]
    exact halike.bindings not_false

/-- What is shown of each binding is shown of the bindings as a whole. -/
theorem mapM_entries {α : Type} {bindings bindings' : List (Name × Value)}
    (hentries : Slack.zeroSign.Entries bindings bindings') {f g : Name × Value → Option α}
    (hshown : ∀ name v w, Value.Alike .zeroSign v w → g (name, w) = f (name, v)) :
    bindings'.mapM g = bindings.mapM f := by
  induction hentries with
  | nil => rfl
  | @cons entry entry' _ _ hentry _ ih =>
      obtain ⟨name, v⟩ := entry
      obtain ⟨name', w⟩ := entry'
      obtain ⟨rfl, hagree⟩ := hentry
      rw [List.mapM_cons, List.mapM_cons, hshown _ v w hagree.1, ih]

/-- The report on the bindings is the same in every format. -/
theorem render?_eq (h : Tied .zeroSign s t) (format : OutputFormat) :
    Report.render? t.store format (t.store.bindings Store.root) =
      Report.render? s.store format (s.store.bindings Store.root) := by
  have hbindings := h.bindings_alike Store.root
  have htext : Report.textOf? t.store (t.store.bindings Store.root) =
      Report.textOf? s.store (s.store.bindings Store.root) := by
    refine congrArg (Option.bind · _) (mapM_entries hbindings fun name v w halike => ?_)
    dsimp only
    rw [h.text?_eq halike]
  have hentries : Report.entriesOf? t.store (t.store.bindings Store.root) =
      Report.entriesOf? s.store (s.store.bindings Store.root) := by
    refine mapM_entries hbindings fun name v w halike => ?_
    dsimp only
    rw [h.datum?_eq halike]
  cases format with
  | text => exact htext
  | json => exact congrArg (Option.map _) hentries
  | yaml => exact congrArg (Option.map _) hentries

theorem lines_eq (h : Tied .zeroSign s t) :
    t.context.printed.toList.map (·.text? t.store) =
      s.context.printed.toList.map (·.text? s.store) := by
  have hprinted := h.printed
  generalize s.context.printed.toList = vs, t.context.printed.toList = ws at hprinted
  induction hprinted with
  | nil => rfl
  | cons halike _ ih => rw [List.map_cons, List.map_cons, h.text?_eq halike, ih]

/-- The trace of events is not shown. -/
theorem sameView (h : Tied .zeroSign s t) (failure : Option Failure) (trace trace' : Array Event) :
    RunResult.SameView ⟨{ s with trace }, failure⟩ ⟨{ t with trace := trace' }, failure⟩ where
  success := rfl
  failure := rfl
  lines := h.lines_eq
  report := h.render?_eq

end Tied

namespace Program

/-- Programs that differ in spans and in the signs of zeros run alike. -/
theorem run_alike (limits : Limits) {program other : Program}
    (halike : Stmt.AllAlike .zeroSign program other) :
    (program.run limits).SameView (other.run limits) := by
  have htop : Tied .zeroSign State.initial State.initial :=
    Slack.tied_initial (fun _ => id) fun _ => id
  have hends := Slack.follows_execAll Slack.zeroSign_lawful limits halike _ _ htop
  unfold run
  generalize execAll limits program State.initial = r,
    execAll limits other State.initial = r' at hends
  cases hends with
  | ok _ hgoes => exact hgoes.tied.sameView none _ _
  | @error failure _ _ hgoes =>
      -- what is added to the trace depends on the kind of failure
      cases failure with
      | error e => exact hgoes.tied.sameView _ _ _
      | malformed reason => exact hgoes.tied.sameView _ _ _
      | tooDeep => exact hgoes.tied.sameView _ _ _
      | unfinished => exact hgoes.tied.sameView _ _ _

/-- A program runs as the bare program does. -/
theorem run_bare (limits : Limits) (program : Program) :
    (program.run limits).SameView (program.bare.run limits) :=
  run_alike limits (Stmt.allAlike_bare program)

/-- Within the limits of its text a program is read back as one that runs alike, whatever the limits
of the run are: with the same success, failure and output, and with the same report in every format
on its bindings at the end or at its failure. -/
theorem run_ofJson_toJson (indent : Option Nat) (program : Program) (writeLimit readLimit : Nat)
    (hbuilt : program.Built fun _ => True) (hwrite : Node.nestings program.toNodes ≤ writeLimit)
    (hread : 2 * Node.nestings program.toNodes + 2 ≤ readLimit) :
    ∃ text read, program.toJson indent writeLimit = .ok text ∧ ofJson text readLimit = .ok read ∧
      ∀ limits, (program.run limits).SameView (read.run limits) := by
  have hencode := Codec.encodeStmts_ofStmts program hbuilt
  exact ⟨_, _, nodesToJson_of_encode hwrite hencode, ofJson_write indent hbuilt hread,
    fun limits => program.run_bare limits⟩

/-- Prints a negative zero, declares it and divides by it. -/
def negativeZero : Program :=
  let zero : Expr := .number none (Float.ofBits 0x8000000000000000)
  [ .declare none (.text "z") zero,
    .print none (.variable none (.text "z")),
    .print none (.binary none .divide (.number none 1) (.variable none (.text "z"))) ]

theorem run_ofJson_toJson_negativeZero :
    (negativeZero.Built fun _ => True) ∧ Node.nestings negativeZero.toNodes = 3 ∧
    ∃ text read, negativeZero.toJson none = .ok text ∧ ofJson text = .ok read ∧
      ∀ limits, (negativeZero.run limits).SameView (read.run limits) := by
  have hbuilt : negativeZero.Built fun _ => True := by
    simp [negativeZero, Built, Stmt.AllBuilt, Stmt.Built, Expr.Built, Datum.IsText]
  have hnestings : Node.nestings negativeZero.toNodes = 3 := by decide
  exact ⟨hbuilt, hnestings, run_ofJson_toJson none negativeZero Node.depthLimit Json.depthLimit
    hbuilt (by rw [hnestings]; decide) (by rw [hnestings]; decide)⟩

end Program

end Treewalk
