import Treewalk.Proofs.Evaluation.Regime
import Treewalk.Proofs.Program.Encoding
import Treewalk.Proofs.Syntax.EarliestError

/-! # Nothing goes wrong outside of the language

A program that was read from a source is built from nodes, with texts for names. Such a program runs
into errors of the language only: every name has a key, every function that is called exists, and
no place is reached that cannot be run. What it prints and what its top level binds can be shown.
Reading a source fails with errors of the language only, too: the parser never looks beyond the end
of input.
-/

namespace Treewalk

/-- Built from nodes, with texts for names. -/
def Part.Built : Part → Prop
  | .expr e => e.Built fun _ => True
  | .stmt s => s.Built fun _ => True

/-! ## Programs that were read -/

namespace Grammar

mutual

/-- What the grammar derives is built from nodes, with texts for names. -/
theorem Primary.built {tokens : List Token} {e : Expr} (h : Primary tokens e) :
    e.Built fun _ => True := by
  match h with
  | .number _ => trivial
  | .plus _ _ => trivial
  | .minus _ _ => trivial
  | .boolean _ => trivial
  | .variable _ => trivial
  | .call _ _ harguments => exact ⟨trivial, harguments.built⟩
  | .function _ _ _ hbody =>
      refine ⟨fun p hp => ?_, hbody.built⟩
      obtain ⟨name, _, rfl⟩ := List.mem_map.mp hp
      trivial
  | .group _ he _ => exact he.built

theorem Operands.built {level : Nat} {tokens : List Token} {e : Expr}
    (h : Operands level tokens e) : e.Built fun _ => True := by
  match h with
  | .primary h => exact h.built
  | .tighter h => exact h.built
  | .binary _ hleft _ _ hright => exact ⟨hleft.built, hright.built⟩

theorem Separated.built {tokens : List Token} {es : List Expr}
    (h : Separated (Operands 1) tokens es) : Expr.AllBuilt (fun _ => True) es := by
  match h with
  | .last he => exact ⟨he.built, trivial⟩
  | .cons he _ hrest => exact ⟨he.built, hrest.built⟩

theorem Parenthesised.built {tokens : List Token} {es : List Expr}
    (h : Parenthesised (Operands 1) tokens es) : Expr.AllBuilt (fun _ => True) es := by
  match h with
  | .empty _ _ => trivial
  | .items _ hes _ => exact hes.built

theorem Repeated.built {tokens : List Token} {stmts : List Stmt}
    (h : Repeated Statement tokens stmts) : Stmt.AllBuilt (fun _ => True) stmts := by
  match h with
  | .nil => trivial
  | .cons hstmt hrest => exact ⟨hstmt.built, hrest.built⟩

theorem Braced.built {tokens : List Token} {stmts : List Stmt}
    (h : Braced Statement tokens stmts) : Stmt.AllBuilt (fun _ => True) stmts := by
  match h with
  | .mk _ hstmts _ => exact hstmts.built

theorem Statement.built {tokens : List Token} {stmt : Stmt} (h : Statement tokens stmt) :
    stmt.Built fun _ => True := by
  match h with
  | .declare _ _ _ _ he _ => exact ⟨trivial, he.built⟩
  | .assign _ _ _ he _ => exact ⟨trivial, he.built⟩
  | .branch _ _ _ htest _ hthen => exact ⟨htest.built, hthen.built, trivial⟩
  | .branchElse _ _ _ htest _ hthen _ helse => exact ⟨htest.built, hthen.built, helse.built⟩
  | .loop _ _ _ htest _ hbody => exact ⟨htest.built, hbody.built⟩
  | .print _ _ _ he _ _ => exact he.built
  | .give _ _ he _ => exact he.built
  | .discard _ he _ => exact he.built

end

end Grammar

/-! ## Built programs -/

theorem Expr.allBuilt_iff {number : Float → Prop} {es : List Expr} :
    Expr.AllBuilt number es ↔ ∀ e ∈ es, e.Built number := by
  induction es with
  | nil => exact ⟨nofun, fun _ => trivial⟩
  | cons e rest ih => rw [Expr.AllBuilt, ih, List.forall_mem_cons]

theorem Stmt.allBuilt_iff {number : Float → Prop} {stmts : List Stmt} :
    Stmt.AllBuilt number stmts ↔ ∀ stmt ∈ stmts, stmt.Built number := by
  induction stmts with
  | nil => exact ⟨nofun, fun _ => trivial⟩
  | cons stmt rest ih => rw [Stmt.AllBuilt, ih, List.forall_mem_cons]

/-- What stands directly in a built part is built. -/
theorem Part.Built.operand {part inner : Part} (h : part.Built) (hinner : inner ∈ part.operands) :
    inner.Built := by
  cases part with
  | expr e =>
      cases e with
      | binary span operator left right =>
          rcases List.mem_pair.mp hinner with rfl | rfl
          · exact h.1
          · exact h.2
      | call span callee arguments =>
          obtain ⟨e, he, rfl⟩ := List.mem_map.mp hinner
          exact Expr.allBuilt_iff.mp h.2 e he
      | _ => cases hinner
  | stmt s =>
      cases s with
      | malformed reason => cases hinner
      | declare span name value | assign span name value =>
          rw [List.mem_singleton.mp hinner]
          exact h.2
      | branch span test thenPart elsePart | loop span test body =>
          rw [List.mem_singleton.mp hinner]
          exact h.1
      | print span value | discard span value | give span value =>
          rw [List.mem_singleton.mp hinner]
          exact h

/-- Blocks of a built statement are built. -/
theorem Stmt.Built.block {stmt inner : Stmt} {block : List Stmt} (h : stmt.Built fun _ => True)
    (hblock : block ∈ (Part.stmt stmt).blocks) (hinner : inner ∈ block) :
    inner.Built fun _ => True := by
  cases stmt with
  | branch span test thenPart elsePart =>
      rcases List.mem_pair.mp hblock with rfl | rfl
      · exact Stmt.allBuilt_iff.mp h.2.1 inner hinner
      · exact Stmt.allBuilt_iff.mp h.2.2 inner hinner
  | loop span test body =>
      rw [List.mem_singleton.mp hblock] at hinner
      exact Stmt.allBuilt_iff.mp h.2 inner hinner
  | _ => cases hblock

/-- A text can be looked up. -/
theorem Datum.IsText.key?_ne_none {name : Name} (h : name.IsText) : name.key? ≠ none := by
  cases name with
  | text s => exact nofun
  | _ => cases h

/-! ## Errors of the language -/

/-- The codes of the errors that programs run into. -/
def RuntimeError.codes : List String :=
  ["E401", "E402", "E403", "E404", "E405", "E406", "E407", "E408", "E409", "E410", "E411"]

/-- An error of the language, or a limit that was reached. -/
def Failure.OfLanguage : Failure → Prop
  | .error e => e.code ∈ RuntimeError.codes
  | .malformed _ => False
  | .tooDeep => True
  | .unfinished => True

/-- Errors that names and values lead to are errors of the language. -/
theorem Failure.Ordinary.ofLanguage {failure : Failure} (h : failure.Ordinary) :
    failure.OfLanguage := by
  cases failure with
  | error e =>
      cases e with
      | unknownExpression kind | unknownStatement kind => cases h
      | _ => simp [OfLanguage, RuntimeError.code, RuntimeError.codes]
  | _ => cases h

/-- Texts are keys. -/
theorem Failure.OfName.ofLanguage {name : Name} {failure : Failure} (h : failure.OfName name)
    (hname : name.IsText) : failure.OfLanguage := by
  rcases h with ⟨hkey, _⟩ | hordinary
  · exact absurd hkey hname.key?_ne_none
  · exact hordinary.ofLanguage

/-! ## Runs of built programs -/

namespace Safety

/-- Built parts are executed, and fail with errors of the language. -/
def regime : Regime where
  stands _ part := part.Built
  made parameters body := (∀ p ∈ parameters, p.IsText) ∧ Stmt.AllBuilt (fun _ => True) body
  fault failure _ := failure.OfLanguage

/-- A built part raises only errors of the language. -/
theorem raised_ofLanguage {s : State} {part : Part} {failure : Failure} (hholds : regime.Holds s)
    (hbuilt : part.Built) (hraises : part.Raises s failure) : failure.OfLanguage := by
  cases hraises with
  | lookup h => exact (Reference.World.lookup_error h).ofLanguage hbuilt
  | decided h => exact (Reference.decided_error h).ordinary.ofLanguage
  | combined h => exact (Reference.combined_error h).ordinary.ofLanguage
  | callee h => exact (Reference.World.callee_error h).ofLanguage hbuilt.1
  | parameter hclosure hname hkey =>
      exact absurd hkey ((hholds.made hclosure).1 _ hname).key?_ne_none
  | declare h => exact (Reference.World.declarable_error h).ofLanguage hbuilt.1
  | assign h => exact (Reference.World.target_error h).ofLanguage hbuilt.1
  | malformedExpr | malformedStmt => cases hbuilt
  | unfinished => trivial
  | give => simp [Failure.OfLanguage, RuntimeError.code, RuntimeError.codes]
  | noReturn | branch | loop =>
      apply Failure.Ordinary.ofLanguage
      rfl

theorem lawful : regime.Lawful where
  stays hbuilt _ := hbuilt
  operand hbuilt hinner := hbuilt.operand hinner
  block hbuilt hblock hinner _ _ := Stmt.Built.block hbuilt hblock hinner
  literal hbuilt := hbuilt
  body _ hmade hinner _ _ := Stmt.allBuilt_iff.mp hmade.2 _ hinner
  raised := raised_ofLanguage
  tooDeep := trivial
  under _ _ h := h

end Safety

/-! ## What can be shown -/

/-- A value of a store that has a text and a datum. -/
structure Value.Shown (store : Store) (v : Value) : Prop where
  has : store.Has v
  text : ∃ text, v.text? store = some text
  datum : ∃ d, v.datum? store = some d

theorem Value.allTexts_of_isText {names : List Name} (h : ∀ name ∈ names, name.IsText) :
    ∃ texts, allTexts names = some texts := by
  induction names with
  | nil => exact ⟨[], rfl⟩
  | cons name rest ih =>
      obtain ⟨hname, hrest⟩ := List.forall_mem_cons.mp h
      obtain ⟨texts, htexts⟩ := ih hrest
      cases name with
      | text s => exact ⟨s :: texts, by rw [allTexts, htexts]; rfl⟩
      | _ => cases hname

/-- Every value has a text if all parameters are texts. -/
theorem Value.exists_text {store : Store}
    (hclosures : ∀ {id : ClosureId} {c}, store.closures[id]? = some c →
      ∀ p ∈ c.parameters, p.IsText) (v : Value) : ∃ text, v.text? store = some text := by
  cases v with
  | number x => exact ⟨_, rfl⟩
  | boolean b => exact ⟨_, rfl⟩
  | function id =>
      simp only [text?]
      cases hclosure : store.closures[id]? with
      | none => exact ⟨_, rfl⟩
      | some c =>
          obtain ⟨texts, htexts⟩ := allTexts_of_isText (hclosures hclosure)
          simp only [Option.map_some, Option.getD_some, htexts]
          exact ⟨_, rfl⟩

/-- What has a text has a datum as well. -/
theorem Value.shown_of_has {store : Store} {v : Value} (hv : store.Has v)
    (hclosures : ∀ {id : ClosureId} {c}, store.closures[id]? = some c →
      ∀ p ∈ c.parameters, p.IsText) : v.Shown store := by
  cases v with
  | boolean b => exact ⟨hv, ⟨_, rfl⟩, ⟨_, rfl⟩⟩
  | number x =>
      refine ⟨hv, ⟨_, rfl⟩, ?_⟩
      simp only [datum?]
      split
      · split <;> exact ⟨_, rfl⟩
      · exact ⟨_, rfl⟩
  | function id =>
      obtain ⟨text, htext⟩ := exists_text hclosures (.function id)
      exact ⟨hv, ⟨text, htext⟩, ⟨.text text, by rw [datum?, htext]; rfl⟩⟩

/-- How a run may end: in a sound state with values that can be shown, and if it fails, with an
error of the language. A run that is unfinished has not ended. -/
structure RunResult.Safe (r : RunResult) : Prop where
  failure : ∀ failure, r.failure = some failure →
    failure = .unfinished ∨ ∃ e, failure = .error e ∧ e.code ∈ RuntimeError.codes
  state : r.state.Sound
  printed : ∀ v ∈ r.state.context.printed.toList, v.Shown r.state.store
  bindings : ∀ entry ∈ r.bindings, entry.2.Shown r.state.store

/-- Failures of a run are no limits on nesting. -/
theorem Failure.OfLanguage.ofRun {failure : Failure} (h : failure.OfLanguage) :
    failure.ofRun = .unfinished ∨
      ∃ e, failure.ofRun = .error e ∧ e.code ∈ RuntimeError.codes := by
  cases failure with
  | error e => exact .inr ⟨e, rfl, h⟩
  | malformed reason => cases h
  | tooDeep => exact .inr ⟨_, rfl, by simp [RuntimeError.code, RuntimeError.codes]⟩
  | unfinished => exact .inl rfl

/-- A program that is built from nodes runs safely. -/
theorem Program.run_safe_of_built {program : Program} (h : Stmt.AllBuilt (fun _ => True) program)
    (limits : Limits) : (program.run limits).Safe := by
  obtain ⟨hholds, hfailure⟩ := Regime.run_keeps Safety.lawful limits (Stmt.allBuilt_iff.mp h)
  have hshown : ∀ v, (program.run limits).state.store.Has v →
      v.Shown (program.run limits).state.store :=
    fun v hv => Value.shown_of_has hv fun hclosure => (hholds.made hclosure).1
  refine ⟨?_, hholds.sound, fun v hv => hshown v (hholds.sound.printed v hv), ?_⟩
  · intro failure hfails
    obtain ⟨raised, rfl, hlanguage⟩ := hfailure failure hfails
    exact hlanguage.ofRun
  · intro entry hentry
    unfold RunResult.bindings Store.bindings at hentry
    split at hentry
    next frame hframe => exact hshown _ (hholds.sound.store.bound hframe entry hentry)
    · cases hentry

/-! ## Sources -/

theorem LexFault.code_mem (fault : LexFault) : fault.code ∈ ["E001", "E002", "E003"] := by
  cases fault <;> simp [code]

namespace Source

/-- How reading and running a source may end: with a lexical error, with an error of syntax, because
the parser has reached its limit, for which as many tokens are needed, or with a run of the program
that ends safely. -/
inductive EndsSafely (source : Source) (limits : Limits) : SourceResult → Prop where
  | lexical {error} : source.tokens = .error error →
      error.fault.code ∈ ["E001", "E002", "E003"] →
      EndsSafely source limits (.syntaxFailure (.lex error))
  | syntactic {tokens error} : source.tokens = .ok tokens →
      error.fault.code ∈ ["E101", "E102"] →
      EndsSafely source limits (.syntaxFailure (.parse (.error error)))
  | nested {tokens} : source.tokens = .ok tokens → Parser.depthLimit ≤ tokens.length →
      EndsSafely source limits (.syntaxFailure (.parse .tooDeep))
  | ran {program : Program} : Program.ofSource source = .ok program →
      (program.run limits).Safe → EndsSafely source limits (.ran (program.run limits))

/-- Reading and running a source ends in a result, whatever the text is. Its error, if there is one,
is a lexical error, an error of syntax or an error that programs run into: no place is reached that
cannot be run, nothing is looked for where it does not exist, and nothing is read after the end of
input. All values that were printed, and all that the top level binds, have a text and a datum. -/
theorem run_safe (limits : Limits) (source : Source) :
    source.EndsSafely limits (source.run limits) := by
  cases htokens : source.tokens with
  | error error =>
      unfold Source.run
      rw [Program.ofSource_of_lexError htokens]
      exact .lexical htokens error.fault.code_mem
  | ok tokens =>
      obtain ⟨body, last, hsplit, _, _, result, hsource, hjudged⟩ :=
        Program.ofSource_judged htokens
      unfold Source.run
      rw [hsource]
      rcases hjudged with ⟨rfl, hlimit⟩ | ⟨hverdict, _⟩
      · refine .nested htokens ?_
        rw [hsplit, List.length_append]
        exact hlimit
      · cases hverdict with
        | accepted hprogram => exact .ran hsource (Program.run_safe_of_built hprogram.built limits)
        | incomplete _ _ => exact .syntactic htokens (by simp [ParseFault.code])
        | hopeless _ _ _ => exact .syntactic htokens (by simp [ParseFault.code])

end Source

end Treewalk
