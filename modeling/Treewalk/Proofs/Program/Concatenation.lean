import Treewalk.Proofs.Evaluation.Toplevel
import Treewalk.Proofs.Syntax.Spans

/-! # Programs one after the other

Two sources with a line feed between them make up a source. The line feed ends a comment that the
first one leaves open, and no lexeme goes on with it, so that the lexemes are those of both. No
statement goes on with another one either: a statement is found among any others, as long as no
`else` follows. The program is therefore the one program followed by the other, up to spans, and it
begins as the first one alone does.
-/

namespace Treewalk

open Treewalk.Grammar Treewalk.Parser Lexical

/-! ## Lexemes -/

namespace Lexical

variable {cs ds gap rest tail : List Char} {pieces others : List Piece}

/-- A gap at the end of a text is made longer by a line feed and a gap after it. -/
theorem Gap.join {before : List Char} (h : Gap [] before) (hgap : Gap rest gap) :
    Gap rest (before ++ '\n' :: gap) := by
  induction h with
  | nil => exact .blank (by decide) hgap
  | blank hblank _ ih => exact .blank hblank ih
  | @comment body after hbody hnext _ ih =>
      rw [List.cons_append, List.cons_append, List.append_assoc]
      refine .comment hbody ?_ ih
      -- what ends the comment is what ended it before, or the new line feed
      cases after with
      | nil => simp
      | cons c after => exact hnext

/-- A text after a gap and a line feed has the same lexemes. -/
theorem Decomposes.after_lineFeed (h : Decomposes ds others tail) (hgap : Gap [] gap) :
    ∃ moved last, Decomposes (gap ++ '\n' :: ds) moved last ∧
      moved.map (·.kind) = others.map (·.kind) := by
  cases h with
  | last hlast => exact ⟨[], _, .last (hgap.join hlast), rfl⟩
  | @cons before form text kind rest pieces _ hbefore hlexeme hlonger hrest =>
      have hjoined := Decomposes.cons (hgap.join hbefore) hlexeme hlonger hrest
      rw [List.append_assoc, List.cons_append] at hjoined
      exact ⟨_, _, hjoined, rfl⟩

/-- Two texts with a line feed between them have the lexemes of both, those of the first with the
gaps they had. -/
theorem Decomposes.join (h : Decomposes cs pieces tail) {last : List Char}
    (hnext : Decomposes ds others last) :
    ∃ moved last, Decomposes (cs ++ '\n' :: ds) (pieces ++ moved) last ∧
      moved.map (·.kind) = others.map (·.kind) := by
  induction h with
  | last hgap => exact hnext.after_lineFeed hgap
  | @cons gap form text kind rest pieces tail hgap hlexeme hlonger _ ih =>
      obtain ⟨moved, last, hjoined, hkinds⟩ := ih
      refine ⟨moved, last, ?_, hkinds⟩
      rw [List.append_assoc, List.append_assoc]
      refine .cons (hgap.congr ?_) hlexeme ?_ hjoined
      · obtain ⟨c, text, rfl⟩ := List.exists_cons_of_ne_nil hlexeme.ne_nil
        rfl
      · cases rest with
        | nil =>
            rintro _ ⟨⟩
            exact form.lengthenedBy_blank (by decide)
        | cons c rest => exact hlonger

/-- Tokens of later pieces start where the earlier ones end. -/
theorem lexemeTokens_append (loc : Location) (pieces others : List Piece) :
    lexemeTokens loc (pieces ++ others) =
      lexemeTokens loc pieces ++ lexemeTokens (loc.advance (chars pieces)) others := by
  induction pieces generalizing loc with
  | nil => rfl
  | cons piece pieces ih =>
      rw [chars_cons, Location.advance_append, Location.advance_append]
      exact congrArg _ (ih _)

/-- The end of input is no lexeme. -/
theorem Decomposes.isEnd_lexemeTokens (h : Decomposes cs pieces tail) (loc : Location) :
    ∀ token ∈ lexemeTokens loc pieces, token.kind.isEnd = false := by
  obtain ⟨stop, hall⟩ := tokens_eq_append loc pieces tail
  obtain ⟨body, last, hsplit, hbody, _⟩ := h.tokens_end loc
  -- both ways to split off the end of input leave the same tokens before it
  obtain ⟨hsame, _⟩ := List.append_inj' (hall.symm.trans hsplit) rfl
  rw [hsame]
  exact hbody

end Lexical

/-! ## Statements -/

theorem Grammar.Repeated.append {α : Type} {item : List Token → α → Prop}
    {tokens others : List Token} {xs ys : List α} (h : Repeated item tokens xs)
    (hnext : Repeated item others ys) : Repeated item (tokens ++ others) (xs ++ ys) := by
  induction h with
  | nil => exact hnext
  | cons hitem _ ih =>
      rw [List.append_assoc]
      exact .cons hitem ih

/-- The program that is parsed is the one whose statements are found. -/
theorem Parser.parse_iff_found {limit : Nat} {body : List Token} {last : Token} {program : Program}
    (hbody : ∀ token ∈ body, token.kind.isEnd = false) (hlast : last.kind.isEnd = true) :
    parse (Parser.program limit) (body ++ [last]) = .ok program ↔
      Repeated (FoundStatement limit) body program := by
  rw [parse_eq]
  constructor
  · intro h
    cases hrun : Parser.program limit (Cursor.ofBody body last) with
    | error failure =>
        rw [hrun] at h
        cases h
    | ok result =>
        rw [hrun] at h
        cases h
        exact (program_repeats hbody hlast (expression_statement_lay limit).2 hrun).mono
          fun _ _ h => h.found
  · intro h
    obtain ⟨c, hrun⟩ := program_of_found hbody hlast h
    rw [hrun]
    rfl

/-- From tokens of the same kinds the same statements are found, up to spans. -/
theorem Parser.found_same {limit : Nat} {body body' : List Token} {program : Program}
    (hbody : ∀ token ∈ body, token.kind.isEnd = false)
    (hbody' : ∀ token ∈ body', token.kind.isEnd = false)
    (hkinds : body'.map (·.kind) = body.map (·.kind))
    (h : Repeated (FoundStatement limit) body program) :
    ∃ moved, Repeated (FoundStatement limit) body' moved ∧ Stmt.AllAlike .text program moved := by
  let last : Token := ⟨.endOfInput, "", default⟩
  have hall : (body' ++ [last]).map (·.kind) = (body ++ [last]).map (·.kind) := by
    rw [List.map_append, hkinds, List.map_append]
  have hparse : parse (Parser.program limit) (body ++ [last]) = .ok program :=
    (parse_iff_found hbody rfl).mpr h
  obtain ⟨moved, hmoved, halike⟩ := parse_same (program_same limit) hall hparse
  exact ⟨moved, (parse_iff_found hbody' rfl).mp hmoved, allAlike_of_stmts halike⟩

/-- A source is read as a program if its lexemes make up the statements. -/
theorem Program.ofSource_iff_found {source : Source} {program : Program} :
    Program.ofSource source = .ok program ↔
      ∃ pieces tail, Decomposes source.text.toList pieces tail ∧
        Repeated (FoundStatement depthLimit) (lexemeTokens { file := source.file } pieces)
          program := by
  -- the tokens of a decomposition are those of its lexemes and the end of input
  have hparse : ∀ {pieces tail}, Decomposes source.text.toList pieces tail →
      (Program.ofSource source = .ok program ↔
        Repeated (FoundStatement depthLimit) (lexemeTokens { file := source.file } pieces)
          program) := by
    intro pieces tail hpieces
    obtain ⟨stop, hall⟩ := tokens_eq_append { file := source.file } pieces tail
    rw [ofSource_eq_ok (Source.tokens_of_decomposes hpieces), hall]
    exact parse_iff_found (hpieces.isEnd_lexemeTokens _) rfl
  constructor
  · intro h
    cases htokens : source.tokens with
    | error error =>
        rw [Program.ofSource_of_lexError htokens] at h
        cases h
    | ok tokens =>
        obtain ⟨pieces, tail, hpieces, _⟩ := Source.decomposes_of_tokens htokens
        exact ⟨pieces, tail, hpieces, (hparse hpieces).mp h⟩
  · rintro ⟨pieces, tail, hpieces, hfound⟩
    exact (hparse hpieces).mpr hfound

/-- One source after the other, on lines of their own. -/
def Source.join (first second : Source) : Source :=
  { first with text := first.text ++ "\n" ++ second.text }

/-- What two sources are read as, their text is read as together. -/
theorem Program.ofSource_join {first second : Source} {program next : Program}
    (hfirst : ofSource first = .ok program) (hsecond : ofSource second = .ok next) :
    ∃ moved, ofSource (first.join second) = .ok (program ++ moved) ∧
      Stmt.AllAlike .text next moved := by
  obtain ⟨pieces, tail, hpieces, hfound⟩ := ofSource_iff_found.mp hfirst
  obtain ⟨others, last, hothers, hfound'⟩ := ofSource_iff_found.mp hsecond
  obtain ⟨shifted, last', hjoined, hkinds⟩ := hpieces.join hothers
  let loc : Location := Location.advance { file := first.file } (chars pieces)
  have hbody := hothers.isEnd_lexemeTokens { file := second.file }
  have hbody' : ∀ token ∈ lexemeTokens loc shifted, token.kind.isEnd = false :=
    hjoined.drop.isEnd_lexemeTokens loc
  have hsame : (lexemeTokens loc shifted).map (·.kind) =
      (lexemeTokens { file := second.file } others).map (·.kind) := by
    rw [kind_lexemeTokens, kind_lexemeTokens, hkinds]
  obtain ⟨moved, hmoved, halike⟩ := found_same hbody hbody' hsame hfound'
  refine ⟨moved, ofSource_iff_found.mpr ⟨pieces ++ shifted, last', ?_, ?_⟩, halike⟩
  · simpa [Source.join] using hjoined
  · rw [lexemeTokens_append]
    exact hfound.append hmoved

/-! ## Runs -/

/-- Executing two lists of statements in a row is executing one after the other. -/
theorem execAll_append (limits : Limits) (program next : List Stmt) (s : State) :
    execAll limits (program ++ next) s =
      (do execAll limits program; execAll limits next : Eval Unit) s := by
  induction program generalizing s with
  | nil => rfl
  | cons stmt rest ih =>
      rw [List.cons_append, Toplevel.execAll_cons, Eval.bind_apply, Toplevel.execAll_cons]
      cases exec limits.iterations limits.depth stmt s with
      | error failure t => rfl
      | ok a t => exact (ih t).trans (Eval.bind_apply _ _ t)

/-- The context is restored, whether an action fails or not. -/
def Discipline.restores : Contract :=
  ⟨fun s t => s.context.Restored t.context, fun s t => s.context.Restored t.context⟩

/-- Statements of the top level leave the context as it was. -/
theorem Discipline.execAll_restores (limits : Limits) (program : Program) :
    restores.Holds (execAll limits program) := by
  induction program with
  | nil => exact fun s => .refl s.context
  | cons stmt rest ih =>
      have hstmt : restores.Holds (exec limits.iterations limits.depth stmt) :=
        (kept.exec limits.iterations limits.depth stmt).weaken ⟨And.left, And.left⟩
      exact .bind ⟨.trans, .trans, id⟩ hstmt fun _ => ih

/-- Statements of the top level only add to the names that are shown, whether they fail or not. -/
theorem Toplevel.Shows.execAll_grows {names : List Name} {s : State} (h : Shows names s)
    (limits : Limits) (program : Program) :
    Contract.Allows ⟨fun _ t => ∃ more, Shows (names ++ more) t,
      fun _ t => ∃ more, Shows (names ++ more) t⟩ s (Treewalk.execAll limits program s) := by
  cases hrun : Treewalk.execAll limits program s with
  | ok a t => exact ⟨_, h.execAll hrun⟩
  | error failure t =>
      obtain ⟨k, stmt, u, _, hbefore, hlast⟩ := execAll_error_iff.mp hrun
      exact ⟨_, (h.execAll hbefore).exec_error hlast⟩

/-- A program that fails has the end of every program it is the beginning of. -/
theorem Program.run_append_of_failure {limits : Limits} {program : Program} (next : Program)
    (hfailure : (program.run limits).failure ≠ none) :
    Program.run limits (program ++ next) = program.run limits := by
  cases hrun : execAll limits program State.initial with
  | ok a t => exact absurd (Toplevel.run_of_ok hrun).failure hfailure
  | error failure t =>
      have hboth : execAll limits (program ++ next) State.initial = .error failure t := by
        rw [execAll_append, Eval.bind_apply, hrun]
      unfold run
      rw [hrun, hboth]

/-- A program that succeeds has printed and declared what every program it is the beginning of
prints and declares first. -/
theorem Program.run_append_of_success {limits : Limits} {program : Program} (next : Program)
    (hsuccess : (program.run limits).failure = none) :
    (program.run limits).state.context.printed.toList <+:
        (Program.run limits (program ++ next)).state.context.printed.toList ∧
      (program.run limits).names <+: (Program.run limits (program ++ next)).names := by
  cases hrun : execAll limits program State.initial with
  | error failure t =>
      rw [(Toplevel.run_of_error hrun).failure] at hsuccess
      cases hsuccess
  | ok a s =>
      have hends := Toplevel.run_of_ok hrun
      have hshows := Toplevel.shows_initial.execAll hrun
      have hboth : execAll limits (program ++ next) State.initial = execAll limits next s := by
        rw [execAll_append, Eval.bind_apply, hrun]
      have hrestored := Discipline.execAll_restores limits next s
      have hgrows := hshows.execAll_grows limits next
      rw [RunResult.names, RunResult.names, hends.printed, hends.bindings, hshows.bindings]
      rw [← hboth] at hrestored hgrows
      cases hlast : execAll limits (program ++ next) State.initial with
      | ok b t =>
          rw [hlast] at hrestored hgrows
          obtain ⟨more, hmore⟩ := hgrows
          have hends' := Toplevel.run_of_ok hlast
          rw [hends'.printed, hends'.bindings, hmore.bindings]
          exact ⟨hrestored.printed, List.prefix_append _ _⟩
      | error failure t =>
          rw [hlast] at hrestored hgrows
          obtain ⟨more, hmore⟩ := hgrows
          have hends' := Toplevel.run_of_error hlast
          rw [hends'.printed, hends'.bindings, hmore.bindings]
          exact ⟨hrestored.printed, List.prefix_append _ _⟩

namespace Source

/-- Programs are put together by putting their texts together. Two sources that are read as programs
are read, one after the other, as one program followed by the other, up to spans. If the first
program fails, both together end as it does, in the same state. If it succeeds, both together print
first what it prints, and show first the names that it shows, whether they fail or not. -/
theorem run_join {first second : Source} {program next : Program}
    (hfirst : Program.ofSource first = .ok program)
    (hsecond : Program.ofSource second = .ok next) :
    ∃ moved, Program.ofSource (first.join second) = .ok (program ++ moved) ∧
      Stmt.AllAlike .text next moved ∧
      ∀ limits, ∃ result whole, first.run limits = .ran result ∧
        (first.join second).run limits = .ran whole ∧
        (result.failure ≠ none → whole = result) ∧
        (result.failure = none →
          result.state.context.printed.toList <+: whole.state.context.printed.toList ∧
            result.names <+: whole.names) := by
  obtain ⟨moved, hjoined, halike⟩ := Program.ofSource_join hfirst hsecond
  refine ⟨moved, hjoined, halike, fun limits => ?_⟩
  refine ⟨program.run limits, Program.run limits (program ++ moved), ?_, ?_,
    Program.run_append_of_failure moved, Program.run_append_of_success moved⟩
  · rw [Source.run, hfirst]
  · rw [Source.run, hjoined]

theorem exists_program {source : Source} (h : (Program.ofSource source).toOption.isSome = true) :
    ∃ program, Program.ofSource source = .ok program := by
  cases hsource : Program.ofSource source with
  | ok program => exact ⟨program, rfl⟩
  | error failure =>
      rw [hsource] at h
      cases h

/-- Ends in a comment without a line feed. -/
def commented : Source := { text := "let x = true; if (x) \x7b \x7d // else" }

/-- Prints the name that `commented` declares. -/
def printing : Source := { text := "print(x);" }

theorem run_join_commented :
    ∃ program next moved, Program.ofSource commented = .ok program ∧
      Program.ofSource printing = .ok next ∧
      Program.ofSource (commented.join printing) = .ok (program ++ moved) ∧
      Stmt.AllAlike .text next moved ∧
      ∃ result whole, commented.run ⟨9, 1⟩ = .ran result ∧
        (commented.join printing).run ⟨9, 1⟩ = .ran whole ∧
        (result.failure = none → result.names <+: whole.names) := by
  have hcommented : (Program.ofSource commented).toOption.isSome = true := by decide
  have hprinting : (Program.ofSource printing).toOption.isSome = true := by decide
  obtain ⟨program, hfirst⟩ := exists_program hcommented
  obtain ⟨next, hsecond⟩ := exists_program hprinting
  obtain ⟨moved, hjoined, halike, hruns⟩ := run_join hfirst hsecond
  obtain ⟨result, whole, hresult, hwhole, _, hsuccess⟩ := hruns ⟨9, 1⟩
  exact ⟨program, next, moved, hfirst, hsecond, hjoined, halike, result, whole, hresult, hwhole,
    fun hfailure => (hsuccess hfailure).2⟩

end Source

end Treewalk
