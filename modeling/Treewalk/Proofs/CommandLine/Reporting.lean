import Treewalk.CommandLine.Basic
import Treewalk.Proofs.Program.Behaviour
import Treewalk.Proofs.Program.Globals
import Treewalk.Proofs.Program.Safety

/-! # What the command line reports of a run

The result of reading and running a source holds the printed values, and their texts are formed when
it is looked at. The command line shows each value when it is printed, in the middle of the run. The
texts are the same, since all that a text depends on are the parameters of functions, and those
never change. What the command line writes, and how it ends, is therefore determined by the result.
-/

namespace Treewalk

/-! ## Results -/

inductive SourceError where
  | lexical (error : LexError)
  | syntactic (error : ParseError)
  | runtime (error : RuntimeError)

namespace SourceError

def diagnostic : SourceError → Diagnostic
  | lexical e => e.diagnostic
  | syntactic e => e.diagnostic
  | runtime e => e.diagnostic

/-- Whether the source is no program. -/
def isOfReading : SourceError → Bool
  | runtime _ => false
  | _ => true

end SourceError

namespace Failure

def sourceError? : Failure → Option SourceError
  | error e => some (.runtime e)
  | _ => none

/-- Whether a failure is only that a run was given up. -/
def isUnfinished : Failure → Bool
  | unfinished => true
  | _ => false

end Failure

namespace SourceResult

def error? : SourceResult → Option SourceError
  | syntaxFailure (.lex e) => some (.lexical e)
  | syntaxFailure (.parse (.error e)) => some (.syntactic e)
  | syntaxFailure _ => none
  | ran r => r.failure.bind Failure.sourceError?

/-- Whether reading and running came to an end. A parser or a run that has reached its limit has
not. -/
def hasEnded : SourceResult → Bool
  | syntaxFailure (.parse .tooDeep) => false
  | syntaxFailure _ => true
  | ran r => r.failure.all (!·.isUnfinished)

/-- The texts of the printed values, as they are in the end. -/
def lines : SourceResult → List (Option String)
  | syntaxFailure _ => []
  | ran r => r.lines

def reports (format : OutputFormat) : SourceResult → List (Option String)
  | syntaxFailure _ => []
  | ran r => if r.bindings.isEmpty then [] else [r.report? format]

def logged (threshold : Nat) : SourceResult → List Log.Record
  | syntaxFailure _ => []
  | ran r => (Log.ofState threshold r.state).records

end SourceResult

/-! ## What is printed keeps its text -/

/-- What a program shows while it runs are the texts that the printed values have in the end. -/
theorem Program.echoed_eq_lines (limits : Limits) (program : Program) :
    (program.run limits).state.echoed.toList = (program.run limits).lines :=
  (Regime.run_keeps Globals.free_lawful limits fun _ _ => trivial).1.echoes

/-- A traversal goes through if each step does. -/
theorem exists_mapM {α β : Type} {f : α → Option β} {as : List α}
    (h : ∀ a ∈ as, ∃ b, f a = some b) : ∃ bs, as.mapM f = some bs := by
  induction as with
  | nil => exact ⟨[], rfl⟩
  | cons a as ih =>
      obtain ⟨hhead, hrest⟩ := List.forall_mem_cons.mp h
      obtain ⟨b, hb⟩ := hhead
      obtain ⟨bs, hbs⟩ := ih hrest
      exact ⟨b :: bs, by simp [hb, hbs]⟩

namespace Log

variable {store : Store} (htexts : ∀ v : Value, ∃ text, v.text? store = some text)

include htexts

/-- Where all values have texts, the log has something to say about every event. -/
theorem exists_message (event : Event) : ∃ message, messageOf? store event = some message := by
  cases event with
  | declared name v =>
      obtain ⟨text, htext⟩ := htexts v
      exact ⟨_, by rw [messageOf?, htext]; rfl⟩
  | printing v =>
      obtain ⟨text, htext⟩ := htexts v
      exact ⟨_, by rw [messageOf?, htext]; rfl⟩
  | called callee arguments =>
      obtain ⟨texts, hall⟩ := exists_mapM fun v (_ : v ∈ arguments) => htexts v
      exact ⟨_, by rw [messageOf?, hall]; rfl⟩
  | entered frame => exact ⟨_, rfl⟩
  | aborted message => exact ⟨_, rfl⟩
  | finished statements bindings printed => exact ⟨_, rfl⟩

/-- If all values have texts, the log tells of every event. -/
theorem complete_ofEvents (threshold : Nat) (events : List Event) :
    (ofEvents threshold store events).complete = true := by
  induction events with
  | nil => rfl
  | cons event rest ih =>
      unfold ofEvents
      split
      · exact ih
      · obtain ⟨message, hmessage⟩ := exists_message htexts event
        rw [hmessage]
        exact ih

end Log

/-- Bindings whose values can be shown can be reported in every format. -/
theorem Report.exists_render {store : Store} {bindings : List (Name × Value)}
    (h : ∀ entry ∈ bindings, entry.2.Shown store) (format : OutputFormat) :
    ∃ text, Report.render? store format bindings = some text := by
  have hentries : ∃ entries, entriesOf? store bindings = some entries := by
    refine exists_mapM fun entry hentry => ?_
    obtain ⟨d, hd⟩ := (h entry hentry).datum
    exact ⟨(entry.1, d), congrArg (Option.map _) hd⟩
  cases format with
  | text =>
      unfold render? textOf?
      cases hlines : (List.mapM _ bindings : Option (List String)) with
      | some lines => exact ⟨_, rfl⟩
      | none =>
          refine absurd hlines (Option.ne_none_iff_exists'.mpr (exists_mapM fun entry hentry => ?_))
          obtain ⟨text, htext⟩ := (h entry hentry).text
          exact ⟨_, congrArg (Option.map _) htext⟩
  | json =>
      obtain ⟨entries, heq⟩ := hentries
      exact ⟨_, by rw [render?, heq]; rfl⟩
  | yaml =>
      obtain ⟨entries, heq⟩ := hentries
      exact ⟨_, by rw [render?, heq]; rfl⟩

/-- The lines of a run, if every value has a text. -/
theorem RunResult.exists_lines {r : RunResult}
    (htexts : ∀ v : Value, ∃ text, v.text? r.state.store = some text) :
    ∃ lines : List String, r.lines = lines.map some := by
  choose text htext using htexts
  refine ⟨r.state.context.printed.toList.map text, ?_⟩
  rw [RunResult.lines, List.map_map]
  exact List.map_congr_left fun v _ => htext v

/-! ## Programs that were read from sources -/

namespace Program

/-- What a source is read as: a program that is built from texts, or a failure of one of three
kinds. -/
theorem ofSource_cases (source : Source) :
    (∃ program, Program.ofSource source = .ok program ∧ Stmt.AllBuilt (fun _ => True) program) ∨
      ∃ failure, Program.ofSource source = .error failure ∧
        ((∃ e, failure = .lex e) ∨ (∃ e, failure = .parse (.error e)) ∨
          failure = .parse .tooDeep) := by
  cases htokens : source.tokens with
  | error e =>
      exact .inr ⟨_, Program.ofSource_of_lexError htokens, .inl ⟨e, rfl⟩⟩
  | ok tokens =>
      obtain ⟨body, last, _, _, _, result, hsource, hjudged⟩ := Program.ofSource_judged htokens
      rw [hsource]
      rcases hjudged with ⟨rfl, _⟩ | ⟨hverdict, _⟩
      · exact .inr ⟨_, rfl, .inr (.inr rfl)⟩
      · cases hverdict with
        | accepted hprogram => exact .inl ⟨_, rfl, hprogram.built⟩
        | incomplete _ _ => exact .inr ⟨_, rfl, .inr (.inl ⟨_, rfl⟩)⟩
        | hopeless _ _ _ => exact .inr ⟨_, rfl, .inr (.inl ⟨_, rfl⟩)⟩

/-- At the end of a run every value has a text. -/
theorem exists_text_of_built {program : Program} (h : Stmt.AllBuilt (fun _ => True) program)
    (limits : Limits) (v : Value) :
    ∃ text, v.text? (program.run limits).state.store = some text := by
  obtain ⟨hholds, _⟩ := Regime.run_keeps Safety.lawful limits (Stmt.allBuilt_iff.mp h)
  exact Value.exists_text (fun hclosure => (hholds.made hclosure).1) v

end Program

/-! ## Commands -/

namespace CommandLine

/-- How a run is reported, given what it printed and the report on the bindings: the bindings follow
what was printed, or the error if there is one. -/
def reportOfRun (lines state : List String) : Option SourceError → Outcome
  | none => { output := lines ++ state, ending := .exit 0 }
  | some e =>
    { output := lines
      errors := ("Error: " ++ e.diagnostic.text) ::
        if state.isEmpty then [] else "State at failure:" :: state
      ending := .exit 1 }

/-- What the log shows before a command reads its file. -/
def opening (config : Config) (invocation : Invocation) : List String :=
  let level := levelFor config invocation.verbosity
  Log.lines level.rank [Log.initialized level.name, ⟨.commandLine, .debug,
    "action=" ++ invocation.command.name ++ " file=" ++ invocation.file⟩]

/-- Nothing is cut off where no text is missing. -/
theorem completeLines_map_some (lines : List String) :
    completeLines (lines.map some) = (lines, true) := by
  induction lines with
  | nil => rfl
  | cons line rest ih => simp only [List.map_cons, completeLines, ih]

/-- What is reported at the end of a run whose bindings can be shown. -/
theorem conclude_eq {r : RunResult} (hsafe : r.Safe) (hended : (SourceResult.ran r).hasEnded = true)
    (format : OutputFormat) (quiet : Bool) :
    ∃ state : List String,
      (if quiet then [] else (SourceResult.ran r).reports format) = state.map some ∧
      conclude format quiet r = reportOfRun [] state (SourceResult.ran r).error? := by
  obtain ⟨text, hreport⟩ := Report.exists_render hsafe.bindings format
  refine ⟨if quiet || r.bindings.isEmpty then [] else [text], ?_, ?_⟩
  · rw [SourceResult.reports, RunResult.report?, hreport]
    cases quiet <;> cases r.bindings.isEmpty <;> rfl
  · have hshown : showBindings format quiet r =
        (if quiet || r.bindings.isEmpty then [] else [text], true) := by
      rw [showBindings, hreport]
      split <;> rfl
    unfold conclude
    simp only [hshown, SourceResult.error?]
    cases hfailure : r.failure with
    | none => rfl
    | some failure =>
        rcases hsafe.failure failure hfailure with rfl | ⟨e, rfl, _⟩
        · simp [SourceResult.hasEnded, hfailure, Failure.isUnfinished] at hended
        · cases quiet || r.bindings.isEmpty <;> rfl

/-- A program that was built from texts is reported as its result says, although what it prints is
shown while it runs. -/
theorem runProgram_eq {program : Program} (hbuilt : Stmt.AllBuilt (fun _ => True) program)
    {r : RunResult} (hr : program.run Limits.standard = r)
    (hended : (SourceResult.ran r).hasEnded = true) (config : Config) (threshold : Nat)
    (format : Option OutputFormat) (quiet : Bool) :
    ∃ lines state : List String,
      (SourceResult.ran r).lines = lines.map some ∧
      (if quiet then [] else (SourceResult.ran r).reports (format.getD config.outputFormat)) =
        state.map some ∧
      runProgram config threshold format quiet program =
        (reportOfRun (if config.echoPrints then lines else []) state
          (SourceResult.ran r).error?).precededBy
            (((SourceResult.ran r).logged threshold).map (·.text)) := by
  have hsafe := Program.run_safe_of_built hbuilt Limits.standard
  have htexts := Program.exists_text_of_built hbuilt Limits.standard
  have hechoed := program.echoed_eq_lines Limits.standard
  rw [hr] at hsafe htexts hechoed
  have hlog : (Log.ofState threshold r.state).complete = true :=
    Log.complete_ofEvents htexts threshold _
  obtain ⟨lines, hlines⟩ := RunResult.exists_lines htexts
  obtain ⟨state, hstate, hconclude⟩ :=
    conclude_eq hsafe hended (format.getD config.outputFormat) quiet
  refine ⟨lines, state, hlines, hstate, ?_⟩
  have hshown : (if config.echoPrints then completeLines (lines.map some) else ([], true)) =
      (if config.echoPrints then lines else [], true) := by
    rw [completeLines_map_some]
    split <;> rfl
  unfold runProgram
  simp only [hr, hlog, hechoed, hlines, hconclude, hshown, if_true, Bool.not_true, Bool.or_self]
  cases (SourceResult.ran r).error? with
  | none => simp [reportOfRun, Outcome.precededBy, SourceResult.logged]
  | some e => simp [reportOfRun, Outcome.precededBy, SourceResult.logged]

/-- A command whose file can be read is carried out on the text of the file. -/
theorem invoke_eq {env : Config.Environment} {asked : Option String} {file : String}
    {config : Config} {content : ByteArray} {text : String}
    (hconfig : (Config.load env asked).1 = .ok config)
    (hfile : env.files.lookup? (Path.ofText file) = some (.file content))
    (htext : decodeText? content = some text) (verbosity : Nat) (command : Command) :
    invoke env ⟨asked, verbosity, command, file⟩ =
      (perform config (levelFor config verbosity).rank file text command).precededBy
        (opening config ⟨asked, verbosity, command, file⟩) := by
  simp only [invoke, performOnFile, hconfig, hfile, htext]
  rfl

/-- A source that is a program is handed on. -/
theorem withProgram_ok {file text : String} {program : Program}
    (h : Program.ofSource { text, file := some file } = .ok program) (next : Program → Outcome) :
    withProgram false file text next = next program := by
  simp [withProgram, h]

/-- A source that is no program is reported, and nothing is handed on. -/
theorem withProgram_error {file text : String} {failure : SyntaxFailure}
    (h : Program.ofSource { text, file := some file } = .error failure)
    (next : Program → Outcome) :
    withProgram false file text next = ofSyntaxFailure failure := by
  simp [withProgram, h]

theorem precededBy_precededBy (first later : List String) (outcome : Outcome) :
    (outcome.precededBy later).precededBy first = outcome.precededBy (first ++ later) := by
  simp [Outcome.precededBy]

/-- The error of a program is none of reading. -/
theorem filter_isOfReading (r : RunResult) :
    (SourceResult.ran r).error?.filter (·.isOfReading) = none := by
  cases hfailure : r.failure with
  | none => simp [SourceResult.error?, hfailure]
  | some failure => cases failure <;> simp [SourceResult.error?, hfailure, Failure.sourceError?,
      SourceError.isOfReading]

/-- The command line reports what reading and running the text of a file results in. A program that
ran to its end leads to exit code 0, anything else to exit code 1. The values that were printed are
shown, unless the configuration says otherwise, and then the bindings, unless there are none or the
command is to be quiet; if there is an error, it is reported together with the bindings. A check
succeeds exactly if the source is a program, whatever its run ends with, and tells how many
statements it has. -/
theorem invoke_reports (env : Config.Environment) (asked : Option String) (verbosity : Nat)
    (file : String) {config : Config} {content : ByteArray} {text : String}
    {result : SourceResult} (hconfig : (Config.load env asked).1 = .ok config)
    (hfile : env.files.lookup? (Path.ofText file) = some (.file content))
    (htext : decodeText? content = some text)
    (hresult : Source.run Limits.standard { text, file := some file } = result)
    (hended : result.hasEnded = true) :
    (∀ format quiet,
      let invocation : Invocation := ⟨asked, verbosity, .run false format quiet, file⟩
      ∃ lines state : List String,
        result.lines = lines.map some ∧
        (if quiet then [] else result.reports (format.getD config.outputFormat)) =
          state.map some ∧
        invoke env invocation =
          (reportOfRun (if config.echoPrints then lines else []) state result.error?).precededBy
            (opening config invocation ++
              (result.logged (levelFor config verbosity).rank).map (·.text))) ∧
    let invocation : Invocation := ⟨asked, verbosity, .check, file⟩
    match result.error?.filter (·.isOfReading) with
    | some e =>
      invoke env invocation =
        (Outcome.failed e.diagnostic.text).precededBy (opening config invocation)
    | none =>
      ∃ program, Program.ofSource { text, file := some file } = .ok program ∧
        invoke env invocation =
          { output := ["OK: " ++ (Path.ofText file).fileName ++ " - " ++
              Number.natText program.length ++ " statement(s), no errors"]
            errors := opening config invocation
            ending := .exit 0 } := by
  rcases Program.ofSource_cases { text, file := some file } with
    ⟨program, hsource, hbuilt⟩ | ⟨failure, hsource, hcases⟩
  · simp only [Source.run, hsource] at hresult
    generalize hr : program.run Limits.standard = r at hresult
    subst hresult
    refine ⟨fun format quiet => ?_, ?_⟩
    · obtain ⟨lines, state, hlines, hstate, hrun⟩ := runProgram_eq hbuilt hr hended config
        (levelFor config verbosity).rank format quiet
      refine ⟨lines, state, hlines, hstate, ?_⟩
      rw [invoke_eq hconfig hfile htext, ← precededBy_precededBy, ← hrun]
      simp only [perform, withProgram_ok hsource]
    · rw [filter_isOfReading]
      refine ⟨program, hsource, ?_⟩
      rw [invoke_eq hconfig hfile htext]
      simp only [perform, withProgram_ok hsource, Outcome.precededBy, List.append_nil]
  · simp only [Source.run, hsource] at hresult
    subst hresult
    have hreported : ∃ e, (SourceResult.syntaxFailure failure).error? = some e ∧
        e.isOfReading = true ∧ ofSyntaxFailure failure = .failed e.diagnostic.text := by
      rcases hcases with ⟨e, rfl⟩ | ⟨e, rfl⟩ | rfl
      · exact ⟨_, rfl, rfl, rfl⟩
      · exact ⟨_, rfl, rfl, rfl⟩
      · cases hended
    obtain ⟨e, herror, hreading, hfailed⟩ := hreported
    rw [herror]
    refine ⟨fun format quiet => ⟨[], [], rfl, ?_, ?_⟩, ?_⟩
    · exact ite_self _
    · rw [invoke_eq hconfig hfile htext]
      simp only [perform, withProgram_error hsource, hfailed]
      simp [reportOfRun, SourceResult.logged, Outcome.failed]
    · rw [Option.filter_some, if_pos hreading]
      simp only [invoke_eq hconfig hfile htext, perform, withProgram_error hsource, hfailed]

/-- A source that prints a function and divides by zero after it. -/
def lateDivision : Source where
  text := "let f = function(x) {};\nprint(f);\nlet g = f;\nf = 1 / 0;"
  file := some "p"

/-- The bytes of its file, where lines are broken in another way. -/
def lateDivisionBytes : ByteArray :=
  "let f = function(x) {};\r\nprint(f);\r\nlet g = f;\r\nf = 1 / 0;".toUTF8

/-- The file, without any configuration. -/
def lateDivisionFile : Config.Environment where
  files := [(⟨false, ["p"]⟩, .file lateDivisionBytes)]
  home := ⟨true, ["home"]⟩
  named := none

/-- What was printed is shown, and the failure after it is reported. -/
theorem invoke_reports_lateDivision :
    invoke lateDivisionFile ⟨none, 0, .run false none false, "p"⟩ =
      { output := ["<function(x)>"]
        errors := ["Error: error[E405]: division by zero", "State at failure:",
          "f = <function(x)>\ng = <function(x)>"]
        ending := .exit 1 } ∧
    (invoke lateDivisionFile ⟨none, 0, .check, "p"⟩).ending = .exit 0 := by
  have hlines : (lateDivision.run Limits.standard).lines = [some "<function(x)>"] := by
    decide +kernel
  have hreport : (lateDivision.run Limits.standard).reports .text =
      [some "f = <function(x)>\ng = <function(x)>"] := by decide +kernel
  have herror : (lateDivision.run Limits.standard).error?.map
      (fun e => (e.isOfReading, e.diagnostic.text)) =
        some (false, "error[E405]: division by zero") := by decide +kernel
  have hlog : ((lateDivision.run Limits.standard).logged (levelFor {} 0).rank).map (·.text) = [] :=
    by decide +kernel
  have hended : (lateDivision.run Limits.standard).hasEnded = true := by decide +kernel
  generalize hresult : lateDivision.run Limits.standard = result at *
  have hconfig : (Config.load lateDivisionFile none).1 = .ok {} := by
    have hnone : lateDivisionFile.files.isFile (Config.userFile lateDivisionFile.home) = false :=
      by decide +kernel
    simp only [Config.load, Config.find, Config.findDefault, hnone]
    rfl
  have hfile : lateDivisionFile.files.lookup? (Path.ofText "p") =
      some (.file lateDivisionBytes) := by
    have hpath : Path.ofText "p" = ⟨false, ["p"]⟩ := by cbv
    rw [hpath]
    rfl
  have htext : decodeText? lateDivisionBytes = some lateDivision.text := by
    have hbytes : String.fromUTF8? lateDivisionBytes =
        some "let f = function(x) {};\r\nprint(f);\r\nlet g = f;\r\nf = 1 / 0;" := rfl
    rw [decodeText?, hbytes]
    decide +kernel
  obtain ⟨hrun, hcheck⟩ :=
    invoke_reports lateDivisionFile none 0 "p" hconfig hfile htext hresult hended
  obtain ⟨e, herror', hkind⟩ := Option.map_eq_some_iff.mp herror
  obtain ⟨hreading, hmessage⟩ := Prod.mk.inj hkind
  rw [herror'] at hrun hcheck
  rw [Option.filter_some, hreading] at hcheck
  obtain ⟨program, _, hcheck⟩ := hcheck
  obtain ⟨lines, state, hall, hstate, hinvoke⟩ := hrun none false
  have hsome := List.map_injective_iff.mpr (Option.some_injective String)
  obtain rfl : ["<function(x)>"] = lines := hsome (hlines.symm.trans hall)
  obtain rfl : ["f = <function(x)>\ng = <function(x)>"] = state :=
    hsome (hreport.symm.trans hstate)
  refine ⟨?_, ?_⟩
  · rw [hinvoke]
    have hopening : opening {} ⟨none, 0, .run false none false, "p"⟩ = [] := rfl
    rw [hopening, hlog]
    simp only [reportOfRun, hmessage]
    rfl
  · rw [hcheck]

end CommandLine

end Treewalk
