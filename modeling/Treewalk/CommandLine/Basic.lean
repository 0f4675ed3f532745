import Treewalk.CommandLine.Arguments
import Treewalk.Config
import Treewalk.Program.Codec
import Treewalk.Program.Dump

/-! # The command line

What a command writes and how it ends is a function of its arguments, the environment and the files.
Errors of the program and of the configuration are reported; what else goes wrong ends the command
in a failure.
-/

namespace Treewalk

namespace CommandLine

/-- What ends a command without an exit code. -/
inductive Fault where
  | config (failure : ConfigFailure)
  /-- The file is a directory. -/
  | directory
  /-- The file is not in UTF-8. -/
  | undecodable
  | parse (failure : ParseFailure)
  | codec (error : CodecError)
  | run (failure : Failure)
  /-- A value has no text. -/
  | textless
  deriving Inhabited

inductive Ending where
  | exit (code : Nat)
  | fault (fault : Fault)
  deriving Inhabited

/-- What a command writes, line by line, and how it ends. -/
structure Outcome where
  output : List String := []
  errors : List String := []
  ending : Ending
  deriving Inhabited

namespace Outcome

/-- A report of what went wrong, and an exit code that says so. -/
def failed (message : String) : Outcome :=
  { errors := ["Error: " ++ message], ending := .exit 1 }

def broken (fault : Fault) : Outcome := { ending := .fault fault }

def precededBy (lines : List String) (outcome : Outcome) : Outcome :=
  { outcome with errors := lines ++ outcome.errors }

end Outcome

def ofSyntaxFailure : SyntaxFailure → Outcome
  | .lex e => .failed e.diagnostic.text
  | .parse (.error e) => .failed e.diagnostic.text
  | .parse failure => .broken (.parse failure)

def ofCodecError (text : String) : CodecError → Outcome
  | .error e => .failed e.diagnostic.text
  | .notAProgram => .failed CodecError.notAProgramMessage
  | .unreadable (.problem what offset) => .failed (Json.problemText text what offset)
  | e => .broken (.codec e)

/-- Bindings as they are shown at the end, and whether all of them could be shown. -/
def showBindings (format : OutputFormat) (quiet : Bool) (r : RunResult) : List String × Bool :=
  if quiet || r.bindings.isEmpty then ([], true)
  else
    match Report.render? r.state.store format r.bindings with
    | some text => ([text], true)
    | none => ([], false)

/-- The texts up to the first that is missing, and whether none is. -/
def completeLines : List (Option String) → List String × Bool
  | [] => ([], true)
  | none :: _ => ([], false)
  | some text :: rest =>
    let (lines, complete) := completeLines rest
    (text :: lines, complete)

/-- How many values were printed before an event that cannot be logged. -/
def printedBefore (threshold : Nat) (s : State) : Nat :=
  s.trace.toList.takeWhile (fun event =>
    (Log.severityOf event).rank < threshold || (Log.messageOf? s.store event).isSome)
  |>.countP fun
    | .printing _ => true
    | _ => false

/-- The end of a run whose output could all be written. -/
def conclude (format : OutputFormat) (quiet : Bool) (r : RunResult) : Outcome :=
  let (lines, complete) := showBindings format quiet r
  match r.failure with
  | none =>
    { output := lines, ending := if complete then .exit 0 else .fault .textless }
  | some (.error e) =>
    let report := if quiet || r.bindings.isEmpty then [] else "State at failure:" :: lines
    { errors := ("Error: " ++ e.diagnostic.text) :: report,
      ending := if complete then .exit 1 else .fault .textless }
  | some failure => .broken (.run failure)

/-- Runs a program. What it prints is echoed as it is printed, if the settings say so. -/
def runProgram (config : Config) (threshold : Nat) (format : Option OutputFormat) (quiet : Bool)
    (program : Program) : Outcome :=
  let r := program.run Limits.standard
  let account := Log.ofState threshold r.state
  let texts := r.state.echoed.toList
  let shown := if account.complete then texts else texts.take (printedBefore threshold r.state)
  let (lines, echoed) := if config.echoPrints then completeLines shown else ([], true)
  let ending : Outcome :=
    if !echoed || !account.complete then .broken .textless
    else conclude (format.getD config.outputFormat) quiet r
  let records :=
    if echoed then account.records else account.records.filter (·.severity != .info)
  { ending with
    output := lines ++ ending.output
    errors := records.map (·.text) ++ ending.errors }

def withProgram (encoded : Bool) (file text : String) (next : Program → Outcome) : Outcome :=
  if encoded then
    match Program.ofJson text with
    | .ok program => next program
    | .error e => ofCodecError text e
  else
    match Program.ofSource { text, file := some file } with
    | .ok program => next program
    | .error failure => ofSyntaxFailure failure

def perform (config : Config) (threshold : Nat) (file text : String) : Command → Outcome
  | .run encoded format quiet =>
    withProgram encoded file text (runProgram config threshold format quiet)
  | .check => withProgram false file text fun program =>
    { output := ["OK: " ++ (Path.ofText file).fileName ++ " - "
        ++ Number.natText program.length ++ " statement(s), no errors"],
      ending := .exit 0 }
  | .ast true => withProgram false file text fun program =>
    { output := program.dump, ending := .exit 0 }
  | .ast false => withProgram false file text fun program =>
    match program.toJson (some 2) with
    | .ok json => { output := [json], ending := .exit 0 }
    | .error e => .broken (.codec e)

def performOnFile (config : Config) (threshold : Nat) (files : Files) (file : String)
    (command : Command) : Outcome :=
  let path := Path.ofText file
  match files.lookup? path with
  | none => .failed ("File not found: " ++ path.text)
  | some .directory => .broken .directory
  | some (.file content) =>
    match decodeText? content with
    | none => .broken .undecodable
    | some text => perform config threshold file text command

/-- The level of the log: asking for more logging goes before the configuration. -/
def levelFor (config : Config) : (verbosity : Nat) → Log.Severity
  | 0 => config.logLevel
  | 1 => .info
  | _ => .debug

/-- Carries out what was asked for. The configuration is looked for before there is a log. -/
def invoke (env : Config.Environment) (invocation : Invocation) : Outcome :=
  match (Config.load env invocation.config).1 with
  | .error (.invalid e) => .failed e.message
  | .error (.notFound path) => .failed (Config.notFoundMessage path)
  | .error failure => .broken (.config failure)
  | .ok config =>
    let level := levelFor config invocation.verbosity
    let start : Log.Record := ⟨.commandLine, .debug,
      "action=" ++ invocation.command.name ++ " file=" ++ invocation.file⟩
    (performOnFile config level.rank env.files invocation.file invocation.command).precededBy
      (Log.lines level.rank [Log.initialized level.name, start])

def run (env : Config.Environment) (arguments : List String) :
    Except Arguments.Refusal Outcome := do
  let invocation ← Invocation.ofArguments arguments
  pure (invoke env invocation)

end CommandLine

end Treewalk
