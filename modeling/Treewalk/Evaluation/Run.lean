import Treewalk.Evaluation.Rules
import Treewalk.Program.Parser

/-! # Running programs -/

namespace Treewalk

/-- The state in which a program starts: one frame without bindings. -/
def State.initial : State :=
  { store := { frames := #[{ name := "global" }] }, context := { frame := 0 } }

def Store.root : FrameId := 0

structure RunResult where
  state : State
  failure : Option Failure
  deriving Inhabited

/-- Executes statements one after the other. At the top level no return can be under way. -/
def execAll (limits : Limits) : List Stmt → Eval Unit
  | [] => pure ()
  | stmt :: rest => do
    exec limits.iterations limits.depth stmt
    execAll limits rest

/-- Inside a run, nesting beyond the limit is an error of the program. -/
def Failure.ofRun : Failure → Failure
  | .tooDeep => .error .recursionLimitExceeded
  | failure => failure

namespace RunResult

def bindings (r : RunResult) : List (Name × Value) := r.state.store.bindings Store.root

def success (r : RunResult) : Bool := r.failure.isNone

def message? (r : RunResult) : Option String :=
  match r.failure with
  | some (.error e) => some e.message
  | _ => none

end RunResult

def Program.run (limits : Limits) (program : Program) : RunResult :=
  match execAll limits program State.initial with
  | .ok () s =>
    let event := Event.finished program.length (s.store.bindings Store.root).length
      s.context.printed.size
    ⟨{ s with trace := s.trace.push event }, none⟩
  | .error failure s =>
    let failure := failure.ofRun
    match failure with
    | .error e => ⟨{ s with trace := s.trace.push (.aborted e.message) }, some failure⟩
    | _ => ⟨s, some failure⟩

/-- The message of an error in a text, which tells apart whether it was found in the characters or
in the tokens. -/
def SyntaxFailure.message? : SyntaxFailure → Option String
  | .lex e => some ("Lexer error: " ++ e.diagnostic.message)
  | .parse (.error e) => some ("Parser error: " ++ e.diagnostic.message)
  | .parse _ => none

inductive SourceResult where
  | syntaxFailure (failure : SyntaxFailure)
  | ran (result : RunResult)
  deriving Inhabited

def SourceResult.message? : SourceResult → Option String
  | syntaxFailure failure => failure.message?
  | ran result => result.message?

def Source.run (limits : Limits) (source : Source) : SourceResult :=
  match Program.ofSource source with
  | .ok program => .ran (program.run limits)
  | .error failure => .syntaxFailure failure

end Treewalk
