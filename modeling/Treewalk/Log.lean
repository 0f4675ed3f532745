import Treewalk.Evaluation.State

/-! # The log

A run leaves a trace of events; the log shows those of at least its level as records, each with the
name of the part that it comes from.
-/

namespace Treewalk

namespace Log

inductive Severity where
  | debug | info | warning | error | critical
  deriving DecidableEq, Repr, Inhabited

namespace Severity

def name : Severity → String
  | debug => "DEBUG"
  | info => "INFO"
  | warning => "WARNING"
  | error => "ERROR"
  | critical => "CRITICAL"

/-- Severities in ascending order. -/
def rank : Severity → Nat
  | debug => 10
  | info => 20
  | warning => 30
  | error => 40
  | critical => 50

end Severity

/-- Upper case as far as names of levels are concerned: ASCII letters, and the two other characters
whose upper case is an ASCII letter, dotless i and long s. -/
def upper (text : String) : String :=
  text.map fun c =>
    if c.toNat == 0x131 then 'I' else if c.toNat == 0x17F then 'S' else c.toUpper

/-- The least rank that a log shows, by the name of its level in any case. `NOTSET` shows all, and a
name that is not known stands for `WARNING`. -/
def threshold (level : String) : Nat :=
  match upper level with
  | "NOTSET" => 0
  | "DEBUG" => Severity.debug.rank
  | "INFO" => Severity.info.rank
  | "ERROR" => Severity.error.rank
  | "CRITICAL" | "FATAL" => Severity.critical.rank
  | _ => Severity.warning.rank

inductive Origin where
  | frames | interpreter | config | log | commandLine
  deriving DecidableEq, Repr, Inhabited

def Origin.name : Origin → String
  | frames => "treelang.runtime.context"
  | interpreter => "treelang.runtime.interpreter"
  | config => "treelang.config"
  | log => "treelang.log"
  | commandLine => "treelang.cli"

structure Record where
  origin : Origin
  severity : Severity
  message : String
  deriving Repr, Inhabited

def Record.text (r : Record) : String :=
  r.origin.name ++ " - " ++ r.severity.name ++ " - " ++ r.message

def lines (threshold : Nat) (records : List Record) : List String :=
  (records.filter fun r => threshold ≤ r.severity.rank).map (·.text)

def initialized (level : String) : Record :=
  ⟨.log, .debug, "Logging initialized at " ++ upper level ++ " level"⟩

def severityOf : Event → Severity
  | .finished .. => .info
  | _ => .debug

def originOf : Event → Origin
  | .entered _ => .frames
  | _ => .interpreter

/-- What the log says about an event, if the values in it have texts. The names and parents of
frames and the parameters of closures never change, so that the store at the end of a run tells how
things were. -/
def messageOf? (store : Store) : Event → Option String
  | .entered frame =>
    let name := (store.frames[frame]?.map (·.name)).getD ""
    some ("enter frame " ++ Text.quoted name ++ " (depth "
      ++ Number.natText (store.depth frame) ++ ")")
  | .declared name value =>
    (value.text? store).map fun text => "let " ++ name.plain ++ " = " ++ text
  | .printing value => (value.text? store).map fun text => "print " ++ text
  | .called callee arguments =>
    (arguments.mapM (Value.text? store)).map fun texts =>
      "call " ++ callee.plain ++ "(" ++ ", ".intercalate texts ++ ")"
  | .aborted message => some ("run aborted: " ++ message)
  | .finished statements bindings printed =>
    some ("program finished: " ++ Number.natText statements ++ " statement(s), "
      ++ Number.natText bindings ++ " binding(s), " ++ Number.natText printed
      ++ " value(s) printed")

structure Account where
  records : List Record
  /-- Whether every event that the log shows has a record. The records end before the first event
  that has none. -/
  complete : Bool
  deriving Inhabited

/-- The account of some events in a log that shows records from a rank on. -/
def ofEvents (threshold : Nat) (store : Store) : List Event → Account
  | [] => ⟨[], true⟩
  | event :: rest =>
    if (severityOf event).rank < threshold then ofEvents threshold store rest
    else
      match messageOf? store event with
      | none => ⟨[], false⟩
      | some message =>
        let account := ofEvents threshold store rest
        { account with
          records := ⟨originOf event, severityOf event, message⟩ :: account.records }

def ofState (threshold : Nat) (s : State) : Account := ofEvents threshold s.store s.trace.toList

end Log

end Treewalk
