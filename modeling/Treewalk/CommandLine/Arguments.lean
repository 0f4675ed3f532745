import Treewalk.Report
import Treewalk.Text.DecimalDigit

/-! # Command line arguments

An argument is an option, the separator `--`, or an operand. Options may be shortened as long as
they stay unique, flags of one letter may be written together, and values are written behind an
equals sign or in the next argument. After the separator there are only operands. Arguments are
taken from left to right, and a request for help ends that.
-/

namespace Treewalk

namespace Arguments

/-- Why arguments do not lead to a command. -/
inductive Refusal where
  /-- Help was asked for. -/
  | help
  /-- The arguments are not in order. -/
  | usage
  deriving DecidableEq, Repr, Inhabited

/-- What an option does to the settings collected so far. -/
abbrev Effect (α : Type) := α → Except Refusal α

structure Flag (α : Type) where
  letter : Option Char
  long : String
  effect : Effect α

structure Valued (α : Type) where
  long : String
  effect : String → Effect α

structure Options (α : Type) where
  flags : List (Flag α)
  valued : List (Valued α)

inductive Mark (α : Type) where
  | operand
  | separator
  | unknown
  /-- A flag of one letter, with what is written behind it. -/
  | short (flag : Flag α) (letters : List Char)
  /-- A flag by its long name, with a value that it cannot take. -/
  | flag (flag : Flag α) (value : Option String)
  | valued (option : Valued α) (value : Option String)

def Options.withLetter? {α : Type} (options : Options α) (letter : Char) : Option (Flag α) :=
  options.flags.find? (·.letter == some letter)

/-- An argument cut at its first equals sign. -/
def cutValue : List Char → List Char × Option (List Char)
  | [] => ([], none)
  | '=' :: rest => ([], some rest)
  | c :: rest =>
    let (name, value) := cutValue rest
    (c :: name, value)

def Options.matching {α : Type} (options : Options α) (fits : String → Bool)
    (value : Option String) : List (Mark α) :=
  (options.flags.filter (fits ·.long)).map (.flag · value)
    ++ (options.valued.filter (fits ·.long)).map (.valued · value)

/-- What an argument with a long name is: the option of that name, or the only one whose name
starts like that. -/
def markLong {α : Type} (options : Options α) (cs : List Char) : Except Refusal (Option (Mark α)) :=
  let (name, value) := cutValue cs
  let value := value.map String.ofList
  match options.matching (·.toList == name) value with
  | mark :: _ => .ok (some mark)
  | [] =>
    match options.matching (fun long => name.isPrefixOf long.toList) value with
    | [] => .ok none
    | [mark] => .ok (some mark)
    | _ => .error .usage

def markShort {α : Type} (options : Options α) (letter : Char) (rest : List Char) :
    Option (Mark α) :=
  (options.withLetter? letter).map (.short · rest)

/-- Digits, with at most one point before the last of them. -/
def isNumeral (cs : List Char) : Bool :=
  match cs.dropWhile Char.isDigit with
  | [] => !cs.isEmpty
  | '.' :: fraction => !fraction.isEmpty && fraction.all Char.isDigit
  | _ => false

/-- Whether an argument reads as a number. Its digits may come from any script, and a line feed may
follow. -/
def looksNumeric (cs : List Char) : Bool :=
  let cs := if cs.getLast? == some '\n' then cs.dropLast else cs
  isNumeral (cs.map Text.plainDigit)

/-- What an argument with a dash that names no option is: negative numbers and texts with blanks
are operands. -/
def markOther {α : Type} (afterDash : List Char) : Mark α :=
  if looksNumeric afterDash || afterDash.contains ' ' then .operand else .unknown

def mark {α : Type} (options : Options α) (argument : String) : Except Refusal (Mark α) :=
  match argument.toList with
  | ['-', '-'] => .ok .separator
  | '-' :: '-' :: rest => do
    match ← markLong options ('-' :: '-' :: rest) with
    | some mark => pure mark
    | none => pure (markOther ('-' :: rest))
  | '-' :: letter :: rest =>
    .ok ((markShort options letter rest).getD (markOther (letter :: rest)))
  | _ => .ok .operand

/-- What the arguments are. Behind the separator all are operands. -/
def markAll {α : Type} (options : Options α) :
    (separated : Bool) → List String → Except Refusal (List (String × Mark α))
  | _, [] => .ok []
  | true, argument :: rest => do
    let others ← markAll options true rest
    pure ((argument, .operand) :: others)
  | false, argument :: rest => do
    let found ← mark options argument
    let separates := match found with
      | .separator => true
      | _ => false
    let others ← markAll options separates rest
    pure ((argument, found) :: others)

/-- The effects of flags whose letters are written together, up to the first letter that is not
known, and whether there is such a letter. Flags have no values. -/
def letterEffects {α : Type} (options : Options α) :
    List Char → Except Refusal (List (Effect α) × Bool)
  | [] => .ok ([], false)
  | letter :: rest =>
    if letter == '=' || letter == '-' then .error .usage
    else
      match options.withLetter? letter with
      | none => .ok ([], true)
      | some flag => do
        let (others, excess) ← letterEffects options rest
        pure (flag.effect :: others, excess)

def applyAll {α : Type} : List (Effect α) → Effect α
  | [], settings => .ok settings
  | effect :: rest, settings => do
    let settings ← effect settings
    applyAll rest settings

structure Progress (α : Type) where
  settings : α
  /-- The option whose value comes next. -/
  awaiting : Option (Valued α) := none
  /-- The operand. -/
  operand : Option String := none
  /-- Whether the last argument was the operand. -/
  atOperand : Bool := false
  /-- What follows the operand of a command that takes all of it. -/
  rest : List String := []
  /-- Whether there was an argument too many. -/
  excess : Bool := false

def Progress.after {α : Type} (p : Progress α) (effect : Effect α) :
    Except Refusal (Progress α) := do
  let settings ← effect p.settings
  pure { p with settings, atOperand := false }

def takeOption {α : Type} (options : Options α) (p : Progress α) :
    Mark α → Except Refusal (Progress α)
  | .short flag letters => do
    let (effects, excess) ← letterEffects options letters
    let p ← p.after (applyAll (flag.effect :: effects))
    pure { p with excess := p.excess || excess }
  | .flag flag none => p.after flag.effect
  | .flag _ (some _) => .error .usage
  | .valued option (some value) => p.after (option.effect value)
  | .valued option none => .ok { p with awaiting := some option, atOperand := false }
  | _ => .ok { p with excess := true, atOperand := false }

/-- Takes an argument where one operand is expected. The separator may stand right before or after
the operand. -/
def takeSingle {α : Type} (options : Options α) (p : Progress α) (argument : String × Mark α) :
    Except Refusal (Progress α) :=
  match p.awaiting, argument with
  | some option, (value, .operand) => ({ p with awaiting := none }).after (option.effect value)
  | some _, _ => .error .usage
  | none, (text, .operand) =>
    if p.operand.isNone then .ok { p with operand := some text, atOperand := true }
    else .ok { p with excess := true, atOperand := false }
  | none, (_, .separator) =>
    if p.operand.isNone || p.atOperand then .ok { p with atOperand := false }
    else .ok { p with excess := true }
  | none, (_, option) => takeOption options p option

/-- Takes an argument where the operand takes all that follows it. The separator is no such
operand. -/
def takeLeading {α : Type} (options : Options α) (p : Progress α) (argument : String × Mark α) :
    Except Refusal (Progress α) :=
  match p.operand, p.awaiting, argument with
  | some _, _, (text, _) => .ok { p with rest := p.rest ++ [text] }
  | none, some option, (value, .operand) =>
    ({ p with awaiting := none }).after (option.effect value)
  | none, some _, _ => .error .usage
  | none, none, (text, .operand) => .ok { p with operand := some text }
  | none, none, (_, .separator) => .error .usage
  | none, none, (_, option) => takeOption options p option

def parseSingle {α : Type} (options : Options α) (settings : α) (arguments : List String) :
    Except Refusal (α × String) := do
  let marked ← markAll options false arguments
  let p ← marked.foldlM (takeSingle options) { settings }
  match p.awaiting, p.operand, p.excess with
  | none, some operand, false => pure (p.settings, operand)
  | _, _, _ => throw .usage

/-- All arguments, where the operand takes all that follows it. The flag tells whether there was an
argument too many before it. -/
def parseLeading {α : Type} (options : Options α) (settings : α) (arguments : List String) :
    Except Refusal (α × String × List String × Bool) := do
  let marked ← markAll options false arguments
  let p ← marked.foldlM (takeLeading options) { settings }
  match p.awaiting, p.operand with
  | none, some operand => pure (p.settings, operand, p.rest, p.excess)
  | _, _ => throw .usage

end Arguments

inductive Command where
  /-- Run the program in a file, which is JSON if `encoded`. -/
  | run (encoded : Bool) (format : Option OutputFormat) (quiet : Bool)
  | check
  /-- Show the tree of the program in a file, as JSON unless `asTree`. -/
  | ast (asTree : Bool)
  deriving DecidableEq, Repr, Inhabited

def Command.name : Command → String
  | run .. => "run"
  | check => "check"
  | ast _ => "ast"

structure Invocation where
  /-- The configuration file. -/
  config : Option String
  /-- How often more logging was asked for. -/
  verbosity : Nat
  command : Command
  file : String
  deriving DecidableEq, Repr, Inhabited

namespace Invocation

open Arguments

def helpFlag {α : Type} : Flag α := ⟨some 'h', "--help", fun _ => .error .help⟩

def globalOptions : Options (Option String × Nat) :=
  { flags := [helpFlag, ⟨some 'v', "--verbose", fun (config, count) => .ok (config, count + 1)⟩]
    valued := [⟨"--config", fun path (_, count) => .ok (some path, count)⟩] }

/-- The options of `run`: encoded, format, quiet. -/
def runOptions : Options (Bool × Option OutputFormat × Bool) :=
  { flags :=
      [helpFlag,
        ⟨none, "--ast", fun (_, format, quiet) => .ok (true, format, quiet)⟩,
        ⟨some 'q', "--quiet", fun (encoded, format, _) => .ok (encoded, format, true)⟩]
    valued :=
      [⟨"--format", fun name (encoded, _, quiet) =>
        match OutputFormat.ofName? name with
        | some format => .ok (encoded, some format, quiet)
        | none => .error .usage⟩] }

def checkOptions : Options Unit := { flags := [helpFlag], valued := [] }

/-- The options of `ast`: whether a tree is shown. -/
def astOptions : Options Bool :=
  { flags := [helpFlag, ⟨none, "--tree", fun _ => .ok true⟩], valued := [] }

/-- The command and the file that a word and the arguments behind it ask for. -/
def commandOf (word : String) (arguments : List String) : Except Refusal (Command × String) :=
  match word with
  | "run" => do
    let ((encoded, format, quiet), file) ← parseSingle runOptions (false, none, false) arguments
    pure (.run encoded format quiet, file)
  | "check" => do
    let ((), file) ← parseSingle checkOptions () arguments
    pure (.check, file)
  | "ast" => do
    let (asTree, file) ← parseSingle astOptions false arguments
    pure (.ast asTree, file)
  | _ => .error .usage

/-- What arguments ask for. An empty name of a configuration file is none. -/
def ofArguments (arguments : List String) : Except Refusal Invocation := do
  let ((config, verbosity), word, rest, excess) ← parseLeading globalOptions (none, 0) arguments
  let (command, file) ← commandOf word rest
  if excess then throw .usage
  pure { config := config.filter (!·.isEmpty), verbosity, command, file }

end Invocation

end Treewalk
