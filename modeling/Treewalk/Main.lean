import Treewalk.CommandLine.Basic

/-! # The executable

Reads the files that a command may look at and writes what the command line answers.
-/

namespace Treewalk.Executable

/-- What can be read from an open path: a directory has no content. -/
def readEntry (handle : IO.FS.Handle) : IO Entry := do
  try
    return .file (← handle.readBinToEnd)
  catch _ => return .directory

def probe (path : Path) : IO (Option Entry) := do
  try
    let handle ← IO.FS.Handle.mk path.text .read
    return some (← readEntry handle)
  catch _ => return none

def snapshot : List Path → IO Files
  | [] => pure []
  | path :: rest => do
    let files ← snapshot rest
    match ← probe path with
    | some entry => pure ((path, entry) :: files)
    | none => pure files

/-- The paths that a command may look at. -/
def pathsOf (home : Path) (named : Option String) (arguments : List String) : List Path :=
  let expanded (text : String) : List Path := ((Path.ofText text).expandHome? home).toList
  let asked := match Invocation.ofArguments arguments with
    | .ok invocation => Path.ofText invocation.file :: (invocation.config.toList.flatMap expanded)
    | .error _ => []
  Config.userFile home :: named.toList.flatMap expanded ++ asked

def usage : String :=
  "usage: treelang [-h] [--config PATH] [-v] run FILE [--ast] [--format text|json|yaml] [-q]\n" ++
  "       treelang [-h] [--config PATH] [-v] check FILE\n" ++
  "       treelang [-h] [--config PATH] [-v] ast FILE [--tree]"

def present (outcome : CommandLine.Outcome) : IO UInt32 := do
  for line in outcome.output do
    IO.println line
  for line in outcome.errors do
    IO.eprintln line
  match outcome.ending with
  | .exit code => pure code.toUInt32
  | .fault _ =>
    IO.eprintln "the command broke off"
    pure 1

end Treewalk.Executable

open Treewalk Treewalk.Executable in
def main (arguments : List String) : IO UInt32 := do
  let home := Path.ofText ((← IO.getEnv "HOME").getD "")
  let named ← IO.getEnv Config.variableName
  let files ← snapshot (pathsOf home named arguments)
  match CommandLine.run { files, home, named } arguments with
  | .ok outcome => present outcome
  | .error .help =>
    IO.println usage
    pure 0
  | .error .usage =>
    IO.eprintln usage
    pure 2
