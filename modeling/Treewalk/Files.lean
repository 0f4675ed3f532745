import Treewalk.Text.Lines

/-! # Paths and files

Files are looked up in a snapshot, so that what a command does is a function of its arguments and
of the snapshot.
-/

namespace Treewalk

/-- A path without empty components and without single dots. -/
structure Path where
  absolute : Bool
  components : List String
  deriving DecidableEq, Repr, Inhabited

namespace Path

def ofText (text : String) : Path :=
  { absolute := text.startsWith "/"
    components := (text.splitOn "/").filter fun part => part != "" && part != "." }

/-- The text of a path; the path without components is the current directory. -/
def text (p : Path) : String :=
  if p.absolute then "/" ++ "/".intercalate p.components
  else if p.components.isEmpty then "."
  else "/".intercalate p.components

def fileName (p : Path) : String := p.components.getLast?.getD ""

def below (p : Path) (parts : List String) : Path := { p with components := p.components ++ parts }

/-- Puts the home directory in the place of a leading tilde. The home directories of other users
are not known. -/
def expandHome? (p home : Path) : Option Path :=
  match p.absolute, p.components with
  | false, "~" :: rest => some (home.below rest)
  | false, first :: _ => if first.startsWith "~" then none else some p
  | _, _ => some p

end Path

inductive Entry where
  | file (content : ByteArray)
  | directory
  deriving Inhabited

/-- A snapshot of files. The directories that hold its files need not be listed. -/
abbrev Files := List (Path × Entry)

namespace Files

def listed? (files : Files) (path : Path) : Option Entry :=
  (files.find? (·.1 == path)).map (·.2)

def hasBelow (files : Files) (path : Path) : Bool :=
  files.any fun (other, _) =>
    other.absolute == path.absolute && path.components.isPrefixOf other.components

/-- What a path without double dots leads to. -/
def entryAt? (files : Files) (path : Path) : Option Entry :=
  match files.listed? path with
  | some entry => some entry
  | none =>
    if path.components.isEmpty || files.hasBelow path then some .directory else none

/-- Goes on from a directory, a double dot leading back to the directory above. What lies above the
current directory is not known but for its being a directory. -/
def follow? (files : Files) (start : Path) : List String → Option Entry
  | [] => files.entryAt? start
  | part :: rest =>
    match files.entryAt? start with
    | some .directory =>
      if part != ".." then follow? files (start.below [part]) rest
      else if start.absolute || !start.components.isEmpty then
        follow? files { start with components := start.components.dropLast } rest
      else if rest.all (· == "..") then some .directory
      else none
    | _ => none

def lookup? (files : Files) (path : Path) : Option Entry :=
  match files.listed? path with
  | some entry => some entry
  | none => files.follow? { path with components := [] } path.components

def isFile (files : Files) (path : Path) : Bool :=
  match files.lookup? path with
  | some (.file _) => true
  | _ => false

end Files

/-- The text that bytes stand for in UTF-8, with every line break made a line feed. -/
def decodeText? (content : ByteArray) : Option String :=
  (String.fromUTF8? content).map fun text => String.ofList (Text.unifyBreaks text.toList)

end Treewalk
