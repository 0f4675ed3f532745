import Treewalk.Files
import Treewalk.Log
import Treewalk.Program.Node
import Treewalk.Report
import Treewalk.Yaml.Reader

/-! # Configuration

Settings come from the first of these files that exists: the one that is asked for, the one that the
environment names, the one in the home directory. What is not set has a default.
-/

namespace Treewalk

structure Config where
  logLevel : Log.Severity := .warning
  outputFormat : OutputFormat := .text
  echoPrints : Bool := true
  deriving DecidableEq, Repr, Inhabited

/-- What stands in a configuration, as a key or as a setting. Besides texts and truth values there
may be anything else, which is known by its literal only. -/
inductive Given where
  | text (value : String)
  | bool (value : Bool)
  | other (literal : String)
  deriving DecidableEq, Repr, Inhabited

namespace Given

/-- The literal that stands for what is given in messages. -/
def literal : Given → String
  | text s => Text.quoted s
  | bool b => if b then "True" else "False"
  | other literal => literal

def ofDatum : Datum → Given
  | .text s => text s
  | .bool b => bool b
  | d => other d.literal

def allTexts : List Given → Option (List String)
  | [] => some []
  | text s :: rest => (allTexts rest).map (s :: ·)
  | _ :: _ => none

end Given

inductive ConfigError where
  | unknownKeys (source : String) (keys : List String)
  | invalidLevel (source : String) (given : Given)
  | invalidFormat (source : String) (given : Given)
  | invalidEcho (source : String)
  | invalidYaml (path : String)
  | notAMapping (path : String)
  deriving Inhabited

inductive ConfigFailure where
  | invalid (error : ConfigError)
  /-- The file that was asked for is not there. -/
  | notFound (path : String)
  /-- A path starts at the home directory of an unknown user. -/
  | unknownHome
  /-- Settings are looked for in what has no keys, or a key is no text. -/
  | unkeyed
  /-- The file is not in UTF-8. -/
  | undecodable
  deriving Inhabited

namespace Config

/-- The environment variable that names a configuration file. -/
def variableName : String := "TREELANG_CONFIG"

/-- How messages name settings that come from no file. -/
def unnamed : String := "<dict>"

def keys : List String := ["log_level", "output_format", "echo_prints"]

def levels : List Log.Severity := [.debug, .info, .warning, .error, .critical]

end Config

def ConfigError.message : ConfigError → String
  | unknownKeys source keys =>
    "Unknown config key(s) in " ++ source ++ ": " ++ ", ".intercalate keys
  | invalidLevel source given =>
    "Invalid log_level " ++ given.literal ++ " in " ++ source ++ ". Expected one of "
      ++ ", ".intercalate (Config.levels.map (·.name))
  | invalidFormat source given =>
    "Invalid output_format " ++ given.literal ++ " in " ++ source ++ ". Expected one of "
      ++ ", ".intercalate (OutputFormat.all.map (·.name))
  | invalidEcho source => "echo_prints must be true or false in " ++ source
  | invalidYaml path => "Invalid YAML in " ++ path
  | notAMapping path => "Invalid config format in " ++ path ++ ": expected mapping at root"

namespace Config

def notFoundMessage (path : String) : String := "Config file not found: " ++ path

/-- The level that a setting stands for, whatever the case of its letters. -/
def levelOf? : Given → Option Log.Severity
  | .text s => levels.find? (·.name == Log.upper s)
  | _ => none

def formatOf? : Given → Option OutputFormat
  | .text s => OutputFormat.ofName? s
  | _ => none

def echoOf? : Given → Option Bool
  | .bool b => some b
  | _ => none

def given? (entries : List (Given × Given)) (key : String) : Option Given :=
  (entries.find? (·.1 == .text key)).map (·.2)

/-- The value of a setting: its default if it is missing, an error if it stands for nothing. -/
def setting {α : Type} (entries : List (Given × Given)) (key : String) (default : α)
    (read? : Given → Option α) (error : Given → ConfigError) : Except ConfigFailure α :=
  match given? entries key with
  | none => .ok default
  | some given =>
    match read? given with
    | some value => .ok value
    | none => .error (.invalid (error given))

def ofSettings (source : String) (entries : List (Given × Given)) :
    Except ConfigFailure Config := do
  let logLevel ← setting entries "log_level" .warning levelOf? (.invalidLevel source)
  let outputFormat ← setting entries "output_format" .text formatOf? (.invalidFormat source)
  let echoPrints ← setting entries "echo_prints" true echoOf? fun _ => .invalidEcho source
  pure { logLevel, outputFormat, echoPrints }

/-- Refuses keys that are not known. They are reported each once and in order, which takes keys that
are texts. -/
def checkKeys (source : String) (given : List Given) : Except ConfigFailure Unit :=
  match Given.allTexts given with
  | none => .error .unkeyed
  | some names =>
    let unknown := (names.filter fun name => !keys.contains name).eraseDups
    if unknown.isEmpty then .ok ()
    else .error (.invalid (.unknownKeys source (unknown.mergeSort fun a b => !(b < a))))

/-- The configuration that entries stand for; `source` is what messages call them. -/
def ofEntries (source : String) (entries : List (Given × Given)) :
    Except ConfigFailure Config := do
  checkKeys source (entries.map (·.1))
  ofSettings source entries

/-- The configuration that a datum stands for. In what is no dictionary only keys are looked for. -/
def ofDatum (source : String) : Datum → Except ConfigFailure Config
  | .dict entries =>
    ofEntries source (entries.map fun (key, value) => (.ofDatum key, .ofDatum value))
  | d => do
    let items ← (Node.itemsOf? d).elim (.error .unkeyed) .ok
    checkKeys source (items.map .ofDatum)
    .error .unkeyed

/-- The configuration in the text of a file. An empty document sets nothing. -/
def ofYaml (path text : String) : Except ConfigFailure Config :=
  match Yaml.read? text with
  | none => .error (.invalid (.invalidYaml path))
  | some .null => .ok {}
  | some (.dict entries) => ofDatum path (.dict entries)
  | some _ => .error (.invalid (.notAMapping path))

structure Environment where
  files : Files
  home : Path
  /-- The value of the environment variable. -/
  named : Option String

def userFile (home : Path) : Path := home.below [".config", "treelang", "config.yaml"]

/-- The file to load when none is asked for, with what the log says about the search. -/
def findDefault (env : Environment) : Except ConfigFailure (Option Path) × List Log.Record :=
  let user := userFile env.home
  let fallback := if env.files.isFile user then some user else none
  match env.named with
  | none => (.ok fallback, [])
  | some "" => (.ok fallback, [])
  | some text =>
    match (Path.ofText text).expandHome? env.home with
    | none => (.error .unknownHome, [])
    | some path =>
      if env.files.isFile path then (.ok (some path), [])
      else
        (.ok fallback, [⟨.config, .debug,
          variableName ++ " points at missing file " ++ path.text ++ ", ignoring"⟩])

/-- The file to load, with what the log says about the search. -/
def find (env : Environment) : (asked : Option String) →
    Except ConfigFailure (Option Path) × List Log.Record
  | none => findDefault env
  | some text =>
    match (Path.ofText text).expandHome? env.home with
    | none => (.error .unknownHome, [])
    | some path =>
      if env.files.isFile path then (.ok (some path), [])
      else (.error (.notFound path.text), [])

def ofFile (files : Files) (path : Path) : Except ConfigFailure Config :=
  match files.lookup? path with
  | some (.file content) =>
    match decodeText? content with
    | some text => ofYaml path.text text
    | none => .error .undecodable
  | _ => .error (.notFound path.text)

/-- Loads the configuration, with what the log says about it. -/
def load (env : Environment) (asked : Option String) :
    Except ConfigFailure Config × List Log.Record :=
  match find env asked with
  | (.error failure, records) => (.error failure, records)
  | (.ok none, records) => (.ok {}, records)
  | (.ok (some path), records) =>
    (ofFile env.files path,
      records ++ [⟨.config, .debug, "loading config from " ++ path.text⟩])

end Config

end Treewalk
