import Treewalk.Evaluation.Run
import Treewalk.Json.Writer
import Treewalk.Yaml.Writer

/-! # Reports on the final bindings -/

namespace Treewalk

inductive OutputFormat where
  | text | json | yaml
  deriving DecidableEq, Repr, Inhabited

namespace OutputFormat

def name : OutputFormat → String
  | text => "text"
  | json => "json"
  | yaml => "yaml"

def all : List OutputFormat := [text, json, yaml]

def ofName? (name : String) : Option OutputFormat := all.find? (·.name == name)

end OutputFormat

namespace Report

def textOf? (store : Store) (bindings : List (Name × Value)) : Option String := do
  let lines ← bindings.mapM fun (name, value) =>
    (value.text? store).map fun text => name.plain ++ " = " ++ text
  some ("\n".intercalate lines)

def entriesOf? (store : Store) (bindings : List (Name × Value)) : Option (List (Datum × Datum)) :=
  bindings.mapM fun (name, value) => (value.datum? store).map fun d => (name, d)

/-- The bindings in a format, or nothing if one of the values has no text. -/
def render? (store : Store) (format : OutputFormat) (bindings : List (Name × Value)) :
    Option String :=
  match format with
  | .text => textOf? store bindings
  | .json => (entriesOf? store bindings).map fun entries => Json.write (some 2) (.dict entries)
  | .yaml => (entriesOf? store bindings).map Yaml.write

end Report

end Treewalk
