import Treewalk.Program.Node

/-! # The tree dump

A tree is shown with a line for each label and each field, indented by two blanks for every level.
-/

namespace Treewalk.Node

def line (level : Nat) (text : String) : String := Number.copies (2 * level) ' ' ++ text

mutual

def dumpFields (level : Nat) : List String → List Node → List String
  | name :: names, field :: fields => dumpField level name field ++ dumpFields level names fields
  | _, _ => []

def dumpField (level : Nat) (name : String) : Node → List String
  | node label fields =>
    line level ("  " ++ name ++ ":") ::
      line (level + 2) label.name :: dumpFields (level + 2) label.fieldNames fields
  | list items =>
    line level ("  " ++ name ++ ": [") :: dumpItems level items ++ [line level "  ]"]
  | datum (.list items) =>
    line level ("  " ++ name ++ ": [") ::
      items.map (fun d => line level ("    " ++ d.literal)) ++ [line level "  ]"]
  | other => [line level ("  " ++ name ++ ": " ++ other.literal)]

def dumpItems (level : Nat) : List Node → List String
  | [] => []
  | node label fields :: rest =>
    line (level + 2) label.name :: dumpFields (level + 2) label.fieldNames fields
      ++ dumpItems level rest
  | item :: rest => line level ("    " ++ item.literal) :: dumpItems level rest

end

/-- The lines for a tree. Only a labelled node can be shown on its own. -/
def dump? : Node → Option (List String)
  | node label fields => some (line 0 label.name :: dumpFields 0 label.fieldNames fields)
  | _ => none

def dumpAll? : List Node → Option (List String)
  | [] => some []
  | n :: rest => do
    let first ← dump? n
    let others ← dumpAll? rest
    some (first ++ others)

end Treewalk.Node

namespace Treewalk

def Program.dump (program : Program) : List String :=
  program.flatMap fun stmt => ((Node.ofStmt stmt).dump?).getD []

end Treewalk
