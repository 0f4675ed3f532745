import Treewalk.Number.Written
import Treewalk.Text.Quoted

/-! # Data

A datum is what a JSON text or a configuration file holds: nothing, a truth value, a number, a text,
a list or a dictionary. Dictionaries keep the order in which their keys were first written. A datum
is also what a name of a program is, see `Name`.
-/

namespace Treewalk

inductive Datum where
  | null
  | bool (value : Bool)
  | int (value : Int)
  | float (value : Float)
  | text (value : String)
  | list (items : List Datum)
  | dict (entries : List (Datum × Datum))
  deriving Inhabited

instance : Coe String Datum := ⟨.text⟩

namespace Datum

def typeName : Datum → String
  | null => "NoneType"
  | bool _ => "bool"
  | int _ => "int"
  | float _ => "float"
  | text _ => "str"
  | list _ => "list"
  | dict _ => "dict"

/-- Everything is true but nothing, `false`, zero and what is empty. -/
def truthy : Datum → Bool
  | null => false
  | bool b => b
  | int n => n != 0
  | float x => x != 0
  | text s => !s.isEmpty
  | list items => !items.isEmpty
  | dict entries => !entries.isEmpty

mutual

/-- The literal that stands for a datum in messages and tree dumps. -/
def literal : Datum → String
  | null => "None"
  | bool b => if b then "True" else "False"
  | int n => Number.intText n
  | float x => Number.fullText x
  | text s => Text.quoted s
  | list items => "[" ++ ", ".intercalate (literals items) ++ "]"
  | dict entries => "\x7b" ++ ", ".intercalate (entryLiterals entries) ++ "\x7d"

def literals : List Datum → List String
  | [] => []
  | d :: rest => literal d :: literals rest

/-- The literals of dictionary entries, `key: value`. -/
def entryLiterals : List (Datum × Datum) → List String
  | [] => []
  | (key, value) :: rest => (literal key ++ ": " ++ literal value) :: entryLiterals rest

end

/-- A datum inside a sentence: a text as it is, anything else by its literal. -/
def plain : Datum → String
  | text s => s
  | d => d.literal

def get? (key : String) : Datum → Option Datum
  | dict entries =>
    (entries.find? fun entry => match entry.1 with
      | text k => k == key
      | _ => false).map (·.2)
  | _ => none

/-- Numeric equality, a truth value counting as zero or one. -/
def sameNumber : Datum → Datum → Bool
  | int a, int b => a == b
  | int a, bool b => a == (b.toNat : Int)
  | int a, float b => Number.toInt? b == some a
  | float a, float b => a == b
  | float a, int b => Number.toInt? a == some b
  | float a, bool b => Number.toInt? a == some (b.toNat : Int)
  | _, _ => false

mutual

/-- Equality of data: numbers and truth values by their numeric value, lists item by item,
dictionaries without regard to order. -/
def same : Datum → Datum → Bool
  | null, null => true
  | text a, text b => a == b
  | list a, list b => sameItems a b
  | dict a, dict b => a.length == b.length && sameEntries a b
  | bool a, d => sameNumber (.int a.toNat) d
  | int a, d => sameNumber (.int a) d
  | float a, d => sameNumber (.float a) d
  | _, _ => false

def sameItems : List Datum → List Datum → Bool
  | [], [] => true
  | a :: as, b :: bs => same a b && sameItems as bs
  | _, _ => false

/-- Whether each entry has an equal one among the others. -/
def sameEntries : List (Datum × Datum) → List (Datum × Datum) → Bool
  | [], _ => true
  | (key, value) :: rest, others =>
    others.any (fun other => same key other.1 && same value other.2) && sameEntries rest others

end

end Datum

/-- What a name is looked up by. Numbers that are equal give the same key. -/
inductive Key where
  | null
  | text (value : String)
  | int (value : Int)
  | bits (value : UInt64)
  deriving DecidableEq, Repr, Inhabited

/-- The key of a datum. Lists and dictionaries cannot be looked up. -/
def Datum.key? : Datum → Option Key
  | .null => some .null
  | .bool b => some (.int b.toNat)
  | .int n => some (.int n)
  | .float x =>
    match Number.toInt? x with
    | some n => some (.int n)
    | none => some (.bits x.toBits)
  | .text s => some (.text s)
  | .list _ => none
  | .dict _ => none

/-- A name as a program holds it. Program text has identifiers; a program read from data may hold
any datum in the place of a name. -/
abbrev Name := Datum

end Treewalk
