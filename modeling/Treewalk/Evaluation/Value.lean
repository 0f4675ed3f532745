import Treewalk.Program.Basic

/-! # Values, frames and closures

A value is a number, a truth value or a reference to a closure. Frames bind names to values and form
chains through their parents; a closure remembers the frame it was made in. Both live in a store and
are only ever added to it.
-/

namespace Treewalk

abbrev FrameId := Nat

abbrev ClosureId := Nat

inductive Value where
  | number (value : Float)
  | boolean (value : Bool)
  | function (closure : ClosureId)
  deriving Repr, Inhabited

namespace Value

inductive Kind where
  | number | boolean | function
  deriving DecidableEq, Repr, Inhabited

def Kind.text : Kind → String
  | number => "number"
  | boolean => "boolean"
  | function => "function"

def kind : Value → Kind
  | number _ => .number
  | boolean _ => .boolean
  | function _ => .function

/-- Equality of kind and value. A closure is equal to itself only, and NaN not even to itself. -/
def strictEquals : Value → Value → Bool
  | number a, number b => a == b
  | boolean a, boolean b => a == b
  | function a, function b => a == b
  | _, _ => false

inductive WrapError where
  /-- Data of this type are no values. -/
  | unfit (typeName : String)
  /-- An integer beyond the finite numbers. -/
  | outOfRange
  deriving Repr, Inhabited

def ofDatum : Datum → Except WrapError Value
  | .bool b => .ok (.boolean b)
  | .int n =>
    match Number.ofInt? n with
    | some x => .ok (.number x)
    | none => .error .outOfRange
  | .float x => .ok (.number x)
  | d => .error (.unfit d.typeName)

def unfitMessage (typeName : String) : String :=
  "cannot wrap " ++ typeName ++ " as a treelang value"

end Value

/-- One scope: its bindings in the order of their first declaration. -/
structure Frame where
  name : String
  parent : Option FrameId := none
  bindings : List (Name × Value) := []
  deriving Inhabited

namespace Frame

def get? (frame : Frame) (key : Key) : Option Value :=
  (frame.bindings.find? (·.1.key? == some key)).map (·.2)

def binds (frame : Frame) (key : Key) : Bool := (frame.get? key).isSome

/-- Replaces the value of a bound name, which keeps its place, or adds the name at the end. -/
def setBinding (name : Name) (value : Value) : List (Name × Value) → List (Name × Value)
  | [] => [(name, value)]
  | entry :: rest =>
    if entry.1.key? == name.key? then (entry.1, value) :: rest
    else entry :: setBinding name value rest

def set (frame : Frame) (name : Name) (value : Value) : Frame :=
  { frame with bindings := setBinding name value frame.bindings }

end Frame

/-- A function made at run time. It has no name until a declaration gives it one. -/
structure Closure where
  parameters : List Name
  body : List Stmt
  frame : FrameId
  name : Option Name := none
  deriving Inhabited

/-- All frames and closures of a run, in the order of their creation. -/
structure Store where
  frames : Array Frame := #[]
  closures : Array Closure := #[]
  deriving Inhabited

namespace Store

/-- A frame followed by its ancestors, at most `count` of them in all. -/
def chainUpTo (store : Store) : (count : Nat) → FrameId → List FrameId
  | 0, _ => []
  | count + 1, id =>
    id :: match store.frames[id]?.bind (·.parent) with
      | some parent => store.chainUpTo count parent
      | none => []

/-- A frame followed by its ancestors. A parent is older than its child, so a frame has no more
ancestors than there are older frames. -/
def chain (store : Store) (id : FrameId) : List FrameId := store.chainUpTo (id + 1) id

def depth (store : Store) (id : FrameId) : Nat := (store.chain id).length - 1

def hasLocal (store : Store) (id : FrameId) (key : Key) : Bool :=
  match store.frames[id]? with
  | some frame => frame.binds key
  | none => false

/-- The innermost frame of a chain that binds a key. -/
def find? (store : Store) (id : FrameId) (key : Key) : Option FrameId :=
  (store.chain id).find? (store.hasLocal · key)

/-- The value of a key in the innermost frame that binds it. -/
def get? (store : Store) (id : FrameId) (key : Key) : Option Value := do
  let owner ← store.find? id key
  let frame ← store.frames[owner]?
  frame.get? key

def set (store : Store) (id : FrameId) (name : Name) (value : Value) : Store :=
  { store with frames := store.frames.modify id (·.set name value) }

def bindings (store : Store) (id : FrameId) : List (Name × Value) :=
  match store.frames[id]? with
  | some frame => frame.bindings
  | none => []

def addFrame (store : Store) (frame : Frame) : FrameId × Store :=
  (store.frames.size, { store with frames := store.frames.push frame })

def addClosure (store : Store) (closure : Closure) : ClosureId × Store :=
  (store.closures.size, { store with closures := store.closures.push closure })

/-- Names a closure that has no name yet. An absent name is none. -/
def nameClosure (store : Store) (id : ClosureId) (name : Name) : Store :=
  let given : Option Name := match name with
    | .null => none
    | name => some name
  { store with
    closures := store.closures.modify id fun c =>
      if c.name.isNone then { c with name := given } else c }

/-- Names the closure that a value refers to, if it refers to one. -/
def nameValue (store : Store) (name : Name) : Value → Store
  | .function id => store.nameClosure id name
  | _ => store

end Store

namespace Value

/-- The texts among some names, unless there is another datum among them. -/
def allTexts : List Name → Option (List String)
  | [] => some []
  | .text s :: rest => (allTexts rest).map (s :: ·)
  | _ :: _ => none

/-- The text that programs print for a value. A function whose parameters are not all texts has
none. -/
def text? (store : Store) : Value → Option String
  | number x => some (Number.plainText x)
  | boolean b => some (if b then "true" else "false")
  | function id =>
    let parameters := (store.closures[id]?.map (·.parameters)).getD []
    (allTexts parameters).map fun names => "<function(" ++ ", ".intercalate names ++ ")>"

/-- A value as a datum: finite numbers stay numbers, integral ones become integers, and what data
cannot hold becomes its text. -/
def datum? (store : Store) : Value → Option Datum
  | boolean b => some (.bool b)
  | number x =>
    if x.isFinite then
      match Number.toInt? x with
      | some n => some (.int n)
      | none => some (.float x)
    else some (.text (Number.plainText x))
  | v@(function _) => (v.text? store).map .text

def innerLiteral (store : Store) : Value → String
  | number x => Number.fullText x
  | boolean b => if b then "True" else "False"
  | function id =>
    match store.closures[id]? with
    | some c =>
      "Closure(parameters=" ++ (Datum.list c.parameters).literal ++ ", name="
        ++ (c.name.getD .null).literal ++ ")"
    | none => "Closure()"

def literal (store : Store) (v : Value) : String :=
  "Value(" ++ v.innerLiteral store ++ ", " ++ v.kind.text ++ ")"

end Value

end Treewalk
