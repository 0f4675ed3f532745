import Treewalk.Evaluation.Error

/-! # The state of an evaluation

Next to the store there is the context: the current frame, the number of active calls, a return that
is under way, and what was printed. What printed values look like is kept as it is shown, and a
trace of events is kept for the log.
-/

namespace Treewalk

structure Context where
  frame : FrameId
  callDepth : Nat := 0
  /-- The value of a return that has not reached its call yet. -/
  pending : Option Value := none
  printed : Array Value := #[]
  deriving Inhabited

/-- What the log can tell about a run. -/
inductive Event where
  | entered (frame : FrameId)
  | declared (name : Name) (value : Value)
  | printing (value : Value)
  | called (callee : Name) (arguments : List Value)
  | aborted (message : String)
  | finished (statements bindings printed : Nat)
  deriving Inhabited

structure State where
  store : Store
  context : Context
  trace : Array Event := #[]
  /-- The texts of the printed values, each as it was when the value was printed. -/
  echoed : Array (Option String) := #[]
  deriving Inhabited

/-- A step of an evaluation: it changes the state, and yields a result or fails. A failure keeps the
changes made before it. -/
abbrev Eval (α : Type) := EStateM Failure State α

namespace Eval

def fail {α : Type} (e : RuntimeError) : Eval α := throw (.error e)

def ofExcept {α : Type} : Except RuntimeError α → Eval α
  | .ok a => pure a
  | .error e => fail e

def onStore (f : Store → Store) : Eval Unit := modify fun s => { s with store := f s.store }

def onContext (f : Context → Context) : Eval Unit :=
  modify fun s => { s with context := f s.context }

def record (event : Event) : Eval Unit := modify fun s => { s with trace := s.trace.push event }

/-- The key of a name; a list or dictionary has none. -/
def keyOf (name : Name) : Eval Key :=
  match name.key? with
  | some key => pure key
  | none => throw (.malformed .notAKey)

/-- The value of a name, looked up from the current frame outwards. -/
def lookup (name : Name) : Eval Value := do
  let key ← keyOf name
  let s ← get
  match s.store.get? s.context.frame key with
  | some value => pure value
  | none => fail (.undefinedVariable name)

def newFrame (name : String) (parent : FrameId) : Eval FrameId := modifyGet fun s =>
  let (id, store) := s.store.addFrame { name, parent := some parent }
  (id, { s with store })

def newClosure (parameters : List Name) (body : List Stmt) : Eval Value := modifyGet fun s =>
  let (id, store) := s.store.addClosure { parameters, body, frame := s.context.frame }
  (.function id, { s with store })

/-- Runs an action in another frame, inside of so many more calls. Afterwards, also after a failure,
the frame is what it was, and these calls are taken off the count again. -/
def within {α : Type} (frame : FrameId) (calls : Nat) (action : Eval α) : Eval α := fun s =>
  let enter (c : Context) : Context := { c with frame, callDepth := c.callDepth + calls }
  let leave (c : Context) : Context :=
    { c with frame := s.context.frame, callDepth := c.callDepth - calls }
  match action { s with context := enter s.context, trace := s.trace.push (.entered frame) } with
  | .ok a t => .ok a { t with context := leave t.context }
  | .error e t => .error e { t with context := leave t.context }

/-- Runs an action in a fresh child of the current frame. -/
def inChild {α : Type} (name : String) (action : Eval α) : Eval α := do
  let frame ← newFrame name (← get).context.frame
  within frame 0 action

/-- Prints a value, whose text is shown at once. -/
def emit (value : Value) : Eval Unit := modify fun s =>
  { s with
    context := { s.context with printed := s.context.printed.push value }
    echoed := s.echoed.push (value.text? s.store) }

def signal (value : Value) : Eval Unit := onContext fun c => { c with pending := some value }

/-- Ends a return, if one is under way, and yields its value. -/
def takePending : Eval (Option Value) := modifyGet fun s =>
  (s.context.pending, { s with context := { s.context with pending := none } })

def isReturning : Eval Bool := return (← get).context.pending.isSome

def unlessReturning (action : Eval Unit) : Eval Unit := do
  if ← isReturning then pure () else action

end Eval

end Treewalk
