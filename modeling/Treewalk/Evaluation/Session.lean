import Treewalk.Evaluation.Run

/-! # Sessions

A session evaluates piece by piece: it makes frames and contexts, and runs expressions and
statements in them. Frames and contexts are numbered in the order in which the session makes them;
frames that evaluation makes for itself have no number.
-/

namespace Treewalk

structure Activity where
  context : Context
  /-- The frames to go back to, the latest first. -/
  outer : List FrameId := []
  deriving Inhabited

structure Session where
  store : Store := {}
  frames : List FrameId := []
  activities : List Activity := []
  /-- How many values all contexts have printed. -/
  sent : Nat := 0
  trace : Array Event := #[]
  deriving Inhabited

/-- Evaluates an expression within the standard limits. -/
def Expr.evaluate (e : Expr) : Eval Value := eval Limits.standard.iterations Limits.standard.depth e

/-- Binds a name in the current frame, whether it is bound already or not. -/
def Eval.define (name : Name) (value : Value) : Eval Unit := do
  let _ ← keyOf name
  let frame := (← get).context.frame
  onStore (·.set frame name value)

def Eval.find? (name : Name) : Eval (Option Value) := do
  let key ← keyOf name
  let s ← get
  pure (s.store.get? s.context.frame key)

namespace Session

def empty : Session := {}

def numberOf (s : Session) (id : FrameId) : Nat := s.frames.idxOf id

def frame? (s : Session) (number : Nat) : Option FrameId := s.frames[number]?

def addFrame (s : Session) (frame : Frame) : FrameId × Session :=
  let (id, store) := s.store.addFrame frame
  (id, { s with store, frames := s.frames ++ [id] })

def newFrame (s : Session) (parent : Option FrameId) (name : Option String) : FrameId × Session :=
  let usual := if parent.isSome then "block" else "anonymous"
  s.addFrame { name := name.getD usual, parent }

/-- Makes a closure with an empty body over a root frame of its own. -/
def newClosure (s : Session) (parameters : List Name) (name : Option Name) : Value × Session :=
  let (frame, store) := s.store.addFrame { name := "anonymous" }
  let (id, store) := store.addClosure { parameters, body := [], frame, name }
  (.function id, { s with store })

def newContext (s : Session) (frame : Option FrameId) : Nat × Session :=
  let (frame, s) := match frame with
    | some frame => (frame, s)
    | none => s.addFrame { name := "global" }
  (s.activities.length, { s with activities := s.activities ++ [{ context := { frame } }] })

/-- Runs an action in a context that is not part of the session. -/
def perform {α : Type} (s : Session) (context : Context) (action : Eval α) :
    Except Failure α × Context × Session :=
  match action { store := s.store, context, trace := s.trace } with
  | .ok a t => (.ok a, t.context, { s with store := t.store, trace := t.trace })
  | .error e t => (.error e, t.context, { s with store := t.store, trace := t.trace })

def evaluate (s : Session) (frame : FrameId) (e : Expr) : Except Failure Value × Session :=
  let (result, _, s) := s.perform { frame } e.evaluate
  (result, s)

/-- Executes statements in a frame, each in a context of its own, up to the first failure. Yields
what they print. -/
def execute (s : Session) (frame : FrameId) :
    List Stmt → List Value × Option Failure × Session
  | [] => ([], none, s)
  | stmt :: rest =>
    let (result, context, s) := s.perform { frame } (execAll Limits.standard [stmt])
    match result with
    | .error failure => (context.printed.toList, some failure, s)
    | .ok () =>
      let (printed, failure, s) := s.execute frame rest
      (context.printed.toList ++ printed, failure, s)

def setActivity (s : Session) (number : Nat) (activity : Activity) : Session :=
  { s with activities := s.activities.set number activity }

def act {α : Type} (s : Session) (number : Nat) (activity : Activity) (action : Eval α) :
    Except Failure α × Session :=
  let (result, context, s) := s.perform activity.context action
  let sent := s.sent + (context.printed.size - activity.context.printed.size)
  (result, { s.setActivity number { activity with context } with sent })

def enter (s : Session) (number : Nat) (activity : Activity) (frame : FrameId) : Session :=
  let outer := activity.context.frame :: activity.outer
  let s := s.setActivity number { context := { activity.context with frame }, outer }
  { s with trace := s.trace.push (.entered frame) }

/-- Makes a fresh child of the current frame the current one. -/
def push (s : Session) (number : Nat) (activity : Activity) (name : Option String) :
    FrameId × Session :=
  let (frame, s) := s.newFrame (some activity.context.frame) name
  (frame, s.enter number activity frame)

/-- Goes back from the frame entered last, if there is one. -/
def leave? (s : Session) (number : Nat) (activity : Activity) : Option Session :=
  match activity.outer with
  | [] => none
  | frame :: outer =>
    some (s.setActivity number { context := { activity.context with frame }, outer })

end Session

end Treewalk
