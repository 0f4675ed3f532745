import Mathlib.Data.List.Forall2
import Treewalk.Proofs.Evaluation.Equations

/-! # States that pass for each other

Two evaluations can run side by side without their states being the same. Their programs may differ
in spans and in numbers that pass for each other, and their stores may differ in what neither of
them can get at: frames that are out of sight, and closures over such frames. Look-ups from a frame
in sight then find the same things on both sides.
-/

namespace Treewalk

/-- Which numbers and which spans of two programs pass for each other. -/
structure Likeness where
  number : Float → Float → Prop
  span : Option Span → Option Span → Prop

namespace Likeness

/-- Numbers and spans pass only for themselves. -/
def same : Likeness := ⟨Eq, Eq⟩

/-- Spans do not count. -/
def text : Likeness := ⟨Eq, fun _ _ => True⟩

structure Reflexive (like : Likeness) : Prop where
  number : ∀ x, like.number x x
  span : ∀ a, like.span a a

theorem same_reflexive : same.Reflexive := ⟨fun _ => rfl, fun _ => rfl⟩

end Likeness

mutual

/-- Expressions that differ at most in numbers and spans that pass for each other. -/
inductive Expr.Alike (like : Likeness) : Expr → Expr → Prop where
  | number {a b x y} : like.span a b → like.number x y →
      Expr.Alike like (.number a x) (.number b y)
  | boolean {a b v} : like.span a b → Expr.Alike like (.boolean a v) (.boolean b v)
  | variable {a b name} : like.span a b → Expr.Alike like (.variable a name) (.variable b name)
  | binary {a b operator left left' right right'} :
      like.span a b → Expr.Alike like left left' → Expr.Alike like right right' →
      Expr.Alike like (.binary a operator left right) (.binary b operator left' right')
  | function {a b parameters body body'} :
      like.span a b → Stmt.AllAlike like body body' →
      Expr.Alike like (.function a parameters body) (.function b parameters body')
  | call {a b callee arguments arguments'} :
      like.span a b → Expr.AllAlike like arguments arguments' →
      Expr.Alike like (.call a callee arguments) (.call b callee arguments')
  | malformed {reason} : Expr.Alike like (.malformed reason) (.malformed reason)

inductive Expr.AllAlike (like : Likeness) : List Expr → List Expr → Prop where
  | nil : Expr.AllAlike like [] []
  | cons {e e' rest rest'} :
      Expr.Alike like e e' → Expr.AllAlike like rest rest' →
      Expr.AllAlike like (e :: rest) (e' :: rest')

/-- Statements that differ at most in numbers and spans that pass for each other. -/
inductive Stmt.Alike (like : Likeness) : Stmt → Stmt → Prop where
  | declare {a b name value value'} :
      like.span a b → Expr.Alike like value value' →
      Stmt.Alike like (.declare a name value) (.declare b name value')
  | assign {a b name value value'} :
      like.span a b → Expr.Alike like value value' →
      Stmt.Alike like (.assign a name value) (.assign b name value')
  | branch {a b test test' thenPart thenPart' elsePart elsePart'} :
      like.span a b → Expr.Alike like test test' → Stmt.AllAlike like thenPart thenPart' →
      Stmt.AllAlike like elsePart elsePart' →
      Stmt.Alike like (.branch a test thenPart elsePart) (.branch b test' thenPart' elsePart')
  | loop {a b test test' body body'} :
      like.span a b → Expr.Alike like test test' → Stmt.AllAlike like body body' →
      Stmt.Alike like (.loop a test body) (.loop b test' body')
  | print {a b value value'} :
      like.span a b → Expr.Alike like value value' →
      Stmt.Alike like (.print a value) (.print b value')
  | discard {a b value value'} :
      like.span a b → Expr.Alike like value value' →
      Stmt.Alike like (.discard a value) (.discard b value')
  | give {a b value value'} :
      like.span a b → Expr.Alike like value value' →
      Stmt.Alike like (.give a value) (.give b value')
  | malformed {reason} : Stmt.Alike like (.malformed reason) (.malformed reason)

inductive Stmt.AllAlike (like : Likeness) : List Stmt → List Stmt → Prop where
  | nil : Stmt.AllAlike like [] []
  | cons {stmt stmt' rest rest'} :
      Stmt.Alike like stmt stmt' → Stmt.AllAlike like rest rest' →
      Stmt.AllAlike like (stmt :: rest) (stmt' :: rest')

end

mutual

/-- Likeness is reflexive where numbers and spans pass for themselves. -/
theorem Expr.Alike.refl {like : Likeness} (hlike : like.Reflexive) : ∀ e, Expr.Alike like e e
  | .number a x => .number (hlike.span a) (hlike.number x)
  | .boolean a _ => .boolean (hlike.span a)
  | .variable a _ => .variable (hlike.span a)
  | .binary a _ left right =>
    .binary (hlike.span a) (Expr.Alike.refl hlike left) (Expr.Alike.refl hlike right)
  | .function a _ body => .function (hlike.span a) (Stmt.AllAlike.refl hlike body)
  | .call a _ arguments => .call (hlike.span a) (Expr.AllAlike.refl hlike arguments)
  | .malformed _ => .malformed

theorem Expr.AllAlike.refl {like : Likeness} (hlike : like.Reflexive) :
    ∀ es, Expr.AllAlike like es es
  | [] => .nil
  | e :: rest => .cons (Expr.Alike.refl hlike e) (Expr.AllAlike.refl hlike rest)

theorem Stmt.Alike.refl {like : Likeness} (hlike : like.Reflexive) :
    ∀ stmt, Stmt.Alike like stmt stmt
  | .declare a _ value => .declare (hlike.span a) (Expr.Alike.refl hlike value)
  | .assign a _ value => .assign (hlike.span a) (Expr.Alike.refl hlike value)
  | .branch a test thenPart elsePart =>
    .branch (hlike.span a) (Expr.Alike.refl hlike test) (Stmt.AllAlike.refl hlike thenPart)
      (Stmt.AllAlike.refl hlike elsePart)
  | .loop a test body =>
    .loop (hlike.span a) (Expr.Alike.refl hlike test) (Stmt.AllAlike.refl hlike body)
  | .print a value => .print (hlike.span a) (Expr.Alike.refl hlike value)
  | .discard a value => .discard (hlike.span a) (Expr.Alike.refl hlike value)
  | .give a value => .give (hlike.span a) (Expr.Alike.refl hlike value)
  | .malformed _ => .malformed

theorem Stmt.AllAlike.refl {like : Likeness} (hlike : like.Reflexive) :
    ∀ stmts, Stmt.AllAlike like stmts stmts
  | [] => .nil
  | stmt :: rest => .cons (Stmt.Alike.refl hlike stmt) (Stmt.AllAlike.refl hlike rest)

end

mutual

/-- Where nothing may differ, expressions that are alike are the same. -/
theorem Expr.Alike.eq {e e' : Expr} : Expr.Alike .same e e' → e' = e
  | .number hspan hnumber => by rw [hspan, hnumber]
  | .boolean hspan => by rw [hspan]
  | .variable hspan => by rw [hspan]
  | .binary hspan hleft hright => by rw [hspan, hleft.eq, hright.eq]
  | .function hspan hbody => by rw [hspan, hbody.eq]
  | .call hspan harguments => by rw [hspan, harguments.eq]
  | .malformed => rfl

theorem Expr.AllAlike.eq {es es' : List Expr} : Expr.AllAlike .same es es' → es' = es
  | .nil => rfl
  | .cons he hrest => by rw [he.eq, hrest.eq]

/-- Where nothing may differ, statements that are alike are the same. -/
theorem Stmt.Alike.eq {stmt stmt' : Stmt} : Stmt.Alike .same stmt stmt' → stmt' = stmt
  | .declare hspan hvalue => by rw [hspan, hvalue.eq]
  | .assign hspan hvalue => by rw [hspan, hvalue.eq]
  | .branch hspan htest hthen helse => by rw [hspan, htest.eq, hthen.eq, helse.eq]
  | .loop hspan htest hbody => by rw [hspan, htest.eq, hbody.eq]
  | .print hspan hvalue => by rw [hspan, hvalue.eq]
  | .discard hspan hvalue => by rw [hspan, hvalue.eq]
  | .give hspan hvalue => by rw [hspan, hvalue.eq]
  | .malformed => rfl

theorem Stmt.AllAlike.eq {stmts stmts' : List Stmt} :
    Stmt.AllAlike .same stmts stmts' → stmts' = stmts
  | .nil => rfl
  | .cons hstmt hrest => by rw [hstmt.eq, hrest.eq]

end

/-- A call has as many arguments on both sides. -/
theorem Expr.AllAlike.length_eq {like : Likeness} {es es' : List Expr}
    (h : Expr.AllAlike like es es') : es'.length = es.length := by
  induction es generalizing es' with
  | nil => cases h; rfl
  | cons e rest ih =>
      cases h with
      | cons _ hrest => simp [ih hrest]

/-- Values that differ at most in numbers that pass for each other. -/
inductive Value.Alike (like : Likeness) : Value → Value → Prop where
  | number {x y} : like.number x y → Value.Alike like (.number x) (.number y)
  | boolean {b} : Value.Alike like (.boolean b) (.boolean b)
  | function {id} : Value.Alike like (.function id) (.function id)

namespace Value.Alike

variable {like : Likeness} {v w : Value}

theorem refl (hlike : ∀ x, like.number x x) : ∀ v, Value.Alike like v v
  | .number x => .number (hlike x)
  | .boolean _ => .boolean
  | .function _ => .function

/-- Where numbers pass only for themselves, values that are alike are the same. -/
theorem eq (hlike : like.number = Eq) (h : Value.Alike like v w) : w = v := by
  cases h with
  | number hxy =>
      rw [hlike] at hxy
      rw [hxy]
  | boolean => rfl
  | function => rfl

end Value.Alike

/-- Two results that end in the same way: with values that are related, or in the same failure. -/
inductive SameEnd {ε α β : Type} (post : α → β → Prop) : Except ε α → Except ε β → Prop where
  | ok {a b} : post a b → SameEnd post (.ok a) (.ok b)
  | error {e} : SameEnd post (.error e) (.error e)

/-- How far two evaluations may differ: which parts of programs pass for each other, and which
frames and closures are out of sight. -/
structure Slack where
  like : Likeness
  frames : FrameId → Prop
  closures : ClosureId → Prop

/-- Numbers that pass for each other cannot be told apart by operators. -/
structure Slack.Lawful (slack : Slack) : Prop where
  equal {a b x y} : slack.like.number a x → slack.like.number b y → (x == y) = (a == b)
  arithmetic {operator a b x y} : slack.like.number a x → slack.like.number b y →
    SameEnd (Value.Alike slack.like) (Rules.arithmetic operator a b)
      (Rules.arithmetic operator x y)

/-- Numbers that pass only for themselves. -/
theorem Slack.Lawful.of_eq {slack : Slack} (h : slack.like.number = Eq) : slack.Lawful where
  equal := by
    rw [h]
    rintro a b x y rfl rfl
    rfl
  arithmetic := by
    rw [h]
    rintro operator a b x y rfl rfl
    cases Rules.arithmetic operator a b with
    | ok v => exact .ok (.refl (by simp [h]) v)
    | error e => exact .error

namespace Slack

variable (slack : Slack)

/-- Whether a value leads nowhere out of sight. -/
def Sees : Value → Prop
  | .function id => ¬ slack.closures id
  | _ => True

/-- Values that are alike and lead nowhere out of sight. -/
def Agree (v w : Value) : Prop := Value.Alike slack.like v w ∧ slack.Sees v

def Entries (bindings bindings' : List (Name × Value)) : Prop :=
  List.Forall₂ (fun entry entry' => entry'.1 = entry.1 ∧ slack.Agree entry.2 entry'.2)
    bindings bindings'

/-- Frames that are alike: out of sight their bindings may differ. -/
structure FramesAlike (id : FrameId) (f g : Frame) : Prop where
  name : g.name = f.name
  parent : g.parent = f.parent
  bindings : ¬ slack.frames id → slack.Entries f.bindings g.bindings

structure ClosuresAlike (c d : Closure) : Prop where
  parameters : d.parameters = c.parameters
  body : Stmt.AllAlike slack.like c.body d.body
  frame : d.frame = c.frame
  name : d.name = c.name

end Slack

/-- Two states that pass for each other. What is out of sight is there already, and nothing in sight
leads to it. -/
structure Tied (slack : Slack) (s t : State) : Prop where
  frame : t.context.frame = s.context.frame
  callDepth : t.context.callDepth = s.context.callDepth
  pending : Option.Rel slack.Agree s.context.pending t.context.pending
  printed : List.Forall₂ (Value.Alike slack.like) s.context.printed.toList
    t.context.printed.toList
  frameCount : t.store.frames.size = s.store.frames.size
  frames : ∀ id : FrameId, Option.Rel (slack.FramesAlike id) s.store.frames[id]? t.store.frames[id]?
  closureCount : t.store.closures.size = s.store.closures.size
  closures : ∀ id : ClosureId,
    Option.Rel slack.ClosuresAlike s.store.closures[id]? t.store.closures[id]?
  oldFrames : ∀ id, slack.frames id → id < s.store.frames.size
  oldClosures : ∀ id, slack.closures id → id < s.store.closures.size
  current : ¬ slack.frames s.context.frame
  parents : ∀ (id : FrameId) frame parent, ¬ slack.frames id → s.store.frames[id]? = some frame →
    frame.parent = some parent → ¬ slack.frames parent
  captured : ∀ (id : ClosureId) closure, ¬ slack.closures id →
    s.store.closures[id]? = some closure → ¬ slack.frames closure.frame

section Frames

variable {slack : Slack} {bindings bindings' : List (Name × Value)}

/-- Bindings that agree give a key values that agree, or no value on both sides. -/
theorem Slack.Entries.get? (h : slack.Entries bindings bindings') (key : Key) :
    Option.Rel slack.Agree
      ((bindings.find? (·.1.key? == some key)).map (·.2))
      ((bindings'.find? (·.1.key? == some key)).map (·.2)) := by
  induction h with
  | nil => exact .none
  | @cons entry entry' rest rest' hentry _ ih =>
      simp only [List.find?_cons, hentry.1]
      cases entry.1.key? == some key with
      | true => exact .some hentry.2
      | false => exact ih

/-- Binding a name to values that agree keeps the agreement. -/
theorem Slack.Entries.set (h : slack.Entries bindings bindings') (name : Name) {v w : Value}
    (hvalue : slack.Agree v w) :
    slack.Entries (Frame.setBinding name v bindings) (Frame.setBinding name w bindings') := by
  induction h with
  | nil => exact .cons ⟨rfl, hvalue⟩ .nil
  | @cons entry entry' rest rest' hentry hrest ih =>
      simp only [Frame.setBinding, hentry.1]
      split
      · exact .cons ⟨rfl, hvalue⟩ hrest
      · exact .cons hentry ih

/-- Where numbers pass only for themselves, bindings that are alike are the same. -/
theorem Slack.Entries.eq (hlike : slack.like.number = Eq) (h : slack.Entries bindings bindings') :
    bindings' = bindings := by
  induction h with
  | nil => rfl
  | @cons entry entry' rest rest' hentry _ ih =>
      obtain ⟨hname, halike, _⟩ := hentry
      rw [ih, Prod.ext hname (halike.eq hlike)]

/-- Frames in sight are the same where numbers pass only for themselves. -/
theorem Slack.FramesAlike.eq {id : FrameId} {f g : Frame} (h : slack.FramesAlike id f g)
    (hlike : slack.like.number = Eq) (hid : ¬ slack.frames id) : g = f := by
  have hbindings := (h.bindings hid).eq hlike
  cases f
  cases g
  obtain ⟨rfl, rfl, _⟩ := h
  simp only at hbindings
  rw [hbindings]

/-- Where nothing may differ, closures that are alike are the same. -/
theorem Slack.ClosuresAlike.eq {c d : Closure} (h : slack.ClosuresAlike c d)
    (hlike : slack.like = .same) : d = c := by
  have hbody := h.body
  rw [hlike] at hbody
  have hsame := hbody.eq
  cases c
  cases d
  obtain ⟨rfl, _, rfl, rfl⟩ := h
  simp only at hsame
  rw [hsame]

end Frames

namespace Tied

variable {slack : Slack} {s t : State} {id : FrameId}

/-- Both sides have a frame in a place, or neither has. -/
theorem frame_cases (h : Tied slack s t) (id : FrameId) :
    (s.store.frames[id]? = none ∧ t.store.frames[id]? = none) ∨
      ∃ f g, s.store.frames[id]? = some f ∧ t.store.frames[id]? = some g ∧
        slack.FramesAlike id f g := by
  have hrel := h.frames id
  cases hs : s.store.frames[id]? <;> cases ht : t.store.frames[id]? <;>
    rw [hs, ht] at hrel <;> cases hrel
  · exact .inl ⟨rfl, rfl⟩
  next halike => exact .inr ⟨_, _, rfl, rfl, halike⟩

/-- Both sides have a closure in a place, or neither has. -/
theorem closure_cases (h : Tied slack s t) (id : ClosureId) :
    (s.store.closures[id]? = none ∧ t.store.closures[id]? = none) ∨
      ∃ c d, s.store.closures[id]? = some c ∧ t.store.closures[id]? = some d ∧
        slack.ClosuresAlike c d := by
  have hrel := h.closures id
  cases hs : s.store.closures[id]? <;> cases ht : t.store.closures[id]? <;>
    rw [hs, ht] at hrel <;> cases hrel
  · exact .inl ⟨rfl, rfl⟩
  next halike => exact .inr ⟨_, _, rfl, rfl, halike⟩

/-- Where numbers pass only for themselves, the contexts are the same. -/
theorem context_eq (h : Tied slack s t) (hlike : slack.like.number = Eq) :
    t.context = s.context := by
  have hpending : t.context.pending = s.context.pending := by
    have hrel := h.pending
    generalize s.context.pending = v, t.context.pending = w at hrel
    cases hrel with
    | none => rfl
    | some hagree => rw [hagree.1.eq hlike]
  have hprinted : t.context.printed = s.context.printed := by
    apply Array.ext'
    have hlist := h.printed
    generalize s.context.printed.toList = vs, t.context.printed.toList = ws at hlist
    induction hlist with
    | nil => rfl
    | cons halike _ ih => rw [halike.eq hlike, ih]
  have hframe := h.frame
  have hdepth := h.callDepth
  generalize s.context = c, t.context = d at hpending hprinted hframe hdepth
  cases c
  cases d
  simp_all

/-- Chains of frames are the same on both sides, in sight or not. -/
theorem chainUpTo_eq (h : Tied slack s t) (count : Nat) (id : FrameId) :
    t.store.chainUpTo count id = s.store.chainUpTo count id := by
  induction count generalizing id with
  | zero => rfl
  | succ count ih =>
      unfold Store.chainUpTo
      rcases h.frame_cases id with ⟨hs, ht⟩ | ⟨f, g, hs, ht, halike⟩
      · simp only [hs, ht, Option.bind_none]
      · simp only [hs, ht, Option.bind_some, halike.parent]
        cases f.parent with
        | none => rfl
        | some parent => simp only [ih]

/-- The ancestors of a frame in sight are in sight. -/
theorem chainUpTo_inSight (h : Tied slack s t) {count : Nat} (hid : ¬ slack.frames id) :
    ∀ g ∈ s.store.chainUpTo count id, ¬ slack.frames g := by
  induction count generalizing id with
  | zero =>
      intro g hg
      cases hg
  | succ count ih =>
      intro g hg
      unfold Store.chainUpTo at hg
      rcases List.mem_cons.mp hg with rfl | hg
      · exact hid
      · cases hframe : s.store.frames[id]? with
        | none =>
            rw [hframe] at hg
            cases hg
        | some f =>
            rw [hframe, Option.bind_some] at hg
            cases hparent : f.parent with
            | none =>
                rw [hparent] at hg
                cases hg
            | some parent =>
                rw [hparent] at hg
                exact ih (h.parents id f parent hid hframe hparent) g hg

/-- A frame in sight binds the same keys on both sides. -/
theorem hasLocal_eq (h : Tied slack s t) (hid : ¬ slack.frames id) (key : Key) :
    t.store.hasLocal id key = s.store.hasLocal id key := by
  unfold Store.hasLocal
  rcases h.frame_cases id with ⟨hs, ht⟩ | ⟨f, g, hs, ht, halike⟩
  · rw [hs, ht]
  · rw [hs, ht]
    have hget := (halike.bindings hid).get? key
    change Option.Rel slack.Agree (f.get? key) (g.get? key) at hget
    simp only [Frame.binds]
    generalize f.get? key = v, g.get? key = w at hget
    cases hget <;> rfl

/-- A key is found in the same frame on both sides. -/
theorem find?_eq (h : Tied slack s t) (hid : ¬ slack.frames id) (key : Key) :
    t.store.find? id key = s.store.find? id key := by
  unfold Store.find? Store.chain
  rw [h.chainUpTo_eq]
  have hsight : ∀ g ∈ s.store.chainUpTo (id + 1) id, ¬ slack.frames g :=
    h.chainUpTo_inSight hid
  generalize s.store.chainUpTo (id + 1) id = chain at hsight
  induction chain with
  | nil => rfl
  | cons g rest ih =>
      have hg := h.hasLocal_eq (hsight g List.mem_cons_self) key
      simp only [List.find?_cons, hg]
      rw [ih fun g' hg' => hsight g' (List.mem_cons_of_mem _ hg')]

/-- The frame that binds what is found from a frame in sight is in sight, too. -/
theorem find?_inSight (h : Tied slack s t) (hid : ¬ slack.frames id) {key : Key}
    {owner : FrameId} (hfind : s.store.find? id key = some owner) : ¬ slack.frames owner :=
  h.chainUpTo_inSight hid owner (List.mem_of_find?_eq_some hfind)

/-- A key has values that agree on both sides. -/
theorem get?_agree (h : Tied slack s t) (hid : ¬ slack.frames id) (key : Key) :
    Option.Rel slack.Agree (s.store.get? id key) (t.store.get? id key) := by
  unfold Store.get?
  rw [h.find?_eq hid]
  cases hfind : s.store.find? id key with
  | none => exact .none
  | some owner =>
      simp only [Option.bind_eq_bind, Option.bind_some]
      rcases h.frame_cases owner with ⟨hs, ht⟩ | ⟨f, g, hs, ht, halike⟩
      · rw [hs, ht]
        exact .none
      · rw [hs, ht]
        exact (halike.bindings (h.find?_inSight hid hfind)).get? key

/-- A name is looked up with the same success on both sides. -/
theorem lookup_sameEnd (h : Tied slack s t) (hid : ¬ slack.frames id) (name : Name) :
    SameEnd slack.Agree ((Reference.world s).lookup id name)
      ((Reference.world t).lookup id name) := by
  unfold Reference.World.lookup
  cases name.key? with
  | none => exact .error
  | some key =>
      have hget := h.get?_agree hid key
      simp only [Reference.world]
      generalize s.store.get? id key = v, t.store.get? id key = w at hget
      cases hget with
      | some hagree => exact .ok hagree
      | none => exact .error

/-- A call runs closures that are alike, made in a frame in sight. -/
theorem callee_sameEnd (h : Tied slack s t) (hid : ¬ slack.frames id) (name : Name)
    (arguments : Nat) :
    SameEnd (fun c d => slack.ClosuresAlike c d ∧ ¬ slack.frames c.frame)
      ((Reference.world s).callee id name arguments)
      ((Reference.world t).callee id name arguments) := by
  have hlookup := h.lookup_sameEnd hid name
  unfold Reference.World.callee
  generalize (Reference.world s).lookup id name = r, (Reference.world t).lookup id name = r'
    at hlookup
  rcases hlookup with ⟨hagree⟩ | _
  · obtain ⟨halike, hsees⟩ := hagree
    cases halike with
    | number _ => exact .error
    | boolean => exact .error
    | @function closure =>
        simp only [Reference.world]
        rcases h.closure_cases closure with ⟨hs, ht⟩ | ⟨c, d, hs, ht, hclosures⟩
        · rw [hs, ht]
          exact .error
        · simp only [hs, ht, hclosures.parameters]
          split
          · exact .error
          · exact .ok ⟨hclosures, h.captured closure c hsees hs⟩
  · exact .error

/-- A name may be declared on both sides or on neither. -/
theorem declarable_eq (h : Tied slack s t) (hid : ¬ slack.frames id) (name : Name) :
    (Reference.world t).declarable id name = (Reference.world s).declarable id name := by
  unfold Reference.World.declarable
  cases name.key? with
  | none => rfl
  | some key =>
      change (if t.store.hasLocal id key then _ else _) = _
      rw [h.hasLocal_eq hid]
      rfl

/-- An assignment goes to the same frame in sight on both sides. -/
theorem target_sameEnd (h : Tied slack s t) (hid : ¬ slack.frames id) (name : Name) :
    SameEnd (fun owner owner' => owner' = owner ∧ ¬ slack.frames owner)
      ((Reference.world s).target id name) ((Reference.world t).target id name) := by
  unfold Reference.World.target
  cases name.key? with
  | none => exact .error
  | some key =>
      simp only [Reference.world, h.find?_eq hid]
      cases hfind : s.store.find? id key with
      | none => exact .error
      | some owner => exact .ok ⟨rfl, h.find?_inSight hid hfind⟩

end Tied

end Treewalk
