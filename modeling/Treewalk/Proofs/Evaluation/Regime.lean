import Treewalk.Proofs.Evaluation.Culprit
import Treewalk.Proofs.Evaluation.Evolution

/-! # What holds throughout a run

In a sound state whatever is referred to exists: the current frame, the parents of frames, the
frames that closures remember, and the closures that values refer to. The rules of evaluation keep
states sound, and only ever add to the store.

A regime says on top of this which parts may be executed in a state, which functions may be made and
which failures may be raised. If it is lawful, it holds throughout every run: parts are executed
where the regime lets them, and what the run fails with is a failure that some part of the regime
raises. Values that were printed keep their texts meanwhile.
-/

namespace Treewalk

open Reference (world settle decided combined)

/-! ## Sound states -/

namespace Store

/-- Whether a store has the closure that a value refers to, if it refers to one. -/
def Has (store : Store) : Value → Prop
  | .function id => id < store.closures.size
  | _ => True

/-- Parents are older than their children, closures remember frames of the store, and what is bound
refers to closures of the store. -/
structure Sound (store : Store) : Prop where
  older : store.Older
  captured : ∀ {id : ClosureId} {c}, store.closures[id]? = some c → c.frame < store.frames.size
  bound : ∀ {id : FrameId} {frame}, store.frames[id]? = some frame →
    ∀ entry ∈ frame.bindings, store.Has entry.2

end Store

/-- Closures that differ in their names at most. -/
structure Closure.SameCode (c d : Closure) : Prop where
  parameters : d.parameters = c.parameters
  body : d.body = c.body
  frame : d.frame = c.frame

/-- The frames and closures of a store are still there, with the same parents, all keys that were
bound and the same code. Frames that were added have parents. -/
structure Store.Grows (store later : Store) : Prop where
  frames : store.Extends later
  bound : ∀ {id key}, store.hasLocal id key = true → later.hasLocal id key = true
  nested : ∀ {id}, store.frames.size ≤ id → id < later.frames.size → (later.parent? id).isSome
  closures : ∀ {id : ClosureId} {c}, store.closures[id]? = some c →
    ∃ d, later.closures[id]? = some d ∧ c.SameCode d

/-- The store is sound, the current frame is one of it, and so are the closures that printed values
and a returned value refer to. -/
structure State.Sound (s : State) : Prop where
  store : s.store.Sound
  current : s.context.frame < s.store.frames.size
  printed : ∀ v ∈ s.context.printed.toList, s.store.Has v
  pending : ∀ v ∈ s.context.pending, s.store.Has v

/-- What was shown of the printed values is what they look like now. -/
def State.Echoes (s : State) : Prop :=
  s.echoed.toList = s.context.printed.toList.map (·.text? s.store)

/-- How a state goes on: in the same frame and call, with a store that has grown. -/
structure State.Onward (s t : State) : Prop where
  frame : t.context.frame = s.context.frame
  callDepth : t.context.callDepth = s.context.callDepth
  store : s.store.Grows t.store

theorem Closure.SameCode.refl (c : Closure) : c.SameCode c := ⟨rfl, rfl, rfl⟩

theorem Closure.SameCode.trans {c d e : Closure} (h : c.SameCode d) (h' : d.SameCode e) :
    c.SameCode e :=
  ⟨h'.parameters.trans h.parameters, h'.body.trans h.body, h'.frame.trans h.frame⟩

namespace Store

variable {store later last : Store} {v : Value}

theorem Grows.refl (store : Store) : store.Grows store where
  frames := .refl store
  bound := id
  nested hnew hid := absurd hid (Nat.not_lt.mpr hnew)
  closures h := ⟨_, h, .refl _⟩

theorem Grows.trans (h : store.Grows later) (h' : later.Grows last) : store.Grows last where
  frames := h.frames.trans h'.frames
  bound hlocal := h'.bound (h.bound hlocal)
  nested := by
    intro id hnew hid
    by_cases hlater : id < later.frames.size
    · rw [h'.frames.parent id hlater]
      exact h.nested hnew hlater
    · exact h'.nested (Nat.le_of_not_lt hlater) hid
  closures hc := by
    obtain ⟨d, hd, hcode⟩ := h.closures hc
    obtain ⟨e, he, hcode'⟩ := h'.closures hd
    exact ⟨e, he, hcode.trans hcode'⟩

/-- What a value refers to stays in the store. -/
theorem Grows.has (h : store.Grows later) (hv : store.Has v) : later.Has v := by
  cases v with
  | function id =>
      have hid : store.closures[id]? = some store.closures[id] := Array.getElem?_eq_getElem hv
      obtain ⟨d, hd, _⟩ := h.closures hid
      exact (Array.getElem?_eq_some_iff.mp hd).1
  | _ => trivial

/-- What a value looks like does not change any more, since functions keep their parameters. -/
theorem Grows.text? (h : store.Grows later) (hv : store.Has v) :
    v.text? later = v.text? store := by
  cases v with
  | function id =>
      have hid : store.closures[id]? = some store.closures[id] := Array.getElem?_eq_getElem hv
      obtain ⟨d, hd, hcode⟩ := h.closures hid
      simp only [Value.text?, hid, hd, Option.map_some, hcode.parameters]
  | _ => rfl

/-- What a name is looked up as is bound in some frame. -/
theorem has_of_get? (h : store.Sound) {id : FrameId} {key : Key}
    (hget : store.get? id key = some v) : store.Has v := by
  obtain ⟨owner, _, hget⟩ := Option.bind_eq_some_iff.mp hget
  obtain ⟨frame, hframe, hget⟩ := Option.bind_eq_some_iff.mp hget
  obtain ⟨entry, hentry, rfl⟩ := Option.map_eq_some_iff.mp hget
  exact h.bound hframe entry (List.mem_of_find?_eq_some hentry)

/-! ## What the store is changed to -/

/-- A binding is one that was there, or the new one. -/
theorem mem_setBinding {name : Name} {bindings : List (Name × Value)} {entry : Name × Value}
    (h : entry ∈ Frame.setBinding name v bindings) : entry ∈ bindings ∨ entry.2 = v := by
  induction bindings with
  | nil =>
      rw [List.mem_singleton.mp h]
      exact .inr rfl
  | cons first rest ih =>
      unfold Frame.setBinding at h
      split at h
      · rcases List.mem_cons.mp h with rfl | hrest
        · exact .inr rfl
        · exact .inl (List.mem_cons_of_mem _ hrest)
      · rcases List.mem_cons.mp h with rfl | hrest
        · exact .inl List.mem_cons_self
        · exact (ih hrest).imp_left (List.mem_cons_of_mem _)

/-- Keys that are bound stay bound. -/
theorem hasLocal_set (store : Store) (id : FrameId) (name : Name) (v : Value) {other : FrameId}
    {key : Key} (h : store.hasLocal other key = true) :
    (store.set id name v).hasLocal other key = true := by
  unfold hasLocal set at *
  rw [Array.getElem?_modify]
  cases hframe : store.frames[other]? with
  | none =>
      rw [hframe] at h
      cases h
  | some frame =>
      rw [hframe] at h
      by_cases hid : id = other
      · rw [if_pos hid]
        exact Frame.binds_set name v h
      · rw [if_neg hid]
        exact h

/-- Binding a name lets a store grow. -/
theorem grows_set (store : Store) (id : FrameId) (name : Name) (v : Value) :
    store.Grows (store.set id name v) where
  frames := ⟨by simp [Store.set], fun other _ => Nesting.parent?_set store id name v other⟩
  bound := store.hasLocal_set id name v
  nested hnew hid := by
    rw [Store.set, Array.size_modify] at hid
    exact absurd hid (Nat.not_lt.mpr hnew)
  closures h := ⟨_, h, .refl _⟩

/-- Binding a name to a value of the store leaves the store sound. -/
theorem Sound.set (h : store.Sound) (hv : store.Has v) (id : FrameId) (name : Name) :
    (store.set id name v).Sound where
  older hparent := by
    rw [Nesting.parent?_set] at hparent
    exact h.older hparent
  captured hc := by
    rw [Store.set, Array.size_modify]
    exact h.captured hc
  bound hframe entry hentry := by
    simp only [Store.set, Array.getElem?_modify] at hframe
    split at hframe
    · obtain ⟨frame, hold, rfl⟩ := Option.map_eq_some_iff.mp hframe
      rcases mem_setBinding hentry with hmem | heq
      · exact h.bound hold entry hmem
      · rw [heq]
        exact hv
    · exact h.bound hframe entry hentry

/-- Naming a value renames closures at most. -/
theorem closures_nameValue (store : Store) (name : Name) (v : Value) (id : ClosureId) :
    ∃ f : Closure → Closure, (∀ c : Closure, c.SameCode (f c)) ∧
      (store.nameValue name v).closures[id]? = store.closures[id]?.map f := by
  have hsame : ∃ f : Closure → Closure, (∀ c : Closure, c.SameCode (f c)) ∧
      store.closures[id]? = store.closures[id]?.map f := ⟨_, .refl, Option.map_id'.symm⟩
  cases v with
  | function closure =>
      simp only [Store.nameValue, Store.nameClosure, Array.getElem?_modify]
      split
      · refine ⟨_, fun c => ?_, rfl⟩
        split <;> exact ⟨rfl, rfl, rfl⟩
      · exact hsame
  | _ => exact hsame

theorem frames_nameValue (store : Store) (name : Name) (v : Value) :
    (store.nameValue name v).frames = store.frames := by
  cases v <;> rfl

/-- Naming a closure lets a store grow. -/
theorem grows_nameValue (store : Store) (name : Name) (v : Value) :
    store.Grows (store.nameValue name v) where
  frames := by
    refine ⟨Nat.le_of_eq ?_, fun id _ => ?_⟩
    · rw [frames_nameValue]
    · rw [Store.parent?, frames_nameValue, Store.parent?]
  bound hlocal := by
    rw [hasLocal, frames_nameValue]
    exact hlocal
  nested hnew hid := by
    rw [frames_nameValue] at hid
    exact absurd hid (Nat.not_lt.mpr hnew)
  closures hc := by
    rename_i id c
    obtain ⟨f, hcode, hf⟩ := store.closures_nameValue name v id
    rw [hc] at hf
    exact ⟨f c, hf, hcode c⟩

theorem Sound.nameValue (h : store.Sound) (name : Name) (v : Value) :
    (store.nameValue name v).Sound where
  older hparent := by
    rw [Store.parent?, frames_nameValue] at hparent
    exact h.older hparent
  captured hd := by
    rename_i id d
    obtain ⟨f, hcode, hf⟩ := store.closures_nameValue name v id
    rw [hf] at hd
    obtain ⟨c, hc, rfl⟩ := Option.map_eq_some_iff.mp hd
    rw [frames_nameValue, (hcode c).frame]
    exact h.captured hc
  bound hframe entry hentry := by
    rw [frames_nameValue] at hframe
    exact (store.grows_nameValue name v).has (h.bound hframe entry hentry)

theorem grows_addFrame (store : Store) (name : String) (parent : FrameId) :
    store.Grows (store.addFrame { name, parent := some parent }).2 where
  frames := by
    refine ⟨by simp [Store.addFrame], fun id hid => ?_⟩
    simp [Store.addFrame, Store.parent?, Array.getElem?_push, Nat.ne_of_lt hid]
  bound hlocal := by
    have hid := lt_size_of_hasLocal hlocal
    simpa [Store.addFrame, hasLocal, Array.getElem?_push, Nat.ne_of_lt hid] using hlocal
  nested hnew hid := by
    simp only [Store.addFrame, Array.size_push] at hid
    obtain rfl := Nat.le_antisymm (Nat.lt_succ_iff.mp hid) hnew
    simp [Store.addFrame, Store.parent?]
  closures h := ⟨_, h, .refl _⟩

/-- A new frame below a frame of the store leaves the store sound. -/
theorem Sound.addFrame (h : store.Sound) (name : String) {parent : FrameId}
    (hparent : parent < store.frames.size) :
    (store.addFrame { name, parent := some parent }).2.Sound where
  older hid := by
    rename_i id other
    simp only [Store.addFrame, Store.parent?, Array.getElem?_push] at hid
    split at hid
    next heq =>
      cases hid
      rwa [heq]
    · exact h.older hid
  captured hc := Nat.lt_of_lt_of_le (h.captured hc) (store.grows_addFrame name parent).frames.size
  bound hframe entry hentry := by
    simp only [Store.addFrame, Array.getElem?_push] at hframe
    split at hframe
    · cases hframe
      cases hentry
    · exact h.bound hframe entry hentry

theorem grows_addClosure (store : Store) (closure : Closure) :
    store.Grows (store.addClosure closure).2 where
  frames := ⟨Nat.le_refl _, fun _ _ => rfl⟩
  bound hlocal := hlocal
  nested hnew hid := absurd hid (Nat.not_lt.mpr hnew)
  closures hc := by
    have hid := (Array.getElem?_eq_some_iff.mp hc).1
    refine ⟨_, ?_, .refl _⟩
    simpa [Store.addClosure, Array.getElem?_push, Nat.ne_of_lt hid] using hc

/-- A new closure over a frame of the store leaves the store sound. -/
theorem Sound.addClosure (h : store.Sound) {closure : Closure}
    (hframe : closure.frame < store.frames.size) : (store.addClosure closure).2.Sound where
  older hparent := h.older hparent
  captured hc := by
    simp only [Store.addClosure, Array.getElem?_push] at hc
    split at hc
    · cases hc
      exact hframe
    · exact h.captured hc
  bound hold entry hentry := (store.grows_addClosure closure).has (h.bound hold entry hentry)

end Store

/-! ## Regimes -/

def Part.stmt? : Part → Option Stmt
  | .expr _ => none
  | .stmt s => some s

/-- Which parts may be executed in a state, which functions may be made, given their parameters and
bodies, and which failures may be raised, given the innermost statement under way. -/
structure Regime where
  stands : State → Part → Prop
  made : List Name → List Stmt → Prop
  fault : Failure → Option Stmt → Prop

namespace Regime

/-- A sound state in which all closures are functions that may be made, and printed values look as
they did when they were printed. -/
structure Holds (regime : Regime) (s : State) : Prop where
  sound : s.Sound
  echoes : s.Echoes
  made : ∀ {id : ClosureId} {c}, s.store.closures[id]? = some c → regime.made c.parameters c.body

/-- What a regime has to know to hold throughout a run. Parts may be executed where the parts they
stand in may, bodies of functions only inside of calls. -/
structure Lawful (regime : Regime) : Prop where
  stays {s t part} : regime.stands s part → s.Onward t → regime.stands t part
  operand {s part inner} : regime.stands s part → inner ∈ part.operands → regime.stands s inner
  block {s t stmt block inner} : regime.stands s (.stmt stmt) → block ∈ (Part.stmt stmt).blocks →
    inner ∈ block → s.store.Grows t.store → t.context.callDepth = s.context.callDepth →
    regime.stands t (.stmt inner)
  literal {s span parameters body} :
    regime.stands s (.expr (.function span parameters body)) → regime.made parameters body
  body {s t part parameters body inner} : regime.stands s part → regime.made parameters body →
    inner ∈ body → s.store.Grows t.store → 0 < t.context.callDepth →
    regime.stands t (.stmt inner)
  raised {s part failure} : regime.Holds s → regime.stands s part → part.Raises s failure →
    regime.fault failure part.stmt?
  tooDeep : regime.fault .tooDeep none
  /-- A return evaluates its operand inside of calls only. -/
  under {s stmt failure} : regime.stands s (.stmt stmt) →
    (∀ span value, stmt = .give span value → 0 < s.context.callDepth) →
    regime.fault failure none → regime.fault failure (some stmt)

/-- How an action ends, given the statement that is the culprit if it fails. -/
inductive Ends (regime : Regime) {α : Type} (post : State → α → Prop) (s : State) :
    EStateM.Result Failure State α → Option Stmt → Prop where
  | ok {a t culprit} : regime.Holds t → s.Onward t → post t a →
      Ends regime post s (.ok a t) culprit
  | error {failure t culprit} : regime.Holds t → s.Onward t → regime.fault failure culprit →
      Ends regime post s (.error failure t) culprit

/-- A regime holds throughout an action, from every state with some property. -/
def Keeps (regime : Regime) {α : Type} (pre : State → Prop) (post : State → α → Prop)
    (action : Eval α) (culprit : State → Option Stmt) : Prop :=
  ∀ s, regime.Holds s → pre s → regime.Ends post s (action s) (culprit s)

def anything {α : Type} (_ : State) (_ : α) : Prop := True

def valid (t : State) (v : Value) : Prop := t.store.Has v

def allValid (t : State) (vs : List Value) : Prop := ∀ v ∈ vs, t.store.Has v

def optionValid (t : State) (v? : Option Value) : Prop := ∀ v ∈ v?, t.store.Has v

end Regime

namespace State

variable {s t u : State}

theorem Onward.refl (s : State) : s.Onward s := ⟨rfl, rfl, .refl _⟩

theorem Onward.trans (h : s.Onward t) (h' : t.Onward u) : s.Onward u where
  frame := h'.frame.trans h.frame
  callDepth := h'.callDepth.trans h.callDepth
  store := h.store.trans h'.store

end State

namespace Regime

variable {regime : Regime} {s t : State} {α β : Type} {post : State → α → Prop}
  {post' : State → β → Prop} {culprit : Option Stmt}

/-- What holds from a state on holds from the states before. -/
theorem Ends.after {r : EStateM.Result Failure State α} (honward : s.Onward t)
    (h : regime.Ends post t r culprit) : regime.Ends post s r culprit := by
  cases h with
  | ok hholds honward' hpost => exact .ok hholds (honward.trans honward') hpost
  | error hholds honward' hfault => exact .error hholds (honward.trans honward') hfault

/-- The culprit of two actions is seen as the culprits of both are. -/
theorem Ends.bind_view {action : Eval α} {next : α → Eval β} (view : Option Stmt → Option Stmt)
    {first : State → Option Stmt} {later : α → State → Option Stmt}
    (hfirst : regime.Ends post s (action s) (view (first s)))
    (hnext : ∀ a t, regime.Holds t → s.Onward t → post t a →
      regime.Ends post' t (next a t) (view (later a t))) :
    regime.Ends post' s ((action >>= next) s) (view (Culprit.after action first later s)) := by
  rw [Eval.bind_apply]
  unfold Culprit.after
  cases hrun : action s with
  | ok a t =>
      rw [hrun] at hfirst
      cases hfirst with
      | ok hholds honward hpost => exact (hnext a t hholds honward hpost).after honward
  | error failure t =>
      rw [hrun] at hfirst
      cases hfirst with
      | error hholds honward hfault => exact .error hholds honward hfault

/-- Actions one after the other: the culprit is that of the one that fails. -/
theorem Ends.bind {action : Eval α} {next : α → Eval β} {first : State → Option Stmt}
    {later : α → State → Option Stmt} (hfirst : regime.Ends post s (action s) (first s))
    (hnext : ∀ a t, regime.Holds t → s.Onward t → post t a →
      regime.Ends post' t (next a t) (later a t)) :
    regime.Ends post' s ((action >>= next) s) (Culprit.after action first later s) :=
  hfirst.bind_view id hnext

/-- Actions one after the other in a statement: it is the culprit itself if nothing inside of it
is. -/
theorem Ends.bind_or {action : Eval α} {next : α → Eval β} {first : State → Option Stmt}
    {later : α → State → Option Stmt} {stmt : Stmt}
    (hfirst : regime.Ends post s (action s) ((first s).or (some stmt)))
    (hnext : ∀ a t, regime.Holds t → s.Onward t → post t a →
      regime.Ends post' t (next a t) ((later a t).or (some stmt))) :
    regime.Ends post' s ((action >>= next) s)
      ((Culprit.after action first later s).or (some stmt)) :=
  hfirst.bind_view (·.or (some stmt)) hnext

/-- What follows an action may have the same culprit. -/
theorem Ends.andThen {action : Eval α} {next : α → Eval β}
    (hfirst : regime.Ends post s (action s) culprit)
    (hnext : ∀ a t, regime.Holds t → s.Onward t → post t a →
      regime.Ends post' t (next a t) culprit) :
    regime.Ends post' s ((action >>= next) s) culprit := by
  rw [Eval.bind_apply]
  cases hrun : action s with
  | ok a t =>
      rw [hrun] at hfirst
      cases hfirst with
      | ok hholds honward hpost => exact (hnext a t hholds honward hpost).after honward
  | error failure t =>
      rw [hrun] at hfirst
      cases hfirst with
      | error hholds honward hfault => exact .error hholds honward hfault

/-- What raises no failure of its own is not the culprit. -/
theorem Ends.under (hlawful : regime.Lawful) {stmt : Stmt} {r : EStateM.Result Failure State α}
    (hstands : regime.stands s (.stmt stmt))
    (hpasses : ∀ span value, stmt = .give span value → 0 < s.context.callDepth)
    (h : regime.Ends post s r culprit) : regime.Ends post s r (culprit.or (some stmt)) := by
  cases h with
  | ok hholds honward hpost => exact .ok hholds honward hpost
  | error hholds honward hfault =>
      refine .error hholds honward ?_
      cases culprit with
      | some inner => exact hfault
      | none => exact hlawful.under hstands hpasses hfault

/-- A part that raises a failure. -/
theorem ends_raised (hlawful : regime.Lawful) {part : Part} {failure : Failure}
    (hholds : regime.Holds s) (hstands : regime.stands s part)
    (hraises : part.Raises s failure) :
    regime.Ends post s (.error failure s) part.stmt? :=
  .error hholds (.refl s) (hlawful.raised hholds hstands hraises)

/-! ## What the state is changed to -/

/-- Where the store stays, a regime goes on to hold if all that the context refers to is in it. -/
theorem Holds.of_store (h : regime.Holds s) (hstore : t.store = s.store)
    (hframe : t.context.frame < s.store.frames.size)
    (hprinted : ∀ v ∈ t.context.printed.toList, s.store.Has v)
    (hpending : ∀ v ∈ t.context.pending, s.store.Has v) (hechoes : t.Echoes) :
    regime.Holds t where
  sound := ⟨hstore ▸ h.sound.store, hstore ▸ hframe, hstore ▸ hprinted, hstore ▸ hpending⟩
  echoes := hechoes
  made := by
    rw [hstore]
    exact h.made

theorem ends_record (h : regime.Holds s) (event : Event) :
    regime.Ends anything s (Eval.record event s) culprit :=
  .ok (h.of_store rfl h.sound.current h.sound.printed h.sound.pending h.echoes)
    ⟨rfl, rfl, .refl _⟩ trivial

/-- A value looks now as it is shown, so that the record of what was shown stays right. -/
theorem ends_emit (h : regime.Holds s) {v : Value} (hv : s.store.Has v) :
    regime.Ends anything s (Eval.emit v s) culprit := by
  refine .ok (h.of_store rfl h.sound.current ?_ h.sound.pending ?_) ⟨rfl, rfl, .refl _⟩ trivial
  · intro w hw
    rw [Array.toList_push] at hw
    rcases List.mem_append.mp hw with hold | hnew
    · exact h.sound.printed w hold
    · rw [List.mem_singleton.mp hnew]
      exact hv
  · have hechoes : s.echoed.toList = s.context.printed.toList.map (·.text? s.store) := h.echoes
    simp only [State.Echoes, Array.toList_push, List.map_append, List.map_singleton, hechoes]

theorem ends_signal (h : regime.Holds s) {v : Value} (hv : s.store.Has v) :
    regime.Ends anything s (Eval.signal v s) culprit := by
  refine .ok (h.of_store rfl h.sound.current h.sound.printed ?_ h.echoes) ⟨rfl, rfl, .refl _⟩
    trivial
  rintro w ⟨⟩
  exact hv

theorem ends_takePending (h : regime.Holds s) :
    regime.Ends optionValid s (Eval.takePending s) culprit :=
  .ok (h.of_store rfl h.sound.current h.sound.printed nofun h.echoes) ⟨rfl, rfl, .refl _⟩
    h.sound.pending

/-- A store that has grown is held by what held the store, if it is sound and its closures are
known. -/
theorem Holds.grown (h : regime.Holds s) {later : Store} (hsound : later.Sound)
    (hgrows : s.store.Grows later)
    (hmade : ∀ {id : ClosureId} {c}, later.closures[id]? = some c →
      regime.made c.parameters c.body) : regime.Holds { s with store := later } where
  sound := ⟨hsound, Nat.lt_of_lt_of_le h.sound.current hgrows.frames.size,
    fun v hv => hgrows.has (h.sound.printed v hv), fun v hv => hgrows.has (h.sound.pending v hv)⟩
  echoes :=
    Eq.trans h.echoes (List.map_congr_left fun v hv => (hgrows.text? (h.sound.printed v hv)).symm)
  made := hmade

theorem Holds.set (h : regime.Holds s) {v : Value} (hv : s.store.Has v) (id : FrameId)
    (name : Name) :
    regime.Holds { s with store := s.store.set id name v } ∧
      s.Onward { s with store := s.store.set id name v } :=
  ⟨h.grown (h.sound.store.set hv id name) (s.store.grows_set id name v) h.made,
    rfl, rfl, s.store.grows_set id name v⟩

theorem Holds.nameValue (h : regime.Holds s) (name : Name) (v : Value) :
    regime.Holds { s with store := s.store.nameValue name v } ∧
      s.Onward { s with store := s.store.nameValue name v } := by
  refine ⟨h.grown (h.sound.store.nameValue name v) (s.store.grows_nameValue name v) ?_,
    rfl, rfl, s.store.grows_nameValue name v⟩
  intro id d hd
  obtain ⟨f, hcode, hf⟩ := s.store.closures_nameValue name v id
  rw [hf] at hd
  obtain ⟨c, hc, rfl⟩ := Option.map_eq_some_iff.mp hd
  rw [(hcode c).parameters, (hcode c).body]
  exact h.made hc

/-- A new frame keeps a regime. -/
theorem Holds.withFrame (h : regime.Holds s) (name : String) {parent : FrameId}
    (hparent : parent < s.store.frames.size) :
    regime.Holds (Eval.withFrame s name parent) ∧ s.Onward (Eval.withFrame s name parent) ∧
      s.store.frames.size < (Eval.withFrame s name parent).store.frames.size :=
  ⟨h.grown (h.sound.store.addFrame name hparent) (s.store.grows_addFrame name parent) h.made,
    ⟨rfl, rfl, s.store.grows_addFrame name parent⟩, by simp [Eval.withFrame, Store.addFrame]⟩

/-- A closure may be made where its literal may be evaluated. -/
theorem ends_newClosure (hlawful : regime.Lawful) (h : regime.Holds s) {span : Option Span}
    {parameters : List Name} {body : List Stmt}
    (hstands : regime.stands s (.expr (.function span parameters body))) :
    regime.Ends valid s (Eval.newClosure parameters body s) culprit := by
  have hgrows := s.store.grows_addClosure { parameters, body, frame := s.context.frame }
  refine .ok (h.grown (h.sound.store.addClosure h.sound.current) hgrows ?_) ⟨rfl, rfl, hgrows⟩ ?_
  · intro id c hc
    simp only [Array.getElem?_push] at hc
    split at hc
    · cases hc
      exact hlawful.literal hstands
    · exact h.made hc
  · simp [valid, Store.Has]

/-- An action that is run in another frame. -/
theorem ends_within {action : Eval Unit} {frame : FrameId} {calls : Nat}
    {inner : State → Option Stmt} (h : regime.Holds s) (hframe : frame < s.store.frames.size)
    (haction : regime.Holds (Eval.entering s frame calls) →
      regime.Ends anything (Eval.entering s frame calls)
        (action (Eval.entering s frame calls)) (inner (Eval.entering s frame calls))) :
    regime.Ends anything s (Eval.within frame calls action s)
      (inner (Eval.entering s frame calls)) := by
  have hinner := haction (h.of_store rfl hframe h.sound.printed h.sound.pending h.echoes)
  rw [Eval.within_apply]
  -- afterwards the old frame is current again, in a store that has grown
  have hleave : ∀ t, regime.Holds t → (Eval.entering s frame calls).Onward t →
      regime.Holds (Eval.leaving s calls t) ∧ s.Onward (Eval.leaving s calls t) := by
    intro t ht honward
    have hcurrent := Nat.lt_of_lt_of_le h.sound.current honward.store.frames.size
    have hcount : t.context.callDepth - calls = s.context.callDepth := by
      rw [honward.callDepth]
      exact Nat.add_sub_cancel ..
    exact ⟨ht.of_store rfl hcurrent ht.sound.printed ht.sound.pending ht.echoes, rfl, hcount,
      honward.store⟩
  cases hrun : action (Eval.entering s frame calls) with
  | ok a t =>
      rw [hrun] at hinner
      cases hinner with
      | ok hholds honward hpost =>
          obtain ⟨hholds', honward'⟩ := hleave t hholds honward
          exact .ok hholds' honward' trivial
  | error failure t =>
      rw [hrun] at hinner
      cases hinner with
      | error hholds honward hfault =>
          obtain ⟨hholds', honward'⟩ := hleave t hholds honward
          exact .error hholds' honward' hfault

/-- A block runs under the same regime, in a store that has one more frame. -/
theorem ends_inChild {action : Eval Unit} {inner : State → Option Stmt} (h : regime.Holds s)
    (name : String)
    (haction : ∀ t, regime.Holds t → s.store.Grows t.store →
      t.context.callDepth = s.context.callDepth →
      regime.Ends anything t (action t) (inner t)) :
    regime.Ends anything s (Eval.inChild name action s) (Culprit.inChild name inner s) := by
  obtain ⟨hholds, honward, hfresh⟩ := h.withFrame name h.sound.current
  rw [Eval.inChild_apply]
  exact (ends_within hholds hfresh fun hentered =>
    haction _ hentered honward.store rfl).after honward

theorem ends_unlessReturning {action : Eval Unit} (view : Option Stmt → Option Stmt)
    {inner : State → Option Stmt} (h : regime.Holds s)
    (haction : regime.Ends anything s (action s) (view (inner s))) :
    regime.Ends anything s (Eval.unlessReturning action s)
      (view (Culprit.unlessReturning inner s)) := by
  rw [Eval.unlessReturning_apply]
  unfold Culprit.unlessReturning
  split
  · exact .ok h (.refl s) trivial
  · exact haction

/-! ## The rules of evaluation -/

theorem ends_settle (h : regime.Holds s) {r : Except Failure Value}
    (hvalue : ∀ v, r = .ok v → s.store.Has v)
    (hfault : ∀ failure, r = .error failure → regime.fault failure culprit) :
    regime.Ends valid s (settle s r) culprit := by
  cases r with
  | ok v => exact .ok h (.refl s) (hvalue v rfl)
  | error failure => exact .error h (.refl s) (hfault failure rfl)

/-- What a name is bound to is in the store. -/
theorem has_of_lookup (h : regime.Holds s) {name : Name} {v : Value}
    (hlookup : (world s).lookup s.context.frame name = .ok v) : s.store.Has v := by
  unfold Reference.World.lookup at hlookup
  split at hlookup
  · cases hlookup
  · split at hlookup
    next hget =>
      cases hlookup
      exact Store.has_of_get? h.sound.store hget
    · cases hlookup

theorem has_of_decided {operator : Operator} {v w : Value}
    (h : decided operator v = some (.ok w)) : s.store.Has w := by
  unfold decided at h
  split at h
  · split at h <;> cases h
    trivial
  · split at h <;> cases h
    trivial
  · cases h
  · cases h
  · cases h

theorem has_of_operate {operator : Operator} {v w x : Value}
    (h : Rules.operate operator v w = .ok x) : s.store.Has x := by
  unfold Rules.operate at h
  split at h
  · unfold Rules.arithmetic at h
    split at h
    all_goals first | (cases h; trivial) | skip
    split at h <;> cases h
    trivial
  · cases h

/-- Operators make no references: a result is a number, a truth value or an operand. -/
theorem has_of_combined {operator : Operator} {v w x : Value} (hw : s.store.Has w)
    (h : combined operator v w = .ok x) : s.store.Has x := by
  unfold combined at h
  split at h
  · cases h
    exact hw
  · cases h
    exact hw
  · cases h
    trivial
  · cases hoperate : Rules.operate operator v w with
    | error e =>
        rw [hoperate] at h
        cases h
    | ok y =>
        rw [hoperate] at h
        cases h
        exact has_of_operate hoperate

/-- Binding parameters goes on up to the first that is no key. -/
theorem holds_bindAll (frame : FrameId) (entries : List (Name × Value)) (h : regime.Holds s)
    (hvalues : ∀ entry ∈ entries, s.store.Has entry.2) :
    let entered := (world s).bindAll frame entries
    regime.Holds { s with store := entered.2.store } ∧
      s.Onward { s with store := entered.2.store } ∧
      ∀ failure, entered.1 = some failure →
        failure = .malformed .notAKey ∧ ∃ name ∈ entries.map (·.1), name.key? = none := by
  induction entries generalizing s with
  | nil => exact ⟨h, .refl s, nofun⟩
  | cons entry rest ih =>
      obtain ⟨name, v⟩ := entry
      obtain ⟨hv, hrest⟩ := List.forall_mem_cons.mp hvalues
      cases hkey : name.key? with
      | none =>
          simp only [Reference.World.bindAll, hkey]
          refine ⟨h, .refl s, ?_⟩
          rintro failure ⟨⟩
          exact ⟨rfl, name, List.mem_cons_self, hkey⟩
      | some key =>
          simp only [Reference.World.bindAll, hkey]
          obtain ⟨hset, hgrown⟩ := h.set hv frame name
          obtain ⟨hholds, honward, hfailure⟩ :=
            ih hset fun entry hentry => hgrown.store.has (hrest entry hentry)
          refine ⟨hholds, hgrown.trans honward, fun failure hfails => ?_⟩
          obtain ⟨heq, other, hother, hnone⟩ := hfailure failure hfails
          exact ⟨heq, other, List.mem_cons_of_mem _ hother, hnone⟩

section Rules

variable {eval : Expr → Eval Value} {exec : Stmt → Eval Unit}
  {inExpr : Expr → State → Option Stmt} {inStmt : Stmt → State → Option Stmt}
  (hlawful : regime.Lawful)
  (heval : ∀ e, regime.Keeps (regime.stands · (.expr e)) valid (eval e) (inExpr e))
  (hexec : ∀ stmt, regime.Keeps (regime.stands · (.stmt stmt)) anything (exec stmt) (inStmt stmt))

include hlawful

include hexec in
/-- Statements that may all be executed may be executed one after the other. -/
theorem keeps_sequence (stmts : List Stmt) :
    regime.Keeps (fun s => ∀ stmt ∈ stmts, regime.stands s (.stmt stmt)) anything
      (Rules.sequence exec stmts) (Culprit.sequence exec inStmt stmts) := by
  induction stmts with
  | nil => exact fun s h _ => .ok h (.refl s) trivial
  | cons stmt rest ih =>
      intro s h hstands
      obtain ⟨hstmt, hrest⟩ := List.forall_mem_cons.mp hstands
      refine Ends.bind (hexec stmt s h hstmt) fun _ t ht honward _ => ?_
      exact ends_unlessReturning id ht
        (ih t ht fun inner hinner => hlawful.stays (hrest inner hinner) honward)

include heval in
theorem keeps_evalAll (es : List Expr) :
    regime.Keeps (fun s => ∀ e ∈ es, regime.stands s (.expr e)) allValid
      (Rules.evalAll eval es) (Culprit.evalAll eval inExpr es) := by
  induction es with
  | nil => exact fun s h _ => .ok h (.refl s) nofun
  | cons e rest ih =>
      intro s h hstands
      obtain ⟨he, hrest⟩ := List.forall_mem_cons.mp hstands
      refine Ends.bind (heval e s h he) fun v t ht honward hv => ?_
      have htail := ih t ht fun inner hinner => hlawful.stays (hrest inner hinner) honward
      refine htail.andThen fun vs u hu honward' hvs => ?_
      exact .ok hu (.refl u) (List.forall_mem_cons.mpr ⟨honward'.store.has hv, hvs⟩)

include heval in
/-- An operator runs under the regime of its operands, and fails for their kinds only. -/
theorem ends_binary {span : Option Span} {operator : Operator} {left right : Expr}
    (h : regime.Holds s) (hstands : regime.stands s (.expr (.binary span operator left right))) :
    regime.Ends valid s (Rules.binary operator (eval left) (eval right) s)
      (Culprit.binary eval inExpr operator left right s) := by
  rw [Reference.binary_eq]
  have hleft := heval left s h (hlawful.operand hstands (by simp [Part.operands]))
  refine Ends.bind hleft fun v t ht honward _ => ?_
  have hlater := hlawful.stays hstands honward
  unfold Reference.afterLeft
  cases hdecided : decided operator v with
  | some result =>
      refine ends_settle ht (fun w hw => ?_) fun failure hfailure => ?_
      · rw [hw] at hdecided
        exact has_of_decided hdecided
      · rw [hfailure] at hdecided
        exact hlawful.raised ht hlater (.decided hdecided)
  | none =>
      have hright := heval right t ht (hlawful.operand hlater (by simp [Part.operands]))
      refine Ends.bind hright fun w u hu honward' hw => ?_
      refine ends_settle hu (fun x hx => has_of_combined hw hx) fun failure hfailure => ?_
      exact hlawful.raised hu (hlawful.stays hlater honward') (.combined hfailure)

include hexec in
/-- The body of a closure runs inside of a call, in a fresh child of the frame that the closure
remembers. -/
theorem ends_invoke {span : Option Span} {callee : Name} {arguments : List Expr}
    (h : regime.Holds s) (hstands : regime.stands s (.expr (.call span callee arguments)))
    {id : ClosureId} {closure known : Closure} (hknown : s.store.closures[id]? = some known)
    (hcode : closure.SameCode known) {values : List Value} (hvalues : allValid s values) :
    regime.Ends optionValid s (Rules.invoke exec callee closure values s)
      (Culprit.invoke exec inStmt callee closure values s) := by
  have hframe : closure.frame < s.store.frames.size := by
    rw [← hcode.frame]
    exact h.sound.store.captured hknown
  have hmade : regime.made closure.parameters closure.body := by
    rw [← hcode.parameters, ← hcode.body]
    exact h.made hknown
  obtain ⟨hfresh, honward, hinside⟩ := h.withFrame ("call:" ++ callee.plain) hframe
  have hentries : ∀ entry ∈ closure.parameters.zip values,
      (Eval.withFrame s ("call:" ++ callee.plain) closure.frame).store.Has entry.2 :=
    fun entry hentry => honward.store.has (hvalues _ (List.of_mem_zip hentry).2)
  obtain ⟨hholds, hgrown, hfailure⟩ := holds_bindAll s.store.frames.size _ hfresh hentries
  rw [Reference.invoke_apply]
  unfold Culprit.invoke
  cases hentered : (world s).enter callee closure values with
  | mk failure w =>
      change (world (Eval.withFrame s ("call:" ++ callee.plain) closure.frame)).bindAll
        s.store.frames.size (closure.parameters.zip values) = (failure, w) at hentered
      rw [hentered] at hholds hgrown hfailure
      have hlater : s.Onward { s with store := w.store } := honward.trans hgrown
      cases failure with
      | some failure =>
          obtain ⟨rfl, name, hname, hkey⟩ := hfailure failure rfl
          obtain ⟨⟨parameter, v⟩, hentry, rfl⟩ := List.mem_map.mp hname
          obtain ⟨last, hlast, hsame⟩ := hlater.store.closures hknown
          have hparameter : parameter ∈ last.parameters := by
            rw [hsame.parameters, hcode.parameters]
            exact (List.of_mem_zip hentry).1
          exact .error hholds hlater (hlawful.raised hholds (hlawful.stays hstands hlater)
            (.parameter hlast hparameter hkey))
      | none =>
          have hready : regime.Holds (Reference.entered s callee values w) :=
            hholds.of_store rfl hholds.sound.current hholds.sound.printed hholds.sound.pending
              hholds.echoes
          have hin : s.store.frames.size < w.store.frames.size :=
            Nat.lt_of_lt_of_le hinside hgrown.store.frames.size
          refine Ends.after (t := Reference.entered s callee values w) ⟨rfl, rfl, hlater.store⟩ ?_
          refine Ends.andThen (ends_within hready hin fun hbody => ?_)
            fun _ t ht _ _ => ends_takePending ht
          exact keeps_sequence hlawful hexec closure.body _ hbody fun inner hinner =>
            hlawful.body hstands hmade hinner hlater.store (Nat.succ_pos _)

include heval hexec in
/-- A call runs under the regime of its arguments, and its body under that of its literal. -/
theorem ends_call {span : Option Span} {callee : Name} {arguments : List Expr}
    (h : regime.Holds s) (hstands : regime.stands s (.expr (.call span callee arguments))) :
    regime.Ends optionValid s (Rules.call eval exec callee arguments s)
      (Culprit.call eval exec inExpr inStmt callee arguments s) := by
  rw [Reference.call_apply]
  unfold Culprit.call
  cases hcallee : (world s).callee s.context.frame callee arguments.length with
  | error failure => exact ends_raised hlawful h hstands (.callee hcallee)
  | ok closure =>
      obtain ⟨id, hclosure⟩ := Nesting.closure_of_callee hcallee
      have harguments : ∀ e ∈ arguments, regime.stands s (.expr e) :=
        fun e he => hlawful.operand hstands (List.mem_map_of_mem he)
      refine Ends.bind (keeps_evalAll hlawful heval arguments s h harguments)
        fun values t ht honward hvalues => ?_
      obtain ⟨known, hknown, hcode⟩ := honward.store.closures hclosure
      exact ends_invoke hlawful hexec ht (hlawful.stays hstands honward) hknown hcode hvalues

include heval hexec in
/-- The step over expressions: a regime that holds throughout parts nested less deeply holds
throughout all of them. -/
theorem keeps_evalStep (e : Expr) :
    regime.Keeps (regime.stands · (.expr e)) valid (Rules.evalStep eval exec e)
      (Culprit.evalStep eval exec inExpr inStmt e) := by
  intro s h hstands
  cases e with
  | number span x => exact .ok h (.refl s) trivial
  | boolean span b => exact .ok h (.refl s) trivial
  | «variable» span name =>
      change regime.Ends valid s (Eval.lookup name s) none
      rw [Reference.lookup_apply]
      exact ends_settle h (fun v hv => has_of_lookup h hv) fun failure hfailure =>
        hlawful.raised h hstands (.lookup hfailure)
  | binary span operator left right => exact ends_binary hlawful heval h hstands
  | function span parameters body => exact ends_newClosure hlawful h hstands
  | call span callee arguments =>
      refine Ends.bind (ends_call hlawful heval hexec h hstands) fun result t ht honward hv => ?_
      cases result with
      | none => exact ends_raised hlawful ht (hlawful.stays hstands honward) .noReturn
      | some v => exact .ok ht (.refl t) (hv v rfl)
  | malformed reason => exact ends_raised hlawful h hstands .malformedExpr

omit hlawful in
theorem ends_bindHere (h : regime.Holds s) (name : Name) {v : Value} (hv : s.store.Has v) :
    regime.Ends anything s (Rules.bindHere name v s) culprit := by
  obtain ⟨hnamed, honward⟩ := h.nameValue name v
  obtain ⟨hset, honward'⟩ := hnamed.set (honward.store.has hv) s.context.frame name
  unfold Rules.bindHere
  rw [Eval.bind_apply, Eval.get_apply]
  have hstored : regime.Ends anything s (Eval.onStore (fun store =>
      (store.nameValue name v).set s.context.frame name v) s) culprit :=
    .ok hset (honward.trans honward') trivial
  exact hstored.andThen fun _ t ht _ _ => ends_record ht _

include heval in
/-- A statement that evaluates an operand of its own. -/
theorem ends_operand {stmt : Stmt} {value : Expr} (h : regime.Holds s)
    (hstands : regime.stands s (.stmt stmt)) (hvalue : .expr value ∈ (Part.stmt stmt).operands)
    (hpasses : ∀ span value, stmt = .give span value → 0 < s.context.callDepth) :
    regime.Ends valid s (eval value s) ((inExpr value s).or (some stmt)) :=
  (heval value s h (hlawful.operand hstands hvalue)).under hlawful hstands hpasses

include hexec in
/-- A statement that runs a block of its own. -/
theorem ends_block {stmt : Stmt} {block : List Stmt} (name : String) (h : regime.Holds s)
    (hstands : regime.stands s (.stmt stmt)) (hblock : block ∈ (Part.stmt stmt).blocks) :
    regime.Ends anything s (Eval.inChild name (Rules.sequence exec block) s)
      ((Culprit.inChild name (Culprit.sequence exec inStmt block) s).or (some stmt)) := by
  have hinner := ends_inChild h name fun t ht hgrows hdepth =>
    keeps_sequence hlawful hexec block t ht fun inner hinner =>
      hlawful.block hstands hblock hinner hgrows hdepth
  refine hinner.under hlawful hstands ?_
  rintro span value rfl
  cases hblock

include heval hexec in
/-- A loop runs under the regime of its test and its body. The induction is on the rounds that are
left. -/
theorem keeps_loop {span : Option Span} {test : Expr} {body : List Stmt} (iterations : Nat) :
    regime.Keeps (regime.stands · (.stmt (.loop span test body))) anything
      (Rules.loop (eval test) (Eval.inChild "while-body" (Rules.sequence exec body)) iterations)
      fun s => (Culprit.loop (eval test) (Eval.inChild "while-body" (Rules.sequence exec body))
        (inExpr test) (Culprit.inChild "while-body" (Culprit.sequence exec inStmt body))
        iterations s).or (some (.loop span test body)) := by
  induction iterations with
  | zero => exact fun s h hstands => ends_raised hlawful h hstands .unfinished
  | succ iterations ih =>
      intro s h hstands
      have htest := ends_operand hlawful heval h hstands (List.mem_singleton_self _)
        (by rintro _ _ ⟨⟩)
      refine htest.bind_or fun v t ht honward _ => ?_
      have hlater := hlawful.stays hstands honward
      cases v with
      | number x => exact ends_raised hlawful ht hlater .loop
      | function id => exact ends_raised hlawful ht hlater .loop
      | boolean b =>
          cases b with
          | false => exact .ok ht (.refl t) trivial
          | true =>
              have hbody := ends_block hlawful hexec "while-body" ht hlater
                (List.mem_singleton_self _)
              refine hbody.bind_or fun _ u hu honward' _ => ?_
              exact ends_unlessReturning (·.or (some (.loop span test body))) hu
                (ih u hu (hlawful.stays hlater honward'))

include heval hexec in
/-- The innermost statement under way is the statement itself, unless there is one in it. -/
theorem keeps_execStep (iterations : Nat) (stmt : Stmt) :
    regime.Keeps (regime.stands · (.stmt stmt)) anything (Rules.execStep iterations eval exec stmt)
      fun s => (Culprit.execStep eval exec inExpr inStmt iterations stmt s).or (some stmt) := by
  intro s h hstands
  cases stmt with
  | declare span name value =>
      have hvalue := ends_operand hlawful heval h hstands (List.mem_singleton_self _)
        (by rintro _ _ ⟨⟩)
      change regime.Ends anything s (Rules.declare name (eval value) s) _
      rw [Reference.declare_apply]
      simp only [Culprit.execStep]
      cases hname : (world s).declarable s.context.frame name with
      | error failure => exact ends_raised hlawful h hstands (.declare hname)
      | ok _ => exact hvalue.andThen fun v t ht _ hv => ends_bindHere ht name hv
  | assign span name value =>
      have hvalue := ends_operand hlawful heval h hstands (List.mem_singleton_self _)
        (by rintro _ _ ⟨⟩)
      change regime.Ends anything s (Rules.assign name (eval value) s) _
      rw [Reference.assign_apply]
      simp only [Culprit.execStep]
      cases hname : (world s).target s.context.frame name with
      | error failure => exact ends_raised hlawful h hstands (.assign hname)
      | ok target =>
          refine hvalue.andThen fun v t ht _ hv => ?_
          obtain ⟨hset, hgrown⟩ := ht.set hv target name
          exact .ok hset hgrown trivial
  | branch span test thenPart elsePart =>
      have htest := ends_operand hlawful heval h hstands (List.mem_singleton_self _)
        (by rintro _ _ ⟨⟩)
      refine htest.bind_or fun v t ht honward _ => ?_
      have hlater := hlawful.stays hstands honward
      cases v with
      | number x => exact ends_raised hlawful ht hlater .branch
      | function id => exact ends_raised hlawful ht hlater .branch
      | boolean b =>
          cases b with
          | true => exact ends_block hlawful hexec "if-then" ht hlater (by simp [Part.blocks])
          | false => exact ends_block hlawful hexec "if-else" ht hlater (by simp [Part.blocks])
  | loop span test body => exact keeps_loop hlawful heval hexec iterations s h hstands
  | print span value =>
      have hvalue := ends_operand hlawful heval h hstands (List.mem_singleton_self _)
        (by rintro _ _ ⟨⟩)
      refine hvalue.andThen fun v t ht _ hv => ?_
      exact (ends_record ht _).andThen fun _ u hu honward _ => ends_emit hu (honward.store.has hv)
  | discard span value =>
      have hvalue := ends_operand hlawful heval h hstands (List.mem_singleton_self _)
        (by rintro _ _ ⟨⟩)
      cases value with
      | call callSpan callee arguments =>
          have hcall := ends_call hlawful heval hexec h
            (hlawful.operand hstands (List.mem_singleton_self _))
          exact (hcall.under hlawful hstands (by rintro _ _ ⟨⟩)).andThen fun _ t ht _ _ =>
            .ok ht (.refl t) trivial
      | _ => exact hvalue.andThen fun _ t ht _ _ => .ok ht (.refl t) trivial
  | give span value =>
      change regime.Ends anything s (Rules.give (eval value) s) _
      unfold Rules.give
      rw [Eval.bind_apply, Eval.get_apply]
      simp only [Culprit.execStep]
      split
      next hdepth => exact ends_raised hlawful h hstands (.give hdepth)
      next hdepth =>
        have hvalue := ends_operand hlawful heval h hstands (List.mem_singleton_self _)
          fun _ _ _ => Nat.pos_of_ne_zero hdepth
        exact hvalue.andThen fun v t ht _ hv => ends_signal ht hv
  | malformed reason => exact ends_raised hlawful h hstands .malformedStmt

end Rules

/-! ## Whole runs -/

/-- A lawful regime holds throughout expressions and statements. -/
theorem keeps_eval_exec (hlawful : regime.Lawful) (iterations depth : Nat) :
    (∀ e, regime.Keeps (regime.stands · (.expr e)) valid (eval iterations depth e)
      (Culprit.eval iterations depth e)) ∧
    ∀ stmt, regime.Keeps (regime.stands · (.stmt stmt)) anything (exec iterations depth stmt)
      (Culprit.exec iterations depth stmt) := by
  induction depth with
  | zero =>
      exact ⟨fun _ s h _ => .error h (.refl s) hlawful.tooDeep,
        fun _ s h _ => .error h (.refl s) hlawful.tooDeep⟩
  | succ depth ih =>
      exact ⟨keeps_evalStep hlawful ih.1 ih.2, keeps_execStep hlawful ih.1 ih.2 iterations⟩

/-- A regime that lets all statements of a program be executed holds throughout its run. -/
theorem keeps_execAll (hlawful : regime.Lawful) (limits : Limits) (program : Program) :
    regime.Keeps (fun s => ∀ stmt ∈ program, regime.stands s (.stmt stmt)) anything
      (execAll limits program) (Culprit.execAll limits program) := by
  induction program with
  | nil => exact fun s h _ => .ok h (.refl s) trivial
  | cons stmt rest ih =>
      intro s h hstands
      obtain ⟨hstmt, hrest⟩ := List.forall_mem_cons.mp hstands
      have hfirst := (keeps_eval_exec hlawful limits.iterations limits.depth).2 stmt s h hstmt
      refine Ends.bind hfirst fun _ t ht honward _ => ?_
      exact ih t ht fun inner hinner => hlawful.stays (hrest inner hinner) honward

/-- Every regime holds at the start, where there is nothing yet. -/
theorem holds_initial (regime : Regime) : regime.Holds State.initial where
  sound := by
    have hroot : ∀ {id : FrameId} {frame}, State.initial.store.frames[id]? = some frame →
        frame = { name := "global" } := by
      intro id frame hframe
      exact List.mem_singleton.mp (List.mem_of_getElem? (Array.getElem?_toList.trans hframe))
    refine ⟨⟨fun hparent => ?_, nofun, fun hframe entry hentry => ?_⟩, Nat.zero_lt_one, nofun,
      nofun⟩
    · obtain ⟨frame, hframe, hparent⟩ := Option.bind_eq_some_iff.mp hparent
      rw [hroot hframe] at hparent
      cases hparent
    · rw [hroot hframe] at hentry
      cases hentry
  echoes := rfl
  made := nofun

/-- A lawful regime that lets the statements of a program be executed at the start holds at the end
of its run, and the run fails with a failure of the regime. -/
theorem run_keeps (hlawful : regime.Lawful) (limits : Limits) {program : Program}
    (hstands : ∀ stmt ∈ program, regime.stands State.initial (.stmt stmt)) :
    regime.Holds (program.run limits).state ∧
      ∀ failure, (program.run limits).failure = some failure →
        ∃ raised, failure = raised.ofRun ∧ regime.fault raised (program.culprit limits) := by
  have hends := keeps_execAll hlawful limits program State.initial (holds_initial regime) hstands
  change regime.Ends anything State.initial _ (program.culprit limits) at hends
  -- the last event is not part of what a regime speaks of
  have hevent : ∀ t event, regime.Holds t → regime.Holds { t with trace := event } :=
    fun t event h => h.of_store rfl h.sound.current h.sound.printed h.sound.pending h.echoes
  unfold Program.run
  cases hrun : execAll limits program State.initial with
  | ok a t =>
      rw [hrun] at hends
      cases hends with
      | ok hholds _ _ => exact ⟨hevent _ _ hholds, nofun⟩
  | error raised t =>
      rw [hrun] at hends
      cases hends with
      | error hholds _ hfault =>
          dsimp only
          split
          next e he =>
            refine ⟨hevent _ _ hholds, ?_⟩
            rintro failure ⟨⟩
            exact ⟨raised, rfl, hfault⟩
          next he =>
            refine ⟨hholds, ?_⟩
            rintro failure ⟨⟩
            exact ⟨raised, rfl, hfault⟩

end Regime

end Treewalk
