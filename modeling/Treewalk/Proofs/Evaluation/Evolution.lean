import Treewalk.Proofs.Evaluation.Contract

/-! # How the store may evolve

Frames and closures are never taken out of the store. A frame keeps its name, its parent and the
names it binds, in their order; only a declaration adds a name, at the end of the current frame. A
closure keeps everything but an absent name, which a declaration may fill in.
-/

namespace Treewalk

/-- The names that a frame binds, in the order of their first declaration. -/
def Frame.names (frame : Frame) : List Name := frame.bindings.map (·.1)

namespace Frame

/-- A name that is bound keeps its place among the others; a new one comes last. -/
theorem setBinding_names (name : Name) (value : Value) (bindings : List (Name × Value)) :
    (setBinding name value bindings).map (·.1) =
      if bindings.any (·.1.key? == name.key?) then bindings.map (·.1)
      else bindings.map (·.1) ++ [name] := by
  induction bindings with
  | nil => rfl
  | cons entry rest ih =>
      unfold setBinding
      by_cases hkey : (entry.1.key? == name.key?) = true
      · simp [hkey]
      · rw [if_neg hkey, List.map_cons, ih, List.any_cons]
        simp only [Bool.not_eq_true] at hkey
        rw [hkey, Bool.false_or]
        split <;> rfl

/-- A frame binds a key exactly if one of its names has it. -/
theorem binds_iff {frame : Frame} {key : Key} :
    frame.binds key = true ↔ ∃ name ∈ frame.names, name.key? = some key := by
  simp only [binds, get?, names, Option.isSome_map, List.find?_isSome, beq_iff_eq,
    List.mem_map]
  constructor
  · rintro ⟨entry, hentry, hkey⟩
    exact ⟨entry.1, ⟨entry, hentry, rfl⟩, hkey⟩
  · rintro ⟨_, ⟨entry, hentry, rfl⟩, hkey⟩
    exact ⟨entry, hentry, hkey⟩

theorem any_key_eq_binds {frame : Frame} {name : Name} {key : Key} (hkey : name.key? = some key) :
    frame.bindings.any (·.1.key? == name.key?) = frame.binds key := by
  rw [Bool.eq_iff_iff, binds_iff, List.any_eq_true, hkey]
  simp only [names, List.mem_map, beq_iff_eq]
  constructor
  · rintro ⟨entry, hentry, heq⟩
    exact ⟨entry.1, ⟨entry, hentry, rfl⟩, heq⟩
  · rintro ⟨_, ⟨entry, hentry, rfl⟩, heq⟩
    exact ⟨entry, hentry, heq⟩

/-- A name that is bound keeps its place. -/
theorem names_set_of_binds {frame : Frame} {name : Name} {key : Key} (value : Value)
    (hkey : name.key? = some key) (hbinds : frame.binds key = true) :
    (frame.set name value).names = frame.names := by
  unfold set names
  rw [setBinding_names, any_key_eq_binds hkey, hbinds, if_pos rfl]

/-- A name that is not bound is added at the end. -/
theorem names_set_of_not_binds {frame : Frame} {name : Name} {key : Key} (value : Value)
    (hkey : name.key? = some key) (hbinds : frame.binds key = false) :
    (frame.set name value).names = frame.names ++ [name] := by
  unfold set names
  rw [setBinding_names, any_key_eq_binds hkey, hbinds, if_neg Bool.false_ne_true]

/-- A key that is bound stays bound, whatever name is bound next. -/
theorem binds_set {frame : Frame} {key : Key} (name : Name) (value : Value)
    (h : frame.binds key = true) : (frame.set name value).binds key = true := by
  obtain ⟨bound, hbound, hkey⟩ := binds_iff.mp h
  refine binds_iff.mpr ⟨bound, ?_, hkey⟩
  unfold set names
  rw [setBinding_names]
  split
  · exact hbound
  · exact List.mem_append_left _ hbound

/-- Whether a frame is the same scope as before, with some names added at its end. -/
structure GrownBy (added : List Name) (before after : Frame) : Prop where
  name : after.name = before.name
  parent : after.parent = before.parent
  names : after.names = before.names ++ added

theorem GrownBy.refl (frame : Frame) : GrownBy [] frame frame :=
  ⟨rfl, rfl, (List.append_nil _).symm⟩

/-- Names that are added later come after those added before. -/
theorem GrownBy.trans {first second : List Name} {f g h : Frame} (hfg : GrownBy first f g)
    (hgh : GrownBy second g h) : GrownBy (first ++ second) f h := by
  refine ⟨hgh.name.trans hfg.name, hgh.parent.trans hfg.parent, ?_⟩
  rw [hgh.names, hfg.names, List.append_assoc]

/-- Binding a name adds it or nothing. -/
theorem GrownBy.set (frame : Frame) {name : Name} {key : Key} (value : Value)
    (hkey : name.key? = some key) :
    GrownBy (if frame.binds key then [] else [name]) frame (frame.set name value) := by
  refine ⟨rfl, rfl, ?_⟩
  cases hbinds : frame.binds key with
  | true => simp [names_set_of_binds value hkey hbinds]
  | false => simp [names_set_of_not_binds value hkey hbinds]

end Frame

theorem Store.lt_size_of_hasLocal {store : Store} {id : FrameId} {key : Key}
    (h : store.hasLocal id key = true) : id < store.frames.size := by
  apply Nat.lt_of_not_le
  intro hid
  rw [hasLocal, Array.getElem?_eq_none hid] at h
  cases h

/-- Whether a closure is the same as before, up to a name that one of some declarations gave it. -/
structure Closure.NamedBy (events : List Event) (id : ClosureId) (before after : Closure) :
    Prop where
  parameters : after.parameters = before.parameters
  body : after.body = before.body
  frame : after.frame = before.frame
  name : after.name = before.name ∨
    before.name = none ∧ ∃ name, after.name = some name ∧
      Event.declared name (.function id) ∈ events

namespace Closure.NamedBy

variable {events later : List Event} {id : ClosureId} {a b c : Closure}

theorem refl (events : List Event) (id : ClosureId) (a : Closure) : NamedBy events id a a :=
  ⟨rfl, rfl, rfl, .inl rfl⟩

/-- A name that was given stays, so that of two steps at most one gives it. -/
theorem trans (hab : NamedBy events id a b) (hbc : NamedBy later id b c) :
    NamedBy (events ++ later) id a c := by
  refine ⟨hbc.parameters.trans hab.parameters, hbc.body.trans hab.body,
    hbc.frame.trans hab.frame, ?_⟩
  rcases hbc.name with hkept | ⟨hnone, name, hname, hevent⟩
  · rw [hkept]
    rcases hab.name with hkept | ⟨hnone, name, hname, hevent⟩
    · exact .inl hkept
    · exact .inr ⟨hnone, name, hname, List.mem_append_left _ hevent⟩
  · rcases hab.name with hkept | ⟨_, other, hother, _⟩
    · exact .inr ⟨hkept ▸ hnone, name, hname, List.mem_append_right _ hevent⟩
    · rw [hother] at hnone
      cases hnone

/-- A declaration gives its name to a closure that has none. -/
theorem declared (name : Name) (id : ClosureId) (closure : Closure) {given : Option Name}
    (hgiven : given = none ∨ given = some name) :
    NamedBy [.declared name (.function id)] id closure
      (if closure.name.isNone then { closure with name := given } else closure) := by
  split
  next hisNone =>
    have hnone : closure.name = none := by simpa using hisNone
    refine ⟨rfl, rfl, rfl, ?_⟩
    rcases hgiven with rfl | rfl
    · exact .inl hnone.symm
    · exact .inr ⟨hnone, name, rfl, List.mem_singleton_self _⟩
  · exact .refl _ _ _

end Closure.NamedBy

/-- How one state follows another: `added` gives the names that each frame binds newly, `events` are
the events in between. -/
structure State.Follows (added : FrameId → List Name) (events : List Event) (s t : State) :
    Prop where
  frames : ∀ {id before}, s.store.frames[id]? = some before →
    ∃ after, t.store.frames[id]? = some after ∧ Frame.GrownBy (added id) before after
  closures : ∀ {id before}, s.store.closures[id]? = some before →
    ∃ after, t.store.closures[id]? = some after ∧ Closure.NamedBy events id before after
  trace : t.trace.toList = s.trace.toList ++ events

def noNames : FrameId → List Name := fun _ => []

/-- One frame binds a new name, the others none. -/
def oneName (frame : FrameId) (name : Name) : FrameId → List Name :=
  fun id => if id = frame then [name] else []

namespace State.Follows

variable {added more : FrameId → List Name} {events later : List Event} {s t u : State}

/-- Steps one after the other add their names and their events one after the other. -/
theorem trans (hst : Follows added events s t) (htu : Follows more later t u) :
    Follows (fun id => added id ++ more id) (events ++ later) s u where
  frames := by
    intro id before hbefore
    obtain ⟨middle, hmiddle, hfirst⟩ := hst.frames hbefore
    obtain ⟨after, hafter, hsecond⟩ := htu.frames hmiddle
    exact ⟨after, hafter, hfirst.trans hsecond⟩
  closures := by
    intro id before hbefore
    obtain ⟨middle, hmiddle, hfirst⟩ := hst.closures hbefore
    obtain ⟨after, hafter, hsecond⟩ := htu.closures hmiddle
    exact ⟨after, hafter, hfirst.trans hsecond⟩
  trace := by rw [htu.trace, hst.trace, List.append_assoc]

/-- Only the frames that were there count. -/
theorem congr (hst : Follows added events s t)
    (hadded : ∀ id, id < s.store.frames.size → added id = more id) : Follows more events s t where
  frames := by
    intro id before hbefore
    rw [← hadded id (Array.getElem?_eq_some_iff.mp hbefore).1]
    exact hst.frames hbefore
  closures := hst.closures
  trace := hst.trace

/-- A step that leaves the store alone adds nothing but events. -/
theorem of_store (hstore : t.store = s.store) (htrace : t.trace.toList = s.trace.toList ++ events) :
    Follows noNames events s t where
  frames := by
    intro id before hbefore
    rw [hstore]
    exact ⟨before, hbefore, .refl before⟩
  closures := by
    intro id before hbefore
    rw [hstore]
    exact ⟨before, hbefore, .refl _ _ _⟩
  trace := htrace

/-- A new frame comes after the others, which stay as they are. -/
theorem addFrame (s : State) (name : String) (parent : FrameId) :
    Follows noNames [] s (Eval.withFrame s name parent) where
  frames := by
    intro id before hbefore
    refine ⟨before, ?_, .refl before⟩
    have hlt : id < s.store.frames.size := (Array.getElem?_eq_some_iff.mp hbefore).1
    change (s.store.frames.push _)[id]? = some before
    rw [Array.getElem?_push_lt hlt, ← hbefore, Array.getElem?_eq_getElem hlt]
  closures := fun hbefore => ⟨_, hbefore, .refl _ _ _⟩
  trace := (List.append_nil _).symm

/-- Binding a name in a frame adds it there, or nothing if the frame binds it already. -/
theorem set (s : State) (target : FrameId) {name : Name} {key : Key} (value : Value)
    (hkey : name.key? = some key) :
    Follows (fun id => if id = target ∧ s.store.hasLocal target key = false then [name] else [])
      [] s { s with store := s.store.set target name value } where
  frames := by
    intro id before hbefore
    by_cases hid : id = target
    · subst hid
      refine ⟨before.set name value, ?_, ?_⟩
      · change (s.store.frames.modify id _)[id]? = _
        rw [Array.getElem?_modify, if_pos rfl, hbefore]
        rfl
      · have hgrown := Frame.GrownBy.set before value hkey
        have hlocal : s.store.hasLocal id key = before.binds key := by
          simp only [Store.hasLocal, hbefore]
        rw [hlocal]
        cases hbinds : before.binds key <;> simpa [hbinds] using hgrown
    · refine ⟨before, ?_, ?_⟩
      · change (s.store.frames.modify target _)[id]? = _
        rw [Array.getElem?_modify, if_neg (Ne.symm hid), hbefore]
      · simpa [hid] using Frame.GrownBy.refl before
  closures := fun hbefore => ⟨_, hbefore, .refl _ _ _⟩
  trace := (List.append_nil _).symm

/-- A declaration binds its name in the current frame and may name a closure. -/
theorem bindHere (s : State) {name : Name} {key : Key} (value : Value)
    (hkey : name.key? = some key) :
    Follows (fun id => if id = s.context.frame ∧ s.store.hasLocal s.context.frame key = false
        then [name] else []) [.declared name value] s
      { s with
        store := (s.store.nameValue name value).set s.context.frame name value
        trace := s.trace.push (.declared name value) } where
  frames := by
    intro id before hbefore
    have hframes : (s.store.nameValue name value).frames = s.store.frames := by
      cases value <;> rfl
    obtain ⟨after, hafter, hgrown⟩ :=
      (Follows.set s s.context.frame value hkey).frames hbefore
    refine ⟨after, ?_, hgrown⟩
    change ((s.store.nameValue name value).frames.modify _ _)[id]? = _
    rw [hframes]
    exact hafter
  closures := by
    intro id before hbefore
    cases value with
    | number x => exact ⟨before, hbefore, .refl _ _ _⟩
    | boolean b => exact ⟨before, hbefore, .refl _ _ _⟩
    | function named =>
        change ∃ after, (s.store.closures.modify named _)[id]? = some after ∧ _
        rw [Array.getElem?_modify]
        by_cases hid : named = id
        · subst hid
          rw [if_pos rfl, hbefore]
          refine ⟨_, rfl, .declared name named before ?_⟩
          cases name <;> simp
        · rw [if_neg hid]
          exact ⟨before, hbefore, .refl _ _ _⟩
  trace := Array.toList_push

end State.Follows

namespace Evolution

/-- No frame that was there binds a new name. -/
def Stable (s t : State) : Prop := ∃ events, s.Follows noNames events t

/-- Only one frame of those that were there may bind new names. -/
def GrowsAt (frame : FrameId) (s t : State) : Prop :=
  ∃ added events, (∀ id, id ≠ frame → added id = []) ∧ s.Follows added events t

variable {s t u : State} {frame : FrameId}

theorem Stable.of_store (hstore : t.store = s.store) (htrace : t.trace = s.trace) : Stable s t :=
  ⟨[], .of_store hstore (by rw [htrace, List.append_nil])⟩

theorem Stable.trans (hst : Stable s t) (htu : Stable t u) : Stable s u := by
  obtain ⟨events, hst⟩ := hst
  obtain ⟨later, htu⟩ := htu
  exact ⟨events ++ later, hst.trans htu⟩

/-- What lets no frame grow lets at most one frame grow. -/
theorem Stable.growsAt (h : Stable s t) (frame : FrameId) : GrowsAt frame s t := by
  obtain ⟨events, h⟩ := h
  exact ⟨noNames, events, fun _ _ => rfl, h⟩

theorem GrowsAt.trans (hst : GrowsAt frame s t) (htu : GrowsAt frame t u) : GrowsAt frame s u := by
  obtain ⟨added, events, hadded, hst⟩ := hst
  obtain ⟨more, later, hmore, htu⟩ := htu
  refine ⟨_, _, fun id hid => ?_, hst.trans htu⟩
  rw [hadded id hid, hmore id hid, List.append_nil]

/-- What grows at a frame that was not there before leaves the frames that were there alone. -/
theorem GrowsAt.stable_of_fresh {name : String} {parent : FrameId}
    (h : GrowsAt s.store.frames.size (Eval.withFrame s name parent) t) : Stable s t := by
  obtain ⟨added, events, hadded, hfollows⟩ := h
  refine ⟨_, ((State.Follows.addFrame s name parent).trans hfollows).congr fun id hid => ?_⟩
  exact hadded id (Nat.ne_of_lt hid)

/-- A frame binds the same keys as before where no names are added. -/
theorem Stable.hasLocal (h : Stable s t) {id : FrameId} (key : Key)
    (hid : id < s.store.frames.size) : t.store.hasLocal id key = s.store.hasLocal id key := by
  obtain ⟨events, h⟩ := h
  have hbefore := Array.getElem?_eq_getElem hid
  obtain ⟨after, hafter, hgrown⟩ := h.frames hbefore
  have hnames : after.names = (s.store.frames[id]).names := by
    simpa [noNames] using hgrown.names
  simp only [Store.hasLocal, hbefore, hafter]
  rw [Bool.eq_iff_iff, Frame.binds_iff, Frame.binds_iff, hnames]

def stable : Contract where
  ok s t := Stable s t ∧ t.context.frame = s.context.frame
  error s t := Stable s t ∧ t.context.frame = s.context.frame

/-- One frame alone may bind new names. -/
def growing (frame : FrameId) : Contract where
  ok s t := GrowsAt frame s t ∧ t.context.frame = s.context.frame
  error s t := GrowsAt frame s t ∧ t.context.frame = s.context.frame

/-- A name that the current frame does not bind is added at its end; a failure adds none. -/
def declaring (name : Name) : Contract where
  ok s t :=
    (∃ events, s.Follows (oneName s.context.frame name) events t) ∧
      t.context.frame = s.context.frame ∧
      ∃ key, name.key? = some key ∧ s.store.hasLocal s.context.frame key = false
  error := stable.error

/-- Only declarations add names, and only to the current frame. -/
def contracts : Contracts where
  value := stable
  effect := stable
  statement := ⟨fun s t => (growing s.context.frame).ok s t,
    fun s t => (growing s.context.frame).error s t⟩

theorem stable_stable : stable.Precedes stable where
  ok hst htu := ⟨hst.1.trans htu.1, htu.2.trans hst.2⟩
  late hst htu := ⟨hst.1.trans htu.1, htu.2.trans hst.2⟩
  early := id

theorem growing_growing (frame : FrameId) : (growing frame).Precedes (growing frame) where
  ok hst htu := ⟨hst.1.trans htu.1, htu.2.trans hst.2⟩
  late hst htu := ⟨hst.1.trans htu.1, htu.2.trans hst.2⟩
  early := id

theorem stable_growing (frame : FrameId) : stable.Implies (growing frame) where
  ok h := ⟨h.1.growsAt frame, h.2⟩
  error h := ⟨h.1.growsAt frame, h.2⟩

theorem stable_statement : stable.Implies contracts.statement where
  ok h := (stable_growing _).ok h
  error h := (stable_growing _).error h

theorem declaring_statement (name : Name) : (declaring name).Implies contracts.statement where
  ok := by
    rintro s t ⟨⟨events, hfollows⟩, hframe, _⟩
    exact ⟨⟨_, events, fun id hid => if_neg hid, hfollows⟩, hframe⟩
  error h := (stable_growing _).error h

/-- What grows at a fresh frame only is stable for the frames before it. -/
theorem allows_of_fresh {α : Type} {name : String} {parent : FrameId}
    {result : EStateM.Result Failure State α}
    (h : (growing s.store.frames.size).Allows (Eval.withFrame s name parent) result) :
    stable.Allows s result := by
  cases result with
  | ok a t => exact ⟨h.1.stable_of_fresh, h.2⟩
  | error failure t => exact ⟨h.1.stable_of_fresh, h.2⟩

theorem record_stable (event : Event) : stable.Holds (Eval.record event) :=
  fun _ => ⟨⟨[event], .of_store rfl Array.toList_push⟩, rfl⟩

theorem get_stable : stable.Holds (get : Eval State) :=
  fun _ => ⟨.of_store rfl rfl, rfl⟩

theorem fail_stable {α : Type} (e : RuntimeError) : stable.Holds (Eval.fail e : Eval α) :=
  fun _ => ⟨.of_store rfl rfl, rfl⟩

theorem signal_stable (v : Value) : stable.Holds (Eval.signal v) :=
  fun _ => ⟨.of_store rfl rfl, rfl⟩

theorem takePending_stable : stable.Holds Eval.takePending :=
  fun _ => ⟨.of_store rfl rfl, rfl⟩

/-- A new closure comes after the others, which stay as they are. -/
theorem newClosure_stable (parameters : List Name) (body : List Stmt) :
    stable.Holds (Eval.newClosure parameters body) := by
  refine fun s => ⟨⟨[], fun hbefore => ⟨_, hbefore, .refl _⟩, fun {id before} hbefore => ?_,
    (List.append_nil _).symm⟩, rfl⟩
  refine ⟨before, ?_, .refl _ _ _⟩
  have hlt : id < s.store.closures.size := (Array.getElem?_eq_some_iff.mp hbefore).1
  change (s.store.closures.push _)[id]? = some before
  rw [Array.getElem?_push_lt hlt, ← hbefore, Array.getElem?_eq_getElem hlt]

/-- Parameters are bound in the frame of the call alone. -/
theorem bindAll_growing (frame : FrameId) (entries : List (Name × Value)) :
    (growing frame).Holds (Rules.bindAll frame entries) := by
  induction entries with
  | nil => exact fun s => ⟨(Stable.of_store rfl rfl).growsAt frame, rfl⟩
  | cons entry rest ih =>
      obtain ⟨name, value⟩ := entry
      intro s
      unfold Rules.bindAll
      rw [Eval.bind_apply, Eval.keyOf_apply]
      cases hkey : name.key? with
      | none => exact ⟨(Stable.of_store rfl rfl).growsAt frame, rfl⟩
      | some key =>
          have hset : (growing frame).Holds (Eval.onStore (·.set frame name value)) :=
            fun t => ⟨⟨_, [], fun id hid => if_neg fun h => hid h.1,
              State.Follows.set t frame value hkey⟩, rfl⟩
          exact Contract.Holds.bind (growing_growing frame) hset (fun _ => ih) s

/-- A body that is run in a frame lets that frame grow only. -/
theorem within_growing {action : Eval Unit} (frame : FrameId) (calls : Nat)
    (haction : contracts.statement.Holds action) :
    (growing frame).Holds (Eval.within frame calls action) := by
  intro s
  rw [Eval.within_apply]
  have henter : Stable s (Eval.entering s frame calls) :=
    ⟨[.entered frame], .of_store rfl Array.toList_push⟩
  have hleave : ∀ t, Stable t (Eval.leaving s calls t) := fun t => .of_store rfl rfl
  have hbody := haction (Eval.entering s frame calls)
  cases hrun : action (Eval.entering s frame calls) with
  | ok a t =>
      rw [hrun] at hbody
      exact ⟨((henter.growsAt frame).trans hbody.1).trans ((hleave t).growsAt frame), rfl⟩
  | error failure t =>
      rw [hrun] at hbody
      exact ⟨((henter.growsAt frame).trans hbody.1).trans ((hleave t).growsAt frame), rfl⟩

/-- A call adds no name to any frame that was there before: all that its body declares is in fresh
frames. -/
theorem invoke_stable {exec : Stmt → Eval Unit} (callee : Name) (closure : Closure)
    (values : List Value)
    (hbody : contracts.statement.Holds (Rules.sequence exec closure.body)) :
    stable.Holds (Rules.invoke exec callee closure values) := by
  intro s
  unfold Rules.invoke
  rw [Eval.bind_apply, Eval.newFrame_apply]
  apply allows_of_fresh
  have hstep := growing_growing s.store.frames.size
  have hweak := stable_growing s.store.frames.size
  refine Contract.Holds.bind hstep (bindAll_growing _ _) (fun _ => ?_) _
  refine .bind hstep ((record_stable _).weaken hweak) fun _ => ?_
  exact .bind hstep (within_growing _ _ hbody) fun _ => takePending_stable.weaken hweak

/-- A block adds no name to any frame that was there before. -/
theorem inChild_stable {action : Eval Unit} (name : String)
    (haction : contracts.statement.Holds action) : stable.Holds (Eval.inChild name action) := by
  intro s
  rw [Eval.inChild_apply]
  exact allows_of_fresh (within_growing _ _ haction _)

/-- The frame to assign in was found before the value was evaluated, and still binds the name. -/
theorem assign_stable {value : Eval Value} (name : Name) (hvalue : stable.Holds value) :
    stable.Holds (Rules.assign name value) := by
  intro s
  unfold Rules.assign
  rw [Eval.bind_apply, Eval.keyOf_apply]
  cases hkey : name.key? with
  | none => exact ⟨.of_store rfl rfl, rfl⟩
  | some key =>
      dsimp only
      rw [Eval.bind_apply, Eval.get_apply]
      dsimp only
      cases hfind : s.store.find? s.context.frame key with
      | none => exact ⟨.of_store rfl rfl, rfl⟩
      | some target =>
          have hlocal : s.store.hasLocal target key = true := by
            simpa using List.find?_some hfind
          have htarget : target < s.store.frames.size := by
            unfold Store.hasLocal at hlocal
            split at hlocal
            next frame hframe => exact (Array.getElem?_eq_some_iff.mp hframe).1
            next => cases hlocal
          dsimp only
          rw [Eval.bind_apply]
          have hstep := hvalue s
          cases hrun : value s with
          | error failure t =>
              rw [hrun] at hstep
              exact hstep
          | ok v t =>
              rw [hrun] at hstep
              have hbound : t.store.hasLocal target key = true := by
                rw [hstep.1.hasLocal key htarget, hlocal]
              have hset : Stable t { t with store := t.store.set target name v } := by
                refine ⟨[], (State.Follows.set t target v hkey).congr fun id _ => ?_⟩
                simp [hbound, noNames]
              exact ⟨hstep.1.trans hset, hstep.2⟩

theorem give_stable {value : Eval Value} (hvalue : stable.Holds value) :
    stable.Holds (Rules.give value) := by
  refine .bind stable_stable get_stable fun s => ?_
  split
  · exact fail_stable _
  · exact .bind stable_stable hvalue fun v => signal_stable v

/-- The name was not bound before the value was evaluated, and still is not. -/
theorem declare_declaring {value : Eval Value} (name : Name) (hvalue : stable.Holds value) :
    (declaring name).Holds (Rules.declare name value) := by
  intro s
  unfold Rules.declare
  rw [Eval.bind_apply, Eval.keyOf_apply]
  cases hkey : name.key? with
  | none => exact ⟨.of_store rfl rfl, rfl⟩
  | some key =>
      dsimp only
      rw [Eval.bind_apply, Eval.get_apply]
      dsimp only
      split
      · exact ⟨.of_store rfl rfl, rfl⟩
      next hlocal =>
        rw [Eval.bind_apply]
        have hstep := hvalue s
        cases hrun : value s with
        | error failure t =>
            rw [hrun] at hstep
            exact hstep
        | ok v t =>
            rw [hrun] at hstep
            obtain ⟨hstable, hframe⟩ := hstep
            obtain ⟨events, hfollows⟩ := id hstable
            refine ⟨⟨_, (hfollows.trans (.bindHere t v hkey)).congr fun id hid => ?_⟩, hframe,
              key, hkey, by simpa using hlocal⟩
            rw [hframe]
            by_cases heq : id = s.context.frame
            · subst heq
              rw [hstable.hasLocal key hid]
              simp [noNames, oneName, hlocal]
            · simp [noNames, oneName, heq]

/-- The rounds of a loop add no names, since each of them has a block of its own. -/
theorem repeated_stable {action next : Eval Unit} (haction : stable.Holds action)
    (hnext : stable.Holds next) : stable.Holds (do action; Eval.unlessReturning next) := by
  refine .bind stable_stable haction fun _ t => ?_
  rw [Eval.unlessReturning_apply]
  split
  · exact ⟨.of_store rfl rfl, rfl⟩
  · exact hnext t

theorem statement_statement : contracts.statement.Precedes contracts.statement where
  ok hst htu := (growing_growing _).ok hst (hst.2 ▸ htu)
  late hst htu := (growing_growing _).late hst (hst.2 ▸ htu)
  early := id

/-- Statements in a row let the current frame grow only. -/
theorem continued_growing {action next : Eval Unit} (haction : contracts.statement.Holds action)
    (hnext : contracts.statement.Holds next) :
    contracts.statement.Holds (do action; Eval.unlessReturning next) := by
  refine .bind statement_statement haction fun _ t => ?_
  rw [Eval.unlessReturning_apply]
  split
  · exact ⟨(Stable.of_store rfl rfl).growsAt _, rfl⟩
  · exact hnext t

/-- All rules let the store evolve as it may. -/
theorem kept : contracts.Kept where
  unchanged _ := ⟨.of_store rfl rfl, rfl⟩
  refused _ := ⟨.of_store rfl rfl, rfl⟩
  value_value := stable_stable
  value_effect := stable_stable
  effect_statement := stable_statement
  value_implies := ⟨id, id⟩
  record := record_stable
  emit _ _ := ⟨.of_store rfl rfl, rfl⟩
  newClosure := newClosure_stable
  invoke := invoke_stable
  inChild := inChild_stable
  assign := assign_stable
  give := give_stable
  declare name hvalue := (declare_declaring name hvalue).weaken (declaring_statement name)
  repeated := repeated_stable
  continued := continued_growing

/-- A declaration that succeeds adds its name, which was not bound; one that fails adds none. -/
theorem exec_declare (iterations depth : Nat) (span : Option Span) (name : Name) (value : Expr) :
    (declaring name).Holds (exec iterations depth (.declare span name value)) := by
  cases depth with
  | zero => exact fun s => ⟨.of_store rfl rfl, rfl⟩
  | succ depth => exact declare_declaring name (kept.eval iterations depth value)

/-- The names that a statement adds to the frames if it succeeds in a frame. -/
def declaredNames (frame : FrameId) : Stmt → FrameId → List Name
  | .declare _ name _ => oneName frame name
  | _ => noNames

/-- A statement other than a declaration adds no names. -/
theorem exec_effect_follows (iterations depth : Nat) (stmt : Stmt) (s : State)
    (hstmt : ∀ span name value, stmt ≠ .declare span name value) :
    (∀ t, exec iterations depth stmt s = .ok () t → ∃ events, s.Follows noNames events t) ∧
    ∀ failure t, exec iterations depth stmt s = .error failure t →
      ∃ events, s.Follows noNames events t := by
  have hstep := kept.exec_effect iterations depth stmt hstmt s
  refine ⟨fun t hrun => ?_, fun failure t hrun => ?_⟩
  · rw [hrun] at hstep
    exact hstep.1
  · rw [hrun] at hstep
    exact hstep.1

/-- What a statement adds if it succeeds and if it fails. -/
theorem exec_follows (iterations depth : Nat) (stmt : Stmt) (s : State) :
    (∀ t, exec iterations depth stmt s = .ok () t →
      ∃ events, s.Follows (declaredNames s.context.frame stmt) events t) ∧
    ∀ failure t, exec iterations depth stmt s = .error failure t →
      ∃ events, s.Follows noNames events t := by
  cases stmt with
  | declare span name value =>
      have hstep := exec_declare iterations depth span name value s
      refine ⟨fun t hrun => ?_, fun failure t hrun => ?_⟩
      · rw [hrun] at hstep
        exact hstep.1
      · rw [hrun] at hstep
        exact hstep.1
  | _ => exact exec_effect_follows iterations depth _ s fun _ _ _ heq => by cases heq

/-- A function literal succeeds. It makes a closure of its own parameters and body over the current
frame, in a place that no closure had, so that the closure is equal to none that was there. -/
theorem eval_function (iterations depth : Nat) (s : State) (span : Option Span)
    (parameters : List Name) (body : List Stmt) :
    ∃ id t, eval iterations (depth + 1) (.function span parameters body) s = .ok (.function id) t ∧
      t.store.closures[id]? = some { parameters, body, frame := s.context.frame } ∧
      s.store.closures.size ≤ id ∧
      ∀ old < s.store.closures.size, (Value.function id).strictEquals (.function old) = false := by
  refine ⟨s.store.closures.size, _, rfl, ?_, Nat.le_refl _, fun old hold => ?_⟩
  · exact Array.getElem?_push_size
  · exact beq_false_of_ne (Nat.ne_of_gt hold)

/-- How the store evolves under an expression or a statement, whatever its end: frames and closures
stay, only a declaration that succeeds adds a name, at the end of the current frame that did not
bind it, and only an absent name of a closure is ever filled in, by a declaration that binds the
closure. A function literal yields a closure of its code over the current frame, equal to none that
was there. -/
theorem store_evolution (iterations depth : Nat) (s : State) :
    (∀ e v t, eval iterations depth e s = .ok v t → ∃ events, s.Follows noNames events t) ∧
    (∀ e failure t, eval iterations depth e s = .error failure t →
      ∃ events, s.Follows noNames events t) ∧
    (∀ stmt t, exec iterations depth stmt s = .ok () t →
      ∃ events, s.Follows (declaredNames s.context.frame stmt) events t) ∧
    (∀ stmt failure t, exec iterations depth stmt s = .error failure t →
      ∃ events, s.Follows noNames events t) ∧
    (∀ span name value t, exec iterations depth (.declare span name value) s = .ok () t →
      ∃ key, name.key? = some key ∧ s.store.hasLocal s.context.frame key = false) ∧
    (∀ span parameters body, ∃ id t,
      eval iterations (depth + 1) (.function span parameters body) s = .ok (.function id) t ∧
        t.store.closures[id]? = some { parameters, body, frame := s.context.frame } ∧
        s.store.closures.size ≤ id ∧
        ∀ old < s.store.closures.size,
          (Value.function id).strictEquals (.function old) = false) := by
  refine ⟨fun e v t hrun => ?_, fun e failure t hrun => ?_,
    fun stmt => (exec_follows iterations depth stmt s).1,
    fun stmt => (exec_follows iterations depth stmt s).2,
    fun span name value t hrun => ?_, eval_function iterations depth s⟩
  · have hstep := kept.eval iterations depth e s
    rw [hrun] at hstep
    exact hstep.1
  · have hstep := kept.eval iterations depth e s
    rw [hrun] at hstep
    exact hstep.1
  · have hstep := exec_declare iterations depth span name value s
    rw [hrun] at hstep
    exact hstep.2.2

end Evolution

end Treewalk
