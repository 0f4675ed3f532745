import Treewalk.Proofs.Evaluation.Simulation

/-! # Evaluation stays within reach

From the current frame, evaluation can get at its ancestors, at the frames that closures bound there
captured, and so on. Frames out of reach are neither read nor written: their bindings have no say in
what an expression or a statement does, and are left as they are.
-/

namespace Treewalk

/-- The frames that can be reached from a frame: by going to a parent, or to the frame that a
closure captured which is bound in a frame already reached. -/
inductive Store.Reaches (store : Store) (start : FrameId) : FrameId → Prop where
  | here : Store.Reaches store start start
  | parent {id frame parent} : Store.Reaches store start id → store.frames[id]? = some frame →
      frame.parent = some parent → Store.Reaches store start parent
  | captured {id frame name closure c} : Store.Reaches store start id →
      store.frames[id]? = some frame → (name, .function closure) ∈ frame.bindings →
      store.closures[closure]? = some c → Store.Reaches store start c.frame

/-- What a context can get at: the frames that can be reached from its current frame and, while the
return of a closure is under way, from the frame that this closure captured. A call that is made
meanwhile takes the closure over. -/
def State.Reaches (s : State) (id : FrameId) : Prop :=
  s.store.Reaches s.context.frame id ∨
    ∃ closure c, s.context.pending = some (.function closure) ∧
      s.store.closures[closure]? = some c ∧ s.store.Reaches c.frame id

namespace State.Reaches

variable {s : State} {id : FrameId} {frame : Frame}

/-- The parent of a frame within reach is within reach. -/
theorem parent {parent : FrameId} (h : s.Reaches id) (hframe : s.store.frames[id]? = some frame)
    (hparent : frame.parent = some parent) : s.Reaches parent := by
  rcases h with hcurrent | ⟨closure, c, hpending, hc, hreaches⟩
  · exact .inl (hcurrent.parent hframe hparent)
  · exact .inr ⟨closure, c, hpending, hc, hreaches.parent hframe hparent⟩

/-- The frame of a closure that is bound within reach is within reach. -/
theorem captured {name : Name} {closure : ClosureId} {c : Closure} (h : s.Reaches id)
    (hframe : s.store.frames[id]? = some frame) (hmem : (name, .function closure) ∈ frame.bindings)
    (hc : s.store.closures[closure]? = some c) : s.Reaches c.frame := by
  rcases h with hcurrent | ⟨returned, d, hpending, hd, hreaches⟩
  · exact .inl (hcurrent.captured hframe hmem hc)
  · exact .inr ⟨returned, d, hpending, hd, hreaches.captured hframe hmem hc⟩

end State.Reaches

/-- Without a return under way, it is the current frame alone that reaches others. -/
theorem State.reaches_iff_of_not_returning {s : State} (h : s.context.pending = none)
    (id : FrameId) : s.Reaches id ↔ s.store.Reaches s.context.frame id := by
  simp [State.Reaches, h]

/-- The same frames and closures, where only the bindings of frames out of reach may differ. -/
structure State.SameWithin (s : State) (other : Store) : Prop where
  frameCount : other.frames.size = s.store.frames.size
  closures : other.closures = s.store.closures
  frames : ∀ {id : FrameId} {f g}, s.store.frames[id]? = some f → other.frames[id]? = some g →
    g.name = f.name ∧ g.parent = f.parent ∧ (s.Reaches id → g.bindings = f.bindings)

namespace Locality

/-- Two evaluations have gone on from two states alike. Their contexts, and what was printed with
them, are the same; so are all closures, and all frames that were within reach or are new. The other
frames are as they were in each of the two states. -/
structure Alongside (s t s' t' : State) : Prop where
  context : t'.context = s'.context
  closures : t'.store.closures = s'.store.closures
  within : ∀ id, s.Reaches id ∨ s.store.frames.size ≤ id →
    t'.store.frames[id]? = s'.store.frames[id]?
  left : ∀ id < s.store.frames.size, ¬ s.Reaches id →
    s'.store.frames[id]? = s.store.frames[id]?
  right : ∀ id < s.store.frames.size, ¬ s.Reaches id →
    t'.store.frames[id]? = t.store.frames[id]?

/-- The same end of two evaluations that were started in two states: the same result, or the same
failure. -/
inductive SameEnds {α : Type} (s t : State) :
    EStateM.Result Failure State α → EStateM.Result Failure State α → Prop where
  | ok {a s' t'} : Alongside s t s' t' → SameEnds s t (.ok a s') (.ok a t')
  | error {failure s' t'} : Alongside s t s' t' →
      SameEnds s t (.error failure s') (.error failure t')

/-- What is out of sight of a state: the frames out of reach, and the closures over them. -/
def outOfReach (s : State) : Slack where
  like := .same
  frames id := id < s.store.frames.size ∧ ¬ s.Reaches id
  closures id := ∃ c, s.store.closures[id]? = some c ∧
    c.frame < s.store.frames.size ∧ ¬ s.Reaches c.frame

variable {s : State} {other : Store}

/-- A frame of the store that is not out of reach is within reach. -/
theorem reaches_of_inSight {id : FrameId} {frame : Frame} (hid : ¬ (outOfReach s).frames id)
    (hframe : s.store.frames[id]? = some frame) : s.Reaches id := by
  have hlt : id < s.store.frames.size := (Array.getElem?_eq_some_iff.mp hframe).1
  by_contra hnot
  exact hid ⟨hlt, hnot⟩

/-- A closure whose frame is within reach is in sight. -/
theorem sees_of_reaches {v : Value}
    (h : ∀ id c, v = .function id → s.store.closures[id]? = some c →
      s.Reaches c.frame) : (outOfReach s).Sees v := by
  cases v with
  | number x => trivial
  | boolean b => trivial
  | function id =>
      rintro ⟨c, hc, _, hnot⟩
      exact hnot (h id c rfl hc)

theorem agree_of_sees {v : Value} (h : (outOfReach s).Sees v) : (outOfReach s).Agree v v :=
  ⟨.refl (fun _ => rfl) v, h⟩

/-- Bindings within reach lead only to what is within reach. -/
theorem entries_of_reaches {id : FrameId} {frame : Frame}
    (hreaches : s.Reaches id) (hframe : s.store.frames[id]? = some frame) :
    (outOfReach s).Entries frame.bindings frame.bindings := by
  apply List.forall₂_same.mpr
  intro entry hentry
  refine ⟨rfl, agree_of_sees (sees_of_reaches fun closure c hvalue hc => ?_)⟩
  obtain ⟨name, v⟩ := entry
  cases hvalue
  exact hreaches.captured hframe hentry hc

/-- Two states whose stores are the same within reach pass for each other. -/
theorem tied (hsame : s.SameWithin other) :
    Tied (outOfReach s) s { s with store := other } where
  frame := rfl
  callDepth := rfl
  pending := by
    change Option.Rel _ s.context.pending s.context.pending
    cases hvalue : s.context.pending with
    | none => exact .none
    | some v =>
        refine .some (agree_of_sees (sees_of_reaches fun id c heq hc => ?_))
        exact .inr ⟨id, c, hvalue.trans (congrArg some heq), hc, .here⟩
  printed := List.forall₂_same.mpr fun v _ => .refl (fun _ => rfl) v
  frameCount := hsame.frameCount
  frames := by
    intro id
    change Option.Rel _ s.store.frames[id]? other.frames[id]?
    cases hs : s.store.frames[id]? with
    | none =>
        have hsize : other.frames.size ≤ id := by
          rw [hsame.frameCount]
          exact Array.getElem?_eq_none_iff.mp hs
        rw [Array.getElem?_eq_none_iff.mpr hsize]
        exact .none
    | some f =>
        have hlt : id < other.frames.size := by
          rw [hsame.frameCount]
          exact (Array.getElem?_eq_some_iff.mp hs).1
        rw [Array.getElem?_eq_getElem hlt]
        obtain ⟨hname, hparent, hbindings⟩ := hsame.frames hs (Array.getElem?_eq_getElem hlt)
        refine .some ⟨hname, hparent, fun hid => ?_⟩
        have hreaches := reaches_of_inSight hid hs
        rw [hbindings hreaches]
        exact entries_of_reaches hreaches hs
  closureCount := by rw [hsame.closures]
  closures := by
    intro id
    rw [hsame.closures]
    cases s.store.closures[id]? with
    | none => exact .none
    | some c => exact .some ⟨rfl, .refl Likeness.same_reflexive c.body, rfl, rfl⟩
  oldFrames id hid := hid.1
  oldClosures := by
    rintro id ⟨c, hc, _⟩
    exact (Array.getElem?_eq_some_iff.mp hc).1
  current hcurrent := hcurrent.2 (.inl .here)
  parents := by
    intro id frame parent hid hframe hparent hnot
    exact hnot.2 ((reaches_of_inSight hid hframe).parent hframe hparent)
  captured := by
    intro id closure hid hclosure hframe
    exact hid ⟨closure, hclosure, hframe⟩

/-- States that pass for each other are the same within reach. -/
theorem alongside_of_goesOn {t s' t' : State} (h : (outOfReach s).GoesOn s t s' t') :
    Alongside s t s' t' where
  context := h.tied.context_eq rfl
  closures := by
    apply Array.ext_getElem?
    intro id
    rcases h.tied.closure_cases id with ⟨hs, ht⟩ | ⟨c, d, hs, ht, halike⟩
    · rw [hs, ht]
    · rw [hs, ht, halike.eq rfl]
  within := by
    intro id hwithin
    have hid : ¬ (outOfReach s).frames id := by
      rintro ⟨hlt, hnot⟩
      rcases hwithin with hreaches | hnew
      · exact hnot hreaches
      · exact Nat.not_lt.mpr hnew hlt
    rcases h.tied.frame_cases id with ⟨hs, ht⟩ | ⟨f, g, hs, ht, halike⟩
    · rw [hs, ht]
    · rw [hs, ht, halike.eq rfl hid]
  left id hlt hnot := h.left id ⟨hlt, hnot⟩
  right id hlt hnot := h.right id ⟨hlt, hnot⟩

/-- Evaluations that go along with each other, with the same results, end in the same way. -/
theorem sameEnds_of_ends {α : Type} {post : α → α → Prop} {t : State}
    {r r' : EStateM.Result Failure State α} (hpost : ∀ a b, post a b → b = a)
    (h : (outOfReach s).Ends post s t r r') : SameEnds s t r r' := by
  cases h with
  | ok hab hgoes =>
      rw [hpost _ _ hab]
      exact .ok (alongside_of_goesOn hgoes)
  | error hgoes => exact .error (alongside_of_goesOn hgoes)

/-- Evaluation is local. Take two stores with the same frames and closures that differ only in the
bindings of frames out of reach. Every expression and every statement then ends in the same way in
both, at every limit: with the same value or the same failure, the same output, the same bindings in
all frames that were within reach or are new, and with the bindings of all other frames left alone.
-/
theorem same_within_reach (iterations depth : Nat) (s : State) (other : Store)
    (hsame : s.SameWithin other) :
    (∀ e, SameEnds s { s with store := other } (eval iterations depth e s)
      (eval iterations depth e { s with store := other })) ∧
    ∀ stmt, SameEnds s { s with store := other } (exec iterations depth stmt s)
      (exec iterations depth stmt { s with store := other }) := by
  have hlawful : (outOfReach s).Lawful := .of_eq rfl
  obtain ⟨heval, hexec⟩ := Slack.simulates_eval_exec hlawful iterations depth
  refine ⟨fun e => ?_, fun stmt => ?_⟩
  · have halike := Expr.Alike.refl Likeness.same_reflexive e
    exact sameEnds_of_ends (fun a b hagree => hagree.1.eq rfl) (heval e e halike s _ (tied hsame))
  · have halike := Stmt.Alike.refl Likeness.same_reflexive stmt
    exact sameEnds_of_ends (fun _ _ _ => rfl) (hexec stmt stmt halike s _ (tied hsame))

/-- A top level that binds a truth value `x` and a function `f` that returns it, and below it a
block that shadows `x`. -/
def shadowed (inner : Bool) : Store where
  frames := #[
    { name := "global", bindings := [(.text "x", .boolean true), (.text "f", .function 0)] },
    { name := "if-then", parent := some 0, bindings := [(.text "x", .boolean inner)] }]
  closures := #[
    { parameters := [], body := [.give none (.variable none (.text "x"))], frame := 0 }]

/-- From the top level, the block is out of reach. -/
theorem eq_zero_of_reaches_shadowed {inner : Bool} {id : FrameId}
    (h : (shadowed inner).Reaches 0 id) : id = 0 := by
  induction h with
  | here => rfl
  | parent _ hframe hparent ih =>
      subst ih
      cases hframe
      cases hparent
  | @captured _ _ name closure _ _ hframe hmem hc ih =>
      subst ih
      cases hframe
      have hf : name = .text "f" ∧ closure = 0 := by simpa [shadowed] using hmem
      rw [hf.2] at hc
      cases hc
      rfl

theorem shadowed_sameWithin :
    State.SameWithin { store := shadowed true, context := { frame := 0 } } (shadowed false) where
  frameCount := rfl
  closures := rfl
  frames := by
    intro id f g hf hg
    match id with
    | 0 => cases hf; cases hg; exact ⟨rfl, rfl, fun _ => rfl⟩
    | 1 =>
        cases hf
        cases hg
        refine ⟨rfl, rfl, fun hreaches => ?_⟩
        rw [State.reaches_iff_of_not_returning rfl] at hreaches
        exact absurd (eq_zero_of_reaches_shadowed hreaches) Nat.one_ne_zero
    | id + 2 => simp [shadowed] at hf

/-- A call of the function from the top level does not see what the block binds. -/
theorem same_within_reach_shadowed :
    let s : State := { store := shadowed true, context := { frame := 0 } }
    let call : Expr := .call none (.text "f") []
    s.SameWithin (shadowed false) ∧
      SameEnds s { s with store := shadowed false } (eval 1 4 call s)
        (eval 1 4 call { s with store := shadowed false }) ∧
      ∃ t, eval 1 4 call s = .ok (.boolean true) t := by
  intro s call
  refine ⟨shadowed_sameWithin, ?_, _, rfl⟩
  exact (same_within_reach 1 4 s (shadowed false) shadowed_sameWithin).1 call

end Locality

end Treewalk
