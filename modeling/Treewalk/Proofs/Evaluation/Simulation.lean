import Treewalk.Proofs.Evaluation.Alike

/-! # Two evaluations side by side

Programs that are alike, run from states that pass for each other, end in the same way and in states
that pass for each other again; what is out of sight stays as it was. Each rule of evaluation is
shown to go along with this if its parts do, and the induction is on the nesting depth.
-/

namespace Treewalk

namespace Slack

variable {α β γ δ : Type}

/-- The frames out of sight are as they were. -/
def Untouched (slack : Slack) (s s' : State) : Prop :=
  ∀ id : FrameId, slack.frames id → s'.store.frames[id]? = s.store.frames[id]?

/-- Two evaluations have gone on, side by side, from two states to two others. -/
structure GoesOn (slack : Slack) (s t s' t' : State) : Prop where
  tied : Tied slack s' t'
  left : slack.Untouched s s'
  right : slack.Untouched t t'

/-- How two actions may end that were started in two states: with results that are related, or in
the same failure. -/
inductive Ends (slack : Slack) (post : α → β → Prop) (s t : State) :
    EStateM.Result Failure State α → EStateM.Result Failure State β → Prop where
  | ok {a b s' t'} : post a b → slack.GoesOn s t s' t' → Ends slack post s t (.ok a s') (.ok b t')
  | error {failure s' t'} : slack.GoesOn s t s' t' →
      Ends slack post s t (.error failure s') (.error failure t')

/-- Two actions go along with each other from all states that pass for each other. -/
def Simulates (slack : Slack) (post : α → β → Prop) (action : Eval α) (action' : Eval β) : Prop :=
  ∀ s t, Tied slack s t → slack.Ends post s t (action s) (action' t)

def Follows (slack : Slack) (action action' : Eval Unit) : Prop :=
  slack.Simulates (fun _ _ => True) action action'

variable {slack : Slack} {s t s' t' : State} {post : α → β → Prop} {post' : γ → δ → Prop}

theorem GoesOn.of_store (h : Tied slack s' t') (hs : s'.store = s.store)
    (ht : t'.store = t.store) : slack.GoesOn s t s' t' := by
  refine ⟨h, fun id _ => ?_, fun id _ => ?_⟩
  · rw [hs]
  · rw [ht]

theorem GoesOn.trans {s'' t'' : State} (h : slack.GoesOn s t s' t')
    (h' : slack.GoesOn s' t' s'' t'') : slack.GoesOn s t s'' t'' where
  tied := h'.tied
  left id hid := (h'.left id hid).trans (h.left id hid)
  right id hid := (h'.right id hid).trans (h.right id hid)

/-- How two actions end can be said of earlier states, from which evaluations have gone on. -/
theorem Ends.after {r : EStateM.Result Failure State α} {r' : EStateM.Result Failure State β}
    (hends : slack.Ends post s' t' r r') (h : slack.GoesOn s t s' t') :
    slack.Ends post s t r r' := by
  cases hends with
  | ok hpost hgoes => exact .ok hpost (h.trans hgoes)
  | error hgoes => exact .error (h.trans hgoes)

theorem simulates_pure {a : α} {b : β} (hpost : post a b) :
    slack.Simulates post (pure a) (pure b) :=
  fun _ _ h => .ok hpost (.of_store h rfl rfl)

theorem simulates_throw (failure : Failure) :
    slack.Simulates post (throw failure) (throw failure) :=
  fun _ _ h => .error (.of_store h rfl rfl)

theorem simulates_fail (e : RuntimeError) :
    slack.Simulates post (Eval.fail e) (Eval.fail e) := simulates_throw _

/-- Actions one after the other go along with each other if the first do, and the second do on
related results. -/
theorem Simulates.bind {action : Eval α} {action' : Eval β} {next : α → Eval γ}
    {next' : β → Eval δ} (hfirst : slack.Simulates post action action')
    (hnext : ∀ a b, post a b → slack.Simulates post' (next a) (next' b)) :
    slack.Simulates post' (action >>= next) (action' >>= next') := by
  intro s t h
  have hends := hfirst s t h
  rw [Eval.bind_apply, Eval.bind_apply]
  generalize action s = r, action' t = r' at hends
  cases hends with
  | ok hpost hgoes => exact (hnext _ _ hpost _ _ hgoes.tied).after hgoes
  | error hgoes => exact .error hgoes

/-- An action that begins by looking at the state. -/
theorem simulates_get {next : State → Eval α} {next' : State → Eval β}
    (hnext : ∀ s t, Tied slack s t → slack.Ends post s t (next s s) (next' t t)) :
    slack.Simulates post (get >>= next) (get >>= next') := by
  intro s t h
  rw [Eval.bind_apply, Eval.bind_apply]
  exact hnext s t h

/-- Two results found in the states alone. -/
theorem Ends.settle {r : Except Failure α} {r' : Except Failure β} (h : Tied slack s t)
    (hsame : SameEnd post r r') :
    slack.Ends post s t (Reference.settle s r) (Reference.settle t r') := by
  cases hsame with
  | ok hpost => exact .ok hpost (.of_store h rfl rfl)
  | error => exact .error (.of_store h rfl rfl)

end Slack

namespace Tied

variable {slack : Slack} {s t : State} {id : FrameId} {v w : Value}

/-- Values that agree may be bound to a name in a frame in sight. -/
theorem set (h : Tied slack s t) (hid : ¬ slack.frames id) (name : Name)
    (hvalue : slack.Agree v w) :
    Tied slack { s with store := s.store.set id name v }
      { t with store := t.store.set id name w } where
  frame := h.frame
  callDepth := h.callDepth
  pending := h.pending
  printed := h.printed
  frameCount := by simpa [Store.set] using h.frameCount
  frames := by
    intro other
    simp only [Store.set, Array.getElem?_modify]
    rcases h.frame_cases other with ⟨hs, ht⟩ | ⟨f, g, hs, ht, halike⟩
    · rw [hs, ht]
      split <;> exact .none
    · rw [hs, ht]
      split
      next heq =>
        subst heq
        exact .some ⟨halike.name, halike.parent,
          fun _ => (halike.bindings hid).set name hvalue⟩
      · exact .some halike
  closureCount := h.closureCount
  closures := h.closures
  oldFrames := by simpa [Store.set] using h.oldFrames
  oldClosures := h.oldClosures
  current := h.current
  parents := by
    intro other frame parent hother hframe hparent
    simp only [Store.set, Array.getElem?_modify] at hframe
    split at hframe
    next heq =>
      obtain ⟨before, hbefore, rfl⟩ := Option.map_eq_some_iff.mp hframe
      exact h.parents other before parent hother hbefore hparent
    · exact h.parents other frame parent hother hframe hparent
  captured := h.captured

/-- Naming a closure keeps closures alike. -/
theorem nameValue (h : Tied slack s t) (name : Name) (hvalue : slack.Agree v w) :
    Tied slack { s with store := s.store.nameValue name v }
      { t with store := t.store.nameValue name w } := by
  obtain ⟨halike, _⟩ := hvalue
  cases halike with
  | number _ => exact h
  | boolean => exact h
  | @function named =>
      refine { h with closureCount := ?_, closures := ?_, oldClosures := ?_, captured := ?_ }
      · simpa [Store.nameValue, Store.nameClosure] using h.closureCount
      · intro other
        simp only [Store.nameValue, Store.nameClosure, Array.getElem?_modify]
        rcases h.closure_cases other with ⟨hs, ht⟩ | ⟨c, d, hs, ht, hclosures⟩
        · rw [hs, ht]
          split <;> exact .none
        · rw [hs, ht]
          split
          · refine .some ?_
            simp only [hclosures.name]
            split
            · exact ⟨hclosures.parameters, hclosures.body, hclosures.frame, rfl⟩
            · exact hclosures
          · exact .some hclosures
      · simpa [Store.nameValue, Store.nameClosure] using h.oldClosures
      · intro other closure hother hclosure
        simp only [Store.nameValue, Store.nameClosure, Array.getElem?_modify] at hclosure
        split at hclosure
        · obtain ⟨before, hbefore, rfl⟩ := Option.map_eq_some_iff.mp hclosure
          have hframe := h.captured other before hother hbefore
          split <;> exact hframe
        · exact h.captured other closure hother hclosure

/-- A fresh frame is in sight. -/
theorem fresh_frame (h : Tied slack s t) : ¬ slack.frames s.store.frames.size :=
  fun hsize => Nat.lt_irrefl _ (h.oldFrames _ hsize)

/-- A frame below one in sight is added on both sides, and is in sight. -/
theorem addFrame (h : Tied slack s t) (name : String) {parent : FrameId}
    (hparent : ¬ slack.frames parent) :
    Tied slack (Eval.withFrame s name parent) (Eval.withFrame t name parent) where
  frame := h.frame
  callDepth := h.callDepth
  pending := h.pending
  printed := h.printed
  frameCount := by simp [Eval.withFrame, Store.addFrame, h.frameCount]
  frames := by
    intro id
    simp only [Eval.withFrame, Store.addFrame, Array.getElem?_push, h.frameCount]
    split
    · exact .some ⟨rfl, rfl, fun _ => .nil⟩
    · exact h.frames id
  closureCount := h.closureCount
  closures := h.closures
  oldFrames := by
    intro id hid
    simp only [Eval.withFrame, Store.addFrame, Array.size_push]
    exact Nat.lt_succ_of_lt (h.oldFrames id hid)
  oldClosures := h.oldClosures
  current := h.current
  parents := by
    intro id frame above hid hframe habove
    simp only [Eval.withFrame, Store.addFrame, Array.getElem?_push] at hframe
    split at hframe
    · cases hframe
      cases habove
      exact hparent
    · exact h.parents id frame above hid hframe habove
  captured := h.captured

end Tied

namespace Slack

variable {α β : Type} {slack : Slack} {post : α → β → Prop}

theorem follows_record (event event' : Event) :
    slack.Follows (Eval.record event) (Eval.record event') :=
  fun _ _ h => .ok trivial (.of_store { h with frame := h.frame } rfl rfl)

theorem follows_emit {v w : Value} (hvalue : slack.Agree v w) :
    slack.Follows (Eval.emit v) (Eval.emit w) := by
  intro s t h
  refine .ok trivial (.of_store { h with printed := ?_ } rfl rfl)
  simp only [Array.toList_push]
  exact List.rel_append h.printed (.cons hvalue.1 .nil)

theorem follows_signal {v w : Value} (hvalue : slack.Agree v w) :
    slack.Follows (Eval.signal v) (Eval.signal w) :=
  fun _ _ h => .ok trivial (.of_store { h with pending := .some hvalue } rfl rfl)

theorem simulates_takePending :
    slack.Simulates (Option.Rel slack.Agree) Eval.takePending Eval.takePending :=
  fun _ _ h => .ok h.pending (.of_store { h with pending := .none } rfl rfl)

theorem simulates_keyOf (name : Name) :
    slack.Simulates (fun _ _ => True) (Eval.keyOf name) (Eval.keyOf name) := by
  intro s t h
  rw [Eval.keyOf_apply, Eval.keyOf_apply]
  cases name.key? with
  | none => exact .error (.of_store h rfl rfl)
  | some key => exact .ok trivial (.of_store h rfl rfl)

/-- What a name is bound to agrees on both sides. -/
theorem simulates_lookup (name : Name) :
    slack.Simulates slack.Agree (Eval.lookup name) (Eval.lookup name) := by
  intro s t h
  rw [Reference.lookup_apply, Reference.lookup_apply, h.frame]
  exact .settle h (h.lookup_sameEnd h.current name)

theorem simulates_newFrame (name : String) {parent : FrameId} (hparent : ¬ slack.frames parent) :
    slack.Simulates (fun id id' => id' = id ∧ ¬ slack.frames id) (Eval.newFrame name parent)
      (Eval.newFrame name parent) := by
  intro s t h
  rw [Eval.newFrame_apply, Eval.newFrame_apply]
  refine .ok ⟨h.frameCount, h.fresh_frame⟩ ⟨h.addFrame name hparent, ?_, ?_⟩
  · intro id hid
    have hlt := h.oldFrames id hid
    simp only [Eval.withFrame, Store.addFrame, Array.getElem?_push]
    rw [if_neg (Nat.ne_of_lt hlt)]
  · intro id hid
    have hlt := h.oldFrames id hid
    simp only [Eval.withFrame, Store.addFrame, Array.getElem?_push, h.frameCount]
    rw [if_neg (Nat.ne_of_lt hlt)]

/-- Closures of bodies that are alike have the same place on both sides. -/
theorem simulates_newClosure (parameters : List Name) {body body' : List Stmt}
    (hbody : Stmt.AllAlike slack.like body body') :
    slack.Simulates slack.Agree (Eval.newClosure parameters body)
      (Eval.newClosure parameters body') := by
  intro s t h
  have hfresh : ¬ slack.closures s.store.closures.size :=
    fun hsize => Nat.lt_irrefl _ (h.oldClosures _ hsize)
  have hvalue : slack.Agree (.function s.store.closures.size)
      (.function t.store.closures.size) := by
    rw [h.closureCount]
    exact ⟨.function, hfresh⟩
  refine .ok hvalue ⟨{ h with
    closureCount := ?_, closures := ?_, oldClosures := ?_, captured := ?_ }, fun _ _ => rfl,
    fun _ _ => rfl⟩
  · simp [h.closureCount]
  · intro id
    simp only [Array.getElem?_push, h.closureCount]
    split
    · exact .some ⟨rfl, hbody, h.frame, rfl⟩
    · exact h.closures id
  · intro id hid
    simp only [Array.size_push]
    exact Nat.lt_succ_of_lt (h.oldClosures id hid)
  · intro id closure hid hclosure
    simp only [Array.getElem?_push] at hclosure
    split at hclosure
    · cases hclosure
      exact h.current
    · exact h.captured id closure hid hclosure

/-- Binding a name in a frame in sight touches nothing out of sight. -/
theorem untouched_set {id : FrameId} (hid : ¬ slack.frames id) (s : State) (name : Name)
    (v : Value) : slack.Untouched s { s with store := s.store.set id name v } := by
  intro other hother
  simp only [Store.set, Array.getElem?_modify]
  rw [if_neg]
  rintro rfl
  exact hid hother

/-- A frame in sight is bound to values that agree. -/
theorem follows_set {id : FrameId} (hid : ¬ slack.frames id) (name : Name) {v w : Value}
    (hvalue : slack.Agree v w) :
    slack.Follows (Eval.onStore (·.set id name v)) (Eval.onStore (·.set id name w)) :=
  fun s t h => .ok trivial
    ⟨h.set hid name hvalue, untouched_set hid s name v, untouched_set hid t name w⟩

theorem follows_bindHere (name : Name) {v w : Value} (hvalue : slack.Agree v w) :
    slack.Follows (Rules.bindHere name v) (Rules.bindHere name w) := by
  refine simulates_get fun s t h => ?_
  rw [h.frame]
  -- Naming the closure changes no frame.
  have hframes : ∀ (u : State) x,
      slack.Untouched u { u with store := u.store.nameValue name x } := by
    intro u x id _
    cases x <;> rfl
  have hgoes : slack.GoesOn s t
      { s with store := (s.store.nameValue name v).set s.context.frame name v }
      { t with store := (t.store.nameValue name w).set s.context.frame name w } := by
    refine ⟨(h.nameValue name hvalue).set h.current name hvalue, fun id hid => ?_,
      fun id hid => ?_⟩
    · exact (untouched_set h.current _ name v id hid).trans (hframes s v id hid)
    · exact (untouched_set h.current _ name w id hid).trans (hframes t w id hid)
  exact (follows_record _ _ _ _ hgoes.tied).after hgoes

theorem follows_bindAll {id : FrameId} (hid : ¬ slack.frames id)
    {entries entries' : List (Name × Value)} (hentries : slack.Entries entries entries') :
    slack.Follows (Rules.bindAll id entries) (Rules.bindAll id entries') := by
  induction hentries with
  | nil => exact simulates_pure trivial
  | @cons entry entry' rest rest' hentry _ ih =>
      obtain ⟨name, v⟩ := entry
      obtain ⟨_, w⟩ := entry'
      obtain ⟨rfl, hvalue⟩ := hentry
      refine (simulates_keyOf _).bind fun _ _ _ => ?_
      exact (follows_set hid _ hvalue).bind fun _ _ _ => ih

/-- The frame and the count of calls are changed and changed back in the same way on both sides. -/
theorem simulates_within {frame : FrameId} (hframe : ¬ slack.frames frame) (calls : Nat)
    {action : Eval α} {action' : Eval β} (haction : slack.Simulates post action action') :
    slack.Simulates post (Eval.within frame calls action)
      (Eval.within frame calls action') := by
  intro s t h
  rw [Eval.within_apply, Eval.within_apply]
  have hinner : Tied slack (Eval.entering s frame calls) (Eval.entering t frame calls) :=
    { h with
      frame := rfl
      callDepth := congrArg (· + calls) h.callDepth
      current := hframe }
  have hleave : ∀ {s' t'}, Tied slack s' t' →
      Tied slack (Eval.leaving s calls s') (Eval.leaving t calls t') := fun h' =>
    { h' with
      frame := h.frame
      callDepth := congrArg (· - calls) h'.callDepth
      current := h.current }
  have hends := haction _ _ hinner
  generalize action (Eval.entering s frame calls) = r,
    action' (Eval.entering t frame calls) = r' at hends
  cases hends with
  | ok hpost hgoes => exact .ok hpost ⟨hleave hgoes.tied, hgoes.left, hgoes.right⟩
  | error hgoes => exact .error ⟨hleave hgoes.tied, hgoes.left, hgoes.right⟩

theorem simulates_inChild (name : String) {action : Eval α} {action' : Eval β}
    (haction : slack.Simulates post action action') :
    slack.Simulates post (Eval.inChild name action) (Eval.inChild name action') := by
  refine simulates_get fun s t h => ?_
  rw [h.frame]
  refine (simulates_newFrame name h.current).bind ?_ s t h
  rintro id _ ⟨rfl, hid⟩
  exact simulates_within hid _ haction

/-- An action that goes on only if no return is under way. -/
theorem follows_unlessReturning {action action' : Eval Unit}
    (haction : slack.Follows action action') :
    slack.Follows (Eval.unlessReturning action) (Eval.unlessReturning action') := by
  intro s t h
  rw [Eval.unlessReturning_apply, Eval.unlessReturning_apply]
  have hpending : t.context.pending.isSome = s.context.pending.isSome := by
    have hrel := h.pending
    generalize s.context.pending = v, t.context.pending = w at hrel
    cases hrel <;> rfl
  simp only [hpending]
  split
  · exact .ok trivial (.of_store h rfl rfl)
  · exact haction s t h

section Rules

variable {eval eval' : Expr → Eval Value} {exec exec' : Stmt → Eval Unit}

/-- No operator on numbers yields a function. -/
theorem sees_of_operate {operator : Operator} {a b v : Value}
    (h : Rules.operate operator a b = .ok v) : slack.Sees v := by
  unfold Rules.operate at h
  split at h
  · unfold Rules.arithmetic at h
    split at h
    case h_4 =>
      split at h
      · cases h
      · cases h
        trivial
    all_goals
      cases h
      trivial
  · cases h

section Operators

variable (hlawful : slack.Lawful) {left left' right right' : Eval Value}
  (hleft : slack.Simulates slack.Agree left left')
  (hright : slack.Simulates slack.Agree right right')

include hleft hright

/-- A logical operator decides in the same way on values that agree. -/
theorem simulates_logical (operator : Operator) (decides : Bool) :
    slack.Simulates slack.Agree (Rules.logical operator decides left right)
      (Rules.logical operator decides left' right') := by
  refine hleft.bind ?_
  rintro v w ⟨halike, _⟩
  cases halike with
  | number _ => exact simulates_fail _
  | boolean =>
      dsimp only
      split
      · exact simulates_pure ⟨.boolean, trivial⟩
      · exact hright
  | function => exact simulates_fail _

include hlawful

/-- Values that agree are equal to the same values. -/
theorem simulates_strictEquals :
    slack.Simulates slack.Agree
      (do let a ← left; let b ← right; pure (.boolean (a.strictEquals b)))
      (do let a ← left'; let b ← right'; pure (.boolean (a.strictEquals b))) := by
  refine hleft.bind fun a x hax => ?_
  refine hright.bind fun b y hby => simulates_pure ?_
  have hequal : x.strictEquals y = a.strictEquals b := by
    rcases hax with ⟨hax | _ | _, _⟩ <;> rcases hby with ⟨hby | _ | _, _⟩ <;>
      first
        | rfl
        | exact hlawful.equal hax hby
  rw [hequal]
  exact ⟨.boolean, trivial⟩

theorem simulates_operate (operator : Operator) :
    slack.Simulates slack.Agree
      (do let a ← left; let b ← right; Eval.ofExcept (Rules.operate operator a b))
      (do let a ← left'; let b ← right'; Eval.ofExcept (Rules.operate operator a b)) := by
  refine hleft.bind fun a x hax => ?_
  refine hright.bind fun b y hby => ?_
  -- Only two numbers get as far as arithmetic; all other operands are refused by their kinds.
  have hsame : SameEnd (Value.Alike slack.like) (Rules.operate operator a b)
      (Rules.operate operator x y) := by
    rcases hax with ⟨hax | _ | _, _⟩ <;> rcases hby with ⟨hby | _ | _, _⟩ <;>
      first
        | exact hlawful.arithmetic hax hby
        | exact .error
  have hsees : ∀ v, Rules.operate operator a b = .ok v → slack.Sees v := fun v => sees_of_operate
  generalize Rules.operate operator a b = r, Rules.operate operator x y = r' at hsame hsees
  cases hsame with
  | ok halike => exact simulates_pure ⟨halike, hsees _ rfl⟩
  | error => exact simulates_fail _

theorem simulates_binary (operator : Operator) :
    slack.Simulates slack.Agree (Rules.binary operator left right)
      (Rules.binary operator left' right') := by
  unfold Rules.binary
  cases operator with
  | and => exact simulates_logical hleft hright _ _
  | or => exact simulates_logical hleft hright _ _
  | strictEqual => exact simulates_strictEquals hlawful hleft hright
  | _ => exact simulates_operate hlawful hleft hright _

end Operators

variable (heval : ∀ e e', Expr.Alike slack.like e e' →
    slack.Simulates slack.Agree (eval e) (eval' e'))
  (hexec : ∀ stmt stmt', Stmt.Alike slack.like stmt stmt' →
    slack.Follows (exec stmt) (exec' stmt'))

include hexec in
/-- Statements that are alike one by one are cut off by a return at the same place. -/
theorem follows_sequence {stmts stmts' : List Stmt}
    (halike : Stmt.AllAlike slack.like stmts stmts') :
    slack.Follows (Rules.sequence exec stmts) (Rules.sequence exec' stmts') := by
  induction stmts generalizing stmts' with
  | nil =>
      cases halike
      exact simulates_pure trivial
  | cons stmt rest ih =>
      cases halike with
      | cons hstmt hrest =>
          exact (hexec _ _ hstmt).bind fun _ _ _ => follows_unlessReturning (ih hrest)

include heval in
theorem simulates_evalAll {es es' : List Expr} (halike : Expr.AllAlike slack.like es es') :
    slack.Simulates (List.Forall₂ slack.Agree) (Rules.evalAll eval es)
      (Rules.evalAll eval' es') := by
  induction es generalizing es' with
  | nil =>
      cases halike
      exact simulates_pure .nil
  | cons e rest ih =>
      cases halike with
      | cons he hrest =>
          refine (heval _ _ he).bind fun v w hvalue => ?_
          refine (ih hrest).bind fun vs ws hvalues => ?_
          exact simulates_pure (.cons hvalue hvalues)

include hexec in
/-- Closures that are alike run their bodies side by side, in fresh frames with the same place. -/
theorem simulates_invoke (callee : Name) {c d : Closure} (hclosures : slack.ClosuresAlike c d)
    (hframe : ¬ slack.frames c.frame) {values values' : List Value}
    (hvalues : List.Forall₂ slack.Agree values values') :
    slack.Simulates (Option.Rel slack.Agree) (Rules.invoke exec callee c values)
      (Rules.invoke exec' callee d values') := by
  have hentries : ∀ names : List Name,
      slack.Entries (names.zip values) (names.zip values') := by
    intro names
    induction hvalues generalizing names with
    | nil => simp [Entries]
    | cons hvalue _ ih =>
        cases names with
        | nil => exact .nil
        | cons name names => exact .cons ⟨rfl, hvalue⟩ (ih names)
  unfold Rules.invoke
  rw [hclosures.frame, hclosures.parameters]
  refine (simulates_newFrame _ hframe).bind ?_
  rintro id _ ⟨rfl, hid⟩
  refine (follows_bindAll hid (hentries _)).bind fun _ _ _ => ?_
  refine (follows_record _ _).bind fun _ _ _ => ?_
  have hbody := simulates_within hid 1 (follows_sequence hexec hclosures.body)
  exact hbody.bind fun _ _ _ => simulates_takePending

include heval hexec in
/-- A call finds closures that are alike, or fails on both sides in the same way. -/
theorem simulates_call (callee : Name) {arguments arguments' : List Expr}
    (halike : Expr.AllAlike slack.like arguments arguments') :
    slack.Simulates (Option.Rel slack.Agree) (Rules.call eval exec callee arguments)
      (Rules.call eval' exec' callee arguments') := by
  intro s t h
  rw [Reference.call_apply, Reference.call_apply, h.frame, halike.length_eq]
  have hcallee := h.callee_sameEnd h.current callee arguments.length
  generalize (Reference.world s).callee s.context.frame callee arguments.length = r,
    (Reference.world t).callee s.context.frame callee arguments.length = r' at hcallee
  cases hcallee with
  | error => exact .error (.of_store h rfl rfl)
  | ok hclosures =>
      refine ((simulates_evalAll heval halike).bind fun values values' hvalues => ?_) s t h
      exact simulates_invoke hexec callee hclosures.1 hclosures.2 hvalues

include heval hexec in
/-- The step over expressions: where parts nested less deeply go along with each other, so do
expressions that are alike. -/
theorem simulates_evalStep (hlawful : slack.Lawful) {e e' : Expr}
    (halike : Expr.Alike slack.like e e') :
    slack.Simulates slack.Agree (Rules.evalStep eval exec e) (Rules.evalStep eval' exec' e') := by
  cases halike with
  | number _ hnumber => exact simulates_pure ⟨.number hnumber, trivial⟩
  | boolean _ => exact simulates_pure ⟨.boolean, trivial⟩
  | «variable» _ => exact simulates_lookup _
  | binary _ hleft hright =>
      exact simulates_binary hlawful (heval _ _ hleft) (heval _ _ hright) _
  | function _ hbody => exact simulates_newClosure _ hbody
  | call _ harguments =>
      refine (simulates_call heval hexec _ harguments).bind fun result result' hresult => ?_
      cases hresult with
      | some hvalue => exact simulates_pure hvalue
      | none => exact simulates_fail _
  | malformed => exact simulates_throw _

/-- Loops go along with each other round by round. -/
theorem follows_loop {test test' : Eval Value} {body body' : Eval Unit}
    (htest : slack.Simulates slack.Agree test test') (hbody : slack.Follows body body')
    (iterations : Nat) :
    slack.Follows (Rules.loop test body iterations) (Rules.loop test' body' iterations) := by
  induction iterations with
  | zero => exact simulates_throw _
  | succ iterations ih =>
      refine htest.bind ?_
      rintro v w ⟨halike, _⟩
      cases halike with
      | number _ => exact simulates_fail _
      | @boolean b =>
          cases b with
          | true => exact hbody.bind fun _ _ _ => follows_unlessReturning ih
          | false => exact simulates_pure trivial
      | function => exact simulates_fail _

theorem follows_declare (name : Name) {value value' : Eval Value}
    (hvalue : slack.Simulates slack.Agree value value') :
    slack.Follows (Rules.declare name value) (Rules.declare name value') := by
  intro s t h
  rw [Reference.declare_apply, Reference.declare_apply, h.frame, h.declarable_eq h.current]
  cases (Reference.world s).declarable s.context.frame name with
  | error failure => exact .error (.of_store h rfl rfl)
  | ok _ => exact (hvalue.bind fun v w hagree => follows_bindHere name hagree) s t h

theorem follows_assign (name : Name) {value value' : Eval Value}
    (hvalue : slack.Simulates slack.Agree value value') :
    slack.Follows (Rules.assign name value) (Rules.assign name value') := by
  intro s t h
  rw [Reference.assign_apply, Reference.assign_apply, h.frame]
  have htarget := h.target_sameEnd h.current name
  generalize (Reference.world s).target s.context.frame name = r,
    (Reference.world t).target s.context.frame name = r' at htarget
  cases htarget with
  | error => exact .error (.of_store h rfl rfl)
  | ok howner =>
      obtain ⟨rfl, hsight⟩ := howner
      exact (hvalue.bind fun v w hagree => follows_set hsight name hagree) s t h

theorem follows_give {value value' : Eval Value}
    (hvalue : slack.Simulates slack.Agree value value') :
    slack.Follows (Rules.give value) (Rules.give value') := by
  refine simulates_get fun s t h => ?_
  simp only [h.callDepth]
  split
  · exact .error (.of_store h rfl rfl)
  · exact (hvalue.bind fun v w hagree => follows_signal hagree) s t h

include heval hexec in
/-- The step over statements: where parts nested less deeply go along with each other, so do
statements that are alike. -/
theorem follows_execStep (iterations : Nat) {stmt stmt' : Stmt}
    (halike : Stmt.Alike slack.like stmt stmt') :
    slack.Follows (Rules.execStep iterations eval exec stmt)
      (Rules.execStep iterations eval' exec' stmt') := by
  have hblock : ∀ name {stmts stmts'}, Stmt.AllAlike slack.like stmts stmts' →
      slack.Follows (Eval.inChild name (Rules.sequence exec stmts))
        (Eval.inChild name (Rules.sequence exec' stmts')) :=
    fun name _ _ hstmts => simulates_inChild name (follows_sequence hexec hstmts)
  cases halike with
  | declare _ hvalue => exact follows_declare _ (heval _ _ hvalue)
  | assign _ hvalue => exact follows_assign _ (heval _ _ hvalue)
  | branch _ htest hthen helse =>
      refine (heval _ _ htest).bind ?_
      rintro v w ⟨hv, _⟩
      cases hv with
      | number _ => exact simulates_fail _
      | @boolean b =>
          cases b with
          | true => exact hblock _ hthen
          | false => exact hblock _ helse
      | function => exact simulates_fail _
  | loop _ htest hbody => exact follows_loop (heval _ _ htest) (hblock _ hbody) iterations
  | print _ hvalue =>
      refine (heval _ _ hvalue).bind fun v w hagree => ?_
      exact (follows_record _ _).bind fun _ _ _ => follows_emit hagree
  | discard _ hvalue =>
      have hvalue' := heval _ _ hvalue
      cases hvalue with
      | call _ harguments =>
          exact (simulates_call heval hexec _ harguments).bind fun _ _ _ =>
            simulates_pure trivial
      | _ => exact hvalue'.bind fun _ _ _ => simulates_pure trivial
  | give _ hvalue => exact follows_give (heval _ _ hvalue)
  | malformed => exact simulates_throw _

end Rules

/-- Expressions and statements that are alike go along with each other, at every depth. -/
theorem simulates_eval_exec (hlawful : slack.Lawful) (iterations depth : Nat) :
    (∀ e e', Expr.Alike slack.like e e' →
      slack.Simulates slack.Agree (eval iterations depth e) (eval iterations depth e')) ∧
    ∀ stmt stmt', Stmt.Alike slack.like stmt stmt' →
      slack.Follows (exec iterations depth stmt) (exec iterations depth stmt') := by
  induction depth with
  | zero => exact ⟨fun _ _ _ => simulates_throw _, fun _ _ _ => simulates_throw _⟩
  | succ depth ih =>
      exact ⟨fun e e' halike => simulates_evalStep ih.1 ih.2 hlawful halike,
        fun stmt stmt' halike => follows_execStep ih.1 ih.2 iterations halike⟩

end Slack

end Treewalk
