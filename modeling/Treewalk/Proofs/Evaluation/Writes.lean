import Treewalk.Proofs.Evaluation.Equations
import Treewalk.Proofs.Evaluation.Evolution
import Treewalk.Proofs.Evaluation.Nesting

/-! # What a declaration and an assignment write

Both check their name first, evaluate their expression next and write last. The evaluation may call
functions that assign to the same name, or that declare it in frames of their own. It cannot
invalidate the check: the frames that were there keep their parents and the keys they bind.

The store is seen as cells here, one for each frame and key. A write changes one of them.
-/

namespace Treewalk

/-! ## Cells -/

def Store.cell? (store : Store) (id : FrameId) (key : Key) : Option Value :=
  store.frames[id]?.bind (·.get? key)

namespace Frame

/-- Binding a name changes the value of its key, and of no other one. -/
theorem get?_set (frame : Frame) {name : Name} {key : Key} (v : Value)
    (hkey : name.key? = some key) (other : Key) :
    (frame.set name v).get? other = if other = key then some v else frame.get? other := by
  unfold get? set
  dsimp only
  induction frame.bindings with
  | nil =>
      by_cases hother : other = key
      · simp [setBinding, hkey, hother]
      · simp [setBinding, hkey, hother, Ne.symm hother]
  | cons entry rest ih =>
      unfold setBinding
      by_cases hentry : entry.1.key? = name.key?
      · -- The entry that is replaced is the one the key finds; other keys pass it.
        rw [if_pos (beq_iff_eq.mpr hentry)]
        by_cases hother : other = key
        · simp [hentry, hkey, hother]
        · have hpass : (entry.1.key? == some other) = false := by
            simpa [hentry, hkey] using Ne.symm hother
          simp only [List.find?_cons, hpass, if_neg hother]
      · rw [if_neg (by simpa using hentry)]
        by_cases hfound : entry.1.key? = some other
        · have hother : other ≠ key := by
            rintro rfl
            exact hentry (hfound.trans hkey.symm)
          simp [hfound, hother]
        · have hpass : (entry.1.key? == some other) = false := by simpa using hfound
          simp only [List.find?_cons, hpass]
          exact ih

end Frame

namespace Store

variable {store : Store} {id target : FrameId} {key : Key}

theorem hasLocal_eq_isSome (store : Store) (id : FrameId) (key : Key) :
    store.hasLocal id key = (store.cell? id key).isSome := by
  unfold hasLocal cell?
  cases store.frames[id]? <;> rfl

theorem lt_size_of_parent? {parent : FrameId} (h : store.parent? id = some parent) :
    id < store.frames.size := by
  obtain ⟨frame, hframe, _⟩ := Option.bind_eq_some_iff.mp h
  exact (Array.getElem?_eq_some_iff.mp hframe).1

/-- The value of a name is that in the frame where it is found. -/
theorem get?_eq_cell? (h : store.find? id key = some target) :
    store.get? id key = store.cell? target key := by
  unfold get?
  rw [h]
  rfl

/-- A write changes the cell of its frame and key, and no other one. -/
theorem cell?_set (store : Store) {name : Name} (v : Value) (hkey : name.key? = some key)
    (htarget : target < store.frames.size) (id : FrameId) (other : Key) :
    (store.set target name v).cell? id other =
      if id = target ∧ other = key then some v else store.cell? id other := by
  unfold cell? set
  rw [Array.getElem?_modify]
  by_cases hid : target = id
  · subst hid
    rw [if_pos rfl, Array.getElem?_eq_getElem htarget]
    simp [Frame.get?_set _ v hkey]
  · simp [hid, Ne.symm hid]

/-- Naming a closure changes no value of a frame. -/
theorem cell?_nameValue (store : Store) (name : Name) (v : Value) (id : FrameId) (key : Key) :
    (store.nameValue name v).cell? id key = store.cell? id key := by
  cases v <;> rfl

theorem chainUpTo_set (store : Store) (name : Name) (v : Value) (target : FrameId) (count : Nat)
    (id : FrameId) : (store.set target name v).chainUpTo count id = store.chainUpTo count id := by
  induction count generalizing id with
  | zero => rfl
  | succ count ih =>
      rw [chainUpTo_succ, chainUpTo_succ, Nesting.parent?_set]
      cases store.parent? id with
      | none => rfl
      | some parent => exact congrArg _ (ih parent)

/-- A new value of a bound key leaves each key where it was found. -/
theorem find?_set (store : Store) {name : Name} (v : Value) (hkey : name.key? = some key)
    (hbound : store.hasLocal target key = true) (id : FrameId) (other : Key) :
    (store.set target name v).find? id other = store.find? id other := by
  have hlocal : ∀ frame, (store.set target name v).hasLocal frame other =
      store.hasLocal frame other := by
    intro frame
    rw [hasLocal_eq_isSome, cell?_set store v hkey (lt_size_of_hasLocal hbound)]
    split
    next hcell =>
      rw [hcell.1, hcell.2, hbound]
      rfl
    · exact (hasLocal_eq_isSome store frame other).symm
  unfold find? chain
  rw [chainUpTo_set, funext hlocal]

/-- The frame in which a key is found binds it. -/
theorem hasLocal_of_find? (h : store.find? id key = some target) :
    store.hasLocal target key = true := List.find?_some (p := (store.hasLocal · key)) h

end Store

/-! ## What stays of a check -/

namespace Evolution

variable {s t : State} {id target : FrameId} {key : Key}

theorem Stable.lt_size (h : Stable s t) (hid : id < s.store.frames.size) :
    id < t.store.frames.size := by
  obtain ⟨events, h⟩ := h
  obtain ⟨after, hafter, _⟩ := h.frames (Array.getElem?_eq_getElem hid)
  exact (Array.getElem?_eq_some_iff.mp hafter).1

theorem Stable.parent? (h : Stable s t) (hid : id < s.store.frames.size) :
    t.store.parent? id = s.store.parent? id := by
  obtain ⟨events, h⟩ := h
  have hbefore := Array.getElem?_eq_getElem hid
  obtain ⟨after, hafter, hgrown⟩ := h.frames hbefore
  unfold Store.parent?
  rw [hafter, hbefore]
  exact hgrown.parent

/-- A key is found where it was found before. The chain may have become longer, but only beyond its
old end, and the key is found before that. -/
theorem Stable.find?_chainUpTo (h : Stable s t) {count : Nat}
    (hfound : (s.store.chainUpTo count id).find? (s.store.hasLocal · key) = some target) :
    (t.store.chainUpTo count id).find? (t.store.hasLocal · key) = some target := by
  induction count generalizing id with
  | zero => cases hfound
  | succ count ih =>
      rw [Store.chainUpTo_succ, List.find?_cons] at hfound ⊢
      cases hlocal : s.store.hasLocal id key with
      | true =>
          rw [hlocal] at hfound
          rw [h.hasLocal key (Store.lt_size_of_hasLocal hlocal), hlocal]
          exact hfound
      | false =>
          rw [hlocal] at hfound
          cases hparent : s.store.parent? id with
          | none =>
              rw [hparent] at hfound
              cases hfound
          | some parent =>
              have hid := Store.lt_size_of_parent? hparent
              rw [hparent] at hfound
              rw [h.hasLocal key hid, h.parent? hid, hlocal, hparent]
              exact ih hfound

/-- A name that was found is found in the same frame afterwards: no frame that is closer has come to
bind it. -/
theorem Stable.find? (h : Stable s t) (hfound : s.store.find? id key = some target) :
    t.store.find? id key = some target := h.find?_chainUpTo hfound

/-- The value of an expression is found without leaving the current frame. -/
theorem stable_of_eval {iterations depth : Nat} {value : Expr} {v : Value}
    (heval : eval iterations depth value s = .ok v t) :
    Stable s t ∧ t.context.frame = s.context.frame := by
  have hkept := kept.eval iterations depth value s
  rwa [heval] at hkept

end Evolution

/-! ## Writes -/

/-- How a write changes a state: one cell holds a value, every other one what it held, and the
context is the same. -/
structure State.Writes (id : FrameId) (key : Key) (v : Value) (before after : State) : Prop where
  written : after.store.cell? id key = some v
  others : ∀ otherId otherKey, ¬ (otherId = id ∧ otherKey = key) →
    after.store.cell? otherId otherKey = before.store.cell? otherId otherKey
  context : after.context = before.context

namespace State

variable {s t u : State} {id : FrameId} {name : Name} {key : Key} {v : Value}

theorem Writes.of_cells (hcontext : u.context = t.context)
    (hcells : ∀ other otherKey, u.store.cell? other otherKey =
      if other = id ∧ otherKey = key then some v else t.store.cell? other otherKey) :
    t.Writes id key v u where
  written := by rw [hcells, if_pos ⟨rfl, rfl⟩]
  others other otherKey hother := by rw [hcells, if_neg hother]
  context := hcontext

/-- Binding a name in a frame of the store writes one cell. -/
theorem writes_set (t : State) (v : Value) (hkey : name.key? = some key)
    (hid : id < t.store.frames.size) :
    t.Writes id key v { t with store := t.store.set id name v } :=
  .of_cells rfl fun other otherKey => t.store.cell?_set v hkey hid other otherKey

theorem writes_bindHere (t : State) (v : Value) (hkey : name.key? = some key)
    (hid : t.context.frame < t.store.frames.size) :
    ∃ u, Rules.bindHere name v t = .ok () u ∧ t.Writes t.context.frame key v u := by
  refine ⟨_, rfl, .of_cells rfl fun other otherKey => ?_⟩
  have hsize : t.context.frame < (t.store.nameValue name v).frames.size := by
    cases v <;> exact hid
  exact ((t.store.nameValue name v).cell?_set v hkey hsize other otherKey).trans
    (by rw [Store.cell?_nameValue])

end State

section Statements

variable {iterations depth : Nat} {s u : State} {span : Option Span} {name : Name} {value : Expr}
  {key : Key}

/-- An assignment looks for its frame, then evaluates its value, and writes there. -/
theorem exec_assign_of_key (hkey : name.key? = some key) :
    exec iterations (depth + 1) (.assign span name value) s =
      match s.store.find? s.context.frame key with
      | none => .error (.error (.assignmentToUndeclared name)) s
      | some target =>
        match eval iterations depth value s with
        | .ok v t => .ok () { t with store := t.store.set target name v }
        | .error failure t => .error failure t := by
  change Rules.assign name (eval iterations depth value) s = _
  rw [Reference.assign_apply]
  simp only [Reference.World.target, hkey, Reference.world]
  cases s.store.find? s.context.frame key with
  | none => rfl
  | some target =>
      dsimp only
      rw [Eval.bind_apply]
      cases eval iterations depth value s <;> rfl

/-- A declaration looks at the current frame, then evaluates its value, and writes there. -/
theorem exec_declare_of_key (hkey : name.key? = some key) :
    exec iterations (depth + 1) (.declare span name value) s =
      if s.store.hasLocal s.context.frame key then .error (.error (.duplicateDeclaration name)) s
      else
        match eval iterations depth value s with
        | .ok v t => Rules.bindHere name v t
        | .error failure t => .error failure t := by
  change Rules.declare name (eval iterations depth value) s = _
  rw [Reference.declare_apply]
  by_cases hlocal : s.store.hasLocal s.context.frame key = true
  · have hcheck : (Reference.world s).declarable s.context.frame name =
        .error (.error (.duplicateDeclaration name)) := by
      simp [Reference.World.declarable, Reference.world, hkey, hlocal]
    rw [hcheck, if_pos hlocal]
  · have hcheck : (Reference.world s).declarable s.context.frame name = .ok () := by
      simp [Reference.World.declarable, Reference.world, hkey, hlocal]
    rw [hcheck, if_neg hlocal]
    refine (Eval.bind_apply _ _ s).trans ?_
    cases eval iterations depth value s <;> rfl

/-- An assignment that succeeds passed its check, and its expression has a value. -/
theorem ok_of_assign (h : exec iterations (depth + 1) (.assign span name value) s = .ok () u) :
    ∃ key target v t, name.key? = some key ∧ s.store.find? s.context.frame key = some target ∧
      eval iterations depth value s = .ok v t := by
  cases hkey : name.key? with
  | none =>
      change Rules.assign name (eval iterations depth value) s = _ at h
      rw [Reference.assign_apply] at h
      simp [Reference.World.target, hkey] at h
  | some key =>
      rw [exec_assign_of_key hkey] at h
      cases hfound : s.store.find? s.context.frame key with
      | none =>
          rw [hfound] at h
          cases h
      | some target =>
          cases heval : eval iterations depth value s with
          | error failure t =>
              rw [hfound, heval] at h
              cases h
          | ok v t => exact ⟨key, target, v, t, rfl, hfound, rfl⟩

/-- A declaration that succeeds passed its check, and its expression has a value. -/
theorem ok_of_declare (h : exec iterations (depth + 1) (.declare span name value) s = .ok () u) :
    ∃ key v t, name.key? = some key ∧ s.store.hasLocal s.context.frame key = false ∧
      eval iterations depth value s = .ok v t := by
  cases hkey : name.key? with
  | none =>
      change Rules.declare name (eval iterations depth value) s = _ at h
      rw [Reference.declare_apply] at h
      simp [Reference.World.declarable, hkey] at h
  | some key =>
      rw [exec_declare_of_key hkey] at h
      by_cases hlocal : s.store.hasLocal s.context.frame key = true
      · rw [if_pos hlocal] at h
        cases h
      · cases heval : eval iterations depth value s with
        | error failure t =>
            rw [if_neg hlocal, heval] at h
            cases h
        | ok v t => exact ⟨key, v, t, rfl, Bool.eq_false_iff.mpr hlocal, rfl⟩

variable (span)

/-- An assignment writes to the frame that it found: that frame is still the innermost one of the
chain that binds the name. -/
theorem writes_of_assign (hkey : name.key? = some key) {target : FrameId}
    (hfound : s.store.find? s.context.frame key = some target) {v : Value} {t : State}
    (heval : eval iterations depth value s = .ok v t) :
    ∃ u, exec iterations (depth + 1) (.assign span name value) s = .ok () u ∧
      t.context.frame = s.context.frame ∧ t.store.find? t.context.frame key = some target ∧
      t.Writes target key v u ∧ u.store.get? u.context.frame key = some v := by
  obtain ⟨hstable, hframe⟩ := Evolution.stable_of_eval heval
  have hstill : t.store.find? t.context.frame key = some target := by
    rw [hframe]
    exact hstable.find? hfound
  have hbound := Store.hasLocal_of_find? hstill
  have hwrites := t.writes_set v hkey (Store.lt_size_of_hasLocal hbound)
  refine ⟨{ t with store := t.store.set target name v }, ?_, hframe, hstill, hwrites, ?_⟩
  · rw [exec_assign_of_key hkey, hfound, heval]
  · have hfound' := (t.store.find?_set v hkey hbound t.context.frame key).trans hstill
    rw [Store.get?_eq_cell? hfound']
    exact hwrites.written

/-- A declaration writes to the current frame, which still does not bind the name. -/
theorem writes_of_declare (hkey : name.key? = some key)
    (hcurrent : s.context.frame < s.store.frames.size)
    (hfree : s.store.hasLocal s.context.frame key = false) {v : Value} {t : State}
    (heval : eval iterations depth value s = .ok v t) :
    ∃ u, exec iterations (depth + 1) (.declare span name value) s = .ok () u ∧
      t.context.frame = s.context.frame ∧ t.store.hasLocal t.context.frame key = false ∧
      t.Writes t.context.frame key v u := by
  obtain ⟨hstable, hframe⟩ := Evolution.stable_of_eval heval
  have hstill : t.store.hasLocal t.context.frame key = false := by
    rw [hframe, hstable.hasLocal key hcurrent]
    exact hfree
  have hthere : t.context.frame < t.store.frames.size := by
    rw [hframe]
    exact hstable.lt_size hcurrent
  obtain ⟨u, hbind, hwrites⟩ := t.writes_bindHere v hkey hthere
  refine ⟨u, ?_, hframe, hstill, hwrites⟩
  rw [exec_declare_of_key hkey, if_neg (Bool.eq_false_iff.mp hfree), heval]
  exact hbind

end Statements

/-- The checks of assignments and declarations still hold when they write. An assignment that
succeeds found a frame before its expression was evaluated; when it writes, that frame is still the
innermost one of the current chain that binds the name. A declaration that succeeds writes to the
current frame, which still does not bind the name. Either one changes a single cell, to the value of
the expression. Both succeed if the check passes and the expression has a value, and they leave the
state alone if the check fails. -/
theorem checked_at_write (iterations depth : Nat) (s : State)
    (hcurrent : s.context.frame < s.store.frames.size) (span : Option Span) (name : Name)
    (value : Expr) :
    (∀ u, exec iterations (depth + 1) (.assign span name value) s = .ok () u →
      ∃ key target v t, name.key? = some key ∧
        s.store.find? s.context.frame key = some target ∧
        eval iterations depth value s = .ok v t ∧
        t.context.frame = s.context.frame ∧ t.store.find? t.context.frame key = some target ∧
        t.Writes target key v u ∧ u.store.get? u.context.frame key = some v) ∧
    (∀ u, exec iterations (depth + 1) (.declare span name value) s = .ok () u →
      ∃ key v t, name.key? = some key ∧ s.store.hasLocal s.context.frame key = false ∧
        eval iterations depth value s = .ok v t ∧
        t.context.frame = s.context.frame ∧ t.store.hasLocal t.context.frame key = false ∧
        t.Writes t.context.frame key v u) ∧
    ∀ key, name.key? = some key →
      (s.store.find? s.context.frame key = none →
        exec iterations (depth + 1) (.assign span name value) s =
          .error (.error (.assignmentToUndeclared name)) s) ∧
      (s.store.hasLocal s.context.frame key = true →
        exec iterations (depth + 1) (.declare span name value) s =
          .error (.error (.duplicateDeclaration name)) s) ∧
      ∀ v t, eval iterations depth value s = .ok v t →
        ((s.store.find? s.context.frame key).isSome →
          ∃ u, exec iterations (depth + 1) (.assign span name value) s = .ok () u) ∧
        (s.store.hasLocal s.context.frame key = false →
          ∃ u, exec iterations (depth + 1) (.declare span name value) s = .ok () u) := by
  refine ⟨fun u hrun => ?_, fun u hrun => ?_, fun key hkey => ⟨fun hnone => ?_, fun hbound => ?_,
    fun v t heval => ⟨fun hsome => ?_, fun hfree => ?_⟩⟩⟩
  · obtain ⟨key, target, v, t, hkey, hfound, heval⟩ := ok_of_assign hrun
    obtain ⟨u', hrun', hwrite⟩ := writes_of_assign span hkey hfound heval
    rw [hrun] at hrun'
    cases hrun'
    exact ⟨key, target, v, t, hkey, hfound, heval, hwrite⟩
  · obtain ⟨key, v, t, hkey, hfree, heval⟩ := ok_of_declare hrun
    obtain ⟨u', hrun', hwrite⟩ := writes_of_declare span hkey hcurrent hfree heval
    rw [hrun] at hrun'
    cases hrun'
    exact ⟨key, v, t, hkey, hfree, heval, hwrite⟩
  · rw [exec_assign_of_key hkey, hnone]
  · rw [exec_declare_of_key hkey, if_pos hbound]
  · obtain ⟨target, hfound⟩ := Option.isSome_iff_exists.mp hsome
    obtain ⟨u, hrun, _⟩ := writes_of_assign span hkey hfound heval
    exact ⟨u, hrun⟩
  · obtain ⟨u, hrun, _⟩ := writes_of_declare span hkey hcurrent hfree heval
    exact ⟨u, hrun⟩

/-- A top level with a variable `x` and a function `f` that assigns to it, declares another `x` and
returns. -/
def reentrant : State where
  store := {
    frames := #[
      { name := "global", bindings := [(.text "x", .boolean true), (.text "f", .function 0)] }]
    closures := #[
      { parameters := [], frame := Store.root,
        body := [.assign none (.text "x") (.boolean none true),
          .declare none (.text "x") (.boolean none true), .give none (.boolean none false)] }] }
  context := { frame := Store.root }

/-- The frame found before a call is the one written to after it, whatever the call does with the
name. The write changes what the call left there. -/
theorem checked_at_write_reentrant :
    let call : Expr := .call none (.text "f") []
    reentrant.context.frame < reentrant.store.frames.size ∧
      ∃ v t u, eval 1 4 call reentrant = .ok v t ∧
        exec 1 5 (.assign none (.text "x") call) reentrant = .ok () u ∧
        t.store.cell? Store.root (.text "x") = some (.boolean true) ∧
        t.Writes Store.root (.text "x") (.boolean false) u ∧
        u.store.get? u.context.frame (.text "x") = some (.boolean false) := by
  intro call
  have hcurrent : reentrant.context.frame < reentrant.store.frames.size := Nat.zero_lt_one
  obtain ⟨key, target, v, t, hkey, hfound, heval, _, _, hwrites, hlookup⟩ :=
    (checked_at_write 1 4 reentrant hcurrent none (.text "x") call).1 _ rfl
  cases hkey
  cases hfound
  cases heval
  exact ⟨hcurrent, _, _, _, rfl, rfl, rfl, hwrites, hlookup⟩

end Treewalk
