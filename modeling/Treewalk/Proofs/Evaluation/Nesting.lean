import Treewalk.Proofs.Program.Labels

/-! # Scopes follow the text

A part of a program stands below a number of blocks: branches, bodies of loops and bodies of
functions. Whenever it is executed, the current frame has as many ancestors, whatever calls are
active. A closure remembers a frame of the depth at which its literal stands, and every chain of
frames ends at the top level.

Equal parts may stand at several places. To tell these apart, a program is `marked`: the label of
each part tells how many blocks enclose it.
-/

namespace Treewalk

/-- A part stands in a program below a number of blocks. -/
inductive Program.Occurs (program : Program) : Nat → Part → Prop where
  | top {stmt} : stmt ∈ program → Program.Occurs program 0 (.stmt stmt)
  | operand {n part inner} : Program.Occurs program n part → inner ∈ part.operands →
      Program.Occurs program n inner
  | block {n part block stmt} : Program.Occurs program n part → block ∈ part.blocks →
      stmt ∈ block → Program.Occurs program (n + 1) (.stmt stmt)

/-! ## Marked programs -/

/-- Labels that count blocks. -/
def Labelling.nesting : Labelling := ⟨(· + 1), (· + 1)⟩

theorem Labelling.nesting_inside (part : Part) (n : Nat) : nesting.inside part n = n + 1 :=
  ite_self _

/-- A program in which each part is labelled with the number of blocks around it. -/
def Program.marked (program : Program) : Program := Stmt.allLabelled .nesting 0 program

/-- What stands in a marked program is marked with the number of blocks around it. -/
theorem Program.Occurs.eq_marked {program : Program} {n : Nat} {part : Part}
    (h : program.marked.Occurs n part) :
    ∃ original : Part, part = original.labelled .nesting n := by
  induction h with
  | top hmem => exact Stmt.exists_of_mem_labelled hmem
  | operand _ hmem ih =>
      obtain ⟨original, rfl⟩ := ih
      exact Part.exists_of_mem_operands_labelled hmem
  | block _ hblock hmem ih =>
      obtain ⟨original, rfl⟩ := ih
      rw [← Labelling.nesting_inside original]
      exact Part.exists_of_mem_blocks_labelled hblock hmem

/-- A part with a span stands below one number of blocks only, in a marked program. -/
theorem Program.Occurs.unique {program : Program} {n m : Nat} {part : Part}
    (hspan : part.span?.isSome) (hn : program.marked.Occurs n part)
    (hm : program.marked.Occurs m part) : n = m := by
  obtain ⟨_, ha⟩ := hn.eq_marked
  obtain ⟨_, hb⟩ := hm.eq_marked
  exact Part.label_unique hspan ha hb

/-! ## Chains of frames -/

namespace Store

def parent? (store : Store) (id : FrameId) : Option FrameId := store.frames[id]?.bind (·.parent)

/-- Parents are older than their children. -/
def Older (store : Store) : Prop := ∀ {id parent}, store.parent? id = some parent → parent < id

variable {store later : Store} {id : FrameId}

theorem chainUpTo_succ (count : Nat) (id : FrameId) :
    store.chainUpTo (count + 1) id =
      id :: match store.parent? id with
        | some parent => store.chainUpTo count parent
        | none => [] := rfl

/-- A chain is as long as it gets once it may hold all older frames. -/
theorem chainUpTo_eq_chain (holder : store.Older) {count : Nat} (hcount : id < count) :
    store.chainUpTo count id = store.chain id := by
  induction id using Nat.strongRecOn generalizing count with
  | ind id ih =>
      obtain ⟨count, rfl⟩ := Nat.exists_eq_succ_of_ne_zero (Nat.ne_zero_of_lt hcount)
      unfold chain
      rw [chainUpTo_succ, chainUpTo_succ]
      cases hparent : store.parent? id with
      | none => rfl
      | some parent =>
          have hlt := holder hparent
          dsimp only
          rw [ih parent hlt hlt, ih parent hlt (Nat.lt_of_lt_of_le hlt (Nat.lt_succ_iff.mp hcount))]

/-- A chain is a frame and the chain of its parent. -/
theorem chain_eq (holder : store.Older) (id : FrameId) :
    store.chain id = id :: match store.parent? id with
      | some parent => store.chain parent
      | none => [] := by
  unfold chain
  rw [chainUpTo_succ]
  cases hparent : store.parent? id with
  | none => rfl
  | some parent =>
      dsimp only
      rw [chainUpTo_eq_chain holder (holder hparent)]
      rfl

theorem chain_ne_nil (store : Store) (id : FrameId) : store.chain id ≠ [] := by
  unfold chain chainUpTo
  exact List.cons_ne_nil _ _

/-- The frames of a store are still there, with the same parents. -/
structure Extends (store later : Store) : Prop where
  size : store.frames.size ≤ later.frames.size
  parent : ∀ id < store.frames.size, later.parent? id = store.parent? id

theorem Extends.refl (store : Store) : store.Extends store := ⟨Nat.le_refl _, fun _ _ => rfl⟩

theorem Extends.trans {last : Store} (h : store.Extends later) (h' : later.Extends last) :
    store.Extends last where
  size := Nat.le_trans h.size h'.size
  parent id hid := (h'.parent id (Nat.lt_of_lt_of_le hid h.size)).trans (h.parent id hid)

/-- Chains do not change. -/
theorem Extends.chain (h : store.Extends later) (holder : store.Older) (holder' : later.Older)
    (hid : id < store.frames.size) : later.chain id = store.chain id := by
  induction id using Nat.strongRecOn with
  | ind id ih =>
      rw [chain_eq holder, chain_eq holder', h.parent id hid]
      cases hparent : store.parent? id with
      | none => rfl
      | some parent =>
          have hlt := holder hparent
          dsimp only
          rw [ih parent hlt (Nat.lt_trans hlt hid)]

/-- Depths do not change. -/
theorem Extends.depth (h : store.Extends later) (holder : store.Older) (holder' : later.Older)
    (hid : id < store.frames.size) : later.depth id = store.depth id := by
  unfold Store.depth
  rw [h.chain holder holder' hid]

end Store

/-- Every chain of frames ends at the top level, and every closure remembers a frame of the depth at
which a literal of the program stands that has its parameters and its body. -/
structure Store.Lexical (program : Program) (store : Store) : Prop where
  older : store.Older
  chains : ∀ id < store.frames.size, (store.chain id).getLast? = some Store.root
  closures : ∀ {id : ClosureId} {c}, store.closures[id]? = some c → c.frame < store.frames.size ∧
    ∃ span, program.Occurs (store.depth c.frame) (.expr (.function span c.parameters c.body))

namespace Nesting

/-- Whether a part is executed in its place: as many frames enclose the current one as there are
blocks around the part in the text. -/
structure InPlace (program : Program) (part : Part) (s : State) : Prop where
  occurs : program.Occurs (s.store.depth s.context.frame) part
  lexical : s.store.Lexical program

/-- The current frame is below `n` others. -/
structure At (program : Program) (n : Nat) (s : State) : Prop where
  lexical : s.store.Lexical program
  inside : s.context.frame < s.store.frames.size
  depth : s.store.depth s.context.frame = n

/-- How a state goes on: in the same frame, with frames and closures added in their places. -/
structure Onward (program : Program) (s t : State) : Prop where
  lexical : t.store.Lexical program
  frame : t.context.frame = s.context.frame
  grows : s.store.Extends t.store

variable {program : Program} {n m : Nat} {s t u : State} {α β : Type}

/-- The depth of the current frame stays as an evaluation goes on. -/
theorem At.onward (h : At program n s) (honward : Onward program s t) : At program n t where
  lexical := honward.lexical
  inside := by
    rw [honward.frame]
    exact Nat.lt_of_lt_of_le h.inside honward.grows.size
  depth := by
    rw [honward.frame, honward.grows.depth h.lexical.older honward.lexical.older h.inside, h.depth]

theorem Onward.trans (h : Onward program s t) (h' : Onward program t u) : Onward program s u where
  lexical := h'.lexical
  frame := h'.frame.trans h.frame
  grows := h.grows.trans h'.grows

/-- What does not touch the store. -/
theorem Onward.of_store (h : s.store.Lexical program) (hstore : t.store = s.store)
    (hframe : t.context.frame = s.context.frame) : Onward program s t where
  lexical := hstore ▸ h
  frame := hframe
  grows := hstore ▸ .refl _

/-- Two actions end in the same way, and go on in place. -/
def Ends (program : Program) (s : State) (r r' : EStateM.Result Failure State α) : Prop :=
  r' = r ∧ Contract.Allows ⟨Onward program, Onward program⟩ s r

/-- Two actions do the same wherever the current frame is below `n` others, and go on in place. -/
def Keeps (program : Program) (n : Nat) (action action' : Eval α) : Prop :=
  ∀ s, At program n s → Ends program s (action s) (action' s)

theorem Ends.after {r r' : EStateM.Result Failure State α} (h : Ends program t r r')
    (honward : Onward program s t) : Ends program s r r' := by
  refine ⟨h.1, ?_⟩
  have hallows := h.2
  cases r with
  | ok a u => exact honward.trans hallows
  | error failure u => exact honward.trans hallows

/-- Actions one after the other end in the same way if the first do, and the second do wherever
these end. -/
theorem ends_bind {action action' : Eval α} {next next' : α → Eval β}
    (hfirst : Ends program s (action s) (action' s))
    (hnext : ∀ a t, Onward program s t → Ends program t (next a t) (next' a t)) :
    Ends program s ((action >>= next) s) ((action' >>= next') s) := by
  rw [Eval.bind_apply, Eval.bind_apply, hfirst.1]
  have hallows := hfirst.2
  cases hrun : action s with
  | ok a t =>
      rw [hrun] at hallows
      exact (hnext a t hallows).after hallows
  | error failure t =>
      rw [hrun] at hallows
      exact ⟨rfl, hallows⟩

/-- Actions one after the other keep what each of them keeps. -/
theorem Keeps.bind {action action' : Eval α} {next next' : α → Eval β}
    (hfirst : Keeps program n action action')
    (hnext : ∀ a, Keeps program n (next a) (next' a)) :
    Keeps program n (action >>= next) (action' >>= next') :=
  fun s h => ends_bind (hfirst s h) fun a t honward => hnext a t (h.onward honward)

theorem ends_ok (h : Onward program s t) (a : α) : Ends program s (.ok a t) (.ok a t) := ⟨rfl, h⟩

theorem ends_error (h : Onward program s t) (failure : Failure) :
    Ends program s (.error failure t : EStateM.Result Failure State α) (.error failure t) :=
  ⟨rfl, h⟩

theorem ends_settle (h : s.store.Lexical program) (r : Except Failure α) :
    Ends program s (Reference.settle s r) (Reference.settle s r) := by
  cases r with
  | ok a => exact ends_ok (.of_store h rfl rfl) a
  | error failure => exact ends_error (.of_store h rfl rfl) failure

theorem keeps_pure (a : α) : Keeps program n (pure a) (pure a) :=
  fun _ h => ends_ok (.of_store h.lexical rfl rfl) a

theorem keeps_throw (failure : Failure) :
    Keeps program n (throw failure : Eval α) (throw failure) :=
  fun _ h => ends_error (.of_store h.lexical rfl rfl) failure

theorem keeps_fail (e : RuntimeError) :
    Keeps program n (Eval.fail e : Eval α) (Eval.fail e) := keeps_throw _

/-- Actions that do not touch the store. -/
theorem keeps_of_store {action : Eval α}
    (h : ∀ s, ∃ a t, action s = .ok a t ∧ t.store = s.store ∧
      t.context.frame = s.context.frame) : Keeps program n action action := by
  intro s hs
  obtain ⟨a, t, hrun, hstore, hframe⟩ := h s
  rw [hrun]
  exact ends_ok (.of_store hs.lexical hstore hframe) a

theorem keeps_record (event : Event) :
    Keeps program n (Eval.record event) (Eval.record event) :=
  keeps_of_store fun _ => ⟨_, _, rfl, rfl, rfl⟩

theorem keeps_emit (v : Value) : Keeps program n (Eval.emit v) (Eval.emit v) :=
  keeps_of_store fun _ => ⟨_, _, rfl, rfl, rfl⟩

theorem keeps_signal (v : Value) : Keeps program n (Eval.signal v) (Eval.signal v) :=
  keeps_of_store fun _ => ⟨_, _, rfl, rfl, rfl⟩

theorem keeps_takePending : Keeps program n Eval.takePending Eval.takePending :=
  keeps_of_store fun _ => ⟨_, _, rfl, rfl, rfl⟩

/-! ## What the store may be changed to -/

/-- New bindings and new names of closures leave everything in place. -/
theorem lexical_of_parents {store later : Store} (h : store.Lexical program)
    (hsize : later.frames.size = store.frames.size)
    (hparent : ∀ id, later.parent? id = store.parent? id)
    (hclosures : ∀ {id : ClosureId} {d}, later.closures[id]? = some d →
      ∃ c, store.closures[id]? = some c ∧ d.parameters = c.parameters ∧ d.body = c.body ∧
        d.frame = c.frame) :
    later.Lexical program ∧ store.Extends later := by
  have hextends : store.Extends later := ⟨Nat.le_of_eq hsize.symm, fun id _ => hparent id⟩
  have holder : later.Older := by
    intro id parent hid
    rw [hparent] at hid
    exact h.older hid
  refine ⟨⟨holder, ?_, ?_⟩, hextends⟩
  · intro id hid
    rw [hsize] at hid
    rw [hextends.chain h.older holder hid]
    exact h.chains id hid
  · intro id d hd
    obtain ⟨c, hc, hparameters, hbody, hframe⟩ := hclosures hd
    obtain ⟨hlt, span, hoccurs⟩ := h.closures hc
    rw [hparameters, hbody, hframe, hsize, hextends.depth h.older holder hlt]
    exact ⟨hlt, span, hoccurs⟩

/-- Binding a name changes no parent. -/
theorem parent?_set (store : Store) (id : FrameId) (name : Name) (v : Value) (other : FrameId) :
    (store.set id name v).parent? other = store.parent? other := by
  simp only [Store.parent?, Store.set, Array.getElem?_modify]
  split
  · cases store.frames[other]? <;> rfl
  · rfl

/-- Binding a name leaves scopes as they are. -/
theorem onward_set (h : s.store.Lexical program) (id : FrameId) (name : Name) (v : Value) :
    Onward program s { s with store := s.store.set id name v } := by
  have hsize : (s.store.set id name v).frames.size = s.store.frames.size := by simp [Store.set]
  obtain ⟨hlexical, hextends⟩ := lexical_of_parents h hsize (parent?_set _ _ _ _)
    fun hd => ⟨_, hd, rfl, rfl, rfl⟩
  exact ⟨hlexical, rfl, hextends⟩

/-- Naming a closure leaves its frame and its code as they are. -/
theorem onward_nameValue (h : s.store.Lexical program) (name : Name) (v : Value) :
    Onward program s { s with store := s.store.nameValue name v } := by
  cases v with
  | number x => exact .of_store h rfl rfl
  | boolean b => exact .of_store h rfl rfl
  | function closure =>
      have hclosures : ∀ {id : ClosureId} {d},
          (s.store.nameValue name (.function closure)).closures[id]? = some d →
          ∃ c, s.store.closures[id]? = some c ∧ d.parameters = c.parameters ∧ d.body = c.body ∧
            d.frame = c.frame := by
        intro id d hd
        simp only [Store.nameValue, Store.nameClosure, Array.getElem?_modify] at hd
        split at hd
        · obtain ⟨c, hc, rfl⟩ := Option.map_eq_some_iff.mp hd
          refine ⟨c, hc, ?_⟩
          split <;> exact ⟨rfl, rfl, rfl⟩
        · exact ⟨d, hd, rfl, rfl, rfl⟩
      have hframes : (s.store.nameValue name (.function closure)).frames = s.store.frames := rfl
      obtain ⟨hlexical, hextends⟩ := lexical_of_parents h (congrArg Array.size hframes)
        (fun _ => rfl) hclosures
      exact ⟨hlexical, rfl, hextends⟩

/-- A fresh frame below another one leaves everything in place. -/
theorem onward_withFrame (h : s.store.Lexical program) (name : String) {parent : FrameId}
    (hparent : parent < s.store.frames.size) :
    Onward program s (Eval.withFrame s name parent) ∧
      (Eval.withFrame s name parent).store.chain s.store.frames.size =
        s.store.frames.size :: s.store.chain parent := by
  let later := (Eval.withFrame s name parent).store
  have hsize : later.frames.size = s.store.frames.size + 1 := by
    simp [later, Eval.withFrame, Store.addFrame]
  have hnew : later.parent? s.store.frames.size = some parent := by
    simp [later, Eval.withFrame, Store.addFrame, Store.parent?]
  have hold : ∀ id < s.store.frames.size, later.parent? id = s.store.parent? id := by
    intro id hid
    simp [later, Eval.withFrame, Store.addFrame, Store.parent?, Array.getElem?_push,
      Nat.ne_of_lt hid]
  have hextends : s.store.Extends later := ⟨hsize ▸ Nat.le_succ _, hold⟩
  have holder : later.Older := by
    intro id parent' hid
    by_cases hlt : id < s.store.frames.size
    · rw [hold id hlt] at hid
      exact h.older hid
    · by_cases heq : id = s.store.frames.size
      · rw [heq, hnew] at hid
        cases hid
        rwa [heq]
      · have hbeyond : s.store.frames.size < id :=
          Nat.lt_of_le_of_ne (Nat.le_of_not_lt hlt) (Ne.symm heq)
        have hnone : later.frames[id]? = none :=
          Array.getElem?_eq_none_iff.mpr (hsize ▸ hbeyond)
        simp [Store.parent?, hnone] at hid
  have hchain : later.chain s.store.frames.size = s.store.frames.size :: s.store.chain parent := by
    rw [Store.chain_eq holder, hnew]
    dsimp only
    rw [hextends.chain h.older holder hparent]
  refine ⟨⟨⟨holder, ?_, ?_⟩, rfl, hextends⟩, hchain⟩
  · intro id hid
    by_cases hlt : id < s.store.frames.size
    · rw [hextends.chain h.older holder hlt]
      exact h.chains id hlt
    · have hle : id < s.store.frames.size + 1 := hsize ▸ hid
      rw [Nat.lt_succ_iff] at hle
      obtain rfl := Nat.le_antisymm hle (Nat.le_of_not_lt hlt)
      rw [hchain, List.getLast?_cons_of_ne_nil (s.store.chain_ne_nil parent)]
      exact h.chains parent hparent
  · intro id c hc
    obtain ⟨hlt, span, hoccurs⟩ := h.closures hc
    rw [hextends.depth h.older holder hlt]
    exact ⟨Nat.lt_of_lt_of_le hlt hextends.size, span, hoccurs⟩

/-- It is deeper by one. -/
theorem depth_of_chain {store later : Store} {id parent : FrameId}
    (h : later.chain id = id :: store.chain parent) : later.depth id = store.depth parent + 1 := by
  have hpos : 0 < (store.chain parent).length :=
    List.length_pos_iff.mpr (store.chain_ne_nil parent)
  unfold Store.depth
  rw [h, List.length_cons]
  omega

/-- A literal that is evaluated in its place makes a closure that remembers a frame of its depth. -/
theorem onward_newClosure (h : At program n s) {span : Option Span} {parameters : List Name}
    {body : List Stmt} (hoccurs : program.Occurs n (.expr (.function span parameters body))) :
    Onward program s { s with store :=
      (s.store.addClosure { parameters, body, frame := s.context.frame }).2 } := by
  have hextends : s.store.Extends
      (s.store.addClosure { parameters, body, frame := s.context.frame }).2 :=
    ⟨Nat.le_refl _, fun _ _ => rfl⟩
  have holder : (s.store.addClosure { parameters, body, frame := s.context.frame }).2.Older :=
    fun hid => h.lexical.older hid
  refine ⟨⟨holder, fun id hid => ?_, ?_⟩, rfl, hextends⟩
  · rw [hextends.chain h.lexical.older holder hid]
    exact h.lexical.chains id hid
  intro id c hc
  simp only [Store.addClosure, Array.getElem?_push] at hc
  split at hc
  · cases hc
    refine ⟨h.inside, span, ?_⟩
    rw [hextends.depth h.lexical.older holder h.inside, h.depth]
    exact hoccurs
  · obtain ⟨hlt, hliteral⟩ := h.lexical.closures hc
    rw [hextends.depth h.lexical.older holder hlt]
    exact ⟨hlt, hliteral⟩

/-! ## The rules of evaluation -/

/-- An action that is run in a frame below `m` others. -/
theorem ends_within {action action' : Eval α} {frame : FrameId} (h : s.store.Lexical program)
    (hframe : frame < s.store.frames.size) (hdepth : s.store.depth frame = m)
    (haction : Keeps program m action action') (calls : Nat) :
    Ends program s (Eval.within frame calls action s)
      (Eval.within frame calls action' s) := by
  obtain ⟨heq, hallows⟩ := haction (Eval.entering s frame calls) ⟨h, hframe, hdepth⟩
  rw [Eval.within_apply, Eval.within_apply, heq]
  cases hrun : action (Eval.entering s frame calls) with
  | ok a t =>
      rw [hrun] at hallows
      exact ends_ok (s := s) (t := Eval.leaving s calls t)
        ⟨hallows.lexical, rfl, hallows.grows⟩ a
  | error failure t =>
      rw [hrun] at hallows
      exact ends_error (s := s) (t := Eval.leaving s calls t)
        ⟨hallows.lexical, rfl, hallows.grows⟩ failure

/-- What stands in a block runs one frame further in. -/
theorem keeps_inChild {action action' : Eval α} (name : String)
    (haction : Keeps program (n + 1) action action') :
    Keeps program n (Eval.inChild name action) (Eval.inChild name action') := by
  intro s h
  obtain ⟨honward, hchain⟩ := onward_withFrame h.lexical name h.inside
  have hdepth := depth_of_chain hchain
  rw [h.depth] at hdepth
  have hinside :
      s.store.frames.size < (Eval.withFrame s name s.context.frame).store.frames.size := by
    simp [Eval.withFrame, Store.addFrame]
  rw [Eval.inChild_apply, Eval.inChild_apply]
  exact (ends_within honward.lexical hinside hdepth haction _).after honward

theorem keeps_unlessReturning {action action' : Eval Unit}
    (haction : Keeps program n action action') :
    Keeps program n (Eval.unlessReturning action) (Eval.unlessReturning action') := by
  intro s h
  rw [Eval.unlessReturning_apply, Eval.unlessReturning_apply]
  split
  · exact ends_ok (.of_store h.lexical rfl rfl) ()
  · exact haction s h

section Operators

variable {left left' right right' : Eval Value} (hleft : Keeps program n left left')
  (hright : Keeps program n right right')

include hleft hright

theorem keeps_logical (operator : Operator) (decides : Bool) :
    Keeps program n (Rules.logical operator decides left right)
      (Rules.logical operator decides left' right') := by
  refine hleft.bind fun v => ?_
  cases v with
  | number x => exact keeps_fail _
  | boolean b =>
      dsimp only
      split
      · exact keeps_pure _
      · exact hright
  | function id => exact keeps_fail _

theorem keeps_binary (operator : Operator) :
    Keeps program n (Rules.binary operator left right) (Rules.binary operator left' right') := by
  have hoperate : Keeps program n
      (do let a ← left; let b ← right; Eval.ofExcept (Rules.operate operator a b))
      (do let a ← left'; let b ← right'; Eval.ofExcept (Rules.operate operator a b)) := by
    refine hleft.bind fun a => hright.bind fun b => ?_
    cases Rules.operate operator a b with
    | ok v => exact keeps_pure v
    | error e => exact keeps_fail e
  cases operator with
  | and => exact keeps_logical hleft hright _ _
  | or => exact keeps_logical hleft hright _ _
  | strictEqual => exact hleft.bind fun a => hright.bind fun b => keeps_pure _
  | _ => exact hoperate

end Operators

/-- Binding parameters leaves scopes as they are, also if one of them is no key. -/
theorem keeps_bindAll (frame : FrameId) (entries : List (Name × Value)) :
    Keeps program n (Rules.bindAll frame entries) (Rules.bindAll frame entries) := by
  induction entries with
  | nil => exact keeps_pure ()
  | cons entry rest ih =>
      obtain ⟨name, v⟩ := entry
      have hkey : Keeps program n (Eval.keyOf name) (Eval.keyOf name) := by
        unfold Eval.keyOf
        cases name.key? with
        | none => exact keeps_throw _
        | some key => exact keeps_pure key
      refine hkey.bind fun _ => Keeps.bind (fun s h => ?_) fun _ => ih
      exact ends_ok (onward_set h.lexical frame name v) ()

/-- What is called is a closure of the store. -/
theorem closure_of_callee {callee : Name} {count : Nat} {closure : Closure} {frame : FrameId}
    (h : (Reference.world s).callee frame callee count = .ok closure) :
    ∃ id : ClosureId, s.store.closures[id]? = some closure := by
  unfold Reference.World.callee at h
  split at h
  · cases h
  next id _ =>
    cases hclosure : s.store.closures[id]? with
    | none =>
        simp only [Reference.world, hclosure] at h
        cases h
    | some c =>
        simp only [Reference.world, hclosure] at h
        split at h
        · cases h
        · cases h
          exact ⟨id, hclosure⟩
  · cases h

section Rules

variable {eval eval' : Expr → Eval Value} {exec exec' : Stmt → Eval Unit}
  (heval : ∀ n e, program.Occurs n (.expr e) → Keeps program n (eval e) (eval' e))
  (hexec : ∀ n stmt, program.Occurs n (.stmt stmt) → Keeps program n (exec stmt) (exec' stmt))

include hexec in
/-- Statements that stand below as many blocks run in the same frame. -/
theorem keeps_sequence {stmts : List Stmt}
    (hoccurs : ∀ stmt ∈ stmts, program.Occurs n (.stmt stmt)) :
    Keeps program n (Rules.sequence exec stmts) (Rules.sequence exec' stmts) := by
  induction stmts with
  | nil => exact keeps_pure ()
  | cons stmt rest ih =>
      obtain ⟨hstmt, hrest⟩ := List.forall_mem_cons.mp hoccurs
      exact (hexec n stmt hstmt).bind fun _ => keeps_unlessReturning (ih hrest)

include heval in
theorem keeps_evalAll {es : List Expr} (hoccurs : ∀ e ∈ es, program.Occurs n (.expr e)) :
    Keeps program n (Rules.evalAll eval es) (Rules.evalAll eval' es) := by
  induction es with
  | nil => exact keeps_pure []
  | cons e rest ih =>
      obtain ⟨he, hrest⟩ := List.forall_mem_cons.mp hoccurs
      exact (heval n e he).bind fun v => (ih hrest).bind fun vs => keeps_pure _

include hexec in
/-- The body of a closure runs below the frame that the closure remembers, so at the depth at which
it stands, wherever the call is made. -/
theorem ends_invoke (h : At program n s) (callee : Name) {closure : Closure} (values : List Value)
    {span : Option Span} (hframe : closure.frame < s.store.frames.size)
    (hliteral : program.Occurs (s.store.depth closure.frame)
      (.expr (.function span closure.parameters closure.body))) :
    Ends program s (Rules.invoke exec callee closure values s)
      (Rules.invoke exec' callee closure values s) := by
  obtain ⟨honward, hchain⟩ :=
    onward_withFrame h.lexical ("call:" ++ callee.plain) hframe
  have hdepth := depth_of_chain hchain
  generalize hstart : Eval.withFrame s ("call:" ++ callee.plain) closure.frame = start at *
  have hinside : s.store.frames.size < start.store.frames.size := by
    simp [← hstart, Eval.withFrame, Store.addFrame]
  have hbody : Keeps program (s.store.depth closure.frame + 1)
      (Rules.sequence exec closure.body) (Rules.sequence exec' closure.body) :=
    keeps_sequence hexec fun stmt hmem => .block hliteral (List.mem_singleton_self _) hmem
  have hstartAt : At program n start := h.onward honward
  unfold Rules.invoke
  rw [Eval.bind_apply, Eval.bind_apply, Eval.newFrame_apply, hstart]
  refine Ends.after ?_ honward
  refine ends_bind (keeps_bindAll _ _ start hstartAt) fun _ t ht => ?_
  refine ends_bind (keeps_record _ t (hstartAt.onward ht)) fun _ u hu => ?_
  have hlater := ht.trans hu
  have hdepthLater : u.store.depth s.store.frames.size = s.store.depth closure.frame + 1 := by
    rw [hlater.grows.depth honward.lexical.older hu.lexical.older hinside, hdepth]
  have hinsideLater := Nat.lt_of_lt_of_le hinside hlater.grows.size
  refine ends_bind (ends_within hu.lexical hinsideLater hdepthLater hbody _) fun _ v hv => ?_
  have hend : At program n v := (hstartAt.onward hlater).onward hv
  exact keeps_takePending v hend

include heval hexec in
/-- The body of a closure runs at its own depth, the arguments at that of the caller. -/
theorem keeps_call (callee : Name) {arguments : List Expr}
    (hoccurs : ∀ e ∈ arguments, program.Occurs n (.expr e)) :
    Keeps program n (Rules.call eval exec callee arguments)
      (Rules.call eval' exec' callee arguments) := by
  intro s h
  rw [Reference.call_apply, Reference.call_apply]
  cases hcallee : (Reference.world s).callee s.context.frame callee arguments.length with
  | error failure => exact ends_error (.of_store h.lexical rfl rfl) failure
  | ok closure =>
      obtain ⟨id, hclosure⟩ := closure_of_callee hcallee
      obtain ⟨hframe, span, hliteral⟩ := h.lexical.closures hclosure
      refine ends_bind (keeps_evalAll heval hoccurs s h) fun values t ht => ?_
      -- arguments may make frames, but the one that the closure remembers stays where it is
      have hdepth := ht.grows.depth h.lexical.older ht.lexical.older hframe
      rw [← hdepth] at hliteral
      exact ends_invoke hexec (h.onward ht) callee values
        (Nat.lt_of_lt_of_le hframe ht.grows.size) hliteral

include heval hexec in
/-- The step over expressions: operands run at the depth of the whole, and a closure remembers
it. -/
theorem keeps_evalStep {e : Expr} (hoccurs : program.Occurs n (.expr e)) :
    Keeps program n (Rules.evalStep eval exec e) (Rules.evalStep eval' exec' e) := by
  cases e with
  | number span x => exact keeps_pure _
  | boolean span b => exact keeps_pure _
  | «variable» span name =>
      intro s h
      change Ends program s (Eval.lookup name s) (Eval.lookup name s)
      rw [Reference.lookup_apply]
      exact ends_settle h.lexical _
  | binary span operator left right =>
      have hleft := heval n left (.operand hoccurs (by simp [Part.operands]))
      have hright := heval n right (.operand hoccurs (by simp [Part.operands]))
      exact keeps_binary hleft hright operator
  | function span parameters body =>
      intro s h
      exact ends_ok (onward_newClosure h hoccurs) _
  | call span callee arguments =>
      have harguments : ∀ e ∈ arguments, program.Occurs n (.expr e) :=
        fun e he => .operand hoccurs (List.mem_map_of_mem he)
      refine (keeps_call heval hexec callee harguments).bind fun result => ?_
      cases result with
      | none => exact keeps_fail _
      | some v => exact keeps_pure v
  | malformed reason => exact keeps_throw _

/-- The rounds of a loop run at the same depth. The induction is on the rounds that are left. -/
theorem keeps_loop {test test' : Eval Value} {body body' : Eval Unit}
    (htest : Keeps program n test test') (hbody : Keeps program n body body') (iterations : Nat) :
    Keeps program n (Rules.loop test body iterations) (Rules.loop test' body' iterations) := by
  induction iterations with
  | zero => exact keeps_throw _
  | succ iterations ih =>
      refine htest.bind fun v => ?_
      cases v with
      | number x => exact keeps_fail _
      | boolean b =>
          cases b with
          | true => exact hbody.bind fun _ => keeps_unlessReturning ih
          | false => exact keeps_pure ()
      | function id => exact keeps_fail _

theorem keeps_bindHere (name : Name) (v : Value) :
    Keeps program n (Rules.bindHere name v) (Rules.bindHere name v) := by
  intro s h
  have hnamed := onward_nameValue h.lexical name v
  have hset := hnamed.trans (onward_set hnamed.lexical s.context.frame name v)
  unfold Rules.bindHere
  rw [Eval.bind_apply, Eval.get_apply]
  refine ends_bind (ends_ok hset ()) fun _ t ht => ?_
  exact keeps_record _ t (h.onward ht)

theorem keeps_declare (name : Name) {value value' : Eval Value}
    (hvalue : Keeps program n value value') :
    Keeps program n (Rules.declare name value) (Rules.declare name value') := by
  intro s h
  rw [Reference.declare_apply, Reference.declare_apply]
  cases (Reference.world s).declarable s.context.frame name with
  | error failure => exact ends_error (.of_store h.lexical rfl rfl) failure
  | ok _ => exact hvalue.bind (fun v => keeps_bindHere name v) s h

theorem keeps_assign (name : Name) {value value' : Eval Value}
    (hvalue : Keeps program n value value') :
    Keeps program n (Rules.assign name value) (Rules.assign name value') := by
  intro s h
  rw [Reference.assign_apply, Reference.assign_apply]
  cases (Reference.world s).target s.context.frame name with
  | error failure => exact ends_error (.of_store h.lexical rfl rfl) failure
  | ok target =>
      refine hvalue.bind (fun v t ht => ?_) s h
      exact ends_ok (onward_set ht.lexical target name v) ()

theorem keeps_give {value value' : Eval Value} (hvalue : Keeps program n value value') :
    Keeps program n (Rules.give value) (Rules.give value') := by
  intro s h
  unfold Rules.give
  rw [Eval.bind_apply, Eval.bind_apply, Eval.get_apply]
  dsimp only
  split
  · exact ends_error (.of_store h.lexical rfl rfl) _
  · exact hvalue.bind (fun v => keeps_signal v) s h

include heval hexec in
/-- The step over statements: operands run at the depth of the whole, blocks one deeper. -/
theorem keeps_execStep (iterations : Nat) {stmt : Stmt} (hoccurs : program.Occurs n (.stmt stmt)) :
    Keeps program n (Rules.execStep iterations eval exec stmt)
      (Rules.execStep iterations eval' exec' stmt) := by
  have hoperand : ∀ e, .expr e ∈ (Part.stmt stmt).operands → Keeps program n (eval e) (eval' e) :=
    fun e hmem => heval n e (.operand hoccurs hmem)
  -- blocks stand one level further in, and run one frame further in
  have hblock : ∀ name block, block ∈ (Part.stmt stmt).blocks →
      Keeps program n (Eval.inChild name (Rules.sequence exec block))
        (Eval.inChild name (Rules.sequence exec' block)) :=
    fun name block hmem => keeps_inChild name
      (keeps_sequence hexec fun inner hinner => .block hoccurs hmem hinner)
  cases stmt with
  | declare span name value => exact keeps_declare name (hoperand value (by simp [Part.operands]))
  | assign span name value => exact keeps_assign name (hoperand value (by simp [Part.operands]))
  | branch span test thenPart elsePart =>
      refine (hoperand test (by simp [Part.operands])).bind fun v => ?_
      cases v with
      | number x => exact keeps_fail _
      | boolean b =>
          cases b with
          | true => exact hblock _ thenPart (by simp [Part.blocks])
          | false => exact hblock _ elsePart (by simp [Part.blocks])
      | function id => exact keeps_fail _
  | loop span test body =>
      exact keeps_loop (hoperand test (by simp [Part.operands]))
        (hblock _ body (by simp [Part.blocks])) iterations
  | print span value =>
      refine (hoperand value (by simp [Part.operands])).bind fun v => ?_
      exact (keeps_record _).bind fun _ => keeps_emit v
  | discard span value =>
      have hvalue := hoperand value (by simp [Part.operands])
      have hinner : program.Occurs n (.expr value) := .operand hoccurs (by simp [Part.operands])
      cases value with
      | call callSpan callee arguments =>
          have harguments : ∀ e ∈ arguments, program.Occurs n (.expr e) :=
            fun e he => .operand hinner (List.mem_map_of_mem he)
          exact (keeps_call heval hexec callee harguments).bind fun _ => keeps_pure ()
      | _ => exact hvalue.bind fun _ => keeps_pure ()
  | give span value => exact keeps_give (hoperand value (by simp [Part.operands]))
  | malformed reason => exact keeps_throw _

end Rules

/-! ## Whole runs -/

/-- A watch for what is in place has nothing to say about a part at its own depth. -/
theorem keeps_guarded {watch : Watch} (alarm : Failure) {parts : List Part}
    (hwatch : ∀ part s, InPlace program part s → watch part s = true)
    (hparts : ∀ part ∈ parts, program.Occurs n part) {action action' : Eval α}
    (haction : Keeps program n action action') :
    Keeps program n action (watch.guarded alarm parts action') := by
  intro s h
  have hall : parts.all (watch · s) = true := by
    rw [List.all_eq_true]
    intro part hmem
    apply hwatch
    refine ⟨?_, h.lexical⟩
    rw [h.depth]
    exact hparts part hmem
  unfold Watch.guarded
  rw [if_pos hall]
  exact haction s h

/-- A discarded call stands where the statement stands that discards it. -/
theorem occurs_starts {stmt : Stmt} (h : program.Occurs n (.stmt stmt)) :
    ∀ part ∈ stmt.starts, program.Occurs n part := by
  intro part hmem
  unfold Stmt.starts at hmem
  split at hmem
  · rcases List.mem_pair.mp hmem with rfl | rfl
    · exact h
    · exact .operand h (List.mem_singleton_self _)
  · obtain rfl := List.mem_singleton.mp hmem
    exact h

/-- A watch that lets pass whatever is in place changes nothing. -/
theorem keeps_watch {watch : Watch} (alarm : Failure)
    (hwatch : ∀ part s, InPlace program part s → watch part s = true) (iterations depth : Nat) :
    (∀ n e, program.Occurs n (.expr e) →
      Keeps program n (eval iterations depth e) (watch.eval alarm iterations depth e)) ∧
    ∀ n stmt, program.Occurs n (.stmt stmt) →
      Keeps program n (exec iterations depth stmt) (watch.exec alarm iterations depth stmt) := by
  induction depth with
  | zero => exact ⟨fun _ _ _ => keeps_throw _, fun _ _ _ => keeps_throw _⟩
  | succ depth ih =>
      refine ⟨fun n e hoccurs => ?_, fun n stmt hoccurs => ?_⟩
      · have hparts : ∀ part ∈ [Part.expr e], program.Occurs n part :=
          List.forall_mem_singleton.mpr hoccurs
        exact keeps_guarded alarm hwatch hparts (keeps_evalStep ih.1 ih.2 hoccurs)
      · exact keeps_guarded alarm hwatch (occurs_starts hoccurs)
          (keeps_execStep ih.1 ih.2 iterations hoccurs)

theorem keeps_execAll {watch : Watch} (alarm : Failure)
    (hwatch : ∀ part s, InPlace program part s → watch part s = true) (limits : Limits)
    {stmts : List Stmt} (hoccurs : ∀ stmt ∈ stmts, program.Occurs 0 (.stmt stmt)) :
    Keeps program 0 (execAll limits stmts) (watch.execAll alarm limits stmts) := by
  induction stmts with
  | nil => exact keeps_pure ()
  | cons stmt rest ih =>
      obtain ⟨hstmt, hrest⟩ := List.forall_mem_cons.mp hoccurs
      have hboth := keeps_watch alarm hwatch limits.iterations limits.depth
      exact (hboth.2 0 stmt hstmt).bind fun _ => ih hrest

/-- A run starts at the top level, with nothing around it. -/
theorem at_initial (program : Program) : At program 0 State.initial where
  lexical := by
    have holder : State.initial.store.Older := by
      intro id parent hparent
      match id with
      | 0 => cases hparent
      | id + 1 => cases hparent
    refine ⟨holder, fun id hid => ?_, fun hc => ?_⟩
    · obtain rfl : id = 0 := Nat.lt_one_iff.mp hid
      rfl
    · cases hc
  inside := Nat.zero_lt_one
  depth := rfl

/-- A watch for what is in place never ends a run. -/
theorem ends_run (limits : Limits) (program : Program) (watch : Watch) (alarm : Failure)
    (hwatch : ∀ part s, InPlace program part s → watch part s = true) :
    Ends program State.initial (execAll limits program State.initial)
      (watch.execAll alarm limits program State.initial) :=
  keeps_execAll alarm hwatch limits (fun _ hmem => .top hmem) _ (at_initial program)

/-- Parts are executed in their places, at every moment of a run. -/
theorem always_inPlace (limits : Limits) (program : Program) :
    program.Always limits (InPlace program) := by
  intro watch alarm hexact
  rw [(ends_run limits program watch alarm fun part s => (hexact part s).mpr).1]

/-- All frames and closures of a run are in their places at its end. -/
theorem lexical_run (limits : Limits) (program : Program) :
    (program.run limits).state.store.Lexical program := by
  have hallows := (ends_run limits program (fun _ _ => true) .tooDeep fun _ _ _ => rfl).2
  unfold Program.run
  cases hrun : execAll limits program State.initial with
  | ok a t =>
      rw [hrun] at hallows
      exact hallows.lexical
  | error failure t =>
      rw [hrun] at hallows
      dsimp only
      split <;> exact hallows.lexical

/-- Scopes follow the text, never the calls. At every moment of a run, the part that is executed
stands in the program below as many blocks as the current frame has ancestors; every closure
remembers a frame of the depth of its literal, and every chain of frames ends at the top level. The
closures and frames at the end of the run are those that were ever made.

Marks tell equal parts at different places apart. They take the place of spans, and the marked
program goes through the same moments; there the number of ancestors is the only number of blocks
that the part stands below. -/
theorem depth_eq_nesting (limits : Limits) (program : Program) :
    program.Always limits (InPlace program) ∧
    (program.run limits).state.store.Lexical program ∧
    program.marked.Always limits (fun part s => part.span?.isSome →
      ∀ n, program.marked.Occurs n part ↔ n = s.store.depth s.context.frame) ∧
    ∀ property, SpanFree property →
      (program.Always limits property ↔ program.marked.Always limits property) := by
  refine ⟨always_inPlace limits program, lexical_run limits program, ?_, fun property hfree => ?_⟩
  · intro watch alarm hexact
    have hpasses : ∀ part s, InPlace program.marked part s → watch part s = true := by
      intro part s h
      rw [hexact]
      intro hspan n
      constructor
      · exact fun hoccurs => hoccurs.unique hspan h.occurs
      · rintro rfl
        exact h.occurs
    rw [(ends_run limits program.marked watch alarm hpasses).1]
  · have halike : Stmt.AllAlike .text program program.marked :=
      Stmt.allAlike_labelled Likeness.text_spanBlind 0 program
    exact Program.always_congr limits halike hfree

end Nesting

end Treewalk
