import Treewalk.Proofs.Evaluation.Regime
import Treewalk.Proofs.Evaluation.Visibility

/-! # Stores stay well founded

Frames and closures refer to each other in circles: a frame may bind a closure that remembers this
very frame. Walks along the parents go in no circles all the same, since a frame is made below one
that is there already, also where a call puts it below a frame that some closure remembers. Parents
are then older than their children, and a walk outward meets older and older frames.

This holds in all states that can be reached by executing statements and evaluating expressions: at
the end of an execution, whether it fails or not, and at each moment of it. Moments are what a watch
can raise an alarm at.
-/

namespace Treewalk

/-! ## Walks outward -/

namespace Store

/-- The search for a key from a frame outward: the frames that are visited, and the one that binds
the key, if any does. -/
inductive Search (store : Store) (key : Key) :
    Option FrameId → List FrameId → Option FrameId → Prop where
  | outside : Search store key none [] none
  | found {id} : store.hasLocal id key = true → Search store key (some id) [id] (some id)
  | outward {id ids owner} : store.hasLocal id key = false →
      Search store key (store.parent? id) ids owner →
      Search store key (some id) (id :: ids) owner

/-- Walks outward from a frame end, in frames of the store and without meeting a frame twice. -/
structure WalksEnd (store : Store) (id : FrameId) : Prop where
  /-- Going from parent to parent leads to a frame that has none. -/
  climb : store.Chain id (store.chain id)
  once : (store.chain id).Nodup
  inside : ∀ frame ∈ store.chain id, frame < store.frames.size
  depth : (store.chain id).length = store.depth id + 1
  /-- A search visits frames of this chain only, and yields what is found. -/
  find : ∀ key, ∃ ids, store.Search key (some id) ids (store.find? id key) ∧ ids.Nodup ∧
    ids <+: store.chain id
  /-- Where a key is found, there is a value for it. -/
  get : ∀ key, (store.find? id key = none ∧ store.get? id key = none) ∨
    ∃ owner v, store.find? id key = some owner ∧ store.cell? owner key = some v ∧
      store.get? id key = some v

variable {store : Store} {id : FrameId} {key : Key}

/-- Ancestors are older. -/
theorem le_of_mem_chain (holder : store.Older) {other : FrameId} (h : other ∈ store.chain id) :
    other ≤ id := by
  induction id using Nat.strongRecOn with
  | ind id ih =>
      rw [chain_eq holder] at h
      rcases List.mem_cons.mp h with rfl | h
      · exact Nat.le_refl _
      · cases hparent : store.parent? id with
        | none =>
            rw [hparent] at h
            cases h
        | some parent =>
            rw [hparent] at h
            have hlt := holder hparent
            exact Nat.le_trans (ih parent hlt h) (Nat.le_of_lt hlt)

/-- A chain leads to older and older frames. -/
theorem chain_pairwise (holder : store.Older) (id : FrameId) :
    (store.chain id).Pairwise (fun frame other => other < frame) := by
  induction id using Nat.strongRecOn with
  | ind id ih =>
      rw [chain_eq holder]
      cases hparent : store.parent? id with
      | none => exact List.pairwise_singleton _ id
      | some parent =>
          have hlt := holder hparent
          refine List.pairwise_cons.mpr ⟨fun other hother => ?_, ih parent hlt⟩
          exact Nat.lt_of_le_of_lt (le_of_mem_chain holder hother) hlt

/-- No frame is met twice on the way outward. -/
theorem chain_nodup (holder : store.Older) (id : FrameId) : (store.chain id).Nodup :=
  (chain_pairwise holder id).imp fun h => (Nat.ne_of_lt h).symm

/-- A search ends, at the frame that a lookup finds. -/
theorem search_find? (holder : store.Older) (key : Key) (id : FrameId) :
    ∃ ids, store.Search key (some id) ids (store.find? id key) ∧ ids <+: store.chain id := by
  induction id using Nat.strongRecOn with
  | ind id ih =>
      unfold find?
      rw [chain_eq holder, List.find?_cons]
      cases hlocal : store.hasLocal id key with
      | true => exact ⟨[id], .found hlocal, List.prefix_append [id] _⟩
      | false =>
          cases hparent : store.parent? id with
          | none =>
              refine ⟨[id], .outward hlocal ?_, List.prefix_rfl⟩
              rw [hparent]
              exact .outside
          | some parent =>
              obtain ⟨ids, hsearch, hprefix⟩ := ih parent (holder hparent)
              refine ⟨id :: ids, .outward hlocal ?_, (List.prefix_cons_inj id).mpr hprefix⟩
              rw [hparent]
              exact hsearch

/-- Where parents are older, every walk ends, at the latest with the oldest frame. -/
theorem walksEnd (holder : store.Older) (hid : id < store.frames.size) : store.WalksEnd id where
  climb := chain_spec holder id
  once := chain_nodup holder id
  inside frame hframe := Nat.lt_of_le_of_lt (le_of_mem_chain holder hframe) hid
  depth := (Nat.sub_add_cancel (List.length_pos_iff.mpr (chain_ne_nil store id))).symm
  find key := by
    obtain ⟨ids, hsearch, hprefix⟩ := search_find? holder key id
    exact ⟨ids, hsearch, hprefix.sublist.nodup (chain_nodup holder id), hprefix⟩
  get key := by
    cases hfind : store.find? id key with
    | none => exact .inl ⟨rfl, find?_eq_none_iff.mp hfind⟩
    | some owner =>
        have hlocal := hasLocal_of_find? hfind
        rw [hasLocal_eq_isSome, Option.isSome_iff_exists] at hlocal
        obtain ⟨v, hv⟩ := hlocal
        exact .inr ⟨owner, v, rfl, hv, (get?_eq_cell? hfind).trans hv⟩

/-- A closure that a value refers to is there, and so is the frame that it remembers. -/
def Captures (store : Store) : Value → Prop
  | .function id => ∃ c, store.closures[id]? = some c ∧ c.frame < store.frames.size
  | _ => True

/-- A closure of a sound store remembers a frame of it. -/
theorem Sound.captures (h : store.Sound) {v : Value} (hv : store.Has v) : store.Captures v := by
  cases v with
  | function id =>
      have hclosure : store.closures[id]? = some store.closures[id] := Array.getElem?_eq_getElem hv
      exact ⟨_, hclosure, h.captured hclosure⟩
  | _ => trivial

end Store

/-- A state in which frames are well founded. -/
structure State.Founded (s : State) : Prop where
  older : ∀ {id parent}, s.store.parent? id = some parent →
    parent < id ∧ id < s.store.frames.size
  wellFounded : WellFounded fun parent id => s.store.parent? id = some parent
  bound : ∀ {id : FrameId} {frame}, s.store.frames[id]? = some frame →
    ∀ entry ∈ frame.bindings, s.store.Captures entry.2
  printed : ∀ v ∈ s.context.printed.toList, s.store.Captures v
  returned : ∀ v ∈ s.context.pending, s.store.Captures v
  current : s.context.frame < s.store.frames.size
  walks : ∀ id < s.store.frames.size, s.store.WalksEnd id

/-- A sound state is well founded. -/
theorem State.Sound.founded {s : State} (h : s.Sound) : s.Founded where
  older hparent := ⟨h.store.older hparent, Store.lt_size_of_parent? hparent⟩
  wellFounded := Subrelation.wf h.store.older Nat.lt_wfRel.wf
  bound hframe entry hentry := h.store.captures (h.store.bound hframe entry hentry)
  printed v hv := h.store.captures (h.printed v hv)
  returned v hv := h.store.captures (h.pending v hv)
  current := h.current
  walks _ := Store.walksEnd h.store.older

/-! ## Reachable states -/

def stateOf {α : Type} : EStateM.Result Failure State α → State
  | .ok _ t => t
  | .error _ t => t

/-- Executes a part, up to a nesting depth. An expression yields its value. -/
def Part.run (iterations depth : Nat) : Part → Eval (Option Value)
  | expr e => do
    let v ← eval iterations depth e
    pure (some v)
  | stmt s => do
    exec iterations depth s
    pure none

def Watch.run (watch : Watch) (alarm : Failure) (iterations depth : Nat) :
    Part → Eval (Option Value)
  | .expr e => do
    let v ← watch.eval alarm iterations depth e
    pure (some v)
  | .stmt s => do
    watch.exec alarm iterations depth s
    pure none

/-- Two states with the same store and the same context. What was shown and what is in the trace
may differ. -/
structure State.Matches (s t : State) : Prop where
  store : t.store = s.store
  context : t.context = s.context

/-- The execution of a part from a state comes to a moment at which some inner part is about to be
executed in another state: a watch for just this moment raises its alarm, whatever failure stands
for it. -/
def Part.Visits (iterations depth : Nat) (part : Part) (s : State) (inner : Part) (t : State) :
    Prop :=
  ∃ watch : Watch, (∀ other u, watch other u = false ↔ other = inner ∧ t.Matches u) ∧
    ∀ alarm, failureOf (watch.run alarm iterations depth part s) = some alarm

/-- The states that are reached from a state by executing parts one after the other: those in which
executions end, and those that they come to. -/
inductive State.LeadsTo (s : State) : State → Prop where
  | start : State.LeadsTo s s
  | ending {t} (iterations depth : Nat) (part : Part) : State.LeadsTo s t →
      State.LeadsTo s (stateOf (part.run iterations depth t))
  | moment {t u iterations depth} {part inner : Part} : State.LeadsTo s t →
      part.Visits iterations depth t inner u → State.LeadsTo s u

/-! ## Runs that are not stopped -/

/-- A watch that lets pass all sound states in stores that a store grows to. -/
def Watch.PassesSound (watch : Watch) (start : Store) : Prop :=
  ∀ part t, t.Sound → start.Grows t.store → watch part t = true

/-- A watch that looks at stores and contexts only. -/
def Watch.Blind (watch : Watch) : Prop :=
  ∀ part s t, State.Matches s t → watch part t = watch part s

namespace Regime

/-- Anything may be executed and made, in stores that a store grows to. The one failure that is left
out is reported of whole runs only. -/
def growing (start : Store) : Regime where
  stands s _ := start.Grows s.store
  made _ _ := True
  fault failure _ := failure ≠ .error .recursionLimitExceeded

/-- The regime under which anything may be done to a store that grows is lawful. -/
theorem growing_lawful (start : Store) : (growing start).Lawful where
  stays hgrows honward := hgrows.trans honward.store
  operand hgrows _ := hgrows
  block hgrows _ _ hlater _ := hgrows.trans hlater
  literal _ := trivial
  body hgrows _ _ hlater _ := hgrows.trans hlater
  raised := by
    have hname : ∀ {name failure}, Failure.OfName name failure →
        failure ≠ .error .recursionLimitExceeded := by
      rintro name failure (⟨_, hmalformed⟩ | hordinary) rfl
      · cases hmalformed
      · cases hordinary
    have hoperands : ∀ {failure}, Failure.OfOperands failure →
        failure ≠ .error .recursionLimitExceeded := by
      rintro _ h rfl
      cases h
    intro s part failure _ _ hraises
    cases hraises with
    | lookup h => exact hname (Reference.World.lookup_error h)
    | decided h => exact hoperands (Reference.decided_error h)
    | combined h => exact hoperands (Reference.combined_error h)
    | callee h => exact hname (Reference.World.callee_error h)
    | declare h => exact hname (Reference.World.declarable_error h)
    | assign h => exact hname (Reference.World.target_error h)
    | @malformedExpr reason => cases reason <;> rintro ⟨⟩
    | @malformedStmt reason => cases reason <;> rintro ⟨⟩
    | _ => rintro ⟨⟩
  tooDeep := by rintro ⟨⟩
  under _ _ h := h

variable {start : Store} {watch : Watch} (alarm : Failure)

theorem keeps_guarded {α : Type} {parts : List Part} {action : Eval α} {post : State → α → Prop}
    {culprit : State → Option Stmt} (hpass : watch.PassesSound start)
    (haction : (growing start).Keeps (start.Grows ·.store) post action culprit) :
    (growing start).Keeps (start.Grows ·.store) post (watch.guarded alarm parts action)
      culprit := by
  intro s h hgrows
  have hall : parts.all (watch · s) = true :=
    List.all_eq_true.mpr fun part _ => hpass part s h.sound hgrows
  unfold Watch.guarded
  rw [if_pos hall]
  exact haction s h hgrows

/-- A watch that lets pass all sound states stops nothing. -/
theorem keeps_watch (hpass : watch.PassesSound start) (iterations depth : Nat) :
    (∀ e, ∃ culprit, (growing start).Keeps (start.Grows ·.store) valid
      (watch.eval alarm iterations depth e) culprit) ∧
    ∀ stmt, ∃ culprit, (growing start).Keeps (start.Grows ·.store) anything
      (watch.exec alarm iterations depth stmt) culprit := by
  have hlawful := growing_lawful start
  induction depth with
  | zero =>
      exact ⟨fun _ => ⟨fun _ => none, fun s h _ => .error h (.refl s) hlawful.tooDeep⟩,
        fun _ => ⟨fun _ => none, fun s h _ => .error h (.refl s) hlawful.tooDeep⟩⟩
  | succ depth ih =>
      choose inExpr heval using ih.1
      choose inStmt hexec using ih.2
      exact ⟨fun e => ⟨_, keeps_guarded alarm hpass (keeps_evalStep hlawful heval hexec e)⟩,
        fun stmt => ⟨_, keeps_guarded alarm hpass
          (keeps_execStep hlawful heval hexec iterations stmt)⟩⟩

/-- A watch that lets pass all sound states leaves a part to end in one of them. -/
theorem ends_run (hpass : watch.PassesSound start) (iterations depth : Nat) (part : Part)
    {s : State} (h : (growing start).Holds s) (hgrows : start.Grows s.store) :
    ∃ culprit, (growing start).Ends optionValid s (watch.run alarm iterations depth part s)
      culprit := by
  have hkeeps := keeps_watch alarm hpass iterations depth
  cases part with
  | expr e =>
      obtain ⟨culprit, heval⟩ := hkeeps.1 e
      refine ⟨culprit s, (heval s h hgrows).andThen fun v t ht _ hv => .ok ht (.refl t) ?_⟩
      rintro _ ⟨⟩
      exact hv
  | stmt stmt =>
      obtain ⟨culprit, hexec⟩ := hkeeps.2 stmt
      refine ⟨culprit s, (hexec s h hgrows).andThen fun _ t ht _ _ => .ok ht (.refl t) ?_⟩
      rintro _ ⟨⟩

end Regime

/-! ## Runs from states that match -/

/-- Nothing is out of sight, and nothing may differ. -/
def Slack.exact : Slack where
  like := .same
  frames _ := False
  closures _ := False

theorem Slack.agree_self (v : Value) : Slack.exact.Agree v v := by
  refine ⟨.refl (fun _ => rfl) v, ?_⟩
  cases v <;> first | trivial | exact id

namespace State

variable {s t : State}

/-- Soundness is a matter of store and context. -/
theorem Matches.sound (h : s.Matches t) (hs : s.Sound) : t.Sound where
  store := h.store ▸ hs.store
  current := by rw [h.store, h.context]; exact hs.current
  printed := by rw [h.store, h.context]; exact hs.printed
  pending := by rw [h.store, h.context]; exact hs.pending

theorem Matches.symm (h : s.Matches t) : t.Matches s := ⟨h.store.symm, h.context.symm⟩

/-- States with the same store and context go along with each other. -/
theorem Matches.tied (h : s.Matches t) : Tied .exact s t where
  frame := congrArg Context.frame h.context
  callDepth := congrArg Context.callDepth h.context
  pending := by
    rw [h.context]
    cases s.context.pending with
    | none => exact .none
    | some v => exact .some (Slack.agree_self v)
  printed := by
    rw [h.context]
    exact List.forall₂_same.mpr fun v _ => .refl (fun _ => rfl) v
  frameCount := by rw [h.store]
  frames id := by
    rw [h.store]
    cases s.store.frames[id]? with
    | none => exact .none
    | some frame =>
        refine .some ⟨rfl, rfl, fun _ => List.forall₂_same.mpr fun entry _ => ?_⟩
        exact ⟨rfl, Slack.agree_self entry.2⟩
  closureCount := by rw [h.store]
  closures id := by
    rw [h.store]
    cases s.store.closures[id]? with
    | none => exact .none
    | some c => exact .some ⟨rfl, .refl Likeness.same_reflexive c.body, rfl, rfl⟩
  oldFrames _ := False.elim
  oldClosures _ := False.elim
  current := id
  parents _ _ _ _ _ _ := id
  captured _ _ _ _ := id

/-- States that go along with each other, with nothing out of sight, have the same store and
context. -/
theorem Matches.of_tied (h : Tied .exact s t) : s.Matches t := by
  have hframes : t.store.frames = s.store.frames := by
    apply Array.ext_getElem?
    intro id
    rcases h.frame_cases id with ⟨hs, ht⟩ | ⟨f, g, hs, ht, halike⟩
    · rw [hs, ht]
    · rw [hs, ht, halike.eq rfl False.elim]
  have hclosures : t.store.closures = s.store.closures := by
    apply Array.ext_getElem?
    intro id
    rcases h.closure_cases id with ⟨hs, ht⟩ | ⟨c, d, hs, ht, halike⟩
    · rw [hs, ht]
    · rw [hs, ht, halike.eq rfl]
  refine ⟨?_, h.context_eq rfl⟩
  calc t.store = ⟨t.store.frames, t.store.closures⟩ := rfl
    _ = s.store := by rw [hframes, hclosures]

end State

/-- Under a watch that looks at stores and contexts only, executions from states that match go along
with each other. -/
theorem Slack.simulates_run {watch : Watch} (hblind : watch.Blind) (alarm : Failure)
    (iterations depth : Nat) (part : Part) :
    Slack.exact.Simulates (Option.Rel Slack.exact.Agree)
      (watch.run alarm iterations depth part) (watch.run alarm iterations depth part) := by
  have hlawful : Slack.exact.Lawful := .of_eq rfl
  have hwatch : ∀ part part' s t, Part.Alike Slack.exact.like part part' → Tied .exact s t →
      watch part' t = watch part s := by
    intro part part' s t halike htied
    have hsame : part' = part := by
      cases halike with
      | expr h => rw [h.eq]
      | stmt h => rw [h.eq]
    rw [hsame]
    exact hblind part s t (.of_tied htied)
  have hboth := simulates_watch_eval_exec alarm hlawful hwatch iterations depth
  cases part with
  | expr e =>
      exact (hboth.1 e e (.refl Likeness.same_reflexive e)).bind fun _ _ hagree =>
        simulates_pure (.some hagree)
  | stmt stmt =>
      exact Simulates.bind (hboth.2 stmt stmt (.refl Likeness.same_reflexive stmt)) fun _ _ _ =>
        simulates_pure .none

/-- The end of an execution that no watch has stopped, in a sound state. -/
structure State.EndsSound (s : State) (r : EStateM.Result Failure State (Option Value)) : Prop where
  sound : (stateOf r).Sound
  grows : s.store.Grows (stateOf r).store
  value : ∀ v t, r = .ok (some v) t → t.store.Has v
  unstopped : failureOf r ≠ some (.error .recursionLimitExceeded)

/-- From a sound state, a watch that lets pass all sound states stops nothing. -/
theorem State.Sound.endsSound {s : State} (h : s.Sound) {watch : Watch} (hblind : watch.Blind)
    (hpass : watch.PassesSound s.store) (alarm : Failure) (iterations depth : Nat) (part : Part) :
    s.EndsSound (watch.run alarm iterations depth part s) := by
  -- what was shown does not matter, and so may be taken to be what a regime asks for
  let shown : State := { s with echoed := s.context.printed.map (·.text? s.store) }
  have hmatches : s.Matches shown := ⟨rfl, rfl⟩
  have hholds : (Regime.growing s.store).Holds shown :=
    ⟨hmatches.sound h, Array.toList_map, fun _ => trivial⟩
  obtain ⟨culprit, hends⟩ := Regime.ends_run alarm hpass iterations depth part hholds (.refl _)
  have hsame := Slack.simulates_run hblind alarm iterations depth part s shown hmatches.tied
  generalize watch.run alarm iterations depth part s = r,
    watch.run alarm iterations depth part shown = r' at hends hsame
  cases hsame with
  | ok hagree hgoes =>
      have hmatch := State.Matches.of_tied hgoes.tied
      cases hends with
      | ok hlater honward hvalid =>
          refine ⟨hmatch.symm.sound hlater.sound, ?_, ?_, by rintro ⟨⟩⟩
          · have hgrows := honward.store
            rw [hmatch.store] at hgrows
            exact hgrows
          · rintro v t ⟨⟩
            cases hagree with
            | some hagree =>
                have hvalue := hvalid _ rfl
                rw [hagree.1.eq rfl, hmatch.store] at hvalue
                exact hvalue
  | error hgoes =>
      have hmatch := State.Matches.of_tied hgoes.tied
      cases hends with
      | error hlater honward hfault =>
          refine ⟨hmatch.symm.sound hlater.sound, ?_, by rintro v t ⟨⟩, ?_⟩
          · have hgrows := honward.store
            rw [hmatch.store] at hgrows
            exact hgrows
          · rintro ⟨⟩
            exact hfault rfl

/-! ## A watch that lets everything pass -/

theorem watch_eval_exec_pass (alarm : Failure) (iterations depth : Nat) :
    (∀ e, Watch.eval (fun _ _ => true) alarm iterations depth e = eval iterations depth e) ∧
      ∀ stmt, Watch.exec (fun _ _ => true) alarm iterations depth stmt =
        exec iterations depth stmt := by
  have hguarded : ∀ {α : Type} (parts : List Part) (action : Eval α),
      Watch.guarded (fun _ _ => true) alarm parts action = action := by
    intro α parts action
    funext s
    exact if_pos (List.all_eq_true.mpr fun _ _ => rfl)
  induction depth with
  | zero => exact ⟨fun _ => rfl, fun _ => rfl⟩
  | succ depth ih =>
      refine ⟨fun e => ?_, fun stmt => ?_⟩
      · rw [Watch.eval, hguarded, funext ih.1, funext ih.2]
        rfl
      · rw [Watch.exec, hguarded, funext ih.1, funext ih.2]
        rfl

/-- A watch that lets everything pass changes nothing. -/
theorem Watch.run_pass (alarm : Failure) (iterations depth : Nat) (part : Part) :
    Watch.run (fun _ _ => true) alarm iterations depth part = part.run iterations depth := by
  have hboth := watch_eval_exec_pass alarm iterations depth
  cases part with
  | expr e => rw [Watch.run, Part.run, hboth.1]
  | stmt stmt => rw [Watch.run, Part.run, hboth.2]

/-- From a sound state every part ends in a sound state. -/
theorem State.Sound.run {s : State} (h : s.Sound) (iterations depth : Nat) (part : Part) :
    s.EndsSound (part.run iterations depth s) := by
  rw [← Watch.run_pass .unfinished]
  exact h.endsSound (fun _ _ _ _ => rfl) (fun _ _ _ _ => rfl) _ iterations depth part

/-! ## Well-founded states -/

/-- At a moment of an execution from a sound state, the state is sound and its store has grown. -/
theorem Part.Visits.sound {iterations depth : Nat} {part inner : Part} {s t : State}
    (h : part.Visits iterations depth s inner t) (hs : s.Sound) :
    t.Sound ∧ s.store.Grows t.store := by
  obtain ⟨watch, hexact, halarm⟩ := h
  by_contra hnot
  have hblind : watch.Blind := by
    intro part u v hmatches
    have hiff : watch part v = false ↔ watch part u = false := by
      rw [hexact, hexact]
      refine and_congr_right fun _ => ⟨fun h => ?_, fun h => ?_⟩
      · exact ⟨hmatches.store.symm.trans h.store, hmatches.context.symm.trans h.context⟩
      · exact ⟨hmatches.store.trans h.store, hmatches.context.trans h.context⟩
    rwa [Bool.eq_iff_iff, ← Bool.not_eq_false, ← Bool.not_eq_false, not_iff_not]
  -- a watch for the moment would let pass all sound states, and so would never stop
  have hpass : watch.PassesSound s.store := by
    intro part u hu hgrows
    by_contra hstopped
    obtain ⟨-, hmatches⟩ := (hexact part u).mp (Bool.not_eq_true _ ▸ hstopped)
    rw [hmatches.store] at hgrows
    exact hnot ⟨hmatches.symm.sound hu, hgrows⟩
  exact (hs.endsSound hblind hpass _ iterations depth part).unstopped (halarm _)

/-- What is reached from a sound state is sound, and its store has grown. -/
theorem State.LeadsTo.sound {s t : State} (h : s.LeadsTo t) (hs : s.Sound) :
    t.Sound ∧ s.store.Grows t.store := by
  induction h with
  | start => exact ⟨hs, .refl _⟩
  | ending iterations depth part _ ih =>
      have hends := ih.1.run iterations depth part
      exact ⟨hends.sound, ih.2.trans hends.grows⟩
  | moment _ hvisits ih =>
      obtain ⟨hsound, hgrows⟩ := hvisits.sound ih.1
      exact ⟨hsound, ih.2.trans hgrows⟩

/-- Frames stay well founded: in every state that is reached from a sound one, parents are older
than their children, closures that are bound, printed or returned remember frames that exist, and
walks outward end. Frames keep their places and parents, so that older frames are those that were
made before. -/
theorem State.founded_of_leadsTo {s t : State} (hs : s.Sound) (h : s.LeadsTo t) :
    t.Founded ∧ s.store.Grows t.store ∧
      ∀ iterations depth part v u, Part.run iterations depth part t = .ok (some v) u →
        u.store.Captures v := by
  obtain ⟨hsound, hgrows⟩ := h.sound hs
  refine ⟨hsound.founded, hgrows, fun iterations depth part v u hrun => ?_⟩
  have hends := hsound.run iterations depth part
  have hlater := hends.sound
  rw [hrun] at hlater
  exact hlater.store.captures (hends.value v u hrun)

/-! ## A frame that binds a closure over itself -/

/-- The body of a function that returns itself. -/
def selfReturn : Stmt := .give none (.variable none "f")

def selfCall : Stmt := .discard none (.call none "f" [])

/-- The frame that binds the function is the one that the function remembers. -/
def selfDeclared : State :=
  stateOf ((Part.stmt (.declare none "f" (.function none [] [selfReturn]))).run 1 2 State.initial)

/-- Inside of a call of the function. -/
def insideSelf : State where
  store := (selfDeclared.store.addFrame { name := "call:f", parent := some 0 }).2
  context := { frame := 1, callDepth := 1 }

/-- The call runs the body in a fresh child of the frame that the function remembers. -/
theorem call_stopped (eval : Expr → Eval Value) {exec : Stmt → Eval Unit} {alarm : Failure}
    (hexec : ∀ u, insideSelf.Matches u → exec selfReturn u = .error alarm u) :
    ∃ t, Rules.call eval exec "f" [] selfDeclared = .error alarm t := by
  let closure : Closure := { parameters := [], body := [selfReturn], frame := 0, name := some "f" }
  let entered : State := Reference.entered selfDeclared "f" [] ⟨insideSelf.store, #[]⟩
  have hcallee : (Reference.world selfDeclared).callee selfDeclared.context.frame "f" 0 =
      .ok closure := rfl
  have henter : (Reference.world selfDeclared).enter "f" closure [] =
      (none, ⟨insideSelf.store, #[]⟩) := rfl
  have hinside : insideSelf.Matches (Eval.entering entered 1 1) := ⟨rfl, rfl⟩
  have hbody : Rules.sequence exec closure.body (Eval.entering entered 1 1) =
      .error alarm (Eval.entering entered 1 1) := by
    change Rules.sequence exec [selfReturn] _ = _
    rw [Rules.sequence, Eval.bind_apply, hexec _ hinside]
  have hwithin : Eval.within 1 1 (Rules.sequence exec closure.body) entered =
      .error alarm (Eval.leaving entered 1 (Eval.entering entered 1 1)) := by
    rw [Eval.within_apply, hbody]
  have hinvoke : ∃ t, Rules.invoke exec "f" closure [] selfDeclared = .error alarm t := by
    rw [Reference.invoke_apply, henter]
    change ∃ t, (Eval.within 1 1 (Rules.sequence exec closure.body) >>= fun _ =>
      Eval.takePending) entered = .error alarm t
    rw [Eval.bind_apply, hwithin]
    exact ⟨_, rfl⟩
  rw [Reference.call_apply, List.length_nil, hcallee]
  exact hinvoke

theorem visits_insideSelf :
    (Part.stmt selfCall).Visits 1 2 selfDeclared (.stmt selfReturn) insideSelf := by
  classical
  let watch : Watch := fun other u => decide ¬ (other = .stmt selfReturn ∧ insideSelf.Matches u)
  have hexact : ∀ other u, watch other u = false ↔
      other = .stmt selfReturn ∧ insideSelf.Matches u := fun other u => by simp [watch]
  refine ⟨watch, hexact, fun alarm => ?_⟩
  have hstarts : selfCall.starts.all (watch · selfDeclared) = true := by
    simp [selfCall, selfReturn, Stmt.starts, watch]
  have hstop : ∀ u, insideSelf.Matches u → watch.exec alarm 1 1 selfReturn u = .error alarm u := by
    intro u hu
    refine if_neg ?_
    change ¬ (watch (.stmt selfReturn) u && true) = true
    rw [(hexact _ u).mpr ⟨rfl, hu⟩]
    decide
  obtain ⟨t, ht⟩ := call_stopped (watch.eval alarm 1 1) hstop
  have hexec : watch.exec alarm 1 2 selfCall selfDeclared = .error alarm t := by
    refine (if_pos hstarts).trans ?_
    change (Rules.call _ _ "f" [] >>= fun _ => pure ()) selfDeclared = _
    rw [Eval.bind_apply, ht]
  rw [Watch.run, Eval.bind_apply, hexec]
  rfl

/-- Inside of the call, the function is found over one step outward, in the frame that it
remembers. -/
theorem founded_of_leadsTo_insideSelf :
    State.initial.Sound ∧ State.initial.LeadsTo insideSelf ∧ insideSelf.Founded ∧
      insideSelf.store.get? 1 (.text "f") = some (.function 0) ∧
      insideSelf.store.find? 1 (.text "f") = some 0 ∧
      insideSelf.store.closures[0]?.map (·.frame) = some 0 := by
  have hsound := (Regime.holds_initial (.growing State.initial.store)).sound
  have hleads : State.initial.LeadsTo insideSelf :=
    .moment (.ending 1 2 _ .start) visits_insideSelf
  exact ⟨hsound, hleads, (State.founded_of_leadsTo hsound hleads).1, rfl, rfl, rfl⟩

end Treewalk
