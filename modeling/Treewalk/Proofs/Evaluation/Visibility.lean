import Mathlib.Tactic.IntervalCases
import Treewalk.Proofs.Evaluation.Writes

/-! # Who sees a binding

A name is looked up along the chain of parents, and the closest frame that binds it decides. A
binding in one frame is therefore seen from the frames whose chains lead to it over frames that do
not bind the name. All other frames, and all other names, are left alone.

Chains are given by the parents of frames here. A frame is made below one that exists already, so
parents are older than their children, and then the walk that lookups take is the chain.
-/

namespace Treewalk

namespace Store

/-- The frames that are met from a frame on, going from each to its parent as long as there is
one. -/
inductive Chain (store : Store) : FrameId → List FrameId → Prop where
  | root {id} : store.parent? id = none → Chain store id [id]
  | above {id parent ids} : store.parent? id = some parent → Chain store parent ids →
      Chain store id (id :: ids)

/-- A frame is on the chain of another one, and no frame that is closer to that one binds the
key. -/
def Sees (store : Store) (key : Key) (id owner : FrameId) : Prop :=
  ∃ closer farther, store.Chain id (closer ++ owner :: farther) ∧
    ∀ frame ∈ closer, store.hasLocal frame key = false

/-- The closest frame of a chain that binds a key, or nothing if none does. -/
def Nearest (store : Store) (key : Key) (id : FrameId) : Option FrameId → Prop
  | some owner => store.Sees key id owner ∧ store.hasLocal owner key = true
  | none => ∀ ids, store.Chain id ids → ∀ frame ∈ ids, store.hasLocal frame key = false

variable {store : Store} {id target owner : FrameId} {key : Key} {name : Name} {v : Value}

/-! ## The walk of a lookup -/

theorem Chain.unique {ids others : List FrameId} (h : store.Chain id ids)
    (h' : store.Chain id others) : others = ids := by
  induction h generalizing others with
  | root hnone =>
      cases h' with
      | root _ => rfl
      | above hparent _ =>
          rw [hnone] at hparent
          cases hparent
  | above hparent _ ih =>
      cases h' with
      | root hnone =>
          rw [hparent] at hnone
          cases hnone
      | above hother hrest =>
          rw [hparent] at hother
          cases hother
          rw [ih hrest]

/-- The computed chain is the chain of parents. -/
theorem chain_spec (holder : store.Older) (id : FrameId) : store.Chain id (store.chain id) := by
  induction id using Nat.strongRecOn with
  | ind id ih =>
      rw [chain_eq holder]
      cases hparent : store.parent? id with
      | none => exact .root hparent
      | some parent => exact .above hparent (ih parent (holder hparent))

/-- A frame is seen if it is on the chain, and all frames before it leave the key unbound. -/
theorem sees_iff (holder : store.Older) :
    store.Sees key id owner ↔ ∃ closer farther, store.chain id = closer ++ owner :: farther ∧
      ∀ frame ∈ closer, store.hasLocal frame key = false := by
  constructor
  · rintro ⟨closer, farther, hchain, hcloser⟩
    exact ⟨closer, farther, hchain.unique (chain_spec holder id), hcloser⟩
  · rintro ⟨closer, farther, hchain, hcloser⟩
    exact ⟨closer, farther, hchain ▸ chain_spec holder id, hcloser⟩

/-- A lookup ends at the closest frame that binds the key. -/
theorem nearest_find? (holder : store.Older) (key : Key) (id : FrameId) :
    store.Nearest key id (store.find? id key) := by
  cases hfind : store.find? id key with
  | none =>
      intro ids hchain frame hframe
      rw [← hchain.unique (chain_spec holder id)] at hframe
      simpa using List.find?_eq_none.mp hfind frame hframe
  | some owner =>
      obtain ⟨hlocal, closer, farther, hchain, hcloser⟩ :=
        List.find?_eq_some_iff_append.mp hfind
      exact ⟨(sees_iff holder).mpr ⟨closer, farther, hchain, by simpa using hcloser⟩, hlocal⟩

theorem get?_eq_bind (store : Store) (id : FrameId) (key : Key) :
    store.get? id key = (store.find? id key).bind (store.cell? · key) := rfl

/-- A frame that binds a key has a value for it. -/
theorem find?_eq_none_iff : store.find? id key = none ↔ store.get? id key = none := by
  rw [get?_eq_bind]
  cases hfind : store.find? id key with
  | none => simp
  | some owner =>
      have hlocal := hasLocal_of_find? hfind
      rw [hasLocal_eq_isSome, Option.isSome_iff_exists] at hlocal
      obtain ⟨v, hv⟩ := hlocal
      simp [hv]

/-! ## Walks after a binding -/

/-- Binding a name changes no chain. -/
theorem chain_set (store : Store) (target : FrameId) (name : Name) (v : Value) (id : FrameId) :
    (store.set target name v).chain id = store.chain id :=
  chainUpTo_set store name v target (id + 1) id

theorem older_set (holder : store.Older) (target : FrameId) (name : Name) (v : Value) :
    (store.set target name v).Older := by
  intro id parent hparent
  rw [Nesting.parent?_set] at hparent
  exact holder hparent

/-- The frame that is written to binds the key, and what others bind stays the same. -/
theorem hasLocal_set_eq (htarget : target < store.frames.size) (hkey : name.key? = some key)
    (v : Value) (id : FrameId) (other : Key) :
    (store.set target name v).hasLocal id other =
      (decide (id = target ∧ other = key) || store.hasLocal id other) := by
  rw [hasLocal_eq_isSome, cell?_set store v hkey htarget, hasLocal_eq_isSome]
  split <;> simp [*]

section Binding

variable (holder : store.Older) (htarget : target < store.frames.size)
  (hkey : name.key? = some key)

include holder htarget hkey

/-- A frame is seen exactly from where its new binding is found. -/
theorem sees_iff_find?_set (v : Value) :
    store.Sees key id target ↔ (store.set target name v).find? id key = some target := by
  constructor
  · rw [sees_iff holder]
    rintro ⟨closer, farther, hchain, hcloser⟩
    unfold find?
    rw [chain_set, hchain]
    -- that a chain does not meet a frame twice is not needed: the first time would do as well
    clear hchain
    induction closer with
    | nil => simp [hasLocal_set_eq htarget hkey]
    | cons frame closer ih =>
        obtain ⟨hframe, hcloser⟩ := List.forall_mem_cons.mp hcloser
        rw [List.cons_append, List.find?_cons, hasLocal_set_eq htarget hkey, hframe]
        by_cases heq : frame = target
        · simp [heq]
        · simpa [heq] using ih hcloser
  · intro hfind
    have hnearest := nearest_find? (older_set holder target name v) key id
    rw [hfind] at hnearest
    obtain ⟨closer, farther, hchain, hcloser⟩ :=
      (sees_iff (older_set holder target name v)).mp hnearest.1
    rw [chain_set] at hchain
    refine (sees_iff holder).mpr ⟨closer, farther, hchain, fun frame hframe => ?_⟩
    have hlater := hcloser frame hframe
    rw [hasLocal_set_eq htarget hkey, Bool.or_eq_false_iff] at hlater
    exact hlater.2

/-- From where a frame is not seen, a key is found where it was found before. -/
theorem find?_set_of_not_sees (v : Value) (h : ¬ store.Sees key id target) :
    (store.set target name v).find? id key = store.find? id key := by
  have hpasses : ∀ closer frame farther, store.chain id = closer ++ frame :: farther →
      (∀ f ∈ closer, store.hasLocal f key = false) → frame ≠ target := by
    rintro closer frame farther hchain hcloser rfl
    exact h ((sees_iff holder).mpr ⟨closer, farther, hchain, hcloser⟩)
  unfold find?
  rw [chain_set]
  -- what is left of the walk, given the frames that were passed
  suffices hwalk : ∀ closer rest, store.chain id = closer ++ rest →
      (∀ f ∈ closer, store.hasLocal f key = false) →
      rest.find? ((store.set target name v).hasLocal · key) =
        rest.find? (store.hasLocal · key) from
    hwalk [] _ rfl (List.forall_mem_nil _)
  intro closer rest hchain hcloser
  induction rest generalizing closer with
  | nil => rfl
  | cons frame rest ih =>
      have hne := hpasses closer frame rest hchain hcloser
      rw [List.find?_cons, List.find?_cons, hasLocal_set_eq htarget hkey]
      simp only [hne, false_and, decide_false, Bool.false_or]
      cases hlocal : store.hasLocal frame key with
      | true => rfl
      | false =>
          refine ih (closer ++ [frame]) (by simp [hchain]) ?_
          exact List.forall_mem_append.mpr ⟨hcloser, List.forall_mem_singleton.mpr hlocal⟩

/-- A value is found right away where the frame that it is bound in is seen. -/
theorem get?_set_of_sees (v : Value) (h : store.Sees key id target) :
    (store.set target name v).get? id key = some v := by
  rw [get?_eq_bind, (sees_iff_find?_set holder htarget hkey v).mp h, Option.bind_some,
    cell?_set store v hkey htarget]
  simp

/-- Where the frame is not seen, nothing changes about what is found. -/
theorem get?_set_of_not_sees (v : Value) (h : ¬ store.Sees key id target) :
    (store.set target name v).get? id key = store.get? id key := by
  rw [get?_eq_bind, find?_set_of_not_sees holder htarget hkey v h, get?_eq_bind]
  cases hfind : store.find? id key with
  | none => rfl
  | some owner =>
      have hnearest := nearest_find? holder key id
      rw [hfind] at hnearest
      have hne : owner ≠ target := by
        rintro rfl
        exact h hnearest.1
      rw [Option.bind_some, Option.bind_some, cell?_set store v hkey htarget]
      simp [hne]

end Binding

section Others

variable {other : Key} (htarget : target < store.frames.size) (hkey : name.key? = some key)
  (hother : other ≠ key)

include htarget hkey hother

theorem hasLocal_set_other (v : Value) (id : FrameId) :
    (store.set target name v).hasLocal id other = store.hasLocal id other := by
  simp [hasLocal_set_eq htarget hkey, hother]

theorem find?_set_other (v : Value) (id : FrameId) :
    (store.set target name v).find? id other = store.find? id other := by
  unfold find?
  rw [chain_set, funext (hasLocal_set_other htarget hkey hother v)]

theorem get?_set_other (v : Value) (id : FrameId) :
    (store.set target name v).get? id other = store.get? id other := by
  rw [get?_eq_bind, find?_set_other htarget hkey hother, get?_eq_bind]
  congr 1
  funext frame
  rw [cell?_set store v hkey htarget]
  simp [hother]

end Others

/-! ## Bindings -/

/-- How lookups in a store and in the one after it differ, if a frame was bound a key to a value in
between. -/
structure Rebound (store later : Store) (target : FrameId) (key : Key) (v : Value) : Prop where
  /-- Lookups walk along the chains, which stay the same. -/
  chain : ∀ id, store.Chain id (store.chain id) ∧ later.chain id = store.chain id
  /-- The value is seen from where no closer frame binds the key. -/
  seen : ∀ id, store.Sees key id target → later.get? id key = some v
  /-- Elsewhere the key has the value that it had. -/
  unseen : ∀ id, ¬ store.Sees key id target → later.get? id key = store.get? id key
  /-- The frame that is found is the closest one that binds the key. -/
  nearest : ∀ id any, store.Nearest any id (store.find? id any) ∧
    later.Nearest any id (later.find? id any)
  /-- No frame is found exactly if there is no value. -/
  missing : ∀ id any, (store.find? id any = none ↔ store.get? id any = none) ∧
    (later.find? id any = none ↔ later.get? id any = none)
  /-- Other keys are left alone, in every frame. -/
  others : ∀ id other, other ≠ key → later.get? id other = store.get? id other ∧
    later.find? id other = store.find? id other ∧
    later.hasLocal id other = store.hasLocal id other

/-- A name that is bound in a frame is seen from the frames below it, as far as no closer frame
binds it, and changes nothing else. -/
theorem rebound_set (store : Store) (holder : store.Older) (target : FrameId)
    (htarget : target < store.frames.size) (name : Name) (key : Key)
    (hkey : name.key? = some key) (v : Value) :
    store.Rebound (store.set target name v) target key v where
  chain id := ⟨chain_spec holder id, chain_set store target name v id⟩
  seen _ := get?_set_of_sees holder htarget hkey v
  unseen _ := get?_set_of_not_sees holder htarget hkey v
  nearest id any :=
    ⟨nearest_find? holder any id, nearest_find? (older_set holder target name v) any id⟩
  missing _ _ := ⟨find?_eq_none_iff, find?_eq_none_iff⟩
  others id _ hother :=
    ⟨get?_set_other htarget hkey hother v id, find?_set_other htarget hkey hother v id,
      hasLocal_set_other htarget hkey hother v id⟩

/-- Two blocks inside another one, in the first of which `x` shadows the top level. -/
def twoBlocks : Store :=
  { frames := #[
      { name := "global", bindings := [("x", .boolean false)] },
      { name := "if-then", parent := some 0 },
      { name := "if-then", parent := some 1, bindings := [("x", .boolean false)] },
      { name := "if-else", parent := some 1 }] }

/-- Bound in the outer block, `x` is seen from the second of the inner blocks, but neither from the
first one nor from the top level. -/
theorem rebound_set_twoBlocks :
    twoBlocks.Older ∧ 1 < twoBlocks.frames.size ∧ Datum.key? "x" = some (.text "x") ∧
      twoBlocks.Sees (.text "x") 3 1 ∧
      ¬ twoBlocks.Sees (.text "x") 2 1 ∧ ¬ twoBlocks.Sees (.text "x") 0 1 ∧
      (twoBlocks.set 1 "x" (.boolean true)).get? 3 (.text "x") = some (.boolean true) ∧
      (twoBlocks.set 1 "x" (.boolean true)).get? 2 (.text "x") = some (.boolean false) ∧
      (twoBlocks.set 1 "x" (.boolean true)).get? 0 (.text "x") = some (.boolean false) := by
  have holder : twoBlocks.Older := by
    intro id parent hparent
    have hid := lt_size_of_parent? hparent
    change id < 4 at hid
    interval_cases id <;> cases hparent <;> decide
  have hsees : ∀ id, twoBlocks.Sees (.text "x") id 1 ↔
      (twoBlocks.set 1 "x" (.boolean true)).find? id (.text "x") = some 1 :=
    fun _ => sees_iff_find?_set holder (by decide) rfl _
  have hthird : twoBlocks.Sees (.text "x") 3 1 := by rw [hsees]; decide
  have hsecond : ¬ twoBlocks.Sees (.text "x") 2 1 := by rw [hsees]; decide
  have hroot : ¬ twoBlocks.Sees (.text "x") 0 1 := by rw [hsees]; decide
  have hrebound := rebound_set twoBlocks holder 1 (by decide) "x" (.text "x") rfl (.boolean true)
  exact ⟨holder, by decide, rfl, hthird, hsecond, hroot, hrebound.seen 3 hthird,
    (hrebound.unseen 2 hsecond).trans rfl, (hrebound.unseen 0 hroot).trans rfl⟩

end Store

end Treewalk
