import Treewalk.Proofs.Evaluation.Regime
import Treewalk.Proofs.Evaluation.Toplevel
import Treewalk.Proofs.Program.Behaviour
import Treewalk.Proofs.Syntax.Spans

/-! # Returns outside of functions

Whether a return is inside of a function is decided at run time by the number of active calls. This
number agrees with the text: it is zero exactly where statements are executed that stand inside no
function literal. A run therefore fails for a return outside of functions exactly if the statement
at which it fails is a return that stands there.

Statements are told apart by their spans. In a program that was read from a source no return stands
at two places. For any other program there is one that is tagged: the label of each part tells on
which side the part stands.
-/

namespace Treewalk

/-! ## Inside and outside of function literals -/

/-- What stands in a part, inside of a function literal in it or outside of all of them. -/
inductive Part.Contains : Part → Bool → Part → Prop where
  | self {part} : Part.Contains part false part
  | child {part inner inside target} : inner ∈ part.children →
      Part.Contains inner inside target →
      Part.Contains part (inside || part.isFunction) target

/-- What stands in a program, inside of a function literal or outside of all of them. -/
def Program.Stands (program : Program) (inside : Bool) (part : Part) : Prop :=
  ∃ stmt ∈ program, (Part.stmt stmt).Contains inside part

/-- No return stands both inside of a function literal and outside of all of them. -/
def Program.ToldApart (program : Program) : Prop :=
  ∀ span value, ¬ (program.Stands false (.stmt (.give span value)) ∧
    program.Stands true (.stmt (.give span value)))

/-- What stands in a part that stands in another one stands in that one. -/
theorem Part.Contains.extend {part target inner : Part} {inside : Bool}
    (h : part.Contains inside target) (hinner : inner ∈ target.children) :
    part.Contains (inside || target.isFunction) inner := by
  induction h with
  | self => exact .child hinner .self
  | @child part next inside target hnext _ ih =>
      have hchild := Part.Contains.child hnext (ih hinner)
      rwa [Bool.or_right_comm] at hchild

namespace Program.Stands

variable {program : Program} {inside : Bool} {part inner : Part}

theorem child (h : program.Stands inside part) (hinner : inner ∈ part.children) :
    program.Stands (inside || part.isFunction) inner := by
  obtain ⟨stmt, hstmt, hcontains⟩ := h
  exact ⟨stmt, hstmt, hcontains.extend hinner⟩

/-- What stands directly in a part is on the side of the part. -/
theorem operand (h : program.Stands inside part) (hinner : inner ∈ part.operands) :
    program.Stands inside inner := by
  have hchild := h.child (List.mem_append_left _ hinner)
  rwa [Part.isFunction_of_operand hinner, Bool.or_false] at hchild

/-- What stands in a block of a function literal stands inside; other blocks are on the side of
their part. -/
theorem block (h : program.Stands inside part) {block : List Stmt} {stmt : Stmt}
    (hblock : block ∈ part.blocks) (hstmt : stmt ∈ block) :
    program.Stands (inside || part.isFunction) (.stmt stmt) := by
  refine h.child (List.mem_append_right _ (List.mem_map_of_mem ?_))
  exact List.mem_flatten.mpr ⟨block, hblock, hstmt⟩

end Program.Stands

/-! ## Runs -/

namespace LexicalReturn

variable {program : Program} {failure : Failure} {culprit : Option Stmt}

/-- Where a failure comes from: a return outside of functions from a return that stands outside of
function literals, and anything else that a return fails with from one that stands inside. -/
structure Fault (program : Program) (failure : Failure) (culprit : Option Stmt) : Prop where
  outside : failure = .error .returnOutsideFunction → ∃ span value,
    culprit = some (.give span value) ∧ program.Stands false (.stmt (.give span value))
  inside : ∀ span value, culprit = some (.give span value) →
    failure ≠ .error .returnOutsideFunction → program.Stands true (.stmt (.give span value))
  stands : ∀ stmt, culprit = some stmt → ∃ inside, program.Stands inside (.stmt stmt)

/-- Inside of calls statements are executed that stand inside of function literals, and outside of
calls those that stand outside of them. -/
def regime (program : Program) : Regime where
  stands s part := program.Stands (decide (0 < s.context.callDepth)) part
  made _ body := ∀ stmt ∈ body, program.Stands true (.stmt stmt)
  fault := Fault program

theorem ne_of_ordinary (h : failure.Ordinary) : failure ≠ .error .returnOutsideFunction := by
  rintro rfl
  cases h

theorem ne_of_name {name : Name} (h : failure.OfName name) :
    failure ≠ .error .returnOutsideFunction := by
  rcases h with ⟨_, rfl⟩ | hordinary
  · exact nofun
  · exact ne_of_ordinary hordinary

theorem ne_of_malformed (reason : Malformed) :
    reason.inExpression ≠ .error .returnOutsideFunction ∧
      reason.inStatement ≠ .error .returnOutsideFunction := by
  cases reason <;> exact ⟨nofun, nofun⟩

/-- Only returns fail for a return outside of functions. -/
theorem raises_return {part : Part} {s : State} (h : part.Raises s failure)
    (hfailure : failure = .error .returnOutsideFunction) :
    ∃ span value, part = .stmt (.give span value) ∧ s.context.callDepth = 0 := by
  cases h with
  | give hdepth => exact ⟨_, _, rfl, hdepth⟩
  | lookup h => exact absurd hfailure (ne_of_name (Reference.World.lookup_error h))
  | decided h => exact absurd hfailure (ne_of_ordinary (Reference.decided_error h).ordinary)
  | combined h => exact absurd hfailure (ne_of_ordinary (Reference.combined_error h).ordinary)
  | callee h => exact absurd hfailure (ne_of_name (Reference.World.callee_error h))
  | declare h => exact absurd hfailure (ne_of_name (Reference.World.declarable_error h))
  | assign h => exact absurd hfailure (ne_of_name (Reference.World.target_error h))
  | malformedExpr => exact absurd hfailure (ne_of_malformed _).1
  | malformedStmt => exact absurd hfailure (ne_of_malformed _).2
  | parameter | noReturn | branch | loop | unfinished => cases hfailure

/-- What a part raises is a fault of its statement, if it is one. -/
theorem raised {part : Part} {s : State} (hstands : (regime program).stands s part)
    (h : part.Raises s failure) : Fault program failure part.stmt? where
  outside hfailure := by
    obtain ⟨span, value, rfl, hdepth⟩ := raises_return h hfailure
    change program.Stands (decide (0 < s.context.callDepth)) _ at hstands
    rw [hdepth] at hstands
    exact ⟨span, value, rfl, hstands⟩
  inside span value hculprit hfailure := by
    cases h with
    | give => exact absurd rfl hfailure
    | _ => cases hculprit
  stands stmt hculprit := by
    cases part with
    | expr e => cases hculprit
    | stmt s =>
        cases hculprit
        exact ⟨_, hstands⟩

/-- What no statement is the culprit of is not a return outside of functions. -/
theorem Fault.under {s : State} {stmt : Stmt} (hstands : (regime program).stands s (.stmt stmt))
    (hpasses : ∀ span value, stmt = .give span value → 0 < s.context.callDepth)
    (h : Fault program failure none) : Fault program failure (some stmt) where
  outside hfailure := by
    obtain ⟨_, _, hnone, _⟩ := h.outside hfailure
    cases hnone
  inside span value hculprit _ := by
    have hdepth := hpasses span value (Option.some.inj hculprit)
    change program.Stands (decide (0 < s.context.callDepth)) _ at hstands
    rw [decide_eq_true hdepth, Option.some.inj hculprit] at hstands
    exact hstands
  stands other hculprit := by
    cases hculprit
    exact ⟨_, hstands⟩

/-- The regime of sides is lawful: a body is run inside of a call, and a block in the call of its
statement. -/
theorem lawful (program : Program) : (regime program).Lawful where
  stays hstands honward := by
    change program.Stands (decide (0 < _)) _
    rw [honward.callDepth]
    exact hstands
  operand hstands hinner := Program.Stands.operand hstands hinner
  block hstands hblock hinner _ hdepth := by
    have hinside := Program.Stands.block hstands hblock hinner
    change program.Stands (decide (0 < _) || false) _ at hinside
    rw [Bool.or_false, ← hdepth] at hinside
    exact hinside
  literal hstands stmt hstmt := by
    have hinside := Program.Stands.block hstands (List.mem_singleton_self _) hstmt
    rwa [Part.isFunction, Bool.or_true] at hinside
  body _ hmade hinner _ hdepth := by
    change program.Stands (decide (0 < _)) _
    rw [decide_eq_true hdepth]
    exact hmade _ hinner
  raised _ := raised
  tooDeep := ⟨nofun, nofun, nofun⟩
  under := Fault.under

/-- What a run fails with is the fault of its culprit. -/
theorem run_fault (limits : Limits) (hfailure : (program.run limits).failure = some failure) :
    Fault program failure (program.culprit limits) := by
  have htop : ∀ stmt ∈ program, (regime program).stands State.initial (.stmt stmt) :=
    fun stmt hstmt => ⟨stmt, hstmt, .self⟩
  obtain ⟨raised, rfl, hfault⟩ := (Regime.run_keeps (lawful program) limits htop).2 _ hfailure
  cases raised with
  | tooDeep =>
      -- nesting beyond the limit turns into an error, but into another one
      exact ⟨nofun, fun span value hculprit _ => hfault.inside span value hculprit nofun,
        hfault.stands⟩
  | _ => exact hfault

end LexicalReturn

/-! ## Culprits -/

section Culprits

variable {limits : Limits} {program : Program} {s t : State}

/-- Nothing is the culprit of statements that end. -/
theorem Culprit.execAll_ok (h : Treewalk.execAll limits program s = .ok () t) :
    execAll limits program s = none := by
  induction program generalizing s with
  | nil => rfl
  | cons stmt rest ih =>
      rw [Toplevel.execAll_cons] at h
      rw [execAll, after]
      cases hrun : Treewalk.exec limits.iterations limits.depth stmt s with
      | ok a u =>
          rw [hrun] at h
          exact ih h
      | error failure u =>
          rw [hrun] at h
          cases h

/-- Statements that fail have a culprit, unless nothing may be executed at all. -/
theorem Culprit.execAll_error (hdepth : 0 < limits.depth) {failure : Failure}
    (h : Treewalk.execAll limits program s = .error failure t) :
    (execAll limits program s).isSome = true := by
  obtain ⟨depth, hdepth⟩ := Nat.exists_eq_add_of_lt hdepth
  induction program generalizing s with
  | nil => cases h
  | cons stmt rest ih =>
      rw [Toplevel.execAll_cons] at h
      rw [execAll, after]
      cases hrun : Treewalk.exec limits.iterations limits.depth stmt s with
      | ok a u =>
          rw [hrun] at h
          exact ih h
      | error failure u =>
          rw [hdepth]
          simp [exec]

/-- Nothing is the culprit of a run that succeeds. -/
theorem Program.culprit_of_success (h : (program.run limits).failure = none) :
    program.culprit limits = none := by
  cases hrun : execAll limits program State.initial with
  | ok a t => exact Culprit.execAll_ok hrun
  | error failure t =>
      rw [(Toplevel.run_of_error hrun).failure] at h
      cases h

theorem Program.isSome_culprit (hdepth : 0 < limits.depth)
    (h : (program.run limits).failure ≠ none) : (program.culprit limits).isSome = true := by
  cases hrun : execAll limits program State.initial with
  | ok a t => exact absurd (Toplevel.run_of_ok hrun).failure h
  | error failure t => exact Culprit.execAll_error hdepth hrun

end Culprits

/-! ## Tagged programs -/

/-- Labels that tell inside and outside of function literals apart. -/
def Labelling.sides : Labelling := ⟨fun _ => 1, id⟩

/-- The label of a side says whether there is a function literal around. -/
theorem Labelling.sides_inside (part : Part) (inside : Bool) :
    sides.inside part inside.toNat = (inside || part.isFunction).toNat := by
  unfold Labelling.inside
  cases part.isFunction with
  | true => rw [Bool.or_true]; rfl
  | false => rw [Bool.or_false]; rfl

/-- A program in which each part is labelled with the side on which it stands. -/
def Program.tagged (program : Program) : Program := Stmt.allLabelled .sides 0 program

namespace Part

/-- What stands directly in a tagged part is tagged with the side on which it stands. -/
theorem exists_of_mem_children_tagged {inside : Bool} {part inner : Part}
    (h : inner ∈ (part.labelled .sides inside.toNat).children) :
    ∃ original : Part, inner = original.labelled .sides (inside || part.isFunction).toNat := by
  rcases List.mem_append.mp h with hoperand | hblock
  · have hpart := isFunction_of_operand hoperand
    rw [isFunction_labelled] at hpart
    rw [hpart, Bool.or_false]
    exact exists_of_mem_operands_labelled hoperand
  · obtain ⟨stmt, hstmt, rfl⟩ := List.mem_map.mp hblock
    obtain ⟨block, hblock, hstmt⟩ := List.mem_flatten.mp hstmt
    rw [← Labelling.sides_inside]
    exact exists_of_mem_blocks_labelled hblock hstmt

/-- The label of a part is joined from the sides that are met on the way to it. -/
theorem Contains.eq_tagged {part target : Part} {inside : Bool} (h : part.Contains inside target)
    (side : Bool) (original : Part) (hpart : part = original.labelled .sides side.toNat) :
    ∃ original : Part, target = original.labelled .sides (side || inside).toNat := by
  induction h generalizing side original with
  | self =>
      rw [Bool.or_false]
      exact ⟨original, hpart⟩
  | @child part inner inside target hinner _ ih =>
      rw [hpart] at hinner
      obtain ⟨next, hnext⟩ := exists_of_mem_children_tagged hinner
      obtain ⟨last, hlast⟩ := ih _ next hnext
      refine ⟨last, ?_⟩
      rw [hlast, hpart, isFunction_labelled, Bool.or_assoc, Bool.or_comm inside]

end Part

namespace Program

/-- What stands in a tagged program is tagged with the side on which it stands. -/
theorem Stands.eq_tagged {program : Program} {inside : Bool} {part : Part}
    (h : program.tagged.Stands inside part) :
    ∃ original : Part, part = original.labelled .sides inside.toNat := by
  obtain ⟨stmt, hstmt, hcontains⟩ := h
  obtain ⟨original, horiginal⟩ := Stmt.exists_of_mem_labelled hstmt
  exact hcontains.eq_tagged false original horiginal

/-- In a tagged program the sides of a return are told apart by its span. -/
theorem toldApart_tagged (program : Program) : program.tagged.ToldApart := by
  rintro span value ⟨houtside, hinside⟩
  obtain ⟨a, ha⟩ := houtside.eq_tagged
  obtain ⟨b, hb⟩ := hinside.eq_tagged
  have hspan : (Part.stmt (.give span value)).span?.isSome := by
    cases a with
    | expr e => cases ha
    | stmt s =>
        cases s <;> cases ha
        rfl
  cases Part.label_unique hspan ha hb

end Program

/-! ## Programs that were read from sources -/

section Sources

open Lexical

variable {limit : Nat} {tokens : List Token} {part inner target : Part} {parts : List Part}

/-- Every token of a source has a text. -/
theorem Lexical.Decomposes.offset_lt {cs tail : List Char} {pieces : List Piece}
    (h : Decomposes cs pieces tail) (loc : Location) :
    ∀ token ∈ lexemeTokens loc pieces, token.span.start.offset < token.span.stop.offset := by
  induction h generalizing loc with
  | last => exact List.forall_mem_nil _
  | cons _ hlexeme _ _ ih =>
      refine List.forall_mem_cons.mpr ⟨?_, ih _⟩
      dsimp only
      rw [Location.offset_advance (loc.advance _)]
      exact Nat.lt_add_of_pos_right (List.length_pos_iff.mpr hlexeme.ne_nil)

theorem Part.sizeOf_lt_of_mem_children (h : inner ∈ part.children) :
    sizeOf inner < sizeOf part := by
  have hexprs : ∀ {es : List Expr} {e : Expr}, e ∈ es → sizeOf e < sizeOf es :=
    List.sizeOf_lt_of_mem
  have hstmts : ∀ {stmts : List Stmt} {stmt : Stmt}, stmt ∈ stmts → sizeOf stmt < sizeOf stmts :=
    List.sizeOf_lt_of_mem
  cases part with
  | expr e => cases e <;> simp [children, operands, blocks] at h <;> grind
  | stmt s => cases s <;> simp [children, operands, blocks] at h <;> grind

/-- What stands in a part is the part, or stands in something that stands directly in it. -/
theorem Part.Contains.cases_child {inside : Bool} (h : part.Contains inside target) :
    (inside = false ∧ target = part) ∨
      ∃ inner ∈ part.children, ∃ side, inside = (side || part.isFunction) ∧
        inner.Contains side target := by
  cases h with
  | self => exact .inl ⟨rfl, rfl⟩
  | child hinner hcontains => exact .inr ⟨_, hinner, _, rfl, hcontains⟩

theorem Part.Contains.sizeOf_le {inside : Bool} (h : part.Contains inside target) :
    sizeOf target ≤ sizeOf part := by
  induction h with
  | self => exact Nat.le_refl _
  | child hinner _ ih =>
      exact Nat.le_trans ih (Nat.le_of_lt (Part.sizeOf_lt_of_mem_children hinner))

/-- What stands in a part is made of some of the tokens of the part. -/
theorem Laid.of_contains {inside : Bool} (h : part.Contains inside target)
    (hlaid : Laid limit tokens part) : ∃ own, own ⊆ tokens ∧ Laid limit own target := by
  induction h generalizing tokens limit with
  | self => exact ⟨tokens, List.Subset.refl _, hlaid⟩
  | child hinner _ ih =>
      cases hlaid with
      | mk hdepth _ _ hchildren =>
          obtain ⟨before, own, rest, rfl, hown⟩ := hchildren.exists_own hinner
          obtain ⟨own', hsubset, htarget⟩ := ih hown
          refine ⟨own', fun token hmem => ?_, htarget.mono hdepth⟩
          simp [hsubset hmem]

/-- Tokens in the order of their places, each with a text. -/
def Lexical.Spread (tokens : List Token) : Prop :=
  Ordered tokens ∧ ∀ token ∈ tokens, token.span.start.offset < token.span.stop.offset

theorem Lexical.Spread.left {others : List Token} (h : Spread (tokens ++ others)) :
    Spread tokens :=
  ⟨h.1.left, fun token hmem => h.2 token (List.mem_append_left _ hmem)⟩

theorem Lexical.Spread.right {others : List Token} (h : Spread (tokens ++ others)) :
    Spread others :=
  ⟨h.1.right, fun token hmem => h.2 token (List.mem_append_right _ hmem)⟩

/-- No part is made of tokens at two places. -/
theorem Laid.not_both {limit' : Nat} {others own own' : List Token}
    (hspread : Spread (tokens ++ others)) (hown : own ⊆ tokens) (hown' : own' ⊆ others)
    (h : Laid limit own part) (h' : Laid limit' own' part) : False := by
  obtain ⟨span, hspan, ⟨first, hfirst, hstart⟩, _⟩ := h.exists_span
  obtain ⟨span', hspan', ⟨first', hfirst', hstart'⟩, _⟩ := h'.exists_span
  have hafter := (List.pairwise_append.mp hspread.1.pairs).2.2 first (hown hfirst) first'
    (hown' hfirst')
  have htext := hspread.2 first (List.mem_append_left _ (hown hfirst))
  have hsame : span = span' := Option.some.inj (hspan.symm.trans hspan')
  rw [← hstart', ← hsame, hstart] at hafter
  omega

/-- Of parts that are next to each other only one contains a part. -/
theorem LaidOut.eq_of_contains (hlaid : LaidOut limit tokens parts) (hspread : Spread tokens)
    {a b : Part} {inside inside' : Bool} (ha : a ∈ parts) (hb : b ∈ parts)
    (hcontains : a.Contains inside target) (hcontains' : b.Contains inside' target) : a = b := by
  induction parts generalizing tokens with
  | nil => cases ha
  | cons first others ih =>
      cases hlaid with
      | @cons _ before own rest _ _ hfirst hothers =>
          -- what stands in the first part does not stand in another one
          have happart : ∀ {c i j}, c ∈ others → first.Contains i target → c.Contains j target →
              False := by
            intro c i j hc hi hj
            obtain ⟨own₁, hown₁, htarget⟩ := hfirst.of_contains hi
            obtain ⟨before', own', rest', rfl, hlaid'⟩ := hothers.exists_own hc
            obtain ⟨own₂, hown₂, htarget'⟩ := hlaid'.of_contains hj
            refine Laid.not_both hspread.right hown₁ (fun token hmem => ?_) htarget htarget'
            simp [hown₂ hmem]
          rcases List.mem_cons.mp ha with rfl | ha'
          · rcases List.mem_cons.mp hb with rfl | hb'
            · rfl
            · exact (happart hb' hcontains hcontains').elim
          · rcases List.mem_cons.mp hb with rfl | hb'
            · exact (happart ha' hcontains' hcontains).elim
            · exact ih hothers hspread.right.right ha' hb'

/-- What stands in a part outside of function literals does not stand inside one as well. -/
theorem Part.Contains.not_inside {inside : Bool} (h : part.Contains inside target)
    (houtside : inside = false) (hlaid : Laid limit tokens part) (hspread : Spread tokens) :
    ¬ part.Contains true target := by
  induction h generalizing tokens limit with
  | self =>
      intro hinside
      rcases hinside.cases_child with ⟨hfalse, _⟩ | ⟨inner, hinner, side, _, hcontains⟩
      · cases hfalse
      · -- a part does not stand in a part of its own
        exact absurd (Part.sizeOf_lt_of_mem_children hinner) (Nat.not_lt.mpr hcontains.sizeOf_le)
  | @child part inner inside target hinner hcontains ih =>
      intro hinside
      obtain ⟨rfl, hliteral⟩ := Bool.or_eq_false_iff.mp houtside
      rcases hinside.cases_child with ⟨hfalse, _⟩ | ⟨other, hother, side, hside, hcontains'⟩
      · cases hfalse
      · rw [hliteral, Bool.or_false] at hside
        cases hlaid with
        | mk _ _ _ hchildren =>
            have hsame := hchildren.eq_of_contains hspread hinner hother hcontains hcontains'
            obtain ⟨before, own, rest, rfl, hown⟩ := hchildren.exists_own hinner
            refine ih rfl hown hspread.right.left ?_
            rw [hsame, hside]
            exact hcontains'

/-- In a program that was read from a source no return stands at two places. -/
theorem Program.toldApart_of_source {source : Source} {program : Program}
    (h : Program.ofSource source = .ok program) : program.ToldApart := by
  rintro span value ⟨⟨stmt, hstmt, houtside⟩, ⟨stmt', hstmt', hinside⟩⟩
  obtain ⟨pieces, tail, hpieces, _, hlaid⟩ := laidOut_of_source h
  have hspread : Spread (lexemeTokens { file := source.file } pieces) :=
    ⟨(ordered_lexemeTokens _ pieces).1, hpieces.offset_lt _⟩
  have hsame := hlaid.eq_of_contains hspread (List.mem_map_of_mem hstmt)
    (List.mem_map_of_mem hstmt') houtside hinside
  obtain ⟨before, own, rest, hown, hpart⟩ := hlaid.exists_own (List.mem_map_of_mem hstmt)
  rw [hown] at hspread
  rw [← hsame] at hinside
  exact houtside.not_inside rfl hpart hspread.right.left hinside

end Sources

/-! ## Runs and the text -/

namespace Program

/-- In a program whose returns are told apart, a run fails for a return outside of functions exactly
if it fails at a return that stands outside of function literals. -/
theorem ToldApart.failure_iff {program : Program} (h : program.ToldApart) (limits : Limits) :
    (program.run limits).failure = some (.error .returnOutsideFunction) ↔
      ∃ span value, program.culprit limits = some (.give span value) ∧
        program.Stands false (.stmt (.give span value)) := by
  constructor
  · intro hfailure
    exact (LexicalReturn.run_fault limits hfailure).outside rfl
  · rintro ⟨span, value, hculprit, houtside⟩
    cases hrun : (program.run limits).failure with
    | none =>
        rw [culprit_of_success hrun] at hculprit
        cases hculprit
    | some failure =>
        -- a return that fails with anything else stands inside of a function literal
        by_contra hother
        have hinside := (LexicalReturn.run_fault limits hrun).inside span value hculprit
          fun heq => hother (congrArg some heq)
        exact h span value ⟨houtside, hinside⟩

/-- The culprit of a run stands in the program. -/
theorem stands_culprit {program : Program} {limits : Limits} {stmt : Stmt}
    (h : program.culprit limits = some stmt) : ∃ inside, program.Stands inside (.stmt stmt) := by
  cases hrun : (program.run limits).failure with
  | none =>
      rw [culprit_of_success hrun] at h
      cases h
  | some failure => exact (LexicalReturn.run_fault limits hrun).stands stmt h

/-- Tags change nothing about a run. -/
theorem run_tagged (limits : Limits) (program : Program) :
    (program.run limits).SameView (program.tagged.run limits) :=
  run_alike limits (Stmt.allAlike_labelled ⟨fun _ => rfl, fun _ _ => trivial⟩ 0 program)

/-- Returns outside of functions are a matter of the text. A run fails for one exactly if the
statement at which it fails, the innermost one under way, is a return that stands inside no function
literal. So no run does if all returns stand inside of function literals.

Which side a return stands on is told by its span, in every program that was read from a source. For
other programs tags take the place of spans: the tagged program differs in nothing else, its run
ends alike, and in it the sides are told apart. -/
theorem returnOutsideFunction_iff_stands (limits : Limits) (program : Program) :
    (program.ToldApart →
      ((program.run limits).failure = some (.error .returnOutsideFunction) ↔
        ∃ span value, program.culprit limits = some (.give span value) ∧
          program.Stands false (.stmt (.give span value)))) ∧
    (∀ source, ofSource source = .ok program → program.ToldApart) ∧
    ((program.run limits).failure = some (.error .returnOutsideFunction) ↔
      ∃ span value, program.tagged.culprit limits = some (.give span value) ∧
        program.tagged.Stands false (.stmt (.give span value))) ∧
    (program.tagged.ToldApart ∧ Stmt.AllAlike .text program program.tagged ∧
      (program.run limits).SameView (program.tagged.run limits)) ∧
    ((∀ span value, ¬ program.Stands false (.stmt (.give span value))) →
      (program.run limits).failure ≠ some (.error .returnOutsideFunction)) ∧
    (∀ stmt, program.culprit limits = some stmt → ∃ inside, program.Stands inside (.stmt stmt)) ∧
    (0 < limits.depth → (program.run limits).failure ≠ none →
      (program.culprit limits).isSome = true) := by
  refine ⟨fun happart => happart.failure_iff limits, fun _ hsource => toldApart_of_source hsource,
    ?_, ⟨program.toldApart_tagged, ?_, program.run_tagged limits⟩, ?_, fun _ => stands_culprit,
    isSome_culprit⟩
  · rw [← (program.run_tagged limits).failure]
    exact program.toldApart_tagged.failure_iff limits
  · exact Stmt.allAlike_labelled Likeness.text_spanBlind 0 program
  · intro hinside hfailure
    obtain ⟨span, value, _, houtside⟩ := (LexicalReturn.run_fault limits hfailure).outside rfl
    exact hinside span value houtside

/-- Calls a function that returns, and then has the same return at the top level. -/
def returningTwice : Program :=
  [ .declare none (.text "f") (.function none [] [.give none (.boolean none true)]),
    .discard none (.call none (.text "f") []),
    .give none (.boolean none true) ]

/-- Without spans both returns are the same statement; with tags, the one that fails is seen to be
the one outside. -/
theorem returnOutsideFunction_iff_stands_returningTwice :
    ¬ returningTwice.ToldApart ∧
      (returningTwice.run ⟨4, 1⟩).failure = some (.error .returnOutsideFunction) ∧
      ∃ span value, returningTwice.tagged.culprit ⟨4, 1⟩ = some (.give span value) ∧
        returningTwice.tagged.Stands false (.stmt (.give span value)) := by
  have hfailure : (returningTwice.run ⟨4, 1⟩).failure = some (.error .returnOutsideFunction) := rfl
  refine ⟨fun happart => ?_, hfailure, ?_⟩
  · have houtside : returningTwice.Stands false (.stmt (.give none (.boolean none true))) :=
      ⟨_, by simp [returningTwice], .self⟩
    have hfunction : returningTwice.Stands false
        (.expr (.function none [] [.give none (.boolean none true)])) :=
      Stands.operand ⟨_, List.mem_cons_self, .self⟩ (List.mem_singleton_self _)
    have hinside := hfunction.block (List.mem_singleton_self _) (List.mem_singleton_self _)
    exact happart _ _ ⟨houtside, hinside⟩
  · obtain ⟨_, _, htagged, _⟩ := returnOutsideFunction_iff_stands ⟨4, 1⟩ returningTwice
    exact htagged.mp hfailure

end Program

end Treewalk
