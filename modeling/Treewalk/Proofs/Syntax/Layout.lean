import Treewalk.Proofs.Evaluation.Nesting
import Treewalk.Proofs.Syntax.Exactness

/-! # Where the parts of a program stand

Every part of a parsed program is made of tokens of its own, which are next to each other. The parts
that stand in it are made of some of these, one after the other. Parentheses around an expression
are not its own but belong to the part around it. From its own tokens a part is found again, at the
limit at which the program was parsed or at a smaller one.
-/

namespace Treewalk

open Treewalk.Grammar Treewalk.Parser

/-- The parts that stand directly in a part, in the order of their fields. -/
def Part.children (part : Part) : List Part := part.operands ++ part.blocks.flatten.map .stmt

/-- Tokens from which a part is found on its own. -/
def Part.Found (limit : Nat) (tokens : List Token) : Part → Prop
  | .expr e => FoundExpression limit tokens e
  | .stmt s => FoundStatement limit tokens s

mutual

/-- A part is made of these tokens, and it is found from them at some limit up to this one. -/
inductive Laid : Nat → List Token → Part → Prop where
  | mk {limit depth tokens part} :
      depth ≤ limit → part.span? = spanOf tokens → part.Found depth tokens →
      LaidOut depth tokens part.children → Laid limit tokens part

/-- Parts are made of some of these tokens each, one after the other. -/
inductive LaidOut : Nat → List Token → List Part → Prop where
  | nil {limit tokens} : LaidOut limit tokens []
  | cons {limit before own rest part parts} :
      Laid limit own part → LaidOut limit rest parts →
      LaidOut limit (before ++ (own ++ rest)) (part :: parts)

end

theorem Laid.mono {limit larger : Nat} {tokens : List Token} {part : Part} (hle : limit ≤ larger)
    (h : Laid limit tokens part) : Laid larger tokens part := by
  cases h with
  | mk hdepth hspan hfound hchildren => exact .mk (Nat.le_trans hdepth hle) hspan hfound hchildren

namespace LaidOut

variable {limit larger : Nat} {tokens others : List Token} {part : Part} {parts more : List Part}

theorem mono (hle : limit ≤ larger) (h : LaidOut limit tokens parts) :
    LaidOut larger tokens parts := by
  induction parts generalizing tokens with
  | nil => exact .nil
  | cons part parts ih =>
      cases h with
      | cons hpart hparts => exact .cons (hpart.mono hle) (ih hparts)

/-- Tokens may stand in front. -/
theorem after (before : List Token) (h : LaidOut limit tokens parts) :
    LaidOut limit (before ++ tokens) parts := by
  cases h with
  | nil => exact .nil
  | cons hpart hparts =>
      rw [← List.append_assoc]
      exact .cons hpart hparts

theorem append (h : LaidOut limit tokens parts) (hmore : LaidOut limit others more) :
    LaidOut limit (tokens ++ others) (parts ++ more) := by
  induction parts generalizing tokens with
  | nil => exact hmore.after tokens
  | cons part parts ih =>
      cases h with
      | cons hpart hparts =>
          rw [List.append_assoc, List.append_assoc]
          exact .cons hpart (ih hparts)

/-- Tokens may stand behind. -/
theorem before (rest : List Token) (h : LaidOut limit tokens parts) :
    LaidOut limit (tokens ++ rest) parts := by
  have happend := h.append (.nil : LaidOut limit rest [])
  rwa [List.append_nil] at happend

/-- One part is laid out by its own tokens. -/
theorem single (h : Laid limit tokens part) : LaidOut limit tokens [part] := by
  have hcons : LaidOut limit ([] ++ (tokens ++ [])) [part] := .cons h .nil
  rwa [List.nil_append, List.append_nil] at hcons

/-- A part among others is made of some of the tokens. -/
theorem exists_own (h : LaidOut limit tokens parts) (hpart : part ∈ parts) :
    ∃ before own rest, tokens = before ++ (own ++ rest) ∧ Laid limit own part := by
  induction parts generalizing tokens with
  | nil => cases hpart
  | cons first parts ih =>
      cases h with
      | @cons _ before own rest _ _ hfirst hparts =>
          rcases List.mem_cons.mp hpart with rfl | hpart
          · exact ⟨before, own, rest, rfl, hfirst⟩
          · obtain ⟨before', own', rest', rfl, hlaid⟩ := ih hparts hpart
            exact ⟨before ++ (own ++ before'), own', rest', by simp, hlaid⟩

section Items

variable {α : Type} {item : List Token → α → Prop} {toPart : α → Part} {xs : List α}
  (hitem : ∀ tokens x, item tokens x → LaidOut limit tokens [toPart x])

include hitem

theorem of_separated (h : Separated item tokens xs) : LaidOut limit tokens (xs.map toPart) := by
  induction h with
  | last hx => exact hitem _ _ hx
  | @cons _ comma _ _ _ hx _ _ ih => exact (hitem _ _ hx).append (ih.after [comma])

theorem of_parenthesised (h : Parenthesised item tokens xs) :
    LaidOut limit tokens (xs.map toPart) := by
  cases h with
  | empty => exact .nil
  | @items left _ right _ _ hitems _ =>
      exact ((of_separated hitem hitems).before [right]).after [left]

theorem of_repeated (h : Repeated item tokens xs) : LaidOut limit tokens (xs.map toPart) := by
  induction h with
  | nil => exact .nil
  | cons hx _ ih => exact (hitem _ _ hx).append ih

theorem of_braced (h : Braced item tokens xs) : LaidOut limit tokens (xs.map toPart) := by
  cases h with
  | @mk left _ right _ _ hitems _ =>
      exact ((of_repeated hitem hitems).before [right]).after [left]

end Items

end LaidOut

/-! ## One layer -/

/-- Tokens of an expression, of which some may be parentheses around it. -/
structure LaidExpression (limit : Nat) (tokens : List Token) (e : Expr) : Prop where
  derives : Expression tokens e
  found : FoundExpression limit tokens e
  laid : LaidOut limit tokens [.expr e]

structure LaidStatement (limit : Nat) (tokens : List Token) (stmt : Stmt) : Prop where
  derives : Statement tokens stmt
  found : FoundStatement limit tokens stmt
  laid : LaidOut limit tokens [.stmt stmt]

section Layer

variable {limit level : Nat} {tokens : List Token} {e : Expr} {stmt : Stmt}

/-- Operands of parts that are laid out are found under the next higher limit. -/
theorem OperandsOf.found (hlevel : 1 ≤ level)
    (h : OperandsOf (PrimaryOf (LaidExpression limit) (LaidStatement limit)) level tokens e) :
    Expression tokens e ∧ FoundExpression (limit + 1) tokens e := by
  have hexpression := h.loosen hlevel
  have hderives : Expression tokens e :=
    (hexpression.mono fun _ _ h => h.mono (fun _ _ h => h.derives) fun _ _ h => h.derives).derives
  exact ⟨hderives, hderives.starts, ExpressionOf.finds
    (hexpression.mono fun _ _ h => h.mono (fun _ _ h => h.found) fun _ _ h => h.found)⟩

/-- An expression is laid out if what is nested in it is. -/
theorem OperandsOf.laid (hlevel : 1 ≤ level)
    (h : OperandsOf (PrimaryOf (LaidExpression limit) (LaidStatement limit)) level tokens e) :
    LaidOut (limit + 1) tokens [.expr e] := by
  have hnext : limit ≤ limit + 1 := Nat.le_succ limit
  -- A node has the span of its own tokens; a group is no node.
  have hnode : ∀ {level tokens e}, 1 ≤ level →
      OperandsOf (PrimaryOf (LaidExpression limit) (LaidStatement limit)) level tokens e →
      e.span? = spanOf tokens → LaidOut (limit + 1) tokens (Part.expr e).children →
      LaidOut (limit + 1) tokens [.expr e] := fun hlevel h hspan hchildren =>
    .single (.mk (Nat.le_refl _) hspan (OperandsOf.found hlevel h).2 hchildren)
  induction h with
  | @primary tokens e h =>
      have hself := OperandsOf.primary h
      match h with
      | .number _ => exact hnode (by decide) hself rfl .nil
      | .plus _ _ => exact hnode (by decide) hself rfl .nil
      | .minus _ _ => exact hnode (by decide) hself rfl .nil
      | .boolean _ => exact hnode (by decide) hself rfl .nil
      | .variable _ => exact hnode (by decide) hself rfl .nil
      | .call htext _ harguments =>
          have hlaid := LaidOut.of_parenthesised (fun _ _ h => h.laid) harguments
          refine hnode (by decide) hself rfl ?_
          rw [htext]
          simpa [Part.children, Part.operands, Part.blocks] using (hlaid.mono hnext).after [_]
      | .function htext _ _ hbody =>
          have hlaid := LaidOut.of_braced (fun _ _ h => h.laid) hbody
          refine hnode (by decide) hself rfl ?_
          rw [htext]
          simpa [Part.children, Part.operands, Part.blocks] using
            (hlaid.mono hnext).after (_ :: _)
      | @PrimaryOf.group _ _ left _ right _ _ he _ =>
          exact ((he.laid.mono hnext).before [right]).after [left]
  | tighter _ ih => exact ih (by omega)
  | @binary text level left token right sign operator a b htext hleft hkind hbinds hright ihleft
      ihright =>
      have hlaid := (ihleft hlevel).append ((ihright (by omega)).after [token])
      refine hnode hlevel (.binary htext hleft hkind hbinds hright) rfl ?_
      rw [htext]
      exact hlaid

/-- A statement has the span of all its tokens. -/
theorem StatementOf.span?_eq {expression : List Token → Expr → Prop}
    {statement : List Token → Stmt → Prop} (h : StatementOf expression statement tokens stmt) :
    stmt.span? = spanOf tokens := by
  cases h <;> rfl

/-- What stands in a statement is laid out if it is so on its own. -/
theorem StatementOf.children {expression : List Token → Expr → Prop}
    {statement : List Token → Stmt → Prop}
    (hexpression : ∀ tokens e, expression tokens e → LaidOut limit tokens [.expr e])
    (hstatement : ∀ tokens stmt, statement tokens stmt → LaidOut limit tokens [.stmt stmt])
    (h : StatementOf expression statement tokens stmt) :
    LaidOut limit tokens (Part.stmt stmt).children := by
  have hblock : ∀ {block stmts}, Braced statement block stmts →
      LaidOut limit block (stmts.map .stmt) := LaidOut.of_braced hstatement
  have hgroup : ∀ {tokens e}, expression tokens e → ∀ word left right : Token,
      LaidOut limit (word :: left :: (tokens ++ [right])) [.expr e] := fun he word left right =>
    ((hexpression _ _ he).before [right]).after [word, left]
  simp only [Part.children]
  cases h with
  | @declare word name sign tokens semicolon _ _ htext _ _ _ he _ =>
      rw [htext]
      exact ((hexpression _ _ he).before [semicolon]).after [word, name, sign]
  | @assign name sign tokens semicolon _ _ htext _ _ he _ =>
      rw [htext]
      exact ((hexpression _ _ he).before [semicolon]).after [name, sign]
  | @branch word left tokens right block test thenPart htext _ _ htest _ hthen =>
      have hlaid := (hgroup htest word left right).append (hblock hthen)
      simpa [htext, Part.operands, Part.blocks] using hlaid
  | @branchElse word left tokens right block other alternative _ _ _ htext _ _ htest _ hthen _
      helse =>
      have hblocks := (hblock hthen).append ((hblock helse).after [other])
      have hlaid := (hgroup htest word left right).append hblocks
      simpa [htext, Part.operands, Part.blocks] using hlaid
  | @loop word left tokens right block test body htext _ _ htest _ hbody =>
      have hlaid := (hgroup htest word left right).append (hblock hbody)
      simpa [htext, Part.operands, Part.blocks] using hlaid
  | @print word left tokens right semicolon _ htext _ _ he _ _ =>
      have hlaid := (hgroup he word left right).before [semicolon]
      simpa [htext, Part.operands, Part.blocks] using hlaid
  | @give word tokens semicolon _ htext _ he _ =>
      rw [htext]
      exact ((hexpression _ _ he).before [semicolon]).after [word]
  | @discard tokens semicolon _ htext he _ =>
      rw [htext]
      exact (hexpression _ _ he).before [semicolon]

end Layer

/-! ## Parsed programs -/

/-- What the parser yields is laid out in the tokens it has read. -/
theorem expression_statement_lay (limit : Nat) :
    Accepts (expression limit) (LaidExpression limit) ∧
      Accepts (statement limit) (LaidStatement limit) := by
  refine accepts_of_layers (fun limit tokens e h => ?_) (fun limit tokens stmt h => ?_) limit
  · obtain ⟨hderives, hfound⟩ := OperandsOf.found (Nat.le_refl 1) h
    exact ⟨hderives, hfound, OperandsOf.laid (Nat.le_refl 1) h⟩
  · have hderives : Statement tokens stmt :=
      (h.mono (fun _ _ h => h.derives) fun _ _ h => h.derives).derives
    have hfound : FoundStatement (limit + 1) tokens stmt :=
      ⟨hderives.starts, (h.mono (fun _ _ h => h.found) fun _ _ h => h.found).finds⟩
    have hchildren := StatementOf.children (fun _ _ h => h.laid) (fun _ _ h => h.laid) h
    exact ⟨hderives, hfound, .single (.mk (Nat.le_refl _) (StatementOf.span?_eq h) hfound
      (hchildren.mono (Nat.le_succ limit)))⟩

section Program

variable {limit : Nat} {body : List Token} {last : Token} {program : Treewalk.Program}

/-- The statements of a parsed program are laid out in the tokens before the end of input. -/
theorem laidOut_of_parse (hbody : ∀ token ∈ body, token.kind.isEnd = false)
    (hlast : last.kind.isEnd = true)
    (h : parse (Parser.program limit) (body ++ [last]) = .ok program) :
    LaidOut limit body (program.map .stmt) := by
  rw [parse_eq] at h
  cases hrun : Parser.program limit (Cursor.ofBody body last) with
  | error failure =>
      rw [hrun] at h
      cases h
  | ok result =>
      rw [hrun] at h
      cases h
      exact LaidOut.of_repeated (fun _ _ h => h.laid)
        (program_repeats hbody hlast (expression_statement_lay limit).2 hrun)

/-- Every part of a program that is laid out is made of tokens that are next to each other. -/
theorem LaidOut.of_occurs (h : LaidOut limit body (program.map .stmt)) {n : Nat} {part : Part}
    (hoccurs : program.Occurs n part) :
    ∃ before own rest, body = before ++ (own ++ rest) ∧ Laid limit own part := by
  -- what stands in a part stands in the tokens of that part
  have hinner : ∀ {part inner}, inner ∈ part.children →
      (∃ before own rest, body = before ++ (own ++ rest) ∧ Laid limit own part) →
      ∃ before own rest, body = before ++ (own ++ rest) ∧ Laid limit own inner := by
    rintro part inner hmem ⟨before, _, rest, rfl, @⟨_, _, own, _, hdepth, _, _, hchildren⟩⟩
    obtain ⟨before', own', rest', rfl, hlaid⟩ := hchildren.exists_own hmem
    exact ⟨before ++ before', own', rest' ++ rest, by simp, hlaid.mono hdepth⟩
  induction hoccurs with
  | top hmem => exact h.exists_own (List.mem_map_of_mem hmem)
  | operand _ hmem ih => exact hinner (List.mem_append_left _ hmem) ih
  | block _ hblock hmem ih =>
      refine hinner (List.mem_append_right _ (List.mem_map_of_mem ?_)) ih
      exact List.mem_flatten.mpr ⟨_, hblock, hmem⟩

end Program

end Treewalk
