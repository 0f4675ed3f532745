import Treewalk.Proofs.Syntax.Grammar

/-! # The grammar, one layer at a time

The productions of the grammar are given here over any two relations for the expressions and the
statements that are nested in them. The grammar is what these layers make up, and a limit on nesting
is a number of layers.
-/

namespace Treewalk

namespace Grammar

section Layers

variable (expression : List Token → Expr → Prop) (statement : List Token → Stmt → Prop)

/-- The smallest expressions, over what is nested in them. -/
inductive PrimaryOf : List Token → Expr → Prop where
  | number {token value} :
      token.kind = .number value → PrimaryOf [token] (.number (some token.span) value)
  | plus {sign token value} :
      sign.kind = .symbol .plus → token.kind = .number value →
      PrimaryOf [sign, token] (.number (spanOf [sign, token]) value)
  | minus {sign token value} :
      sign.kind = .symbol .minus → token.kind = .number value →
      PrimaryOf [sign, token] (.number (spanOf [sign, token]) (-value))
  | boolean {token value} :
      token.kind = .boolean value → PrimaryOf [token] (.boolean (some token.span) value)
  | variable {token name} :
      token.kind = .identifier name → PrimaryOf [token] (.variable (some token.span) (.text name))
  | call {text token tokens name arguments} :
      text = token :: tokens →
      token.kind = .identifier name → Parenthesised expression tokens arguments →
      PrimaryOf text (.call (spanOf text) (.text name) arguments)
  | function {text word tokens block parameters body} :
      text = word :: (tokens ++ block) →
      word.kind = .keyword .function → Parenthesised Parameter tokens parameters →
      Braced statement block body →
      PrimaryOf text (.function (spanOf text) (parameters.map Datum.text) body)
  | group {left tokens right e} :
      left.kind = .symbol .leftParen → expression tokens e → right.kind = .symbol .rightParen →
      PrimaryOf (left :: (tokens ++ [right])) e

/-- Operands with operators of a level or tighter between them, over the smallest expressions. -/
inductive OperandsOf (primary : List Token → Expr → Prop) : Nat → List Token → Expr → Prop where
  | primary {tokens e} : primary tokens e → OperandsOf primary 7 tokens e
  | tighter {level tokens e} :
      OperandsOf primary (level + 1) tokens e → OperandsOf primary level tokens e
  | binary {text level left token right sign operator a b} :
      text = left ++ token :: right →
      OperandsOf primary level left a → token.kind = .symbol sign → Binds level sign operator →
      OperandsOf primary (level + 1) right b →
      OperandsOf primary level text (.binary (spanOf text) operator a b)

abbrev ExpressionOf : List Token → Expr → Prop := OperandsOf (PrimaryOf expression statement) 1

/-- The forms of statements, over what is nested in them. -/
inductive StatementOf : List Token → Stmt → Prop where
  | declare {text word name sign tokens semicolon x e} :
      text = word :: name :: sign :: (tokens ++ [semicolon]) →
      word.kind = .keyword .let → name.kind = .identifier x → sign.kind = .symbol .assign →
      expression tokens e → semicolon.kind = .symbol .semicolon →
      StatementOf text (.declare (spanOf text) (.text x) e)
  | assign {text name sign tokens semicolon x e} :
      text = name :: sign :: (tokens ++ [semicolon]) →
      name.kind = .identifier x → sign.kind = .symbol .assign →
      expression tokens e → semicolon.kind = .symbol .semicolon →
      StatementOf text (.assign (spanOf text) (.text x) e)
  | branch {text word left tokens right block test thenPart} :
      text = word :: left :: (tokens ++ right :: block) →
      word.kind = .keyword .if → left.kind = .symbol .leftParen → expression tokens test →
      right.kind = .symbol .rightParen → Braced statement block thenPart →
      StatementOf text (.branch (spanOf text) test thenPart [])
  | branchElse {text word left tokens right block other alternative test thenPart elsePart} :
      text = word :: left :: (tokens ++ right :: (block ++ other :: alternative)) →
      word.kind = .keyword .if → left.kind = .symbol .leftParen → expression tokens test →
      right.kind = .symbol .rightParen → Braced statement block thenPart →
      other.kind = .keyword .else → Braced statement alternative elsePart →
      StatementOf text (.branch (spanOf text) test thenPart elsePart)
  | loop {text word left tokens right block test body} :
      text = word :: left :: (tokens ++ right :: block) →
      word.kind = .keyword .while → left.kind = .symbol .leftParen → expression tokens test →
      right.kind = .symbol .rightParen → Braced statement block body →
      StatementOf text (.loop (spanOf text) test body)
  | print {text word left tokens right semicolon e} :
      text = word :: left :: (tokens ++ [right, semicolon]) →
      word.kind = .keyword .print → left.kind = .symbol .leftParen → expression tokens e →
      right.kind = .symbol .rightParen → semicolon.kind = .symbol .semicolon →
      StatementOf text (.print (spanOf text) e)
  | give {text word tokens semicolon e} :
      text = word :: (tokens ++ [semicolon]) →
      word.kind = .keyword .return → expression tokens e → semicolon.kind = .symbol .semicolon →
      StatementOf text (.give (spanOf text) e)
  | discard {text tokens semicolon e} :
      text = tokens ++ [semicolon] →
      expression tokens e → semicolon.kind = .symbol .semicolon →
      StatementOf text (.discard (spanOf text) e)

end Layers

variable {level minimum : Nat} {tokens : List Token} {e : Expr}

/-- There are six levels of operators. -/
theorem Binds.level_le {sign : Symbol} {operator : Operator} (h : Binds level sign operator) :
    level ≤ 6 := by
  cases h <;> decide

namespace OperandsOf

variable {primary : List Token → Expr → Prop}

/-- What is bound tightly can stand where looser operators are allowed. -/
theorem loosen (hlevel : minimum ≤ level) (h : OperandsOf primary level tokens e) :
    OperandsOf primary minimum tokens e := by
  induction hlevel with
  | refl => exact h
  | step _ ih => exact ih (.tighter h)

/-- No operator is looser than those of whole expressions. -/
theorem expression (h : OperandsOf primary 0 tokens e) : OperandsOf primary 1 tokens e := by
  cases h with
  | tighter h => exact h
  | binary _ _ _ hbinds _ => cases hbinds

end OperandsOf

/-! ## The layers make up the grammar -/

/-- What is bound tightly can stand where looser operators are allowed. -/
theorem Operands.loosen (hlevel : minimum ≤ level) (h : Operands level tokens e) :
    Operands minimum tokens e := by
  induction hlevel with
  | refl => exact h
  | step _ ih => exact ih (.tighter h)

/-- No operator is looser than those of whole expressions. -/
theorem Operands.expression (h : Operands 0 tokens e) : Expression tokens e := by
  cases h with
  | tighter h => exact h
  | binary _ _ _ hbinds _ => cases hbinds

/-- A primary of derived parts is derived. -/
theorem PrimaryOf.derives (h : PrimaryOf Expression Statement tokens e) : Primary tokens e := by
  match h with
  | .number hkind => exact .number hkind
  | .plus hsign hkind => exact .plus hsign hkind
  | .minus hsign hkind => exact .minus hsign hkind
  | .boolean hkind => exact .boolean hkind
  | .variable hkind => exact .variable hkind
  | .call htext hkind harguments => exact .call htext hkind harguments
  | .function htext hkind hparameters hbody => exact .function htext hkind hparameters hbody
  | .group hleft he hright => exact .group hleft he hright

theorem OperandsOf.derives (h : OperandsOf (PrimaryOf Expression Statement) level tokens e) :
    Operands level tokens e := by
  induction h with
  | primary h => exact .primary h.derives
  | tighter _ ih => exact .tighter ih
  | binary htext _ hkind hbinds _ ihleft ihright => exact .binary htext ihleft hkind hbinds ihright

theorem StatementOf.derives {stmt : Stmt} (h : StatementOf Expression Statement tokens stmt) :
    Statement tokens stmt := by
  cases h with
  | declare htext hword hname hsign he hlast => exact .declare htext hword hname hsign he hlast
  | assign htext hname hsign he hlast => exact .assign htext hname hsign he hlast
  | branch htext hword hleft htest hright hthen =>
      exact .branch htext hword hleft htest hright hthen
  | branchElse htext hword hleft htest hright hthen hother helse =>
      exact .branchElse htext hword hleft htest hright hthen hother helse
  | loop htext hword hleft htest hright hbody => exact .loop htext hword hleft htest hright hbody
  | print htext hword hleft he hright hlast => exact .print htext hword hleft he hright hlast
  | give htext hword he hlast => exact .give htext hword he hlast
  | discard htext he hlast => exact .discard htext he hlast

/-! ## Layers over stronger relations -/

section Mono

variable {α : Type} {tokens : List Token}

theorem Separated.mono {item item' : List Token → α → Prop}
    (hitem : ∀ tokens x, item tokens x → item' tokens x) {xs : List α}
    (h : Separated item tokens xs) : Separated item' tokens xs := by
  induction h with
  | last hx => exact .last (hitem _ _ hx)
  | cons hx hcomma _ ih => exact .cons (hitem _ _ hx) hcomma ih

theorem Parenthesised.mono {item item' : List Token → α → Prop}
    (hitem : ∀ tokens x, item tokens x → item' tokens x) {xs : List α}
    (h : Parenthesised item tokens xs) : Parenthesised item' tokens xs := by
  cases h with
  | empty hleft hright => exact .empty hleft hright
  | items hleft hitems hright => exact .items hleft (hitems.mono hitem) hright

theorem Repeated.mono {item item' : List Token → α → Prop}
    (hitem : ∀ tokens x, item tokens x → item' tokens x) {xs : List α}
    (h : Repeated item tokens xs) : Repeated item' tokens xs := by
  induction h with
  | nil => exact .nil
  | cons hx _ ih => exact .cons (hitem _ _ hx) ih

theorem Braced.mono {item item' : List Token → α → Prop}
    (hitem : ∀ tokens x, item tokens x → item' tokens x) {xs : List α}
    (h : Braced item tokens xs) : Braced item' tokens xs := by
  cases h with
  | mk hleft hitems hright => exact .mk hleft (hitems.mono hitem) hright

/-- Operands stay operands if primaries stay primaries. -/
theorem OperandsOf.mono {primary primary' : List Token → Expr → Prop}
    (hprimary : ∀ tokens e, primary tokens e → primary' tokens e) {level : Nat} {e : Expr}
    (h : OperandsOf primary level tokens e) : OperandsOf primary' level tokens e := by
  induction h with
  | primary h => exact .primary (hprimary _ _ h)
  | tighter _ ih => exact .tighter ih
  | binary htext _ hkind hbinds _ ihleft ihright => exact .binary htext ihleft hkind hbinds ihright

variable {expression expression' : List Token → Expr → Prop}
  {statement statement' : List Token → Stmt → Prop}
  (hexpression : ∀ tokens e, expression tokens e → expression' tokens e)
  (hstatement : ∀ tokens stmt, statement tokens stmt → statement' tokens stmt)

include hexpression hstatement

theorem PrimaryOf.mono {e : Expr} (h : PrimaryOf expression statement tokens e) :
    PrimaryOf expression' statement' tokens e := by
  match h with
  | .number hkind => exact .number hkind
  | .plus hsign hkind => exact .plus hsign hkind
  | .minus hsign hkind => exact .minus hsign hkind
  | .boolean hkind => exact .boolean hkind
  | .variable hkind => exact .variable hkind
  | .call htext hkind harguments => exact .call htext hkind (harguments.mono hexpression)
  | .function htext hkind hparameters hbody =>
      exact .function htext hkind hparameters (hbody.mono hstatement)
  | .group hleft he hright => exact .group hleft (hexpression _ _ he) hright

theorem StatementOf.mono {stmt : Stmt} (h : StatementOf expression statement tokens stmt) :
    StatementOf expression' statement' tokens stmt := by
  cases h with
  | declare htext hword hname hsign he hlast =>
      exact .declare htext hword hname hsign (hexpression _ _ he) hlast
  | assign htext hname hsign he hlast =>
      exact .assign htext hname hsign (hexpression _ _ he) hlast
  | branch htext hword hleft htest hright hthen =>
      exact .branch htext hword hleft (hexpression _ _ htest) hright (hthen.mono hstatement)
  | branchElse htext hword hleft htest hright hthen hother helse =>
      exact .branchElse htext hword hleft (hexpression _ _ htest) hright (hthen.mono hstatement)
        hother (helse.mono hstatement)
  | loop htext hword hleft htest hright hbody =>
      exact .loop htext hword hleft (hexpression _ _ htest) hright (hbody.mono hstatement)
  | print htext hword hleft he hright hlast =>
      exact .print htext hword hleft (hexpression _ _ he) hright hlast
  | give htext hword he hlast => exact .give htext hword (hexpression _ _ he) hlast
  | discard htext he hlast => exact .discard htext (hexpression _ _ he) hlast

end Mono

end Grammar

end Treewalk
