import Treewalk.Proofs.Syntax.Layers
import Treewalk.Proofs.Syntax.Reading

/-! # What is parsed is derived

Whatever the parser yields can be derived in the grammar from the tokens it has read, at any depth
limit. This is shown one layer at a time: whatever relations the nested expressions and statements
are known to be in, the layer around them is made by a production over these relations. For
operators the loop over operands carries the level of what stands on the left: a right operand is
read as far as tighter operators go, so the operator after it is never tighter than the one before
it.
-/

namespace Treewalk

namespace Parser

open Grammar

theorem operator?_eq_some {sign : Symbol} {level : Nat} {operator : Operator} :
    operator? sign = some (level, operator) ↔ Binds level sign operator := by
  constructor
  · intro h
    cases sign <;> cases h <;> constructor
  · intro h
    cases h <;> rfl

/-- A token is an operator if it is a symbol that binds. -/
theorem operatorOf?_eq_some {token : Token} {level : Nat} {operator : Operator} :
    operatorOf? token = some (level, operator) ↔
      ∃ sign, token.kind = .symbol sign ∧ Binds level sign operator := by
  unfold operatorOf?
  cases token.kind with
  | symbol sign =>
      rw [operator?_eq_some]
      constructor
      · exact fun h => ⟨sign, rfl, h⟩
      · rintro ⟨sign, hsign, h⟩
        cases hsign
        exact h
  | _ => simp

/-- The next token is no operator of a level or tighter. -/
def Stops (minimum : Nat) (c : Cursor) : Prop :=
  ∀ level operator, operatorOf? c.peek = some (level, operator) → level < minimum

/-- A parser yields operands of a level, over what is known of primaries, and reads as many as there
are. -/
def Exhausts (derives : List Token → Expr → Prop) (parser : Parse Expr) (minimum : Nat) : Prop :=
  ∀ c e c', c.Ended → parser c = .ok (e, c') →
    ∃ tokens, Reads c tokens c' ∧ OperandsOf derives minimum tokens e ∧ Stops minimum c'

/-- No operator binds tighter than six, so that the climb stops there. -/
theorem stops_of_tightest {minimum : Nat} (hminimum : 7 ≤ minimum) (c : Cursor) :
    Stops minimum c := by
  intro level operator h
  obtain ⟨sign, _, hbinds⟩ := operatorOf?_eq_some.mp h
  have := hbinds.level_le
  omega

/-- One round of the loop makes the operands so far the left operand of the next operator. -/
theorem moreOperands_exhausts {derives : List Token → Expr → Prop} {operand : Nat → Parse Expr}
    {minimum : Nat} (hoperand : ∀ level, minimum ≤ level → level ≤ 6 →
      Exhausts derives (operand (level + 1)) (level + 1))
    (rounds : Nat) {c₀ c c' : Cursor} {tokens : List Token} {left e : Expr} {level : Nat}
    (hc : c₀.Ended) (hread : Reads c₀ tokens c) (hleft : OperandsOf derives level tokens left)
    (hlevel : minimum ≤ level) (hstops : Stops (level + 1) c) (hrounds : c.rest.length < rounds)
    (h : moreOperands operand minimum c₀.peek rounds left c = .ok (e, c')) :
    ∃ all, Reads c₀ all c' ∧ OperandsOf derives minimum all e ∧ Stops minimum c' := by
  induction rounds generalizing c tokens left level with
  | zero => exact absurd hrounds (Nat.not_lt_zero _)
  | succ rounds ih =>
      unfold moreOperands at h
      split at h
      next next operator hoperator =>
        split at h
        next hloose =>
          cases h
          refine ⟨tokens, hread, hleft.loosen hlevel, fun other _ hother => ?_⟩
          cases hoperator.symm.trans hother
          exact hloose
        next htight =>
          obtain ⟨⟨right, c₁⟩, hright, h⟩ := bind_ok h
          obtain ⟨⟨span, c₂⟩, hspan, h⟩ := bind_ok h
          obtain ⟨sign, hkind, hbinds⟩ := operatorOf?_eq_some.mp hoperator
          have hended := hc.of_reads hread
          have hstep := hended.reads_next (by rw [hkind]; rfl)
          have hnext : next ≤ level := Nat.le_of_lt_succ (hstops next operator hoperator)
          have htight : minimum ≤ next := Nat.le_of_not_lt htight
          obtain ⟨rightTokens, hrightRead, hright, hrightStops⟩ :=
            hoperand next htight hbinds.level_le _ _ _ (hended.of_reads hstep) hright
          -- The new left operand is at the operator's own level: a second operator of that level
          -- takes it as its left operand, and none tighter can follow.
          have hall := hread.append (hstep.append hrightRead)
          rw [hall.spanFrom_eq (by simp)] at hspan
          cases hspan
          have hlength := (hstep.append hrightRead).length_eq
          rw [List.length_append, List.length_singleton] at hlength
          exact ih hall (.binary rfl (hleft.loosen hnext) hkind hbinds hright) htight hrightStops
            (by omega) h
      next hnone =>
        cases h
        refine ⟨tokens, hread, hleft.loosen hlevel, fun level operator hother => ?_⟩
        rw [hnone] at hother
        cases hother

/-- With a right operand the minimum grows as the depth shrinks, so that operators never run out of
depth. -/
theorem operands_exhausts {derives : List Token → Expr → Prop} {primary : Parse Expr}
    (hprimary : Accepts primary derives) (depth minimum : Nat) (hminimum : minimum ≤ 7)
    (hdepth : 7 ≤ depth + minimum) :
    Exhausts derives (operands primary depth minimum) minimum := by
  induction depth generalizing minimum with
  | zero =>
      intro c e c' hc h
      obtain ⟨tokens, hread, he⟩ := hprimary c e c' hc h
      have : minimum = 7 := by omega
      subst this
      exact ⟨tokens, hread, .primary he, stops_of_tightest (Nat.le_refl 7) c'⟩
  | succ depth ih =>
      intro c e c' hc h
      unfold operands at h
      obtain ⟨⟨left, c₁⟩, hleft, h⟩ := bind_ok h
      obtain ⟨tokens, hread, hleft⟩ := hprimary c left c₁ hc hleft
      refine moreOperands_exhausts (fun level hlevel hle => ?_) _ hc hread (.primary hleft)
        hminimum (stops_of_tightest (by decide) c₁) (Nat.lt_succ_self _) h
      exact ih (level + 1) (by omega) (by omega)

/-- Where primaries are accepted, so are operands of all levels. -/
theorem expressionOf_accepts {derives : List Token → Expr → Prop} {primary : Parse Expr}
    (hprimary : Accepts primary derives) :
    Accepts (expressionOf primary) (OperandsOf derives 1) := by
  intro c e c' hc h
  obtain ⟨tokens, hread, he, _⟩ :=
    operands_exhausts hprimary 7 0 (by decide) (by decide) c e c' hc h
  exact ⟨tokens, hread, he.expression⟩

/-- A sign and the number after it. -/
theorem signedNumber_reads {negative : Bool} {c c' : Cursor} {e : Expr} (hc : c.Ended)
    (hsign : c.peek.kind.isEnd = false) (h : signedNumber negative c = .ok (e, c')) :
    ∃ token value, token.kind = .number value ∧ Reads c [c.peek, token] c' ∧
      e = .number (spanOf [c.peek, token]) (if negative then -value else value) := by
  unfold signedNumber at h
  dsimp only at h
  split at h
  next value hkind =>
    rw [← Cursor.peek_next hsign] at hkind
    have hfirst := hc.reads_next hsign
    have hsecond := (hc.of_reads hfirst).reads_next (by rw [hkind]; rfl)
    have hread := hfirst.append hsecond
    rw [hread.spanFrom_eq (by simp), ok_bind] at h
    cases h
    exact ⟨c.next.peek, value, hkind, hread, rfl⟩
  · cases h

section Parts

variable {expression : Parse Expr} {statement : Parse Stmt}
  {isExpression : List Token → Expr → Prop} {isStatement : List Token → Stmt → Prop}
  (hexpression : Accepts expression isExpression) (hstatement : Accepts statement isStatement)

include hstatement in
theorem functionLiteral_reads {c c' : Cursor} {e : Expr} (hc : c.Ended)
    (hkind : c.peek.kind = .keyword .function) (h : functionLiteral statement c = .ok (e, c')) :
    ∃ tokens, Reads c tokens c' ∧ PrimaryOf isExpression isStatement tokens e := by
  unfold functionLiteral at h
  obtain ⟨⟨parameters, c₁⟩, hparameters, h⟩ := bind_ok h
  obtain ⟨⟨body, c₂⟩, hbody, h⟩ := bind_ok h
  have hword := hc.reads_next (by rw [hkind]; rfl)
  have hc' := hc.of_reads hword
  obtain ⟨list, hlistRead, hlist⟩ :=
    parenthesised_accepts (name_accepts .parameterName) _ _ _ hc' hparameters
  obtain ⟨block, hblockRead, hblock⟩ :=
    block_accepts hstatement _ _ _ (hc'.of_reads hlistRead) hbody
  have hread := hword.append (hlistRead.append hblockRead)
  obtain ⟨⟨span, c₃⟩, hspan, h⟩ := bind_ok h
  rw [hread.spanFrom_eq (by simp)] at hspan
  cases hspan
  cases h
  exact ⟨_, hread, .function (by simp) hkind hlist hblock⟩

include hexpression in
theorem call_reads {callee : String} {c c' : Cursor} {e : Expr} (hc : c.Ended)
    (hkind : c.peek.kind = .identifier callee) (h : call expression callee c = .ok (e, c')) :
    ∃ tokens, Reads c tokens c' ∧ PrimaryOf isExpression isStatement tokens e := by
  unfold call at h
  obtain ⟨⟨arguments, c₁⟩, harguments, h⟩ := bind_ok h
  obtain ⟨⟨span, c₂⟩, hspan, h⟩ := bind_ok h
  have hname := hc.reads_next (by rw [hkind]; rfl)
  obtain ⟨list, hlistRead, hlist⟩ :=
    parenthesised_accepts hexpression _ _ _ (hc.of_reads hname) harguments
  have hread := hname.append hlistRead
  rw [hread.spanFrom_eq (by simp)] at hspan
  cases hspan
  cases h
  exact ⟨_, hread, .call rfl hkind hlist⟩

include hexpression in
/-- An expression in parentheses. -/
theorem grouped_reads {c c' : Cursor} {e : Expr} (hc : c.Ended)
    (h : grouped expression c = .ok (e, c')) :
    ∃ left tokens right, left.kind = .symbol .leftParen ∧ isExpression tokens e ∧
      right.kind = .symbol .rightParen ∧ Reads c (left :: (tokens ++ [right])) c' := by
  unfold grouped at h
  obtain ⟨⟨_, c₁⟩, hleft, h⟩ := bind_ok h
  obtain ⟨⟨inner, c₂⟩, hinner, h⟩ := bind_ok h
  obtain ⟨⟨_, c₃⟩, hright, h⟩ := bind_ok h
  cases h
  obtain ⟨left, hleft, hleftRead⟩ := symbol_reads hc hleft
  have hc₁ := hc.of_reads hleftRead
  obtain ⟨tokens, hread, hinner⟩ := hexpression _ _ _ hc₁ hinner
  obtain ⟨right, hright, hrightRead⟩ := symbol_reads (hc₁.of_reads hread) hright
  exact ⟨left, tokens, right, hleft, hinner, hright,
    hleftRead.append (hread.append hrightRead)⟩

include hexpression hstatement in
/-- Primaries that are read are those of the grammar. -/
theorem primaryOf_accepts :
    Accepts (primaryOf expression statement) (PrimaryOf isExpression isStatement) := by
  intro c e c' hc h
  unfold primaryOf at h
  dsimp only at h
  split at h
  next value hkind =>
    cases h
    exact ⟨[c.peek], hc.reads_next (by rw [hkind]; rfl), .number hkind⟩
  next hkind =>
    obtain ⟨token, value, hvalue, hread, rfl⟩ := signedNumber_reads hc (by rw [hkind]; rfl) h
    exact ⟨_, hread, .minus hkind hvalue⟩
  next hkind =>
    obtain ⟨token, value, hvalue, hread, rfl⟩ := signedNumber_reads hc (by rw [hkind]; rfl) h
    exact ⟨_, hread, .plus hkind hvalue⟩
  next value hkind =>
    cases h
    exact ⟨[c.peek], hc.reads_next (by rw [hkind]; rfl), .boolean hkind⟩
  next name hkind =>
    split at h
    · exact call_reads hexpression hc hkind h
    · cases h
      exact ⟨[c.peek], hc.reads_next (by rw [hkind]; rfl), .variable hkind⟩
  next hkind => exact functionLiteral_reads hstatement hc hkind h
  next =>
    obtain ⟨left, tokens, right, hleft, he, hright, hread⟩ := grouped_reads hexpression hc h
    exact ⟨_, hread, .group hleft he hright⟩
  · cases h

include hexpression in
/-- What stands before the last expression of a statement belongs to its span. -/
theorem finish_reads {make : Option Span → Expr → Stmt} {c₀ c c' : Cursor} {before : List Token}
    {stmt : Stmt} (hc : c₀.Ended) (hbefore : Reads c₀ before c)
    (h : finish expression c₀.peek make c = .ok (stmt, c')) :
    ∃ tokens semicolon e, isExpression tokens e ∧ semicolon.kind = .symbol .semicolon ∧
      Reads c₀ (before ++ (tokens ++ [semicolon])) c' ∧
      stmt = make (spanOf (before ++ (tokens ++ [semicolon]))) e := by
  unfold finish at h
  obtain ⟨⟨e, c₁⟩, he, h⟩ := bind_ok h
  obtain ⟨⟨_, c₂⟩, hsemicolon, h⟩ := bind_ok h
  obtain ⟨⟨span, c₃⟩, hspan, h⟩ := bind_ok h
  have hended := hc.of_reads hbefore
  obtain ⟨tokens, hread, he⟩ := hexpression _ _ _ hended he
  obtain ⟨semicolon, hkind, hlast⟩ := symbol_reads (hended.of_reads hread) hsemicolon
  have hall := hbefore.append (hread.append hlast)
  rw [hall.spanFrom_eq (by simp)] at hspan
  cases hspan
  cases h
  exact ⟨tokens, semicolon, e, he, hkind, hall, rfl⟩

include hexpression in
theorem discard_reads {c c' : Cursor} {stmt : Stmt} (hc : c.Ended)
    (h : finish expression c.peek .discard c = .ok (stmt, c')) :
    ∃ tokens, Reads c tokens c' ∧ StatementOf isExpression isStatement tokens stmt := by
  obtain ⟨tokens, semicolon, e, he, hkind, hread, rfl⟩ := finish_reads hexpression hc .nil h
  exact ⟨_, hread, .discard rfl he hkind⟩

include hstatement in
/-- An alternative that is read is missing, or is a block after `else`. -/
theorem elseBlock_reads {c c' : Cursor} {stmts : List Stmt} (hc : c.Ended)
    (h : elseBlock statement c = .ok (stmts, c')) :
    (c' = c ∧ stmts = []) ∨ ∃ other tokens, other.kind = .keyword .else ∧
      Braced isStatement tokens stmts ∧ Reads c (other :: tokens) c' := by
  unfold elseBlock at h
  split at h
  next hword =>
    have hkind := isKeyword_iff.mp hword
    have hother := hc.reads_next (by rw [hkind]; rfl)
    obtain ⟨tokens, hread, hblock⟩ := block_accepts hstatement _ _ _ (hc.of_reads hother) h
    exact .inr ⟨c.peek, tokens, hkind, hblock, hother.append hread⟩
  · cases h
    exact .inl ⟨rfl, rfl⟩

include hexpression hstatement in
theorem branch_reads {c c' : Cursor} {stmt : Stmt} (hc : c.Ended)
    (hkind : c.peek.kind = .keyword .if)
    (h : statementOf expression statement c = .ok (stmt, c')) :
    ∃ tokens, Reads c tokens c' ∧ StatementOf isExpression isStatement tokens stmt := by
  unfold statementOf at h
  simp only [hkind] at h
  have hword := hc.reads_next (by rw [hkind]; rfl)
  have hc₁ := hc.of_reads hword
  obtain ⟨⟨test, c₁⟩, htest, h⟩ := bind_ok h
  obtain ⟨⟨thenPart, c₂⟩, hthen, h⟩ := bind_ok h
  obtain ⟨⟨elsePart, c₃⟩, helse, h⟩ := bind_ok h
  obtain ⟨⟨span, c₄⟩, hspan, h⟩ := bind_ok h
  obtain ⟨left, tokens, right, hleft, htest, hright, htestRead⟩ :=
    grouped_reads hexpression hc₁ htest
  obtain ⟨block, hblockRead, hblock⟩ :=
    block_accepts hstatement _ _ _ (hc₁.of_reads htestRead) hthen
  have hbefore := hword.append (htestRead.append hblockRead)
  rcases elseBlock_reads hstatement (hc.of_reads hbefore) helse with
    ⟨rfl, rfl⟩ | ⟨other, rest, hother, hrest, hrestRead⟩
  · rw [hbefore.spanFrom_eq (by simp)] at hspan
    cases hspan
    cases h
    exact ⟨_, hbefore, .branch (by simp) hkind hleft htest hright hblock⟩
  · have hread := hbefore.append hrestRead
    rw [hread.spanFrom_eq (by simp)] at hspan
    cases hspan
    cases h
    exact ⟨_, hread, .branchElse (by simp) hkind hleft htest hright hblock hother hrest⟩

include hexpression hstatement in
theorem loop_reads {c c' : Cursor} {stmt : Stmt} (hc : c.Ended)
    (hkind : c.peek.kind = .keyword .while)
    (h : statementOf expression statement c = .ok (stmt, c')) :
    ∃ tokens, Reads c tokens c' ∧ StatementOf isExpression isStatement tokens stmt := by
  unfold statementOf at h
  simp only [hkind] at h
  have hword := hc.reads_next (by rw [hkind]; rfl)
  have hc₁ := hc.of_reads hword
  obtain ⟨⟨test, c₁⟩, htest, h⟩ := bind_ok h
  obtain ⟨⟨body, c₂⟩, hbody, h⟩ := bind_ok h
  obtain ⟨⟨span, c₃⟩, hspan, h⟩ := bind_ok h
  obtain ⟨left, tokens, right, hleft, htest, hright, htestRead⟩ :=
    grouped_reads hexpression hc₁ htest
  obtain ⟨block, hblockRead, hblock⟩ :=
    block_accepts hstatement _ _ _ (hc₁.of_reads htestRead) hbody
  have hread := hword.append (htestRead.append hblockRead)
  rw [hread.spanFrom_eq (by simp)] at hspan
  cases hspan
  cases h
  exact ⟨_, hread, .loop (by simp) hkind hleft htest hright hblock⟩

include hexpression in
theorem print_reads {c c' : Cursor} {stmt : Stmt} (hc : c.Ended)
    (hkind : c.peek.kind = .keyword .print)
    (h : statementOf expression statement c = .ok (stmt, c')) :
    ∃ tokens, Reads c tokens c' ∧ StatementOf isExpression isStatement tokens stmt := by
  unfold statementOf at h
  simp only [hkind] at h
  have hword := hc.reads_next (by rw [hkind]; rfl)
  have hc₁ := hc.of_reads hword
  obtain ⟨⟨e, c₁⟩, he, h⟩ := bind_ok h
  obtain ⟨⟨_, c₂⟩, hsemicolon, h⟩ := bind_ok h
  obtain ⟨⟨span, c₃⟩, hspan, h⟩ := bind_ok h
  obtain ⟨left, tokens, right, hleft, he, hright, hgroup⟩ := grouped_reads hexpression hc₁ he
  obtain ⟨semicolon, hlast, hlastRead⟩ := symbol_reads (hc₁.of_reads hgroup) hsemicolon
  have hread := hword.append (hgroup.append hlastRead)
  rw [hread.spanFrom_eq (by simp)] at hspan
  cases hspan
  cases h
  exact ⟨_, hread, .print (by simp) hkind hleft he hright hlast⟩

include hexpression in
theorem declare_reads {c c' : Cursor} {stmt : Stmt} (hc : c.Ended)
    (hkind : c.peek.kind = .keyword .let)
    (h : statementOf expression statement c = .ok (stmt, c')) :
    ∃ tokens, Reads c tokens c' ∧ StatementOf isExpression isStatement tokens stmt := by
  unfold statementOf at h
  simp only [hkind] at h
  have hword := hc.reads_next (by rw [hkind]; rfl)
  obtain ⟨⟨x, c₁⟩, hname, h⟩ := bind_ok h
  obtain ⟨⟨_, c₂⟩, hsign, h⟩ := bind_ok h
  obtain ⟨_, hnameRead, ⟨hname⟩⟩ := name_accepts _ _ _ _ (hc.of_reads hword) hname
  have hc₁ := (hc.of_reads hword).of_reads hnameRead
  obtain ⟨sign, hsign, hsignRead⟩ := symbol_reads hc₁ hsign
  obtain ⟨tokens, semicolon, e, he, hlast, hread, rfl⟩ :=
    finish_reads hexpression hc (hword.append (hnameRead.append hsignRead)) h
  exact ⟨_, hread, .declare rfl hkind hname hsign he hlast⟩

include hexpression in
/-- A name before an equals sign is assigned to, and begins an expression otherwise. -/
theorem name_reads {c c' : Cursor} {x : String} {stmt : Stmt} (hc : c.Ended)
    (hkind : c.peek.kind = .identifier x)
    (h : statementOf expression statement c = .ok (stmt, c')) :
    ∃ tokens, Reads c tokens c' ∧ StatementOf isExpression isStatement tokens stmt := by
  unfold statementOf at h
  simp only [hkind] at h
  have hend : c.peek.kind.isEnd = false := by rw [hkind]; rfl
  split at h
  next hsecond =>
    rw [← Cursor.peek_next hend] at hsecond
    have hsign := isSymbol_iff.mp hsecond
    have hname := hc.reads_next hend
    have hsignRead := (hc.of_reads hname).reads_next (by rw [hsign]; rfl)
    obtain ⟨tokens, semicolon, e, he, hlast, hread, rfl⟩ :=
      finish_reads hexpression hc (hname.append hsignRead) h
    exact ⟨_, hread, .assign rfl hkind hsign he hlast⟩
  · exact discard_reads hexpression hc h

include hexpression hstatement in
/-- Statements that are read are those of the grammar: each keyword leads to its own form. -/
theorem statementOf_accepts : 
    Accepts (statementOf expression statement) (StatementOf isExpression isStatement) := by
  intro c stmt c' hc h
  have hform := h
  unfold statementOf at hform
  dsimp only at hform
  split at hform
  next hkind => exact declare_reads hexpression hc hkind h
  next hkind => exact branch_reads hexpression hstatement hc hkind h
  next hkind => exact loop_reads hexpression hstatement hc hkind h
  next hkind => exact print_reads hexpression hc hkind h
  next hkind =>
    have hword := hc.reads_next (by rw [hkind]; rfl)
    obtain ⟨tokens, semicolon, e, he, hlast, hread, rfl⟩ :=
      finish_reads hexpression hc hword hform
    exact ⟨_, hread, .give rfl hkind he hlast⟩
  next x hkind => exact name_reads hexpression hc hkind h
  · exact discard_reads hexpression hc hform

end Parts

/-- What every layer turns into a property of the next limit, the parser yields at every limit. -/
theorem accepts_of_layers {isExpression : Nat → List Token → Expr → Prop}
    {isStatement : Nat → List Token → Stmt → Prop}
    (hexpression : ∀ limit tokens e,
      ExpressionOf (isExpression limit) (isStatement limit) tokens e →
        isExpression (limit + 1) tokens e)
    (hstatement : ∀ limit tokens stmt,
      StatementOf (isExpression limit) (isStatement limit) tokens stmt →
        isStatement (limit + 1) tokens stmt) (limit : Nat) :
    Accepts (expression limit) (isExpression limit) ∧
      Accepts (statement limit) (isStatement limit) := by
  induction limit with
  | zero =>
      constructor
      · intro c e c' _ h
        cases h
      · intro c stmt c' _ h
        cases h
  | succ limit ih =>
      have hprimary := primaryOf_accepts ih.1 ih.2
      constructor
      · intro c e c' hc h
        obtain ⟨tokens, hread, he⟩ := expressionOf_accepts hprimary c e c' hc h
        exact ⟨tokens, hread, hexpression limit tokens e he⟩
      · intro c stmt c' hc h
        obtain ⟨tokens, hread, hstmt⟩ := statementOf_accepts ih.1 ih.2 c stmt c' hc h
        exact ⟨tokens, hread, hstatement limit tokens stmt hstmt⟩

/-- What is parsed at some limit can be derived. -/
theorem expression_statement_accept (limit : Nat) :
    Accepts (expression limit) Expression ∧ Accepts (statement limit) Statement :=
  @accepts_of_layers (fun _ => Expression) (fun _ => Statement) (fun _ _ _ h => h.derives)
    (fun _ _ _ h => h.derives) limit

end Parser

end Treewalk
