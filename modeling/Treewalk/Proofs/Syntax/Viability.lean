import Treewalk.Proofs.Syntax.Foresight

/-! # Every failure is after tokens that can be completed

The parsers of expressions and statements settle at every limit. What a parser has read when it
misses something is completed here form by form, with a literal, an empty block, a parenthesis or a
semicolon.
-/

namespace Treewalk

namespace Parser

open Grammar

section Operators

variable {deep : Nat} {operand : Nat → Parse Expr} {minimum : Nat} {start : Token}

/-- A place with a span is where the span ends. -/
theorem spanFrom_stays {c c' : Cursor} {span : Option Span}
    (h : spanFrom start c = .ok (span, c')) : c' = c := by
  unfold spanFrom at h
  split at h <;> cases h
  rfl

/-- The rounds do not matter, since an operator is read in each. -/
theorem moreOperands_rounds (hoperand : ∀ level, minimum ≤ level → level ≤ 6 →
      Accepts (operand (level + 1)) (Operands (level + 1))) {rounds rounds' : Nat} {left : Expr}
    {c : Cursor} (hc : c.Ended) (h : c.rest.length < rounds) (h' : c.rest.length < rounds') :
    moreOperands operand minimum start rounds left c =
      moreOperands operand minimum start rounds' left c := by
  induction rounds generalizing c left rounds' with
  | zero => exact absurd h (Nat.not_lt_zero _)
  | succ rounds ih =>
      obtain ⟨rounds', rfl⟩ : ∃ k, rounds' = k + 1 := ⟨rounds' - 1, by omega⟩
      unfold moreOperands
      split
      next level operator hoperator =>
        split
        · rfl
        next htight =>
          refine bind_congr fun right c₁ hright => bind_congr fun span c₂ hspan => ?_
          obtain ⟨sign, hkind, hbinds⟩ := operatorOf?_eq_some.mp hoperator
          have hstep := hc.reads_next (by rw [hkind]; rfl)
          obtain ⟨tokens, hread, _⟩ := hoperand level (Nat.le_of_not_lt htight)
            hbinds.level_le _ _ _ (hc.of_reads hstep) hright
          have hlength := (hstep.append hread).length_eq
          rw [List.length_append, List.length_singleton] at hlength
          obtain rfl := spanFrom_stays hspan
          exact ih (hc.of_reads (hstep.append hread)) (by omega) (by omega)
      · rfl

/-- After operands up to a level, further ones go on, or the first token that does not fit ends
them. -/
theorem moreOperands_settles
    (hoperand : ∀ level, minimum ≤ level → level ≤ 6 →
      Parses deep (operand (level + 1)) (Operands (level + 1)) ∧
        Exhausts Primary (operand (level + 1)) (level + 1))
    {before : List Token} {c : Cursor} {left : Expr} {level bound : Nat} (hbound : bound ≤ deep)
    (hc : Reached start before c) (hne : before ≠ []) (hleft : Operands level before left)
    (hlevel : minimum ≤ level) (hstops : Stops (level + 1) c) :
    Settles bound start before
      (fun c => moreOperands operand minimum start (c.rest.length + 1) left c)
      (Operands minimum) c := by
  induction hn : c.rest.length using Nat.strongRecOn generalizing c before left level bound with
  | ind n ih =>
  cases hoperator : operatorOf? c.peek with
  | none =>
      refine .choose _ hc (fun d _ hpeek => ?_) (.done (hleft.loosen hlevel))
      simp only [moreOperands, hpeek, hoperator]
  | some found =>
      obtain ⟨next, operator⟩ := found
      by_cases htight : next < minimum
      · refine .choose _ hc (fun d _ hpeek => ?_) (.done (hleft.loosen hlevel))
        simp only [moreOperands, hpeek, hoperator, htight, ↓reduceIte]
      obtain ⟨sign, hkind, hbinds⟩ := operatorOf?_eq_some.mp hoperator
      have hend : c.peek.kind.isEnd = false := by rw [hkind]; rfl
      have hnext : next ≤ level := Nat.le_of_lt_succ (hstops next operator hoperator)
      have hminimum : minimum ≤ next := Nat.le_of_not_lt htight
      obtain ⟨hparses, hexhausts⟩ := hoperand next hminimum hbinds.level_le
      refine .advance
        (andThen (operand (next + 1)) fun right => andThen (spanFrom start) fun span c =>
          moreOperands operand minimum start (c.rest.length + 1)
            (.binary span operator left right) c)
        hc hend (fun d hd hpeek => ?_) fun hnext₁ =>
        .andThen (hparses _ hnext₁.ended) hnext₁ (by omega) ?_
          fun tokens right c₁ hrun hread hright hc₁ => .span (by simp) hc₁ ?_
      · rw [← hpeek] at hoperator hend
        have hstep := hd.reads_next hend
        rw [moreOperands]
        simp only [hoperator, htight, ↓reduceIte]
        refine bind_congr fun right c₁ hright => bind_congr fun span c₂ hspan => ?_
        obtain ⟨tokens, hread, _⟩ := hparses.accepts _ _ _ (hd.of_reads hstep) hright
        have hlength := (hstep.append hread).length_eq
        rw [List.length_append, List.length_singleton] at hlength
        obtain rfl := spanFrom_stays hspan
        dsimp only
        exact moreOperands_rounds (fun level hlow hhigh => (hoperand level hlow hhigh).1.accepts)
          (hd.of_reads (hstep.append hread)) (by omega) (Nat.lt_succ_self _)
      · intro tokens right hright
        have hall := Operands.binary rfl (hleft.loosen hnext) hkind hbinds hright
        exact ⟨[], _, by simpa using hall.loosen hminimum⟩
      · obtain ⟨_, _, _, hrightStops⟩ := hexhausts _ _ _ hnext₁.ended hrun
        have hall := Operands.binary rfl (hleft.loosen hnext) hkind hbinds hright
        have hlength := ((hc.ended.reads_next hend).append hread).length_eq
        rw [List.length_append, List.length_singleton] at hlength
        rw [List.append_assoc]
        exact ih _ (by omega) (by omega) (by simpa using hc₁) (by simp) hall hminimum hrightStops
          rfl

/-- Operands are parsed if primaries are. -/
theorem operands_parses {primary : Parse Expr} (hprimary : Parses deep primary Primary)
    (depth minimum : Nat) (hminimum : minimum ≤ 7) (hdepth : 7 ≤ depth + minimum) :
    Parses deep (operands primary depth minimum) (Operands minimum) := by
  induction depth generalizing minimum with
  | zero =>
      intro c hc
      have : minimum = 7 := by omega
      subst this
      exact .last (hprimary c hc) (.here hc) (Nat.le_refl _) fun _ _ => .primary
  | succ depth ih =>
      intro c hc
      refine .choose
        (andThen primary fun left d =>
          moreOperands (operands primary depth) minimum c.peek (d.rest.length + 1) left d)
        (.here hc) (fun d _ hpeek => ?_)
        (.andThen (hprimary c hc) (.here hc) (Nat.le_refl _) (fun tokens left hleft => ?_)
          fun tokens left c₁ _ _ hleft hc₁ => ?_)
      · simp only [operands, hpeek]
        rfl
      · exact ⟨[], left, by simpa using Operands.loosen hminimum (.primary hleft)⟩
      · have hne : tokens ≠ [] := by
          obtain ⟨token, rest, rfl, _⟩ := hleft.starts
          exact List.cons_ne_nil _ _
        refine moreOperands_settles (fun level hlow hhigh => ⟨?_, ?_⟩) (Nat.sub_le _ _) hc₁
          hne (.primary hleft) hminimum (stops_of_tightest (by decide) c₁)
        · exact ih (level + 1) (by omega) (by omega)
        · exact operands_exhausts hprimary.accepts depth (level + 1) (by omega) (by omega)

theorem expressionOf_parses {primary : Parse Expr} (hprimary : Parses deep primary Primary) :
    Parses deep (expressionOf primary) Expression := fun c hc =>
  .last (operands_parses hprimary 7 0 (by decide) (by decide) c hc) (.here hc) (Nat.le_refl _)
    fun _ _ => Operands.expression

end Operators

inductive Grouped : List Token → Expr → Prop where
  | mk {left tokens right e} : left.kind = .symbol .leftParen → Expression tokens e →
      right.kind = .symbol .rightParen → Grouped (left :: (tokens ++ [right])) e

/-- A block after `else`, or nothing. -/
inductive Alternative : List Token → List Stmt → Prop where
  | none : Alternative [] []
  | mk {word block stmts} : word.kind = .keyword .else → Braced Statement block stmts →
      Alternative (word :: block) stmts

theorem expression_literal :
    Expression [madeToken (.number 0)] (.number (some (madeToken (.number 0)).span) 0) :=
  .loosen (by decide) (.primary (.number rfl))

/-- A primary can be completed from nothing. -/
theorem viable_primary : Viable Primary [] := ⟨[madeToken (.number 0)], _, .number rfl⟩

def emptyBlock : List Token := [madeToken (.symbol .leftBrace), madeToken (.symbol .rightBrace)]

theorem braced_emptyBlock : Braced Statement emptyBlock [] := .mk rfl .nil rfl

/-- No statement is empty. -/
theorem statement_ne_nil (tokens : List Token) (stmt : Stmt) (h : Statement tokens stmt) :
    tokens ≠ [] := by
  obtain ⟨token, rest, rfl, _⟩ := h.starts
  exact List.cons_ne_nil _ _

theorem statement_branch {word : Token} {group block rest : List Token} {test : Expr}
    {thenPart elsePart : List Stmt} (hword : word.kind = .keyword .if) (htest : Grouped group test)
    (hthen : Braced Statement block thenPart) (helse : Alternative rest elsePart) :
    Statement (word :: (group ++ (block ++ rest)))
      (.branch (spanOf (word :: (group ++ (block ++ rest)))) test thenPart elsePart) := by
  cases htest with
  | mk hleft htest hright =>
      cases helse with
      | none => exact .branch (by simp) hword hleft htest hright hthen
      | mk hother helse =>
          exact .branchElse (by simp) hword hleft htest hright hthen hother helse

theorem statement_loop {word : Token} {group block : List Token} {test : Expr} {body : List Stmt}
    (hword : word.kind = .keyword .while) (htest : Grouped group test)
    (hbody : Braced Statement block body) :
    Statement (word :: (group ++ block)) (.loop (spanOf (word :: (group ++ block))) test body) := by
  cases htest with
  | mk hleft htest hright => exact .loop (by simp) hword hleft htest hright hbody

theorem statement_print {word semicolon : Token} {group : List Token} {e : Expr}
    (hword : word.kind = .keyword .print) (he : Grouped group e)
    (hsemicolon : semicolon.kind = .symbol .semicolon) :
    Statement (word :: (group ++ [semicolon]))
      (.print (spanOf (word :: (group ++ [semicolon]))) e) := by
  cases he with
  | mk hleft he hright => exact .print (by simp) hword hleft he hright hsemicolon

/-- A name alone, before the end of input. -/
def lone (token : Token) : Cursor :=
  ⟨[token, madeToken .endOfInput], madeToken .endOfInput, none⟩

theorem lone_ended (token : Token) : (lone token).Ended :=
  ⟨madeToken .endOfInput, by simp [lone], rfl⟩

/-- After the only token comes the end. -/
theorem lone_next {token : Token} (hend : token.kind.isEnd = false) :
    (lone token).next = ⟨[madeToken .endOfInput], madeToken .endOfInput, some token.span.stop⟩ :=
  Cursor.next_cons hend

/-- What fails at the end of input does not fail at a token before it. -/
theorem unexpected_ne_result {α : Type} {c d : Cursor} {expected : Expected}
    (hc : c.peek.kind.isEnd = false) (hd : d.peek.kind.isEnd = true) (outcome : Outcome α) :
    .error (unexpected expected d) ≠ outcome.result c := by
  cases outcome with
  | found a => exact nofun
  | missing other =>
      intro h
      simp only [Outcome.result, unexpected, hc, hd, ↓reduceIte, Bool.false_eq_true] at h
      cases h

section Forms

variable {deep : Nat} {expression : Parse Expr} {statement : Parse Stmt}
  (hexpression : Parses (deep + 1) expression Expression)
  (hstatement : Parses deep statement Statement)

include hexpression in
theorem grouped_parses : Parses (deep + 2) (grouped expression) Grouped := by
  intro c hc
  have hright : (madeToken (.symbol .rightParen)).kind = .symbol .rightParen := rfl
  refine .bind (symbol_parses _ .leftParen c hc) (.here hc) (Nat.le_refl _) ?_ ?_
  · rintro _ _ ⟨hleft⟩
    exact ⟨[_, _], _, .mk hleft expression_literal hright⟩
  rintro _ _ c₁ _ _ ⟨hleft⟩ hc₁
  refine .bind (hexpression c₁ hc₁.ended) hc₁ (Nat.le_refl _) ?_ ?_
  · intro tokens e he
    exact ⟨[_], e, by simpa using Grouped.mk hleft he hright⟩
  intro tokens e c₂ _ _ he hc₂
  refine .bind (symbol_parses _ .rightParen c₂ hc₂.ended) hc₂ (Nat.le_refl _) ?_ ?_
  · rintro _ _ ⟨hright⟩
    exact ⟨[], e, by simpa using Grouped.mk hleft he hright⟩
  · rintro _ _ c₃ _ _ ⟨hright⟩ _
    exact .done (by simpa using Grouped.mk hleft he hright)

/-- A number literal from the place after its sign on. -/
def afterSign (negative : Bool) (sign : Token) : Parse Expr := fun c =>
  match c.peek.kind with
  | .number value => do
    let (span, c) ← spanFrom sign c.next
    .ok (.number span (if negative then -value else value), c)
  | _ => .error (unexpected .numberAfterSign c)

/-- A sign is followed by a numeral, or fails there. -/
theorem signedNumber_settles (negative : Bool) {c : Cursor} (hc : c.Ended)
    (hend : c.peek.kind.isEnd = false)
    (hnumber : ∀ token value, token.kind = .number value →
      Primary [c.peek, token]
        (.number (spanOf [c.peek, token]) (if negative then -value else value))) :
    Settles deep c.peek [] (signedNumber negative) Primary c := by
  refine .advance (afterSign negative c.peek) (.here hc) hend (fun d _ hpeek => ?_) fun hc₁ => ?_
  · rw [← hpeek] at hend
    cases hkind : d.next.peek.kind <;>
      simp only [signedNumber, afterSign, ← Cursor.peek_next hend, hpeek, hkind]
  cases hkind : c.next.peek.kind with
  | number value =>
      refine .advance
        (andThen (spanFrom c.peek) fun span d =>
          .ok (.number span (if negative then -value else value), d))
        hc₁ (by rw [hkind]; rfl) (fun d _ hpeek => ?_) fun hc₂ => .span (by simp) hc₂ (.done ?_)
      · simp only [afterSign, hpeek, hkind]
        rfl
      · exact hnumber _ _ hkind
  | _ =>
      refine .choose _ hc₁ (fun d _ hpeek => ?_)
        (.miss .numberAfterSign ⟨[madeToken (.number 0)], _, hnumber _ 0 rfl⟩)
      simp only [afterSign, hpeek, hkind]

/-- A call from the parenthesis after its name on. -/
def afterCallee (expression : Parse Expr) (start : Token) (callee : String) : Parse Expr :=
  andThen (parenthesised expression) fun arguments =>
    andThen (spanFrom start) fun span c => .ok (.call span (.text callee) arguments, c)

include hexpression in
/-- A name is called if a parenthesis comes after it. -/
theorem named_settles {c : Cursor} {x : String} (hc : c.Ended)
    (hkind : c.peek.kind = .identifier x) :
    Settles (deep + 2) c.peek [] (primaryOf expression statement) Primary c := by
  have hend : c.peek.kind.isEnd = false := by rw [hkind]; rfl
  refine .advance
    (fun d => if isSymbol .leftParen d.peek then afterCallee expression c.peek x d
      else .ok (.variable (some c.peek.span) (.text x), d))
    (.here hc) hend (fun d _ hpeek => ?_) fun hc₁ => ?_
  · simp only [primaryOf, call, hpeek, hkind]
    rfl
  by_cases hcall : isSymbol .leftParen c.next.peek = true
  · refine .choose (afterCallee expression c.peek x) hc₁ (fun d _ hpeek => ?_)
      (.andThen (parenthesised_parses hexpression _ hc₁.ended) hc₁
        (by omega) (fun tokens arguments harguments => ?_)
        fun tokens arguments c₂ _ _ harguments hc₂ => .span (by simp) hc₂ (.done ?_))
    · simp only [hpeek, hcall, ↓reduceIte]
    · exact ⟨[], _, by simpa using Primary.call rfl hkind harguments⟩
    · exact .call rfl hkind harguments
  · refine .choose _ hc₁ (fun d _ hpeek => ?_) (.done (.variable hkind))
    simp only [hpeek, hcall, Bool.false_eq_true, ↓reduceIte]

include hstatement in
/-- A function literal is parsed once its keyword is seen. -/
theorem functionLiteral_settles {c : Cursor} (hc : c.Ended)
    (hkind : c.peek.kind = .keyword .function) :
    Settles (deep + 2) c.peek [] (functionLiteral statement) Primary c := by
  refine .advance
    (andThen (parenthesised (name .parameterName)) fun parameters =>
      andThen (block statement) fun body =>
      andThen (spanFrom c.peek) fun span d =>
      .ok (.function span (parameters.map Datum.text) body, d))
    (.here hc) (by rw [hkind]; rfl) (fun d _ hpeek => by simp only [functionLiteral, hpeek]; rfl)
    fun hc₁ => ?_
  refine .andThen (parenthesised_parses (name_parses (deep + 1) .parameterName) _ hc₁.ended) hc₁
    (by omega) ?_ ?_
  · intro tokens parameters hparameters
    exact ⟨emptyBlock, _, .function (by simp) hkind hparameters braced_emptyBlock⟩
  intro tokens parameters c₂ _ hread hparameters hc₂
  have hlength : 0 < tokens.length := by
    obtain ⟨left, rest, rfl, _⟩ := hparameters.head
    exact Nat.succ_pos _
  refine .andThen (block_parses statement_ne_nil hstatement _ hc₂.ended) hc₂ (by omega) ?_ ?_
  · intro block body hbody
    exact ⟨[], _, .function (by simp) hkind hparameters hbody⟩
  intro block body c₃ _ _ hbody hc₃
  exact .span (by simp) hc₃ (.done (.function (by simp) hkind hparameters hbody))

include hexpression hstatement in
theorem primaryOf_parses : Parses (deep + 2) (primaryOf expression statement) Primary := by
  intro c hc
  cases hkind : c.peek.kind with
  | number value =>
      refine .advance (fun d => .ok (.number (some c.peek.span) value, d)) (.here hc)
        (by rw [hkind]; rfl) (fun d _ hpeek => ?_) fun _ => .done (.number hkind)
      simp only [primaryOf, hpeek, hkind]
  | boolean value =>
      refine .advance (fun d => .ok (.boolean (some c.peek.span) value, d)) (.here hc)
        (by rw [hkind]; rfl) (fun d _ hpeek => ?_) fun _ => .done (.boolean hkind)
      simp only [primaryOf, hpeek, hkind]
  | identifier x => exact named_settles hexpression hc hkind
  | keyword word =>
      cases word with
      | function =>
          refine .choose _ (.here hc) (fun d _ hpeek => ?_)
            (functionLiteral_settles hstatement hc hkind)
          simp only [primaryOf, hpeek, hkind]
      | _ =>
          refine .choose _ (.here hc) (fun d _ hpeek => ?_) (.miss .expression viable_primary)
          simp only [primaryOf, hpeek, hkind]
  | symbol sign =>
      have hend : c.peek.kind.isEnd = false := by rw [hkind]; rfl
      cases sign with
      | minus =>
          refine .choose _ (.here hc) (fun d _ hpeek => ?_)
            (signedNumber_settles true hc hend fun _ _ => .minus hkind)
          simp only [primaryOf, hpeek, hkind]
      | plus =>
          refine .choose _ (.here hc) (fun d _ hpeek => ?_)
            (signedNumber_settles false hc hend fun _ _ => .plus hkind)
          simp only [primaryOf, hpeek, hkind]
      | leftParen =>
          refine .choose _ (.here hc) (fun d _ hpeek => ?_)
            (.last (grouped_parses hexpression c hc) (.here hc) (Nat.le_refl _) ?_)
          · simp only [primaryOf, hpeek, hkind]
          · rintro _ _ ⟨hleft, he, hright⟩
            exact .group hleft he hright
      | _ =>
          refine .choose _ (.here hc) (fun d _ hpeek => ?_) (.miss .expression viable_primary)
          simp only [primaryOf, hpeek, hkind]
  | endOfInput =>
      refine .choose _ (.here hc) (fun d _ hpeek => ?_) (.miss .expression viable_primary)
      simp only [primaryOf, hpeek, hkind]

include hexpression in
/-- A statement that ends with an expression and a semicolon, from the expression on. -/
theorem finish_settles {start : Token} {before : List Token} {c : Cursor} {bound : Nat}
    {make : Option Span → Expr → Stmt} (hbound : bound ≤ deep + 1) (hc : Reached start before c)
    (hstmt : ∀ tokens e semicolon, Expression tokens e →
      semicolon.kind = .symbol .semicolon →
      Statement (before ++ (tokens ++ [semicolon]))
        (make (spanOf (before ++ (tokens ++ [semicolon]))) e)) :
    Settles bound start before (finish expression start make) Statement c := by
  change Settles bound start before (andThen expression fun value =>
    andThen (symbol .semicolon) fun _ =>
    andThen (spanFrom start) fun span d => .ok (make span value, d)) Statement c
  refine .andThen (hexpression c hc.ended) hc hbound ?_ ?_
  · intro tokens e he
    exact ⟨[_], _, by simpa using hstmt tokens e (madeToken (.symbol .semicolon)) he rfl⟩
  intro tokens e c₁ _ _ he hc₁
  refine .andThen (symbol_parses _ .semicolon c₁ hc₁.ended) hc₁ (Nat.le_refl _) ?_ ?_
  · rintro _ _ ⟨hsemicolon⟩
    exact ⟨[], _, by simpa using hstmt tokens e _ he hsemicolon⟩
  · rintro _ _ c₂ _ _ ⟨hsemicolon⟩ hc₂
    exact .span (by simp) hc₂ (.done (by simpa using hstmt tokens e _ he hsemicolon))

include hexpression in
/-- A declaration is parsed once its keyword is seen. -/
theorem declare_settles {c : Cursor} (hc : c.Ended) (hkind : c.peek.kind = .keyword .let) :
    Settles (deep + 1) c.peek [] (statementOf expression statement) Statement c := by
  have hsign : (madeToken (.symbol .assign)).kind = .symbol .assign := rfl
  have hlast : (madeToken (.symbol .semicolon)).kind = .symbol .semicolon := rfl
  refine .advance
    (andThen (name .identifier) fun name => andThen (symbol .assign) fun _ =>
      finish expression c.peek (fun span value => .declare span (.text name) value))
    (.here hc) (by rw [hkind]; rfl) (fun d _ hpeek => ?_) fun hc₁ => ?_
  · simp only [statementOf, hpeek, hkind]
    rfl
  refine .andThen (name_parses _ .identifier _ hc₁.ended) hc₁ (Nat.le_refl _) ?_ ?_
  · rintro _ x ⟨hname⟩
    exact ⟨[_, _, _], _, .declare rfl hkind hname hsign expression_literal hlast⟩
  rintro _ x c₂ _ _ ⟨hname⟩ hc₂
  refine .andThen (symbol_parses _ .assign _ hc₂.ended) hc₂ (Nat.le_refl _) ?_ ?_
  · rintro _ _ ⟨hsign⟩
    exact ⟨[_, _], _, .declare rfl hkind hname hsign expression_literal hlast⟩
  rintro _ _ c₃ _ _ ⟨hsign⟩ hc₃
  exact finish_settles hexpression (by omega) hc₃ fun tokens e semicolon he hlast =>
    .declare rfl hkind hname hsign he hlast

include hstatement in
theorem elseBlock_parses : Parses deep (elseBlock statement) Alternative := by
  intro c hc
  by_cases hword : isKeyword .else c.peek = true
  · have hkind := isKeyword_iff.mp hword
    refine .advance (block statement) (.here hc) (by rw [hkind]; rfl) (fun d _ hpeek => ?_)
      fun hc₁ => ?_
    · simp only [elseBlock, hpeek, hword, ↓reduceIte]
    · exact .last (block_parses statement_ne_nil hstatement _ hc₁.ended) hc₁ (by omega)
        fun _ _ => .mk hkind
  · refine .choose _ (.here hc) (fun d _ hpeek => ?_) (.done .none)
    simp only [elseBlock, hpeek, hword, Bool.false_eq_true, ↓reduceIte]

include hexpression hstatement

theorem branch_settles {c : Cursor} (hc : c.Ended) (hkind : c.peek.kind = .keyword .if) :
    Settles (deep + 1) c.peek [] (statementOf expression statement) Statement c := by
  refine .advance
    (andThen (grouped expression) fun test =>
      andThen (block statement) fun thenPart =>
      andThen (elseBlock statement) fun elsePart =>
      andThen (spanFrom c.peek) fun span d => .ok (.branch span test thenPart elsePart, d))
    (.here hc) (by rw [hkind]; rfl) (fun d _ hpeek => ?_) fun hc₁ => ?_
  · simp only [statementOf, hpeek, hkind]
    rfl
  refine .andThen (grouped_parses hexpression _ hc₁.ended) hc₁ (by omega) ?_ ?_
  · intro group test htest
    exact ⟨emptyBlock, _, by simpa using statement_branch hkind htest braced_emptyBlock .none⟩
  intro group test c₂ _ _ htest hc₂
  have hlength : 0 < group.length := by
    cases htest
    exact Nat.succ_pos _
  refine .andThen (block_parses statement_ne_nil hstatement _ hc₂.ended) hc₂ (by omega) ?_ ?_
  · intro block thenPart hthen
    exact ⟨[], _, by simpa using statement_branch hkind htest hthen .none⟩
  intro block thenPart c₃ _ _ hthen hc₃
  refine .andThen (elseBlock_parses hstatement _ hc₃.ended) hc₃ (by omega) ?_ ?_
  · intro rest elsePart helse
    exact ⟨[], _, by simpa using statement_branch hkind htest hthen helse⟩
  intro rest elsePart c₄ _ _ helse hc₄
  exact .span (by simp) hc₄ (.done (by simpa using statement_branch hkind htest hthen helse))

theorem loop_settles {c : Cursor} (hc : c.Ended) (hkind : c.peek.kind = .keyword .while) :
    Settles (deep + 1) c.peek [] (statementOf expression statement) Statement c := by
  refine .advance
    (andThen (grouped expression) fun test =>
      andThen (block statement) fun body =>
      andThen (spanFrom c.peek) fun span d => .ok (.loop span test body, d))
    (.here hc) (by rw [hkind]; rfl) (fun d _ hpeek => ?_) fun hc₁ => ?_
  · simp only [statementOf, hpeek, hkind]
    rfl
  refine .andThen (grouped_parses hexpression _ hc₁.ended) hc₁ (by omega) ?_ ?_
  · intro group test htest
    exact ⟨emptyBlock, _, by simpa using statement_loop hkind htest braced_emptyBlock⟩
  intro group test c₂ _ _ htest hc₂
  have hlength : 0 < group.length := by
    cases htest
    exact Nat.succ_pos _
  refine .andThen (block_parses statement_ne_nil hstatement _ hc₂.ended) hc₂ (by omega) ?_ ?_
  · intro block body hbody
    exact ⟨[], _, by simpa using statement_loop hkind htest hbody⟩
  intro block body c₃ _ _ hbody hc₃
  exact .span (by simp) hc₃ (.done (by simpa using statement_loop hkind htest hbody))

omit hstatement

theorem print_settles {c : Cursor} (hc : c.Ended) (hkind : c.peek.kind = .keyword .print) :
    Settles (deep + 1) c.peek [] (statementOf expression statement) Statement c := by
  refine .advance
    (andThen (grouped expression) fun value =>
      andThen (symbol .semicolon) fun _ =>
      andThen (spanFrom c.peek) fun span d => .ok (.print span value, d))
    (.here hc) (by rw [hkind]; rfl) (fun d _ hpeek => ?_) fun hc₁ => ?_
  · simp only [statementOf, hpeek, hkind]
    rfl
  have hlast : (madeToken (.symbol .semicolon)).kind = .symbol .semicolon := rfl
  refine .andThen (grouped_parses hexpression _ hc₁.ended) hc₁ (by omega) ?_ ?_
  · intro group e he
    exact ⟨[_], _, by simpa using statement_print hkind he hlast⟩
  intro group e c₂ _ _ he hc₂
  refine .andThen (symbol_parses _ .semicolon _ hc₂.ended) hc₂ (Nat.le_refl _) ?_ ?_
  · rintro _ _ ⟨hlast⟩
    exact ⟨[], _, by simpa using statement_print hkind he hlast⟩
  rintro _ _ c₃ _ _ ⟨hlast⟩ hc₃
  exact .span (by simp) hc₃ (.done (by simpa using statement_print hkind he hlast))

theorem give_settles {c : Cursor} (hc : c.Ended) (hkind : c.peek.kind = .keyword .return) :
    Settles (deep + 1) c.peek [] (statementOf expression statement) Statement c :=
  .advance (finish expression c.peek .give) (.here hc) (by rw [hkind]; rfl)
    (fun d _ hpeek => by simp only [statementOf, hpeek, hkind])
    fun hc₁ => finish_settles hexpression (by omega) hc₁ fun _ _ _ he hlast =>
      .give rfl hkind he hlast

theorem discard_settles {c : Cursor} (hc : c.Ended) :
    Settles (deep + 1) c.peek [] (finish expression c.peek .discard) Statement c :=
  finish_settles hexpression (Nat.le_refl _) (.here hc) fun _ _ _ he hlast =>
    .discard rfl he hlast

/-- An equals sign makes a name the target of an assignment. -/
theorem assign_settles {c : Cursor} {x : String} (hc : c.Ended)
    (hkind : c.peek.kind = .identifier x) :
    Settles (deep + 1) c.peek []
      (fun d => andThen (symbol .assign)
        (fun _ => finish expression c.peek (fun span value => .assign span (.text x) value)) d.next)
      Statement c := by
  refine .advance
    (andThen (symbol .assign) fun _ =>
      finish expression c.peek (fun span value => .assign span (.text x) value))
    (.here hc) (by rw [hkind]; rfl) (fun _ _ _ => rfl) fun hc₁ => ?_
  have hlast : (madeToken (.symbol .semicolon)).kind = .symbol .semicolon := rfl
  refine .andThen (symbol_parses _ .assign _ hc₁.ended) hc₁ (Nat.le_refl _) ?_ ?_
  · rintro _ _ ⟨hsign⟩
    exact ⟨[_, _], _, .assign rfl hkind hsign expression_literal hlast⟩
  rintro _ _ c₂ _ _ ⟨hsign⟩ hc₂
  exact finish_settles hexpression (by omega) hc₂ fun _ _ _ he hlast =>
    .assign rfl hkind hsign he hlast

/-- An identifier begins an assignment or an expression, as its second token says. -/
theorem identifier_settles
    (hlone : ∀ token x, token.kind = .identifier x → expression (lone token) = .error .tooDeep ∨
      ∃ e, expression (lone token) = .ok (e, (lone token).next))
    {c : Cursor} {x : String} (hc : c.Ended) (hkind : c.peek.kind = .identifier x) :
    Settles (deep + 1) c.peek [] (statementOf expression statement) Statement c := by
  have hend : c.peek.kind.isEnd = false := by rw [hkind]; rfl
  have hreached : Reached c.peek [] (lone c.peek) := .here (lone_ended c.peek)
  by_cases hassign : isSymbol .assign c.next.peek = true
  · refine .foresee _ (.here hc) (fun d _ hpeek hnext => ?_) (fun outcome => ?_)
      (assign_settles hexpression hc hkind)
    · rw [← hnext] at hassign
      rw [← hpeek] at hend
      simp only [statementOf, hpeek, hkind, ← Cursor.peek_next hend, hassign, andThen, symbol,
        ↓reduceIte]
      rfl
    · refine ⟨lone c.peek, hreached, rfl, ?_⟩
      rw [lone_next hend]
      exact unexpected_ne_result (c := lone c.peek) (d := ⟨[_], _, _⟩) hend rfl outcome
  · refine .foresee _ (.here hc) (fun d _ hpeek hnext => ?_) (fun outcome => ?_)
      (discard_settles hexpression hc)
    · rw [← hnext] at hassign
      rw [← hpeek] at hend
      simp only [statementOf, hpeek, hkind, ← Cursor.peek_next hend, hassign, Bool.false_eq_true,
        ↓reduceIte]
    · refine ⟨lone c.peek, hreached, rfl, ?_⟩
      unfold finish
      rcases hlone _ _ hkind with hdeep | ⟨e, hrun⟩
      · rw [hdeep]
        exact (outcome.result_ne_tooDeep _).symm
      · rw [hrun, lone_next hend]
        exact unexpected_ne_result (c := lone c.peek) (d := ⟨[_], _, _⟩) hend rfl outcome

include hstatement

theorem statementOf_parses
    (hlone : ∀ token x, token.kind = .identifier x → expression (lone token) = .error .tooDeep ∨
      ∃ e, expression (lone token) = .ok (e, (lone token).next)) :
    Parses (deep + 1) (statementOf expression statement) Statement := by
  intro c hc
  cases hkind : c.peek.kind with
  | keyword word =>
      cases word with
      | «let» => exact declare_settles hexpression hc hkind
      | «if» => exact branch_settles hexpression hstatement hc hkind
      | «while» => exact loop_settles hexpression hstatement hc hkind
      | print => exact print_settles hexpression hc hkind
      | «return» => exact give_settles hexpression hc hkind
      | _ =>
          refine .choose _ (.here hc) (fun d _ hpeek => ?_) (discard_settles hexpression hc)
          simp only [statementOf, hpeek, hkind]
  | identifier x => exact identifier_settles hexpression hlone hc hkind
  | _ =>
      refine .choose _ (.here hc) (fun d _ hpeek => ?_) (discard_settles hexpression hc)
      simp only [statementOf, hpeek, hkind]

end Forms

/-- A name alone is an expression. -/
theorem expression_lone (limit : Nat) (token : Token) (x : String)
    (hkind : token.kind = .identifier x) :
    expression limit (lone token) = .error .tooDeep ∨
      ∃ e, expression limit (lone token) = .ok (e, (lone token).next) := by
  cases limit with
  | zero => exact .inl rfl
  | succ limit =>
      have hend : token.kind.isEnd = false := by rw [hkind]; rfl
      have hnext : (lone token).next.peek.kind.isEnd = true := by
        rw [lone_next hend]
        rfl
      have hfinds : Finds (primaryOf (expression limit) (statement limit)) NotCalled [token]
          (.variable (some token.span) (.text x)) := by
        intro c c' hread hcalled
        obtain ⟨rfl, _, hnil⟩ := hread.step
        obtain rfl := hnil.eq_of_nil
        unfold primaryOf
        simp only [hkind, show isSymbol .leftParen c.next.peek = false from hcalled]
        rfl
      exact .inr ⟨_, (Climbs.of_primary hfinds).operands_eq ((lone_ended token).reads_next hend)
        (loose_of_end hnext) (by decide) (by decide)⟩

/-- At every limit, the parsers settle. The limit is reached only with as many tokens left. -/
theorem expression_statement_parse (limit : Nat) :
    Parses (limit + 1) (expression limit) Expression ∧
      Parses limit (statement limit) Statement := by
  induction limit with
  | zero =>
      refine ⟨fun c hc => .tooDeep rfl ?_, fun c _ => .tooDeep rfl (Nat.zero_le _)⟩
      obtain ⟨last, hlast, _⟩ := hc
      exact List.length_pos_iff.mpr fun hnil => by simp [hnil] at hlast
  | succ limit ih =>
      obtain ⟨hexpression, hstatement⟩ := ih
      have hprimary := primaryOf_parses hexpression hstatement
      exact ⟨expressionOf_parses hprimary,
        statementOf_parses hexpression hstatement (expression_lone limit)⟩

/-- Programs are parsed as the grammar says, at every limit. -/
theorem program_parses (limit : Nat) : Parses limit (program limit) Grammar.Program :=
  statementsUntil_parses statement_ne_nil (expression_statement_parse limit).2 _

end Parser

end Treewalk
