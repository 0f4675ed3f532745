import Treewalk.Proofs.Evaluation.Alike
import Treewalk.Proofs.Syntax.Reading

/-! # The parser looks at the kinds of tokens only

Tokens of the same kinds are parsed alike, at every limit: the parser fails on both sides, or it
yields trees that differ in their spans only. The two runs are at places that are alike all the
time, with as many tokens of the same kinds to come. If they fail, they do so for the same reason,
and at tokens that pass for each other in whatever way those before do.
-/

namespace Treewalk

/-- Tokens agree in something one by one if they do so as lists. -/
theorem Token.forall₂_iff_map_eq {α : Type} {f : Token → α} {tokens tokens' : List Token} :
    List.Forall₂ (fun token token' => f token' = f token) tokens tokens' ↔
      tokens'.map f = tokens.map f := by
  rw [← List.forall₂_eq_eq_eq, List.forall₂_map_left_iff, List.forall₂_map_right_iff]
  exact ⟨.flip, .flip⟩

/-- Which tokens pass for each other. They are of the same kind. -/
structure TokenLikeness where
  alike : Token → Token → Prop
  kind : ∀ {token token'}, alike token token' → token'.kind = token.kind

/-- Lexemes and spans do not count. -/
def TokenLikeness.kinds : TokenLikeness := ⟨fun token token' => token'.kind = token.kind, id⟩

/-- Spans do not count. -/
def TokenLikeness.lexemes : TokenLikeness :=
  ⟨fun token token' => token'.kind = token.kind ∧ token'.lexeme = token.lexeme, And.left⟩

namespace Parser

variable {like : TokenLikeness}

/-- Places with tokens to come that pass for each other. -/
structure Cursor.Alike (like : TokenLikeness) (c d : Cursor) : Prop where
  rest : List.Forall₂ like.alike c.rest d.rest
  final : like.alike c.final d.final
  stop : d.stop.isSome = c.stop.isSome

namespace Cursor.Alike

variable {c d : Cursor}

theorem length_eq (h : c.Alike like d) : d.rest.length = c.rest.length := h.rest.length_eq.symm

theorem alike_headD {tokens tokens' : List Token} {final final' : Token}
    (h : List.Forall₂ like.alike tokens tokens') (hfinal : like.alike final final') :
    like.alike (tokens.headD final) (tokens'.headD final') := by
  cases h with
  | nil => exact hfinal
  | cons hfirst _ => exact hfirst

theorem alike_tail {tokens tokens' : List Token} (h : List.Forall₂ like.alike tokens tokens') :
    List.Forall₂ like.alike tokens.tail tokens'.tail := by
  cases h with
  | nil => exact .nil
  | cons _ hrest => exact hrest

theorem isSome_head? {tokens tokens' : List Token} (h : List.Forall₂ like.alike tokens tokens') :
    tokens'.head?.isSome = tokens.head?.isSome := by
  cases h <;> rfl

/-- The next tokens pass for each other. -/
theorem here (h : c.Alike like d) : like.alike c.peek d.peek := alike_headD h.rest h.final

/-- Cursors over tokens that are alike see tokens of the same kind. -/
theorem peek (h : c.Alike like d) : d.peek.kind = c.peek.kind := like.kind h.here

theorem peekSecond (h : c.Alike like d) : d.peekSecond.kind = c.peekSecond.kind :=
  like.kind (alike_headD (alike_tail h.rest) h.final)

theorem next (h : c.Alike like d) : c.next.Alike like d.next := by
  have hhead : d.rest.head?.isSome = c.rest.head?.isSome := isSome_head? h.rest
  unfold Cursor.next
  rw [h.peek]
  split
  · exact h
  · exact ⟨alike_tail h.rest, h.final, by simpa using hhead⟩

end Cursor.Alike

/-- Failures for the same reason, at tokens that pass for each other. -/
inductive FailsAlike (like : TokenLikeness) : ParseFailure → ParseFailure → Prop where
  | unexpected {expected c d} : like.alike c.peek d.peek →
      FailsAlike like (unexpected expected c) (unexpected expected d)
  | notOneExpression {span span'} :
      FailsAlike like (.error ⟨.notOneExpression, span, none⟩)
        (.error ⟨.notOneExpression, span', none⟩)
  | tooDeep : FailsAlike like .tooDeep .tooDeep
  | pastEnd : FailsAlike like .pastEnd .pastEnd

section Results

variable {α β γ δ : Type}

/-- Two failures for the same reason, or two results that are related, at places that are alike. -/
inductive SameResult (like : TokenLikeness) (post : α → β → Prop) :
    Except ParseFailure (α × Cursor) → Except ParseFailure (β × Cursor) → Prop where
  | ok {a b c d} : post a b → c.Alike like d → SameResult like post (.ok (a, c)) (.ok (b, d))
  | error {failure failure'} : FailsAlike like failure failure' →
      SameResult like post (.error failure) (.error failure')

/-- Steps one after the other have the same result if the first do, and the second do on related
results. -/
theorem SameResult.bind {post : α → β → Prop} {post' : γ → δ → Prop}
    {x : Except ParseFailure (α × Cursor)} {y : Except ParseFailure (β × Cursor)}
    {f : α × Cursor → Except ParseFailure (γ × Cursor)}
    {g : β × Cursor → Except ParseFailure (δ × Cursor)} (h : SameResult like post x y)
    (hnext : ∀ a b c d, post a b → c.Alike like d → SameResult like post' (f (a, c)) (g (b, d))) :
    SameResult like post' (x >>= f) (y >>= g) := by
  cases h with
  | ok hpost halike => exact hnext _ _ _ _ hpost halike
  | error hfails => exact .error hfails

/-- Parsers that yield related results at places that are alike. -/
def Same (like : TokenLikeness) (post : α → β → Prop) (parser : Parse α) (parser' : Parse β) :
    Prop :=
  ∀ c d, c.Alike like d → SameResult like post (parser c) (parser' d)

end Results

variable {token token' : Token}

theorem isSymbol_congr (h : token'.kind = token.kind) (sign : Symbol) :
    isSymbol sign token' = isSymbol sign token := by
  unfold isSymbol
  rw [h]

theorem isKeyword_congr (h : token'.kind = token.kind) (word : Keyword) :
    isKeyword word token' = isKeyword word token := by
  unfold isKeyword
  rw [h]

theorem operatorOf?_congr (h : token'.kind = token.kind) :
    operatorOf? token' = operatorOf? token := by
  unfold operatorOf?
  rw [h]

/-! ## Lists -/

/-- A symbol is told by its kind. -/
theorem symbol_same (sign : Symbol) : Same like (fun _ _ => True) (symbol sign) (symbol sign) := by
  intro c d h
  unfold symbol
  rw [isSymbol_congr h.peek]
  split
  · exact .ok trivial h.next
  · exact .error (.unexpected h.here)

theorem name_same (expected : Expected) : Same like Eq (name expected) (name expected) := by
  intro c d h
  unfold name
  rw [h.peek]
  split
  · exact .ok rfl h.next
  · exact .error (.unexpected h.here)

/-- Spans may differ: they are read off tokens. -/
theorem spanFrom_same (start start' : Token) :
    Same like (fun _ _ => True) (spanFrom start) (spanFrom start') := by
  intro c d h
  have hstop := h.stop
  unfold spanFrom
  cases hc : c.stop <;> cases hd : d.stop <;> rw [hc, hd] at hstop
  · exact .error .pastEnd
  · cases hstop
  · cases hstop
  · exact .ok trivial h

section Lists

variable {α β : Type} {post : α → β → Prop} {item : Parse α} {item' : Parse β}
  {statement statement' : Parse Stmt} {alike : Stmt → Stmt → Prop}

/-- Lists of items are told by kinds if their items are. -/
theorem moreItems_same (h : Same like post item item') (rounds : Nat) :
    Same like (List.Forall₂ post) (moreItems item rounds) (moreItems item' rounds) := by
  induction rounds with
  | zero => exact fun c d halike => .ok .nil halike
  | succ rounds ih =>
      intro c d halike
      unfold moreItems
      rw [isSymbol_congr halike.peek]
      split
      · refine (h _ _ halike.next).bind fun first first' c d hfirst halike => ?_
        refine (ih _ _ halike).bind fun others others' c d hothers halike => ?_
        exact .ok (.cons hfirst hothers) halike
      · exact .ok .nil halike

theorem parenthesised_same (h : Same like post item item') :
    Same like (List.Forall₂ post) (parenthesised item) (parenthesised item') := by
  intro c d halike
  refine (symbol_same .leftParen _ _ halike).bind fun _ _ c d _ halike => ?_
  dsimp only
  rw [isSymbol_congr halike.peek]
  split
  · exact .ok .nil halike.next
  · refine (h _ _ halike).bind fun first first' c d hfirst halike => ?_
    dsimp only
    rw [halike.length_eq]
    refine (moreItems_same h _ _ _ halike).bind fun others others' c d hothers halike => ?_
    refine (symbol_same .rightParen _ _ halike).bind fun _ _ c d _ halike => ?_
    exact .ok (.cons hfirst hothers) halike

theorem statementsUntil_same {ends : Token → Bool}
    (hends : ∀ token token' : Token, token'.kind = token.kind → ends token' = ends token)
    (h : Same like alike statement statement') (rounds : Nat) :
    Same like (List.Forall₂ alike) (statementsUntil ends statement rounds)
      (statementsUntil ends statement' rounds) := by
  induction rounds with
  | zero => exact fun c d halike => .error .pastEnd
  | succ rounds ih =>
      intro c d halike
      unfold statementsUntil
      rw [hends _ _ halike.peek]
      split
      · exact .ok .nil halike
      · refine (h _ _ halike).bind fun first first' c d hfirst halike => ?_
        refine (ih _ _ halike).bind fun others others' c d hothers halike => ?_
        exact .ok (.cons hfirst hothers) halike

theorem block_same (h : Same like alike statement statement') :
    Same like (List.Forall₂ alike) (block statement) (block statement') := by
  intro c d halike
  refine (symbol_same .leftBrace _ _ halike).bind fun _ _ c d _ halike => ?_
  dsimp only
  rw [halike.length_eq]
  have hends : ∀ token token' : Token, token'.kind = token.kind →
      (isSymbol .rightBrace token' || token'.kind.isEnd) =
        (isSymbol .rightBrace token || token.kind.isEnd) := by
    intro token token' hkind
    rw [isSymbol_congr hkind, hkind]
  refine (statementsUntil_same hends h _ _ _ halike).bind fun body body' c d hbody halike => ?_
  refine (symbol_same .rightBrace _ _ halike).bind fun _ _ c d _ halike => ?_
  exact .ok hbody halike

end Lists

/-! ## Expressions and statements -/

abbrev ExprAlike : Expr → Expr → Prop := Expr.Alike .text

abbrev StmtAlike : Stmt → Stmt → Prop := Stmt.Alike .text

theorem allAlike_of_exprs {es es' : List Expr} (h : List.Forall₂ ExprAlike es es') :
    Expr.AllAlike .text es es' := by
  induction h with
  | nil => exact .nil
  | cons he _ ih => exact .cons he ih

theorem allAlike_of_stmts {stmts stmts' : List Stmt} (h : List.Forall₂ StmtAlike stmts stmts') :
    Stmt.AllAlike .text stmts stmts' := by
  induction h with
  | nil => exact .nil
  | cons hstmt _ ih => exact .cons hstmt ih

theorem moreOperands_same {operand operand' : Nat → Parse Expr}
    (h : ∀ minimum, Same like ExprAlike (operand minimum) (operand' minimum)) (minimum : Nat)
    (start start' : Token) (rounds : Nat) {left left' : Expr} (hleft : ExprAlike left left') :
    Same like ExprAlike (moreOperands operand minimum start rounds left)
      (moreOperands operand' minimum start' rounds left') := by
  induction rounds generalizing left left' with
  | zero => exact fun c d halike => .ok hleft halike
  | succ rounds ih =>
      intro c d halike
      unfold moreOperands
      rw [operatorOf?_congr halike.peek]
      split
      · split
        · exact .ok hleft halike
        · refine (h _ _ _ halike.next).bind fun right right' c d hright halike => ?_
          refine (spanFrom_same start start' _ _ halike).bind fun _ _ c d _ halike => ?_
          exact ih (.binary trivial hleft hright) _ _ halike
      · exact .ok hleft halike

theorem operands_same {primary primary' : Parse Expr} (h : Same like ExprAlike primary primary')
    (depth minimum : Nat) :
    Same like ExprAlike (operands primary depth minimum) (operands primary' depth minimum) := by
  induction depth generalizing minimum with
  | zero => exact h
  | succ depth ih =>
      intro c d halike
      refine (h _ _ halike).bind fun left left' c₁ d₁ hleft halike => ?_
      dsimp only
      rw [halike.length_eq]
      exact moreOperands_same ih minimum c.peek d.peek _ hleft _ _ halike

theorem signedNumber_same (negative : Bool) :
    Same like ExprAlike (signedNumber negative) (signedNumber negative) := by
  intro c d halike
  unfold signedNumber
  dsimp only
  rw [halike.peekSecond]
  split
  · refine (spanFrom_same _ _ _ _ halike.next.next).bind fun _ _ c d _ halike => ?_
    exact .ok (.number trivial rfl) halike
  · exact .error (.unexpected halike.next.here)

section Forms

variable {expression expression' : Parse Expr} {statement statement' : Parse Stmt}
  (hexpression : Same like ExprAlike expression expression')
  (hstatement : Same like StmtAlike statement statement')

include hexpression in
theorem grouped_same : Same like ExprAlike (grouped expression) (grouped expression') := by
  intro c d halike
  refine (symbol_same .leftParen _ _ halike).bind fun _ _ c d _ halike => ?_
  refine (hexpression _ _ halike).bind fun inner inner' c d hinner halike => ?_
  refine (symbol_same .rightParen _ _ halike).bind fun _ _ c d _ halike => ?_
  exact .ok hinner halike

include hexpression in
theorem call_same (callee : String) :
    Same like ExprAlike (call expression callee) (call expression' callee) := by
  intro c d halike
  refine (parenthesised_same hexpression _ _ halike.next).bind
    fun arguments arguments' c d harguments halike => ?_
  refine (spanFrom_same _ _ _ _ halike).bind fun _ _ c d _ halike => ?_
  exact .ok (.call trivial (allAlike_of_exprs harguments)) halike

include hstatement in
theorem functionLiteral_same :
    Same like ExprAlike (functionLiteral statement) (functionLiteral statement') := by
  intro c d halike
  refine (parenthesised_same (name_same .parameterName) _ _ halike.next).bind
    fun parameters parameters' c d hparameters halike => ?_
  refine (block_same hstatement _ _ halike).bind fun body body' c d hbody halike => ?_
  refine (spanFrom_same _ _ _ _ halike).bind fun _ _ c d _ halike => ?_
  obtain rfl := List.forall₂_eq_eq_eq ▸ hparameters
  exact .ok (.function trivial (allAlike_of_stmts hbody)) halike

include hexpression hstatement in
theorem primaryOf_same :
    Same like ExprAlike (primaryOf expression statement) (primaryOf expression' statement') := by
  intro c d halike
  unfold primaryOf
  dsimp only
  -- the next token is of the same kind on both sides, and the kind decides on the form
  rw [halike.peek]
  split
  · exact .ok (.number trivial rfl) halike.next
  · exact signedNumber_same true _ _ halike
  · exact signedNumber_same false _ _ halike
  · exact .ok (.boolean trivial) halike.next
  · rw [isSymbol_congr halike.next.peek]
    split
    · exact call_same hexpression _ _ _ halike
    · exact .ok (.variable trivial) halike.next
  · exact functionLiteral_same hstatement _ _ halike
  · exact grouped_same hexpression _ _ halike
  · exact .error (.unexpected halike.here)

include hexpression in
theorem finish_same (start start' : Token) {make : Option Span → Expr → Stmt}
    (hmake : ∀ span span' value value', ExprAlike value value' →
      StmtAlike (make span value) (make span' value')) :
    Same like StmtAlike (finish expression start make) (finish expression' start' make) := by
  intro c d halike
  refine (hexpression _ _ halike).bind fun value value' c d hvalue halike => ?_
  refine (symbol_same .semicolon _ _ halike).bind fun _ _ c d _ halike => ?_
  refine (spanFrom_same start start' _ _ halike).bind fun _ _ c d _ halike => ?_
  exact .ok (hmake _ _ _ _ hvalue) halike

include hstatement in
theorem elseBlock_same :
    Same like (List.Forall₂ StmtAlike) (elseBlock statement) (elseBlock statement') := by
  intro c d halike
  unfold elseBlock
  rw [isKeyword_congr halike.peek]
  split
  · exact block_same hstatement _ _ halike.next
  · exact .ok .nil halike

include hexpression hstatement in
theorem statementOf_same :
    Same like StmtAlike (statementOf expression statement)
      (statementOf expression' statement') := by
  intro c d halike
  have hdiscard : SameResult like StmtAlike (finish expression c.peek .discard c)
      (finish expression' d.peek .discard d) :=
    finish_same hexpression _ _ (fun _ _ _ _ h => .discard trivial h) _ _ halike
  unfold statementOf
  dsimp only
  rw [halike.peek]
  split
  · refine (name_same .identifier _ _ halike.next).bind fun x x' c₁ d₁ hname halike => ?_
    obtain rfl := hname
    refine (symbol_same .assign _ _ halike).bind fun _ _ c₂ d₂ _ halike => ?_
    exact finish_same hexpression _ _ (fun _ _ _ _ h => .declare trivial h) _ _ halike
  · refine (grouped_same hexpression _ _ halike.next).bind fun test test' c₁ d₁ htest halike => ?_
    refine (block_same hstatement _ _ halike).bind fun thenPart thenPart' c₂ d₂ hthen halike => ?_
    refine (elseBlock_same hstatement _ _ halike).bind
      fun elsePart elsePart' c₃ d₃ helse halike => ?_
    refine (spanFrom_same _ _ _ _ halike).bind fun _ _ c₄ d₄ _ halike => ?_
    exact .ok (.branch trivial htest (allAlike_of_stmts hthen) (allAlike_of_stmts helse)) halike
  · refine (grouped_same hexpression _ _ halike.next).bind fun test test' c₁ d₁ htest halike => ?_
    refine (block_same hstatement _ _ halike).bind fun body body' c₂ d₂ hbody halike => ?_
    refine (spanFrom_same _ _ _ _ halike).bind fun _ _ c₃ d₃ _ halike => ?_
    exact .ok (.loop trivial htest (allAlike_of_stmts hbody)) halike
  · refine (grouped_same hexpression _ _ halike.next).bind fun e e' c₁ d₁ he halike => ?_
    refine (symbol_same .semicolon _ _ halike).bind fun _ _ c₂ d₂ _ halike => ?_
    refine (spanFrom_same _ _ _ _ halike).bind fun _ _ c₃ d₃ _ halike => ?_
    exact .ok (.print trivial he) halike
  · exact finish_same hexpression _ _ (fun _ _ _ _ h => .give trivial h) _ _ halike.next
  · rw [isSymbol_congr halike.peekSecond]
    split
    · exact finish_same hexpression _ _ (fun _ _ _ _ h => .assign trivial h) _ _ halike.next.next
    · exact hdiscard
  · exact hdiscard

end Forms

/-- At every limit, expressions and statements are told by kinds. -/
theorem expression_statement_same (limit : Nat) :
    Same like ExprAlike (expression limit) (expression limit) ∧
      Same like StmtAlike (statement limit) (statement limit) := by
  induction limit with
  | zero => exact ⟨fun _ _ _ => .error .tooDeep, fun _ _ _ => .error .tooDeep⟩
  | succ limit ih =>
      obtain ⟨hexpression, hstatement⟩ := ih
      have hprimary := primaryOf_same hexpression hstatement
      exact ⟨operands_same hprimary 7 0, statementOf_same hexpression hstatement⟩

/-- Programs are told by the kinds of their tokens. -/
theorem program_same (limit : Nat) :
    Same like (List.Forall₂ StmtAlike) (program limit) (program limit) := by
  intro c d halike
  have hends : ∀ token token' : Token, token'.kind = token.kind →
      token'.kind.isEnd = token.kind.isEnd := by
    intro token token' hkind
    rw [hkind]
  unfold program
  rw [halike.length_eq]
  exact statementsUntil_same hends (expression_statement_same limit).2 _ _ _ halike

theorem singleExpression_same (limit : Nat) :
    Same like ExprAlike (singleExpression limit) (singleExpression limit) := by
  intro c d halike
  have hexpression : Same like ExprAlike (expression limit) (expression limit) :=
    (expression_statement_same limit).1
  refine (hexpression _ _ halike).bind fun value value' c d hvalue halike => ?_
  dsimp only
  rw [isSymbol_congr halike.peek]
  have hafter : ∀ {c d : Cursor}, c.Alike like d → SameResult like ExprAlike
      (if c.peek.kind.isEnd then .ok (value, c)
        else .error (.error ⟨.notOneExpression, c.peek.span, none⟩))
      (if d.peek.kind.isEnd then .ok (value', d)
        else .error (.error ⟨.notOneExpression, d.peek.span, none⟩)) := by
    intro c d halike
    rw [halike.peek]
    split
    · exact .ok hvalue halike
    · exact .error .notOneExpression
  split
  · exact hafter halike.next
  · exact hafter halike

/-- How parsing tokens that pass for each other ends: in failures for the same reason, or with
results that are related. -/
inductive SameEnd {α β : Type} (like : TokenLikeness) (post : α → β → Prop) :
    Except ParseFailure α → Except ParseFailure β → Prop where
  | ok {a b} : post a b → SameEnd like post (.ok a) (.ok b)
  | error {failure failure'} : FailsAlike like failure failure' →
      SameEnd like post (.error failure) (.error failure')

section Whole

variable {α β : Type} {post : α → β → Prop} {parser : Parse α} {parser' : Parse β}
  {tokens tokens' : List Token}

theorem alike_getLast? (h : List.Forall₂ like.alike tokens tokens') :
    Option.Rel like.alike tokens.getLast? tokens'.getLast? := by
  induction h with
  | nil => exact .none
  | @cons token token' rest rest' hfirst hrest ih =>
      cases hrest with
      | nil => exact .some hfirst
      | cons => simpa only [List.getLast?_cons_cons] using ih

/-- Tokens of the same kinds end in trees that are alike, or in the same failure. -/
theorem parse_sameEnd (h : Same like post parser parser')
    (htokens : List.Forall₂ like.alike tokens tokens') :
    SameEnd like post (parse parser tokens) (parse parser' tokens') := by
  have hlast := alike_getLast? htokens
  unfold parse Cursor.ofTokens?
  generalize tokens.getLast? = final, tokens'.getLast? = final' at hlast
  cases hlast with
  | none => exact .error .pastEnd
  | @some last last' hfinal =>
      have hresult := h ⟨tokens, last, none⟩ ⟨tokens', last', none⟩ ⟨htokens, hfinal, rfl⟩
      simp only [Option.map_some]
      generalize parser ⟨tokens, last, none⟩ = x, parser' ⟨tokens', last', none⟩ = y at hresult
      cases hresult with
      | ok hpost _ => exact .ok hpost
      | error hfails => exact .error hfails

/-- Tokens of the same kinds are parsed alike. -/
theorem parse_same (h : Same .kinds post parser parser')
    (hkinds : tokens'.map (·.kind) = tokens.map (·.kind)) {a : α}
    (hparse : parse parser tokens = .ok a) : ∃ b, parse parser' tokens' = .ok b ∧ post a b := by
  have htokens : List.Forall₂ TokenLikeness.kinds.alike tokens tokens' :=
    Token.forall₂_iff_map_eq.mpr hkinds
  have hend := parse_sameEnd h htokens
  rw [hparse] at hend
  generalize parse parser' tokens' = result at hend ⊢
  cases hend with
  | ok hpost => exact ⟨_, rfl, hpost⟩

end Whole

end Parser

end Treewalk
