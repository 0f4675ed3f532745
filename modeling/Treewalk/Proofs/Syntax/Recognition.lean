import Treewalk.Proofs.Syntax.Acceptance

/-! # What is derived is parsed

The parser looks at one token, and in one place at two, to choose among the forms of expressions and
statements. The tokens of a derivation begin in a way that makes it choose the same form, and it
reads all of them if what follows cannot belong to them. A limit as large as the number of tokens is
large enough.
-/

namespace Treewalk

/-- Whether an expression can begin with a token of this kind. -/
def Token.Kind.startsExpression : Token.Kind → Bool
  | .number _ => true
  | .boolean _ => true
  | .identifier _ => true
  | .keyword .function => true
  | .symbol .plus => true
  | .symbol .minus => true
  | .symbol .leftParen => true
  | _ => false

/-- Whether a statement can begin with a token of this kind. -/
def Token.Kind.startsStatement : Token.Kind → Bool
  | .keyword .else => false
  | .keyword _ => true
  | kind => kind.startsExpression

/-- Whatever starts an expression starts a statement. -/
theorem Token.Kind.startsStatement_of_startsExpression {kind : Token.Kind}
    (h : kind.startsExpression = true) : kind.startsStatement = true := by
  cases kind with
  | keyword word => cases word <;> first | rfl | cases h
  | _ => exact h

namespace Grammar

/-- Tokens that begin like an expression. The second of them is no equals sign. -/
def Starts (tokens : List Token) : Prop :=
  ∃ token rest, tokens = token :: rest ∧ token.kind.startsExpression = true ∧
    ∀ second, rest.head? = some second → second.kind ≠ .symbol .assign

/-- What starts as an expression does so whatever follows, but for an assignment sign. -/
theorem Starts.append {tokens rest : List Token} (h : Starts tokens)
    (hrest : ∀ second, rest.head? = some second → second.kind ≠ .symbol .assign) :
    Starts (tokens ++ rest) := by
  obtain ⟨token, others, rfl, hkind, hsecond⟩ := h
  refine ⟨token, others ++ rest, rfl, hkind, fun second hhead => ?_⟩
  cases others with
  | nil => exact hrest second hhead
  | cons next others => exact hsecond second hhead

theorem Starts.of_pair {token next : Token} {rest : List Token}
    (hkind : token.kind.startsExpression = true) (hnext : next.kind ≠ .symbol .assign) :
    Starts (token :: next :: rest) := by
  refine ⟨token, next :: rest, rfl, hkind, fun second hhead => ?_⟩
  cases hhead
  exact hnext

theorem Starts.of_one {token : Token} (hkind : token.kind.startsExpression = true) :
    Starts [token] :=
  ⟨token, [], rfl, hkind, fun _ hhead => nomatch hhead⟩

theorem Parenthesised.head {α : Type} {item : List Token → α → Prop} {tokens : List Token}
    {xs : List α} (h : Parenthesised item tokens xs) :
    ∃ left rest, tokens = left :: rest ∧ left.kind = .symbol .leftParen := by
  cases h with
  | empty hleft _ => exact ⟨_, _, rfl, hleft⟩
  | items hleft _ _ => exact ⟨_, _, rfl, hleft⟩

theorem Binds.ne_assign {level : Nat} {sign : Symbol} {operator : Operator}
    (h : Binds level sign operator) : sign ≠ .assign := by
  cases h <;> decide

mutual

/-- A primary starts as an expression, and is not mistaken for an assignment. -/
theorem Primary.starts {tokens : List Token} {e : Expr} (h : Primary tokens e) :
    Starts tokens := by
  match h with
  | .number hkind => exact .of_one (by rw [hkind]; rfl)
  | .plus hsign hkind => exact .of_pair (by rw [hsign]; rfl) (by rw [hkind]; exact nofun)
  | .minus hsign hkind => exact .of_pair (by rw [hsign]; rfl) (by rw [hkind]; exact nofun)
  | .boolean hkind => exact .of_one (by rw [hkind]; rfl)
  | .variable hkind => exact .of_one (by rw [hkind]; rfl)
  | .call htext hkind harguments =>
      obtain ⟨left, rest, rfl, hleft⟩ := harguments.head
      rw [htext]
      exact .of_pair (by rw [hkind]; rfl) (by rw [hleft]; simp)
  | .function htext hkind hparameters _ =>
      obtain ⟨left, rest, rfl, hleft⟩ := hparameters.head
      rw [htext]
      exact .of_pair (by rw [hkind]; rfl) (by rw [hleft]; simp)
  | .group hleft he _ =>
      obtain ⟨token, rest, rfl, hkind, _⟩ := he.starts
      refine .of_pair (by rw [hleft]; rfl) fun hassign => ?_
      rw [hassign] at hkind
      cases hkind

theorem Operands.starts {level : Nat} {tokens : List Token} {e : Expr}
    (h : Operands level tokens e) : Starts tokens := by
  match h with
  | .primary h => exact h.starts
  | .tighter h => exact h.starts
  | .binary htext hleft hkind hbinds _ =>
      rw [htext]
      refine hleft.starts.append fun second hhead => ?_
      cases hhead
      rw [hkind]
      exact fun heq => hbinds.ne_assign (Token.Kind.symbol.inj heq)

end

/-- The first token of a statement shows that it is one. -/
theorem Statement.starts {tokens : List Token} {stmt : Stmt} (h : Statement tokens stmt) :
    ∃ token rest, tokens = token :: rest ∧ token.kind.startsStatement = true := by
  cases h with
  | declare htext hword => exact ⟨_, _, htext, by rw [hword]; rfl⟩
  | assign htext hname => exact ⟨_, _, htext, by rw [hname]; rfl⟩
  | branch htext hword => exact ⟨_, _, htext, by rw [hword]; rfl⟩
  | branchElse htext hword => exact ⟨_, _, htext, by rw [hword]; rfl⟩
  | loop htext hword => exact ⟨_, _, htext, by rw [hword]; rfl⟩
  | print htext hword => exact ⟨_, _, htext, by rw [hword]; rfl⟩
  | give htext hword => exact ⟨_, _, htext, by rw [hword]; rfl⟩
  | discard htext he _ =>
      obtain ⟨token, rest, rfl, hkind, _⟩ := he.starts
      exact ⟨token, _, htext, Token.Kind.startsStatement_of_startsExpression hkind⟩

end Grammar

namespace Parser

open Grammar

/-- No call goes on with the next token. -/
def NotCalled (c : Cursor) : Prop := isSymbol .leftParen c.peek = false

/-- Neither a call nor an operator of a level or tighter goes on with the next token. -/
structure Loose (minimum : Nat) (c : Cursor) : Prop where
  notCalled : NotCalled c
  stops : Stops minimum c

/-- No branch goes on with the next token. -/
def NoElse (c : Cursor) : Prop := isKeyword .else c.peek = false

/-- What is loose for an operator is loose for those that bind tighter. -/
theorem Loose.mono {minimum other : Nat} {c : Cursor} (hle : minimum ≤ other)
    (h : Loose minimum c) : Loose other c :=
  ⟨h.notCalled, fun level operator hop => Nat.lt_of_lt_of_le (h.stops level operator hop) hle⟩

/-- A symbol that is no operator, and opens no call, is loose for all. -/
theorem loose_of_symbol {sign : Symbol} {c : Cursor} (hkind : c.peek.kind = .symbol sign)
    (hcall : sign ≠ .leftParen) (hoperator : operator? sign = none) : Loose 0 c := by
  refine ⟨?_, fun level operator hop => ?_⟩
  · unfold NotCalled isSymbol
    rw [hkind]
    exact decide_eq_false hcall
  · unfold operatorOf? at hop
    simp only [hkind, hoperator] at hop
    cases hop

theorem loose_of_comma (c : Cursor) (h : isSymbol .comma c.peek = true) : Loose 0 c :=
  loose_of_symbol (isSymbol_iff.mp h) (by decide) rfl

theorem loose_of_rightParen (c : Cursor) (h : isSymbol .rightParen c.peek = true) : Loose 0 c :=
  loose_of_symbol (isSymbol_iff.mp h) (by decide) rfl

/-- An operator is loose for operands that bind tighter than it does. -/
theorem loose_of_operator {level : Nat} {sign : Symbol} {operator : Operator} {c : Cursor}
    (hkind : c.peek.kind = .symbol sign) (hbinds : Binds level sign operator) :
    Loose (level + 1) c := by
  have hoperator := operatorOf?_eq_some.mpr ⟨sign, hkind, hbinds⟩
  refine ⟨?_, fun other _ hother => ?_⟩
  · unfold NotCalled isSymbol
    rw [hkind]
    cases hbinds <;> rfl
  · cases hoperator.symm.trans hother
    exact Nat.lt_succ_self _

/-- The loop over operands ends where no operator goes on. -/
theorem moreOperands_of_stops {operand : Nat → Parse Expr} {minimum : Nat} {start : Token}
    {e : Expr} {c : Cursor} (h : Stops minimum c) (rounds : Nat) :
    moreOperands operand minimum start rounds e c = .ok (e, c) := by
  cases rounds with
  | zero => rfl
  | succ rounds =>
      unfold moreOperands
      split
      next level operator hoperator =>
        simp only [h level operator hoperator, ↓reduceIte]
      next => rfl

/-- Once the tokens of some operands are read, the loop goes on with the expression made of them. -/
def Climbs (primary : Parse Expr) (level : Nat) (tokens : List Token) (e : Expr) : Prop :=
  ∀ c c' depth minimum, Reads c tokens c' → Loose (level + 1) c' → minimum ≤ level →
    7 ≤ depth + level →
    ∃ rounds, c'.rest.length < rounds ∧
      operands primary (depth + 1) minimum c =
        moreOperands (operands primary depth) minimum c.peek rounds e c'

namespace Climbs

variable {primary : Parse Expr} {level : Nat} {tokens left right : List Token} {a b e : Expr}

/-- A primary is found by climbing from the tightest level. -/
theorem of_primary (h : Finds primary NotCalled tokens e) : Climbs primary 7 tokens e := by
  intro c c' depth minimum hread hloose _ _
  refine ⟨c'.rest.length + 1, Nat.lt_succ_self _, ?_⟩
  rw [operands, h c c' hread hloose.notCalled]
  rfl

/-- What is found at a tighter level is found at the next looser one. -/
theorem tighter (h : Climbs primary (level + 1) tokens e) : Climbs primary level tokens e := by
  intro c c' depth minimum hread hloose hminimum hdepth
  exact h c c' depth minimum hread (hloose.mono (Nat.le_succ _)) (by omega) (by omega)

/-- Operands of a level are found where nothing goes on at that level. -/
theorem operands_eq (h : Climbs primary level tokens e) {minimum depth : Nat} {c c' : Cursor}
    (hread : Reads c tokens c') (hloose : Loose minimum c') (hminimum : minimum ≤ level)
    (hdepth : 7 ≤ depth + level) : operands primary (depth + 1) minimum c = .ok (e, c') := by
  obtain ⟨rounds, _, hrun⟩ := h c c' depth minimum hread
    (hloose.mono (Nat.le_succ_of_le hminimum)) hminimum hdepth
  rw [hrun, moreOperands_of_stops hloose.stops]

/-- The right operand is found one level tighter, so that operators of one level associate to the
left. -/
theorem binary {token : Token} {sign : Symbol} {operator : Operator}
    (hleft : Climbs primary level left a) (hkind : token.kind = .symbol sign)
    (hbinds : Binds level sign operator) (hright : Climbs primary (level + 1) right b) :
    Climbs primary level (left ++ token :: right)
      (.binary (spanOf (left ++ token :: right)) operator a b) := by
  intro c c' depth minimum hread hloose hminimum hdepth
  obtain ⟨c₁, hleftRead, htail⟩ := hread.split
  obtain ⟨hpeek, _, hrightRead⟩ := htail.uncons
  rw [← hpeek] at hkind
  have hoperator := operatorOf?_eq_some.mpr ⟨sign, hkind, hbinds⟩
  -- The loop has come to the operator with the left operand in hand and rounds to spare.
  obtain ⟨rounds, hrounds, hrun⟩ :=
    hleft c c₁ depth minimum hleftRead (loose_of_operator hkind hbinds) hminimum hdepth
  obtain ⟨depth, rfl⟩ : ∃ d, depth = d + 1 := ⟨depth - 1, by have := hbinds.level_le; omega⟩
  obtain ⟨rounds, rfl⟩ : ∃ k, rounds = k + 1 := ⟨rounds - 1, by omega⟩
  have hlength := htail.length_eq
  rw [List.length_cons] at hlength
  refine ⟨rounds, by omega, ?_⟩
  rw [hrun, moreOperands]
  simp only [hoperator, Nat.not_lt.mpr hminimum, ↓reduceIte]
  rw [hright.operands_eq hrightRead hloose (Nat.le_refl _) (by omega), ok_bind]
  simp only [hread.spanFrom_eq (by simp), ok_bind]

/-- Climbing from the loosest level finds an expression. -/
theorem expressionOf (h : Climbs primary 1 tokens e) :
    Finds (expressionOf primary) (Loose 0) tokens e :=
  fun _ _ hread hloose => h.operands_eq hread hloose (by decide) (by decide)

end Climbs

section Forms

variable {expression : Parse Expr} {statement : Parse Stmt} {token : Token} {tokens : List Token}

/-- A signed numeral is found as one number. -/
theorem signedNumber_eq (negative : Bool) {sign : Token} {value : Float} {c c' : Cursor}
    (hkind : token.kind = .number value) (hread : Reads c [sign, token] c') :
    signedNumber negative c =
      .ok (.number (spanOf [sign, token]) (if negative then -value else value), c') := by
  obtain ⟨hsign, hend, hrest⟩ := hread.uncons
  obtain ⟨hpeek, _, hnil⟩ := hrest.uncons
  have hsecond : c.peekSecond = token := by
    rw [← Cursor.peek_next (by rw [hsign]; exact hend), hpeek]
  have hspan := hread.spanFrom_eq (by simp)
  rw [hnil.eq_of_nil] at hspan ⊢
  unfold signedNumber
  simp only [hsecond, hkind, hspan, ok_bind]

theorem call_eq {name : String} {arguments : List Expr} {c c' : Cursor}
    (harguments : Finds (parenthesised expression) (fun _ => True) tokens arguments)
    (hread : Reads c (token :: tokens) c') :
    call expression name c =
      .ok (.call (spanOf (token :: tokens)) (.text name) arguments, c') := by
  unfold call
  rw [harguments _ _ hread.uncons.2.2 trivial, ok_bind]
  simp only [hread.spanFrom_eq (by simp), ok_bind]

theorem functionLiteral_eq {block : List Token} {parameters : List String} {body : List Stmt}
    {c c' : Cursor}
    (hparameters :
      Finds (parenthesised (name .parameterName)) (fun _ => True) tokens parameters)
    (hbody : Finds (Parser.block statement) (fun _ => True) block body)
    (hread : Reads c (token :: (tokens ++ block)) c') :
    functionLiteral statement c =
      .ok (.function (spanOf (token :: (tokens ++ block))) (parameters.map Datum.text) body,
        c') := by
  obtain ⟨c₁, htokens, hblock⟩ := hread.uncons.2.2.split
  unfold functionLiteral
  rw [hparameters _ _ htokens trivial, ok_bind]
  dsimp only
  rw [hbody _ _ hblock trivial, ok_bind]
  simp only [hread.spanFrom_eq (by simp), ok_bind]

theorem grouped_eq {left right : Token} {e : Expr} {c c' : Cursor}
    (he : Finds expression (Loose 0) tokens e) (hleft : left.kind = .symbol .leftParen)
    (hright : right.kind = .symbol .rightParen)
    (hread : Reads c (left :: (tokens ++ [right])) c') : grouped expression c = .ok (e, c') := by
  obtain ⟨c₁, hleftRead, htail⟩ := hread.split_cons
  obtain ⟨c₂, htokens, hrightRead⟩ := htail.split
  have hloose : Loose 0 c₂ := by
    refine loose_of_rightParen c₂ ?_
    rw [hrightRead.uncons.1, isSymbol_iff, hright]
  unfold grouped
  rw [symbol_eq hleft hleftRead, ok_bind]
  dsimp only
  rw [he _ _ htokens hloose, ok_bind]
  simp only [symbol_eq hright hrightRead, ok_bind]

/-- The rest of a statement that ends with an expression and a semicolon. -/
theorem finish_eq {make : Option Span → Expr → Stmt} {before : List Token} {semicolon : Token}
    {e : Expr} {c₀ c c' : Cursor} (he : Finds expression (Loose 0) tokens e)
    (hsemicolon : semicolon.kind = .symbol .semicolon) (hbefore : Reads c₀ before c)
    (hread : Reads c (tokens ++ [semicolon]) c') :
    finish expression c₀.peek make c =
      .ok (make (spanOf (before ++ (tokens ++ [semicolon]))) e, c') := by
  obtain ⟨c₁, htokens, hlast⟩ := hread.split
  have hkind : c₁.peek.kind = .symbol .semicolon := by rw [hlast.uncons.1, hsemicolon]
  have hloose : Loose 0 c₁ := loose_of_symbol hkind (by decide) rfl
  have hspan := (hbefore.append hread).spanFrom_eq (by simp)
  unfold finish
  rw [he _ _ htokens hloose, ok_bind]
  dsimp only
  rw [symbol_eq hsemicolon hlast, ok_bind]
  simp only [hspan, ok_bind]

theorem statementOf_declare {word x sign semicolon : Token} {name : String} {e : Expr}
    (he : Finds expression (Loose 0) tokens e) (hword : word.kind = .keyword .let)
    (hname : x.kind = .identifier name) (hsign : sign.kind = .symbol .assign)
    (hsemicolon : semicolon.kind = .symbol .semicolon) :
    Finds (statementOf expression statement) NoElse
      (word :: x :: sign :: (tokens ++ [semicolon]))
      (.declare (spanOf (word :: x :: sign :: (tokens ++ [semicolon]))) (.text name) e) := by
  intro c c' hread _
  obtain ⟨rfl, hwordRead, htail⟩ := hread.step
  obtain ⟨c₁, hnameRead, htail⟩ := htail.split_cons
  obtain ⟨c₂, hsignRead, htail⟩ := htail.split_cons
  have hbefore := hwordRead.append (hnameRead.append hsignRead)
  unfold statementOf
  simp only [hword]
  rw [name_eq hname hnameRead, ok_bind]
  dsimp only
  rw [symbol_eq hsign hsignRead, ok_bind]
  exact finish_eq he hsemicolon hbefore htail

/-- Tokens of an assignment are found as one, told by the second token. -/
theorem statementOf_assign {x sign semicolon : Token} {name : String} {e : Expr}
    (he : Finds expression (Loose 0) tokens e) (hname : x.kind = .identifier name)
    (hsign : sign.kind = .symbol .assign) (hsemicolon : semicolon.kind = .symbol .semicolon) :
    Finds (statementOf expression statement) NoElse (x :: sign :: (tokens ++ [semicolon]))
      (.assign (spanOf (x :: sign :: (tokens ++ [semicolon]))) (.text name) e) := by
  intro c c' hread _
  obtain ⟨rfl, hnameRead, htail⟩ := hread.step
  obtain ⟨rfl, hsignRead, htail⟩ := htail.step
  have hsecond : isSymbol .assign c.peekSecond = true := by
    rw [← Cursor.peek_next (by rw [hname]; rfl), isSymbol_iff, hsign]
  unfold statementOf
  simp only [hname, hsecond, ↓reduceIte]
  exact finish_eq he hsemicolon (hnameRead.append hsignRead) htail

theorem statementOf_give {word semicolon : Token} {e : Expr}
    (he : Finds expression (Loose 0) tokens e) (hword : word.kind = .keyword .return)
    (hsemicolon : semicolon.kind = .symbol .semicolon) :
    Finds (statementOf expression statement) NoElse (word :: (tokens ++ [semicolon]))
      (.give (spanOf (word :: (tokens ++ [semicolon]))) e) := by
  intro c c' hread _
  obtain ⟨rfl, hwordRead, htail⟩ := hread.step
  unfold statementOf
  simp only [hword]
  exact finish_eq he hsemicolon hwordRead htail

/-- An expression that is a statement begins like no other statement. -/
theorem statementOf_discard {semicolon : Token} {e : Expr}
    (he : Finds expression (Loose 0) tokens e) (hstarts : Starts tokens)
    (hsemicolon : semicolon.kind = .symbol .semicolon) :
    Finds (statementOf expression statement) NoElse (tokens ++ [semicolon])
      (.discard (spanOf (tokens ++ [semicolon])) e) := by
  intro c c' hread _
  have hfinish : finish expression c.peek .discard c =
      .ok (.discard (spanOf (tokens ++ [semicolon])) e, c') := finish_eq he hsemicolon .nil hread
  obtain ⟨token, others, rfl, hkind, hsecond⟩ := hstarts
  obtain ⟨rfl, hfirst, htail⟩ := hread.step
  have hassign : isSymbol .assign c.peekSecond = false := by
    rw [← Cursor.peek_next (hfirst.not_isEnd _ List.mem_cons_self), Bool.eq_false_iff]
    intro hassign
    rw [isSymbol_iff] at hassign
    cases others with
    | nil =>
        rw [htail.uncons.1, hsemicolon] at hassign
        cases hassign
    | cons next others =>
        rw [htail.uncons.1] at hassign
        exact hsecond next rfl hassign
  unfold statementOf
  dsimp only
  split
  next hword => rw [hword] at hkind; cases hkind
  next hword => rw [hword] at hkind; cases hkind
  next hword => rw [hword] at hkind; cases hkind
  next hword => rw [hword] at hkind; cases hkind
  next hword => rw [hword] at hkind; cases hkind
  next =>
    simp only [hassign]
    exact hfinish
  next => exact hfinish

theorem statementOf_print {word left right semicolon : Token} {e : Expr}
    (he : Finds expression (Loose 0) tokens e) (hword : word.kind = .keyword .print)
    (hleft : left.kind = .symbol .leftParen) (hright : right.kind = .symbol .rightParen)
    (hsemicolon : semicolon.kind = .symbol .semicolon) :
    Finds (statementOf expression statement) NoElse
      (word :: left :: (tokens ++ [right, semicolon]))
      (.print (spanOf (word :: left :: (tokens ++ [right, semicolon]))) e) := by
  intro c c' hread _
  have hspan := hread.spanFrom_eq (by simp)
  obtain ⟨rfl, _, htail⟩ := hread.step
  rw [show left :: (tokens ++ [right, semicolon]) =
    (left :: (tokens ++ [right])) ++ [semicolon] by simp] at htail
  obtain ⟨c₁, hgroup, hlast⟩ := htail.split
  unfold statementOf
  simp only [hword]
  rw [grouped_eq he hleft hright hgroup, ok_bind]
  dsimp only
  rw [symbol_eq hsemicolon hlast, ok_bind]
  simp only [hspan, ok_bind]

section Blocks

variable {word left right : Token} {block : List Token} {test : Expr} {body : List Stmt}
  (htest : Finds expression (Loose 0) tokens test)
  (hbody : Finds (Parser.block statement) (fun _ => True) block body)
  (hleft : left.kind = .symbol .leftParen) (hright : right.kind = .symbol .rightParen)

include htest hbody hleft hright

theorem statementOf_loop (hword : word.kind = .keyword .while) :
    Finds (statementOf expression statement) NoElse (word :: left :: (tokens ++ right :: block))
      (.loop (spanOf (word :: left :: (tokens ++ right :: block))) test body) := by
  intro c c' hread _
  have hspan := hread.spanFrom_eq (by simp)
  obtain ⟨rfl, _, htail⟩ := hread.step
  rw [show left :: (tokens ++ right :: block) = (left :: (tokens ++ [right])) ++ block by simp]
    at htail
  obtain ⟨c₁, hgroup, hblock⟩ := htail.split
  unfold statementOf
  simp only [hword]
  rw [grouped_eq htest hleft hright hgroup, ok_bind]
  dsimp only
  rw [hbody _ _ hblock trivial, ok_bind]
  simp only [hspan, ok_bind]

/-- Tokens of a branch without an alternative are found as one if no `else` follows. -/
theorem statementOf_branch (hword : word.kind = .keyword .if) :
    Finds (statementOf expression statement) NoElse (word :: left :: (tokens ++ right :: block))
      (.branch (spanOf (word :: left :: (tokens ++ right :: block))) test body []) := by
  intro c c' hread hfollow
  have hspan := hread.spanFrom_eq (by simp)
  obtain ⟨rfl, _, htail⟩ := hread.step
  rw [show left :: (tokens ++ right :: block) = (left :: (tokens ++ [right])) ++ block by simp]
    at htail
  obtain ⟨c₁, hgroup, hblock⟩ := htail.split
  have helse : elseBlock statement c' = .ok ([], c') := by
    unfold elseBlock
    rw [show isKeyword .else c'.peek = false from hfollow]
    rfl
  unfold statementOf
  simp only [hword]
  rw [grouped_eq htest hleft hright hgroup, ok_bind]
  dsimp only
  rw [hbody _ _ hblock trivial, ok_bind]
  dsimp only
  rw [helse, ok_bind]
  simp only [hspan, ok_bind]

theorem statementOf_branchElse {other : Token} {alternative : List Token} {elsePart : List Stmt}
    (helse : Finds (Parser.block statement) (fun _ => True) alternative elsePart)
    (hword : word.kind = .keyword .if) (hother : other.kind = .keyword .else) :
    Finds (statementOf expression statement) NoElse
      (word :: left :: (tokens ++ right :: (block ++ other :: alternative)))
      (.branch (spanOf (word :: left :: (tokens ++ right :: (block ++ other :: alternative)))) test
        body elsePart) := by
  intro c c' hread _
  have hspan := hread.spanFrom_eq (by simp)
  obtain ⟨rfl, _, htail⟩ := hread.step
  rw [show left :: (tokens ++ right :: (block ++ other :: alternative)) =
    (left :: (tokens ++ [right])) ++ (block ++ other :: alternative) by simp] at htail
  obtain ⟨c₁, hgroup, htail⟩ := htail.split
  obtain ⟨c₂, hblock, htail⟩ := htail.split
  obtain ⟨rfl, _, hrest⟩ := htail.step
  have helse : elseBlock statement c₂ = .ok (elsePart, c') := by
    unfold elseBlock
    rw [isKeyword_iff.mpr hother]
    exact helse _ _ hrest trivial
  unfold statementOf
  simp only [hword]
  rw [grouped_eq htest hleft hright hgroup, ok_bind]
  dsimp only
  rw [hbody _ _ hblock trivial, ok_bind]
  dsimp only
  rw [helse, ok_bind]
  simp only [hspan, ok_bind]

end Blocks

end Forms

/-- No expression starts with the end of a list. -/
theorem opens_of_starts {tokens : List Token} (h : Starts tokens) :
    Opens (isSymbol .rightParen) tokens := by
  obtain ⟨token, rest, rfl, hkind, _⟩ := h
  refine ⟨token, rest, rfl, Bool.eq_false_iff.mpr fun hright => ?_⟩
  rw [isSymbol_iff.mp hright] at hkind
  cases hkind

/-- Tokens from which an expression is found in a list of arguments. -/
structure FoundExpression (limit : Nat) (tokens : List Token) (e : Expr) : Prop where
  starts : Starts tokens
  finds : Finds (expression limit) (Loose 0) tokens e

/-- Tokens from which a statement is found among others. -/
structure FoundStatement (limit : Nat) (tokens : List Token) (stmt : Stmt) : Prop where
  starts : ∃ token rest, tokens = token :: rest ∧ token.kind.startsStatement = true
  finds : Finds (statement limit) NoElse tokens stmt

/-- A statement does not start with what closes a list of them. -/
theorem FoundStatement.opens {limit : Nat} {tokens : List Token} {stmt : Stmt}
    {closes : Token → Bool} (hcloses : ∀ token, token.kind.startsStatement = true →
      closes token = false) (h : FoundStatement limit tokens stmt) : Opens closes tokens := by
  obtain ⟨token, rest, rfl, hkind⟩ := h.starts
  exact ⟨token, rest, rfl, hcloses token hkind⟩

/-- No statement starts with `else`, so that one before it is complete. -/
theorem FoundStatement.noElse {limit : Nat} {tokens : List Token} {stmt : Stmt} {c c' : Cursor}
    (h : FoundStatement limit tokens stmt) (hread : Reads c tokens c') : NoElse c := by
  refine (h.opens fun token hkind => Bool.eq_false_iff.mpr fun helse => ?_).peek hread
  rw [isKeyword_iff.mp helse] at hkind
  cases hkind

theorem parameters_find {tokens : List Token} {parameters : List String}
    (h : Parenthesised Parameter tokens parameters) :
    Finds (parenthesised (name .parameterName)) (fun _ => True) tokens parameters := by
  have hfinds : ∀ tokens x, Parameter tokens x →
      Finds (name .parameterName) (fun _ => True) tokens x := by
    rintro _ x ⟨hkind⟩ c c' hread _
    exact name_eq hkind hread
  refine parenthesised_finds hfinds ?_ (fun _ _ => trivial) (fun _ _ => trivial) h
  rintro _ x ⟨hkind⟩
  refine ⟨_, [], rfl, Bool.eq_false_iff.mpr fun hright => ?_⟩
  rw [isSymbol_iff.mp hright] at hkind
  cases hkind

theorem arguments_find {limit : Nat} {tokens : List Token} {arguments : List Expr}
    (h : Parenthesised (FoundExpression limit) tokens arguments) :
    Finds (parenthesised (expression limit)) (fun _ => True) tokens arguments :=
  parenthesised_finds (fun _ _ h => h.finds) (fun _ _ h => opens_of_starts h.starts)
    loose_of_comma loose_of_rightParen h

theorem isEnd_of_startsStatement {token : Token} (h : token.kind.startsStatement = true) :
    token.kind.isEnd = false := by
  cases hkind : token.kind with
  | endOfInput =>
      rw [hkind] at h
      cases h
  | _ => rfl

theorem block_find {limit : Nat} {tokens : List Token} {stmts : List Stmt}
    (h : Braced (FoundStatement limit) tokens stmts) :
    Finds (block (statement limit)) (fun _ => True) tokens stmts := by
  have hopens : ∀ token : Token, token.kind.startsStatement = true →
      (isSymbol .rightBrace token || token.kind.isEnd) = false := by
    intro token hkind
    rw [isEnd_of_startsStatement hkind, Bool.or_false, Bool.eq_false_iff]
    intro hright
    rw [isSymbol_iff.mp hright] at hkind
    cases hkind
  have hbrace : ∀ c : Cursor, isSymbol .rightBrace c.peek = true → NoElse c := by
    intro c hright
    unfold NoElse isKeyword
    rw [isSymbol_iff.mp hright]
  exact block_finds (fun _ _ h => h.finds) (fun _ _ h => h.opens hopens)
    (fun _ _ _ _ h hread => h.noElse hread) hbrace h

end Parser

namespace Grammar

open Treewalk.Parser

section Layers

variable {limit : Nat} {tokens : List Token} {e : Expr}

/-- Primaries are found if the expressions and statements in them are. -/
theorem PrimaryOf.finds (h : PrimaryOf (FoundExpression limit) (FoundStatement limit) tokens e) :
    Finds (primaryOf (expression limit) (statement limit)) NotCalled tokens e := by
  intro c c' hread hcalled
  unfold primaryOf
  match h with
  | .number hkind =>
      obtain ⟨rfl, _, hnil⟩ := hread.step
      obtain rfl := hnil.eq_of_nil
      simp only [hkind]
  | .plus hsign hkind =>
      obtain ⟨rfl, _, _⟩ := hread.step
      simp only [hsign]
      exact signedNumber_eq false hkind hread
  | .minus hsign hkind =>
      obtain ⟨rfl, _, _⟩ := hread.step
      simp only [hsign]
      exact signedNumber_eq true hkind hread
  | .boolean hkind =>
      obtain ⟨rfl, _, hnil⟩ := hread.step
      obtain rfl := hnil.eq_of_nil
      simp only [hkind]
  | .variable hkind =>
      obtain ⟨rfl, _, hnil⟩ := hread.step
      obtain rfl := hnil.eq_of_nil
      simp only [hkind, show isSymbol .leftParen c.next.peek = false from hcalled]
      rfl
  | .call htext hkind harguments =>
      subst htext
      obtain ⟨left, rest, rfl, hleft⟩ := harguments.head
      obtain ⟨rfl, _, htail⟩ := hread.step
      have hopen : isSymbol .leftParen c.next.peek = true := by
        rw [htail.uncons.1, isSymbol_iff, hleft]
      simp only [hkind, hopen]
      exact call_eq (arguments_find harguments) hread
  | .function htext hkind hparameters hbody =>
      subst htext
      obtain ⟨rfl, _, _⟩ := hread.step
      simp only [hkind]
      exact functionLiteral_eq (parameters_find hparameters) (block_find hbody) hread
  | .group hleft he hright =>
      obtain ⟨rfl, _, _⟩ := hread.step
      simp only [hleft]
      exact grouped_eq he.finds hleft hright hread

/-- Operands are found by climbing if primaries are found. -/
theorem OperandsOf.climbs {level : Nat} {derives : List Token → Expr → Prop} {primary : Parse Expr}
    (hprimary : ∀ tokens e, derives tokens e → Finds primary NotCalled tokens e)
    (h : OperandsOf derives level tokens e) : Climbs primary level tokens e := by
  induction h with
  | primary h => exact .of_primary (hprimary _ _ h)
  | tighter _ ih => exact ih.tighter
  | binary htext _ hkind hbinds _ ihleft ihright =>
      subst htext
      exact ihleft.binary hkind hbinds ihright

/-- Expressions made of what is found are found under the next higher limit. -/
theorem ExpressionOf.finds
    (h : ExpressionOf (FoundExpression limit) (FoundStatement limit) tokens e) :
    Finds (expression (limit + 1)) (Loose 0) tokens e :=
  (h.climbs fun _ _ h => h.finds).expressionOf

theorem StatementOf.finds {stmt : Stmt}
    (h : StatementOf (FoundExpression limit) (FoundStatement limit) tokens stmt) :
    Finds (statement (limit + 1)) NoElse tokens stmt := by
  match h with
  | .declare htext hword hname hsign he hsemicolon =>
      subst htext
      exact statementOf_declare he.finds hword hname hsign hsemicolon
  | .assign htext hname hsign he hsemicolon =>
      subst htext
      exact statementOf_assign he.finds hname hsign hsemicolon
  | .branch htext hword hleft htest hright hthen =>
      subst htext
      exact statementOf_branch htest.finds (block_find hthen) hleft hright hword
  | .branchElse htext hword hleft htest hright hthen hother helse =>
      subst htext
      exact statementOf_branchElse htest.finds (block_find hthen) hleft hright
        (block_find helse) hword hother
  | .loop htext hword hleft htest hright hbody =>
      subst htext
      exact statementOf_loop htest.finds (block_find hbody) hleft hright hword
  | .print htext hword hleft he hright hsemicolon =>
      subst htext
      exact statementOf_print he.finds hword hleft hright hsemicolon
  | .give htext hword he hsemicolon =>
      subst htext
      exact statementOf_give he.finds hword hsemicolon
  | .discard htext he hsemicolon =>
      subst htext
      exact statementOf_discard he.finds he.starts hsemicolon

end Layers

end Grammar

namespace Parser

open Grammar

theorem FoundExpression.of_layered {tokens : List Token} {e : Expr} (h : Expression tokens e)
    (hlayered : ∀ limit, tokens.length ≤ limit →
      ExpressionOf (FoundExpression limit) (FoundStatement limit) tokens e)
    {limit : Nat} (hlimit : tokens.length < limit) : FoundExpression limit tokens e := by
  cases limit with
  | zero => exact absurd hlimit (Nat.not_lt_zero _)
  | succ limit => exact ⟨h.starts, ExpressionOf.finds (hlayered limit (Nat.le_of_lt_succ hlimit))⟩

theorem FoundStatement.of_layered {tokens : List Token} {stmt : Stmt} (h : Statement tokens stmt)
    (hlayered : ∀ limit, tokens.length ≤ limit →
      StatementOf (FoundExpression limit) (FoundStatement limit) tokens stmt)
    {limit : Nat} (hlimit : tokens.length < limit) : FoundStatement limit tokens stmt := by
  cases limit with
  | zero => exact absurd hlimit (Nat.not_lt_zero _)
  | succ limit => exact ⟨h.starts, (hlayered limit (Nat.le_of_lt_succ hlimit)).finds⟩

end Parser

namespace Grammar

open Treewalk.Parser

-- The limit bounds the tokens of every part. What is nested is shorter by the tokens around it.
mutual

/-- A primary is made of what is found under a limit as high as the number of its tokens. -/
theorem Primary.layered {tokens : List Token} {e : Expr} (h : Primary tokens e) {limit : Nat}
    (hlimit : tokens.length ≤ limit) :
    PrimaryOf (FoundExpression limit) (FoundStatement limit) tokens e := by
  match h with
  | .number hkind => exact .number hkind
  | .plus hsign hkind => exact .plus hsign hkind
  | .minus hsign hkind => exact .minus hsign hkind
  | .boolean hkind => exact .boolean hkind
  | .variable hkind => exact .variable hkind
  | .call htext hkind harguments =>
      rw [htext, List.length_cons] at hlimit
      exact .call htext hkind (harguments.found (Nat.le_of_succ_le hlimit))
  | .function htext hkind hparameters hbody =>
      rw [htext, List.length_cons, List.length_append] at hlimit
      exact .function htext hkind hparameters (hbody.found (by omega))
  | .group hleft he hright =>
      rw [List.length_cons, List.length_append] at hlimit
      have hfound : FoundExpression limit _ _ :=
        .of_layered he (fun _ hl => he.layered hl) (by omega)
      exact .group hleft hfound hright

theorem Operands.layered {level : Nat} {tokens : List Token} {e : Expr}
    (h : Operands level tokens e) {limit : Nat} (hlimit : tokens.length ≤ limit) :
    OperandsOf (PrimaryOf (FoundExpression limit) (FoundStatement limit)) level tokens e := by
  match h with
  | .primary h => exact .primary (h.layered hlimit)
  | .tighter h => exact .tighter (h.layered hlimit)
  | .binary htext hleft hkind hbinds hright =>
      rw [htext, List.length_append, List.length_cons] at hlimit
      exact .binary htext (hleft.layered (by omega)) hkind hbinds (hright.layered (by omega))

theorem Separated.found {tokens : List Token} {es : List Expr}
    (h : Separated (Operands 1) tokens es) {limit : Nat} (hlimit : tokens.length < limit) :
    Separated (FoundExpression limit) tokens es := by
  match h with
  | .last he => exact .last (.of_layered he (fun _ hl => he.layered hl) hlimit)
  | .cons he hcomma hrest =>
      rw [List.length_append, List.length_cons] at hlimit
      have hfound : FoundExpression limit _ _ :=
        .of_layered he (fun _ hl => he.layered hl) (by omega)
      exact .cons hfound hcomma (hrest.found (by omega))

theorem Parenthesised.found {tokens : List Token} {es : List Expr}
    (h : Parenthesised (Operands 1) tokens es) {limit : Nat} (hlimit : tokens.length ≤ limit) :
    Parenthesised (FoundExpression limit) tokens es := by
  match h with
  | .empty hleft hright => exact .empty hleft hright
  | .items hleft hitems hright =>
      rw [List.length_cons, List.length_append] at hlimit
      exact .items hleft (hitems.found (by omega)) hright

theorem Repeated.found {tokens : List Token} {stmts : List Stmt}
    (h : Repeated Statement tokens stmts) {limit : Nat} (hlimit : tokens.length < limit) :
    Repeated (FoundStatement limit) tokens stmts := by
  match h with
  | .nil => exact .nil
  | .cons hstmt hrest =>
      rw [List.length_append] at hlimit
      have hfound : FoundStatement limit _ _ :=
        .of_layered hstmt (fun _ hl => hstmt.layered hl) (by omega)
      exact .cons hfound (hrest.found (by omega))

theorem Braced.found {tokens : List Token} {stmts : List Stmt} (h : Braced Statement tokens stmts)
    {limit : Nat} (hlimit : tokens.length ≤ limit) :
    Braced (FoundStatement limit) tokens stmts := by
  match h with
  | .mk hleft hstmts hright =>
      rw [List.length_cons, List.length_append] at hlimit
      exact .mk hleft (hstmts.found (by omega)) hright

theorem Statement.layered {tokens : List Token} {stmt : Stmt} (h : Statement tokens stmt)
    {limit : Nat} (hlimit : tokens.length ≤ limit) :
    StatementOf (FoundExpression limit) (FoundStatement limit) tokens stmt := by
  match h with
  | .declare htext hword hname hsign he hsemicolon =>
      simp only [htext, List.length_cons, List.length_append] at hlimit
      have hfound : FoundExpression limit _ _ :=
        .of_layered he (fun _ hl => he.layered hl) (by omega)
      exact .declare htext hword hname hsign hfound hsemicolon
  | .assign htext hname hsign he hsemicolon =>
      simp only [htext, List.length_cons, List.length_append] at hlimit
      have hfound : FoundExpression limit _ _ :=
        .of_layered he (fun _ hl => he.layered hl) (by omega)
      exact .assign htext hname hsign hfound hsemicolon
  | .branch htext hword hleft htest hright hthen =>
      simp only [htext, List.length_cons, List.length_append] at hlimit
      have hfound : FoundExpression limit _ _ :=
        .of_layered htest (fun _ hl => htest.layered hl) (by omega)
      exact .branch htext hword hleft hfound hright (hthen.found (by omega))
  | .branchElse htext hword hleft htest hright hthen hother helse =>
      simp only [htext, List.length_cons, List.length_append] at hlimit
      have hfound : FoundExpression limit _ _ :=
        .of_layered htest (fun _ hl => htest.layered hl) (by omega)
      exact .branchElse htext hword hleft hfound hright (hthen.found (by omega)) hother
        (helse.found (by omega))
  | .loop htext hword hleft htest hright hbody =>
      simp only [htext, List.length_cons, List.length_append] at hlimit
      have hfound : FoundExpression limit _ _ :=
        .of_layered htest (fun _ hl => htest.layered hl) (by omega)
      exact .loop htext hword hleft hfound hright (hbody.found (by omega))
  | .print htext hword hleft he hright hsemicolon =>
      simp only [htext, List.length_cons, List.length_append] at hlimit
      have hfound : FoundExpression limit _ _ :=
        .of_layered he (fun _ hl => he.layered hl) (by omega)
      exact .print htext hword hleft hfound hright hsemicolon
  | .give htext hword he hsemicolon =>
      simp only [htext, List.length_cons, List.length_append] at hlimit
      have hfound : FoundExpression limit _ _ :=
        .of_layered he (fun _ hl => he.layered hl) (by omega)
      exact .give htext hword hfound hsemicolon
  | .discard htext he hsemicolon =>
      simp only [htext, List.length_cons, List.length_append] at hlimit
      have hfound : FoundExpression limit _ _ :=
        .of_layered he (fun _ hl => he.layered hl) (by omega)
      exact .discard htext hfound hsemicolon

end

/-- Expressions of the grammar are found under a limit above the number of their tokens. -/
theorem Operands.found {tokens : List Token} {e : Expr} (h : Operands 1 tokens e) {limit : Nat}
    (hlimit : tokens.length < limit) : FoundExpression limit tokens e :=
  .of_layered h (fun _ hl => h.layered hl) hlimit

end Grammar

end Treewalk
