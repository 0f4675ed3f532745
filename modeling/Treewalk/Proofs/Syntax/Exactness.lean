import Treewalk.Proofs.Syntax.Recognition

/-! # The parser and the grammar

The parser yields a program exactly from the tokens that the grammar derives it from. The limit on
nesting only matters where it is reached: a larger one changes nothing but failures of that kind.
-/

namespace Treewalk

namespace Parser

open Grammar

variable {α β : Type}

/-- Two results are the same unless the first ran into the limit. -/
def Agrees (x y : Except ParseFailure α) : Prop := x ≠ .error .tooDeep → y = x

theorem Agrees.refl (x : Except ParseFailure α) : Agrees x x := fun _ => rfl

/-- Steps one after the other agree if the first do, and the second do on the same results. -/
theorem Agrees.bind {x y : Except ParseFailure α} {f g : α → Except ParseFailure β}
    (hx : Agrees x y) (hf : ∀ a, Agrees (f a) (g a)) : Agrees (x >>= f) (y >>= g) := by
  intro h
  cases x with
  | error failure =>
      have hfailure : (.error failure : Except ParseFailure α) ≠ .error .tooDeep := by
        rintro ⟨⟩
        exact h rfl
      rw [hx hfailure]
      rfl
  | ok a =>
      rw [hx nofun]
      exact hf a h

theorem Agrees.ite {p : Prop} [Decidable p] {x x' y y' : Except ParseFailure α}
    (hx : Agrees x x') (hy : Agrees y y') :
    Agrees (if p then x else y) (if p then x' else y') := by
  split
  · exact hx
  · exact hy

/-- A parser goes as far as another one, and further only where that reaches the limit. -/
def Extends (longer shorter : Parse α) : Prop := ∀ c, Agrees (shorter c) (longer c)

section Extends

variable {item item' : Parse α} {expression expression' primary primary' : Parse Expr}
  {statement statement' : Parse Stmt}

/-- A list of items goes further if its items do. -/
theorem moreItems_extends (h : Extends item' item) (rounds : Nat) :
    Extends (moreItems item' rounds) (moreItems item rounds) := by
  induction rounds with
  | zero => exact fun _ => .refl _
  | succ rounds ih =>
      intro c
      refine .ite (.bind (h _) fun _ => ?_) (.refl _)
      exact .bind (ih _) fun _ => .refl _

theorem parenthesised_extends (h : Extends item' item) :
    Extends (parenthesised item') (parenthesised item) := by
  intro c
  refine .bind (.refl _) fun _ => .ite (.refl _) ?_
  refine .bind (h _) fun _ => ?_
  exact .bind (moreItems_extends h _ _) fun _ => .refl _

theorem statementsUntil_extends (h : Extends statement' statement) (ends : Token → Bool)
    (rounds : Nat) :
    Extends (statementsUntil ends statement' rounds) (statementsUntil ends statement rounds) := by
  induction rounds with
  | zero => exact fun _ => .refl _
  | succ rounds ih =>
      intro c
      refine .ite (.refl _) (.bind (h _) fun _ => ?_)
      exact .bind (ih _) fun _ => .refl _

theorem block_extends (h : Extends statement' statement) :
    Extends (block statement') (block statement) := by
  intro c
  refine .bind (.refl _) fun _ => ?_
  exact .bind (statementsUntil_extends h _ _ _) fun _ => .refl _

theorem moreOperands_extends {operand operand' : Nat → Parse Expr}
    (h : ∀ minimum, Extends (operand' minimum) (operand minimum)) (minimum : Nat) (start : Token)
    (rounds : Nat) (left : Expr) :
    Extends (moreOperands operand' minimum start rounds left)
      (moreOperands operand minimum start rounds left) := by
  induction rounds generalizing left with
  | zero => exact fun _ => .refl _
  | succ rounds ih =>
      intro c
      unfold moreOperands
      cases operatorOf? c.peek with
      | none => exact .refl _
      | some found =>
          refine .ite (.refl _) (.bind (h _ _) fun _ => ?_)
          exact .bind (.refl _) fun _ => ih _ _

theorem operands_extends (h : Extends primary' primary) (depth minimum : Nat) :
    Extends (operands primary' depth minimum) (operands primary depth minimum) := by
  induction depth generalizing minimum with
  | zero => exact h
  | succ depth ih =>
      intro c
      exact .bind (h c) fun _ => moreOperands_extends ih _ _ _ _ _

theorem grouped_extends (h : Extends expression' expression) :
    Extends (grouped expression') (grouped expression) := by
  intro c
  refine .bind (.refl _) fun _ => ?_
  exact .bind (h _) fun _ => .refl _

theorem primaryOf_extends (hexpression : Extends expression' expression)
    (hstatement : Extends statement' statement) :
    Extends (primaryOf expression' statement') (primaryOf expression statement) := by
  intro c
  unfold primaryOf
  dsimp only
  split
  · exact .refl _
  · exact .refl _
  · exact .refl _
  · exact .refl _
  · refine .ite ?_ (.refl _)
    exact .bind (parenthesised_extends hexpression _) fun _ => .refl _
  · refine .bind (.refl _) fun _ => ?_
    exact .bind (block_extends hstatement _) fun _ => .refl _
  · exact grouped_extends hexpression c
  · exact .refl _

theorem finish_extends (h : Extends expression' expression) (start : Token)
    (make : Option Span → Expr → Stmt) :
    Extends (finish expression' start make) (finish expression start make) :=
  fun c => .bind (h c) fun _ => .refl _

theorem statementOf_extends (hexpression : Extends expression' expression)
    (hstatement : Extends statement' statement) :
    Extends (statementOf expression' statement') (statementOf expression statement) := by
  intro c
  unfold statementOf
  dsimp only
  split
  · refine .bind (.refl _) fun _ => .bind (.refl _) fun _ => ?_
    exact finish_extends hexpression _ _ _
  · refine .bind (grouped_extends hexpression _) fun _ => ?_
    refine .bind (block_extends hstatement _) fun _ => ?_
    exact .bind (.ite (block_extends hstatement _) (.refl _)) fun _ => .refl _
  · refine .bind (grouped_extends hexpression _) fun _ => ?_
    exact .bind (block_extends hstatement _) fun _ => .refl _
  · exact .bind (grouped_extends hexpression _) fun _ => .refl _
  · exact finish_extends hexpression _ _ _
  · exact .ite (finish_extends hexpression _ _ _) (finish_extends hexpression _ _ _)
  · exact finish_extends hexpression _ _ _

end Extends

/-- A larger limit extends what is parsed. -/
theorem expression_statement_extend {limit larger : Nat} (h : limit ≤ larger) :
    Extends (expression larger) (expression limit) ∧
      Extends (statement larger) (statement limit) := by
  induction limit generalizing larger with
  | zero => exact ⟨fun _ hlimit => absurd rfl hlimit, fun _ hlimit => absurd rfl hlimit⟩
  | succ limit ih =>
      cases larger with
      | zero => exact absurd h (Nat.not_succ_le_zero limit)
      | succ larger =>
          obtain ⟨hexpression, hstatement⟩ := ih (Nat.le_of_succ_le_succ h)
          have hprimary := primaryOf_extends hexpression hstatement
          exact ⟨operands_extends hprimary 7 0, statementOf_extends hexpression hstatement⟩

/-- A higher limit on nesting goes further with programs. -/
theorem program_extends {limit larger : Nat} (h : limit ≤ larger) :
    Extends (program larger) (program limit) :=
  fun _ => statementsUntil_extends (expression_statement_extend h).2 _ _ _

theorem singleExpression_extends {limit larger : Nat} (h : limit ≤ larger) :
    Extends (singleExpression larger) (singleExpression limit) :=
  fun _ => .bind ((expression_statement_extend h).1 _) fun _ => .refl _

/-- The place in front of some tokens and one that ends the input. -/
def Cursor.ofBody (body : List Token) (last : Token) : Cursor := ⟨body ++ [last], last, none⟩

theorem parse_eq (parser : Parse α) (body : List Token) (last : Token) :
    parse parser (body ++ [last]) = (parser (Cursor.ofBody body last)).map (·.1) := by
  simp [parse, Cursor.ofTokens?, Cursor.ofBody]

section Input

variable {body : List Token} {last : Token}

theorem ended_ofBody (hlast : last.kind.isEnd = true) : (Cursor.ofBody body last).Ended :=
  ⟨last, by simp [Cursor.ofBody], hlast⟩

/-- All tokens before the last can be read. -/
theorem reads_body (hbody : ∀ token ∈ body, token.kind.isEnd = false) (final : Token)
    (stop : Option Location) :
    ∃ c, Reads ⟨body ++ [last], final, stop⟩ body c ∧ c.peek = last := by
  induction body generalizing stop with
  | nil => exact ⟨_, .nil, rfl⟩
  | cons token body ih =>
      obtain ⟨hend, hrest⟩ := List.forall_mem_cons.mp hbody
      obtain ⟨c, hread, hpeek⟩ := ih hrest (some token.span.stop)
      exact ⟨c, .cons hend hread, hpeek⟩

/-- What is read up to the end of input are all tokens before the last. -/
theorem eq_body (hbody : ∀ token ∈ body, token.kind.isEnd = false) {final : Token}
    {stop : Option Location} {tokens : List Token} {c : Cursor} (hc : c.Ended)
    (hread : Reads ⟨body ++ [last], final, stop⟩ tokens c) (hpeek : c.peek.kind.isEnd = true) :
    tokens = body := by
  induction body generalizing stop tokens with
  | nil =>
      cases hread with
      | nil => rfl
      | cons hend hrest =>
          obtain ⟨_, hnone, _⟩ := hc
          cases hrest
          cases hnone
  | cons token body ih =>
      obtain ⟨hend, hrest⟩ := List.forall_mem_cons.mp hbody
      cases hread with
      | nil => exact absurd (hend.symm.trans hpeek) (by decide)
      | cons _ hread => exact congrArg _ (ih hrest hread)

/-- A parser that is right at large limits is right at all limits that it does not reach. -/
theorem parse_iff {parser : Nat → Parse α} {derives : α → Prop}
    (hextends : ∀ limit larger, limit ≤ larger → Extends (parser larger) (parser limit))
    (haccepts : ∀ limit a c, parser limit (Cursor.ofBody body last) = .ok (a, c) → derives a)
    (hfinds : ∀ limit a, body.length < limit → derives a →
      ∃ c, parser limit (Cursor.ofBody body last) = .ok (a, c))
    {limit : Nat} (hlimit : parse (parser limit) (body ++ [last]) ≠ .error .tooDeep ∨
      body.length < limit) (a : α) :
    parse (parser limit) (body ++ [last]) = .ok a ↔ derives a := by
  rw [parse_eq] at hlimit ⊢
  constructor
  · intro h
    cases hrun : parser limit (Cursor.ofBody body last) with
    | error failure =>
        rw [hrun] at h
        cases h
    | ok result =>
        rw [hrun] at h
        cases h
        exact haccepts limit _ _ hrun
  · intro ha
    rcases hlimit with hlimit | hlimit
    · have hreached : parser limit (Cursor.ofBody body last) ≠ .error .tooDeep := by
        intro htooDeep
        rw [htooDeep] at hlimit
        exact hlimit rfl
      obtain ⟨c, hrun⟩ := hfinds (limit + body.length + 1) a (by omega) ha
      have hle : limit ≤ limit + body.length + 1 := by omega
      rw [← hextends limit _ hle _ hreached, hrun]
      rfl
    · obtain ⟨c, hrun⟩ := hfinds limit a hlimit ha
      rw [hrun]
      rfl

/-- Nothing goes on with an expression at the end of the input. -/
theorem loose_of_end {c : Cursor} (h : c.peek.kind.isEnd = true) : Loose 0 c := by
  have hkind : c.peek.kind = .endOfInput := by
    cases hkind : c.peek.kind <;> rw [hkind] at h <;> first | rfl | cases h
  refine ⟨?_, fun level operator hop => ?_⟩
  · unfold NotCalled isSymbol
    rw [hkind]
  · unfold operatorOf? at hop
    simp only [hkind] at hop
    cases hop

theorem noElse_of_end {c : Cursor} (h : c.peek.kind.isEnd = true) : NoElse c := by
  unfold NoElse
  rw [Bool.eq_false_iff]
  intro helse
  rw [isKeyword_iff.mp helse] at h
  cases h

variable (hbody : ∀ token ∈ body, token.kind.isEnd = false) (hlast : last.kind.isEnd = true)

include hbody hlast

/-- The tokens of a body are read up to the end of the input. -/
theorem reads_ofBody : ∃ c, Reads (Cursor.ofBody body last) body c ∧ c.peek.kind.isEnd = true := by
  obtain ⟨c, hread, hpeek⟩ := reads_body hbody last none
  exact ⟨c, hread, by rw [hpeek, hlast]⟩

/-- What is known of the statements that are parsed is known of those of a program. -/
theorem program_repeats {limit : Nat} {isStatement : List Token → Stmt → Prop}
    (hstatement : Accepts (statement limit) isStatement) {stmts : Treewalk.Program} {c : Cursor}
    (h : program limit (Cursor.ofBody body last) = .ok (stmts, c)) :
    Repeated isStatement body stmts := by
  have hended : (Cursor.ofBody body last).Ended := ended_ofBody hlast
  obtain ⟨tokens, hread, hstmts, hends⟩ := statementsUntil_accepts hstatement _ _ hended h
  rw [eq_body hbody (hended.of_reads hread) hread hends] at hstmts
  exact hstmts

/-- A body that is read is a program of the grammar. -/
theorem program_accepts {limit : Nat} {stmts : Treewalk.Program} {c : Cursor}
    (h : program limit (Cursor.ofBody body last) = .ok (stmts, c)) :
    Grammar.Program body stmts :=
  program_repeats hbody hlast (expression_statement_accept limit).2 h

theorem program_of_found {limit : Nat} {stmts : Treewalk.Program}
    (h : Repeated (FoundStatement limit) body stmts) :
    ∃ c, program limit (Cursor.ofBody body last) = .ok (stmts, c) := by
  obtain ⟨c, hread, hends⟩ := reads_ofBody hbody hlast
  refine ⟨c, statementsUntil_eq (fun _ _ h => h.finds) (fun _ _ h => ?_)
    (fun _ _ _ _ h hread => h.noElse hread) h hread hends (noElse_of_end hends)
    (Nat.lt_add_of_pos_right Nat.two_pos)⟩
  exact h.opens fun _ => isEnd_of_startsStatement

/-- Every program of the grammar is read under a limit above the number of its tokens. -/
theorem program_finds {limit : Nat} {stmts : Treewalk.Program} (hlimit : body.length < limit)
    (h : Grammar.Program body stmts) :
    ∃ c, program limit (Cursor.ofBody body last) = .ok (stmts, c) :=
  program_of_found hbody hlast (Repeated.found h hlimit)

theorem singleExpression_accepts {limit : Nat} {e : Expr} {c : Cursor}
    (h : singleExpression limit (Cursor.ofBody body last) = .ok (e, c)) :
    SingleExpression body e := by
  have hended : (Cursor.ofBody body last).Ended := ended_ofBody hlast
  unfold singleExpression at h
  obtain ⟨⟨value, c₁⟩, hvalue, h⟩ := bind_ok h
  obtain ⟨tokens, hread, he⟩ := (expression_statement_accept limit).1 _ _ _ hended hvalue
  have hended₁ := hended.of_reads hread
  dsimp only at h
  by_cases hsemicolon : isSymbol .semicolon c₁.peek = true
  · simp only [hsemicolon, ↓reduceIte] at h
    split at h
    next hends =>
      cases h
      have hkind := isSymbol_iff.mp hsemicolon
      have hstep := hended₁.reads_next (by rw [hkind]; rfl)
      rw [← eq_body hbody (hended₁.of_reads hstep) (hread.append hstep) hends]
      exact .terminated he hkind
    · cases h
  · simp only [hsemicolon, Bool.false_eq_true, ↓reduceIte] at h
    split at h
    next hends =>
      cases h
      rw [← eq_body hbody hended₁ hread hends]
      exact .bare he
    · cases h

theorem singleExpression_of_found {limit : Nat} {e : Expr} (h : FoundExpression limit body e) :
    ∃ c, singleExpression limit (Cursor.ofBody body last) = .ok (e, c) := by
  obtain ⟨c, hread, hends⟩ := reads_ofBody hbody hlast
  refine ⟨c, ?_⟩
  have hnone : isSymbol .semicolon c.peek = false := by
    rw [Bool.eq_false_iff]
    intro hsemicolon
    rw [isSymbol_iff.mp hsemicolon] at hends
    cases hends
  unfold singleExpression
  rw [h.finds _ _ hread (loose_of_end hends), ok_bind]
  simp only [hnone, hends, Bool.false_eq_true, ↓reduceIte]

theorem singleExpression_finds {limit : Nat} {e : Expr} (hlimit : body.length < limit)
    (h : SingleExpression body e) :
    ∃ c, singleExpression limit (Cursor.ofBody body last) = .ok (e, c) := by
  cases h with
  | bare he => exact singleExpression_of_found hbody hlast (he.found hlimit)
  | @terminated tokens semicolon e he hkind =>
      obtain ⟨c, hread, hends⟩ := reads_ofBody hbody hlast
      refine ⟨c, ?_⟩
      rw [List.length_append] at hlimit
      have hfound : FoundExpression limit tokens e := he.found (by omega)
      obtain ⟨c₁, htokens, hsemicolon⟩ := hread.split
      obtain ⟨rfl, _, hnil⟩ := hsemicolon.step
      obtain rfl := hnil.eq_of_nil
      unfold singleExpression
      rw [hfound.finds _ _ htokens (loose_of_symbol hkind (by decide) rfl), ok_bind]
      simp only [isSymbol_iff.mpr hkind, hends, ↓reduceIte]

end Input

/-- The parser accepts exactly the grammar and builds exactly its trees, spans included. For tokens
that end with their only end of input, it yields a program if and only if the grammar derives it
from the tokens before, and likewise for an expression that stands alone. This holds at every limit
that is not reached, and at every limit larger than the number of tokens. No tokens make up two
programs or two expressions. -/
theorem parse_iff_derives (body : List Token) (last : Token)
    (hbody : ∀ token ∈ body, token.kind ≠ .endOfInput) (hlast : last.kind = .endOfInput) :
    (∀ limit, parse (program limit) (body ++ [last]) ≠ .error .tooDeep ∨ body.length < limit →
      ∀ stmts, parse (program limit) (body ++ [last]) = .ok stmts ↔ Grammar.Program body stmts) ∧
    (∀ limit, parse (singleExpression limit) (body ++ [last]) ≠ .error .tooDeep ∨
        body.length < limit →
      ∀ e, parse (singleExpression limit) (body ++ [last]) = .ok e ↔ SingleExpression body e) ∧
    (∀ stmts stmts', Grammar.Program body stmts → Grammar.Program body stmts' → stmts = stmts') ∧
    ∀ e e', SingleExpression body e → SingleExpression body e' → e = e' := by
  have hinner : ∀ token ∈ body, token.kind.isEnd = false := by
    intro token hmem
    cases hkind : token.kind with
    | endOfInput => exact absurd hkind (hbody token hmem)
    | _ => rfl
  have hend : last.kind.isEnd = true := by rw [hlast]; rfl
  have hprogram := @parse_iff _ body last program (Grammar.Program body)
    (fun _ _ => program_extends) (fun _ _ _ => program_accepts hinner hend)
    (fun _ _ => program_finds hinner hend)
  have hexpression := @parse_iff _ body last singleExpression (SingleExpression body)
    (fun _ _ => singleExpression_extends) (fun _ _ _ => singleExpression_accepts hinner hend)
    (fun _ _ => singleExpression_finds hinner hend)
  have hlarge : body.length < body.length + 1 := Nat.lt_succ_self _
  refine ⟨fun limit hlimit => hprogram hlimit, fun limit hlimit => hexpression hlimit,
    fun stmts stmts' h h' => ?_, fun e e' h h' => ?_⟩
  · have hparse := (hprogram (.inr hlarge) stmts).mpr h
    rw [(hprogram (.inr hlarge) stmts').mpr h'] at hparse
    cases hparse
    rfl
  · have hparse := (hexpression (.inr hlarge) e).mpr h
    rw [(hexpression (.inr hlarge) e').mpr h'] at hparse
    cases hparse
    rfl

/-- In `a && b || c && d;` the tighter operators are further inside, on both sides. -/
theorem parse_iff_derives_levels :
    let token (kind : Token.Kind) : Token := ⟨kind, "", default⟩
    let name (x : String) : Token := token (.identifier x)
    let body := [name "a", token (.symbol .and), name "b", token (.symbol .or), name "c",
      token (.symbol .and), name "d", token (.symbol .semicolon)]
    let value (x : String) : Expr := .variable (some default) (.text x)
    let both (a b : Expr) : Expr := .binary (some default) .and a b
    (∀ t ∈ body, t.kind ≠ .endOfInput) ∧
      Grammar.Program body [.discard (some default) (.binary (some default) .or
        (both (value "a") (value "b")) (both (value "c") (value "d")))] := by
  intro token name body value both
  have hbody : ∀ t ∈ body, t.kind ≠ .endOfInput := by simp [body, name, token]
  have hexact := parse_iff_derives body (token .endOfInput) hbody rfl
  exact ⟨hbody, (hexact.1 20 (.inr (by decide)) _).mp rfl⟩

end Parser

end Treewalk
