import Treewalk.Proofs.Number.Doubles
import Treewalk.Proofs.Program.Encoding
import Treewalk.Proofs.Syntax.EarliestError
import Treewalk.Proofs.Syntax.Kinds

/-! # Programs written out

A program is rendered as tokens with as few parentheses as its tree needs: an operand is put in
parentheses if its own operator is looser, and a right operand also if its operator is on the same
level. The parser reads the program back, and it does so as well if there are more parentheses.
-/

namespace Treewalk

/-- The level of an operator. Operators of a higher level bind tighter. -/
def Operator.level : Operator → Nat
  | or => 1
  | and => 2
  | strictEqual => 3
  | less | greater => 4
  | add | subtract => 5
  | multiply | divide => 6

def Operator.symbol : Operator → Symbol
  | add => .plus
  | subtract => .minus
  | multiply => .star
  | divide => .slash
  | and => .and
  | or => .or
  | greater => .greater
  | less => .less
  | strictEqual => .strictEqual

/-- The level of the operator of an expression. What has no operator binds tighter than all that
have one. -/
def Expr.level : Expr → Nat
  | .binary _ operator _ _ => operator.level
  | _ => 7

namespace Rendering

def inParens (kinds : List Token.Kind) : List Token.Kind :=
  .symbol .leftParen :: (kinds ++ [.symbol .rightParen])

def inBraces (kinds : List Token.Kind) : List Token.Kind :=
  .symbol .leftBrace :: (kinds ++ [.symbol .rightBrace])

def separated (items : List (List Token.Kind)) : List Token.Kind :=
  [Token.Kind.symbol .comma].intercalate items

def parameters (names : List String) : List Token.Kind :=
  inParens (separated (names.map fun name => [.identifier name]))

/-- A number. The sign of a negative one is a token of its own. -/
def number (x : Float) : List Token.Kind :=
  if Number.signBit x then [.symbol .minus, .number x.abs] else [.number x]

/-- An operand, in parentheses if it needs them. -/
def operand (needed : Bool) (kinds : List Token.Kind) : List Token.Kind :=
  if needed then inParens kinds else kinds

/-- An alternative. An empty one is left out. -/
def alternative (elsePart : List Stmt) (kinds : List Token.Kind) : List Token.Kind :=
  if elsePart.isEmpty then [] else .keyword .else :: inBraces kinds

end Rendering

open Rendering

/-- Whether the left operand of an operator needs parentheses. -/
def Expr.needsParensLeft (operator : Operator) (e : Expr) : Bool := e.level < operator.level

/-- Whether the right operand of an operator needs parentheses. -/
def Expr.needsParensRight (operator : Operator) (e : Expr) : Bool := e.level ≤ operator.level

mutual

/-- The tokens of an expression, with the parentheses it needs. -/
def Expr.rendered : Expr → List Token.Kind
  | .number _ x => Rendering.number x
  | .boolean _ b => [.boolean b]
  | .variable _ name => [.identifier name.plain]
  | .binary _ operator left right =>
    operand (left.needsParensLeft operator) left.rendered ++
      .symbol operator.symbol :: operand (right.needsParensRight operator) right.rendered
  | .function _ names body =>
    .keyword .function ::
      (parameters (names.map (·.plain)) ++ inBraces (Stmt.allRendered body).flatten)
  | .call _ callee arguments =>
    .identifier callee.plain :: inParens (separated (Expr.allRendered arguments))
  | .malformed _ => []

def Expr.allRendered : List Expr → List (List Token.Kind)
  | [] => []
  | e :: rest => e.rendered :: Expr.allRendered rest

def Stmt.rendered : Stmt → List Token.Kind
  | .declare _ name value =>
    .keyword .let :: .identifier name.plain :: .symbol .assign ::
      (value.rendered ++ [.symbol .semicolon])
  | .assign _ name value =>
    .identifier name.plain :: .symbol .assign :: (value.rendered ++ [.symbol .semicolon])
  | .branch _ test thenPart elsePart =>
    .keyword .if :: (inParens test.rendered ++ (inBraces (Stmt.allRendered thenPart).flatten ++
      alternative elsePart (Stmt.allRendered elsePart).flatten))
  | .loop _ test body =>
    .keyword .while :: (inParens test.rendered ++ inBraces (Stmt.allRendered body).flatten)
  | .print _ value => .keyword .print :: (inParens value.rendered ++ [.symbol .semicolon])
  | .discard _ value => value.rendered ++ [.symbol .semicolon]
  | .give _ value => .keyword .return :: (value.rendered ++ [.symbol .semicolon])
  | .malformed _ => []

def Stmt.allRendered : List Stmt → List (List Token.Kind)
  | [] => []
  | stmt :: rest => stmt.rendered :: Stmt.allRendered rest

end

/-- The tokens of a program, with the parentheses it needs. -/
def Program.rendered (program : Program) : List Token.Kind := (Stmt.allRendered program).flatten

mutual

/-- The ways to write an expression: with the parentheses that it needs, and with any number of
others around it and around the expressions in it. -/
inductive Expr.Written : Expr → List Token.Kind → Prop where
  | number {span x} : Expr.Written (.number span x) (Rendering.number x)
  | boolean {span b} : Expr.Written (.boolean span b) [.boolean b]
  | variable {span name} : Expr.Written (.variable span (.text name)) [.identifier name]
  | binary {span operator left right kinds kinds'} :
      Expr.WrittenOperand (left.needsParensLeft operator) left kinds →
      Expr.WrittenOperand (right.needsParensRight operator) right kinds' →
      Expr.Written (.binary span operator left right) (kinds ++ .symbol operator.symbol :: kinds')
  | function {span} {names : List String} {body items} : Stmt.AllWritten body items →
      Expr.Written (.function span (names.map Datum.text) body)
        (.keyword .function :: (parameters names ++ inBraces items.flatten))
  | call {span name arguments items} : Expr.AllWritten arguments items →
      Expr.Written (.call span (.text name) arguments)
        (.identifier name :: inParens (separated items))
  | grouped {e kinds} : Expr.Written e kinds → Expr.Written e (inParens kinds)

/-- The ways to write an operand, which may need parentheses. -/
inductive Expr.WrittenOperand : Bool → Expr → List Token.Kind → Prop where
  | bare {e kinds} : Expr.Written e kinds → Expr.WrittenOperand false e kinds
  | grouped {e kinds} : Expr.Written e kinds → Expr.WrittenOperand true e (inParens kinds)

inductive Expr.AllWritten : List Expr → List (List Token.Kind) → Prop where
  | nil : Expr.AllWritten [] []
  | cons {e rest kinds items} : Expr.Written e kinds → Expr.AllWritten rest items →
      Expr.AllWritten (e :: rest) (kinds :: items)

inductive Stmt.Written : Stmt → List Token.Kind → Prop where
  | declare {span name value kinds} : Expr.Written value kinds →
      Stmt.Written (.declare span (.text name) value)
        (.keyword .let :: .identifier name :: .symbol .assign :: (kinds ++ [.symbol .semicolon]))
  | assign {span name value kinds} : Expr.Written value kinds →
      Stmt.Written (.assign span (.text name) value)
        (.identifier name :: .symbol .assign :: (kinds ++ [.symbol .semicolon]))
  | branch {span test thenPart kinds items} : Expr.Written test kinds →
      Stmt.AllWritten thenPart items →
      Stmt.Written (.branch span test thenPart [])
        (.keyword .if :: (inParens kinds ++ inBraces items.flatten))
  | branchElse {span test thenPart elsePart kinds items items'} : Expr.Written test kinds →
      Stmt.AllWritten thenPart items → Stmt.AllWritten elsePart items' →
      Stmt.Written (.branch span test thenPart elsePart)
        (.keyword .if :: (inParens kinds ++ (inBraces items.flatten ++
          .keyword .else :: inBraces items'.flatten)))
  | loop {span test body kinds items} : Expr.Written test kinds → Stmt.AllWritten body items →
      Stmt.Written (.loop span test body)
        (.keyword .while :: (inParens kinds ++ inBraces items.flatten))
  | print {span value kinds} : Expr.Written value kinds →
      Stmt.Written (.print span value)
        (.keyword .print :: (inParens kinds ++ [.symbol .semicolon]))
  | discard {span value kinds} : Expr.Written value kinds →
      Stmt.Written (.discard span value) (kinds ++ [.symbol .semicolon])
  | give {span value kinds} : Expr.Written value kinds →
      Stmt.Written (.give span value)
        (.keyword .return :: (kinds ++ [.symbol .semicolon]))

inductive Stmt.AllWritten : List Stmt → List (List Token.Kind) → Prop where
  | nil : Stmt.AllWritten [] []
  | cons {stmt rest kinds items} : Stmt.Written stmt kinds → Stmt.AllWritten rest items →
      Stmt.AllWritten (stmt :: rest) (kinds :: items)

end

def Program.Written (program : Program) (kinds : List Token.Kind) : Prop :=
  ∃ items, Stmt.AllWritten program items ∧ items.flatten = kinds

/-! ## A rendering is one of the ways to write a program -/

section Rendered

variable {number : Float → Prop}

theorem writtenOperand_operand {e : Expr} {kinds : List Token.Kind} (h : Expr.Written e kinds)
    (needed : Bool) : Expr.WrittenOperand needed e (operand needed kinds) := by
  cases needed with
  | true => exact .grouped h
  | false => exact .bare h

theorem exists_text {name : Name} (h : name.IsText) : ∃ text, name = .text text := by
  cases name with
  | text s => exact ⟨s, rfl⟩
  | _ => cases h

theorem exists_texts {names : List Name} (h : ∀ name ∈ names, name.IsText) :
    ∃ texts : List String, names = texts.map Datum.text := by
  induction names with
  | nil => exact ⟨[], rfl⟩
  | cons name rest ih =>
      obtain ⟨hname, hrest⟩ := List.forall_mem_cons.mp h
      obtain ⟨text, rfl⟩ := exists_text hname
      obtain ⟨texts, rfl⟩ := ih hrest
      exact ⟨text :: texts, rfl⟩

theorem map_plain_text (texts : List String) : (texts.map Datum.text).map (·.plain) = texts := by
  simp [Function.comp_def, Datum.plain]

mutual

/-- A built expression is written by its rendering. -/
theorem Expr.written_rendered : (e : Expr) → e.Built number → Expr.Written e e.rendered
  | .number _ _, _ => .number
  | .boolean _ _, _ => .boolean
  | .variable _ name, h => by
      obtain ⟨text, rfl⟩ := exists_text h
      exact .variable
  | .binary _ operator left right, h => .binary
      (writtenOperand_operand (left.written_rendered h.1) _)
      (writtenOperand_operand (right.written_rendered h.2) _)
  | .function _ names body, h => by
      have hbody := Stmt.allWritten_rendered body h.2
      obtain ⟨texts, rfl⟩ := exists_texts h.1
      rw [Expr.rendered, map_plain_text]
      exact .function hbody
  | .call _ callee arguments, h => by
      have harguments := Expr.allWritten_rendered arguments h.2
      obtain ⟨text, rfl⟩ := exists_text h.1
      exact .call harguments
  | .malformed _, h => h.elim

theorem Expr.allWritten_rendered : (es : List Expr) → Expr.AllBuilt number es →
    Expr.AllWritten es (Expr.allRendered es)
  | [], _ => .nil
  | e :: rest, h => .cons (e.written_rendered h.1) (Expr.allWritten_rendered rest h.2)

theorem Stmt.written_rendered : (stmt : Stmt) → stmt.Built number → Stmt.Written stmt stmt.rendered
  | .declare _ name value, h => by
      have hvalue := value.written_rendered h.2
      obtain ⟨text, rfl⟩ := exists_text h.1
      exact .declare hvalue
  | .assign _ name value, h => by
      have hvalue := value.written_rendered h.2
      obtain ⟨text, rfl⟩ := exists_text h.1
      exact .assign hvalue
  | .branch _ test thenPart elsePart, h => by
      have htest := test.written_rendered h.1
      have hthen := Stmt.allWritten_rendered thenPart h.2.1
      have helse := Stmt.allWritten_rendered elsePart h.2.2
      cases elsePart with
      | nil =>
          rw [Stmt.rendered, alternative, List.isEmpty_nil, if_pos rfl, List.append_nil]
          exact .branch htest hthen
      | cons stmt rest => exact .branchElse htest hthen helse
  | .loop _ test body, h =>
    .loop (test.written_rendered h.1) (Stmt.allWritten_rendered body h.2)
  | .print _ value, h => .print (value.written_rendered h)
  | .discard _ value, h => .discard (value.written_rendered h)
  | .give _ value, h => .give (value.written_rendered h)
  | .malformed _, h => h.elim

theorem Stmt.allWritten_rendered : (stmts : List Stmt) → Stmt.AllBuilt number stmts →
    Stmt.AllWritten stmts (Stmt.allRendered stmts)
  | [], _ => .nil
  | stmt :: rest, h => .cons (stmt.written_rendered h.1) (Stmt.allWritten_rendered rest h.2)

end

end Rendered

/-! ## What is written is read -/

namespace Rendering

open Grammar

variable {α : Type} {item : List Token → α → Prop} {like : α → α → Prop}
  {kinds : List Token.Kind} {tokens : List Token} {kind : Token.Kind}

/-- Tokens of some kinds make up something, up to what passes for it. -/
def Reads (item : List Token → α → Prop) (like : α → α → Prop) (kinds : List Token.Kind)
    (x : α) : Prop :=
  ∀ tokens : List Token, tokens.map (·.kind) = kinds → ∃ x', item tokens x' ∧ like x x'

theorem exists_ended (h : tokens.map (·.kind) = kinds ++ [kind]) :
    ∃ inner last, tokens = inner ++ [last] ∧ inner.map (·.kind) = kinds ∧ last.kind = kind := by
  obtain ⟨inner, rest, rfl, hinner, hrest⟩ := List.map_eq_append_iff.mp h
  obtain ⟨last, rfl, hlast⟩ := List.map_eq_singleton_iff.mp hrest
  exact ⟨inner, last, rfl, hinner, hlast⟩

theorem exists_enclosed {closing : Token.Kind}
    (h : tokens.map (·.kind) = kind :: (kinds ++ [closing])) :
    ∃ left inner right, tokens = left :: (inner ++ [right]) ∧ left.kind = kind ∧
      inner.map (·.kind) = kinds ∧ right.kind = closing := by
  obtain ⟨left, rest, rfl, hleft, hrest⟩ := List.map_eq_cons_iff.mp h
  obtain ⟨inner, right, rfl, hinner, hright⟩ := exists_ended hrest
  exact ⟨left, inner, right, rfl, hleft, hinner, hright⟩

/-- A word, a condition in parentheses, and more. -/
theorem exists_conditional {more : List Token.Kind}
    (h : tokens.map (·.kind) = kind :: (inParens kinds ++ more)) :
    ∃ word left test right rest, tokens = word :: left :: (test ++ right :: rest) ∧
      word.kind = kind ∧ left.kind = .symbol .leftParen ∧ test.map (·.kind) = kinds ∧
      right.kind = .symbol .rightParen ∧ rest.map (·.kind) = more := by
  obtain ⟨word, tokens, rfl, hword, h⟩ := List.map_eq_cons_iff.mp h
  obtain ⟨group, rest, rfl, hgroup, hrest⟩ := List.map_eq_append_iff.mp h
  obtain ⟨left, test, right, rfl, hleft, htest, hright⟩ := exists_enclosed hgroup
  exact ⟨word, left, test, right, rest, by simp, hword, hleft, htest, hright, hrest⟩

/-! ### Lists -/

section Lists

variable {items : List (List Token.Kind)} {xs : List α}

theorem separated_cons_cons (kinds next : List Token.Kind) (rest : List (List Token.Kind)) :
    separated (kinds :: next :: rest) =
      kinds ++ .symbol .comma :: separated (next :: rest) := by
  simp [separated]

/-- Items that are read are read between commas. -/
theorem reads_separated (h : List.Forall₂ (Reads item like) items xs) (hitems : items ≠ []) :
    Reads (Separated item) (List.Forall₂ like) (separated items) xs := by
  induction h with
  | nil => exact absurd rfl hitems
  | @cons kinds x items xs hfirst hrest ih =>
      intro tokens htokens
      cases items with
      | nil =>
          cases hrest
          rw [separated, List.intercalate_singleton] at htokens
          obtain ⟨x', hx, hlike⟩ := hfirst tokens htokens
          exact ⟨[x'], .last hx, .cons hlike .nil⟩
      | cons next items =>
          rw [separated_cons_cons] at htokens
          obtain ⟨first, rest, rfl, hkinds, hmore⟩ := List.map_eq_append_iff.mp htokens
          obtain ⟨comma, rest, rfl, hcomma, hmore⟩ := List.map_eq_cons_iff.mp hmore
          obtain ⟨x', hx, hlike⟩ := hfirst first hkinds
          obtain ⟨xs', hxs, hlikes⟩ := ih (List.cons_ne_nil _ _) rest hmore
          exact ⟨x' :: xs', .cons hx hcomma hxs, .cons hlike hlikes⟩

theorem reads_parenthesised (h : List.Forall₂ (Reads item like) items xs) :
    Reads (Parenthesised item) (List.Forall₂ like) (inParens (separated items)) xs := by
  intro tokens htokens
  obtain ⟨left, inner, right, rfl, hleft, hinner, hright⟩ := exists_enclosed htokens
  cases items with
  | nil =>
      cases h
      obtain rfl := List.map_eq_nil_iff.mp hinner
      exact ⟨[], .empty hleft hright, .nil⟩
  | cons kinds rest =>
      obtain ⟨xs', hxs, hlikes⟩ := reads_separated h (List.cons_ne_nil _ _) inner hinner
      exact ⟨xs', .items hleft hxs hright, hlikes⟩

theorem reads_repeated (h : List.Forall₂ (Reads item like) items xs) :
    Reads (Repeated item) (List.Forall₂ like) items.flatten xs := by
  induction h with
  | nil =>
      intro tokens htokens
      obtain rfl := List.map_eq_nil_iff.mp htokens
      exact ⟨[], .nil, .nil⟩
  | cons hfirst _ ih =>
      intro tokens htokens
      rw [List.flatten_cons] at htokens
      obtain ⟨first, rest, rfl, hkinds, hmore⟩ := List.map_eq_append_iff.mp htokens
      obtain ⟨x', hx, hlike⟩ := hfirst first hkinds
      obtain ⟨xs', hxs, hlikes⟩ := ih rest hmore
      exact ⟨x' :: xs', .cons hx hxs, .cons hlike hlikes⟩

theorem reads_braced (h : List.Forall₂ (Reads item like) items xs) :
    Reads (Braced item) (List.Forall₂ like) (inBraces items.flatten) xs := by
  intro tokens htokens
  obtain ⟨left, inner, right, rfl, hleft, hinner, hright⟩ := exists_enclosed htokens
  obtain ⟨xs', hxs, hlikes⟩ := reads_repeated h inner hinner
  exact ⟨xs', .mk hleft hxs hright, hlikes⟩

theorem reads_parameters (names : List String) :
    Reads (Parenthesised Parameter) (List.Forall₂ Eq) (parameters names) names := by
  refine reads_parenthesised (List.forall₂_map_left_iff.mpr (List.forall₂_same.mpr ?_))
  intro name _ tokens htokens
  obtain ⟨token, rfl, hkind⟩ := List.map_eq_singleton_iff.mp htokens
  exact ⟨name, .mk hkind, rfl⟩

end Lists

/-! ### Expressions -/

section Expressions

variable {e : Expr} {level minimum : Nat} {span : Option Span}

/-- Tokens of some kinds make up an expression of a level, up to spans. -/
abbrev ReadsExpr (level : Nat) : List Token.Kind → Expr → Prop :=
  Reads (Operands level) (Expr.Alike .text)

/-- Tokens of some kinds make up a statement, up to spans. -/
abbrev ReadsStmt : List Token.Kind → Stmt → Prop := Reads Statement (Stmt.Alike .text)

/-- Operators bind at their levels. -/
theorem binds_symbol (operator : Operator) : Binds operator.level operator.symbol operator := by
  cases operator <;> constructor

theorem operator_level_bounds (operator : Operator) :
    1 ≤ operator.level ∧ operator.level ≤ 6 := by
  cases operator <;> decide

theorem level_bounds (e : Expr) : 1 ≤ e.level ∧ e.level ≤ 7 := by
  cases e with
  | binary span operator left right =>
      have hbounds := operator_level_bounds operator
      simp only [Expr.level]
      omega
  | _ => simp [Expr.level]

/-- What is read at a level is read at all looser ones. -/
theorem Reads.loosen (h : ReadsExpr level kinds e) (hlevel : minimum ≤ level) :
    ReadsExpr minimum kinds e := by
  intro tokens htokens
  obtain ⟨e', he, halike⟩ := h tokens htokens
  exact ⟨e', he.loosen hlevel, halike⟩

theorem Reads.expression (h : ReadsExpr e.level kinds e) : ReadsExpr 1 kinds e :=
  h.loosen (level_bounds e).1

theorem reads_primary (h : Reads Primary (Expr.Alike .text) kinds e) : ReadsExpr 7 kinds e := by
  intro tokens htokens
  obtain ⟨e', he, halike⟩ := h tokens htokens
  exact ⟨e', .primary he, halike⟩

/-- A number is read from its numeral, with a sign in front if it is negative. -/
theorem reads_number (span : Option Span) (x : Float) :
    Reads Primary (Expr.Alike .text) (number x) (.number span x) := by
  intro tokens htokens
  unfold number at htokens
  split at htokens
  next hsign =>
    obtain ⟨sign, rest, rfl, hminus, hrest⟩ := List.map_eq_cons_iff.mp htokens
    obtain ⟨token, rfl, hkind⟩ := List.map_eq_singleton_iff.mp hrest
    exact ⟨_, .minus hminus hkind, .number trivial (Number.neg_abs hsign).symm⟩
  · obtain ⟨token, rfl, hkind⟩ := List.map_eq_singleton_iff.mp htokens
    exact ⟨_, .number hkind, .number trivial rfl⟩

theorem reads_boolean (span : Option Span) (b : Bool) :
    Reads Primary (Expr.Alike .text) [.boolean b] (.boolean span b) := by
  intro tokens htokens
  obtain ⟨token, rfl, hkind⟩ := List.map_eq_singleton_iff.mp htokens
  exact ⟨_, .boolean hkind, .boolean trivial⟩

theorem reads_variable (span : Option Span) (name : String) :
    Reads Primary (Expr.Alike .text) [.identifier name] (.variable span (.text name)) := by
  intro tokens htokens
  obtain ⟨token, rfl, hkind⟩ := List.map_eq_singleton_iff.mp htokens
  exact ⟨_, .variable hkind, .variable trivial⟩

theorem reads_grouped (h : ReadsExpr 1 kinds e) :
    Reads Primary (Expr.Alike .text) (inParens kinds) e := by
  intro tokens htokens
  obtain ⟨left, inner, right, rfl, hleft, hinner, hright⟩ := exists_enclosed htokens
  obtain ⟨e', he, halike⟩ := h inner hinner
  exact ⟨e', .group hleft he hright, halike⟩

/-- In parentheses, an expression is read at every level. -/
theorem reads_inParens (h : ReadsExpr e.level kinds e) (hlevel : level ≤ 7) :
    ReadsExpr level (inParens kinds) e := by
  have hgroup : ReadsExpr 7 (inParens kinds) e := reads_primary (reads_grouped h.expression)
  exact hgroup.loosen hlevel

theorem reads_call {items : List (List Token.Kind)} {arguments : List Expr}
    (h : List.Forall₂ (ReadsExpr 1) items arguments) (span : Option Span) (name : String) :
    Reads Primary (Expr.Alike .text) (.identifier name :: inParens (separated items))
      (.call span (.text name) arguments) := by
  intro tokens htokens
  obtain ⟨token, rest, rfl, hname, hrest⟩ := List.map_eq_cons_iff.mp htokens
  obtain ⟨arguments', harguments, halike⟩ := reads_parenthesised h rest hrest
  exact ⟨_, .call rfl hname harguments, .call trivial (Parser.allAlike_of_exprs halike)⟩

theorem reads_function {items : List (List Token.Kind)} {body : List Stmt}
    (h : List.Forall₂ ReadsStmt items body) (span : Option Span) (names : List String) :
    Reads Primary (Expr.Alike .text)
      (.keyword .function :: (parameters names ++ inBraces items.flatten))
      (.function span (names.map Datum.text) body) := by
  intro tokens htokens
  obtain ⟨word, rest, rfl, hword, hrest⟩ := List.map_eq_cons_iff.mp htokens
  obtain ⟨group, block, rfl, hgroup, hblock⟩ := List.map_eq_append_iff.mp hrest
  obtain ⟨names', hnames, hsame⟩ := reads_parameters names group hgroup
  obtain rfl := List.forall₂_eq_eq_eq ▸ hsame
  obtain ⟨body', hbody, halike⟩ := reads_braced h block hblock
  exact ⟨_, .function rfl hword hnames hbody,
    .function trivial (Parser.allAlike_of_stmts halike)⟩

/-- A binary expression is read if its right operand is, one level tighter. -/
theorem reads_binary {operator : Operator} {left right : Expr} {kinds' : List Token.Kind}
    (hleft : ReadsExpr operator.level kinds left)
    (hright : ReadsExpr (operator.level + 1) kinds' right) (span : Option Span) :
    ReadsExpr operator.level (kinds ++ .symbol operator.symbol :: kinds')
      (.binary span operator left right) := by
  intro tokens htokens
  obtain ⟨first, rest, rfl, hfirst, hrest⟩ := List.map_eq_append_iff.mp htokens
  obtain ⟨token, second, rfl, hkind, hsecond⟩ := List.map_eq_cons_iff.mp hrest
  obtain ⟨a, ha, halike⟩ := hleft first hfirst
  obtain ⟨b, hb, halike'⟩ := hright second hsecond
  exact ⟨_, .binary rfl ha hkind (binds_symbol operator) hb, .binary trivial halike halike'⟩

end Expressions

/-! ### Statements -/

section Statements

variable {e : Expr} {items : List (List Token.Kind)} {body : List Stmt} (span : Option Span)

theorem reads_declare (h : ReadsExpr 1 kinds e) (name : String) :
    ReadsStmt
      (.keyword .let :: .identifier name :: .symbol .assign :: (kinds ++ [.symbol .semicolon]))
      (.declare span (.text name) e) := by
  intro tokens htokens
  obtain ⟨word, rest, rfl, hword, hrest⟩ := List.map_eq_cons_iff.mp htokens
  obtain ⟨token, rest, rfl, hname, hrest⟩ := List.map_eq_cons_iff.mp hrest
  obtain ⟨sign, rest, rfl, hsign, hrest⟩ := List.map_eq_cons_iff.mp hrest
  obtain ⟨inner, semicolon, rfl, hinner, hsemicolon⟩ := exists_ended hrest
  obtain ⟨e', he, halike⟩ := h inner hinner
  exact ⟨_, .declare rfl hword hname hsign he hsemicolon, .declare trivial halike⟩

theorem reads_assign (h : ReadsExpr 1 kinds e) (name : String) :
    ReadsStmt (.identifier name :: .symbol .assign :: (kinds ++ [.symbol .semicolon]))
      (.assign span (.text name) e) := by
  intro tokens htokens
  obtain ⟨token, rest, rfl, hname, hrest⟩ := List.map_eq_cons_iff.mp htokens
  obtain ⟨sign, rest, rfl, hsign, hrest⟩ := List.map_eq_cons_iff.mp hrest
  obtain ⟨inner, semicolon, rfl, hinner, hsemicolon⟩ := exists_ended hrest
  obtain ⟨e', he, halike⟩ := h inner hinner
  exact ⟨_, .assign rfl hname hsign he hsemicolon, .assign trivial halike⟩

theorem reads_branch (h : ReadsExpr 1 kinds e) (hthen : List.Forall₂ ReadsStmt items body) :
    ReadsStmt (.keyword .if :: (inParens kinds ++ inBraces items.flatten))
      (.branch span e body []) := by
  intro tokens htokens
  obtain ⟨word, left, test, right, rest, rfl, hword, hleft, htest, hright, hrest⟩ :=
    exists_conditional htokens
  obtain ⟨e', he, halike⟩ := h test htest
  obtain ⟨body', hbody, halike'⟩ := reads_braced hthen rest hrest
  exact ⟨_, .branch rfl hword hleft he hright hbody,
    .branch trivial halike (Parser.allAlike_of_stmts halike') .nil⟩

theorem reads_branchElse {items' : List (List Token.Kind)} {other : List Stmt}
    (h : ReadsExpr 1 kinds e) (hthen : List.Forall₂ ReadsStmt items body)
    (helse : List.Forall₂ ReadsStmt items' other) :
    ReadsStmt (.keyword .if :: (inParens kinds ++ (inBraces items.flatten ++
      .keyword .else :: inBraces items'.flatten))) (.branch span e body other) := by
  intro tokens htokens
  obtain ⟨word, left, test, right, rest, rfl, hword, hleft, htest, hright, hrest⟩ :=
    exists_conditional htokens
  obtain ⟨block, rest, rfl, hblock, hrest⟩ := List.map_eq_append_iff.mp hrest
  obtain ⟨word', block', rfl, hword', hblock'⟩ := List.map_eq_cons_iff.mp hrest
  obtain ⟨e', he, halike⟩ := h test htest
  obtain ⟨body', hbody, hbodies⟩ := reads_braced hthen block hblock
  obtain ⟨other', hother, hothers⟩ := reads_braced helse block' hblock'
  exact ⟨_, .branchElse rfl hword hleft he hright hbody hword' hother,
    .branch trivial halike (Parser.allAlike_of_stmts hbodies) (Parser.allAlike_of_stmts hothers)⟩

theorem reads_loop (h : ReadsExpr 1 kinds e) (hbody : List.Forall₂ ReadsStmt items body) :
    ReadsStmt (.keyword .while :: (inParens kinds ++ inBraces items.flatten))
      (.loop span e body) := by
  intro tokens htokens
  obtain ⟨word, left, test, right, rest, rfl, hword, hleft, htest, hright, hrest⟩ :=
    exists_conditional htokens
  obtain ⟨e', he, halike⟩ := h test htest
  obtain ⟨body', hbody, halike'⟩ := reads_braced hbody rest hrest
  exact ⟨_, .loop rfl hword hleft he hright hbody,
    .loop trivial halike (Parser.allAlike_of_stmts halike')⟩

theorem reads_print (h : ReadsExpr 1 kinds e) :
    ReadsStmt (.keyword .print :: (inParens kinds ++ [.symbol .semicolon])) (.print span e) := by
  intro tokens htokens
  obtain ⟨word, left, inner, right, rest, rfl, hword, hleft, hinner, hright, hrest⟩ :=
    exists_conditional htokens
  obtain ⟨semicolon, rfl, hsemicolon⟩ := List.map_eq_singleton_iff.mp hrest
  obtain ⟨e', he, halike⟩ := h inner hinner
  exact ⟨_, .print rfl hword hleft he hright hsemicolon, .print trivial halike⟩

theorem reads_discard (h : ReadsExpr 1 kinds e) :
    ReadsStmt (kinds ++ [.symbol .semicolon]) (.discard span e) := by
  intro tokens htokens
  obtain ⟨inner, semicolon, rfl, hinner, hsemicolon⟩ := exists_ended htokens
  obtain ⟨e', he, halike⟩ := h inner hinner
  exact ⟨_, .discard rfl he hsemicolon, .discard trivial halike⟩

theorem reads_give (h : ReadsExpr 1 kinds e) :
    ReadsStmt (.keyword .return :: (kinds ++ [.symbol .semicolon])) (.give span e) := by
  intro tokens htokens
  obtain ⟨word, inner, semicolon, rfl, hword, hinner, hsemicolon⟩ := exists_enclosed htokens
  obtain ⟨e', he, halike⟩ := h inner hinner
  exact ⟨_, .give rfl hword he hsemicolon, .give trivial halike⟩

end Statements

end Rendering

mutual

/-- What is written for an expression makes up the expression, at the level of its operator. -/
theorem Expr.Written.reads {e : Expr} {kinds : List Token.Kind} (h : Expr.Written e kinds) :
    ReadsExpr e.level kinds e := by
  match h with
  | .number => exact reads_primary (reads_number _ _)
  | .boolean => exact reads_primary (reads_boolean _ _)
  | .variable => exact reads_primary (reads_variable _ _)
  | .binary hleft hright =>
      refine reads_binary (hleft.reads ?_ ?_) (hright.reads ?_ ?_) _
      · simp [Expr.needsParensLeft]
      · exact Nat.le_succ_of_le (operator_level_bounds _).2
      · simp [Expr.needsParensRight]
      · exact Nat.succ_le_succ (operator_level_bounds _).2
  | .function hbody => exact reads_primary (reads_function hbody.reads _ _)
  | .call harguments => exact reads_primary (reads_call harguments.reads _ _)
  | .grouped he => exact reads_inParens he.reads (level_bounds _).2

/-- An operand in parentheses is read at any level, another one at the levels up to its own. -/
theorem Expr.WrittenOperand.reads {needed : Bool} {e : Expr} {kinds : List Token.Kind}
    (h : Expr.WrittenOperand needed e kinds) {level : Nat}
    (hlevel : needed = false → level ≤ e.level) (hmost : level ≤ 7) : ReadsExpr level kinds e := by
  match h with
  | .bare he => exact he.reads.loosen (hlevel rfl)
  | .grouped he => exact reads_inParens he.reads hmost

/-- Expressions that are written are read, one by one. -/
theorem Expr.AllWritten.reads {es : List Expr} {items : List (List Token.Kind)}
    (h : Expr.AllWritten es items) : List.Forall₂ (ReadsExpr 1) items es := by
  match h with
  | .nil => exact .nil
  | .cons he hrest => exact .cons he.reads.expression hrest.reads

/-- What is written for a statement makes up the statement. -/
theorem Stmt.Written.reads {stmt : Stmt} {kinds : List Token.Kind} (h : Stmt.Written stmt kinds) :
    ReadsStmt kinds stmt := by
  match h with
  | .declare he => exact reads_declare _ he.reads.expression _
  | .assign he => exact reads_assign _ he.reads.expression _
  | .branch he hthen => exact reads_branch _ he.reads.expression hthen.reads
  | .branchElse he hthen helse =>
      exact reads_branchElse _ he.reads.expression hthen.reads helse.reads
  | .loop he hbody => exact reads_loop _ he.reads.expression hbody.reads
  | .print he => exact reads_print _ he.reads.expression
  | .discard he => exact reads_discard _ he.reads.expression
  | .give he => exact reads_give _ he.reads.expression

theorem Stmt.AllWritten.reads {stmts : List Stmt} {items : List (List Token.Kind)}
    (h : Stmt.AllWritten stmts items) : List.Forall₂ ReadsStmt items stmts := by
  match h with
  | .nil => exact .nil
  | .cons hstmt hrest => exact .cons hstmt.reads hrest.reads

end

/-! ## Rendered programs -/

/-- Tokens of some kinds, followed by the end of input, are parsed as a program, up to spans. This
holds at every limit that is not reached, and at every limit larger than the number of tokens. -/
def Rendering.ParsedAs (kinds : List Token.Kind) (program : Program) : Prop :=
  ∀ (body : List Token) (last : Token), body.map (·.kind) = kinds → last.kind = .endOfInput →
    ∀ limit, Parser.parse (Parser.program limit) (body ++ [last]) ≠ .error .tooDeep ∨
        body.length < limit →
      ∃ stmts, Parser.parse (Parser.program limit) (body ++ [last]) = .ok stmts ∧
        Stmt.AllAlike .text program stmts

/-- What a program is written as is parsed as the program. -/
theorem Program.Written.parsedAs {program : Program} {kinds : List Token.Kind}
    (h : program.Written kinds) : ParsedAs kinds program := by
  obtain ⟨items, hitems, rfl⟩ := h
  intro body last hkinds hlast limit hlimit
  obtain ⟨stmts, hderives, halike⟩ := reads_repeated hitems.reads body hkinds
  have hinner : ∀ token ∈ body, token.kind.isEnd = false := hderives.inner
  have hend : last.kind.isEnd = true := by rw [hlast]; rfl
  have hexact := Parser.parse_iff (fun _ _ => Parser.program_extends)
    (fun _ _ _ => Parser.program_accepts hinner hend)
    (fun _ _ => Parser.program_finds hinner hend) hlimit stmts
  exact ⟨stmts, hexact.mpr hderives, Parser.allAlike_of_stmts halike⟩

/-- A program that is written with only the parentheses it needs is parsed as itself, and so it is
if more pairs of parentheses are put around any of its expressions. -/
theorem parse_rendered (program : Program) (hbuilt : Stmt.AllBuilt (fun _ => True) program) :
    ParsedAs program.rendered program ∧ program.Written program.rendered ∧
      ∀ kinds, program.Written kinds → ParsedAs kinds program := by
  have hwritten : program.Written program.rendered :=
    ⟨_, Stmt.allWritten_rendered program hbuilt, rfl⟩
  exact ⟨hwritten.parsedAs, hwritten, fun _ h => h.parsedAs⟩

/-- In `x - (y - -0) * z;` a looser left operand and no other needs parentheses. -/
theorem parse_rendered_signed :
    let name (x : String) : Expr := .variable none (.text x)
    let zero : Expr := .number none (Float.ofBits 0x8000000000000000)
    let inner : Expr := .binary none .subtract (name "y") zero
    let program : Program :=
      [.discard none (.binary none .subtract (name "x") (.binary none .multiply inner (name "z")))]
    Stmt.AllBuilt (fun _ => True) program ∧
      program.rendered = [.identifier "x", .symbol .minus, .symbol .leftParen, .identifier "y",
        .symbol .minus, .symbol .minus, .number (Float.ofBits 0), .symbol .rightParen,
        .symbol .star, .identifier "z", .symbol .semicolon] ∧
      ParsedAs program.rendered program := by
  intro name zero inner program
  have hbuilt : Stmt.AllBuilt (fun _ => True) program := by
    simp [program, inner, zero, name, Stmt.AllBuilt, Stmt.Built, Expr.Built, Datum.IsText]
  exact ⟨hbuilt, rfl, (parse_rendered program hbuilt).1⟩

end Treewalk
