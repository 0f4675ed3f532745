import Treewalk.Program.Basic
import Treewalk.Source.Token

/-! # The grammar of programs

Each relation says which tokens make up which tree, without saying how they are read. Expressions
are layered by the six levels of their operators: a left operand is of the same level as its
operator, a right operand of the next one, so that all operators associate to the left. Nodes carry
the span from the first to the last token they are made of.
-/

namespace Treewalk

namespace Grammar

variable {α : Type}

def spanOf (tokens : List Token) : Option Span := do
  let first ← tokens.head?
  let last ← tokens.getLast?
  pure ⟨first.span.start, last.span.stop⟩

/-- The operators and their levels, from the loosest to the tightest. -/
inductive Binds : Nat → Symbol → Operator → Prop where
  | or : Binds 1 .or .or
  | and : Binds 2 .and .and
  | strictEqual : Binds 3 .strictEqual .strictEqual
  | less : Binds 4 .less .less
  | greater : Binds 4 .greater .greater
  | add : Binds 5 .plus .add
  | subtract : Binds 5 .minus .subtract
  | multiply : Binds 6 .star .multiply
  | divide : Binds 6 .slash .divide

/-- One or more items with commas between them, and none after the last. -/
inductive Separated (item : List Token → α → Prop) : List Token → List α → Prop where
  | last {tokens x} : item tokens x → Separated item tokens [x]
  | cons {tokens comma rest x xs} :
      item tokens x → comma.kind = .symbol .comma → Separated item rest xs →
      Separated item (tokens ++ comma :: rest) (x :: xs)

/-- Items in parentheses, or a pair of parentheses without any. -/
inductive Parenthesised (item : List Token → α → Prop) : List Token → List α → Prop where
  | empty {left right} :
      left.kind = .symbol .leftParen → right.kind = .symbol .rightParen →
      Parenthesised item [left, right] []
  | items {left tokens right xs} :
      left.kind = .symbol .leftParen → Separated item tokens xs →
      right.kind = .symbol .rightParen → Parenthesised item (left :: (tokens ++ [right])) xs

/-- Any number of items, one after the other. -/
inductive Repeated (item : List Token → α → Prop) : List Token → List α → Prop where
  | nil : Repeated item [] []
  | cons {tokens rest x xs} :
      item tokens x → Repeated item rest xs → Repeated item (tokens ++ rest) (x :: xs)

inductive Braced (item : List Token → α → Prop) : List Token → List α → Prop where
  | mk {left tokens right xs} :
      left.kind = .symbol .leftBrace → Repeated item tokens xs →
      right.kind = .symbol .rightBrace → Braced item (left :: (tokens ++ [right])) xs

inductive Parameter : List Token → String → Prop where
  | mk {token name} : token.kind = .identifier name → Parameter [token] name

mutual

/-- The smallest expressions. A sign is part of the number literal after it, and only a name can be
called. -/
inductive Primary : List Token → Expr → Prop where
  | number {token value} :
      token.kind = .number value → Primary [token] (.number (some token.span) value)
  | plus {sign token value} :
      sign.kind = .symbol .plus → token.kind = .number value →
      Primary [sign, token] (.number (spanOf [sign, token]) value)
  | minus {sign token value} :
      sign.kind = .symbol .minus → token.kind = .number value →
      Primary [sign, token] (.number (spanOf [sign, token]) (-value))
  | boolean {token value} :
      token.kind = .boolean value → Primary [token] (.boolean (some token.span) value)
  | variable {token name} :
      token.kind = .identifier name → Primary [token] (.variable (some token.span) (.text name))
  | call {text token tokens name arguments} :
      text = token :: tokens →
      token.kind = .identifier name → Parenthesised (Operands 1) tokens arguments →
      Primary text (.call (spanOf text) (.text name) arguments)
  | function {text word tokens block parameters body} :
      text = word :: (tokens ++ block) →
      word.kind = .keyword .function → Parenthesised Parameter tokens parameters →
      Braced Statement block body →
      Primary text (.function (spanOf text) (parameters.map Datum.text) body)
  | group {left tokens right e} :
      left.kind = .symbol .leftParen → Operands 1 tokens e → right.kind = .symbol .rightParen →
      Primary (left :: (tokens ++ [right])) e

/-- Operands with operators of a level or tighter between them. The loosest level makes up whole
expressions. -/
inductive Operands : Nat → List Token → Expr → Prop where
  | primary {tokens e} : Primary tokens e → Operands 7 tokens e
  | tighter {level tokens e} : Operands (level + 1) tokens e → Operands level tokens e
  | binary {text level left token right sign operator a b} :
      text = left ++ token :: right →
      Operands level left a → token.kind = .symbol sign → Binds level sign operator →
      Operands (level + 1) right b →
      Operands level text (.binary (spanOf text) operator a b)

inductive Statement : List Token → Stmt → Prop where
  | declare {text word name sign tokens semicolon x e} :
      text = word :: name :: sign :: (tokens ++ [semicolon]) →
      word.kind = .keyword .let → name.kind = .identifier x → sign.kind = .symbol .assign →
      Operands 1 tokens e → semicolon.kind = .symbol .semicolon →
      Statement text (.declare (spanOf text) (.text x) e)
  | assign {text name sign tokens semicolon x e} :
      text = name :: sign :: (tokens ++ [semicolon]) →
      name.kind = .identifier x → sign.kind = .symbol .assign →
      Operands 1 tokens e → semicolon.kind = .symbol .semicolon →
      Statement text (.assign (spanOf text) (.text x) e)
  | branch {text word left tokens right block test thenPart} :
      text = word :: left :: (tokens ++ right :: block) →
      word.kind = .keyword .if → left.kind = .symbol .leftParen → Operands 1 tokens test →
      right.kind = .symbol .rightParen → Braced Statement block thenPart →
      Statement text (.branch (spanOf text) test thenPart [])
  | branchElse {text word left tokens right block other alternative test thenPart elsePart} :
      text = word :: left :: (tokens ++ right :: (block ++ other :: alternative)) →
      word.kind = .keyword .if → left.kind = .symbol .leftParen → Operands 1 tokens test →
      right.kind = .symbol .rightParen → Braced Statement block thenPart →
      other.kind = .keyword .else → Braced Statement alternative elsePart →
      Statement text (.branch (spanOf text) test thenPart elsePart)
  | loop {text word left tokens right block test body} :
      text = word :: left :: (tokens ++ right :: block) →
      word.kind = .keyword .while → left.kind = .symbol .leftParen → Operands 1 tokens test →
      right.kind = .symbol .rightParen → Braced Statement block body →
      Statement text (.loop (spanOf text) test body)
  | print {text word left tokens right semicolon e} :
      text = word :: left :: (tokens ++ [right, semicolon]) →
      word.kind = .keyword .print → left.kind = .symbol .leftParen → Operands 1 tokens e →
      right.kind = .symbol .rightParen → semicolon.kind = .symbol .semicolon →
      Statement text (.print (spanOf text) e)
  | give {text word tokens semicolon e} :
      text = word :: (tokens ++ [semicolon]) →
      word.kind = .keyword .return → Operands 1 tokens e → semicolon.kind = .symbol .semicolon →
      Statement text (.give (spanOf text) e)
  | discard {text tokens semicolon e} :
      text = tokens ++ [semicolon] →
      Operands 1 tokens e → semicolon.kind = .symbol .semicolon →
      Statement text (.discard (spanOf text) e)

end

abbrev Expression (tokens : List Token) (e : Expr) : Prop := Operands 1 tokens e

/-- The tokens of an expression that stands alone, perhaps with one semicolon after it. -/
inductive SingleExpression : List Token → Expr → Prop where
  | bare {tokens e} : Expression tokens e → SingleExpression tokens e
  | terminated {tokens semicolon e} :
      Expression tokens e → semicolon.kind = .symbol .semicolon →
      SingleExpression (tokens ++ [semicolon]) e

abbrev Program (tokens : List Token) (program : Treewalk.Program) : Prop :=
  Repeated Statement tokens program

end Grammar

end Treewalk
