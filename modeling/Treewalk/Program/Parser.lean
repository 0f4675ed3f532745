import Treewalk.Program.Basic
import Treewalk.Source.Lexer

/-! # From tokens to programs

The parser goes down the grammar. Binary operators have six levels, each of them left-associative:
`||` binds loosest, then `&&`, `===`, `<` and `>`, `+` and `-`, and `*` and `/` bind tightest. A
sign in operand position belongs to the number literal after it.

Nested expressions and blocks count against a depth limit. Lists of statements, arguments and
operands of one level do not.
-/

namespace Treewalk

/-- What the parser looks for where it cannot go on. -/
inductive Expected where
  | expression | numberAfterSign | identifier | parameterName | symbol (sign : Symbol)
  deriving DecidableEq, Repr, Inhabited

def Expected.text : Expected → String
  | expression => "expression"
  | numberAfterSign => "number after sign"
  | identifier => "identifier"
  | parameterName => "parameter name"
  | symbol sign => "'" ++ sign.spelling ++ "'"

inductive ParseFault where
  | unexpectedToken (expected : Expected) (found : String)
  | unexpectedEnd (expected : Expected)
  | notOneExpression
  deriving DecidableEq, Repr, Inhabited

namespace ParseFault

def code : ParseFault → String
  | unexpectedToken .. => "E101"
  | unexpectedEnd _ => "E102"
  | notOneExpression => "E103"

def message : ParseFault → String
  | unexpectedToken expected found => "expected " ++ expected.text ++ ", found '" ++ found ++ "'"
  | unexpectedEnd expected => "unexpected end of file, expected " ++ expected.text
  | notOneExpression => "expected exactly one expression"

end ParseFault

/-- A fault with its place and the source line shown for it. -/
structure ParseError where
  fault : ParseFault
  span : Span
  sourceLine : Option String := none
  deriving Repr, Inhabited

def ParseError.diagnostic (e : ParseError) : Diagnostic :=
  { code := e.fault.code
    message := e.fault.message
    span := some e.span
    sourceLine := e.sourceLine }

inductive ParseFailure where
  | error (error : ParseError)
  /-- Nested beyond the depth limit. -/
  | tooDeep
  /-- A span was needed that ends after the last token, or there is no token at all. -/
  | pastEnd
  deriving Repr, Inhabited

namespace Parser

/-- A place in a list of tokens. The last token is never used up: it is read again for ever. -/
structure Cursor where
  /-- The tokens that were not read yet. -/
  rest : List Token
  /-- The token that stands for everything after the last one. -/
  final : Token
  /-- Where the last token read ends; nothing once `final` was read again. -/
  stop : Option Location

def Cursor.peek (c : Cursor) : Token := c.rest.headD c.final

def Cursor.peekSecond (c : Cursor) : Token := c.rest.tail.headD c.final

/-- Goes past a token. The end of input is never passed. -/
def Cursor.next (c : Cursor) : Cursor :=
  if c.peek.kind.isEnd then c
  else { c with rest := c.rest.tail, stop := c.rest.head?.map (·.span.stop) }

/-- A parser: it fails or yields a result and the place after it. -/
abbrev Parse (α : Type) := Cursor → Except ParseFailure (α × Cursor)

def unexpected (expected : Expected) (c : Cursor) : ParseFailure :=
  let token := c.peek
  if token.kind.isEnd then .error ⟨.unexpectedEnd expected, token.span, none⟩
  else .error ⟨.unexpectedToken expected token.lexeme, token.span, none⟩

def isSymbol (sign : Symbol) (token : Token) : Bool :=
  match token.kind with
  | .symbol s => s == sign
  | _ => false

def symbol (sign : Symbol) : Parse Unit := fun c =>
  if isSymbol sign c.peek then .ok ((), c.next) else .error (unexpected (.symbol sign) c)

def name (expected : Expected) : Parse String := fun c =>
  match c.peek.kind with
  | .identifier name => .ok (name, c.next)
  | _ => .error (unexpected expected c)

/-- The span from a token to the last token read. -/
def spanFrom (start : Token) : Parse (Option Span) := fun c =>
  match c.stop with
  | some stop => .ok (some ⟨start.span.start, stop⟩, c)
  | none => .error .pastEnd

/-- Further items, each after a comma. Every round reads the comma. -/
def moreItems {α : Type} (item : Parse α) : Nat → Parse (List α)
  | 0, c => .ok ([], c)
  | rounds + 1, c =>
    if isSymbol .comma c.peek then do
      let (first, c) ← item c.next
      let (others, c) ← moreItems item rounds c
      .ok (first :: others, c)
    else .ok ([], c)

/-- Items between parentheses, separated by commas. -/
def parenthesised {α : Type} (item : Parse α) : Parse (List α) := fun c => do
  let ((), c) ← symbol .leftParen c
  if isSymbol .rightParen c.peek then .ok ([], c.next)
  else do
    let (first, c) ← item c
    let (others, c) ← moreItems item (c.rest.length + 1) c
    let ((), c) ← symbol .rightParen c
    .ok (first :: others, c)

/-- Statements up to a token that ends them. Every statement has a token. -/
def statementsUntil (ends : Token → Bool) (statement : Parse Stmt) : Nat → Parse (List Stmt)
  | 0, _ => .error .pastEnd
  | rounds + 1, c =>
    if ends c.peek then .ok ([], c)
    else do
      let (first, c) ← statement c
      let (others, c) ← statementsUntil ends statement rounds c
      .ok (first :: others, c)

def block (statement : Parse Stmt) : Parse (List Stmt) := fun c => do
  let ((), c) ← symbol .leftBrace c
  let ends (token : Token) : Bool := isSymbol .rightBrace token || token.kind.isEnd
  let (body, c) ← statementsUntil ends statement (c.rest.length + 2) c
  let ((), c) ← symbol .rightBrace c
  .ok (body, c)

/-- The level of an operator symbol and the operator; a higher level binds tighter. -/
def operator? : Symbol → Option (Nat × Operator)
  | .or => some (1, .or)
  | .and => some (2, .and)
  | .strictEqual => some (3, .strictEqual)
  | .less => some (4, .less)
  | .greater => some (4, .greater)
  | .plus => some (5, .add)
  | .minus => some (5, .subtract)
  | .star => some (6, .multiply)
  | .slash => some (6, .divide)
  | _ => none

/-- The level of the operator of a token and the operator, if the token is one. -/
def operatorOf? (token : Token) : Option (Nat × Operator) :=
  match token.kind with
  | .symbol sign => operator? sign
  | _ => none

/-- Further operands, applied from the left as long as their operators are of the level `minimum` or
tighter. What binds tighter than an operator belongs to its right operand. Every round reads an
operator. -/
def moreOperands (operand : (minimum : Nat) → Parse Expr) (minimum : Nat) (start : Token) :
    Nat → Expr → Parse Expr
  | 0, left, c => .ok (left, c)
  | rounds + 1, left, c =>
    match operatorOf? c.peek with
    | some (level, operator) =>
      if level < minimum then .ok (left, c)
      else do
        let (right, c) ← operand (level + 1) c.next
        let (span, c) ← spanFrom start c
        moreOperands operand minimum start rounds (.binary span operator left right) c
    | none => .ok (left, c)

/-- Operands with operators of the level `minimum` or tighter between them. A right operand has a
greater minimum than the whole, so right operands are nested less than eight deep. -/
def operands (primary : Parse Expr) : (depth : Nat) → (minimum : Nat) → Parse Expr
  | 0, _, c => primary c
  | depth + 1, minimum, c => do
    let start := c.peek
    let (left, c) ← primary c
    moreOperands (operands primary depth) minimum start (c.rest.length + 1) left c

/-- An expression, given how its smallest parts are read. -/
def expressionOf (primary : Parse Expr) : Parse Expr := operands primary 7 0

def signedNumber (negative : Bool) : Parse Expr := fun c =>
  let sign := c.peek
  match c.peekSecond.kind with
  | .number value => do
    let (span, c) ← spanFrom sign c.next.next
    .ok (.number span (if negative then -value else value), c)
  | _ => .error (unexpected .numberAfterSign c.next)

def functionLiteral (statement : Parse Stmt) : Parse Expr := fun c => do
  let start := c.peek
  let (parameters, c) ← parenthesised (name .parameterName) c.next
  let (body, c) ← block statement c
  let (span, c) ← spanFrom start c
  .ok (.function span (parameters.map Datum.text) body, c)

def call (expression : Parse Expr) (callee : String) : Parse Expr := fun c => do
  let start := c.peek
  let (arguments, c) ← parenthesised expression c.next
  let (span, c) ← spanFrom start c
  .ok (.call span (.text callee) arguments, c)

def grouped (expression : Parse Expr) : Parse Expr := fun c => do
  let ((), c) ← symbol .leftParen c
  let (inner, c) ← expression c
  let ((), c) ← symbol .rightParen c
  .ok (inner, c)

/-- The smallest expressions: literals, names, calls, functions and groups. -/
def primaryOf (expression : Parse Expr) (statement : Parse Stmt) : Parse Expr := fun c =>
  let token := c.peek
  match token.kind with
  | .number value => .ok (.number (some token.span) value, c.next)
  | .symbol .minus => signedNumber true c
  | .symbol .plus => signedNumber false c
  | .boolean value => .ok (.boolean (some token.span) value, c.next)
  | .identifier name =>
    if isSymbol .leftParen c.next.peek then call expression name c
    else .ok (.variable (some token.span) (.text name), c.next)
  | .keyword .function => functionLiteral statement c
  | .symbol .leftParen => grouped expression c
  | _ => .error (unexpected .expression c)

def isKeyword (word : Keyword) (token : Token) : Bool :=
  match token.kind with
  | .keyword w => w == word
  | _ => false

/-- The rest of a statement that ends with an expression and a semicolon. -/
def finish (expression : Parse Expr) (start : Token) (make : Option Span → Expr → Stmt) :
    Parse Stmt := fun c => do
  let (value, c) ← expression c
  let ((), c) ← symbol .semicolon c
  let (span, c) ← spanFrom start c
  .ok (make span value, c)

/-- The block after `else`, if there is one. -/
def elseBlock (statement : Parse Stmt) : Parse (List Stmt) := fun c =>
  if isKeyword .else c.peek then block statement c.next else .ok ([], c)

/-- A statement, given how the statements inside it are read. -/
def statementOf (expression : Parse Expr) (statement : Parse Stmt) : Parse Stmt := fun c =>
  let start := c.peek
  match start.kind with
  | .keyword .let => do
    let (name, c) ← name .identifier c.next
    let ((), c) ← symbol .assign c
    finish expression start (fun span value => .declare span (.text name) value) c
  | .keyword .if => do
    let (test, c) ← grouped expression c.next
    let (thenPart, c) ← block statement c
    let (elsePart, c) ← elseBlock statement c
    let (span, c) ← spanFrom start c
    .ok (.branch span test thenPart elsePart, c)
  | .keyword .while => do
    let (test, c) ← grouped expression c.next
    let (body, c) ← block statement c
    let (span, c) ← spanFrom start c
    .ok (.loop span test body, c)
  | .keyword .print => do
    let (value, c) ← grouped expression c.next
    let ((), c) ← symbol .semicolon c
    let (span, c) ← spanFrom start c
    .ok (.print span value, c)
  | .keyword .return => finish expression start .give c.next
  | .identifier name =>
    if isSymbol .assign c.peekSecond then
      finish expression start (fun span value => .assign span (.text name) value) c.next.next
    else finish expression start .discard c
  | _ => finish expression start .discard c

mutual

/-- An expression nested less deeply than the limit. -/
def expression : (limit : Nat) → Parse Expr
  | 0, _ => .error .tooDeep
  | limit + 1, c => expressionOf (primaryOf (expression limit) (statement limit)) c

def statement : (limit : Nat) → Parse Stmt
  | 0, _ => .error .tooDeep
  | limit + 1, c => statementOf (expression limit) (statement limit) c

end

/-- The place in front of the first token; there has to be one. -/
def Cursor.ofTokens? (tokens : List Token) : Option Cursor :=
  tokens.getLast?.map fun final => ⟨tokens, final, none⟩

def program (limit : Nat) : Parse Program := fun c =>
  statementsUntil (·.kind.isEnd) (statement limit) (c.rest.length + 2) c

/-- One expression, perhaps with a semicolon after it, up to the end of input. -/
def singleExpression (limit : Nat) : Parse Expr := fun c => do
  let (value, c) ← expression limit c
  let c := if isSymbol .semicolon c.peek then c.next else c
  if c.peek.kind.isEnd then .ok (value, c)
  else .error (.error ⟨.notOneExpression, c.peek.span, none⟩)

def parse {α : Type} (parser : Parse α) (tokens : List Token) : Except ParseFailure α :=
  match Cursor.ofTokens? tokens with
  | some cursor => (parser cursor).map (·.1)
  | none => .error .pastEnd

def depthLimit : Nat := 300

end Parser

/-- Adds the line of a text to the report of an unexpected token. -/
def ParseError.showLine (shown : Option String) (e : ParseError) : ParseError :=
  match e.fault with
  | .unexpectedToken .. =>
    { e with sourceLine := shown.bind (Text.shownLine? · e.span.start.line) }
  | _ => e

def ParseFailure.showLine (shown : Option String) : ParseFailure → ParseFailure
  | .error e => .error (e.showLine shown)
  | failure => failure

inductive SyntaxFailure where
  | lex (error : LexError)
  | parse (failure : ParseFailure)
  deriving Repr, Inhabited

namespace Program

/-- Parses tokens; `shown` is the text that error lines are taken from. -/
def ofTokens (tokens : List Token) (shown : Option String) : Except ParseFailure Program :=
  (Parser.parse (Parser.program Parser.depthLimit) tokens).mapError (·.showLine shown)

def ofSource (source : Source) : Except SyntaxFailure Program := do
  let tokens ← source.tokens.mapError .lex
  (ofTokens tokens (some source.text)).mapError .parse

end Program

def Expr.ofText (text : String) : Except SyntaxFailure Expr := do
  let source : Source := { text }
  let tokens ← source.tokens.mapError .lex
  (Parser.parse (Parser.singleExpression Parser.depthLimit) tokens).mapError fun failure =>
    .parse (failure.showLine (some text))

end Treewalk
