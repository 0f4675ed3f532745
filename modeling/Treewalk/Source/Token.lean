import Treewalk.Source.Span
import Treewalk.Text.Quoted

/-! # Tokens -/

namespace Treewalk

inductive Keyword where
  | «let» | «if» | «else» | «while» | print | function | «return»
  deriving DecidableEq, Repr, Inhabited

inductive Symbol where
  | plus | minus | star | slash | less | greater | strictEqual | and | or | assign
  | leftParen | rightParen | leftBrace | rightBrace | comma | semicolon
  deriving DecidableEq, Repr, Inhabited

namespace Keyword

def spelling : Keyword → String
  | «let» => "let"
  | «if» => "if"
  | «else» => "else"
  | «while» => "while"
  | print => "print"
  | function => "function"
  | «return» => "return"

def all : List Keyword := [«let», «if», «else», «while», print, function, «return»]

end Keyword

def Symbol.spelling : Symbol → String
  | plus => "+"
  | minus => "-"
  | star => "*"
  | slash => "/"
  | less => "<"
  | greater => ">"
  | strictEqual => "==="
  | and => "&&"
  | or => "||"
  | assign => "="
  | leftParen => "("
  | rightParen => ")"
  | leftBrace => "\x7b"
  | rightBrace => "\x7d"
  | comma => ","
  | semicolon => ";"

namespace Token

/-- What a token is, with the value of a literal or the text of a name. -/
inductive Kind where
  | number (value : Float)
  | boolean (value : Bool)
  | identifier (name : String)
  | keyword (word : Keyword)
  | symbol (sign : Symbol)
  | endOfInput
  deriving Repr, Inhabited

/-- The literals that are spelled as words. -/
def literalWord? : String → Option Kind
  | "true" => some (.boolean true)
  | "false" => some (.boolean false)
  | "Infinity" => some (.number Number.infinity)
  | _ => none

/-- The kind of a word: a literal, a keyword, or else an identifier. -/
def kindOfWord (word : String) : Kind :=
  match literalWord? word with
  | some kind => kind
  | none =>
    match Keyword.all.find? (·.spelling == word) with
    | some keyword => .keyword keyword
    | none => .identifier word

def isReserved (word : String) : Bool :=
  match kindOfWord word with
  | .identifier _ => false
  | _ => true

def keywordLabel : Keyword → String
  | .let => "LET"
  | .if => "IF"
  | .else => "ELSE"
  | .while => "WHILE"
  | .print => "PRINT"
  | .function => "FUNCTION"
  | .return => "RETURN"

def symbolLabel : Symbol → String
  | .plus => "PLUS"
  | .minus => "MINUS"
  | .star => "STAR"
  | .slash => "SLASH"
  | .less => "LT"
  | .greater => "GT"
  | .strictEqual => "STRICT_EQ"
  | .and => "AND"
  | .or => "OR"
  | .assign => "ASSIGN"
  | .leftParen => "LPAREN"
  | .rightParen => "RPAREN"
  | .leftBrace => "LBRACE"
  | .rightBrace => "RBRACE"
  | .comma => "COMMA"
  | .semicolon => "SEMICOLON"

def Kind.label : Kind → String
  | number _ => "NUMBER_LITERAL"
  | boolean _ => "BOOL_LITERAL"
  | identifier _ => "IDENTIFIER"
  | keyword word => keywordLabel word
  | symbol sign => symbolLabel sign
  | endOfInput => "EOF"

/-- The text of a token in token listings: numbers and names show what they are. -/
def Kind.text : Kind → String
  | k@(number x) => k.label ++ "(" ++ Number.fullText x ++ ")"
  | k@(identifier name) => k.label ++ "(" ++ Text.quoted name ++ ")"
  | k => k.label

def Kind.isEnd : Kind → Bool
  | endOfInput => true
  | _ => false

end Token

/-- A token with the text it was read from and the place of that text. -/
structure Token where
  kind : Token.Kind
  lexeme : String
  span : Span
  deriving Repr, Inhabited

end Treewalk
