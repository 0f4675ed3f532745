import Treewalk.Source.Lexer

/-! # The lexemes of a source text

A source text is gaps and lexemes in turn, with a gap at each end. A gap is made of blanks and
comments; a lexeme is a number, a word or a symbol, and the text after it does not lengthen it. The
relations here say what such a decomposition is, without saying how it is found.
-/

namespace Treewalk

namespace Lexical

open Lexer

/-! ## Gaps -/

/-- The characters that separate lexemes and mean nothing else. -/
def blanks : List Char := [' ', '\t', '\r', '\n']

/-- Any number of blanks and comments, in front of a text. A comment runs up to but excluding the
next line feed, or to the end of the text. -/
inductive Gap (rest : List Char) : List Char → Prop where
  | nil : Gap rest []
  | blank {c gap} : c ∈ blanks → Gap rest gap → Gap rest (c :: gap)
  | comment {body gap} : '\n' ∉ body → (∀ c ∈ (gap ++ rest).head?, c = '\n') → Gap rest gap →
      Gap rest ('/' :: '/' :: (body ++ gap))

/-! ## Lexemes -/

inductive Form where
  | whole | fractional | word | symbol (sign : Symbol)
  deriving DecidableEq, Repr

/-- The words that cannot be names, and what they are instead. -/
def reserved : List (String × Token.Kind) :=
  [ ("let", .keyword .let), ("if", .keyword .if), ("else", .keyword .else),
    ("while", .keyword .while), ("print", .keyword .print), ("function", .keyword .function),
    ("return", .keyword .return), ("true", .boolean true), ("false", .boolean false),
    ("Infinity", .number Number.infinity) ]

def Digits (cs : List Char) : Prop := cs ≠ [] ∧ ∀ c ∈ cs, Number.isDigit c = true

/-- The texts of each form, with what their tokens are. -/
inductive Lexeme : Form → List Char → Token.Kind → Prop where
  | whole {digits} : Digits digits → Lexeme .whole digits (.number (literalValue digits []))
  | fractional {digits fraction} : Digits digits → Digits fraction →
      Lexeme .fractional (digits ++ '.' :: fraction) (.number (literalValue digits fraction))
  | reserved {word kind} : (word, kind) ∈ reserved → Lexeme .word word.toList kind
  | name {c cs} : opensWord c = true → (∀ d ∈ cs, continuesWord d = true) →
      String.ofList (c :: cs) ∉ Lexical.reserved.map Prod.fst →
      Lexeme .word (c :: cs) (.identifier (String.ofList (c :: cs)))
  | symbol (sign) : Lexeme (.symbol sign) sign.spelling.toList (.symbol sign)

/-- The characters that a lexeme of a form cannot be followed by, since they lengthen it. A number
does not run into a word either. -/
def Form.lengthenedBy : Form → Char → Bool
  | whole, c => Number.isDigit c || opensWord c || c == '.'
  | fractional, c => Number.isDigit c || opensWord c
  | word, c => continuesWord c
  | symbol .assign, c => c == '='
  | symbol .slash, c => c == '/'
  | symbol _, _ => false

/-! ## Decompositions -/

/-- A lexeme with the gap in front of it, and what its token is. -/
structure Piece where
  gap : List Char
  text : List Char
  kind : Token.Kind

def Piece.chars (piece : Piece) : List Char := piece.gap ++ piece.text

/-- A text is made of some pieces and a last gap. -/
inductive Decomposes : List Char → List Piece → List Char → Prop where
  | last {gap} : Gap [] gap → Decomposes gap [] gap
  | cons {gap form text kind rest pieces tail} :
      Gap (text ++ rest) gap → Lexeme form text kind →
      (∀ c ∈ rest.head?, form.lengthenedBy c = false) → Decomposes rest pieces tail →
      Decomposes (gap ++ (text ++ rest)) (⟨gap, text, kind⟩ :: pieces) tail

/-- The tokens of a decomposition from a position on, with the end of input as the last. -/
def tokens (loc : Location) : List Piece → List Char → List Token
  | [], tail => [⟨.endOfInput, "", ⟨loc.advance tail, loc.advance tail⟩⟩]
  | piece :: pieces, tail =>
    let start := loc.advance piece.gap
    let stop := start.advance piece.text
    ⟨piece.kind, String.ofList piece.text, ⟨start, stop⟩⟩ :: tokens stop pieces tail

end Lexical

end Treewalk
