import Treewalk.Number.Digits
import Treewalk.Source.Diagnostic
import Treewalk.Source.Token
import Treewalk.Text.Letter
import Treewalk.Text.Lines

/-! # From characters to tokens

A source text is a sequence of gaps (blanks and comments) and lexemes. `splitGap` takes the longest
gap off the front, `scanLexeme` the longest lexeme; `scan` alternates the two and keeps track of
positions.
-/

namespace Treewalk

inductive LexFault where
  | unexpectedCharacter (c : Char)
  | invalidNumber (text : String)
  | incompleteOperator (text expected : String)
  deriving DecidableEq, Repr, Inhabited

/-- A fault with its place and the source line shown for it. -/
structure LexError where
  fault : LexFault
  span : Span
  sourceLine : Option String
  deriving Repr, Inhabited

namespace LexFault

def code : LexFault → String
  | unexpectedCharacter _ => "E001"
  | invalidNumber _ => "E002"
  | incompleteOperator .. => "E003"

def message : LexFault → String
  | unexpectedCharacter c => "unexpected character '" ++ String.ofList [c] ++ "'"
  | invalidNumber text => "invalid number literal '" ++ text ++ "'"
  | incompleteOperator text _ => "unexpected '" ++ text ++ "'"

def hints : LexFault → List String
  | unexpectedCharacter _ => []
  | invalidNumber _ => ["number literals need digits on both sides of '.': 0.5, 12.25"]
  | incompleteOperator _ expected => ["did you mean '" ++ expected ++ "'?"]

end LexFault

def LexError.diagnostic (e : LexError) : Diagnostic :=
  { code := e.fault.code
    message := e.fault.message
    span := some e.span
    sourceLine := e.sourceLine
    hints := e.fault.hints }

namespace Lexer

/-- The characters that separate tokens and mean nothing else. -/
def isBlank (c : Char) : Bool := c == ' ' || c == '\t' || c == '\r' || c == '\n'

def opensWord (c : Char) : Bool := Text.isLetter c || c == '_'

def continuesWord (c : Char) : Bool := Text.isAlphanumeric c || c == '_'

/-- Splits off the blanks and comments at the front. A comment runs from `//` up to the next line
feed; `inComment` says that one is open. -/
def splitGap (inComment : Bool) : List Char → List Char × List Char
  | [] => ([], [])
  | c :: rest =>
    if inComment then
      let (gap, tail) := splitGap (c != '\n') rest
      (c :: gap, tail)
    else if isBlank c then
      let (gap, tail) := splitGap false rest
      (c :: gap, tail)
    else if c == '/' && rest.head? == some '/' then
      let (gap, tail) := splitGap true rest
      (c :: gap, tail)
    else ([], c :: rest)

/-- What stands at the front of a text that begins with no gap. -/
inductive Lexeme where
  | token (kind : Token.Kind) (text rest : List Char)
  | fault (fault : LexFault) (text rest : List Char)

/-- The double nearest to a number literal, given its digits on both sides of the point. -/
def literalValue (whole fraction : List Char) : Float :=
  Number.ofDecimal false (Number.digitsValue (whole ++ fraction)) (-(fraction.length : Int))

/-- A number literal may not run into a word. -/
def closeNumber (text : List Char) (value : Float) (rest : List Char) : Lexeme :=
  match rest with
  | c :: _ =>
    if opensWord c then
      let text := text ++ rest.takeWhile continuesWord
      .fault (.invalidNumber (String.ofList text)) text (rest.dropWhile continuesWord)
    else .token (.number value) text rest
  | [] => .token (.number value) text rest

/-- Digits, then perhaps a point with digits after it. -/
def scanNumber (cs : List Char) : Lexeme :=
  let whole := cs.takeWhile Number.isDigit
  match cs.dropWhile Number.isDigit with
  | '.' :: rest =>
    let fraction := rest.takeWhile Number.isDigit
    if fraction.isEmpty then
      let text := whole ++ ['.']
      .fault (.invalidNumber (String.ofList text)) text rest
    else
      closeNumber (whole ++ '.' :: fraction) (literalValue whole fraction)
        (rest.dropWhile Number.isDigit)
  | rest => closeNumber whole (literalValue whole []) rest

/-- A letter or underscore, then letters, numerals and underscores. -/
def scanWord (cs : List Char) : Lexeme :=
  let word := cs.takeWhile continuesWord
  .token (Token.kindOfWord (String.ofList word)) word (cs.dropWhile continuesWord)

/-- The symbols of one character that begin no longer symbol. -/
def singleSymbol? : Char → Option Symbol
  | '+' => some .plus
  | '-' => some .minus
  | '*' => some .star
  | '/' => some .slash
  | '<' => some .less
  | '>' => some .greater
  | '(' => some .leftParen
  | ')' => some .rightParen
  | '\x7b' => some .leftBrace
  | '\x7d' => some .rightBrace
  | ',' => some .comma
  | ';' => some .semicolon
  | _ => none

def scanSymbol : List Char → Lexeme
  | '=' :: '=' :: '=' :: rest => .token (.symbol .strictEqual) ['=', '=', '='] rest
  | '=' :: '=' :: rest => .fault (.incompleteOperator "==" "===") ['=', '='] rest
  | '=' :: rest => .token (.symbol .assign) ['='] rest
  | '&' :: '&' :: rest => .token (.symbol .and) ['&', '&'] rest
  | '&' :: rest => .fault (.incompleteOperator "&" "&&") ['&'] rest
  | '|' :: '|' :: rest => .token (.symbol .or) ['|', '|'] rest
  | '|' :: rest => .fault (.incompleteOperator "|" "||") ['|'] rest
  | c :: rest =>
    match singleSymbol? c with
    | some symbol => .token (.symbol symbol) [c] rest
    | none => .fault (.unexpectedCharacter c) [c] rest
  | [] => .token .endOfInput [] []

def scanLexeme (cs : List Char) : Lexeme :=
  match cs with
  | c :: _ =>
    if Number.isDigit c then scanNumber cs
    else if opensWord c then scanWord cs
    else scanSymbol cs
  | [] => .token .endOfInput [] []

/-- Everything read from a source: the tokens up to the end of input or the first fault, that fault,
and the position at which reading stopped. -/
structure Scan where
  tokens : List Token
  fault : Option (LexFault × Span)
  stop : Location

/-- Reads tokens from a position on. Every lexeme has a character, so as many rounds as there are
characters, and one more for the end of input, are enough. -/
def scanFrom : Nat → Location → List Char → Scan
  | 0, loc, _ => ⟨[], none, loc⟩
  | rounds + 1, loc, cs =>
    let (gap, cs) := splitGap false cs
    let start := loc.advance gap
    if cs.isEmpty then ⟨[⟨.endOfInput, "", ⟨start, start⟩⟩], none, start⟩
    else
      match scanLexeme cs with
      | .token kind text rest =>
        let stop := start.advance text
        let more := scanFrom rounds stop rest
        { more with tokens := ⟨kind, String.ofList text, ⟨start, stop⟩⟩ :: more.tokens }
      | .fault fault text _ =>
        let stop := start.advance text
        ⟨[], some (fault, ⟨start, stop⟩), stop⟩

end Lexer

/-- A source text with the name under which diagnostics mention it. -/
structure Source where
  text : String
  file : Option String := none
  deriving Repr, Inhabited

namespace Source

def scan (source : Source) : Lexer.Scan :=
  let cs := source.text.toList
  Lexer.scanFrom (cs.length + 1) { file := source.file } cs

/-- The tokens of a source, ending with the end of input, or the fault that stops the scan with the
source line it is shown with. -/
def tokens (source : Source) : Except LexError (List Token) :=
  let scan := source.scan
  match scan.fault with
  | some (fault, span) => .error ⟨fault, span, Text.shownLine? source.text span.start.line⟩
  | none => .ok scan.tokens

end Source

end Treewalk
