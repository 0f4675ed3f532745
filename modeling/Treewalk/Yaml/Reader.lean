import Treewalk.Yaml.Scalar

/-! # Reading configuration files

The part of YAML that configuration files use: block mappings and lists nested by indentation, flow
mappings and lists on one line, plain and quoted scalars, comments, and one document with an
optional `---` in front. Anything else is refused.
-/

namespace Treewalk.Yaml

/-- A line with something on it: how far it is indented and what stands there. -/
structure Line where
  indent : Nat
  text : List Char

abbrev Parse (α : Type) := Option α

/-- What separates an indicator from what follows it. -/
def isInnerBlank (c : Char) : Bool := c == ' ' || c == '\t'

/-- Without blanks at the front. A tab is no blank between the parts of a text. -/
def trimStart (cs : List Char) : List Char := cs.dropWhile (· == ' ')

def trimEnd (cs : List Char) : List Char := (cs.reverse.dropWhile (· == ' ')).reverse

def nothingFollows (cs : List Char) : Bool := (trimStart cs).head?.all (· == '#')

def isAllowed (c : Char) : Bool :=
  let n := c.toNat
  n == 0x09 || n == 0x0A || n == 0x0D || (0x20 ≤ n && n ≤ 0x7E) || n == 0x85
    || (0xA0 ≤ n && n ≤ 0xFFFD) || 0x10000 ≤ n

def endsLine (c : Char) : Bool :=
  c == '\n' || c == '\r' || c.toNat == 0x85 || c.toNat == 0x2028 || c.toNat == 0x2029

def rawLines (cs : List Char) : List (List Char) :=
  cutAt '\n' (cs.map fun c => if endsLine c then '\n' else c)

/-- The lines with something other than a comment on them. -/
def contentLines : List (List Char) → List Line
  | [] => []
  | cs :: rest =>
    let text := trimStart cs
    if text.head?.all (· == '#') then contentLines rest
    else ⟨cs.length - text.length, trimEnd text⟩ :: contentLines rest

def hexEscape? (count : Nat) (cs : List Char) : Option (Char × List Char) :=
  let digits := cs.take count
  if digits.length == count && digits.all isHexDigit then
    some (Char.ofNat (baseValue 16 digits), cs.drop count)
  else none

def unescape? (c : Char) : Option Char :=
  match c with
  | '0' => some (Char.ofNat 0)
  | 'a' => some (Char.ofNat 7)
  | 'b' => some (Char.ofNat 8)
  | 't' | '\t' => some '\t'
  | 'n' => some '\n'
  | 'v' => some (Char.ofNat 11)
  | 'f' => some (Char.ofNat 12)
  | 'r' => some '\r'
  | 'e' => some (Char.ofNat 27)
  | ' ' => some ' '
  | '"' => some '"'
  | '/' => some '/'
  | '\\' => some '\\'
  | 'N' => some (Char.ofNat 0x85)
  | '_' => some (Char.ofNat 0xA0)
  | 'L' => some (Char.ofNat 0x2028)
  | 'P' => some (Char.ofNat 0x2029)
  | _ => none

/-- The rest of a double-quoted scalar and what follows it. Every round reads a character. -/
def doubleQuoted : Nat → List Char → Parse (List Char × List Char)
  | 0, _ => none
  | rounds + 1, cs =>
    match cs with
    | [] => none
    | '"' :: rest => some ([], rest)
    | '\\' :: c :: rest => do
      let (c, rest) ←
        match c with
        | 'x' => hexEscape? 2 rest
        | 'u' => hexEscape? 4 rest
        | 'U' => hexEscape? 8 rest
        | c => (unescape? c).map fun c => (c, rest)
      let (more, rest) ← doubleQuoted rounds rest
      some (c :: more, rest)
    | c :: rest => do
      let (more, rest) ← doubleQuoted rounds rest
      some (c :: more, rest)

/-- The rest of a single-quoted scalar and what follows it. -/
def singleQuoted : List Char → Parse (List Char × List Char)
  | [] => none
  | '\'' :: '\'' :: rest => do
    let (more, rest) ← singleQuoted rest
    some ('\'' :: more, rest)
  | '\'' :: rest => some ([], rest)
  | c :: rest => do
    let (more, rest) ← singleQuoted rest
    some (c :: more, rest)

/-- The characters that end a plain scalar inside flow collections. -/
def isFlowIndicator (c : Char) : Bool :=
  c == ',' || c == '[' || c == ']' || c == '\x7b' || c == '\x7d'

/-- A plain scalar at the front and what follows it: it ends at a colon before a blank, at a
comment, at a tab and, in a flow collection, at its indicators. -/
def plainScalar (inFlow afterBlank : Bool) : List Char → List Char × List Char
  | [] => ([], [])
  | c :: rest =>
    let colonEnds :=
      c == ':' && rest.head?.all fun d => isInnerBlank d || (inFlow && isFlowIndicator d)
    if colonEnds || (c == '#' && afterBlank) || c == '\t' || (inFlow && isFlowIndicator c) then
      ([], c :: rest)
    else
      let (more, tail) := plainScalar inFlow (c == ' ') rest
      (c :: more, tail)

def isIndicator (c : Char) : Bool := "\t#,[]\x7b\x7d&*!|>'\"%@`".toList.contains c

def opensPlain : List Char → Bool
  | [] => false
  | c :: rest =>
    !isIndicator c &&
      (!(c == '-' || c == '?' || c == ':') || rest.head?.any (!isInnerBlank ·))

/-- What a plain scalar stands for. The marks for a default value and for merging are no values. -/
def plainValue (text : List Char) : Parse Datum :=
  let text := String.ofList (trimEnd text)
  if text == "=" || text == "<<" then none else some (resolve text)

def scalar (inFlow : Bool) (cs : List Char) : Parse (Datum × List Char) :=
  match cs with
  | '"' :: rest => do
    let (text, tail) ← doubleQuoted (rest.length + 1) rest
    some (.text (String.ofList text), tail)
  | '\'' :: rest => do
    let (text, tail) ← singleQuoted rest
    some (.text (String.ofList text), tail)
  | cs =>
    if opensPlain cs then
      let (text, tail) := plainScalar inFlow false cs
      (plainValue text).map fun d => (d, tail)
    else none

/-- Sets a key of a mapping under construction. Lists and dictionaries cannot be keys. -/
def setEntry (key value : Datum) (entries : List (Datum × Datum)) : Parse (List (Datum × Datum)) :=
  match key.key? with
  | none => none
  | some k =>
    if entries.any (·.1.key? == some k) then
      some (entries.map fun e => if e.1.key? == some k then (e.1, value) else e)
    else some (entries ++ [(key, value)])

/-- The value after a colon in a flow collection; there may be none. -/
def flowValue (value : List Char → Parse (Datum × List Char)) (cs : List Char) :
    Parse (Datum × List Char) :=
  match trimStart cs with
  | c :: rest =>
    if c == ',' || c == ']' || c == '\x7d' then some (.null, c :: rest) else value (c :: rest)
  | [] => none

/-- The items of a flow list up to its bracket. Every round reads an item. -/
def flowItems (value : List Char → Parse (Datum × List Char)) :
    Nat → List Char → Parse (List Datum × List Char)
  | 0, _ => none
  | rounds + 1, cs =>
    match trimStart cs with
    | ']' :: rest => some ([], rest)
    | cs => do
      let (first, rest) ← value cs
      let (first, rest) ←
        match trimStart rest with
        | ':' :: rest => do
          let (v, rest) ← flowValue value rest
          let entries ← setEntry first v []
          some (Datum.dict entries, rest)
        | rest => some (first, rest)
      match trimStart rest with
      | ',' :: rest => do
        let (others, rest) ← flowItems value rounds rest
        some (first :: others, rest)
      | ']' :: rest => some ([first], rest)
      | _ => none

/-- The entries of a flow mapping up to its brace. Every round reads an entry. -/
def flowEntries (value : List Char → Parse (Datum × List Char)) :
    Nat → List (Datum × Datum) → List Char → Parse (List (Datum × Datum) × List Char)
  | 0, _, _ => none
  | rounds + 1, sofar, cs =>
    match trimStart cs with
    | '\x7d' :: rest => some (sofar, rest)
    | cs => do
      let (key, rest) ← value cs
      let (v, rest) ←
        match trimStart rest with
        | ':' :: rest => flowValue value rest
        | rest => some (.null, rest)
      let sofar ← setEntry key v sofar
      match trimStart rest with
      | ',' :: rest => flowEntries value rounds sofar rest
      | '\x7d' :: rest => some (sofar, rest)
      | _ => none

/-- A flow collection or scalar nested less deeply than the limit, and what follows it. -/
def flow : (limit : Nat) → List Char → Parse (Datum × List Char)
  | 0, _ => none
  | limit + 1, cs =>
    match cs with
    | '[' :: rest => do
      let (items, tail) ← flowItems (flow limit) (rest.length + 1) rest
      some (.list items, tail)
    | '\x7b' :: rest => do
      let (entries, tail) ← flowEntries (flow limit) (rest.length + 1) [] rest
      some (.dict entries, tail)
    | cs => scalar true cs

/-- The key in front of a colon, and what follows the colon. A colon without a key has the key
null. -/
def splitKey? (cs : List Char) : Option (Datum × List Char) := do
  let (key, rest) ←
    match cs with
    | ':' :: rest => if rest.head?.all isInnerBlank then some (.null, cs) else scalar false cs
    | '[' :: _ | '\x7b' :: _ => flow (cs.length + 1) cs
    | cs => scalar false cs
  match trimStart rest with
  | ':' :: rest => if rest.head?.all isInnerBlank then some (key, trimStart rest) else none
  | _ => none

def isItem (cs : List Char) : Bool :=
  match cs with
  | '-' :: rest => rest.head?.all isInnerBlank
  | _ => false

/-- The further lines of a plain scalar: all that are indented far enough. -/
def takeContinuation (indent : Nat) : List Line → List (List Char) × List Line
  | [] => ([], [])
  | line :: rest =>
    if indent ≤ line.indent then
      let (more, tail) := takeContinuation indent rest
      (line.text :: more, tail)
    else ([], line :: rest)

/-- A value that begins on a line; a plain scalar goes on over the lines that are indented by at
least `indent`, joined by blanks. -/
def inlineValue (indent : Nat) (cs : List Char) (rest : List Line) :
    Parse (Datum × List Line) :=
  match cs with
  | '[' :: _ | '\x7b' :: _ => do
    let (d, tail) ← flow (cs.length + 1) cs
    if nothingFollows tail then some (d, rest) else none
  | '"' :: _ | '\'' :: _ => do
    let (d, tail) ← scalar false cs
    if nothingFollows tail then some (d, rest) else none
  | cs =>
    if opensPlain cs then
      let (text, tail) := plainScalar false false cs
      if !(tail.isEmpty || tail.head? == some '#') then none
      else if tail.isEmpty then
        let (more, rest) := takeContinuation indent rest
        let parts := more.map (plainScalar false false)
        if parts.all (fun part => part.2.isEmpty || part.2.head? == some '#') then
          let texts := trimEnd text :: parts.map fun part => trimEnd part.1
          (plainValue ([' '].intercalate texts)).map fun d => (d, rest)
        else none
      else (plainValue text).map fun d => (d, rest)
    else none

mutual

def blockItems : (fuel : Nat) → (indent : Nat) → List Line → Parse (List Datum × List Line)
  | 0, _, _ => none
  | fuel + 1, indent, lines =>
    match lines with
    | line :: rest =>
      if line.indent == indent && isItem line.text then do
        let content := trimStart (line.text.drop 1)
        let (first, rest) ←
          if content.isEmpty || content.head? == some '#' then
            blockNode fuel (indent + 1) rest
          else
            let inner := indent + (line.text.length - content.length)
            blockNode fuel (indent + 1) (⟨inner, content⟩ :: rest)
        let (others, rest) ← blockItems fuel indent rest
        some (first :: others, rest)
      else if line.indent > indent then none
      else some ([], lines)
    | [] => some ([], [])

def blockEntries : (fuel : Nat) → (indent : Nat) → List (Datum × Datum) → List Line →
    Parse (List (Datum × Datum) × List Line)
  | 0, _, _, _ => none
  | fuel + 1, indent, sofar, lines =>
    match lines with
    | line :: rest =>
      if line.indent == indent then do
        let (key, content) ← splitKey? line.text
        let (value, rest) ←
          if content.isEmpty || content.head? == some '#' then
            match rest with
            | next :: _ =>
              if next.indent == indent && isItem next.text then do
                let (items, rest) ← blockItems fuel indent rest
                some (Datum.list items, rest)
              else blockNode fuel (indent + 1) rest
            | [] => some (.null, [])
          else inlineValue (indent + 1) content rest
        let sofar ← setEntry key value sofar
        blockEntries fuel indent sofar rest
      else if line.indent > indent then none
      else some (sofar, lines)
    | [] => some (sofar, [])

/-- What stands on the lines that are indented by at least `indent`. -/
def blockNode : (fuel : Nat) → (indent : Nat) → List Line → Parse (Datum × List Line)
  | 0, _, _ => none
  | fuel + 1, indent, lines =>
    match lines with
    | line :: rest =>
      if line.indent < indent then some (.null, lines)
      else if isItem line.text then do
        let (items, rest) ← blockItems fuel line.indent lines
        some (.list items, rest)
      else
        match splitKey? line.text with
        | some _ => do
          let (entries, rest) ← blockEntries fuel line.indent [] lines
          some (.dict entries, rest)
        | none => inlineValue indent line.text rest
    | [] => some (.null, [])

end

def isDocumentStart (line : Line) : Bool :=
  line.indent == 0 && "---".toList.isPrefixOf line.text
    && (line.text.drop 3).head?.all isInnerBlank

def isDocumentEnd (line : Line) : Bool := line.indent == 0 && line.text == "...".toList

/-- What stands on the lines of a document. A value on the line of the mark in front of it is no
block collection. -/
def documentNode (lines : List Line) : Parse (Datum × List Line) :=
  let fuel := lines.foldl (fun n line => n + line.text.length + 2) 3
  match lines with
  | first :: rest =>
    if isDocumentStart first then
      let content := trimStart (first.text.drop 3)
      if content.head?.all (· == '#') then blockNode fuel 0 rest
      else inlineValue 0 content rest
    else blockNode fuel 0 lines
  | [] => some (.null, [])

def read? (text : String) : Option Datum := do
  let cs := text.toList
  let cs := if cs.head? == some (Char.ofNat 0xFEFF) then cs.drop 1 else cs
  if !cs.all isAllowed then none
  else
    let lines := contentLines (rawLines cs)
    let lines := (lines.reverse.dropWhile isDocumentEnd).reverse
    if (lines.drop 1).any isDocumentStart then none
    else
      let (d, rest) ← documentNode lines
      if rest.isEmpty then some d else none

end Treewalk.Yaml
