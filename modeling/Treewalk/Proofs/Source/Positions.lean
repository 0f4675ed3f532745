import Treewalk.Proofs.Source.Cutting

/-! # Positions are exact

Line, column and offset of a position are counted character by character. The position at an offset
can also be told from the characters in front of it: how many line feeds there are, and how many
characters come after the last of them. Every token and every fault of a scan has its place from the
one to the other of two such positions, and the places follow each other.
-/

namespace Treewalk

open Lexer Lexical

/-! ## Counting leads to the right position -/

/-- The position after some characters of a text. The line is one more than the line feeds among
them, and the column one more than the characters after the last of these. -/
def Location.after (file : Option String) (cs : List Char) : Location where
  line := 1 + cs.count '\n'
  column := 1 + (cs.reverse.takeWhile (· != '\n')).length
  offset := cs.length
  file := file

example : Location.after none ['a', '\r', '\n', 'b', 'c'] = ⟨2, 3, 5, none⟩ := by decide

theorem Location.step_after (file : Option String) (cs : List Char) (c : Char) :
    (Location.after file cs).step c = Location.after file (cs ++ [c]) := by
  unfold Location.step Location.after
  split
  next hfeed =>
    subst hfeed
    simp [Int.add_assoc]
  next hother =>
    have hkept : (c != '\n') = true := by simpa using hother
    simp [hother, hkept, Int.add_assoc]

/-- Moving over a text is the location after it. -/
theorem Location.advance_after (file : Option String) (before cs : List Char) :
    (Location.after file before).advance cs = Location.after file (before ++ cs) := by
  induction cs generalizing before with
  | nil => rw [List.append_nil]; rfl
  | cons c cs ih =>
      have hstep := ih (before ++ [c])
      rw [← step_after, List.append_assoc] at hstep
      exact hstep

/-! ## What the scanner takes off a text -/

/-- A number that letters follow is at fault together with them. -/
theorem closeNumber_fault {text rest text' rest' : List Char} {value : Float} {fault : LexFault}
    (h : closeNumber text value rest = .fault fault text' rest') :
    text ++ rest = text' ++ rest' ∧ ∃ more, text' = text ++ more := by
  unfold closeNumber at h
  split at h
  next c rest =>
    split at h
    next =>
      cases h
      refine ⟨?_, _, rfl⟩
      rw [List.append_assoc, List.takeWhile_append_dropWhile]
    next => cases h
  next => cases h

theorem scanNumber_fault {c : Char} {cs text rest : List Char} {fault : LexFault}
    (hdigit : Number.isDigit c = true) (h : scanNumber (c :: cs) = .fault fault text rest) :
    c :: cs = text ++ rest ∧ text ≠ [] := by
  have hsplit :
      (c :: cs).takeWhile Number.isDigit ++ (c :: cs).dropWhile Number.isDigit = c :: cs :=
    List.takeWhile_append_dropWhile
  have hdigits : (c :: cs).takeWhile Number.isDigit ≠ [] := by
    rw [List.takeWhile_cons_of_pos hdigit]
    exact List.cons_ne_nil _ _
  unfold scanNumber at h
  dsimp only at h
  generalize (c :: cs).takeWhile Number.isDigit = whole at h hsplit hdigits
  split at h
  next after hafter =>
    rw [hafter] at hsplit
    split at h
    next =>
      cases h
      exact ⟨by rw [← hsplit]; simp, by simp⟩
    next =>
      obtain ⟨happend, more, rfl⟩ := closeNumber_fault h
      refine ⟨?_, by simp [hdigits]⟩
      rw [← happend, ← hsplit, List.append_assoc, List.cons_append,
        List.takeWhile_append_dropWhile]
  next =>
    obtain ⟨happend, more, rfl⟩ := closeNumber_fault h
    exact ⟨by rw [← happend, hsplit], by simp [hdigits]⟩

theorem scanSymbol_fault {cs text rest : List Char} {fault : LexFault}
    (h : scanSymbol cs = .fault fault text rest) : cs = text ++ rest ∧ text ≠ [] := by
  unfold scanSymbol at h
  split at h <;> try cases h
  · exact ⟨rfl, List.cons_ne_nil _ _⟩
  · exact ⟨rfl, List.cons_ne_nil _ _⟩
  · exact ⟨rfl, List.cons_ne_nil _ _⟩
  · split at h <;> cases h
    exact ⟨rfl, List.cons_ne_nil _ _⟩

/-- A fault is about the characters at the front of a text. -/
theorem scanLexeme_fault {cs text rest : List Char} {fault : LexFault}
    (h : scanLexeme cs = .fault fault text rest) : cs = text ++ rest ∧ text ≠ [] := by
  unfold scanLexeme at h
  split at h
  next c cs =>
    split at h
    next hdigit => exact scanNumber_fault hdigit h
    next =>
      split at h
      next => cases h
      next => exact scanSymbol_fault h
  next => cases h

/-! ## How a scan goes -/

def Span.after (file : Option String) (before text : List Char) : Span :=
  ⟨.after file before, .after file (before ++ text)⟩

/-- The scans of a text that comes after some characters. There is a last gap and the end of input,
or a gap and a fault, or a gap and a token and then a scan of the rest. -/
inductive Scanned (file : Option String) : List Char → List Char → Scan → Prop where
  | complete {before gap} :
      Scanned file before gap
        ⟨[⟨.endOfInput, "", Span.after file (before ++ gap) []⟩], none,
          .after file (before ++ gap)⟩
  | faulty {before gap text rest fault} : text ≠ [] →
      Scanned file before (gap ++ (text ++ rest))
        ⟨[], some (fault, Span.after file (before ++ gap) text),
          .after file (before ++ gap ++ text)⟩
  | token {before gap text rest kind more} : text ≠ [] → kind.isEnd = false →
      Scanned file (before ++ gap ++ text) rest more →
      Scanned file before (gap ++ (text ++ rest))
        { more with
          tokens := ⟨kind, String.ofList text, Span.after file (before ++ gap) text⟩ ::
            more.tokens }

/-- With more rounds than characters, the scanner gets through the text. -/
theorem scanFrom_scanned {rounds : Nat} {cs : List Char} (file : Option String)
    (before : List Char) (hrounds : cs.length < rounds) :
    Scanned file before cs (scanFrom rounds (.after file before) cs) := by
  induction rounds generalizing before cs with
  | zero => exact absurd hrounds (Nat.not_lt_zero _)
  | succ rounds ih =>
      have happend := splitGap_append false cs
      have hnoGap := splitGap_noGap false cs
      unfold scanFrom
      generalize splitGap false cs = split at happend hnoGap ⊢
      obtain ⟨gap, after⟩ := split
      dsimp only at happend hnoGap ⊢
      subst happend
      rw [Location.advance_after]
      cases after with
      | nil =>
          have hcomplete := @Scanned.complete file before gap
          unfold Span.after at hcomplete
          rw [List.append_nil] at hcomplete ⊢
          exact hcomplete
      | cons c after =>
          simp only [List.isEmpty_cons, Bool.false_eq_true, ↓reduceIte]
          cases hscan : scanLexeme (c :: after) with
          | fault fault text rest =>
              obtain ⟨hsplit, htext⟩ := scanLexeme_fault hscan
              dsimp only
              rw [hsplit, Location.advance_after]
              exact .faulty htext
          | token kind text rest =>
              obtain ⟨form, hsplit, hlexeme, _⟩ :=
                scanLexeme_inv hnoGap (List.cons_ne_nil _ _) hscan
              rw [hsplit] at hrounds ⊢
              have hpos := List.length_pos_iff.mpr hlexeme.ne_nil
              have hlength : rest.length < rounds := by
                simp only [List.length_append] at hrounds
                omega
              dsimp only
              rw [Location.advance_after]
              exact .token hlexeme.ne_nil hlexeme.isEnd_eq_false (ih _ hlength)

/-! ## Exact spans -/

namespace Source

variable {source : Source} {before gap text rest : List Char}

def positionAt (source : Source) (offset : Nat) : Location :=
  .after source.file (source.text.toList.take offset)

/-- A span goes from one position of a source to another one that is not before it. -/
structure ExactSpan (source : Source) (span : Span) : Prop where
  start : span.start = source.positionAt span.start.offset
  stop : span.stop = source.positionAt span.stop.offset
  ordered : span.start.offset ≤ span.stop.offset
  inside : span.stop.offset ≤ source.text.length

/-- A token has the text that its span cuts out of the source. The text is not empty, except at the
end of input, which stands where the source ends. -/
structure ExactToken (source : Source) (token : Token) : Prop where
  span : source.ExactSpan token.span
  lexeme : token.lexeme = source.cut token.span
  nonempty : token.kind ≠ .endOfInput → token.lexeme ≠ ""
  atEnd : token.kind = .endOfInput →
    token.span.start.offset = source.text.length ∧ token.span.stop.offset = source.text.length

/-- All tokens of a scan are exact and follow each other. So does the fault, if there is one, which
is about some characters of the source. The end of input is found exactly if there is none, and is
the last of the tokens. -/
structure ExactScan (source : Source) (scan : Scan) : Prop where
  tokens : ∀ token ∈ scan.tokens, source.ExactToken token
  inOrder : scan.tokens.Pairwise fun a b => a.span.stop.offset ≤ b.span.start.offset
  fault : ∀ fault span, scan.fault = some (fault, span) →
    source.ExactSpan span ∧ span.start.offset < span.stop.offset ∧
      (∀ token ∈ scan.tokens, token.span.stop.offset ≤ span.start.offset) ∧
      ∀ token ∈ scan.tokens, token.kind ≠ .endOfInput
  complete : scan.fault = none → ∃ body last, scan.tokens = body ++ [last] ∧
    last.kind = .endOfInput ∧ ∀ token ∈ body, token.kind ≠ .endOfInput

/-- The position at an offset is the location after as many characters. -/
theorem positionAt_length (h : source.text.toList = before ++ rest) :
    source.positionAt before.length = .after source.file before := by
  rw [positionAt, h, List.take_left]

/-- A span between two locations of the text is exact. -/
theorem exactSpan_after (h : source.text.toList = before ++ (text ++ rest)) :
    source.ExactSpan (.after source.file before text) where
  start := (positionAt_length h).symm
  stop := by
    rw [← List.append_assoc] at h
    exact (positionAt_length h).symm
  ordered := by simp [Span.after, Location.after]
  inside := by
    rw [← String.length_toList, h]
    simp [Span.after, Location.after]

theorem cut_after (h : source.text.toList = before ++ (text ++ rest)) :
    source.cut (.after source.file before text) = String.ofList text := by
  unfold cut
  rw [h]
  simp [Span.after, Location.after]

/-- A scan is exact, and all that it finds is at some offset or after it. -/
structure ExactFrom (source : Source) (offset : Nat) (scan : Scan) : Prop where
  exact : source.ExactScan scan
  tokens : ∀ token ∈ scan.tokens, offset ≤ token.span.start.offset
  fault : ∀ fault span, scan.fault = some (fault, span) → offset ≤ span.start.offset

/-- Where only a gap is left, the end of the input is exact. -/
theorem exactFrom_complete (htext : source.text.toList = before ++ gap) :
    source.ExactFrom before.length
      ⟨[⟨.endOfInput, "", Span.after source.file (before ++ gap) []⟩], none,
        .after source.file (before ++ gap)⟩ := by
  have hend : source.text.length = (before ++ gap).length := by
    rw [← String.length_toList, htext]
  have hspan : source.text.toList = (before ++ gap) ++ ([] ++ []) := by simpa using htext
  have htoken : source.ExactToken
      ⟨.endOfInput, "", Span.after source.file (before ++ gap) []⟩ :=
    { span := exactSpan_after hspan
      lexeme := (cut_after hspan).symm
      nonempty := fun hne => absurd rfl hne
      atEnd := fun _ => by simp [hend, Span.after, Location.after] }
  refine ⟨⟨?_, ?_, ?_, ?_⟩, ?_, ?_⟩
  · simpa using htoken
  · exact List.pairwise_singleton _ _
  · rintro _ _ ⟨⟩
  · exact fun _ => ⟨[], _, rfl, rfl, List.forall_mem_nil _⟩
  · simp [Span.after, Location.after]
  · rintro _ _ ⟨⟩

/-- The span of a fault is exact. -/
theorem exactFrom_faulty {fault : LexFault} (hne : text ≠ [])
    (htext : source.text.toList = before ++ (gap ++ (text ++ rest))) :
    source.ExactFrom before.length
      ⟨[], some (fault, Span.after source.file (before ++ gap) text),
        .after source.file (before ++ gap ++ text)⟩ := by
  have hspan : source.text.toList = (before ++ gap) ++ (text ++ rest) := by simpa using htext
  refine ⟨⟨?_, ?_, ?_, ?_⟩, ?_, ?_⟩
  · exact List.forall_mem_nil _
  · exact .nil
  · rintro _ _ ⟨⟩
    refine ⟨exactSpan_after hspan, ?_, List.forall_mem_nil _, List.forall_mem_nil _⟩
    simpa [Span.after, Location.after] using List.length_pos_iff.mpr hne
  · rintro ⟨⟩
  · exact List.forall_mem_nil _
  · rintro _ _ ⟨⟩
    simp [Span.after, Location.after]

/-- A token in front of an exact scan of the rest. -/
theorem ExactFrom.token {kind : Token.Kind} {more : Scan} (hne : text ≠ [])
    (hkind : kind ≠ .endOfInput)
    (htext : source.text.toList = before ++ (gap ++ (text ++ rest)))
    (h : source.ExactFrom (before ++ gap ++ text).length more) :
    source.ExactFrom before.length
      { more with
        tokens := ⟨kind, String.ofList text, Span.after source.file (before ++ gap) text⟩ ::
          more.tokens } := by
  have hspan : source.text.toList = (before ++ gap) ++ (text ++ rest) := by simpa using htext
  have htoken : source.ExactToken
      ⟨kind, String.ofList text, Span.after source.file (before ++ gap) text⟩ :=
    { span := exactSpan_after hspan
      lexeme := (cut_after hspan).symm
      nonempty := fun _ => by simpa using hne
      atEnd := fun hend => absurd hend hkind }
  have hstart : before.length ≤ (Span.after source.file (before ++ gap) text).start.offset := by
    simp [Span.after, Location.after]
  -- all that comes later begins at the end of this token or after it
  have hlater : before.length ≤ (before ++ gap ++ text).length := by simp
  refine ⟨⟨?_, ?_, ?_, ?_⟩, ?_, ?_⟩
  · exact List.forall_mem_cons.mpr ⟨htoken, h.exact.tokens⟩
  · exact .cons h.tokens h.exact.inOrder
  · intro fault span hfault
    obtain ⟨hexact, hlength, hbefore, hnone⟩ := h.exact.fault fault span hfault
    exact ⟨hexact, hlength, List.forall_mem_cons.mpr ⟨h.fault fault span hfault, hbefore⟩,
      List.forall_mem_cons.mpr ⟨hkind, hnone⟩⟩
  · intro hnone
    obtain ⟨body, last, htokens, hlast, hbody⟩ := h.exact.complete hnone
    exact ⟨_ :: body, last, congrArg _ htokens, hlast, List.forall_mem_cons.mpr ⟨hkind, hbody⟩⟩
  · refine List.forall_mem_cons.mpr ⟨hstart, fun token hmem => ?_⟩
    exact Nat.le_trans hlater (h.tokens token hmem)
  · exact fun fault span hfault => Nat.le_trans hlater (h.fault fault span hfault)

/-- What was scanned from a place in the text is exact from there. -/
theorem exactFrom_of_scanned {cs : List Char} {scan : Scan}
    (h : Scanned source.file before cs scan) (htext : source.text.toList = before ++ cs) :
    source.ExactFrom before.length scan := by
  induction h with
  | complete => exact exactFrom_complete htext
  | faulty hne => exact exactFrom_faulty hne htext
  | token hne hkind _ ih =>
      refine ExactFrom.token hne ?_ htext (ih (by simpa using htext))
      rintro rfl
      cases hkind

theorem exactScan_scan (source : Source) : source.ExactScan source.scan :=
  (exactFrom_of_scanned (scanFrom_scanned source.file [] (Nat.lt_succ_self _)) rfl).exact

/-- The tokens of a source are those of its scan, which has found no fault. -/
theorem scan_of_tokens_ok {source : Source} {tokens : List Token} (h : source.tokens = .ok tokens) :
    source.scan.fault = none ∧ source.scan.tokens = tokens := by
  unfold Source.tokens at h
  dsimp only at h
  split at h
  · cases h
  next hfault =>
    cases h
    exact ⟨hfault, rfl⟩

/-- The error of a source is about the fault of its scan. -/
theorem scan_of_tokens_error {source : Source} {error : LexError}
    (h : source.tokens = .error error) :
    source.scan.fault = some (error.fault, error.span) ∧
      error.sourceLine = Text.shownLine? source.text error.span.start.line := by
  unfold Source.tokens at h
  dsimp only at h
  split at h
  next hfault =>
    cases h
    exact ⟨hfault, rfl⟩
  · cases h

/-- Positions are exact. Whatever is read from a source, each token and the error, if there is one,
has a span between two positions of the source: their lines and columns are those that the line
feeds in front of them give. The tokens have the texts that their spans cut out, they follow each
other, and the error comes after all of them. Without an error the end of input is the last token.
It stands at the end of the source, and no other token is empty. -/
theorem scan_exact (source : Source) :
    source.ExactScan source.scan ∧
      (∀ tokens, source.tokens = .ok tokens →
        source.scan.fault = none ∧ source.scan.tokens = tokens) ∧
      ∀ error, source.tokens = .error error →
        source.scan.fault = some (error.fault, error.span) :=
  ⟨exactScan_scan source, fun _ h => scan_of_tokens_ok h, fun _ h => (scan_of_tokens_error h).1⟩

end Source

end Treewalk
