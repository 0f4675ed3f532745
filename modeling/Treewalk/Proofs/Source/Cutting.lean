import Treewalk.Proofs.Source.Scanning
import Treewalk.Proofs.Syntax.Grammar

/-! # Cuts of a source text

The span of some lexemes that follow each other cuts their text out of the source. Read on its own,
the cut is taken apart into the same lexemes: what follows a lexeme in the cut is what followed it
in the source, or nothing.
-/

namespace Treewalk

/-- Locations move over a text piece by piece. -/
theorem Location.advance_append (loc : Location) (cs ds : List Char) :
    loc.advance (cs ++ ds) = (loc.advance cs).advance ds :=
  List.foldl_append

theorem Location.offset_advance (loc : Location) (cs : List Char) :
    (loc.advance cs).offset = loc.offset + cs.length := by
  induction cs generalizing loc with
  | nil => rfl
  | cons c cs ih =>
      have hstep : (loc.step c).offset = loc.offset + 1 := by
        unfold Location.step
        split <;> rfl
      have hrest := ih (loc.step c)
      rw [hstep] at hrest
      rw [List.length_cons]
      exact hrest.trans (by omega)

namespace Lexical

variable {cs gap rest tail : List Char} {piece : Piece} {pieces before others : List Piece}
  {loc : Location}

def chars (pieces : List Piece) : List Char := pieces.flatMap Piece.chars

@[simp] theorem chars_nil : chars [] = [] := rfl

@[simp] theorem chars_cons :
    chars (piece :: pieces) = piece.gap ++ (piece.text ++ chars pieces) := by
  simp [chars, Piece.chars]

@[simp] theorem chars_append : chars (pieces ++ others) = chars pieces ++ chars others :=
  List.flatMap_append

def lexemeTokens (loc : Location) : List Piece → List Token
  | [] => []
  | piece :: pieces =>
    let start := loc.advance piece.gap
    let stop := start.advance piece.text
    ⟨piece.kind, String.ofList piece.text, ⟨start, stop⟩⟩ :: lexemeTokens stop pieces

/-- The end of input comes after the tokens of all pieces. -/
theorem tokens_eq_append (loc : Location) (pieces : List Piece) (tail : List Char) :
    ∃ stop, tokens loc pieces tail =
      lexemeTokens loc pieces ++ [⟨.endOfInput, "", ⟨stop, stop⟩⟩] := by
  induction pieces generalizing loc with
  | nil => exact ⟨_, rfl⟩
  | cons piece pieces ih =>
      obtain ⟨stop, htokens⟩ := ih ((loc.advance piece.gap).advance piece.text)
      exact ⟨stop, congrArg _ htokens⟩

theorem kind_lexemeTokens (loc : Location) (pieces : List Piece) :
    (lexemeTokens loc pieces).map (·.kind) = pieces.map (·.kind) := by
  induction pieces generalizing loc with
  | nil => rfl
  | cons piece pieces ih => exact congrArg _ (ih _)

/-- Tokens are divided as the pieces are. -/
theorem exists_split {tokens more : List Token} (h : lexemeTokens loc pieces = tokens ++ more) :
    ∃ first second, pieces = first ++ second ∧ lexemeTokens loc first = tokens ∧
      lexemeTokens (loc.advance (chars first)) second = more := by
  induction tokens generalizing loc pieces with
  | nil => exact ⟨[], pieces, rfl, rfl, h⟩
  | cons token tokens ih =>
      cases pieces with
      | nil => cases h
      | cons piece pieces =>
          obtain ⟨hfirst, hrest⟩ := List.cons.inj h
          obtain ⟨first, second, rfl, htokens, hmore⟩ := ih hrest
          refine ⟨piece :: first, second, rfl, ?_, ?_⟩
          · rw [lexemeTokens, hfirst, htokens]
          · rwa [chars_cons, Location.advance_append, Location.advance_append]

/-- The span of some pieces goes from their first lexeme to the end of the last. -/
theorem spanOf_lexemeTokens (loc : Location) (piece : Piece) (pieces : List Piece) :
    Grammar.spanOf (lexemeTokens loc (piece :: pieces)) =
      some ⟨loc.advance piece.gap, loc.advance (chars (piece :: pieces))⟩ := by
  have hlast : ((lexemeTokens loc (piece :: pieces)).getLast?.map (·.span.stop)) =
      some (loc.advance (chars (piece :: pieces))) := by
    induction pieces generalizing loc piece with
    | nil => simp [lexemeTokens, Location.advance_append]
    | cons next pieces ih =>
        rw [chars_cons, Location.advance_append, Location.advance_append, ← ih]
        rfl
  obtain ⟨last, hlast, hstop⟩ := Option.map_eq_some_iff.mp hlast
  rw [Grammar.spanOf, hlast, ← hstop]
  rfl

/-! ## Decompositions of parts of a text -/

/-- Pieces and what comes after them make up the text. -/
theorem Decomposes.text_eq (h : Decomposes cs pieces tail) : cs = chars pieces ++ tail := by
  induction h with
  | last => rfl
  | cons _ _ _ _ ih => simp [ih]

/-- The first piece of a decomposition and what comes after it. -/
theorem Decomposes.uncons (h : Decomposes cs (piece :: pieces) tail) :
    ∃ form, Gap (piece.text ++ (chars pieces ++ tail)) piece.gap ∧
      Lexeme form piece.text piece.kind ∧
      (∀ c ∈ (chars pieces ++ tail).head?, form.lengthenedBy c = false) ∧
      Decomposes (chars pieces ++ tail) pieces tail := by
  cases h with
  | cons hgap hlexeme hlonger hrest =>
      obtain rfl := hrest.text_eq
      exact ⟨_, hgap, hlexeme, hlonger, hrest⟩

/-- A text that starts within a decomposition is decomposed by the pieces that are left. -/
theorem Decomposes.drop (h : Decomposes cs (before ++ pieces) tail) :
    Decomposes (chars pieces ++ tail) pieces tail := by
  induction before generalizing cs with
  | nil =>
      rw [List.nil_append] at h
      rwa [← h.text_eq]
  | cons piece before ih =>
      obtain ⟨_, _, _, _, hrest⟩ := h.uncons
      exact ih hrest

/-- A gap depends on the next character only. -/
theorem Gap.congr {rest' : List Char} (hhead : rest'.head? = rest.head?) (h : Gap rest gap) :
    Gap rest' gap := by
  induction h with
  | nil => exact .nil
  | blank hblank _ ih => exact .blank hblank ih
  | @comment body gap hbody hnext _ ih =>
      refine .comment hbody ?_ ih
      rwa [List.head?_append, hhead, ← List.head?_append]

/-- A text that ends within a decomposition is decomposed by the pieces before. -/
theorem Decomposes.take (h : Decomposes cs (pieces ++ others) tail) :
    Decomposes (chars pieces) pieces [] := by
  induction pieces generalizing cs with
  | nil => exact .last .nil
  | cons piece pieces ih =>
      rw [List.cons_append] at h
      obtain ⟨form, hgap, hlexeme, hlonger, hrest⟩ := h.uncons
      -- in the shorter text the next character is the same, unless there is none
      have hshorter : ∀ c ∈ (chars pieces).head?, form.lengthenedBy c = false := by
        intro c hc
        refine hlonger c ?_
        rw [chars_append, List.append_assoc, List.head?_append, Option.mem_def.mp hc]
        rfl
      have hnext : Gap (piece.text ++ chars pieces) piece.gap := by
        refine hgap.congr ?_
        obtain ⟨c, text, htext⟩ := List.exists_cons_of_ne_nil hlexeme.ne_nil
        rw [htext]
        rfl
      rw [chars_cons]
      exact .cons hnext hlexeme hshorter (ih hrest)

/-- Pieces in the middle of a text are read from their text, without the gap in front of them. -/
theorem Decomposes.cut (h : Decomposes cs (before ++ (piece :: pieces ++ others)) tail) :
    Decomposes (piece.text ++ chars pieces) ({ piece with gap := [] } :: pieces) [] := by
  obtain ⟨form, _, hlexeme, hlonger, hrest⟩ := h.drop.take.uncons
  rw [List.append_nil] at hlonger hrest
  exact .cons .nil hlexeme hlonger hrest

/-! ## Cuts and their tokens -/

structure Ordered (tokens : List Token) : Prop where
  each : ∀ token ∈ tokens, token.span.start.offset ≤ token.span.stop.offset
  pairs : tokens.Pairwise fun a b => a.span.stop.offset ≤ b.span.start.offset

/-- Tokens of pieces start one after the other. -/
theorem ordered_lexemeTokens (loc : Location) (pieces : List Piece) :
    Ordered (lexemeTokens loc pieces) ∧
      ∀ token ∈ lexemeTokens loc pieces, loc.offset ≤ token.span.start.offset := by
  induction pieces generalizing loc with
  | nil => exact ⟨⟨by simp [lexemeTokens], .nil⟩, by simp [lexemeTokens]⟩
  | cons piece pieces ih =>
      obtain ⟨hordered, hafter⟩ := ih ((loc.advance piece.gap).advance piece.text)
      have hgap := loc.offset_advance piece.gap
      have htext := (loc.advance piece.gap).offset_advance piece.text
      refine ⟨⟨?_, ?_⟩, ?_⟩
      · exact List.forall_mem_cons.mpr ⟨by dsimp only; omega, hordered.each⟩
      · exact .cons hafter hordered.pairs
      · refine List.forall_mem_cons.mpr ⟨by dsimp only; omega, fun token hmem => ?_⟩
        have := hafter token hmem
        omega

end Lexical

namespace Source

open Lexical

/-- The text from the start of a span up to its end. -/
def cut (source : Source) (span : Span) : String :=
  String.ofList
    ((source.text.toList.drop span.start.offset).take (span.stop.offset - span.start.offset))

/-- The span of some pieces cuts out their text, without the gap in front. -/
theorem cut_eq {source : Source} {before pieces others : List Piece} {piece : Piece}
    {tail : List Char}
    (h : Decomposes source.text.toList (before ++ (piece :: pieces ++ others)) tail) :
    let loc := Location.advance { file := source.file } (chars before)
    source.cut ⟨loc.advance piece.gap, loc.advance (chars (piece :: pieces))⟩ =
      String.ofList (piece.text ++ chars pieces) := by
  have htext : source.text.toList =
      (chars before ++ piece.gap) ++ ((piece.text ++ chars pieces) ++ (chars others ++ tail)) := by
    rw [h.text_eq]
    simp
  have hstart : ((Location.advance { file := source.file } (chars before)).advance
      piece.gap).offset = (chars before ++ piece.gap).length := by
    simp [Location.offset_advance]
  have hlength : ((Location.advance { file := source.file } (chars before)).advance
      (chars (piece :: pieces))).offset - (chars before ++ piece.gap).length =
        (piece.text ++ chars pieces).length := by
    simp only [Location.offset_advance, chars_cons, List.length_append]
    omega
  unfold cut
  dsimp only
  rw [hstart, hlength, htext, List.drop_left, List.take_left]

/-- Tokens that follow each other are read from the text that their span cuts out, up to their
places. -/
theorem tokens_cut {source : Source} {pieces : List Piece} {tail : List Char}
    (h : Decomposes source.text.toList pieces tail) {before own rest : List Token}
    (htokens : lexemeTokens { file := source.file } pieces = before ++ (own ++ rest))
    (hown : own ≠ []) :
    ∃ span body last, Grammar.spanOf own = some span ∧
      Source.tokens { text := source.cut span } = .ok (body ++ [last]) ∧
      body.map (·.kind) = own.map (·.kind) ∧ last.kind = .endOfInput := by
  obtain ⟨first, _, rfl, _, hrest⟩ := exists_split htokens
  obtain ⟨middle, others, rfl, rfl, _⟩ := exists_split hrest
  cases middle with
  | nil => exact absurd rfl hown
  | cons piece pieces =>
      have hread : Source.tokens { text := String.ofList (piece.text ++ chars pieces) } =
          .ok (Lexical.tokens { } ({ piece with gap := [] } :: pieces) []) := by
        refine tokens_of_decomposes ?_
        rw [String.toList_ofList]
        exact h.cut
      obtain ⟨stop, hend⟩ := tokens_eq_append { } ({ piece with gap := [] } :: pieces) []
      rw [hend] at hread
      refine ⟨_, _, _, spanOf_lexemeTokens _ piece pieces, (cut_eq h).symm ▸ hread, ?_, rfl⟩
      rw [kind_lexemeTokens, kind_lexemeTokens]
      rfl

end Source

end Treewalk
