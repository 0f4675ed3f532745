import Treewalk.Proofs.Source.Cutting
import Treewalk.Proofs.Syntax.Kinds
import Treewalk.Proofs.Syntax.Layout

/-! # Spans cut out what they denote

The span of a part of a parsed program cuts a text out of the source. Reading this text on its own
gives the part back, but for its spans: the tokens are of the same kinds as those the part was made
of, and from these it is found again. What stands in a part has its span within that of the part,
and parts next to each other have spans one after the other.
-/

namespace Treewalk

open Treewalk.Grammar Treewalk.Parser Lexical

def Span.Within (inner outer : Span) : Prop :=
  outer.start.offset ≤ inner.start.offset ∧ inner.stop.offset ≤ outer.stop.offset

namespace Part

/-- The spans of parts follow each other. -/
def InOrder (parts : List Part) : Prop :=
  parts.Pairwise fun a b =>
    ∃ s t, a.span? = some s ∧ b.span? = some t ∧ s.stop.offset ≤ t.start.offset

/-- A text on its own is read as a part that differs in spans only. -/
def ReadFrom (text : String) : Part → Prop
  | .expr e => ∃ e', Expr.ofText text = .ok e' ∧ Expr.Alike .text e e'
  | .stmt s => ∃ s', Program.ofSource { text } = .ok [s'] ∧ Stmt.Alike .text s s'

end Part

/-! ## Spans of parts that are laid out -/

namespace Lexical.Ordered

variable {tokens others : List Token} {token : Token} {span : Span}

theorem left (h : Ordered (tokens ++ others)) : Ordered tokens :=
  ⟨fun token hmem => h.each token (List.mem_append_left _ hmem),
    (List.pairwise_append.mp h.pairs).1⟩

theorem right (h : Ordered (tokens ++ others)) : Ordered others :=
  ⟨fun token hmem => h.each token (List.mem_append_right _ hmem),
    (List.pairwise_append.mp h.pairs).2.1⟩

/-- The span of some tokens contains each of them. -/
theorem bounds (h : Ordered tokens) (hspan : spanOf tokens = some span) (hmem : token ∈ tokens) :
    token.span.Within span := by
  obtain ⟨first, hfirst, hspan⟩ := Option.bind_eq_some_iff.mp hspan
  obtain ⟨last, hlast, hspan⟩ := Option.bind_eq_some_iff.mp hspan
  cases hspan
  constructor
  · obtain ⟨rest, rfl⟩ := List.head?_eq_some_iff.mp hfirst
    rcases List.mem_cons.mp hmem with rfl | hmem
    · exact Nat.le_refl _
    · exact Nat.le_trans (h.each _ List.mem_cons_self) ((List.pairwise_cons.mp h.pairs).1 _ hmem)
  · obtain ⟨before, rfl⟩ := List.getLast?_eq_some_iff.mp hlast
    rcases List.mem_append.mp hmem with hmem | hmem
    · have hbefore := (List.pairwise_append.mp h.pairs).2.2 token hmem last List.mem_cons_self
      exact Nat.le_trans hbefore (h.each last (by simp))
    · obtain rfl := List.mem_singleton.mp hmem
      exact Nat.le_refl _

end Lexical.Ordered

/-- No part is found in no tokens. -/
theorem Part.Found.ne_nil {limit : Nat} {tokens : List Token} {part : Part}
    (h : part.Found limit tokens) : tokens ≠ [] := by
  rintro rfl
  cases part with
  | expr e =>
      obtain ⟨_, _, hnil, _⟩ := FoundExpression.starts h
      cases hnil
  | stmt s =>
      obtain ⟨_, _, hnil, _⟩ := FoundStatement.starts h
      cases hnil

/-- A part begins with one of its tokens and ends with one of them. -/
theorem Laid.exists_span {limit : Nat} {tokens : List Token} {part : Part}
    (h : Laid limit tokens part) :
    ∃ span, part.span? = some span ∧ (∃ first ∈ tokens, span.start = first.span.start) ∧
      ∃ last ∈ tokens, span.stop = last.span.stop := by
  cases h with
  | mk _ hspan hfound _ =>
      have hne := hfound.ne_nil
      refine ⟨⟨(tokens.head hne).span.start, (tokens.getLast hne).span.stop⟩, ?_,
        ⟨_, List.head_mem hne, rfl⟩, ⟨_, List.getLast_mem hne, rfl⟩⟩
      rw [hspan, spanOf, List.head?_eq_some_head hne, List.getLast?_eq_some_getLast hne]
      rfl

/-- Parts that are laid out begin with tokens and end with tokens, and their spans follow each
other. -/
theorem LaidOut.inOrder {limit : Nat} {tokens : List Token} {parts : List Part}
    (h : LaidOut limit tokens parts) (hordered : Ordered tokens) : Part.InOrder parts := by
  induction parts generalizing tokens with
  | nil => exact .nil
  | cons part parts ih =>
      cases h with
      | @cons _ before own rest _ _ hpart hparts =>
          refine .cons (fun other hother => ?_) (ih hparts hordered.right.right)
          obtain ⟨before', own', rest', rfl, hlaid⟩ := hparts.exists_own hother
          obtain ⟨span, hspan, _, last, hlast, hstop⟩ := hpart.exists_span
          obtain ⟨span', hspan', ⟨first, hfirst, hstart⟩, _⟩ := hlaid.exists_span
          refine ⟨span, span', hspan, hspan', ?_⟩
          have hafter : first ∈ before' ++ (own' ++ rest') := by simp [hfirst]
          rw [hstop, hstart]
          exact (List.pairwise_append.mp hordered.right.pairs).2.2 last hlast first hafter

/-- Parts that are laid out have their spans within that of all the tokens. -/
theorem LaidOut.within {limit : Nat} {tokens : List Token} {parts : List Part}
    (h : LaidOut limit tokens parts) (hordered : Ordered tokens) {span : Span}
    (hspan : spanOf tokens = some span) {part : Part} (hpart : part ∈ parts) :
    ∃ inner, part.span? = some inner ∧ inner.Within span := by
  obtain ⟨before, own, rest, rfl, hlaid⟩ := h.exists_own hpart
  obtain ⟨inner, hinner, ⟨first, hfirst, hstart⟩, last, hlast, hstop⟩ := hlaid.exists_span
  refine ⟨inner, hinner, ?_, ?_⟩
  · rw [hstart]
    exact (hordered.bounds hspan (by simp [hfirst])).1
  · rw [hstop]
    exact (hordered.bounds hspan (by simp [hlast])).2

/-! ## Reading a cut -/

section Reading

variable {tokens : List Token}

/-- What is parsed at a limit is parsed at a larger one. -/
theorem parse_of_extends {α : Type} {longer shorter : Parse α} (h : Extends longer shorter) {a : α}
    (hparse : parse shorter tokens = .ok a) : parse longer tokens = .ok a := by
  unfold parse at hparse ⊢
  cases hcursor : Cursor.ofTokens? tokens with
  | none =>
      rw [hcursor] at hparse
      cases hparse
  | some cursor =>
      simp only [hcursor] at hparse ⊢
      have hagrees := h cursor
      cases hrun : shorter cursor with
      | error failure =>
          rw [hrun] at hparse
          cases hparse
      | ok result =>
          rw [hrun] at hagrees hparse
          rw [hagrees nofun]
          exact hparse

theorem mapError_eq_ok {ε ε' α : Type} {f : ε → ε'} {result : Except ε α} {a : α} :
    result.mapError f = .ok a ↔ result = .ok a := by
  cases result <;> simp [Except.mapError]

/-- A source is read as what its tokens are parsed as. -/
theorem ofSource_eq_ok {source : Source} {program : Program}
    (htokens : source.tokens = .ok tokens) :
    Program.ofSource source = .ok program ↔
      parse (Parser.program depthLimit) tokens = .ok program := by
  rw [Program.ofSource_of_tokens htokens]
  exact mapError_eq_ok.trans mapError_eq_ok

theorem ofText_eq_ok {text : String} {e : Expr} (htokens : Source.tokens { text } = .ok tokens) :
    Expr.ofText text = .ok e ↔ parse (singleExpression depthLimit) tokens = .ok e := by
  unfold Expr.ofText
  simp only [htokens]
  exact mapError_eq_ok

/-- A part that is found from some tokens is read from a text with tokens of the same kinds. -/
theorem Part.Found.readFrom {depth : Nat} {part : Part} {own body : List Token} {last : Token}
    {text : String} (hdepth : depth ≤ depthLimit) (hfound : part.Found depth own)
    (hown : ∀ token ∈ own, token.kind.isEnd = false)
    (htokens : Source.tokens { text } = .ok (body ++ [last]))
    (hkinds : body.map (·.kind) = own.map (·.kind)) (hlast : last.kind = .endOfInput) :
    part.ReadFrom text := by
  have hend : last.kind.isEnd = true := by
    rw [hlast]
    rfl
  have hall : (body ++ [last]).map (·.kind) = (own ++ [last]).map (·.kind) := by
    rw [List.map_append, hkinds, List.map_append]
  cases part with
  | expr e =>
      obtain ⟨c, hrun⟩ := singleExpression_of_found hown hend hfound
      have hparse : parse (singleExpression depth) (own ++ [last]) = .ok e := by
        rw [parse_eq, hrun]
        rfl
      obtain ⟨e', he', halike⟩ := parse_same (singleExpression_same depthLimit) hall
        (parse_of_extends (singleExpression_extends hdepth) hparse)
      exact ⟨e', (ofText_eq_ok htokens).mpr he', halike⟩
  | stmt s =>
      -- a statement on its own is a program of one statement
      have hrepeated : Repeated (FoundStatement depth) own [s] := by
        have hcons := @Repeated.cons _ (FoundStatement depth) _ _ _ _ hfound .nil
        rwa [List.append_nil] at hcons
      obtain ⟨c, hrun⟩ := program_of_found hown hend hrepeated
      have hparse : parse (Parser.program depth) (own ++ [last]) = .ok [s] := by
        rw [parse_eq, hrun]
        rfl
      obtain ⟨stmts, hstmts, halike⟩ := parse_same (program_same depthLimit) hall
        (parse_of_extends (program_extends hdepth) hparse)
      cases halike with
      | cons hfirst hnil =>
          cases hnil
          exact ⟨_, (ofSource_eq_ok htokens).mpr hstmts, hfirst⟩

end Reading

namespace Program

variable {source : Source} {program : Program}

/-- The statements of a program are laid out in the tokens of its source. -/
theorem laidOut_of_source (h : ofSource source = .ok program) :
    ∃ pieces tail, Decomposes source.text.toList pieces tail ∧
      (∀ token ∈ lexemeTokens { file := source.file } pieces, token.kind.isEnd = false) ∧
      LaidOut depthLimit (lexemeTokens { file := source.file } pieces) (program.map .stmt) := by
  cases htokens : source.tokens with
  | error error =>
      rw [ofSource_of_lexError htokens] at h
      cases h
  | ok tokens =>
      have hparse := (ofSource_eq_ok htokens).mp h
      obtain ⟨pieces, tail, hpieces, rfl⟩ := Source.decomposes_of_tokens htokens
      obtain ⟨stop, hall⟩ := tokens_eq_append { file := source.file } pieces tail
      obtain ⟨body, last, hsplit, hbody, hlast⟩ := hpieces.tokens_end { file := source.file }
      -- both ways to split off the end of input leave the same tokens before it
      obtain ⟨hsame, _⟩ := List.append_inj' (hall.symm.trans hsplit) rfl
      rw [hsplit] at hparse
      refine ⟨pieces, tail, hpieces, ?_, ?_⟩ <;> rw [hsame]
      · exact hbody
      · exact laidOut_of_parse hbody hlast hparse

/-- Spans cut out what they denote. Every part of a program that was read from a source has a span,
and the text that the span cuts out of the source, read on its own, gives the part back, but for
spans. The spans of what stands directly in a part are within its own and follow each other in the
order of the fields, and so do those of the statements of the program. -/
theorem spans_of_source (source : Source) (program : Program)
    (h : ofSource source = .ok program) :
    Part.InOrder (program.map .stmt) ∧ ∀ n part, program.Occurs n part →
      ∃ span, part.span? = some span ∧ part.ReadFrom (source.cut span) ∧
        (∀ child ∈ part.children, ∃ inner, child.span? = some inner ∧ inner.Within span) ∧
        Part.InOrder part.children := by
  obtain ⟨pieces, tail, hpieces, hbody, hlaid⟩ := laidOut_of_source h
  have hordered := (ordered_lexemeTokens { file := source.file } pieces).1
  refine ⟨hlaid.inOrder hordered, fun n part hoccurs => ?_⟩
  obtain ⟨before, own, rest, hown, hpart⟩ := hlaid.of_occurs hoccurs
  rw [hown] at hbody hordered
  cases hpart with
  | mk hdepth hspan hfound hchildren =>
      -- the cut has tokens of the same kinds, and from these the part is found again
      obtain ⟨span, body, last, hcut, hread, hkinds, hlast⟩ :=
        source.tokens_cut hpieces hown hfound.ne_nil
      have hplaces := hordered.right.left
      have hinner : ∀ token ∈ own, token.kind.isEnd = false :=
        fun token hmem => hbody token (by simp [hmem])
      exact ⟨span, hspan.trans hcut, hfound.readFrom hdepth hinner hread hkinds hlast,
        fun child hchild => hchildren.within hplaces hcut hchild, hchildren.inOrder hplaces⟩

/-- In `print((a - b) * c);` the span of the difference leaves the parentheses out. -/
theorem spans_of_source_parentheses :
    ∃ program part span, ofSource { text := "print((a - b) * c);" } = .ok program ∧
      program.Occurs 0 part ∧ part.span? = some span ∧
      Source.cut { text := "print((a - b) * c);" } span = "a - b" ∧ part.ReadFrom "a - b" := by
  have hcuts : (ofSource { text := "print((a - b) * c);" }).toOption.map (fun program =>
      (((program.map .stmt).flatMap Part.operands).flatMap Part.operands).filterMap fun part =>
        part.span?.map (Source.cut { text := "print((a - b) * c);" })) = some ["a - b", "c"] := by
    decide
  cases hsource : ofSource { text := "print((a - b) * c);" } with
  | error failure =>
      rw [hsource] at hcuts
      cases hcuts
  | ok program =>
      rw [hsource] at hcuts
      have hmem : "a - b" ∈ ["a - b", "c"] := List.mem_cons_self
      rw [← Option.some.inj hcuts] at hmem
      obtain ⟨part, hpart, hcut⟩ := List.mem_filterMap.mp hmem
      obtain ⟨outer, houter, hinner⟩ := List.mem_flatMap.mp hpart
      obtain ⟨top, htop, houter⟩ := List.mem_flatMap.mp houter
      obtain ⟨stmt, hstmt, rfl⟩ := List.mem_map.mp htop
      have hoccurs : program.Occurs 0 part := .operand (.operand (.top hstmt) houter) hinner
      obtain ⟨span, hspan, hread, _⟩ := (spans_of_source _ _ hsource).2 _ _ hoccurs
      rw [hspan] at hcut
      exact ⟨program, part, span, rfl, hoccurs, hspan, Option.some.inj hcut,
        Option.some.inj hcut ▸ hread⟩

end Program

end Treewalk
