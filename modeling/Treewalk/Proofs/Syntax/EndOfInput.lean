import Treewalk.Proofs.Syntax.EarliestError
import Treewalk.Proofs.Syntax.Spans

/-! # Nothing is read after the end of input

Any list of tokens may be parsed, whether it comes from a text or not. If one of the tokens ends the
input, what comes after the first such token makes no difference: the parser depends on the tokens
it reads and on the one after them, and it does not go past an end of input. It does not run out of
tokens either, and each statement that it yields has used up some.
-/

namespace Treewalk

namespace Parser

open Grammar

variable {α : Type}

/-- The tokens up to the first that ends the input, with this one. -/
def upToEnd : List Token → List Token
  | [] => []
  | token :: rest => if token.kind.isEnd then [token] else token :: upToEnd rest

/-- The tokens before the first that ends the input, this one, and what comes after it. -/
theorem exists_split {tokens : List Token} (h : ∃ token ∈ tokens, token.kind.isEnd = true) :
    ∃ body last rest, tokens = body ++ last :: rest ∧ Inner body ∧ last.kind.isEnd = true ∧
      upToEnd tokens = body ++ [last] := by
  induction tokens with
  | nil =>
      obtain ⟨_, hmem, _⟩ := h
      cases hmem
  | cons token tokens ih =>
      cases hend : token.kind.isEnd with
      | true => exact ⟨[], token, tokens, rfl, inner_nil, hend, by simp [upToEnd, hend]⟩
      | false =>
          have hlater : ∃ later ∈ tokens, later.kind.isEnd = true := by
            simpa [hend] using h
          obtain ⟨body, last, rest, rfl, hbody, hlast, hupTo⟩ := ih hlater
          exact ⟨token :: body, last, rest, rfl, inner_cons.mpr ⟨hend, hbody⟩, hlast,
            by simp [upToEnd, hend, hupTo]⟩

/-! ## Places with the same tokens ahead -/

/-- The tokens of two places are the same up to the first that ends the input. -/
def Cursor.SameAhead (c d : Cursor) : Prop :=
  ∃ body last rest rest', Inner body ∧ last.kind.isEnd = true ∧
    c.rest = body ++ last :: rest ∧ d.rest = body ++ last :: rest'

namespace Cursor.SameAhead

variable {c d : Cursor}

theorem symm (h : c.SameAhead d) : d.SameAhead c := by
  obtain ⟨body, last, rest, rest', hbody, hlast, hc, hd⟩ := h
  exact ⟨body, last, rest', rest, hbody, hlast, hd, hc⟩

theorem ended (h : c.SameAhead d) : c.Ended := by
  obtain ⟨body, last, rest, _, _, hlast, hc, _⟩ := h
  exact ⟨last, by simp [hc], hlast⟩

theorem peek_eq (h : c.SameAhead d) : d.peek = c.peek := by
  obtain ⟨body, last, rest, rest', _, _, hc, hd⟩ := h
  unfold Cursor.peek
  rw [hc, hd]
  cases body <;> rfl

/-- What is read at one place is read at the other, with the same token next. -/
theorem reads (h : c.SameAhead d) {tokens : List Token} {c' : Cursor} (hread : Reads c tokens c') :
    ∃ d', Reads d tokens d' ∧ d'.peek = c'.peek := by
  induction hread generalizing d with
  | nil => exact ⟨d, .nil, h.peek_eq⟩
  | @cons token others final stop tokens c' hend _ ih =>
      obtain ⟨body, last, rest, rest', hbody, hlast, hc, hd⟩ := h
      cases body with
      | nil =>
          cases hc
          rw [hend] at hlast
          cases hlast
      | cons first body =>
          cases hc
          obtain ⟨drest, dfinal, dstop⟩ := d
          cases hd
          obtain ⟨d', hd', hpeek⟩ := @ih ⟨body ++ last :: rest', dfinal, some token.span.stop⟩
            ⟨body, last, rest, rest', (inner_cons.mp hbody).2, hlast, rfl, rfl⟩
          exact ⟨d', .cons hend hd', hpeek⟩

/-- A parser that does not reach its limit ends alike at both places. -/
theorem eq_of_settles (h : c.SameAhead d) {deep : Nat} {parser : Parse α}
    {derives : List Token → α → Prop} (hsettles : Settles deep c.peek [] parser derives c)
    (hlimit : parser c ≠ .error .tooDeep) :
    (parser d).map (·.1) = (parser c).map (·.1) := by
  cases hsettles with
  | tooDeep hrun _ => exact absurd hrun hlimit
  | @ends tokens c' outcome hread _ hlocal =>
      obtain ⟨d', hread', hpeek⟩ := h.reads hread
      rw [hlocal c c' (.here h.ended) hread rfl,
        hlocal d d' ⟨d, h.symm.ended, h.peek_eq, .nil⟩ hread' hpeek]
      cases outcome with
      | found a => rfl
      | missing expected => simp only [Outcome.result, unexpected, hpeek]

/-- A parser ends alike at both places. -/
theorem map_eq (h : c.SameAhead d) {deep : Nat} {parser : Parse α}
    {derives : List Token → α → Prop} (hparser : Parses deep parser derives) :
    (parser d).map (·.1) = (parser c).map (·.1) := by
  by_cases hc : parser c = .error .tooDeep
  · by_cases hd : parser d = .error .tooDeep
    · rw [hc, hd]
    · exact (h.symm.eq_of_settles (hparser d h.symm.ended) hd).symm
  · exact h.eq_of_settles (hparser c h.ended) hc

end Cursor.SameAhead

/-- What comes after the first end of input makes no difference to a parser. -/
theorem parse_upToEnd {deep : Nat} {parser : Parse α} {derives : List Token → α → Prop}
    (hparser : Parses deep parser derives) {tokens : List Token}
    (h : ∃ token ∈ tokens, token.kind.isEnd = true) :
    parse parser tokens = parse parser (upToEnd tokens) := by
  obtain ⟨body, last, rest, rfl, hbody, hlast, hupTo⟩ := exists_split h
  rw [hupTo, parse_eq]
  obtain ⟨final, hfinal⟩ : ∃ final, (body ++ last :: rest).getLast? = some final :=
    Option.isSome_iff_exists.mp (by simp)
  have hsame : Cursor.SameAhead (.ofBody body last) ⟨body ++ last :: rest, final, none⟩ :=
    ⟨body, last, [], rest, hbody, hlast, rfl, rfl⟩
  have hcursor : Cursor.ofTokens? (body ++ last :: rest) =
      some ⟨body ++ last :: rest, final, none⟩ := by
    rw [Cursor.ofTokens?, hfinal]
    rfl
  unfold parse
  rw [hcursor]
  exact hsame.map_eq hparser

/-! ## How parsing ends -/

/-- Parsing ends in a program, with an error of syntax, or at its limit, for which about as many
tokens are needed. -/
inductive Concludes (limit count : Nat) : Except ParseFailure Treewalk.Program → Prop where
  | program (program) : Concludes limit count (.ok program)
  | error (e) : Concludes limit count (.error (.error e))
  | tooDeep : limit ≤ count → Concludes limit count (.error .tooDeep)

/-- What is judged is a program, an error, or nesting that takes as many tokens as the limit. -/
theorem Judged.concludes {body : List Token} {last : Token} {limit : Nat}
    {result : Except ParseFailure Treewalk.Program} (h : Judged body last limit result) :
    Concludes limit (body ++ [last]).length result := by
  rcases h with ⟨rfl, hlimit⟩ | ⟨hverdict, _⟩
  · exact .tooDeep (by simpa using hlimit)
  · cases hverdict with
    | accepted _ => exact .program _
    | incomplete _ _ => exact .error _
    | hopeless _ _ _ => exact .error _

/-- Limits that are not reached make no difference. -/
theorem parse_agrees {longer shorter : Parse α} (h : Extends longer shorter)
    (tokens : List Token) : Agrees (parse shorter tokens) (parse longer tokens) := by
  unfold parse
  cases Cursor.ofTokens? tokens with
  | none => exact .refl _
  | some c =>
      intro hlimit
      have hreached : shorter c ≠ .error .tooDeep := by
        intro htooDeep
        exact hlimit (congrArg (Except.map (·.1)) htooDeep)
      exact congrArg (Except.map (·.1)) (h c hreached)

/-- Every statement of a program, however deep it stands, is made of tokens of its own. -/
def Consumes (limit : Nat) (tokens : List Token) (program : Treewalk.Program) : Prop :=
  ∀ n stmt, program.Occurs n (.stmt stmt) →
    ∃ before own rest, tokens = before ++ (own ++ rest) ∧ own ≠ [] ∧ Laid limit own (.stmt stmt)

/-- Every statement of a program that was read is laid out by some of the tokens. -/
theorem consumes_of_parse {limit : Nat} {body : List Token} {last : Token}
    {program : Treewalk.Program} (hbody : Inner body) (hlast : last.kind.isEnd = true)
    (h : parse (Parser.program limit) (body ++ [last]) = .ok program) :
    Consumes limit (body ++ [last]) program := by
  intro n stmt hoccurs
  obtain ⟨before, own, rest, rfl, hlaid⟩ := (laidOut_of_parse hbody hlast h).of_occurs hoccurs
  have hne : own ≠ [] := by
    cases hlaid with
    | mk _ _ hfound _ => exact hfound.ne_nil
  exact ⟨before, own, rest ++ [last], by simp, hne, hlaid⟩

/-- A statement that is read uses up a token at least. -/
theorem statement_consumes {limit : Nat} {c c' : Cursor} {stmt : Stmt} (hc : c.Ended)
    (h : statement limit c = .ok (stmt, c')) : c'.rest.length < c.rest.length := by
  obtain ⟨tokens, hread, hstmt⟩ := (expression_statement_accept limit).2 c stmt c' hc h
  have hpos := List.length_pos_iff.mpr (statement_ne_nil tokens stmt hstmt)
  have hlength := hread.length_eq
  omega

end Parser

namespace Program

open Treewalk.Parser

/-- The parser never looks beyond the first end of input. Tokens that hold one are parsed like those
up to the first, whatever is shown with errors and whatever the limit on nesting is. Parsing ends in
a program or with an error of syntax, unless it reaches its limit, for which about as many tokens
are needed; limits that are not reached make no difference. Each statement that is read, in whatever
place, uses up a token at least, and those of the program are made of tokens of their own. -/
theorem ofTokens_upToEnd (tokens : List Token)
    (hend : ∃ token ∈ tokens, token.kind = .endOfInput) :
    (∀ shown, ofTokens tokens shown = ofTokens (upToEnd tokens) shown ∧
      Concludes depthLimit (upToEnd tokens).length (ofTokens tokens shown)) ∧
    (∀ limit,
      parse (Parser.program limit) tokens = parse (Parser.program limit) (upToEnd tokens) ∧
      Concludes limit (upToEnd tokens).length (parse (Parser.program limit) tokens) ∧
      (∀ larger, limit ≤ larger → parse (Parser.program limit) tokens ≠ .error .tooDeep →
        parse (Parser.program larger) tokens = parse (Parser.program limit) tokens) ∧
      ∀ program, parse (Parser.program limit) tokens = .ok program →
        Consumes limit (upToEnd tokens) program) ∧
    ∀ limit c stmt c', c.Ended → statement limit c = .ok (stmt, c') →
      c'.rest.length < c.rest.length := by
  have hends : ∃ token ∈ tokens, token.kind.isEnd = true := by
    obtain ⟨token, hmem, hkind⟩ := hend
    exact ⟨token, hmem, Token.Kind.isEnd_iff.mpr hkind⟩
  obtain ⟨body, last, rest, _, hbody, hlast, hupTo⟩ := exists_split hends
  have hcut : ∀ limit, parse (Parser.program limit) tokens =
      parse (Parser.program limit) (upToEnd tokens) :=
    fun limit => parse_upToEnd (program_parses limit) hends
  have hjudged : ∀ limit, Judged body last limit (parse (Parser.program limit) tokens) := by
    intro limit
    rw [hcut, hupTo]
    exact program_judged hbody hlast limit
  refine ⟨fun shown => ⟨?_, ?_⟩, fun limit => ⟨hcut limit, ?_, ?_, ?_⟩,
    fun limit c stmt c' => statement_consumes⟩
  · unfold ofTokens
    rw [hcut]
  · rw [hupTo]
    exact ((hjudged depthLimit).showLine shown).concludes
  · rw [hupTo]
    exact (hjudged limit).concludes
  · exact fun larger hlarger => parse_agrees (program_extends hlarger) tokens
  · intro program hprogram
    rw [hcut, hupTo] at hprogram
    rw [hupTo]
    exact consumes_of_parse hbody hlast hprogram

/-- `let f = function() {`, the end of input, and then `return true; };`. -/
def interrupted : List Token :=
  ([.keyword .let, .identifier "f", .symbol .assign, .keyword .function, .symbol .leftParen,
    .symbol .rightParen, .symbol .leftBrace, .endOfInput, .keyword .return, .boolean true,
    .symbol .semicolon, .symbol .rightBrace, .symbol .semicolon] : List Token.Kind).map madeToken

/-- A function that is cut off by the end of input is not completed by what comes after it. -/
theorem ofTokens_upToEnd_interrupted :
    (∃ token ∈ interrupted, token.kind = .endOfInput) ∧
      ofTokens interrupted none = ofTokens (interrupted.take 8) none ∧
      ofTokens interrupted none =
        .error (.error ⟨.unexpectedEnd (.symbol .rightBrace), default, none⟩) := by
  have hend : ∃ token ∈ interrupted, token.kind = .endOfInput :=
    ⟨madeToken .endOfInput, by simp [interrupted], rfl⟩
  have hcut := ((ofTokens_upToEnd interrupted hend).1 none).1
  exact ⟨hend, hcut, hcut.trans rfl⟩

end Program

end Treewalk
