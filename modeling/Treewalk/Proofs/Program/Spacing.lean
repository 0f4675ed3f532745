import Treewalk.Proofs.Program.Safety
import Treewalk.Proofs.Syntax.Kinds

/-! # The layout of a source does not matter

The lexemes of a source may be written with anything between them that separates them: a blank, and
after it blanks and comments that end in a line feed. A blank lengthens no lexeme, so that the text
has the same lexemes. They come at other places, which the parser does not look at. It reads the
same program, or it fails for the same reason at the same lexeme.
-/

namespace Treewalk

/-! ## Lexemes -/

namespace Lexical

variable {cs tail : List Char} {pieces pieces' : List Piece}

/-- Blanks and comments, each comment with the line feed that ends it. -/
inductive Filler : List Char → Prop where
  | nil : Filler []
  | blank {c cs} : c ∈ blanks → Filler cs → Filler (c :: cs)
  | comment {body cs} : '\n' ∉ body → Filler cs → Filler ('/' :: '/' :: (body ++ '\n' :: cs))

/-- What keeps the lexemes on its two sides apart. It begins with a blank. -/
inductive Separator : List Char → Prop where
  | mk {c cs} : c ∈ blanks → Filler cs → Separator (c :: cs)

/-- Complete comments end before whatever comes next. -/
theorem Filler.gap (h : Filler cs) (rest : List Char) : Gap rest cs := by
  induction h with
  | nil => exact .nil
  | blank hblank _ ih => exact .blank hblank ih
  | comment hbody _ ih =>
      refine .comment hbody ?_ (.blank (by decide) ih)
      rintro c ⟨⟩
      rfl

/-- A separator is skipped whatever follows it. -/
theorem Separator.gap (h : Separator cs) (rest : List Char) : Gap rest cs := by
  cases h with
  | mk hblank hfiller => exact .blank hblank (hfiller.gap rest)

/-- The lexemes of some tokens, with a separator in front of each. The end of input comes last and
has an empty lexeme, so that there is a separator after the other lexemes, too. -/
def spacedOut : List String → List Token → String
  | separator :: separators, token :: tokens =>
    separator ++ token.lexeme ++ spacedOut separators tokens
  | _, _ => ""

/-- What is spaced out begins with a blank. -/
theorem blank_of_spacedOut {separators : List String} {tokens : List Token}
    (hseparators : ∀ separator ∈ separators, Separator separator.toList) :
    ∀ c ∈ (spacedOut separators tokens).toList.head?, c ∈ blanks := by
  intro c hc
  cases separators with
  | nil => simp [spacedOut] at hc
  | cons separator separators =>
      cases tokens with
      | nil => simp [spacedOut] at hc
      | cons token tokens =>
          have hfirst := hseparators separator List.mem_cons_self
          rw [spacedOut, String.toList_append, String.toList_append, List.append_assoc] at hc
          generalize separator.toList = gap at hfirst hc
          cases hfirst with
          | mk hblank _ =>
              cases hc
              exact hblank

/-- The same lexeme after another gap. -/
def Piece.Moved (piece piece' : Piece) : Prop :=
  piece'.text = piece.text ∧ piece'.kind = piece.kind

/-- What is spaced out is taken apart into the lexemes that it was made of. -/
theorem Decomposes.spacedOut (h : Decomposes cs pieces tail) (loc : Location)
    {separators : List String} (hcount : separators.length = (tokens loc pieces tail).length)
    (hseparators : ∀ separator ∈ separators, Separator separator.toList) :
    ∃ moved last, Decomposes (spacedOut separators (tokens loc pieces tail)).toList moved last ∧
      List.Forall₂ Piece.Moved pieces moved := by
  induction h generalizing loc separators with
  | last =>
      obtain ⟨separator, rfl⟩ := List.length_eq_one_iff.mp hcount
      refine ⟨[], separator.toList, ?_, .nil⟩
      have hlast := (hseparators separator List.mem_cons_self).gap []
      simpa [tokens, Lexical.spacedOut] using Decomposes.last hlast
  | @cons gap form text kind rest pieces tail _ hlexeme _ _ ih =>
      obtain ⟨separator, separators, rfl⟩ := List.exists_cons_of_length_eq_add_one hcount
      obtain ⟨hfirst, hothers⟩ := List.forall_mem_cons.mp hseparators
      obtain ⟨moved, last, hmoved, hsame⟩ :=
        ih ((loc.advance gap).advance text) (Nat.succ.inj hcount) hothers
      refine ⟨⟨separator.toList, text, kind⟩ :: moved, last, ?_, .cons ⟨rfl, rfl⟩ hsame⟩
      -- the next separator begins with a blank, which does not lengthen the lexeme
      have hapart : ∀ c ∈ (Lexical.spacedOut separators
          (tokens ((loc.advance gap).advance text) pieces tail)).toList.head?,
          form.lengthenedBy c = false :=
        fun c hc => form.lengthenedBy_blank (blank_of_spacedOut hothers c hc)
      simpa [tokens, Lexical.spacedOut] using
        Decomposes.cons (hfirst.gap _) hlexeme hapart hmoved

/-- Lexemes that were moved have tokens that differ in their spans only. -/
theorem tokens_moved (h : List.Forall₂ Piece.Moved pieces pieces') (loc loc' : Location)
    (tail tail' : List Char) :
    List.Forall₂ TokenLikeness.lexemes.alike (tokens loc pieces tail)
      (tokens loc' pieces' tail') := by
  induction h generalizing loc loc' with
  | nil => exact .cons ⟨rfl, rfl⟩ .nil
  | cons hpiece _ ih =>
      refine .cons ⟨hpiece.2, ?_⟩ (ih _ _)
      dsimp only
      rw [hpiece.1]

end Lexical

/-! ## Programs -/

open Lexical Treewalk.Parser

/-- How two sources are read alike: as programs that differ in their spans only, with errors of the
same code and message, or not at all because both are nested beyond the limit. -/
inductive Program.ReadAlike :
    Except SyntaxFailure Program → Except SyntaxFailure Program → Prop where
  | ok {program program'} : Stmt.AllAlike .text program program' →
      ReadAlike (.ok program) (.ok program')
  | error {error error' : ParseError} : error'.diagnostic.code = error.diagnostic.code →
      error'.diagnostic.message = error.diagnostic.message →
      ReadAlike (.error (.parse (.error error))) (.error (.parse (.error error')))
  | tooDeep : ReadAlike (.error (.parse .tooDeep)) (.error (.parse .tooDeep))

/-- The same is missing in front of lexemes that are the same. -/
theorem Parser.unexpected_alike (expected : Expected) {c d : Cursor}
    (h : TokenLikeness.lexemes.alike c.peek d.peek) :
    ∃ error error', unexpected expected c = .error error ∧ unexpected expected d = .error error' ∧
      error'.fault = error.fault := by
  obtain ⟨hkind, hlexeme⟩ := h
  unfold unexpected
  dsimp only
  rw [hkind, hlexeme]
  split <;> exact ⟨_, _, rfl, rfl, rfl⟩

theorem ParseError.fault_showLine (shown : Option String) (error : ParseError) :
    (error.showLine shown).fault = error.fault := by
  unfold showLine
  split <;> rfl

namespace Program

variable {source source' : Source} {tokens tokens' : List Token}

/-- The end of input is never passed. -/
theorem ofSource_ne_pastEnd (htokens : source.tokens = .ok tokens) :
    ofSource source ≠ .error (.parse .pastEnd) := by
  obtain ⟨body, last, _, _, _, result, hsource, hjudged⟩ := ofSource_judged htokens
  rw [hsource]
  rcases hjudged with ⟨rfl, _⟩ | ⟨hverdict, _⟩
  · rintro ⟨⟩
  · cases hverdict <;> rintro ⟨⟩

/-- Sources with the same lexemes are read alike. -/
theorem ofSource_alike (htokens : source.tokens = .ok tokens)
    (htokens' : source'.tokens = .ok tokens')
    (halike : List.Forall₂ TokenLikeness.lexemes.alike tokens tokens') :
    ReadAlike (ofSource source) (ofSource source') := by
  have hend := parse_sameEnd (program_same depthLimit) halike
  have hpast := ofSource_ne_pastEnd htokens
  rw [ofSource_of_tokens htokens] at hpast ⊢
  rw [ofSource_of_tokens htokens']
  unfold ofTokens at hpast ⊢
  generalize parse (Parser.program depthLimit) tokens = result,
    parse (Parser.program depthLimit) tokens' = result' at hend hpast ⊢
  cases hend with
  | ok hprograms => exact .ok (allAlike_of_stmts hprograms)
  | error hfails =>
      cases hfails with
      | @unexpected expected c d hpeek =>
          obtain ⟨error, error', herror, herror', hfault⟩ := unexpected_alike expected hpeek
          rw [herror, herror']
          have hshown : (error'.showLine (some source'.text)).fault =
              (error.showLine (some source.text)).fault := by
            rw [ParseError.fault_showLine, ParseError.fault_showLine, hfault]
          exact .error (congrArg ParseFault.code hshown) (congrArg ParseFault.message hshown)
      | notOneExpression => exact .error rfl rfl
      | tooDeep => exact .tooDeep
      | pastEnd => exact absurd rfl hpast

end Program

namespace Source

/-- A source with the lexemes of some tokens, spaced out. -/
def respaced (source : Source) (separators : List String) (tokens : List Token) : Source :=
  { source with text := spacedOut separators tokens }

/-- The layout of a source does not matter. If the lexemes of its tokens are written with any
separators before, between and after them, they have tokens of the same kinds and with the same
lexemes, and the text is read like the source. -/
theorem read_respaced {source : Source} {tokens : List Token} {separators : List String}
    (htokens : source.tokens = .ok tokens) (hcount : separators.length = tokens.length)
    (hseparators : ∀ separator ∈ separators, Separator separator.toList) :
    ∃ moved, (source.respaced separators tokens).tokens = .ok moved ∧
      moved.map (·.kind) = tokens.map (·.kind) ∧ moved.map (·.lexeme) = tokens.map (·.lexeme) ∧
      Program.ReadAlike (Program.ofSource source)
        (Program.ofSource (source.respaced separators tokens)) := by
  obtain ⟨pieces, tail, hpieces, rfl⟩ := decomposes_of_tokens htokens
  obtain ⟨moved, last, hmoved, hsame⟩ := hpieces.spacedOut _ hcount hseparators
  have halike := tokens_moved hsame { file := source.file } { file := source.file } tail last
  have htokens' : (source.respaced separators _).tokens = .ok _ := tokens_of_decomposes hmoved
  refine ⟨_, htokens', ?_, ?_, Program.ofSource_alike htokens htokens' halike⟩
  · exact Token.forall₂_iff_map_eq.mp (halike.imp fun _ _ h => h.1)
  · exact Token.forall₂_iff_map_eq.mp (halike.imp fun _ _ h => h.2)

/-- Ends in a comment where a semicolon is missing. -/
def unspaced : Source := { text := "x===2//;" }

theorem read_respaced_unspaced :
    let separators := [" ", "\t// = \n", "\r", "\n//\n "]
    ∃ tokens moved, unspaced.tokens = .ok tokens ∧ separators.length = tokens.length ∧
      (∀ separator ∈ separators, Separator separator.toList) ∧
      (unspaced.respaced separators tokens).text = " x\t// = \n===\r2\n//\n " ∧
      (unspaced.respaced separators tokens).tokens = .ok moved ∧
      moved.map (·.lexeme) = ["x", "===", "2", ""] ∧
      Program.ReadAlike (Program.ofSource unspaced)
        (Program.ofSource (unspaced.respaced separators tokens)) := by
  intro separators
  obtain ⟨tokens, htokens, hlexemes, htext⟩ : ∃ tokens, unspaced.tokens = .ok tokens ∧
      tokens.map (·.lexeme) = ["x", "===", "2", ""] ∧
      spacedOut separators tokens = " x\t// = \n===\r2\n//\n " := ⟨_, rfl, rfl, rfl⟩
  have hcount : separators.length = tokens.length := by
    simpa [separators] using (congrArg List.length hlexemes).symm
  have hseparators : ∀ separator ∈ separators, Separator separator.toList := by
    simp only [separators, List.forall_mem_cons]
    have hcomment : Filler "// = \n".toList := @Filler.comment [' ', '=', ' '] [] (by decide) .nil
    have hempty : Filler "//\n ".toList :=
      @Filler.comment [] [' '] (by decide) (.blank (by decide) .nil)
    exact ⟨.mk (by decide) .nil, .mk (by decide) hcomment, .mk (by decide) .nil,
      .mk (by decide) hempty, by simp⟩
  obtain ⟨moved, hmoved, _, hsame, hread⟩ := read_respaced htokens hcount hseparators
  exact ⟨tokens, moved, htokens, hcount, hseparators, htext, hmoved, hsame.trans hlexemes, hread⟩

end Source

end Treewalk
