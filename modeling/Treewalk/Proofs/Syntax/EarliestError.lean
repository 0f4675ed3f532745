import Treewalk.Proofs.Source.Scanning
import Treewalk.Proofs.Syntax.Viability

/-! # Errors are found at the earliest token

The parser stops at the first token with which no program can go on. All tokens before it can be
completed to a program, and with it they cannot. If there is no such token, what is missing is
missing at the end of input.
-/

namespace Treewalk

theorem Token.Kind.isEnd_iff {kind : Token.Kind} : kind.isEnd = true ↔ kind = .endOfInput := by
  cases kind <;> simp [Token.Kind.isEnd]

namespace Grammar

/-- None of some tokens is the end of input. -/
def Inner (tokens : List Token) : Prop := ∀ token ∈ tokens, token.kind.isEnd = false

@[simp] theorem inner_nil : Inner [] := List.forall_mem_nil _

@[simp] theorem inner_cons {token : Token} {tokens : List Token} :
    Inner (token :: tokens) ↔ token.kind.isEnd = false ∧ Inner tokens :=
  List.forall_mem_cons

@[simp] theorem inner_append {xs ys : List Token} : Inner (xs ++ ys) ↔ Inner xs ∧ Inner ys :=
  List.forall_mem_append

theorem Separated.parameters_inner {tokens : List Token} {xs : List String}
    (h : Separated Parameter tokens xs) : Inner tokens := by
  induction h with
  | last hx =>
      cases hx with
      | mk hname => simp [hname, Token.Kind.isEnd]
  | cons hx hcomma _ ih =>
      cases hx with
      | mk hname => simp [hname, hcomma, ih, Token.Kind.isEnd]

theorem Parenthesised.parameters_inner {tokens : List Token} {xs : List String}
    (h : Parenthesised Parameter tokens xs) : Inner tokens := by
  cases h with
  | empty hleft hright => simp [hleft, hright, Token.Kind.isEnd]
  | items hleft hxs hright => simp [hleft, hright, hxs.parameters_inner, Token.Kind.isEnd]

mutual

/-- No token of a primary is the end of the input. -/
theorem Primary.inner {tokens : List Token} {e : Expr} (h : Primary tokens e) : Inner tokens := by
  match h with
  | .number hkind => simp [hkind, Token.Kind.isEnd]
  | .plus hsign hkind => simp [hsign, hkind, Token.Kind.isEnd]
  | .minus hsign hkind => simp [hsign, hkind, Token.Kind.isEnd]
  | .boolean hkind => simp [hkind, Token.Kind.isEnd]
  | .variable hkind => simp [hkind, Token.Kind.isEnd]
  | .call htext hkind harguments => simp [htext, hkind, harguments.inner, Token.Kind.isEnd]
  | .function htext hkind hparameters hbody =>
      simp [htext, hkind, hparameters.parameters_inner, hbody.inner, Token.Kind.isEnd]
  | .group hleft he hright => simp [hleft, he.inner, hright, Token.Kind.isEnd]

theorem Operands.inner {level : Nat} {tokens : List Token} {e : Expr}
    (h : Operands level tokens e) : Inner tokens := by
  match h with
  | .primary h => exact h.inner
  | .tighter h => exact h.inner
  | .binary htext hleft hkind _ hright =>
      simp [htext, hleft.inner, hkind, hright.inner, Token.Kind.isEnd]

theorem Separated.inner {tokens : List Token} {es : List Expr}
    (h : Separated (Operands 1) tokens es) : Inner tokens := by
  match h with
  | .last he => exact he.inner
  | .cons he hcomma hrest => simp [he.inner, hcomma, hrest.inner, Token.Kind.isEnd]

theorem Parenthesised.inner {tokens : List Token} {es : List Expr}
    (h : Parenthesised (Operands 1) tokens es) : Inner tokens := by
  match h with
  | .empty hleft hright => simp [hleft, hright, Token.Kind.isEnd]
  | .items hleft hes hright => simp [hleft, hes.inner, hright, Token.Kind.isEnd]

theorem Repeated.inner {tokens : List Token} {stmts : List Stmt}
    (h : Repeated Statement tokens stmts) : Inner tokens := by
  match h with
  | .nil => exact inner_nil
  | .cons hstmt hrest => exact inner_append.mpr ⟨hstmt.inner, hrest.inner⟩

theorem Braced.inner {tokens : List Token} {stmts : List Stmt}
    (h : Braced Statement tokens stmts) : Inner tokens := by
  match h with
  | .mk hleft hstmts hright => simp [hleft, hstmts.inner, hright, Token.Kind.isEnd]

theorem Statement.inner {tokens : List Token} {stmt : Stmt} (h : Statement tokens stmt) :
    Inner tokens := by
  match h with
  | .declare htext hword hname hsign he hlast =>
      simp [htext, hword, hname, hsign, he.inner, hlast, Token.Kind.isEnd]
  | .assign htext hname hsign he hlast =>
      simp [htext, hname, hsign, he.inner, hlast, Token.Kind.isEnd]
  | .branch htext hword hleft htest hright hthen =>
      simp [htext, hword, hleft, htest.inner, hright, hthen.inner, Token.Kind.isEnd]
  | .branchElse htext hword hleft htest hright hthen hother helse =>
      simp [htext, hword, hleft, htest.inner, hright, hthen.inner, hother, helse.inner,
        Token.Kind.isEnd]
  | .loop htext hword hleft htest hright hbody =>
      simp [htext, hword, hleft, htest.inner, hright, hbody.inner, Token.Kind.isEnd]
  | .print htext hword hleft he hright hlast =>
      simp [htext, hword, hleft, he.inner, hright, hlast, Token.Kind.isEnd]
  | .give htext hword he hlast => simp [htext, hword, he.inner, hlast, Token.Kind.isEnd]
  | .discard htext he hlast => simp [htext, he.inner, hlast, Token.Kind.isEnd]

end

end Grammar

namespace Parser

open Grammar

/-- What there is to say about the tokens before the end of input `last`. They are a program, or can
be completed to one but are none, or one of them is the first with which no program goes on. -/
inductive Verdict (body : List Token) (last : Token) :
    Except ParseFailure Treewalk.Program → Prop where
  | accepted {stmts} : Grammar.Program body stmts → Verdict body last (.ok stmts)
  | incomplete {expected line} : (∀ stmts, ¬ Grammar.Program body stmts) →
      Viable Grammar.Program body →
      Verdict body last (.error (.error ⟨.unexpectedEnd expected, last.span, line⟩))
  | hopeless {k token expected line} : body[k]? = some token →
      Viable Grammar.Program (body.take k) → ¬ Viable Grammar.Program (body.take (k + 1)) →
      Verdict body last
        (.error (.error ⟨.unexpectedToken expected token.lexeme, token.span, line⟩))

/-- What begins a phrase, cut anywhere, still begins one. -/
theorem Viable.take {α : Type} {derives : List Token → α → Prop} {tokens : List Token}
    (h : Viable derives tokens) (k : Nat) : Viable derives (tokens.take k) := by
  obtain ⟨more, a, ha⟩ := h
  refine ⟨tokens.drop k ++ more, a, ?_⟩
  rw [← List.append_assoc, List.take_append_drop]
  exact ha

namespace Verdict

variable {body : List Token} {last : Token} {result : Except ParseFailure Treewalk.Program}

/-- The end of input is reported exactly where tokens are missing. -/
theorem unexpectedEnd_iff (h : Verdict body last result) :
    (∃ expected line, result = .error (.error ⟨.unexpectedEnd expected, last.span, line⟩)) ↔
      (∀ stmts, ¬ Grammar.Program body stmts) ∧ Viable Grammar.Program body := by
  cases h with
  | accepted hprogram =>
      exact ⟨fun ⟨_, _, h⟩ => (nomatch h), fun ⟨hnone, _⟩ => absurd hprogram (hnone _)⟩
  | incomplete hnone hviable => exact ⟨fun _ => ⟨hnone, hviable⟩, fun _ => ⟨_, _, rfl⟩⟩
  | hopeless _ _ hnot =>
      exact ⟨fun ⟨_, _, h⟩ => (nomatch h), fun ⟨_, hviable⟩ => absurd (hviable.take _) hnot⟩

/-- Showing a line does not change a verdict. -/
theorem showLine (h : Verdict body last result) (shown : Option String) :
    Verdict body last (result.mapError (·.showLine shown)) := by
  cases h with
  | accepted hprogram => exact .accepted hprogram
  | incomplete hnone hviable => exact .incomplete hnone hviable
  | hopeless htoken hviable hnot => exact .hopeless htoken hviable hnot

end Verdict

/-- A result is right about the tokens before the end of input, or is the failure at the limit. -/
def Judged (body : List Token) (last : Token) (limit : Nat)
    (result : Except ParseFailure Treewalk.Program) : Prop :=
  (result = .error .tooDeep ∧ limit ≤ body.length + 1) ∨ (Verdict body last result ∧
    ((∃ expected line, result = .error (.error ⟨.unexpectedEnd expected, last.span, line⟩)) ↔
      (∀ stmts, ¬ Grammar.Program body stmts) ∧ Viable Grammar.Program body))

theorem Verdict.judged {body : List Token} {last : Token} {limit : Nat}
    {result : Except ParseFailure Treewalk.Program} (h : Verdict body last result) :
    Judged body last limit result :=
  .inr ⟨h, h.unexpectedEnd_iff⟩

theorem Judged.showLine {body : List Token} {last : Token} {limit : Nat}
    {result : Except ParseFailure Treewalk.Program} (h : Judged body last limit result)
    (shown : Option String) : Judged body last limit (result.mapError (·.showLine shown)) := by
  rcases h with ⟨rfl, hlimit⟩ | ⟨hverdict, _⟩
  · exact .inl ⟨rfl, hlimit⟩
  · exact (hverdict.showLine shown).judged

/-- Nothing is missing in a program, at any limit. -/
theorem program_ne_missing {body : List Token} {last : Token} {stmts : Treewalk.Program}
    (hlast : last.kind.isEnd = true) (h : Grammar.Program body stmts) (limit : Nat)
    (expected : Expected) (c : Cursor) :
    program limit (Cursor.ofBody body last) ≠ (Outcome.missing expected).result c := by
  intro hmissing
  obtain ⟨_, hfound⟩ := program_finds h.inner hlast
    (show body.length < limit + body.length + 1 by omega) h
  have hreached : program limit (Cursor.ofBody body last) ≠ .error .tooDeep := by
    rw [hmissing]
    exact Outcome.result_ne_tooDeep _ _
  have hextends := program_extends (show limit ≤ limit + body.length + 1 by omega) _ hreached
  rw [hfound, hmissing] at hextends
  cases hextends

/-- No program goes on with a token where the parser misses something. -/
theorem not_viable_of_missing {limit : Nat} {tokens : List Token} {c c' : Cursor}
    {expected : Expected} (hread : Reads c tokens c')
    (hlocal : ∀ d d', Reached c.peek [] d → Reads d tokens d' → d'.peek = c'.peek →
      program limit d = (Outcome.missing expected).result d') :
    ¬ Viable Grammar.Program (tokens ++ [c'.peek]) := by
  rintro ⟨more, stmts, hprogram⟩
  -- The longer input is a program, but the parser fails on it as it fails here.
  have hlast : (madeToken .endOfInput).kind.isEnd = true := rfl
  obtain ⟨_, hall, _⟩ := reads_ofBody hprogram.inner hlast
  obtain ⟨_, hfirst, _⟩ := hall.split
  obtain ⟨d, htokens, hnext⟩ := hfirst.split
  have hpeek : d.peek = c'.peek := hnext.uncons.1
  refine program_ne_missing hlast hprogram limit expected d (hlocal _ d ?_ htokens hpeek)
  rw [← hread.peek_eq htokens hpeek]
  exact .here (ended_ofBody hlast)

/-- A token that is read next and does not end the input is one of those before the end. -/
theorem body_eq_append {body tokens : List Token} {last : Token} {c : Cursor} (hc : c.Ended)
    (hrest : body ++ [last] = tokens ++ c.rest) (hne : c.peek ≠ last) :
    ∃ others, body = tokens ++ c.peek :: others := by
  obtain ⟨rest, final, stop⟩ := c
  cases rest with
  | nil =>
      obtain ⟨_, hnone, _⟩ := hc
      cases hnone
  | cons token rest =>
      rcases List.append_eq_append_iff.mp hrest with ⟨more, _, hlast⟩ | ⟨more, hbody, htail⟩
      · rcases more with _ | ⟨_, _ | _⟩ <;> cases hlast
        exact absurd rfl hne
      · cases more with
        | nil =>
            cases htail
            exact absurd rfl hne
        | cons first others =>
            cases htail
            exact ⟨others, hbody⟩

/-- The parser of programs is judged by the grammar, on all bodies that are closed by the end of the
input. -/
theorem program_judged {body : List Token} {last : Token} (hbody : Inner body)
    (hlast : last.kind.isEnd = true) (limit : Nat) :
    Judged body last limit (parse (program limit) (body ++ [last])) := by
  have hended : (Cursor.ofBody body last).Ended := ended_ofBody hlast
  rw [parse_eq]
  cases program_parses limit _ hended with
  | tooDeep hrun hdeep =>
      refine .inl ⟨by rw [hrun]; rfl, ?_⟩
      simpa [Cursor.ofBody] using hdeep
  | @ends tokens c outcome hread hfits hlocal =>
      have hrun := hlocal _ c (.here hended) hread rfl
      rw [hrun]
      refine Verdict.judged ?_
      have hrest : body ++ [last] = tokens ++ c.rest := hread.rest_eq
      cases outcome with
      | found stmts => exact .accepted (program_accepts hbody hlast hrun)
      | missing expected =>
          simp only [Outcome.result, unexpected]
          split
          next hend =>
            obtain rfl := eq_body hbody (hended.of_reads hread) hread hend
            have hpeek : c.peek = last := by
              unfold Cursor.peek
              rw [← List.append_cancel_left hrest]
              rfl
            rw [hpeek]
            refine .incomplete (fun stmts hprogram => ?_) hfits
            exact program_ne_missing hlast hprogram limit expected c hrun
          next hend =>
            have hne : c.peek ≠ last := fun heq => hend (by rw [heq, hlast])
            obtain ⟨others, rfl⟩ := body_eq_append (hended.of_reads hread) hrest hne
            have htake : (tokens ++ c.peek :: others).take (tokens.length + 1) =
                tokens ++ [c.peek] := by
              rw [List.take_append, List.take_of_length_le (Nat.le_succ _),
                Nat.add_sub_cancel_left, List.take_succ_cons, List.take_zero]
            refine .hopeless (k := tokens.length) (by simp) ?_ ?_
            · rw [List.take_left]
              exact hfits
            · rw [htake]
              exact not_viable_of_missing hread hlocal

end Parser

open Treewalk.Parser

/-- The tokens of a source are some before the end of input, and the end of input. The parser judges
those before it, or reaches its limit. -/
theorem Program.ofSource_judged {source : Source} {tokens : List Token}
    (htokens : source.tokens = .ok tokens) :
    ∃ body last, tokens = body ++ [last] ∧ Grammar.Inner body ∧ last.kind.isEnd = true ∧
      ∃ result, ofSource source = result.mapError .parse ∧ Judged body last depthLimit result := by
  obtain ⟨pieces, tail, hpieces, hall⟩ := Source.decomposes_of_tokens htokens
  obtain ⟨body, last, hsplit, hbody, hlast⟩ := hpieces.tokens_end { file := source.file }
  have heq : tokens = body ++ [last] := hall.trans hsplit
  refine ⟨body, last, heq, hbody, hlast, _, ofSource_of_tokens htokens, ?_⟩
  rw [heq]
  exact (program_judged hbody hlast depthLimit).showLine _

namespace Source

/-- Errors are found at the earliest possible token. The tokens of a source are some before the end
of input, and the end of input. Reading a program, at any limit on its nesting that is not reached,
is a success if the tokens before the end are a program of the grammar. It is an unexpected end
exactly if they are none but others can complete them. Otherwise it is an unexpected token, reported
with its own text and place: those before it can be completed to a program, and with it they cannot.
A limit is reached only if there are about as many tokens. -/
theorem ofSource_earliest_error (source : Source) (tokens : List Token)
    (htokens : source.tokens = .ok tokens) :
    ∃ body last, tokens = body ++ [last] ∧ last.kind = .endOfInput ∧
      (∀ token ∈ body, token.kind ≠ .endOfInput) ∧
      (∀ limit, Judged body last limit (parse (program limit) tokens)) ∧
      ∃ result, Program.ofSource source = result.mapError .parse ∧
        Judged body last depthLimit result := by
  obtain ⟨body, last, rfl, hbody, hlast, hresult⟩ := Program.ofSource_judged htokens
  refine ⟨body, last, rfl, Token.Kind.isEnd_iff.mp hlast, fun token hmem hkind => ?_,
    program_judged hbody hlast, hresult⟩
  have hend := hbody token hmem
  rw [hkind] at hend
  cases hend

def faultOf : Except SyntaxFailure Program → Option ParseFault
  | .error (.parse (.error error)) => some error.fault
  | _ => none

/-- In `f(a,);` everything up to the comma can be completed, and the parenthesis after it is the
first token that cannot stand there. -/
theorem ofSource_earliest_error_comma :
    ∃ tokens body last k token, Source.tokens { text := "f(a,);" } = .ok tokens ∧
      tokens = body ++ [last] ∧ body[k]? = some token ∧ token.lexeme = ")" ∧
      Viable Grammar.Program (body.take k) ∧ ¬ Viable Grammar.Program (body.take (k + 1)) := by
  have hok : (Source.tokens { text := "f(a,);" }).isOk = true := by decide
  have hfault : faultOf (Program.ofSource { text := "f(a,);" }) =
      some (.unexpectedToken .expression ")") := by decide
  cases htokens : Source.tokens { text := "f(a,);" } with
  | error error =>
      rw [htokens] at hok
      cases hok
  | ok tokens =>
      obtain ⟨body, last, heq, _, _, _, result, hresult, hjudged⟩ :=
        ofSource_earliest_error _ tokens htokens
      rw [hresult] at hfault
      rcases hjudged with ⟨rfl, _⟩ | ⟨hverdict, _⟩
      · cases hfault
      · cases hverdict with
        | accepted _ => cases hfault
        | incomplete _ _ => cases hfault
        | @hopeless k token _ _ htoken hviable hnot =>
            exact ⟨tokens, body, last, k, token, rfl, heq, htoken,
              (ParseFault.unexpectedToken.inj (Option.some.inj hfault)).2, hviable, hnot⟩

end Source

end Treewalk
