import Treewalk.Proofs.Syntax.Exactness

/-! # How far a parser looks

Where it does not reach its limit, a parser ends in one of two ways. It yields what the grammar
derives from the tokens it has read, or it misses something after tokens that others can complete.
Either way it has looked at those tokens and at the one after them only, so that it ends alike
wherever they stand. `Settles` says this of a parser at a place; its rules follow the parser step by
step. The parsers of lists settle if those of their items do.
-/

namespace Treewalk

namespace Parser

open Grammar

variable {α β : Type}

/-- Some tokens can be completed by further ones. -/
def Viable (derives : List Token → α → Prop) (tokens : List Token) : Prop :=
  ∃ more a, derives (tokens ++ more) a

inductive Outcome (α : Type) where
  | found (a : α)
  | missing (expected : Expected)

namespace Outcome

def result : Outcome α → Cursor → Except ParseFailure (α × Cursor)
  | found a, c => .ok (a, c)
  | missing expected, c => .error (unexpected expected c)

/-- An outcome is right after some tokens. -/
def Fits (derives : List Token → α → Prop) (tokens : List Token) : Outcome α → Prop
  | found a => derives tokens a
  | missing _ => Viable derives tokens

/-- An outcome is never that the limit was reached. -/
theorem result_ne_tooDeep (outcome : Outcome α) (c : Cursor) :
    outcome.result c ≠ .error .tooDeep := by
  intro h
  cases outcome with
  | found a => cases h
  | missing expected =>
      simp only [result, unexpected] at h
      split at h <;> cases h

end Outcome

/-- A place to which some tokens lead from one with a given token next. -/
def Reached (start : Token) (before : List Token) (c : Cursor) : Prop :=
  ∃ c₀ : Cursor, c₀.Ended ∧ c₀.peek = start ∧ Reads c₀ before c

/-- At a place reached over the tokens `before`, a parser ends in a way that fits the tokens read so
far, and depends on no token but those it reads and the next one. Only with many tokens left it may
reach its limit instead. -/
inductive Settles (deep : Nat) (start : Token) (before : List Token) (parser : Parse α)
    (derives : List Token → α → Prop) (c : Cursor) : Prop where
  | tooDeep : parser c = .error .tooDeep → deep ≤ c.rest.length →
      Settles deep start before parser derives c
  | ends {tokens c'} (outcome : Outcome α) : Reads c tokens c' →
      outcome.Fits derives (before ++ tokens) →
      (∀ d d', Reached start before d → Reads d tokens d' → d'.peek = c'.peek →
        parser d = outcome.result d') →
      Settles deep start before parser derives c

/-- A parser settles at every place. -/
def Parses (deep : Nat) (parser : Parse α) (derives : List Token → α → Prop) : Prop :=
  ∀ c : Cursor, c.Ended → Settles deep c.peek [] parser derives c

/-- Where the same tokens are read before the same token, the same token comes first. -/
theorem Reads.peek_eq {a a' b b' : Cursor} {tokens : List Token} (h : Reads a tokens b)
    (h' : Reads a' tokens b') (hpeek : b'.peek = b.peek) : a'.peek = a.peek := by
  cases tokens with
  | nil => rw [← h.eq_of_nil, ← h'.eq_of_nil, hpeek]
  | cons token tokens => rw [h.uncons.1, h'.uncons.1]

namespace Reached

variable {start : Token} {before tokens : List Token} {c c' : Cursor}

theorem here (hc : c.Ended) : Reached c.peek [] c := ⟨c, hc, rfl, .nil⟩

theorem ended (h : Reached start before c) : c.Ended := by
  obtain ⟨c₀, hended, _, hread⟩ := h
  exact hended.of_reads hread

/-- Reading on reaches what is read as well. -/
theorem append (h : Reached start before c) (hread : Reads c tokens c') :
    Reached start (before ++ tokens) c' := by
  obtain ⟨c₀, hended, hstart, hbefore⟩ := h
  exact ⟨c₀, hended, hstart, hbefore.append hread⟩

/-- The span of all that was read is that of its tokens. -/
theorem spanFrom_eq (h : Reached start before c) (hne : before ≠ []) :
    spanFrom start c = .ok (spanOf before, c) := by
  obtain ⟨c₀, _, rfl, hread⟩ := h
  exact hread.spanFrom_eq hne

end Reached

def andThen (x : Parse α) (rest : α → Parse β) : Parse β := fun c =>
  x c >>= fun result => rest result.1 result.2

namespace Settles

variable {deep : Nat} {start : Token} {before : List Token} {c : Cursor}
  {derives : List Token → β → Prop}

theorem done {b : β} (h : derives before b) :
    Settles deep start before (fun c => .ok (b, c)) derives c := by
  refine .ends (.found b) .nil ?_ fun d d' _ hread _ => ?_
  · rw [List.append_nil]
    exact h
  · rw [hread.eq_of_nil]
    rfl

/-- A parser may fail at the next token where what was read can be completed. -/
theorem miss (expected : Expected) (h : Viable derives before) :
    Settles deep start before (fun c => .error (unexpected expected c)) derives c := by
  refine .ends (.missing expected) .nil ?_ fun d d' _ hread _ => ?_
  · rw [List.append_nil]
    exact h
  · rw [hread.eq_of_nil]
    rfl

/-- The next token decides how a parser goes on. -/
theorem choose {parser : Parse β} (other : Parse β) (hc : Reached start before c)
    (heq : ∀ d : Cursor, d.Ended → d.peek = c.peek → parser d = other d)
    (h : Settles deep start before other derives c) :
    Settles deep start before parser derives c := by
  cases h with
  | tooDeep hrun hdeep => exact .tooDeep ((heq c hc.ended rfl).trans hrun) hdeep
  | ends outcome hread hfits hlocal =>
      refine .ends outcome hread hfits fun d d' hd hread' hpeek => ?_
      rw [heq d hd.ended (hread.peek_eq hread' hpeek)]
      exact hlocal d d' hd hread' hpeek

/-- The next token is read, whatever comes after it. -/
theorem advance {parser : Parse β} (rest : Parse β)
    (hc : Reached start before c) (hend : c.peek.kind.isEnd = false)
    (heq : ∀ d : Cursor, d.Ended → d.peek = c.peek → parser d = rest d.next)
    (h : Reached start (before ++ [c.peek]) c.next →
      Settles (deep - 1) start (before ++ [c.peek]) rest derives c.next) :
    Settles deep start before parser derives c := by
  have hstep := hc.ended.reads_next hend
  cases h (hc.append hstep) with
  | tooDeep hrun hdeep =>
      have hlength := hstep.length_eq
      rw [List.length_singleton] at hlength
      exact .tooDeep ((heq c hc.ended rfl).trans hrun) (by omega)
  | @ends tokens c' outcome hread hfits hlocal =>
      rw [List.append_assoc] at hfits
      refine .ends outcome (hstep.append hread) hfits fun d d' hd hread' hpeek => ?_
      rw [heq d hd.ended ((hstep.append hread).peek_eq hread' hpeek)]
      obtain ⟨d₁, hfirst, hrest⟩ := hread'.split_cons
      have hnext : d₁ = d.next := hfirst.uncons.2.2.eq_of_nil
      rw [← hnext]
      exact hlocal d₁ d' (hd.append hfirst) hrest hpeek

/-- The next two tokens decide how a parser goes on. The first of them is read at least, since it
does not settle the outcome. -/
theorem foresee {parser : Parse β} (other : Parse β) (hc : Reached start before c)
    (heq : ∀ d : Cursor, d.Ended → d.peek = c.peek → d.next.peek = c.next.peek →
      parser d = other d)
    (hopen : ∀ outcome : Outcome β, ∃ d, Reached start before d ∧ d.peek = c.peek ∧
      other d ≠ outcome.result d)
    (h : Settles deep start before other derives c) :
    Settles deep start before parser derives c := by
  cases h with
  | tooDeep hrun hdeep => exact .tooDeep ((heq c hc.ended rfl rfl).trans hrun) hdeep
  | @ends tokens c' outcome hread hfits hlocal =>
      refine .ends outcome hread hfits fun d d' hd hread' hpeek => ?_
      rw [heq d hd.ended (hread.peek_eq hread' hpeek)]
      · exact hlocal d d' hd hread' hpeek
      cases tokens with
      | nil =>
          obtain ⟨e, he, hpeek, hne⟩ := hopen outcome
          rw [hread.eq_of_nil] at hlocal
          exact absurd (hlocal e e he .nil hpeek) hne
      | cons token tokens => exact hread.uncons.2.2.peek_eq hread'.uncons.2.2 hpeek

/-- A parser goes on after another one that is complete in itself. -/
theorem bind {x : Parse α} {f : α × Cursor → Except ParseFailure (β × Cursor)}
    {part : List Token → α → Prop} {inner : Nat} (hx : Settles inner c.peek [] x part c)
    (hc : Reached start before c) (hinner : deep ≤ inner)
    (hviable : ∀ tokens a, part tokens a → Viable derives (before ++ tokens))
    (hf : ∀ tokens a c₁, x c = .ok (a, c₁) → Reads c tokens c₁ → part tokens a →
      Reached start (before ++ tokens) c₁ →
      Settles (deep - tokens.length) start (before ++ tokens) (fun c => f (a, c)) derives c₁) :
    Settles deep start before (fun c => x c >>= f) derives c := by
  cases hx with
  | tooDeep hrun hdeep => exact .tooDeep (by rw [hrun]; rfl) (Nat.le_trans hinner hdeep)
  | @ends tokens c₁ outcome hread hfits hlocal =>
      have hrun : ∀ d d', Reached start before d → Reads d tokens d' → d'.peek = c₁.peek →
          x d = outcome.result d' := by
        intro d d' hd hread' hpeek
        have hfirst := hread.peek_eq hread' hpeek
        exact hlocal d d' (hfirst ▸ .here hd.ended) hread' hpeek
      cases outcome with
      | missing expected =>
          obtain ⟨more, a, ha⟩ := hfits
          obtain ⟨others, b, hb⟩ := hviable _ _ ha
          refine .ends (.missing expected) hread
            ⟨more ++ others, b, by simpa using hb⟩ fun d d' hd hread' hpeek => ?_
          rw [hrun d d' hd hread' hpeek]
          rfl
      | found a =>
          have hok : x c = .ok (a, c₁) := hrun c c₁ hc hread rfl
          cases hf tokens a c₁ hok hread hfits (hc.append hread) with
          | tooDeep hrest hdeep =>
              have hlength := hread.length_eq
              exact .tooDeep (by rw [hok]; exact hrest) (by omega)
          | @ends others c₂ outcome hothers hfits hrest =>
              rw [List.append_assoc] at hfits
              refine .ends outcome (hread.append hothers) hfits fun d d' hd hread' hpeek => ?_
              obtain ⟨d₁, hfirst, hsecond⟩ := hread'.split
              rw [hrun d d₁ hd hfirst (hothers.peek_eq hsecond hpeek)]
              exact hrest d₁ d' (hd.append hfirst) hsecond hpeek

/-- A part is parsed, and then the rest: what begins the part begins the whole. -/
theorem andThen {x : Parse α} {rest : α → Parse β} {part : List Token → α → Prop} {inner : Nat}
    (hx : Settles inner c.peek [] x part c) (hc : Reached start before c) (hinner : deep ≤ inner)
    (hviable : ∀ tokens a, part tokens a → Viable derives (before ++ tokens))
    (hrest : ∀ tokens a c₁, x c = .ok (a, c₁) → Reads c tokens c₁ → part tokens a →
      Reached start (before ++ tokens) c₁ →
      Settles (deep - tokens.length) start (before ++ tokens) (rest a) derives c₁) :
    Settles deep start before (Parser.andThen x rest) derives c :=
  .bind hx hc hinner hviable hrest

/-- A parser that is complete in itself comes last. -/
theorem last {parser : Parse β} {part : List Token → β → Prop} {inner : Nat}
    (h : Settles inner c.peek [] parser part c) (hc : Reached start before c)
    (hinner : deep ≤ inner)
    (hpart : ∀ tokens b, part tokens b → derives (before ++ tokens) b) :
    Settles deep start before parser derives c := by
  refine .choose (fun c => parser c >>= fun result => .ok result) hc (fun d _ _ => ?_)
    (.bind h hc hinner (fun tokens b hb => ⟨[], b, ?_⟩)
      fun tokens b c₁ _ _ hb _ => .done (hpart _ _ hb))
  · cases parser d <;> rfl
  · rw [List.append_nil]
    exact hpart _ _ hb

/-- A span is taken of the tokens read so far. -/
theorem span {rest : Option Span → Parse β} (hne : before ≠ []) (hc : Reached start before c)
    (h : Settles deep start before (rest (spanOf before)) derives c) :
    Settles deep start before (Parser.andThen (spanFrom start) rest) derives c := by
  cases h with
  | tooDeep hrun hdeep =>
      refine .tooDeep ?_ hdeep
      unfold Parser.andThen
      rw [hc.spanFrom_eq hne]
      exact hrun
  | ends outcome hread hfits hlocal =>
      refine .ends outcome hread hfits fun d d' hd hread' hpeek => ?_
      unfold Parser.andThen
      rw [hd.spanFrom_eq hne]
      exact hlocal d d' hd hread' hpeek

end Settles

/-- A token of a kind, to complete others with. -/
def madeToken (kind : Token.Kind) : Token := ⟨kind, "", default⟩

inductive Sign (sign : Symbol) : List Token → Unit → Prop where
  | mk {token} : token.kind = .symbol sign → Sign sign [token] ()

theorem symbol_parses (deep : Nat) (sign : Symbol) : Parses deep (symbol sign) (Sign sign) := by
  intro c hc
  by_cases hsign : isSymbol sign c.peek = true
  · have hkind := isSymbol_iff.mp hsign
    refine .advance (fun c => .ok ((), c)) (.here hc) (by rw [hkind]; rfl) (fun d _ hpeek => ?_)
      fun _ => .done (.mk hkind)
    simp only [symbol, hpeek, hsign, ↓reduceIte]
  · refine .choose _ (.here hc) (fun d _ hpeek => ?_)
      (.miss (.symbol sign) ⟨[madeToken (.symbol sign)], (), .mk rfl⟩)
    simp only [symbol, hpeek, hsign, Bool.false_eq_true, ↓reduceIte]

theorem name_parses (deep : Nat) (expected : Expected) :
    Parses deep (name expected) Parameter := by
  intro c hc
  cases hkind : c.peek.kind with
  | identifier x =>
      refine .advance (fun c => .ok (x, c)) (.here hc) (by rw [hkind]; rfl) (fun d _ hpeek => ?_)
        fun _ => .done (.mk hkind)
      simp only [name, hpeek, hkind]
  | _ =>
      refine .choose _ (.here hc) (fun d _ hpeek => ?_)
        (.miss expected ⟨[madeToken (.identifier "")], "", .mk rfl⟩)
      simp only [name, hpeek, hkind]

/-- A parser that follows the grammar reads phrases of the grammar. -/
theorem Parses.accepts {deep : Nat} {parser : Parse α} {derives : List Token → α → Prop}
    (h : Parses deep parser derives) : Accepts parser derives := by
  intro c a c' hc hrun
  cases h c hc with
  | tooDeep hdeep =>
      rw [hrun] at hdeep
      cases hdeep
  | ends outcome hread hfits hlocal =>
      have hresult := hlocal c _ (.here hc) hread rfl
      rw [hrun] at hresult
      cases outcome with
      | found b =>
          cases hresult
          exact ⟨_, hread, hfits⟩
      | missing expected => cases hresult

/-- Two ways to go on are the same if they agree on what is yielded. -/
theorem bind_congr {β : Type} {x : Except ParseFailure (α × Cursor)}
    {f g : α × Cursor → Except ParseFailure β}
    (h : ∀ a c, x = .ok (a, c) → f (a, c) = g (a, c)) : (x >>= f) = (x >>= g) := by
  cases x with
  | error failure => rfl
  | ok result => exact h result.1 result.2 rfl

section Lists

variable {item : Parse α} {derives : List Token → α → Prop} {deep : Nat}

/-- The rounds do not matter, since a comma is read in each. -/
theorem moreItems_rounds (hitem : Accepts item derives) {rounds rounds' : Nat} {c : Cursor}
    (hc : c.Ended) (h : c.rest.length < rounds) (h' : c.rest.length < rounds') :
    moreItems item rounds c = moreItems item rounds' c := by
  induction rounds generalizing c rounds' with
  | zero => exact absurd h (Nat.not_lt_zero _)
  | succ rounds ih =>
      obtain ⟨rounds', rfl⟩ : ∃ k, rounds' = k + 1 := ⟨rounds' - 1, by omega⟩
      unfold moreItems
      split
      next hcomma =>
        refine bind_congr fun first c₁ hfirst => ?_
        have hstep := hc.reads_next (by rw [isSymbol_iff.mp hcomma]; rfl)
        obtain ⟨tokens, hread, _⟩ := hitem _ _ _ (hc.of_reads hstep) hfirst
        have hlength := (hstep.append hread).length_eq
        rw [List.length_append, List.length_singleton] at hlength
        have hrounds : moreItems item rounds c₁ = moreItems item rounds' c₁ :=
          ih (hc.of_reads (hstep.append hread)) (by omega) (by omega)
        simp only [hrounds]
      · rfl

inductive AfterComma (derives : List Token → α → Prop) : List Token → α → Prop where
  | mk {comma tokens x} : comma.kind = .symbol .comma → derives tokens x →
      AfterComma derives (comma :: tokens) x

/-- An item, and others after commas, are items separated by commas. -/
theorem separated_of_afterComma {tokens rest : List Token} {x : α} {xs : List α}
    (hx : derives tokens x) (h : Repeated (AfterComma derives) rest xs) :
    Separated derives (tokens ++ rest) (x :: xs) := by
  induction h generalizing tokens x with
  | nil =>
      rw [List.append_nil]
      exact .last hx
  | cons hfirst _ ih =>
      cases hfirst with
      | mk hcomma hfirst => exact .cons hx hcomma (ih hfirst)

theorem moreItems_parses (hitem : Parses deep item derives) :
    Parses deep (fun c => moreItems item (c.rest.length + 1) c)
      (Repeated (AfterComma derives)) := by
  intro c
  induction hn : c.rest.length using Nat.strongRecOn generalizing c with
  | ind n ih =>
  intro hc
  by_cases hcomma : isSymbol .comma c.peek = true
  · have hkind := isSymbol_iff.mp hcomma
    have hend : c.peek.kind.isEnd = false := by rw [hkind]; rfl
    refine .advance
      (andThen item fun first => andThen (fun c => moreItems item (c.rest.length + 1) c)
        fun others c => .ok (first :: others, c))
      (.here hc) hend (fun d hd hpeek => ?_) fun hnext =>
      .andThen (hitem _ hnext.ended) hnext (by omega) (fun tokens x hx => ?_)
        fun tokens x c₁ _ hread hx hc₁ => ?_
    · rw [← hpeek] at hcomma hend
      have hstep := hd.reads_next hend
      rw [moreItems]
      simp only [hcomma, ↓reduceIte]
      refine bind_congr fun first c₁ hfirst => ?_
      obtain ⟨tokens, hread, _⟩ := hitem.accepts _ _ _ (hd.of_reads hstep) hfirst
      have hlength := (hstep.append hread).length_eq
      rw [List.length_append, List.length_singleton] at hlength
      dsimp only
      rw [moreItems_rounds hitem.accepts (hd.of_reads (hstep.append hread)) (by omega)
        (Nat.lt_succ_self _)]
      rfl
    · exact ⟨[], [x], by simpa using Repeated.cons (AfterComma.mk hkind hx) .nil⟩
    · have hlength := ((hc.reads_next hend).append hread).length_eq
      rw [List.length_append, List.length_singleton] at hlength
      refine .andThen (ih _ (by omega) c₁ rfl hc₁.ended) hc₁ (by omega)
        (fun rest xs hxs => ?_) fun rest xs c₂ _ _ hxs _ => .done ?_
      · exact ⟨[], x :: xs, by simpa using Repeated.cons (AfterComma.mk hkind hx) hxs⟩
      · simpa using Repeated.cons (AfterComma.mk hkind hx) hxs
  · refine .choose _ (.here hc) (fun d _ hpeek => ?_) (.done .nil)
    simp only [moreItems, hpeek, hcomma, Bool.false_eq_true, ↓reduceIte]

/-- Items in parentheses are parsed if items are. -/
theorem parenthesised_parses (hitem : Parses deep item derives) :
    Parses (deep + 1) (parenthesised item) (Parenthesised derives) := by
  intro c hc
  have hright : (madeToken (.symbol .rightParen)).kind = .symbol .rightParen := rfl
  refine .bind (symbol_parses _ .leftParen c hc) (.here hc) (Nat.le_refl _) ?_ ?_
  · rintro _ _ ⟨hleft⟩
    exact ⟨[_], [], .empty hleft hright⟩
  rintro _ _ c₁ _ hread ⟨hleft⟩ hc₁
  by_cases hempty : isSymbol .rightParen c₁.peek = true
  · have hkind := isSymbol_iff.mp hempty
    refine .advance (fun c => .ok ([], c)) hc₁ (by rw [hkind]; rfl) (fun d _ hpeek => ?_)
      fun _ => .done (.empty hleft hkind)
    simp only [hpeek, hempty, ↓reduceIte]
  refine .choose
    (andThen item fun first => andThen (fun c => moreItems item (c.rest.length + 1) c)
      fun others => andThen (symbol .rightParen) fun _ c => .ok (first :: others, c))
    hc₁ (fun d _ hpeek => ?_) (.andThen (hitem _ hc₁.ended) hc₁ ?_ ?_ ?_)
  · simp only [hpeek, hempty, Bool.false_eq_true, ↓reduceIte]
    rfl
  · rw [List.length_singleton]
    omega
  · intro tokens x hx
    exact ⟨[_], [x], by simpa using Parenthesised.items hleft (.last hx) hright⟩
  intro tokens x c₂ _ _ hx hc₂
  refine .andThen (moreItems_parses hitem c₂ hc₂.ended) hc₂ ?_ ?_ ?_
  · rw [List.length_singleton]
    omega
  · intro rest xs hxs
    have hitems := separated_of_afterComma hx hxs
    exact ⟨[_], x :: xs, by simpa using Parenthesised.items hleft hitems hright⟩
  intro rest xs c₃ _ _ hxs hc₃
  have hitems := separated_of_afterComma hx hxs
  refine .andThen (symbol_parses _ .rightParen c₃ hc₃.ended) hc₃ (Nat.le_refl _) ?_ ?_
  · rintro _ _ ⟨hright⟩
    exact ⟨[], x :: xs, by simpa using Parenthesised.items hleft hitems hright⟩
  · rintro _ _ c₄ _ _ ⟨hright⟩ _
    exact .done (by simpa using Parenthesised.items hleft hitems hright)

section Statements

variable {statement : Parse Stmt} {form : List Token → Stmt → Prop}
  (hne : ∀ tokens stmt, form tokens stmt → tokens ≠ [])

include hne

/-- The rounds do not matter, since a statement has a token. -/
theorem statementsUntil_rounds (hstatement : Accepts statement form) (ends : Token → Bool)
    {rounds rounds' : Nat} {c : Cursor} (hc : c.Ended) (h : c.rest.length < rounds)
    (h' : c.rest.length < rounds') :
    statementsUntil ends statement rounds c = statementsUntil ends statement rounds' c := by
  induction rounds generalizing c rounds' with
  | zero => exact absurd h (Nat.not_lt_zero _)
  | succ rounds ih =>
      obtain ⟨rounds', rfl⟩ : ∃ k, rounds' = k + 1 := ⟨rounds' - 1, by omega⟩
      unfold statementsUntil
      split
      · rfl
      refine bind_congr fun first c₁ hfirst => ?_
      obtain ⟨tokens, hread, hform⟩ := hstatement _ _ _ hc hfirst
      have hlength := hread.length_eq
      have hpos := List.length_pos_iff.mpr (hne _ _ hform)
      have hrounds : statementsUntil ends statement rounds c₁ =
          statementsUntil ends statement rounds' c₁ :=
        ih (hc.of_reads hread) (by omega) (by omega)
      simp only [hrounds]

/-- Statements up to an end are parsed if statements are. -/
theorem statementsUntil_parses (hstatement : Parses deep statement form) (ends : Token → Bool) :
    Parses deep (fun c => statementsUntil ends statement (c.rest.length + 2) c)
      (Repeated form) := by
  intro c
  induction hn : c.rest.length using Nat.strongRecOn generalizing c with
  | ind n ih =>
  intro hc
  by_cases hends : ends c.peek = true
  · refine .choose _ (.here hc) (fun d _ hpeek => ?_) (.done .nil)
    simp only [statementsUntil, hpeek, hends, ↓reduceIte]
  refine .choose
    (andThen statement fun first =>
      andThen (fun c => statementsUntil ends statement (c.rest.length + 2) c)
        fun others c => .ok (first :: others, c))
    (.here hc) (fun d hd hpeek => ?_) (.andThen (hstatement c hc) (.here hc) (Nat.le_refl _) ?_ ?_)
  · rw [← hpeek] at hends
    rw [statementsUntil]
    simp only [hends, Bool.false_eq_true, ↓reduceIte]
    refine bind_congr fun first c₁ hfirst => ?_
    obtain ⟨tokens, hread, hform⟩ := hstatement.accepts _ _ _ hd hfirst
    have hlength := hread.length_eq
    dsimp only
    rw [statementsUntil_rounds hne hstatement.accepts ends (hd.of_reads hread) (by omega)
      (Nat.lt_add_of_pos_right Nat.two_pos)]
    rfl
  · intro tokens stmt hstmt
    exact ⟨[], [stmt], by simpa using Repeated.cons hstmt .nil⟩
  intro tokens stmt c₁ _ hread hstmt hc₁
  have hlength := hread.length_eq
  have hpos := List.length_pos_iff.mpr (hne _ _ hstmt)
  refine .andThen (ih _ (by omega) c₁ rfl hc₁.ended) hc₁ (by omega)
    (fun rest stmts hstmts => ?_) fun rest stmts c₂ _ _ hstmts _ => .done (.cons hstmt hstmts)
  exact ⟨[], stmt :: stmts, by simpa using Repeated.cons hstmt hstmts⟩

theorem block_parses (hstatement : Parses deep statement form) :
    Parses deep (block statement) (Braced form) := by
  intro c hc
  have hright : (madeToken (.symbol .rightBrace)).kind = .symbol .rightBrace := rfl
  refine .bind (symbol_parses _ .leftBrace c hc) (.here hc) (Nat.le_refl _) ?_ ?_
  · rintro _ _ ⟨hleft⟩
    exact ⟨[_], [], .mk hleft .nil hright⟩
  rintro _ _ c₁ _ _ ⟨hleft⟩ hc₁
  refine .bind (statementsUntil_parses hne hstatement _ c₁ hc₁.ended) hc₁ (by omega) ?_ ?_
  · intro tokens stmts hstmts
    exact ⟨[_], stmts, by simpa using Braced.mk hleft hstmts hright⟩
  intro tokens stmts c₂ _ _ hstmts hc₂
  refine .bind (symbol_parses _ .rightBrace c₂ hc₂.ended) hc₂ (Nat.le_refl _) ?_ ?_
  · rintro _ _ ⟨hright⟩
    exact ⟨[], stmts, by simpa using Braced.mk hleft hstmts hright⟩
  · rintro _ _ c₃ _ _ ⟨hright⟩ _
    exact .done (by simpa using Braced.mk hleft hstmts hright)

end Statements

end Lists

end Parser

end Treewalk
