import Treewalk.Program.Parser
import Treewalk.Proofs.Syntax.Grammar

/-! # Reading tokens

`Reads` follows the parser over tokens that it reads. Two notions tie a parser to a relation of the
grammar: it accepts nothing else (`Accepts`), and it finds what the relation derives where that is
followed by something that cannot belong to it (`Finds`). Both are shown here for the parsers of
lists, whatever their items are.
-/

namespace Treewalk

namespace Parser

open Grammar

variable {α β : Type}

theorem isSymbol_iff {sign : Symbol} {token : Token} :
    isSymbol sign token = true ↔ token.kind = .symbol sign := by
  unfold isSymbol
  cases token.kind with
  | symbol s => simp
  | _ => simp

theorem isKeyword_iff {word : Keyword} {token : Token} :
    isKeyword word token = true ↔ token.kind = .keyword word := by
  unfold isKeyword
  cases token.kind with
  | keyword w => simp
  | _ => simp

theorem Cursor.next_cons {token final : Token} {rest : List Token} {stop : Option Location}
    (hend : token.kind.isEnd = false) :
    (Cursor.mk (token :: rest) final stop).next = ⟨rest, final, some token.span.stop⟩ := by
  simp only [Cursor.next, Cursor.peek, List.headD_cons, hend]
  rfl

/-- Reading some tokens goes from one place to another. The end of input is not read. -/
inductive Reads : Cursor → List Token → Cursor → Prop where
  | nil {c} : Reads c [] c
  | cons {token rest final stop tokens c} :
      token.kind.isEnd = false → Reads ⟨rest, final, some token.span.stop⟩ tokens c →
      Reads ⟨token :: rest, final, stop⟩ (token :: tokens) c

namespace Reads

variable {a b c : Cursor} {token : Token} {tokens xs ys : List Token}

theorem append (hx : Reads a xs b) (hy : Reads b ys c) : Reads a (xs ++ ys) c := by
  induction hx with
  | nil => exact hy
  | cons hend _ ih => exact .cons hend (ih hy)

/-- What reads two lists of tokens reads the first one on the way. -/
theorem split (h : Reads a (xs ++ ys) c) : ∃ b, Reads a xs b ∧ Reads b ys c := by
  induction xs generalizing a with
  | nil => exact ⟨a, .nil, h⟩
  | cons x xs ih =>
      cases h with
      | cons hend hrest =>
          obtain ⟨b, hx, hy⟩ := ih hrest
          exact ⟨b, .cons hend hx, hy⟩

theorem split_cons (h : Reads a (token :: ys) c) : ∃ b, Reads a [token] b ∧ Reads b ys c := by
  cases h with
  | cons hend hrest => exact ⟨_, .cons hend .nil, hrest⟩

theorem rest_eq (h : Reads a tokens b) : a.rest = tokens ++ b.rest := by
  induction h with
  | nil => rfl
  | cons _ _ ih => exact congrArg _ ih

theorem length_eq (h : Reads a tokens b) : a.rest.length = tokens.length + b.rest.length := by
  rw [h.rest_eq, List.length_append]

/-- What is read first. -/
theorem uncons (h : Reads a (token :: tokens) b) :
    a.peek = token ∧ token.kind.isEnd = false ∧ Reads a.next tokens b := by
  cases h with
  | cons hend hrest =>
      refine ⟨rfl, hend, ?_⟩
      rw [Cursor.next_cons hend]
      exact hrest

theorem eq_of_nil (h : Reads a [] b) : b = a := by
  cases h
  rfl

/-- The first token and the others are read one after the other. -/
theorem step (h : Reads a (token :: tokens) b) :
    token = a.peek ∧ Reads a [a.peek] a.next ∧ Reads a.next tokens b := by
  obtain ⟨b, hfirst, hrest⟩ := h.split_cons
  obtain ⟨rfl, _, hnil⟩ := hfirst.uncons
  obtain rfl := hnil.eq_of_nil
  exact ⟨rfl, hfirst, hrest⟩

/-- The end of the input is never read. -/
theorem not_isEnd (h : Reads a tokens b) : ∀ token ∈ tokens, token.kind.isEnd = false := by
  induction h with
  | nil => simp
  | cons hend _ ih => exact List.forall_mem_cons.mpr ⟨hend, ih⟩

/-- The place where reading stopped is the end of the last token. -/
theorem stop_eq (h : Reads a tokens b) :
    b.stop = (tokens.getLast?.map (·.span.stop)).or a.stop := by
  induction h with
  | nil => rfl
  | @cons token rest final stop tokens c _ _ ih =>
      rw [ih, List.getLast?_cons]
      cases tokens.getLast? <;> rfl

/-- A node that begins where some tokens are read has their span. -/
theorem spanFrom_eq (h : Reads a tokens b) (hne : tokens ≠ []) :
    spanFrom a.peek b = .ok (spanOf tokens, b) := by
  cases tokens with
  | nil => exact absurd rfl hne
  | cons token tokens =>
      have hstop := h.stop_eq
      rw [List.getLast?_cons] at hstop
      unfold spanFrom spanOf
      rw [hstop, h.uncons.1, List.getLast?_cons]
      rfl

end Reads

/-- What comes second comes first after a step. -/
theorem Cursor.peek_next {c : Cursor} (hpeek : c.peek.kind.isEnd = false) :
    c.next.peek = c.peekSecond := by
  unfold Cursor.next
  rw [hpeek]
  rfl

/-- One of the tokens that are left ends the input. -/
def Cursor.Ended (c : Cursor) : Prop := ∃ last ∈ c.rest, last.kind.isEnd = true

namespace Cursor.Ended

variable {c : Cursor}

/-- A token other than the end of the input can be read. -/
theorem reads_next (hc : c.Ended) (hpeek : c.peek.kind.isEnd = false) :
    Reads c [c.peek] c.next := by
  obtain ⟨rest, final, stop⟩ := c
  cases rest with
  | nil =>
      obtain ⟨last, hlast, _⟩ := hc
      cases hlast
  | cons token rest =>
      have hend : token.kind.isEnd = false := hpeek
      rw [Cursor.next_cons hend]
      exact .cons hend .nil

theorem of_reads {tokens : List Token} {c' : Cursor} (hc : c.Ended) (h : Reads c tokens c') :
    c'.Ended := by
  obtain ⟨last, hlast, hend⟩ := hc
  rw [h.rest_eq, List.mem_append] at hlast
  rcases hlast with hread | hleft
  · rw [h.not_isEnd last hread] at hend
    cases hend
  · exact ⟨last, hleft, hend⟩

end Cursor.Ended

/-- What a parser yields has been made of the tokens it has read. -/
def Accepts (parser : Parse α) (derives : List Token → α → Prop) : Prop :=
  ∀ c a c', c.Ended → parser c = .ok (a, c') → ∃ tokens, Reads c tokens c' ∧ derives tokens a

/-- A parser yields a tree from its tokens if what follows them is right. -/
def Finds (parser : Parse α) (follow : Cursor → Prop) (tokens : List Token) (a : α) : Prop :=
  ∀ c c', Reads c tokens c' → follow c' → parser c = .ok (a, c')

/-- A parser that goes on after another one has succeeded only if both have. -/
theorem bind_ok {x : Except ParseFailure α} {f : α → Except ParseFailure β} {b : β}
    (h : (x >>= f) = .ok b) : ∃ a, x = .ok a ∧ f a = .ok b := by
  cases x with
  | error failure => cases h
  | ok a => exact ⟨a, rfl, h⟩

theorem ok_bind (a : α) (f : α → Except ParseFailure β) : (Except.ok a >>= f) = f a := rfl

theorem symbol_reads {sign : Symbol} {c c' : Cursor} {u : Unit} (hc : c.Ended)
    (h : symbol sign c = .ok (u, c')) :
    ∃ token, token.kind = .symbol sign ∧ Reads c [token] c' := by
  unfold symbol at h
  split at h
  next hsign =>
    cases h
    have hkind := isSymbol_iff.mp hsign
    exact ⟨c.peek, hkind, hc.reads_next (by rw [hkind]; rfl)⟩
  · cases h

theorem symbol_eq {sign : Symbol} {token : Token} {c c' : Cursor}
    (hkind : token.kind = .symbol sign) (h : Reads c [token] c') :
    symbol sign c = .ok ((), c') := by
  obtain ⟨hpeek, _, hnext⟩ := h.uncons
  rw [hnext.eq_of_nil]
  unfold symbol
  rw [hpeek, isSymbol_iff.mpr hkind]
  rfl

theorem name_accepts (expected : Expected) : Accepts (name expected) Parameter := by
  intro c x c' hc h
  unfold name at h
  split at h
  next hkind =>
    cases h
    exact ⟨[c.peek], hc.reads_next (by rw [hkind]; rfl), .mk hkind⟩
  · cases h

theorem name_eq {expected : Expected} {token : Token} {x : String} {c c' : Cursor}
    (hkind : token.kind = .identifier x) (h : Reads c [token] c') :
    name expected c = .ok (x, c') := by
  obtain ⟨hpeek, _, hnext⟩ := h.uncons
  rw [hnext.eq_of_nil]
  unfold name
  rw [hpeek, hkind]

/-- The first of some tokens is none that ends a list. -/
def Opens (closes : Token → Bool) (tokens : List Token) : Prop :=
  ∃ token rest, tokens = token :: rest ∧ closes token = false

namespace Opens

variable {closes : Token → Bool} {tokens : List Token}

theorem append (h : Opens closes tokens) (rest : List Token) : Opens closes (tokens ++ rest) := by
  obtain ⟨token, others, rfl, hcloses⟩ := h
  exact ⟨token, others ++ rest, rfl, hcloses⟩

/-- Nothing closes where something opens. -/
theorem peek (h : Opens closes tokens) {c c' : Cursor} (hread : Reads c tokens c') :
    closes c.peek = false := by
  obtain ⟨token, others, rfl, hcloses⟩ := h
  rw [hread.uncons.1]
  exact hcloses

theorem length_pos (h : Opens closes tokens) : 0 < tokens.length := by
  obtain ⟨token, others, rfl, _⟩ := h
  exact Nat.succ_pos _

end Opens

section Lists

variable {item : Parse α} {derives : List Token → α → Prop}

/-- Further items and the one before them have commas between them. -/
theorem moreItems_accepts (hitem : Accepts item derives) (rounds : Nat) {c₀ c c' : Cursor}
    {tokens : List Token} {x : α} {xs : List α} (hc : c₀.Ended) (hread : Reads c₀ tokens c)
    (hx : derives tokens x) (h : moreItems item rounds c = .ok (xs, c')) :
    ∃ all, Reads c₀ all c' ∧ Separated derives all (x :: xs) := by
  induction rounds generalizing c₀ c tokens x xs with
  | zero =>
      cases h
      exact ⟨tokens, hread, .last hx⟩
  | succ rounds ih =>
      unfold moreItems at h
      split at h
      next hcomma =>
        have hkind := isSymbol_iff.mp hcomma
        have hended := hc.of_reads hread
        have hstep := hended.reads_next (by rw [hkind]; rfl)
        obtain ⟨⟨first, c₁⟩, hfirst, h⟩ := bind_ok h
        obtain ⟨⟨others, c₂⟩, hothers, h⟩ := bind_ok h
        cases h
        obtain ⟨firstTokens, hfirstRead, hfirst⟩ := hitem _ _ _ (hended.of_reads hstep) hfirst
        obtain ⟨rest, hrestRead, hrest⟩ := ih (hended.of_reads hstep) hfirstRead hfirst hothers
        exact ⟨_, hread.append (hstep.append hrestRead), .cons hx hkind hrest⟩
      · cases h
        exact ⟨tokens, hread, .last hx⟩

/-- Items in parentheses are accepted if items are. -/
theorem parenthesised_accepts (hitem : Accepts item derives) :
    Accepts (parenthesised item) (Parenthesised derives) := by
  intro c xs c' hc h
  unfold parenthesised at h
  obtain ⟨⟨_, c₁⟩, hleft, h⟩ := bind_ok h
  obtain ⟨left, hleft, hleftRead⟩ := symbol_reads hc hleft
  have hc₁ := hc.of_reads hleftRead
  dsimp only at h
  split at h
  next hright =>
    cases h
    have hkind := isSymbol_iff.mp hright
    have hstep := hc₁.reads_next (by rw [hkind]; rfl)
    exact ⟨_, hleftRead.append hstep, .empty hleft hkind⟩
  · obtain ⟨⟨first, c₂⟩, hfirst, h⟩ := bind_ok h
    obtain ⟨⟨others, c₃⟩, hothers, h⟩ := bind_ok h
    obtain ⟨⟨_, c₄⟩, hright, h⟩ := bind_ok h
    cases h
    obtain ⟨firstTokens, hfirstRead, hfirst⟩ := hitem _ _ _ hc₁ hfirst
    obtain ⟨all, hallRead, hall⟩ := moreItems_accepts hitem _ hc₁ hfirstRead hfirst hothers
    obtain ⟨right, hright, hrightRead⟩ := symbol_reads (hc₁.of_reads hallRead) hright
    exact ⟨_, hleftRead.append (hallRead.append hrightRead), .items hleft hall hright⟩

/-- Statements up to a token that ends them follow each other. -/
theorem statementsUntil_accepts {statement : Parse Stmt} {derives : List Token → Stmt → Prop}
    (hstatement : Accepts statement derives) (ends : Token → Bool) (rounds : Nat) {c c' : Cursor}
    {stmts : List Stmt} (hc : c.Ended)
    (h : statementsUntil ends statement rounds c = .ok (stmts, c')) :
    ∃ tokens, Reads c tokens c' ∧ Repeated derives tokens stmts ∧ ends c'.peek = true := by
  induction rounds generalizing c stmts with
  | zero => cases h
  | succ rounds ih =>
      unfold statementsUntil at h
      split at h
      next hends =>
        cases h
        exact ⟨[], .nil, .nil, hends⟩
      · obtain ⟨⟨first, c₁⟩, hfirst, h⟩ := bind_ok h
        obtain ⟨⟨others, c₂⟩, hothers, h⟩ := bind_ok h
        cases h
        obtain ⟨tokens, hread, hfirst⟩ := hstatement _ _ _ hc hfirst
        obtain ⟨rest, hrestRead, hrest, hends⟩ := ih (hc.of_reads hread) hothers
        exact ⟨_, hread.append hrestRead, .cons hfirst hrest, hends⟩

theorem block_accepts {statement : Parse Stmt} {derives : List Token → Stmt → Prop}
    (hstatement : Accepts statement derives) : Accepts (block statement) (Braced derives) := by
  intro c stmts c' hc h
  unfold block at h
  obtain ⟨⟨_, c₁⟩, hleft, h⟩ := bind_ok h
  obtain ⟨⟨body, c₂⟩, hbody, h⟩ := bind_ok h
  obtain ⟨⟨_, c₃⟩, hright, h⟩ := bind_ok h
  cases h
  obtain ⟨left, hleft, hleftRead⟩ := symbol_reads hc hleft
  have hc₁ := hc.of_reads hleftRead
  obtain ⟨tokens, hread, hbody, _⟩ := statementsUntil_accepts hstatement _ _ hc₁ hbody
  obtain ⟨right, hright, hrightRead⟩ := symbol_reads (hc₁.of_reads hread) hright
  exact ⟨_, hleftRead.append (hread.append hrightRead), .mk hleft hbody hright⟩

/-- Items are found one by one if a comma may follow each of them. -/
theorem moreItems_eq {follow : Cursor → Prop}
    (hfinds : ∀ tokens x, derives tokens x → Finds item follow tokens x)
    (hcomma : ∀ c : Cursor, isSymbol .comma c.peek = true → follow c)
    {tokens : List Token} {xs : List α} (h : Separated derives tokens xs)
    {c c' : Cursor} (hread : Reads c tokens c') (hfollow : follow c')
    (hlast : isSymbol .comma c'.peek = false) :
    ∃ x others c₁, xs = x :: others ∧ item c = .ok (x, c₁) ∧ c₁.rest.length ≤ c.rest.length ∧
      ∀ rounds, c₁.rest.length < rounds → moreItems item rounds c₁ = .ok (others, c') := by
  induction h generalizing c with
  | @last tokens x hx =>
      refine ⟨x, [], c', rfl, hfinds _ _ hx c c' hread hfollow, ?_, fun rounds hrounds => ?_⟩
      · rw [hread.length_eq]
        omega
      · obtain ⟨k, rfl⟩ := Nat.exists_eq_add_of_lt hrounds
        simp only [moreItems, hlast, Bool.false_eq_true, ↓reduceIte]
  | @cons tokens comma rest x xs hx hkind _ ih =>
      obtain ⟨c₁, hfirst, htail⟩ := hread.split
      obtain ⟨hpeek, _, hrest⟩ := htail.uncons
      have hsign : isSymbol .comma c₁.peek = true := by rw [hpeek, isSymbol_iff, hkind]
      obtain ⟨y, others, c₂, rfl, hy, hle, hmore⟩ := ih hrest
      have hlength := htail.length_eq
      have hrestLength := hrest.length_eq
      rw [List.length_cons] at hlength
      refine ⟨x, y :: others, c₁, rfl, hfinds _ _ hx c c₁ hfirst (hcomma c₁ hsign), ?_,
        fun rounds hrounds => ?_⟩
      · rw [hfirst.length_eq]
        omega
      · obtain ⟨k, rfl⟩ := Nat.exists_eq_add_of_lt hrounds
        simp only [moreItems, hsign, ↓reduceIte, hy, ok_bind]
        rw [hmore _ (by omega)]
        rfl

/-- Items begin with the token that their first item begins with. -/
theorem opens_of_separated {closes : Token → Bool}
    (hopens : ∀ tokens x, derives tokens x → Opens closes tokens) {tokens : List Token}
    {xs : List α} (h : Separated derives tokens xs) : Opens closes tokens := by
  cases h with
  | last hx => exact hopens _ _ hx
  | cons hx _ _ => exact (hopens _ _ hx).append _

/-- Items in parentheses are found if items are, as long as no item looks like the end of the
list. -/
theorem parenthesised_finds {follow : Cursor → Prop}
    (hfinds : ∀ tokens x, derives tokens x → Finds item follow tokens x)
    (hopens : ∀ tokens x, derives tokens x → Opens (isSymbol .rightParen) tokens)
    (hcomma : ∀ c : Cursor, isSymbol .comma c.peek = true → follow c)
    (hparen : ∀ c : Cursor, isSymbol .rightParen c.peek = true → follow c)
    {tokens : List Token} {xs : List α} (h : Parenthesised derives tokens xs) :
    Finds (parenthesised item) (fun _ => True) tokens xs := by
  intro c c' hread _
  unfold parenthesised
  cases h with
  | @empty left right hleft hright =>
      obtain ⟨c₁, hleftRead, hrightRead⟩ := hread.split_cons
      obtain ⟨hpeek, _, hnext⟩ := hrightRead.uncons
      have hsign : isSymbol .rightParen c₁.peek = true := by rw [hpeek, isSymbol_iff, hright]
      rw [symbol_eq hleft hleftRead, ok_bind]
      simp only [hsign, ↓reduceIte]
      rw [hnext.eq_of_nil]
  | @items left tokens right xs hleft hitems hright =>
      obtain ⟨c₁, hleftRead, htail⟩ := hread.split_cons
      obtain ⟨c₂, hitemsRead, hrightRead⟩ := htail.split
      have hpeek : c₂.peek = right := hrightRead.uncons.1
      have hsign : isSymbol .rightParen c₂.peek = true := by rw [hpeek, isSymbol_iff, hright]
      have hlast : isSymbol .comma c₂.peek = false := by
        unfold isSymbol
        rw [hpeek, hright]
        rfl
      have hopen := (opens_of_separated hopens hitems).peek hitemsRead
      obtain ⟨x, others, c₃, rfl, hx, _, hmore⟩ :=
        moreItems_eq hfinds hcomma hitems hitemsRead (hparen c₂ hsign) hlast
      rw [symbol_eq hleft hleftRead, ok_bind]
      simp only [hopen, Bool.false_eq_true, ↓reduceIte, hx, ok_bind]
      rw [hmore _ (Nat.lt_succ_self _), ok_bind]
      simp only [symbol_eq hright hrightRead, ok_bind]

/-- Statements are found up to the token that ends them. -/
theorem statementsUntil_eq {statement : Parse Stmt} {derives : List Token → Stmt → Prop}
    {follow : Cursor → Prop} {ends : Token → Bool}
    (hfinds : ∀ tokens stmt, derives tokens stmt → Finds statement follow tokens stmt)
    (hopens : ∀ tokens stmt, derives tokens stmt → Opens ends tokens)
    (hnext : ∀ c c' tokens stmt, derives tokens stmt → Reads c tokens c' → follow c)
    {tokens : List Token} {stmts : List Stmt} (h : Repeated derives tokens stmts) {c c' : Cursor}
    (hread : Reads c tokens c') (hends : ends c'.peek = true) (hfollow : follow c') {rounds : Nat}
    (hrounds : c.rest.length < rounds) :
    statementsUntil ends statement rounds c = .ok (stmts, c') := by
  induction h generalizing c rounds with
  | nil =>
      obtain ⟨k, rfl⟩ := Nat.exists_eq_add_of_lt hrounds
      rw [hread.eq_of_nil] at hends ⊢
      simp only [statementsUntil, hends, ↓reduceIte]
  | @cons tokens rest stmt stmts hstmt hrest ih =>
      obtain ⟨k, rfl⟩ := Nat.exists_eq_add_of_lt hrounds
      obtain ⟨c₁, hfirst, htail⟩ := hread.split
      have hopen := (hopens _ _ hstmt).peek hfirst
      have hfollow₁ : follow c₁ := by
        cases hrest with
        | nil =>
            rw [htail.eq_of_nil] at hfollow
            exact hfollow
        | cons hstmt' _ =>
            obtain ⟨c₂, hsecond, _⟩ := htail.split
            exact hnext _ _ _ _ hstmt' hsecond
      have hlength := hfirst.length_eq
      have hpos := (hopens _ _ hstmt).length_pos
      simp only [statementsUntil, hopen, Bool.false_eq_true, ↓reduceIte,
        hfinds _ _ hstmt c c₁ hfirst hfollow₁, ok_bind]
      rw [ih htail (by omega)]
      rfl

/-- Blocks are found if statements are, as long as no statement looks like the end of the block. -/
theorem block_finds {statement : Parse Stmt} {derives : List Token → Stmt → Prop}
    {follow : Cursor → Prop}
    (hfinds : ∀ tokens stmt, derives tokens stmt → Finds statement follow tokens stmt)
    (hopens : ∀ tokens stmt, derives tokens stmt →
      Opens (fun token => isSymbol .rightBrace token || token.kind.isEnd) tokens)
    (hnext : ∀ c c' tokens stmt, derives tokens stmt → Reads c tokens c' → follow c)
    (hbrace : ∀ c : Cursor, isSymbol .rightBrace c.peek = true → follow c)
    {tokens : List Token} {stmts : List Stmt} (h : Braced derives tokens stmts) :
    Finds (block statement) (fun _ => True) tokens stmts := by
  intro c c' hread _
  unfold block
  cases h with
  | @mk left tokens right stmts hleft hstmts hright =>
      obtain ⟨c₁, hleftRead, htail⟩ := hread.split_cons
      obtain ⟨c₂, hstmtsRead, hrightRead⟩ := htail.split
      have hsign : isSymbol .rightBrace c₂.peek = true := by
        rw [hrightRead.uncons.1, isSymbol_iff, hright]
      have hbody := statementsUntil_eq hfinds hopens hnext hstmts hstmtsRead
        (by rw [hsign]; rfl) (hbrace c₂ hsign) (Nat.lt_add_of_pos_right Nat.two_pos)
      rw [symbol_eq hleft hleftRead, ok_bind]
      dsimp only
      rw [hbody, ok_bind]
      simp only [symbol_eq hright hrightRead, ok_bind]

end Lists

end Parser

/-! ## Sources -/

namespace Program

variable {source : Source}

/-- Where tokens cannot be cut, nothing is parsed. -/
theorem ofSource_of_lexError {error : LexError} (h : source.tokens = .error error) :
    ofSource source = .error (.lex error) := by
  unfold ofSource
  rw [h]
  rfl

/-- Where tokens can be cut, they are parsed, and the source is there to show a line of. -/
theorem ofSource_of_tokens {tokens : List Token} (h : source.tokens = .ok tokens) :
    ofSource source = (ofTokens tokens (some source.text)).mapError .parse := by
  unfold ofSource
  rw [h]
  rfl

end Program

end Treewalk
