import Treewalk.Proofs.Source.Lexemes

/-! # The scanner and the lexemes

The scanner takes the longest gap and then the longest lexeme off the front of a text. What it takes
is one step of a decomposition, and no decomposition takes another one, so that it finds the only
decomposition there is or none at all.
-/

namespace Treewalk

namespace Lexical

open Lexer

variable {c : Char} {cs rest gap text digits fraction : List Char} {form : Form}
  {kind : Token.Kind}

/-! ## Gaps are split off -/

theorem isBlank_iff : isBlank c = true ↔ c ∈ blanks := by
  simp [isBlank, blanks, or_assoc]

theorem exists_of_mem_head? (h : c ∈ cs.head?) : ∃ rest, cs = c :: rest := by
  cases cs with
  | nil => cases h
  | cons d rest =>
      cases h
      exact ⟨rest, rfl⟩

/-- No gap goes on with a text. -/
structure NoGap (rest : List Char) : Prop where
  blank : ∀ c ∈ rest.head?, c ∉ blanks
  comment : ∀ more, rest ≠ '/' :: '/' :: more

theorem noGap_nil : NoGap [] := ⟨nofun, nofun⟩

/-- The rest of a comment and the gap after it. -/
def InComment (rest gap : List Char) : Prop :=
  ∃ body after, gap = body ++ after ∧ '\n' ∉ body ∧ (∀ c ∈ (after ++ rest).head?, c = '\n') ∧
    Gap rest after

/-- A gap and what comes after it make up the text. -/
theorem splitGap_append (inComment : Bool) (cs : List Char) :
    (splitGap inComment cs).1 ++ (splitGap inComment cs).2 = cs := by
  induction cs generalizing inComment with
  | nil => rfl
  | cons c cs ih =>
      unfold splitGap
      split
      · exact congrArg (c :: ·) (ih _)
      · split
        · exact congrArg (c :: ·) (ih _)
        · split
          · exact congrArg (c :: ·) (ih _)
          · rfl

/-- What is left after a gap has no gap in front. -/
theorem splitGap_noGap (inComment : Bool) (cs : List Char) :
    NoGap (splitGap inComment cs).2 := by
  induction cs generalizing inComment with
  | nil => exact noGap_nil
  | cons c cs ih =>
      unfold splitGap
      split
      · exact ih _
      · split
        · exact ih _
        next hblank =>
          split
          · exact ih _
          next hcomment =>
            refine ⟨?_, ?_⟩
            · rintro _ ⟨⟩ hmem
              exact hblank (isBlank_iff.mpr hmem)
            · rintro more heq
              cases heq
              exact hcomment rfl

/-- What is split off in front of a text is a gap, or the rest of an open comment and a gap. -/
theorem splitGap_gap (inComment : Bool) (cs : List Char) :
    if inComment then InComment (splitGap inComment cs).2 (splitGap inComment cs).1
    else Gap (splitGap inComment cs).2 (splitGap inComment cs).1 := by
  induction cs generalizing inComment with
  | nil =>
      split
      · exact ⟨[], [], rfl, by simp, by simp [splitGap], .nil⟩
      · exact .nil
  | cons c cs ih =>
      cases inComment with
      | true =>
          simp only [splitGap, ↓reduceIte]
          by_cases hfeed : c = '\n'
          · -- The line feed is behind the comment.
            have hgap := ih false
            subst hfeed
            exact ⟨[], _, rfl, by simp, by simp, .blank (by decide) hgap⟩
          · obtain ⟨body, after, hsplit, hbody, hafter, hgap⟩ := ih true
            have hopen : (c != '\n') = true := by simpa using hfeed
            rw [hopen]
            refine ⟨c :: body, after, by rw [hsplit]; rfl, ?_, hafter, hgap⟩
            simpa [Ne.symm hfeed] using hbody
      | false =>
          simp only [splitGap, Bool.false_eq_true, ↓reduceIte]
          split
          next hblank => exact .blank (isBlank_iff.mp hblank) (ih false)
          next =>
            split
            next hcomment =>
              obtain ⟨body, after, hsplit, hbody, hafter, hgap⟩ := ih true
              have happend := splitGap_append true cs
              obtain ⟨hslash, hnext⟩ : c = '/' ∧ cs.head? = some '/' := by simpa using hcomment
              obtain ⟨more, rfl⟩ := exists_of_mem_head? hnext
              -- The second slash is the first character that the open comment takes.
              cases body with
              | nil =>
                  rw [hsplit, List.nil_append] at happend
                  rw [happend] at hafter
                  exact absurd (hafter '/' rfl) (by decide)
              | cons d body =>
                  rw [hsplit] at happend ⊢
                  obtain ⟨rfl, _⟩ := List.cons.inj happend
                  rw [hslash]
                  exact .comment (fun hmem => hbody (List.mem_cons_of_mem _ hmem)) hafter hgap
            next => exact .nil

/-- A comment takes all of its line, and what is skipped after it. -/
theorem splitGap_comment {body after : List Char} (hbody : '\n' ∉ body)
    (hafter : ∀ c ∈ after.head?, c = '\n') :
    splitGap true (body ++ after) =
      (body ++ (splitGap false after).1, (splitGap false after).2) := by
  induction body with
  | nil =>
      cases after with
      | nil => rfl
      | cons c after =>
          obtain rfl := hafter c rfl
          rfl
  | cons c body ih =>
      obtain ⟨hc, hrest⟩ : '\n' ≠ c ∧ '\n' ∉ body := by simpa using hbody
      have hopen : (c != '\n') = true := by simpa using Ne.symm hc
      simp only [List.cons_append, splitGap, ↓reduceIte, hopen, ih hrest]

/-- A gap is split off if no gap goes on after it. -/
theorem splitGap_eq (h : Gap rest gap) (hrest : NoGap rest) :
    splitGap false (gap ++ rest) = (gap, rest) := by
  induction h with
  | nil =>
      cases rest with
      | nil => rfl
      | cons c rest =>
          have hblank : isBlank c = false := by
            rw [Bool.eq_false_iff, Ne, isBlank_iff]
            exact hrest.blank c rfl
          have hcomment : (c == '/' && rest.head? == some '/') = false := by
            rw [Bool.eq_false_iff]
            intro h
            obtain ⟨rfl, hnext⟩ : c = '/' ∧ rest.head? = some '/' := by simpa using h
            obtain ⟨more, rfl⟩ := exists_of_mem_head? hnext
            exact hrest.comment more rfl
          simp [splitGap, hblank, hcomment]
  | blank hc _ ih =>
      have hblank := isBlank_iff.mpr hc
      simp [splitGap, hblank, ih]
  | @comment body after hbody hafter _ ih =>
      have hsplit := splitGap_comment hbody hafter
      rw [ih] at hsplit
      simp [splitGap, isBlank, hsplit]

/-! ## Classes of characters -/

/-- Nothing below the capital letters is a letter. -/
theorem isLetter_of_lt (h : c.toNat < 0x41) : Text.isLetter c = false := by
  unfold Text.isLetter Text.letterRanges Text.inRanges
  rw [if_pos h]

theorem toNat_of_isDigit (h : Number.isDigit c = true) : 0x30 ≤ c.toNat ∧ c.toNat ≤ 0x39 := by
  unfold Number.isDigit at h
  rw [Bool.and_eq_true, decide_eq_true_eq, decide_eq_true_eq] at h
  exact h

/-- A digit opens no word. -/
theorem opensWord_of_isDigit (h : Number.isDigit c = true) : opensWord c = false := by
  have hrange := toNat_of_isDigit h
  have hletter : Text.isLetter c = false := isLetter_of_lt (by omega)
  have hunderscore : c ≠ '_' := by
    rintro rfl
    revert hrange
    decide
  simp [opensWord, hletter, hunderscore]

theorem continuesWord_of_opensWord (h : opensWord c = true) : continuesWord c = true := by
  unfold opensWord at h
  unfold continuesWord Text.isAlphanumeric
  rcases Bool.or_eq_true_iff.mp h with hletter | hunderscore
  · simp [hletter]
  · simp [hunderscore]

/-! ## Words -/

/-- A reserved word is a word, and the scanner knows what it is. -/
theorem reserved_spec {word : String} (h : (word, kind) ∈ reserved) :
    Token.kindOfWord word = kind ∧
      ∃ c cs, word.toList = c :: cs ∧ opensWord c = true ∧ ∀ d ∈ cs, continuesWord d = true := by
  simp only [reserved, List.mem_cons, Prod.mk.injEq, List.not_mem_nil, or_false] at h
  rcases h with ⟨rfl, rfl⟩ | ⟨rfl, rfl⟩ | ⟨rfl, rfl⟩ | ⟨rfl, rfl⟩ | ⟨rfl, rfl⟩ | ⟨rfl, rfl⟩ |
    ⟨rfl, rfl⟩ | ⟨rfl, rfl⟩ | ⟨rfl, rfl⟩ | ⟨rfl, rfl⟩ <;>
  exact ⟨rfl, _, _, rfl, rfl, List.all_eq_true.mp rfl⟩

/-- Every other word is a name. -/
theorem kindOfWord_of_not_reserved {word : String} (h : word ∉ reserved.map Prod.fst) :
    Token.kindOfWord word = .identifier word := by
  simp only [reserved, List.map_cons, List.map_nil, List.mem_cons, List.not_mem_nil, or_false,
    not_or] at h
  obtain ⟨hlet, hif, helse, hwhile, hprint, hfunction, hreturn, htrue, hfalse, hinfinity⟩ := h
  have hliteral : Token.literalWord? word = none := by
    unfold Token.literalWord?
    split <;> first | rfl | contradiction
  have hkeyword : Keyword.all.find? (·.spelling == word) = none := by
    simp [Keyword.all, Keyword.spelling, Ne.symm hlet, Ne.symm hif, Ne.symm helse, Ne.symm hwhile,
      Ne.symm hprint, Ne.symm hfunction, Ne.symm hreturn]
  unfold Token.kindOfWord
  rw [hliteral, hkeyword]

/-- The lexemes that are words. -/
theorem lexeme_word_iff : Lexeme .word text kind ↔
    kind = Token.kindOfWord (String.ofList text) ∧
      ∃ c cs, text = c :: cs ∧ opensWord c = true ∧ ∀ d ∈ cs, continuesWord d = true := by
  constructor
  · intro h
    cases h with
    | reserved hmem =>
        obtain ⟨hkind, hword⟩ := reserved_spec hmem
        rw [String.ofList_toList]
        exact ⟨hkind.symm, hword⟩
    | name hopens hcontinues hname =>
        exact ⟨(kindOfWord_of_not_reserved hname).symm, _, _, rfl, hopens, hcontinues⟩
  · rintro ⟨rfl, c, cs, rfl, hopens, hcontinues⟩
    by_cases hmem : String.ofList (c :: cs) ∈ reserved.map Prod.fst
    · obtain ⟨⟨word, kind⟩, hentry, hword⟩ := List.mem_map.mp hmem
      have hlexeme := Lexeme.reserved hentry
      rw [show word = String.ofList (c :: cs) from hword, String.toList_ofList] at hlexeme
      rw [← hword, (reserved_spec hentry).1]
      exact hlexeme
    · rw [kindOfWord_of_not_reserved hmem]
      exact .name hopens hcontinues hmem

/-! ## A lexeme is taken off -/

theorem takeWhile_append_eq {p : Char → Bool} (h : ∀ c ∈ text, p c = true)
    (hrest : ∀ c ∈ rest.head?, p c = false) : (text ++ rest).takeWhile p = text := by
  rw [List.takeWhile_append_of_pos h]
  cases rest with
  | nil => simp
  | cons c rest => simp [hrest c rfl]

theorem dropWhile_append_eq {p : Char → Bool} (h : ∀ c ∈ text, p c = true)
    (hrest : ∀ c ∈ rest.head?, p c = false) : (text ++ rest).dropWhile p = rest := by
  rw [List.dropWhile_append_of_pos h]
  cases rest with
  | nil => rfl
  | cons c rest => simp [hrest c rfl]

theorem head?_dropWhile (p : Char → Bool) (cs : List Char) :
    ∀ c ∈ (cs.dropWhile p).head?, p c = false := by
  intro c hc
  have hnot := List.head?_dropWhile_not p cs
  rw [Option.mem_def.mp hc] at hnot
  exact hnot

theorem closeNumber_eq {value : Float} (hrest : ∀ c ∈ rest.head?, opensWord c = false) :
    closeNumber text value rest = .token (.number value) text rest := by
  unfold closeNumber
  cases rest with
  | nil => rfl
  | cons c rest => simp [hrest c rfl]

theorem closeNumber_inv {value : Float} {text' rest' : List Char}
    (h : closeNumber text value rest = .token kind text' rest') :
    kind = .number value ∧ text' = text ∧ rest' = rest ∧
      ∀ c ∈ rest.head?, opensWord c = false := by
  unfold closeNumber at h
  split at h
  next c rest =>
    split at h
    · cases h
    next hopens =>
      cases h
      refine ⟨rfl, rfl, rfl, ?_⟩
      rintro _ ⟨⟩
      simpa using hopens
  next =>
    cases h
    exact ⟨rfl, rfl, rfl, nofun⟩

/-- Digits that nothing lengthens are scanned as a number. -/
theorem scanNumber_whole (hdigits : Digits digits)
    (hrest : ∀ c ∈ rest.head?, Form.whole.lengthenedBy c = false) :
    scanNumber (digits ++ rest) = .token (.number (literalValue digits [])) digits rest := by
  have hstop : ∀ c ∈ rest.head?, Number.isDigit c = false ∧ opensWord c = false ∧ c ≠ '.' := by
    intro c hc
    simpa [Form.lengthenedBy, and_assoc] using hrest c hc
  have hdigit : ∀ c ∈ rest.head?, Number.isDigit c = false := fun c hc => (hstop c hc).1
  unfold scanNumber
  simp only [takeWhile_append_eq hdigits.2 hdigit, dropWhile_append_eq hdigits.2 hdigit]
  split
  next => exact absurd rfl (hstop '.' rfl).2.2
  next => exact closeNumber_eq fun c hc => (hstop c hc).2.1

/-- Digits with a point between them that nothing lengthens are scanned as a number. -/
theorem scanNumber_fractional (hdigits : Digits digits) (hfraction : Digits fraction)
    (hrest : ∀ c ∈ rest.head?, Form.fractional.lengthenedBy c = false) :
    scanNumber ((digits ++ '.' :: fraction) ++ rest) =
      .token (.number (literalValue digits fraction)) (digits ++ '.' :: fraction) rest := by
  have hstop : ∀ c ∈ rest.head?, Number.isDigit c = false ∧ opensWord c = false := by
    intro c hc
    simpa [Form.lengthenedBy] using hrest c hc
  have hdigit : ∀ c ∈ rest.head?, Number.isDigit c = false := fun c hc => (hstop c hc).1
  have hpoint : ∀ c ∈ ('.' :: (fraction ++ rest)).head?, Number.isDigit c = false := by
    rintro _ ⟨⟩
    decide
  have hnonempty : fraction.isEmpty = false := by simpa using hfraction.1
  unfold scanNumber
  rw [List.append_assoc, List.cons_append]
  simp only [takeWhile_append_eq hdigits.2 hpoint, dropWhile_append_eq hdigits.2 hpoint,
    takeWhile_append_eq hfraction.2 hdigit, dropWhile_append_eq hfraction.2 hdigit, hnonempty]
  exact closeNumber_eq fun c hc => (hstop c hc).2

/-- A number that is taken off a text is one, and the rest does not lengthen it. -/
theorem scanNumber_inv (hdigit : Number.isDigit c = true)
    (h : scanNumber (c :: cs) = .token kind text rest) :
    ∃ form, c :: cs = text ++ rest ∧ Lexeme form text kind ∧
      ∀ d ∈ rest.head?, form.lengthenedBy d = false := by
  have hsplit :
      (c :: cs).takeWhile Number.isDigit ++ (c :: cs).dropWhile Number.isDigit = c :: cs :=
    List.takeWhile_append_dropWhile
  have hstop := head?_dropWhile Number.isDigit (c :: cs)
  have hdigits : Digits ((c :: cs).takeWhile Number.isDigit) := by
    refine ⟨?_, List.all_eq_true.mp List.all_takeWhile⟩
    rw [List.takeWhile_cons_of_pos hdigit]
    exact List.cons_ne_nil _ _
  unfold scanNumber at h
  dsimp only at h
  generalize (c :: cs).takeWhile Number.isDigit = whole at h hsplit hdigits
  split at h
  next after hafter =>
    split at h
    · cases h
    next hnonempty =>
      obtain ⟨rfl, rfl, rfl, hword⟩ := closeNumber_inv h
      have hfraction : Digits (after.takeWhile Number.isDigit) :=
        ⟨by simpa using hnonempty, List.all_eq_true.mp List.all_takeWhile⟩
      refine ⟨.fractional, ?_, .fractional hdigits hfraction, fun d hd => ?_⟩
      · rw [List.append_assoc, List.cons_append, List.takeWhile_append_dropWhile, ← hafter, hsplit]
      · simp [Form.lengthenedBy, hword d hd, head?_dropWhile _ _ d hd]
  next hpoint =>
    obtain ⟨rfl, rfl, rfl, hword⟩ := closeNumber_inv h
    refine ⟨.whole, hsplit.symm, .whole hdigits, fun d hd => ?_⟩
    have hne : d ≠ '.' := by
      rintro rfl
      obtain ⟨after, hafter⟩ := exists_of_mem_head? hd
      exact hpoint after hafter
    simp [Form.lengthenedBy, hword d hd, hstop d hd, hne]

/-- The symbols of one character that begin no longer symbol. Only a slash can be lengthened, to a
comment. -/
theorem singleSymbol?_eq_some {sign : Symbol} (h : singleSymbol? c = some sign) :
    sign.spelling.toList = [c] ∧
      ∀ d, (Form.symbol sign).lengthenedBy d = true → c = '/' ∧ d = '/' := by
  unfold singleSymbol? at h
  split at h <;> cases h <;> simp [Symbol.spelling, Form.lengthenedBy]

/-- The spelling of a symbol that nothing lengthens is scanned as the symbol. -/
theorem scanSymbol_eq (sign : Symbol)
    (hrest : ∀ c ∈ rest.head?, (Form.symbol sign).lengthenedBy c = false) :
    scanSymbol (sign.spelling.toList ++ rest) =
      .token (.symbol sign) sign.spelling.toList rest := by
  cases sign with
  | assign =>
      cases rest with
      | nil => rfl
      | cons c rest =>
          have hne : c ≠ '=' := by simpa [Form.lengthenedBy] using hrest c rfl
          change scanSymbol ('=' :: c :: rest) = _
          rw [scanSymbol.eq_3 _ (fun _ h => hne (List.cons.inj h).1)
            fun _ h => hne (List.cons.inj h).1]
          rfl
  | _ => rfl

/-- A symbol that is taken off a text is one, and the rest does not lengthen it. -/
theorem scanSymbol_inv (hgap : NoGap (c :: cs)) (h : scanSymbol (c :: cs) = .token kind text rest) :
    ∃ form, c :: cs = text ++ rest ∧ Lexeme form text kind ∧
      ∀ d ∈ rest.head?, form.lengthenedBy d = false := by
  unfold scanSymbol at h
  split at h
  next heq =>
    cases h
    cases heq
    exact ⟨_, rfl, .symbol .strictEqual, fun _ _ => rfl⟩
  next => cases h
  next _ hsecond heq =>
    cases h
    cases heq
    refine ⟨_, rfl, .symbol .assign, fun d hd => ?_⟩
    have hne : d ≠ '=' := by
      rintro rfl
      obtain ⟨more, hmore⟩ := exists_of_mem_head? hd
      exact hsecond more hmore
    simp [Form.lengthenedBy, hne]
  next heq =>
    cases h
    cases heq
    exact ⟨_, rfl, .symbol .and, fun _ _ => rfl⟩
  next => cases h
  next heq =>
    cases h
    cases heq
    exact ⟨_, rfl, .symbol .or, fun _ _ => rfl⟩
  next => cases h
  next heq =>
    cases heq
    split at h
    next sign hsign =>
      cases h
      obtain ⟨hspelling, hlengthened⟩ := singleSymbol?_eq_some hsign
      have hlexeme := Lexeme.symbol sign
      rw [hspelling] at hlexeme
      refine ⟨_, rfl, hlexeme, fun d hd => Bool.eq_false_iff.mpr fun hd' => ?_⟩
      obtain ⟨rfl, rfl⟩ := hlengthened d hd'
      obtain ⟨more, rfl⟩ := exists_of_mem_head? hd
      exact hgap.comment more rfl
    next => cases h
  next heq => cases heq

/-- A word that nothing lengthens is scanned as a keyword, a truth value or an identifier. -/
theorem scanWord_eq (h : Lexeme .word text kind)
    (hrest : ∀ c ∈ rest.head?, Form.word.lengthenedBy c = false) :
    scanWord (text ++ rest) = .token kind text rest := by
  obtain ⟨rfl, c, cs, rfl, hopens, hcontinues⟩ := lexeme_word_iff.mp h
  have hword : ∀ d ∈ c :: cs, continuesWord d = true :=
    List.forall_mem_cons.mpr ⟨continuesWord_of_opensWord hopens, hcontinues⟩
  unfold scanWord
  simp only [takeWhile_append_eq hword hrest, dropWhile_append_eq hword hrest]

/-- A word that is taken off a text is one, and the rest does not lengthen it. -/
theorem scanWord_inv (hopens : opensWord c = true)
    (h : scanWord (c :: cs) = .token kind text rest) :
    ∃ form, c :: cs = text ++ rest ∧ Lexeme form text kind ∧
      ∀ d ∈ rest.head?, form.lengthenedBy d = false := by
  unfold scanWord at h
  cases h
  refine ⟨.word, List.takeWhile_append_dropWhile.symm, lexeme_word_iff.mpr ⟨rfl, c, ?_⟩,
    head?_dropWhile _ _⟩
  rw [List.takeWhile_cons_of_pos (continuesWord_of_opensWord hopens)]
  exact ⟨_, rfl, hopens, List.all_eq_true.mp List.all_takeWhile⟩

/-- No gap starts with a character that is neither a blank nor the first slash of two. -/
theorem noGap_cons (hblank : c ∉ blanks) (hcomment : c = '/' → ∀ d ∈ cs.head?, d ≠ '/') :
    NoGap (c :: cs) := by
  refine ⟨?_, ?_⟩
  · rintro _ ⟨⟩
    exact hblank
  · intro more heq
    cases heq
    exact hcomment rfl '/' rfl rfl

/-- Blanks and the slash are neither digits nor letters. -/
theorem noGap_of_digit_or_word (h : Number.isDigit c = true ∨ opensWord c = true) :
    NoGap (c :: cs) := by
  have hclasses : ('/' :: blanks).all (fun d => !(Number.isDigit d || opensWord d)) = true := rfl
  have hc : c ∉ '/' :: blanks := by
    intro hmem
    have hclass := List.all_eq_true.mp hclasses c hmem
    rw [Bool.or_eq_true_iff.mpr h] at hclass
    cases hclass
  rw [List.mem_cons, not_or] at hc
  exact noGap_cons hc.2 fun heq => absurd heq hc.1

/-- How a lexeme begins: numbers with a digit, words with a letter or an underscore, and symbols
with neither. -/
theorem Lexeme.begins (h : Lexeme form text kind) :
    ∃ c cs, text = c :: cs ∧
      match form with
      | .whole => Number.isDigit c = true
      | .fractional => Number.isDigit c = true
      | .word => opensWord c = true
      | .symbol sign => Number.isDigit c = false ∧ opensWord c = false ∧ c ∉ blanks ∧
          (c = '/' → sign = .slash ∧ cs = []) := by
  cases h with
  | whole hdigits =>
      obtain ⟨c, cs, rfl⟩ := List.exists_cons_of_ne_nil hdigits.1
      exact ⟨c, cs, rfl, hdigits.2 c List.mem_cons_self⟩
  | fractional hdigits _ =>
      obtain ⟨c, cs, rfl⟩ := List.exists_cons_of_ne_nil hdigits.1
      exact ⟨c, _, rfl, hdigits.2 c List.mem_cons_self⟩
  | reserved hmem =>
      obtain ⟨_, c, cs, hword, hopens, _⟩ := reserved_spec hmem
      exact ⟨c, cs, hword, hopens⟩
  | name hopens _ _ => exact ⟨_, _, rfl, hopens⟩
  | symbol sign => cases sign <;> exact ⟨_, _, rfl, by decide, by decide, by decide, by decide⟩

/-- A blank lengthens no lexeme. -/
theorem Form.lengthenedBy_blank (form : Form) (h : c ∈ blanks) : form.lengthenedBy c = false := by
  have hblanks : blanks.all (fun d => !form.lengthenedBy d) = true := by
    cases form with
    | symbol sign => cases sign <;> rfl
    | _ => rfl
  simpa using List.all_eq_true.mp hblanks c h

theorem Lexeme.ne_nil (h : Lexeme form text kind) : text ≠ [] := by
  obtain ⟨c, cs, rfl, _⟩ := h.begins
  exact List.cons_ne_nil c cs

/-- No gap begins where a lexeme does. -/
theorem Lexeme.noGap (h : Lexeme form text kind)
    (hrest : ∀ c ∈ rest.head?, form.lengthenedBy c = false) : NoGap (text ++ rest) := by
  obtain ⟨c, cs, rfl, hbegins⟩ := h.begins
  cases form with
  | whole => exact noGap_of_digit_or_word (.inl hbegins)
  | fractional => exact noGap_of_digit_or_word (.inl hbegins)
  | word => exact noGap_of_digit_or_word (.inr hbegins)
  | symbol sign =>
      obtain ⟨_, _, hblank, hslash⟩ := hbegins
      refine noGap_cons hblank fun hc d hd => ?_
      obtain ⟨rfl, rfl⟩ := hslash hc
      simpa [Form.lengthenedBy] using hrest d hd

/-- A lexeme is taken off if the text after it does not lengthen it. -/
theorem scanLexeme_eq (h : Lexeme form text kind)
    (hrest : ∀ c ∈ rest.head?, form.lengthenedBy c = false) :
    scanLexeme (text ++ rest) = .token kind text rest := by
  obtain ⟨c, cs, htext, hbegins⟩ := h.begins
  have hscan : scanLexeme (text ++ rest) =
      if Number.isDigit c then scanNumber (text ++ rest)
      else if opensWord c then scanWord (text ++ rest) else scanSymbol (text ++ rest) := by
    rw [htext]
    rfl
  rw [hscan]
  cases form with
  | whole =>
      rw [if_pos hbegins]
      cases h with
      | whole hdigits => exact scanNumber_whole hdigits hrest
  | fractional =>
      rw [if_pos hbegins]
      cases h with
      | fractional hdigits hfraction => exact scanNumber_fractional hdigits hfraction hrest
  | word =>
      have hdigit : ¬ Number.isDigit c = true := by
        intro hdigit
        rw [opensWord_of_isDigit hdigit] at hbegins
        cases hbegins
      rw [if_neg hdigit, if_pos hbegins]
      exact scanWord_eq h hrest
  | symbol sign =>
      obtain ⟨hdigit, hopens, _⟩ := hbegins
      rw [hdigit, hopens, if_neg Bool.false_ne_true, if_neg Bool.false_ne_true]
      cases h with
      | symbol => exact scanSymbol_eq sign hrest

/-- What is taken off a text that begins with no gap is a lexeme. -/
theorem scanLexeme_inv (hgap : NoGap cs) (hne : cs ≠ [])
    (h : scanLexeme cs = .token kind text rest) :
    ∃ form, cs = text ++ rest ∧ Lexeme form text kind ∧
      ∀ d ∈ rest.head?, form.lengthenedBy d = false := by
  cases cs with
  | nil => exact absurd rfl hne
  | cons c cs =>
      unfold scanLexeme at h
      dsimp only at h
      split at h
      next hdigit => exact scanNumber_inv hdigit h
      next =>
        split at h
        next hopens => exact scanWord_inv hopens h
        next => exact scanSymbol_inv hgap h

/-! ## The whole text -/

variable {pieces pieces' : List Piece} {tail tail' : List Char}

/-- A scan without a fault has found a decomposition. -/
theorem scanFrom_decomposes {rounds : Nat} {loc : Location} (hrounds : cs.length < rounds)
    (h : (scanFrom rounds loc cs).fault = none) :
    ∃ pieces tail, Decomposes cs pieces tail ∧
      (scanFrom rounds loc cs).tokens = tokens loc pieces tail := by
  induction rounds generalizing loc cs with
  | zero => exact absurd hrounds (Nat.not_lt_zero _)
  | succ rounds ih =>
      have happend := splitGap_append false cs
      have hnoGap := splitGap_noGap false cs
      have hgap : Gap (splitGap false cs).2 (splitGap false cs).1 := splitGap_gap false cs
      unfold scanFrom at h ⊢
      generalize splitGap false cs = split at h happend hnoGap hgap ⊢
      obtain ⟨gap, after⟩ := split
      dsimp only at h happend hnoGap hgap ⊢
      subst happend
      cases after with
      | nil =>
          rw [List.append_nil]
          exact ⟨[], gap, .last hgap, rfl⟩
      | cons c after =>
          simp only [List.isEmpty_cons, Bool.false_eq_true, ↓reduceIte] at h ⊢
          cases hscan : scanLexeme (c :: after) with
          | fault fault text rest =>
              rw [hscan] at h
              cases h
          | token kind text rest =>
              rw [hscan] at h
              dsimp only at h ⊢
              obtain ⟨form, hsplit, hlexeme, hrest⟩ :=
                scanLexeme_inv hnoGap (List.cons_ne_nil _ _) hscan
              rw [hsplit] at hgap hrounds ⊢
              have hlength : rest.length < rounds := by
                have hpos := List.length_pos_iff.mpr hlexeme.ne_nil
                simp only [List.length_append] at hrounds
                omega
              obtain ⟨pieces, tail, hpieces, htokens⟩ := ih hlength h
              exact ⟨⟨gap, text, kind⟩ :: pieces, tail, .cons hgap hlexeme hrest hpieces,
                congrArg _ htokens⟩

/-- A decomposition is found by the scan. -/
theorem Decomposes.scanFrom_eq (h : Decomposes cs pieces tail) {rounds : Nat} (loc : Location)
    (hrounds : cs.length < rounds) :
    (scanFrom rounds loc cs).fault = none ∧
      (scanFrom rounds loc cs).tokens = tokens loc pieces tail := by
  induction h generalizing rounds loc with
  | @last gap hgap =>
      obtain ⟨rounds, rfl⟩ := Nat.exists_eq_succ_of_ne_zero (Nat.ne_zero_of_lt hrounds)
      have hsplit := splitGap_eq hgap noGap_nil
      rw [List.append_nil] at hsplit
      unfold scanFrom
      rw [hsplit]
      exact ⟨rfl, rfl⟩
  | @cons gap form text kind rest pieces tail hgap hlexeme hrest _ ih =>
      obtain ⟨rounds, rfl⟩ := Nat.exists_eq_succ_of_ne_zero (Nat.ne_zero_of_lt hrounds)
      have hpos := List.length_pos_iff.mpr hlexeme.ne_nil
      have hlength : rest.length < rounds := by
        simp only [List.length_append] at hrounds
        omega
      obtain ⟨hfault, htokens⟩ := ih ((loc.advance gap).advance text) hlength
      have hsome : (text ++ rest).isEmpty = false := by simp [hlexeme.ne_nil]
      unfold scanFrom
      rw [splitGap_eq hgap (hlexeme.noGap hrest)]
      simp only [hsome, Bool.false_eq_true, ↓reduceIte, scanLexeme_eq hlexeme hrest]
      exact ⟨hfault, congrArg _ htokens⟩

/-- How a decomposition begins is what the scanner takes off. -/
theorem Decomposes.begins (h : Decomposes cs pieces tail) :
    (pieces = [] ∧ tail = cs ∧ splitGap false cs = (cs, [])) ∨
      ∃ piece more rest, pieces = piece :: more ∧ piece.text ≠ [] ∧
        splitGap false cs = (piece.gap, piece.text ++ rest) ∧
        scanLexeme (piece.text ++ rest) = .token piece.kind piece.text rest ∧
        Decomposes rest more tail := by
  cases h with
  | last hgap =>
      have hsplit := splitGap_eq hgap noGap_nil
      rw [List.append_nil] at hsplit
      exact .inl ⟨rfl, rfl, hsplit⟩
  | cons hgap hlexeme hrest hpieces =>
      exact .inr ⟨_, _, _, rfl, hlexeme.ne_nil, splitGap_eq hgap (hlexeme.noGap hrest),
        scanLexeme_eq hlexeme hrest, hpieces⟩

/-- A text has one decomposition at most. -/
theorem Decomposes.unique (h : Decomposes cs pieces tail) (h' : Decomposes cs pieces' tail') :
    pieces' = pieces ∧ tail' = tail := by
  induction pieces generalizing cs pieces' with
  | nil =>
      rcases h.begins with ⟨_, rfl, hsplit⟩ | ⟨_, _, _, hcons, _⟩
      · rcases h'.begins with ⟨hnil, htail, _⟩ | ⟨piece, _, rest, _, htext, hsplit', _⟩
        · exact ⟨hnil, htail⟩
        · rw [hsplit] at hsplit'
          exact absurd (List.append_eq_nil_iff.mp (Prod.mk.inj hsplit').2.symm).1 htext
      · cases hcons
  | cons first others ih =>
      rcases h.begins with ⟨hnil, _⟩ | ⟨piece, more, rest, hcons, htext, hsplit, hscan, hmore⟩
      · cases hnil
      · cases hcons
        rcases h'.begins with
          ⟨_, _, hsplit'⟩ | ⟨piece', more', rest', rfl, _, hsplit', hscan', hmore'⟩
        · rw [hsplit] at hsplit'
          exact absurd (List.append_eq_nil_iff.mp (Prod.mk.inj hsplit').2).1 htext
        · obtain ⟨hgap, hafter⟩ := Prod.mk.inj (hsplit.symm.trans hsplit')
          rw [← hafter, hscan] at hscan'
          obtain ⟨hkind, htext, rfl⟩ := Lexer.Lexeme.token.inj hscan'
          obtain ⟨rfl, rfl⟩ := ih hmore hmore'
          cases first
          cases piece'
          simp_all

/-- No lexeme is the end of input. -/
theorem Lexeme.isEnd_eq_false {form : Form} {text : List Char} {kind : Token.Kind}
    (h : Lexeme form text kind) : kind.isEnd = false := by
  cases h with
  | reserved hmem =>
      simp only [Lexical.reserved, List.mem_cons, Prod.mk.injEq, List.not_mem_nil,
        or_false] at hmem
      rcases hmem with h | h | h | h | h | h | h | h | h | h <;> rw [h.2] <;> rfl
  | _ => rfl

/-- The end of input comes last among the tokens, and only there. -/
theorem Decomposes.tokens_end (h : Decomposes cs pieces tail) (loc : Location) :
    ∃ body last, tokens loc pieces tail = body ++ [last] ∧
      (∀ token ∈ body, token.kind.isEnd = false) ∧ last.kind.isEnd = true := by
  induction h generalizing loc with
  | last _ => exact ⟨[], _, rfl, by simp, rfl⟩
  | cons _ hlexeme _ _ ih =>
      obtain ⟨body, last, htokens, hbody, hlast⟩ := ih _
      refine ⟨_ :: body, last, congrArg _ htokens, ?_, hlast⟩
      exact List.forall_mem_cons.mpr ⟨hlexeme.isEnd_eq_false, hbody⟩

end Lexical

namespace Source

open Lexical

/-- The tokens of a source are those of a decomposition. -/
theorem decomposes_of_tokens {source : Source} {tokens : List Token}
    (h : source.tokens = .ok tokens) :
    ∃ pieces tail, Decomposes source.text.toList pieces tail ∧
      tokens = Lexical.tokens { file := source.file } pieces tail := by
  unfold Source.tokens at h
  dsimp only at h
  split at h
  · cases h
  next hfault =>
    cases h
    exact scanFrom_decomposes (Nat.lt_succ_self _) hfault

/-- A text that decomposes is cut into the tokens of its pieces. -/
theorem tokens_of_decomposes {source : Source} {pieces : List Piece} {tail : List Char}
    (h : Decomposes source.text.toList pieces tail) :
    source.tokens = .ok (Lexical.tokens { file := source.file } pieces tail) := by
  obtain ⟨hfault, htokens⟩ := h.scanFrom_eq { file := source.file } (Nat.lt_succ_self _)
  unfold Source.tokens Source.scan
  simp only [hfault, htokens]

/-- The lexer accepts exactly the texts that can be taken apart into gaps and lexemes. The tokens
are those of the lexemes, each with its text and its place, and the end of input. No text can be
taken apart in two ways. -/
theorem tokens_iff_decomposes (source : Source) :
    (∀ tokens, source.tokens = .ok tokens ↔
      ∃ pieces tail, Decomposes source.text.toList pieces tail ∧
        tokens = Lexical.tokens { file := source.file } pieces tail) ∧
    ∀ pieces tail pieces' tail', Decomposes source.text.toList pieces tail →
      Decomposes source.text.toList pieces' tail' → pieces' = pieces ∧ tail' = tail := by
  refine ⟨fun tokens => ⟨decomposes_of_tokens, ?_⟩, fun _ _ _ _ h h' => h.unique h'⟩
  rintro ⟨pieces, tail, h, rfl⟩
  exact tokens_of_decomposes h

end Source

end Treewalk
