import Treewalk.Proofs.Program.Safety
import Treewalk.Proofs.Source.Positions

/-! # The line that is shown with an error

Lines are numbered by line feeds, but shown are the pieces between all line breaks there are. The
two agree up to a place as long as every line break in front of it is a line feed, perhaps with a
carriage return before it. With any other line break the line that has the number of the place has
ended before the place. So an error is shown with its own line exactly if there are no other line
breaks up to it.
-/

namespace Treewalk

/-! ## Lines and where they begin -/

namespace Text

variable {start : Nat} {current pre post rest : List Char} {c d : Char}

/-- The shown lines of some characters, each with the offset at which it begins. The line that is
being read begins at `start`. -/
def placedLines (start : Nat) (current : List Char) : List Char → List (Nat × List Char)
  | [] => if current.isEmpty then [] else [(start, current.reverse)]
  | '\r' :: '\n' :: rest =>
    (start, current.reverse) :: placedLines (start + current.length + 2) [] rest
  | c :: rest =>
    if isLineBreak c then
      (start, current.reverse) :: placedLines (start + current.length + 1) [] rest
    else placedLines start (c :: current) rest

/-- Without their places, these are the shown lines. -/
theorem map_placedLines (start : Nat) (current cs : List Char) :
    (placedLines start current cs).map Prod.snd = cutLines current cs := by
  fun_induction placedLines start current cs with
  | case1 => simp_all [cutLines]
  | case2 => simp_all [cutLines]
  | case3 start current rest ih => simp [cutLines, ih]
  | case4 start current c rest hnot hbreak ih => simp [cutLines.eq_3 _ _ _ hnot, hbreak, ih]
  | case5 start current c rest hnot hbreak ih => simp [cutLines.eq_3 _ _ _ hnot, hbreak, ih]

theorem placedLines_returnFeed :
    placedLines start current ('\r' :: '\n' :: rest) =
      (start, current.reverse) :: placedLines (start + current.length + 2) [] rest := by
  rw [placedLines]

/-- A line break ends a line. -/
theorem placedLines_break (hbreak : isLineBreak c = true)
    (hnot : c = '\r' → rest.head? ≠ some '\n') :
    placedLines start current (c :: rest) =
      (start, current.reverse) :: placedLines (start + current.length + 1) [] rest := by
  rw [placedLines.eq_3, if_pos hbreak]
  rintro more rfl rfl
  exact hnot rfl rfl

theorem placedLines_feed :
    placedLines start current ('\n' :: rest) =
      (start, current.reverse) :: placedLines (start + current.length + 1) [] rest :=
  placedLines_break rfl fun h => absurd h (by decide)

theorem placedLines_other (hbreak : isLineBreak c = false) :
    placedLines start current (c :: rest) = placedLines start (c :: current) rest := by
  rw [placedLines.eq_3, hbreak, if_neg Bool.false_ne_true]
  rintro more rfl
  cases hbreak

/-- A line that has begun is shown. -/
theorem head?_placedLines (hcurrent : current ≠ []) (cs : List Char) :
    ∃ more, (placedLines start current cs).head? = some (start, current.reverse ++ more) := by
  fun_induction placedLines start current cs with
  | case1 => simp_all
  | case2 => exact ⟨[], by simp⟩
  | case3 start current rest ih => exact ⟨[], by simp⟩
  | case4 start current c rest hnot hbreak ih => exact ⟨[], by simp⟩
  | case5 start current c rest hnot hbreak ih =>
      obtain ⟨more, hmore⟩ := ih (List.cons_ne_nil _ _)
      exact ⟨c :: more, by simpa using hmore⟩

/-- A line that is being read ends at a line break. -/
theorem head?_placedLines_break (hbreak : isLineBreak c = true) :
    (placedLines start current (c :: rest)).head? = some (start, current.reverse) := by
  unfold placedLines
  split
  · rename_i h
    cases h
  · rfl
  · rename_i h
    cases h
    rw [if_pos hbreak]
    rfl

/-- All line breaks are line feeds, alone or after a carriage return. -/
inductive PlainBreaks : List Char → Prop where
  | nil : PlainBreaks []
  | feed {cs} : PlainBreaks cs → PlainBreaks ('\n' :: cs)
  | returnFeed {cs} : PlainBreaks cs → PlainBreaks ('\r' :: '\n' :: cs)
  | other {c cs} : isLineBreak c = false → PlainBreaks cs → PlainBreaks (c :: cs)

def hasPlainBreaks : List Char → Bool
  | [] => true
  | '\r' :: '\n' :: rest => hasPlainBreaks rest
  | c :: rest => (c == '\n' || !isLineBreak c) && hasPlainBreaks rest

/-- Whether line breaks are plain can be decided. -/
theorem hasPlainBreaks_iff {cs : List Char} : hasPlainBreaks cs = true ↔ PlainBreaks cs := by
  constructor
  · intro h
    fun_induction hasPlainBreaks cs with
    | case1 => exact .nil
    | case2 rest ih => exact .returnFeed (ih h)
    | case3 c rest _ ih =>
        obtain ⟨hc, hrest⟩ := Bool.and_eq_true_iff.mp h
        rcases Bool.or_eq_true_iff.mp hc with hfeed | hbreak
        · obtain rfl := eq_of_beq hfeed
          exact .feed (ih hrest)
        · exact .other (by simpa using hbreak) (ih hrest)
  · intro h
    induction h with
    | nil => rfl
    | feed _ ih => exact ih
    | returnFeed _ ih => exact ih
    | @other c cs hbreak _ ih =>
        rw [hasPlainBreaks.eq_3, hbreak, ih]
        · simp
        · rintro more rfl
          cases hbreak

instance : DecidablePred PlainBreaks := fun _ => decidable_of_iff _ hasPlainBreaks_iff

def sinceFeed (cs : List Char) : Nat := (cs.reverse.takeWhile (· != '\n')).length

/-- What is before a line feed does not count. -/
theorem sinceFeed_append_feed (cs rest : List Char) :
    sinceFeed (cs ++ '\n' :: rest) = sinceFeed rest := by
  have hstop : (['\n'] ++ cs.reverse).takeWhile (· != '\n') = [] := by simp
  simp only [sinceFeed, List.reverse_append, List.reverse_cons, List.append_assoc,
    List.takeWhile_append, hstop, List.append_nil]
  split
  next hall => exact hall.symm
  next => rfl

theorem sinceFeed_of_not_mem {cs : List Char} (h : '\n' ∉ cs) : sinceFeed cs = cs.length := by
  unfold sinceFeed
  rw [List.takeWhile_eq_self_iff.mpr, List.length_reverse]
  intro c hc
  have hne : c ≠ '\n' := by
    rintro rfl
    exact h (List.mem_reverse.mp hc)
  simpa using hne

/-- With plain line breaks in front of a character that is none, its line is shown under the number
of line feeds in front of it. -/
theorem placedLines_of_plainBreaks (hpre : PlainBreaks pre) (hc : isLineBreak c = false)
    (hcurrent : '\n' ∉ current) :
    ∃ begins row, (placedLines start current (pre ++ c :: post))[pre.count '\n']? =
        some (begins, row) ∧
      begins + sinceFeed (current.reverse ++ pre) = start + current.length + pre.length ∧
      row[sinceFeed (current.reverse ++ pre)]? = some c := by
  induction hpre generalizing start current with
  | nil =>
      obtain ⟨more, hmore⟩ := head?_placedLines (List.cons_ne_nil c current) post
      refine ⟨start, (c :: current).reverse ++ more, ?_, ?_, ?_⟩
      · rw [List.nil_append, placedLines_other hc, List.count_nil, ← List.head?_eq_getElem?]
        exact hmore
      · rw [List.append_nil, sinceFeed_of_not_mem (by simpa using hcurrent)]
        simp
      · rw [List.append_nil, sinceFeed_of_not_mem (by simpa using hcurrent)]
        simp
  | @feed pre _ ih =>
      obtain ⟨begins, row, hrow, hbegins, hchar⟩ :=
        @ih (start + current.length + 1) [] (by simp)
      rw [List.reverse_nil, List.nil_append] at hbegins hchar
      refine ⟨begins, row, ?_, ?_, ?_⟩
      · rw [List.cons_append, placedLines_feed, List.count_cons_self,
          List.getElem?_cons_succ]
        exact hrow
      · rw [sinceFeed_append_feed, hbegins]
        simp
        omega
      · rw [sinceFeed_append_feed]
        exact hchar
  | @returnFeed pre _ ih =>
      obtain ⟨begins, row, hrow, hbegins, hchar⟩ :=
        @ih (start + current.length + 2) [] (by simp)
      rw [List.reverse_nil, List.nil_append] at hbegins hchar
      have hsince : sinceFeed (current.reverse ++ '\r' :: '\n' :: pre) = sinceFeed pre := by
        have happend := sinceFeed_append_feed (current.reverse ++ ['\r']) pre
        rwa [List.append_assoc] at happend
      refine ⟨begins, row, ?_, ?_, ?_⟩
      · rw [List.cons_append, List.cons_append, placedLines_returnFeed,
          List.count_cons_of_ne (by decide), List.count_cons_self, List.getElem?_cons_succ]
        exact hrow
      · rw [hsince, hbegins]
        simp
        omega
      · rw [hsince]
        exact hchar
  | @other d pre hd _ ih =>
      have hne : d ≠ '\n' := by
        rintro rfl
        cases hd
      obtain ⟨begins, row, hrow, hbegins, hchar⟩ :=
        @ih start (d :: current) (by simpa using ⟨Ne.symm hne, hcurrent⟩)
      rw [List.reverse_cons, List.append_assoc] at hbegins hchar
      refine ⟨begins, row, ?_, ?_, hchar⟩
      · rw [List.cons_append, placedLines_other hd, List.count_cons_of_ne hne]
        exact hrow
      · refine hbegins.trans ?_
        simp
        omega

theorem head?_ne_feed (hnot : ∀ more, d = '\r' → pre = '\n' :: more → False) (hpre : pre ≠ []) :
    d = '\r' → (pre ++ rest).head? ≠ some '\n' := by
  intro hreturn hhead
  obtain ⟨e, pre, rfl⟩ := List.exists_cons_of_ne_nil hpre
  cases hhead
  exact hnot pre hreturn rfl

/-- Whatever the line breaks are, a line with a smaller number than that of a place ends before the
place. -/
theorem end_le_of_lt_count {index begins : Nat} {row : List Char}
    (hrow : (placedLines start current (pre ++ c :: post))[index]? = some (begins, row))
    (hindex : index < pre.count '\n') :
    begins + row.length ≤ start + current.length + pre.length := by
  induction pre using unifyBreaks.induct generalizing start current index with
  | case1 => simp at hindex
  | case2 pre ih =>
      rw [List.cons_append, List.cons_append, placedLines_returnFeed] at hrow
      cases index with
      | zero =>
          cases hrow
          simp
      | succ index =>
          have hle := ih hrow (by simpa using hindex)
          simp only [List.length_nil, List.length_cons] at hle ⊢
          omega
  | case3 d pre hnot ih =>
      cases hbreak : isLineBreak d with
      | false =>
          have hne : d ≠ '\n' := by
            rintro rfl
            cases hbreak
          rw [List.cons_append, placedLines_other hbreak] at hrow
          rw [List.count_cons_of_ne hne] at hindex
          have hle := ih hrow hindex
          simp only [List.length_cons] at hle ⊢
          omega
      | true =>
          cases index with
          | zero =>
              rw [List.cons_append, ← List.head?_eq_getElem?,
                head?_placedLines_break hbreak] at hrow
              cases hrow
              simp
          | succ index =>
              have hcount : index < pre.count '\n' := by
                rw [List.count_cons] at hindex
                split at hindex <;> omega
              have hpre : pre ≠ [] := by
                rintro rfl
                simp at hcount
              rw [List.cons_append, placedLines_break hbreak (head?_ne_feed hnot hpre)] at hrow
              have hle := ih hrow hcount
              simp only [List.length_nil, List.length_cons] at hle ⊢
              omega

/-- If the line with the number of a place reaches beyond the place, all line breaks in front of it
are plain. -/
theorem plainBreaks_of_lt_end {begins : Nat} {row : List Char}
    (hrow : (placedLines start current (pre ++ c :: post))[pre.count '\n']? = some (begins, row))
    (hend : start + current.length + pre.length < begins + row.length) :
    PlainBreaks pre ∧ isLineBreak c = false := by
  induction pre using unifyBreaks.induct generalizing start current with
  | case1 =>
      refine ⟨.nil, Bool.eq_false_iff.mpr fun hbreak => ?_⟩
      rw [List.nil_append, List.count_nil, ← List.head?_eq_getElem?,
        head?_placedLines_break hbreak] at hrow
      cases hrow
      simp at hend
  | case2 pre ih =>
      rw [List.cons_append, List.cons_append, placedLines_returnFeed,
        List.count_cons_of_ne (by decide), List.count_cons_self, List.getElem?_cons_succ] at hrow
      simp only [List.length_cons] at hend
      obtain ⟨hplain, hc⟩ := ih hrow (by simp only [List.length_nil]; omega)
      exact ⟨.returnFeed hplain, hc⟩
  | case3 d pre hnot ih =>
      by_cases hfeed : d = '\n'
      · subst hfeed
        rw [List.cons_append, placedLines_feed, List.count_cons_self,
          List.getElem?_cons_succ] at hrow
        simp only [List.length_cons] at hend
        obtain ⟨hplain, hc⟩ := ih hrow (by simp only [List.length_nil]; omega)
        exact ⟨.feed hplain, hc⟩
      · rw [List.count_cons_of_ne hfeed] at hrow
        cases hbreak : isLineBreak d with
        | false =>
            rw [List.cons_append, placedLines_other hbreak] at hrow
            obtain ⟨hplain, hc⟩ := ih hrow (by simp only [List.length_cons] at hend ⊢; omega)
            exact ⟨.other hbreak hplain, hc⟩
        | true =>
            -- one more line than line feeds has ended before the place
            refine absurd hend (Nat.not_lt.mpr ?_)
            cases hcount : pre.count '\n' with
            | zero =>
                rw [hcount, List.cons_append, ← List.head?_eq_getElem?,
                  head?_placedLines_break hbreak] at hrow
                cases hrow
                simp
            | succ count =>
                have hpre : pre ≠ [] := by
                  rintro rfl
                  cases hcount
                rw [hcount, List.cons_append,
                  placedLines_break hbreak (head?_ne_feed hnot hpre)] at hrow
                have hle := end_le_of_lt_count hrow (by omega)
                simp only [List.length_nil, List.length_cons] at hle ⊢
                omega

/-- The shown line with a number counted from one, and the offset at which it begins. -/
def placedLine? (text : String) (number : Int) : Option (Nat × String) :=
  if 1 ≤ number then
    ((placedLines 0 [] text.toList)[(number - 1).toNat]?).map (Prod.map id String.ofList)
  else none

theorem shownLine?_eq (text : String) (number : Int) :
    shownLine? text number = (placedLine? text number).map Prod.snd := by
  unfold shownLine? placedLine? shownLines
  split
  · rw [← map_placedLines 0]
    simp [Function.comp_def]
  · rfl

/-- The line of a place is found by the number of line feeds before it. -/
theorem placedLine?_after (text : String) (file : Option String) (pre : List Char) :
    placedLine? text (Location.after file pre).line =
      ((placedLines 0 [] text.toList)[pre.count '\n']?).map (Prod.map id String.ofList) := by
  have hnumber : (1 + (pre.count '\n' : Int) - 1).toNat = pre.count '\n' := by omega
  unfold placedLine? Location.after
  dsimp only
  rw [if_pos (by omega), hnumber]

end Text

/-! ## The line of a place -/

namespace Source

open Text

variable {source : Source} {place : Location} {c : Char}

/-- The line that is shown under the number of a place is the one in which the place lies. It begins
as many characters before the place as the column says, reaches up to the place, and has in that
column the character that the source has there. -/
structure LineOf (source : Source) (place : Location) (start : Nat) (line : String) : Prop where
  placed : placedLine? source.text place.line = some (start, line)
  begins : start + (place.column - 1) = place.offset
  reaches : place.column ≤ line.length
  same : line.toList[(place.column - 1).toNat]? = source.text.toList[place.offset]?

/-- A character of a source between those in front of it and those after it. -/
theorem toList_eq_of_getElem? (hc : source.text.toList[place.offset]? = some c) :
    ∃ pre post, source.text.toList = pre ++ c :: post ∧ pre.length = place.offset := by
  obtain ⟨hlt, hget⟩ := List.getElem?_eq_some_iff.mp hc
  refine ⟨source.text.toList.take place.offset, source.text.toList.drop (place.offset + 1), ?_, ?_⟩
  · rw [← hget, ← List.drop_eq_getElem_cons hlt, List.take_append_drop]
  · exact List.length_take_of_le (Nat.le_of_lt hlt)

/-- The line of a place is shown exactly if all line breaks in front of the place are plain, and
there is none at the place. -/
theorem lineOf_iff (hplace : place = source.positionAt place.offset)
    (hc : source.text.toList[place.offset]? = some c) :
    (∃ start line, source.LineOf place start line) ↔
      PlainBreaks (source.text.toList.take place.offset) ∧ isLineBreak c = false := by
  obtain ⟨pre, post, htext, hlength⟩ := toList_eq_of_getElem? hc
  have hafter : place = .after source.file pre := by
    rw [hplace, ← hlength, positionAt_length htext]
  have hcolumn : place.column - 1 = (sinceFeed pre : Int) := by
    rw [hafter, Location.after, sinceFeed]
    dsimp only
    omega
  have hplaced : placedLine? source.text place.line =
      ((placedLines 0 [] (pre ++ c :: post))[pre.count '\n']?).map
        (Prod.map id String.ofList) := by
    rw [hafter, placedLine?_after, htext]
  rw [← hlength, htext, List.take_left]
  constructor
  · rintro ⟨start, line, h⟩
    obtain ⟨⟨begins, row⟩, hrow, hsame⟩ := Option.map_eq_some_iff.mp (hplaced.symm.trans h.placed)
    cases hsame
    refine plainBreaks_of_lt_end hrow ?_
    have hbegins : (begins : Int) + (place.column - 1) = place.offset := h.begins
    have hreaches := h.reaches
    rw [← String.length_toList, String.toList_ofList] at hreaches
    simp only [List.length_nil]
    omega
  · rintro ⟨hplain, hbreak⟩
    obtain ⟨begins, row, hrow, hbegins, hchar⟩ :=
      @placedLines_of_plainBreaks 0 [] pre post c hplain hbreak List.not_mem_nil
    rw [List.reverse_nil, List.nil_append] at hbegins hchar
    have hlong := (List.getElem?_eq_some_iff.mp hchar).1
    refine ⟨begins, String.ofList row, ?_, ?_, ?_, ?_⟩
    · rw [hplaced, hrow]
      rfl
    · simp only [List.length_nil] at hbegins
      omega
    · rw [← String.length_toList, String.toList_ofList]
      omega
    · rw [hcolumn, Int.toNat_natCast, String.toList_ofList, hchar, hc]

end Source

/-! ## Errors and their lines -/

/-- The report of a source that cannot be read, if it is an error of the language. -/
def SyntaxFailure.diagnostic? : SyntaxFailure → Option Diagnostic
  | .lex error => some error.diagnostic
  | .parse (.error error) => some error.diagnostic
  | .parse _ => none

/-- What is reported together with a line: the span goes from a character of the source to one that
is not before it, and the line is the one with the number of the span. -/
structure Diagnostic.Located (source : Source) (d : Diagnostic) (span : Span) : Prop where
  place : d.span = some span
  exact : source.ExactSpan span
  nonempty : span.start.offset < span.stop.offset
  line : d.sourceLine = Text.shownLine? source.text span.start.line

/-- A lexical error is reported together with its line. -/
theorem LexError.located {source : Source} {error : LexError}
    (h : source.tokens = .error error) : error.diagnostic.Located source error.span := by
  obtain ⟨hfault, hline⟩ := Source.scan_of_tokens_error h
  obtain ⟨hexact, hnonempty, _⟩ := source.exactScan_scan.fault _ _ hfault
  exact ⟨rfl, hexact, hnonempty, hline⟩

/-- A token that is not the end of input has a character. -/
theorem Source.ExactToken.nonempty_span {source : Source} {token : Token}
    (h : source.ExactToken token) (hkind : token.kind ≠ .endOfInput) :
    token.span.start.offset < token.span.stop.offset := by
  have hne := h.nonempty hkind
  rw [h.lexeme] at hne
  refine Nat.lt_of_not_le fun hle => hne ?_
  unfold Source.cut
  rw [Nat.sub_eq_zero_of_le hle, List.take_zero]

/-- An error of syntax is reported with a line of the source. -/
theorem Program.exists_showLine {source : Source} {tokens : List Token} {error : ParseError}
    (htokens : source.tokens = .ok tokens)
    (h : ofSource source = .error (.parse (.error error))) :
    ∃ bare : ParseError, error = bare.showLine (some source.text) := by
  rw [ofSource_of_tokens htokens, ofTokens] at h
  generalize Parser.parse (Parser.program Parser.depthLimit) tokens = result at h
  cases result with
  | ok program => cases h
  | error failure =>
      cases failure with
      | error bare =>
          cases h
          exact ⟨bare, rfl⟩
      | tooDeep => cases h
      | pastEnd => cases h

/-- The line of an unexpected token is taken from the text by its number. -/
theorem ParseError.sourceLine_showLine {shown : Option String} {error : ParseError}
    {expected : Expected} {found : String}
    (h : (error.showLine shown).fault = .unexpectedToken expected found) :
    (error.showLine shown).sourceLine =
      shown.bind (Text.shownLine? · (error.showLine shown).span.start.line) := by
  unfold showLine at h ⊢
  split
  next => rfl
  next hother =>
    split at h
    next hfault => exact absurd hfault (hother _ _)
    next => exact absurd h (hother _ _)

/-- An error of syntax other than `E102`, the end of the text, is reported together with its
line. -/
theorem ParseError.located {source : Source} {tokens : List Token} {error : ParseError}
    (htokens : source.tokens = .ok tokens)
    (h : Program.ofSource source = .error (.parse (.error error)))
    (hcode : error.diagnostic.code ≠ "E102") : error.diagnostic.Located source error.span := by
  obtain ⟨body, last, rfl, _, _, result, hsource, hjudged⟩ := Program.ofSource_judged htokens
  obtain ⟨hnone, hall⟩ := Source.scan_of_tokens_ok htokens
  obtain ⟨body', last', hall', _, hbody⟩ := source.exactScan_scan.complete hnone
  obtain ⟨rfl, _⟩ := List.append_inj' (hall.symm.trans hall') rfl
  obtain ⟨bare, hbare⟩ := Program.exists_showLine htokens h
  rw [hsource] at h
  rcases hjudged with ⟨rfl, _⟩ | ⟨hverdict, _⟩
  · cases h
  · cases hverdict with
    | accepted _ => cases h
    | incomplete _ _ =>
        cases h
        exact absurd rfl hcode
    | @hopeless _ token expected line htoken _ _ =>
        cases h
        have hmem := List.mem_of_getElem? htoken
        have hexact : source.ExactToken token :=
          source.exactScan_scan.tokens token (by simp [hall, hmem])
        have hline : (bare.showLine (some source.text)).sourceLine = _ :=
          ParseError.sourceLine_showLine (by rw [← hbare])
        rw [← hbare] at hline
        exact ⟨rfl, hexact.span, hexact.nonempty_span (hbody token hmem), hline⟩

/-- What is reported with a code other than that of an unexpected end is located. -/
theorem Program.located_of_error {source : Source} {failure : SyntaxFailure} {d : Diagnostic}
    (h : ofSource source = .error failure) (hreport : failure.diagnostic? = some d)
    (hcode : d.code ≠ "E102") : ∃ span, d.Located source span := by
  cases htokens : source.tokens with
  | error error =>
      cases (ofSource_of_lexError htokens).symm.trans h
      cases hreport
      exact ⟨_, LexError.located htokens⟩
  | ok tokens =>
      cases failure with
      | lex error =>
          rw [ofSource_of_tokens htokens] at h
          generalize ofTokens tokens (some source.text) = result at h
          cases result <;> cases h
      | parse failure =>
          cases failure with
          | error error =>
              cases hreport
              exact ⟨_, ParseError.located htokens h hcode⟩
          | tooDeep => cases hreport
          | pastEnd => cases hreport

/-- A syntax error shows the line that it is about exactly if all line breaks in front of it are
line feeds or carriage returns with a line feed after them, and it is not about a line break itself.
The line is the one in which the error lies: it has the column of the error, with the character that
the source has there. An unexpected end has no line. -/
theorem Program.shows_line_iff {source : Source} {failure : SyntaxFailure} {d : Diagnostic}
    (h : ofSource source = .error failure) (hreport : failure.diagnostic? = some d)
    (hcode : d.code ≠ "E102") :
    ∃ span c, d.span = some span ∧ source.text.toList[span.start.offset]? = some c ∧
      ((∃ start line, d.sourceLine = some line ∧ source.LineOf span.start start line) ↔
        Text.PlainBreaks (source.text.toList.take span.start.offset) ∧
          Text.isLineBreak c = false) := by
  obtain ⟨span, hlocated⟩ := located_of_error h hreport hcode
  have hinside : span.start.offset < source.text.toList.length := by
    rw [String.length_toList]
    exact Nat.lt_of_lt_of_le hlocated.nonempty hlocated.exact.inside
  have hchar := List.getElem?_eq_getElem hinside
  refine ⟨span, _, hlocated.place, hchar, ?_⟩
  rw [← Source.lineOf_iff hlocated.exact.start hchar]
  constructor
  · rintro ⟨start, line, _, hline⟩
    exact ⟨start, line, hline⟩
  · rintro ⟨start, line, hline⟩
    refine ⟨start, line, ?_, hline⟩
    rw [hlocated.line, Text.shownLine?_eq, hline.placed]
    rfl

/-- Its second line has no `=` in it. -/
def Source.unassigned : Source := { text := "let x = 1;\r\nlet y 2;" }

theorem Program.shows_line_iff_unassigned :
    ∃ failure d span c start, ofSource .unassigned = .error failure ∧
      failure.diagnostic? = some d ∧ d.code = "E101" ∧ d.span = some span ∧
      Source.unassigned.text.toList[span.start.offset]? = some c ∧
      Text.PlainBreaks (Source.unassigned.text.toList.take span.start.offset) ∧
      Text.isLineBreak c = false ∧ d.sourceLine = some "let y 2;" ∧
      Source.unassigned.LineOf span.start start "let y 2;" := by
  obtain ⟨error, herror, hcode, hoffset, hline⟩ : ∃ error : ParseError,
      ofSource .unassigned = .error (.parse (.error error)) ∧ error.diagnostic.code = "E101" ∧
      error.span.start.offset = 18 ∧ error.sourceLine = some "let y 2;" :=
    ⟨_, rfl, rfl, rfl, rfl⟩
  obtain ⟨span, c, hspan, hchar, hiff⟩ := shows_line_iff herror rfl (by rw [hcode]; decide)
  cases hspan
  have hplain : Text.PlainBreaks (Source.unassigned.text.toList.take error.span.start.offset) := by
    rw [hoffset]
    decide
  have hbreak : Text.isLineBreak c = false := by
    rw [hoffset] at hchar
    cases hchar
    decide
  obtain ⟨start, line, hsame, hlineOf⟩ := hiff.mpr ⟨hplain, hbreak⟩
  cases hline.symm.trans hsame
  exact ⟨_, _, _, c, start, herror, rfl, hcode, rfl, hchar, hplain, hbreak, hline, hlineOf⟩

/-- A form feed in a comment ends a line that is shown, but is not counted as the end of a line. -/
def Source.paged : Source := { text := "// a\x0cb\n$" }

theorem Program.misses_line_after_formFeed :
    ∃ error, ofSource .paged = .error (.lex error) ∧
      ¬ ∃ line, error.diagnostic.sourceLine = some line ∧
        error.span.start.column ≤ line.length ∧
        line.toList[(error.span.start.column - 1).toNat]? =
          Source.paged.text.toList[error.span.start.offset]? := by
  refine ⟨_, rfl, ?_⟩
  rintro ⟨line, hline, _, hsame⟩
  obtain rfl : "b" = line := Option.some.inj hline
  revert hsame
  decide

end Treewalk
