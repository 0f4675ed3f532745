import Treewalk.Source.Diagnostic

/-! # The carets under a source line

A report shows a source line in one row and carets under the columns of the span in the next. What
stands in front of the line is as wide as its number, but at least three characters and three more.
What stands in front of the columns of the carets has always six. So the first caret is under the
first character of the span as long as the line number has three digits at most, and too far to the
left after that.
-/

namespace Treewalk

open Number (copies natText intText)

@[simp] theorem Number.toList_copies (count : Nat) (c : Char) :
    (copies count c).toList = List.replicate count c :=
  String.toList_ofList

namespace Diagnostic

variable {d : Diagnostic} {line : String} {span : Span} {number : Int}

/-- What stands in front of a source line in its row. -/
def margin (number : Int) : String := gutter number ++ " | "

def caretRow (line : String) (span : Span) : String :=
  "    | " ++ copies (span.start.column - 1).toNat ' ' ++ copies (caretCount line span) '^'

/-- The columns that a span has on its first line: from its start up to its end, or to the end of
the line if the span ends on a later line. -/
def columnsOn (line : String) (span : Span) : Int :=
  if span.stop.line = span.start.line then span.stop.column - span.start.column
  else line.length + 1 - span.start.column

/-- The rows of a report with a source line. -/
theorem text_eq (hspan : d.span = some span) (hline : d.sourceLine = some line) :
    d.text = "\n".intercalate (d.header :: "  |" :: (margin span.start.line ++ line) ::
      caretRow line span :: d.hints.map ("    = hint: " ++ ·)) := by
  unfold text format
  rw [hspan, hline]
  rfl

/-! ## The row of carets -/

/-- There is a caret for every column that the span covers, and one at least. -/
theorem caretCount_eq (line : String) (span : Span) :
    (caretCount line span : Int) = max 1 (columnsOn line span) := by
  unfold caretCount columnsOn
  dsimp only
  split
  next h => rw [if_pos h.symm]; omega
  next h => rw [if_neg (Ne.symm h)]; omega

/-- The row of carets: a fixed margin, blanks up to the column, and the carets. -/
theorem toList_caretRow (line : String) (span : Span) :
    (caretRow line span).toList =
      "    | ".toList ++ List.replicate (span.start.column - 1).toNat ' ' ++
        List.replicate (caretCount line span) '^' := by
  simp [caretRow]

theorem count_caretRow (line : String) (span : Span) :
    (caretRow line span).toList.count '^' = caretCount line span := by
  simp [toList_caretRow, List.count_replicate]

/-- The first caret stands six columns to the right of what the span's column says. -/
theorem idxOf_caretRow (line : String) (span : Span) :
    (caretRow line span).toList.idxOf '^' = 6 + (span.start.column - 1).toNat := by
  have hsome : caretCount line span ≠ 0 := by
    have hcount := caretCount_eq line span
    omega
  obtain ⟨count, hcount⟩ := Nat.exists_eq_succ_of_ne_zero hsome
  have hbefore : '^' ∉ "    | ".toList ++ List.replicate (span.start.column - 1).toNat ' ' := by
    simp
  rw [toList_caretRow, hcount, List.replicate_succ, List.idxOf_append, if_neg hbefore]
  simp
  omega

theorem feed_not_mem_caretRow (line : String) (span : Span) :
    '\n' ∉ (caretRow line span).toList := by
  simp [toList_caretRow]

/-! ## The row of the source line -/

/-- The margin is the number of the line, padded to three columns, and a bar. -/
theorem toList_margin (hnumber : 0 ≤ number) :
    (margin number).toList =
      List.replicate (3 - (Nat.toDigits 10 number.natAbs).length) ' ' ++
        Nat.toDigits 10 number.natAbs ++ " | ".toList := by
  have htext : intText number = String.ofList (Nat.toDigits 10 number.natAbs) := by
    unfold intText
    rw [if_neg (Int.not_lt.mpr hnumber)]
    rfl
  simp [margin, gutter, htext]

/-- The margin takes six columns, or more if the number has more than three digits. -/
theorem length_margin (hnumber : 0 ≤ number) :
    (margin number).length = max 3 (Nat.toDigits 10 number.natAbs).length + 3 := by
  rw [← String.length_toList, toList_margin hnumber]
  simp
  omega

/-- Three digits are enough for the line numbers below a thousand. -/
theorem length_margin_eq_iff (hnumber : 0 ≤ number) :
    (margin number).length = 6 ↔ number < 1000 := by
  have hdigits : (Nat.toDigits 10 number.natAbs).length ≤ 3 ↔ number.natAbs < 10 ^ 3 :=
    Nat.length_toDigits_le_iff (by decide) (by decide)
  rw [length_margin hnumber]
  omega

/-- The margin stands on one line. -/
theorem feed_not_mem_margin (hnumber : 0 ≤ number) : '\n' ∉ (margin number).toList := by
  have hdigits : '\n' ∉ Nat.toDigits 10 number.natAbs := by
    intro hmem
    have hdigit := Nat.isDigit_of_mem_toDigits (by decide) (by decide) hmem
    revert hdigit
    decide
  simp [toList_margin hnumber, hdigits]

/-- The carets under a source line. The report has a row with the source line after a margin, and
under it a row with carets, of which there are as many as the span has columns on the line, and one
at least. The first caret is under the first character of the span exactly if the line number is
below a thousand. -/
theorem caret_under_start_iff (hspan : d.span = some span) (hline : d.sourceLine = some line)
    (hfeed : '\n' ∉ line.toList) (hnumber : 1 ≤ span.start.line)
    (hcolumn : 1 ≤ span.start.column) :
    ∃ margin carets, d.text = "\n".intercalate (d.header :: "  |" :: (margin ++ line) :: carets ::
        d.hints.map ("    = hint: " ++ ·)) ∧
      '\n' ∉ (margin ++ line).toList ∧ '\n' ∉ carets.toList ∧
      (carets.toList.count '^' : Int) = max 1 (columnsOn line span) ∧
      ((carets.toList.idxOf '^' : Int) = margin.length + (span.start.column - 1) ↔
        span.start.line < 1000) := by
  refine ⟨margin span.start.line, caretRow line span, text_eq hspan hline, ?_, ?_, ?_, ?_⟩
  · rw [String.toList_append, List.mem_append, not_or]
    exact ⟨feed_not_mem_margin (by omega), hfeed⟩
  · exact feed_not_mem_caretRow line span
  · rw [count_caretRow, caretCount_eq]
  · rw [idxOf_caretRow, ← length_margin_eq_iff (by omega)]
    omega

/-- An unfinished call from one line to the next. -/
def unfinishedCall : Diagnostic :=
  { code := "E101"
    message := "expected ')', found ';'"
    span := some ⟨⟨999, 5, 70, none⟩, ⟨1000, 2, 76, none⟩⟩
    sourceLine := some "x = f(1" }

/-- Margins of one digit are as wide as the carets' margin. -/
theorem caret_under_start_iff_unfinishedCall :
    ∃ margin carets, unfinishedCall.text =
        "\n".intercalate [unfinishedCall.header, "  |", margin ++ "x = f(1", carets] ∧
      carets.toList.count '^' = 3 ∧ carets.toList.idxOf '^' = margin.length + 4 := by
  obtain ⟨margin, carets, htext, _, _, hcount, hunder⟩ :=
    @caret_under_start_iff unfinishedCall "x = f(1" ⟨⟨999, 5, 70, none⟩, ⟨1000, 2, 76, none⟩⟩
      rfl rfl (by decide) (by decide) (by decide)
  refine ⟨margin, carets, htext, ?_, ?_⟩
  · have hcolumns : columnsOn "x = f(1" ⟨⟨999, 5, 70, none⟩, ⟨1000, 2, 76, none⟩⟩ = 3 := by decide
    omega
  · have hoffset := hunder.mpr (by decide)
    simp only at hoffset
    omega

/-- A character in a line with a number of four digits. -/
def farDown : Diagnostic :=
  { code := "E001"
    message := "unexpected character '$'"
    span := some ⟨⟨1000, 1, 5000, none⟩, ⟨1000, 2, 5001, none⟩⟩
    sourceLine := some "$" }

/-- At line 1000 the margin has outgrown that of the carets. -/
theorem caret_beside_start_farDown :
    farDown.text = "\n".intercalate [farDown.header, "  |", "1000 | " ++ "$", "    | ^"] ∧
      "    | ^".toList.idxOf '^' ≠ "1000 | ".length := by
  decide

end Diagnostic

end Treewalk
