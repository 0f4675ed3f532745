import Treewalk.Text.Quoted

/-! # Texts that tell what they stand for

What is written of a value tells the value if nothing else is written alike, whatever follows. Such
writings can be put one behind the other: they tell all of the values, as long as the end of them
can be told from one more.

Quoted texts are written in this way, character by character, and lines are, each up to its line
feed. So a quoted text stands for one text only, and a text of lines for one list of lines.
-/

namespace Treewalk.Text

section Told

variable {α β : Type} {write : α → List β} {good : α → Prop}

/-- A value is told by what is written of it: where it stands in front, no other value does. -/
def Told (write : α → List β) (good : α → Prop) (a : α) : Prop :=
  ∀ ⦃b rest rest'⦄, good b → write a ++ rest = write b ++ rest' → a = b ∧ rest = rest'

/-- What can be read back is told. -/
theorem told_of_read (read : List β → Option (α × List β))
    (hread : ∀ a rest, good a → read (write a ++ rest) = some (a, rest)) {a : α} (ha : good a) :
    Told write good a := by
  intro b rest rest' hb heq
  have hsame := (hread a rest ha).symm.trans ((congrArg read heq).trans (hread b rest' hb))
  exact Prod.mk.inj (Option.some.inj hsame)

/-- Values that are told one by one are told when they are written one behind the other, up to where
none can follow. -/
theorem flatMap_inj {stops : List β → Prop}
    (hstops : ∀ a rest, good a → ¬ stops (write a ++ rest)) {as bs : List α}
    (has : ∀ a ∈ as, good a) (htold : ∀ a ∈ as, Told write good a) (hbs : ∀ b ∈ bs, good b)
    {rest rest' : List β} (hrest : stops rest) (hrest' : stops rest')
    (heq : as.flatMap write ++ rest = bs.flatMap write ++ rest') : as = bs ∧ rest = rest' := by
  induction as generalizing bs with
  | nil =>
      cases bs with
      | nil => exact ⟨rfl, heq⟩
      | cons b bs =>
          rw [List.flatMap_nil, List.nil_append, List.flatMap_cons, List.append_assoc] at heq
          rw [heq] at hrest
          exact absurd hrest (hstops b _ (hbs b List.mem_cons_self))
  | cons a as ih =>
      obtain ⟨ha, has⟩ := List.forall_mem_cons.mp has
      obtain ⟨htold, htolds⟩ := List.forall_mem_cons.mp htold
      cases bs with
      | nil =>
          rw [List.flatMap_nil, List.nil_append, List.flatMap_cons, List.append_assoc] at heq
          rw [← heq] at hrest'
          exact absurd hrest' (hstops a _ ha)
      | cons b bs =>
          obtain ⟨hb, hbehind⟩ := List.forall_mem_cons.mp hbs
          rw [List.flatMap_cons, List.flatMap_cons, List.append_assoc, List.append_assoc] at heq
          obtain ⟨hsame, heq⟩ := htold hb heq
          obtain ⟨hsames, hrests⟩ := ih has htolds hbehind heq
          exact ⟨List.cons_eq_cons.mpr ⟨hsame, hsames⟩, hrests⟩

/-- A list is told by its items and a mark behind them that no item begins with. -/
theorem told_flatMap {close : β} (hclose : ∀ a, good a → ∃ c cs, write a = c :: cs ∧ c ≠ close)
    {as : List α} (has : ∀ a ∈ as, good a) (htold : ∀ a ∈ as, Told write good a) :
    Told (fun as => as.flatMap write ++ [close]) (fun as => ∀ a ∈ as, good a) as := by
  intro bs rest rest' hbs heq
  let stops (cs : List β) : Prop := cs.head? = some close
  have hstops : ∀ a rest, good a → ¬ stops (write a ++ rest) := by
    intro a rest ha hhead
    obtain ⟨c, cs, hwrite, hne⟩ := hclose a ha
    rw [hwrite] at hhead
    exact hne (Option.some.inj hhead)
  rw [List.append_assoc, List.append_assoc] at heq
  obtain ⟨hsame, hrest⟩ := flatMap_inj hstops has htold hbs rfl rfl heq
  exact ⟨hsame, (List.cons.inj hrest).2⟩

end Told

/-! ## Lines -/

/-- The text of some lines, each with a line feed at its end. -/
def ofLines (lines : List String) : String := String.join (lines.map (· ++ "\n"))

def OneLine (text : String) : Prop := '\n' ∉ text.toList

instance (text : String) : Decidable (OneLine text) :=
  inferInstanceAs (Decidable ('\n' ∉ text.toList))

theorem OneLine.append {a b : String} (ha : OneLine a) (hb : OneLine b) : OneLine (a ++ b) := by
  unfold OneLine
  rw [String.toList_append, List.mem_append]
  exact fun h => h.elim ha hb

theorem toList_ofLines (lines : List String) :
    (ofLines lines).toList = lines.flatMap fun line => line.toList ++ ['\n'] := by
  simp [ofLines, String.toList_join, List.flatMap_map, String.toList_append]

/-- A line is told by its characters and the line feed behind them. -/
theorem told_line {text : String} (h : OneLine text) :
    Told (fun line : String => line.toList ++ ['\n']) OneLine text := by
  have hchars : ∀ line : String, OneLine line → ∀ c ∈ line.toList, c ≠ '\n' := by
    rintro line hline c hc rfl
    exact hline hc
  have htold : ∀ c ∈ text.toList, Told (fun c : Char => [c]) (· ≠ '\n') c := by
    intro c _ d rest rest' _ heq
    exact List.cons.inj heq
  intro other rest rest' hother heq
  have hclose : ∀ c : Char, c ≠ '\n' → ∃ d ds, [c] = d :: ds ∧ d ≠ '\n' := fun c hc =>
    ⟨c, [], rfl, hc⟩
  have hself : ∀ cs : List Char, cs.flatMap (fun c => [c]) = cs := List.flatMap_singleton'
  dsimp only at heq
  rw [← hself text.toList, ← hself other.toList] at heq
  obtain ⟨hsame, hrest⟩ := told_flatMap hclose (hchars text h) htold (hchars other hother) heq
  exact ⟨String.toList_inj.mp hsame, hrest⟩

/-- A text of lines stands for one list of lines. -/
theorem ofLines_inj {lines others : List String} (hlines : ∀ line ∈ lines, OneLine line)
    (hothers : ∀ line ∈ others, OneLine line) (heq : ofLines lines = ofLines others) :
    lines = others := by
  have hchars := congrArg String.toList heq
  rw [toList_ofLines, toList_ofLines] at hchars
  have hstops : ∀ (line : String) (rest : List Char), OneLine line →
      ¬ [] = line.toList ++ ['\n'] ++ rest := by
    intro line rest _
    simp
  exact (flatMap_inj hstops hlines (fun line h => told_line (hlines line h)) hothers rfl rfl
    (congrArg (· ++ []) hchars)).1

/-! ## Hexadecimal digits -/

/-- One digit more. -/
theorem hex_succ {width : Nat} (hwidth : 0 < width) (n : Nat) :
    hex (width + 1) n = hex width (n / 16) ++ [Nat.digitChar (n % 16)] := by
  unfold hex
  by_cases h : n < 16
  · obtain ⟨width, rfl⟩ := Nat.exists_eq_succ_of_ne_zero (Nat.ne_of_gt hwidth)
    rw [Nat.toDigits_of_lt_base h, Nat.div_eq_of_lt h, Nat.mod_eq_of_lt h]
    simp [Nat.toDigits_zero, List.replicate_succ']
  · rw [Nat.toDigits_of_base_le (by omega) (by omega)]
    simp

def hexDigit (c : Char) : Nat := if c.toNat < 'a'.toNat then c.toNat - '0'.toNat
  else c.toNat - 'a'.toNat + 10

theorem hexDigit_digitChar : ∀ d < 16, hexDigit (Nat.digitChar d) = d := by decide

def unhex (digits : List Char) : Nat := digits.foldl (fun n c => 16 * n + hexDigit c) 0

/-- Where there is room for all digits, a number has just so many and is read from them. -/
theorem hex_reads {width n : Nat} (hn : n < Nat.pow 16 (width + 1)) :
    (hex (width + 1) n).length = width + 1 ∧ unhex (hex (width + 1) n) = n ∧
      ∀ c ∈ hex (width + 1) n, ∃ d < 16, c = Nat.digitChar d := by
  induction width generalizing n with
  | zero =>
      change n < 16 at hn
      have hdigits : hex 1 n = [Nat.digitChar n] := by
        unfold hex
        rw [Nat.toDigits_of_lt_base hn]
        rfl
      rw [hdigits]
      refine ⟨rfl, ?_, fun c hc => ⟨n, hn, List.mem_singleton.mp hc⟩⟩
      simp [unhex, hexDigit_digitChar n hn]
  | succ width ih =>
      change n < Nat.pow 16 (width + 1) * 16 at hn
      have hmod : n % 16 < 16 := Nat.mod_lt _ (by decide)
      obtain ⟨hlength, hvalue, hchars⟩ := ih (n := n / 16) (Nat.div_lt_of_lt_mul (by omega))
      rw [hex_succ (Nat.succ_pos width)]
      refine ⟨by simp [hlength], ?_, fun c hc => ?_⟩
      · unfold unhex at *
        rw [List.foldl_append, hvalue, List.foldl_cons, List.foldl_nil, hexDigit_digitChar _ hmod]
        omega
      · rcases List.mem_append.mp hc with hc | hc
        · exact hchars c hc
        · exact ⟨n % 16, hmod, List.mem_singleton.mp hc⟩

/-! ## Quoted texts -/

/-- The number of digits, less one, of an escape that begins with a letter. -/
def moreDigits? (letter : Char) : Option Nat :=
  if letter = 'x' then some 1 else if letter = 'u' then some 3
  else if letter = 'U' then some 7 else none

/-- The character that a letter stands for behind a backslash. -/
def escapedChar (letter : Char) : Char :=
  if letter = 'n' then '\n' else if letter = 'r' then '\r'
  else if letter = 't' then '\t' else letter

/-- The ways in which a character is escaped: by a letter, or by its code point. -/
inductive Escape (c : Char) : List Char → Prop where
  | letter {letter} : moreDigits? letter = none → escapedChar letter = c → letter ≠ '\n' →
      Escape c [letter]
  | code {letter more} : moreDigits? letter = some more → letter ≠ '\n' →
      c.toNat < Nat.pow 16 (more + 1) → Escape c (letter :: hex (more + 1) c.toNat)

/-- Codes are escaped by a backslash and what names them. -/
theorem codeEscape_eq (c : Char) : ∃ cs, codeEscape c = '\\' :: cs ∧ Escape c cs := by
  have hvalid : c.toNat < 0x110000 := by
    have hvalid := c.valid
    unfold UInt32.isValidChar Nat.isValidChar at hvalid
    have hval : c.toNat = c.val.toNat := rfl
    omega
  unfold codeEscape
  dsimp only
  split
  next h => exact ⟨_, rfl, .code rfl (by decide) h⟩
  split
  next h => exact ⟨_, rfl, .code rfl (by decide) h⟩
  · exact ⟨_, rfl, .code rfl (by decide) (Nat.lt_trans hvalid (by decide))⟩

def IsQuote (c : Char) : Prop := c = '\'' ∨ c = '"'

theorem isQuote_quoteFor (cs : List Char) : IsQuote (quoteFor cs) := by
  unfold quoteFor
  split
  · exact .inr rfl
  · exact .inl rfl

/-- A character stands for itself between quotes, or it is escaped. -/
theorem quotedChar_cases {quote : Char} (hquote : IsQuote quote) (c : Char) :
    (quotedChar quote c = [c] ∧ c ≠ quote ∧ c ≠ '\\' ∧ c ≠ '\n') ∨
      ∃ cs, quotedChar quote c = '\\' :: cs ∧ Escape c cs := by
  unfold quotedChar
  split
  next h =>
    have hletter : c = '\'' ∨ c = '"' ∨ c = '\\' := by
      rcases h with rfl | rfl
      · exact hquote.imp_right .inl
      · exact .inr (.inr rfl)
    refine .inr ⟨_, rfl, ?_⟩
    rcases hletter with rfl | rfl | rfl <;> exact .letter rfl rfl (by decide)
  next hplain =>
  split
  next h => exact .inr ⟨_, rfl, .letter rfl h.symm (by decide)⟩
  next hfeed =>
  split
  next h => exact .inr ⟨_, rfl, .letter rfl h.symm (by decide)⟩
  split
  next h => exact .inr ⟨_, rfl, .letter rfl h.symm (by decide)⟩
  split
  · exact .inl ⟨rfl, fun h => hplain (.inl h), fun h => hplain (.inr h), hfeed⟩
  · exact .inr (codeEscape_eq c)

def readChar? : List Char → Option (Char × List Char)
  | [] => none
  | [c] => some (c, [])
  | c :: letter :: rest =>
    if c = '\\' then
      match moreDigits? letter with
      | some more => some (Char.ofNat (unhex (rest.take (more + 1))), rest.drop (more + 1))
      | none => some (escapedChar letter, rest)
    else some (c, letter :: rest)

theorem readChar?_escape {c : Char} {cs : List Char} (h : Escape c cs) (rest : List Char) :
    readChar? ('\\' :: (cs ++ rest)) = some (c, rest) := by
  cases h with
  | letter hmore hc _ =>
      rw [List.singleton_append, readChar?, if_pos rfl, hmore]
      dsimp only
      rw [hc]
  | code hmore _ hroom =>
      obtain ⟨hlength, hvalue, _⟩ := hex_reads hroom
      rw [List.cons_append, readChar?, if_pos rfl, hmore]
      dsimp only
      rw [List.take_left' hlength, List.drop_left' hlength, hvalue, Char.ofNat_toNat]

/-- A character is read back from between quotes. -/
theorem readChar?_quotedChar {quote : Char} (hquote : IsQuote quote) (c : Char) (rest : List Char) :
    readChar? (quotedChar quote c ++ rest) = some (c, rest) := by
  rcases quotedChar_cases hquote c with ⟨hself, _, hslash, _⟩ | ⟨cs, hescape, h⟩
  · rw [hself]
    cases rest with
    | nil => rfl
    | cons d rest => rw [List.singleton_append, readChar?, if_neg hslash]
  · rw [hescape]
    exact readChar?_escape h rest

/-- The quote itself is not written between quotes without a backslash. -/
theorem quotedChar_head {quote : Char} (hquote : IsQuote quote) (c : Char) :
    ∃ d ds, quotedChar quote c = d :: ds ∧ d ≠ quote := by
  rcases quotedChar_cases hquote c with ⟨hself, hne, _⟩ | ⟨cs, hescape, _⟩
  · exact ⟨c, [], hself, hne⟩
  · refine ⟨'\\', cs, hescape, ?_⟩
    rcases hquote with rfl | rfl <;> decide

theorem quotedChar_oneLine {quote : Char} (hquote : IsQuote quote) (c : Char) :
    '\n' ∉ quotedChar quote c := by
  have hdigit : ∀ d < 16, '\n' ≠ Nat.digitChar d := by decide
  rcases quotedChar_cases hquote c with ⟨hself, _, _, hfeed⟩ | ⟨cs, hescape, h⟩
  · rw [hself]
    simpa using Ne.symm hfeed
  · rw [hescape]
    cases h with
    | letter _ _ hfeed => simpa using Ne.symm hfeed
    | code _ hfeed hroom =>
        simp only [List.mem_cons, Ne.symm hfeed, false_or]
        intro hmem
        obtain ⟨d, hd, heq⟩ := (hex_reads hroom).2.2 _ (hmem.resolve_left (by decide))
        exact hdigit d hd heq

/-- A quoted text is its characters between quotes, each written on its own. -/
theorem toList_quoted (text : String) :
    (quoted text).toList = quoteFor text.toList ::
      (text.toList.flatMap (quotedChar (quoteFor text.toList)) ++ [quoteFor text.toList]) := by
  rw [quoted, String.toList_ofList]
  rfl

/-- A quoted text stands for one text. -/
theorem quoted_inj {text other : String} (heq : quoted text = quoted other) : text = other := by
  have hchars := congrArg String.toList heq
  rw [toList_quoted, toList_quoted, List.cons.injEq] at hchars
  obtain ⟨hsame, hchars⟩ := hchars
  have hquote := isQuote_quoteFor text.toList
  rw [← hsame] at hchars
  generalize quoteFor text.toList = quote at hquote hchars
  have htold : ∀ c ∈ text.toList, Told (quotedChar quote) (fun _ => True) c := by
    intro c _
    exact told_of_read readChar? (fun c rest _ => readChar?_quotedChar hquote c rest) trivial
  have hlists := told_flatMap (fun c _ => quotedChar_head hquote c) (fun _ _ => trivial) htold
    (fun _ _ => trivial) (congrArg (· ++ []) hchars)
  exact String.toList_inj.mp hlists.1

/-- A quoted text is on one line. -/
theorem quoted_oneLine (text : String) : OneLine (quoted text) := by
  have hquote := isQuote_quoteFor text.toList
  have hfeed : '\n' ≠ quoteFor text.toList := by
    rcases hquote with h | h <;> rw [h] <;> decide
  unfold OneLine
  rw [toList_quoted]
  simp only [List.mem_cons, List.mem_append, List.mem_flatMap, List.not_mem_nil, or_false, hfeed,
    false_or]
  rintro ⟨c, _, hc⟩
  exact quotedChar_oneLine hquote c hc

end Treewalk.Text
