import Treewalk.Proofs.Json.Numbers

/-! # Data read back from their JSON text

Every datum whose dictionaries have distinct texts for keys is read back from its text, with any
indentation, as far as the limit lets its nesting through. The reader takes a value off the front
for every value, whatever stands after it that cannot go on with a number; lists and dictionaries
follow from their items by induction along the commas.
-/

namespace Treewalk

mutual

/-- How many lists and dictionaries are inside each other, and one for what they hold. -/
def Datum.depth : Datum → Nat
  | .list items => Datum.depths items + 1
  | .dict entries => Datum.entryDepths entries + 1
  | _ => 1

def Datum.depths : List Datum → Nat
  | [] => 0
  | d :: rest => max d.depth (Datum.depths rest)

def Datum.entryDepths : List (Datum × Datum) → Nat
  | [] => 0
  | (_, d) :: rest => max d.depth (Datum.entryDepths rest)

end

theorem Datum.depth_pos (d : Datum) : 0 < d.depth := by
  cases d <;> simp [Datum.depth]

def textEntries (entries : List (String × Datum)) : List (Datum × Datum) :=
  entries.map fun (key, value) => (.text key, value)

mutual

/-- The keys of all dictionaries are texts, none of them twice in one. -/
def Datum.Keyed : Datum → Prop
  | .list items => Datum.AllKeyed items
  | .dict entries =>
    (∃ texts : List (String × Datum), entries = textEntries texts ∧ (texts.map Prod.fst).Nodup) ∧
      Datum.EntriesKeyed entries
  | _ => True

def Datum.AllKeyed : List Datum → Prop
  | [] => True
  | d :: rest => d.Keyed ∧ Datum.AllKeyed rest

def Datum.EntriesKeyed : List (Datum × Datum) → Prop
  | [] => True
  | (_, d) :: rest => d.Keyed ∧ Datum.EntriesKeyed rest

end

namespace Json

open Number (isDigit)

/-! ## Blanks -/

def Blanks (cs : List Char) : Prop := ∀ c ∈ cs, isBlank c = true

/-- The characters that values begin with. -/
def opensValue (c : Char) : Bool :=
  isDigit c || ['-', '"', '[', '\x7b', 'n', 't', 'f', 'N', 'I'].contains c

def Starts (text : List Char) : Prop := ∃ c rest, text = c :: rest ∧ opensValue c = true

/-- Characters that a test tells apart are different. -/
theorem ne_of_test {test : Char → Bool} {c d : Char} (hc : test c = true) (hd : test d = false) :
    c ≠ d := by
  rintro rfl
  rw [hc] at hd
  cases hd

theorem not_isBlank {c : Char} (hc : opensValue c = true) : isBlank c = false := by
  simp [isBlank, ne_of_test hc (rfl : opensValue ' ' = false),
    ne_of_test hc (rfl : opensValue '\t' = false),
    ne_of_test hc (rfl : opensValue '\n' = false),
    ne_of_test hc (rfl : opensValue '\r' = false)]

/-- Blanks are skipped up to the first character that is none. -/
theorem skipBlanks_append {blanks : List Char} (h : Blanks blanks) (offset : Nat) {c : Char}
    (hc : isBlank c = false) (rest : List Char) :
    Place.skipBlanks ⟨offset, blanks ++ c :: rest⟩ = ⟨offset + blanks.length, c :: rest⟩ := by
  have htaken : (blanks ++ c :: rest).takeWhile isBlank = blanks := by
    rw [List.takeWhile_append_of_pos h]
    simp [hc]
  rw [Place.skipBlanks]
  dsimp only
  rw [htaken, Place.skip_append]

theorem blanks_nil : Blanks [] := by simp [Blanks]

theorem skipBlanks_self (offset : Nat) {c : Char} (hc : isBlank c = false) (rest : List Char) :
    Place.skipBlanks ⟨offset, c :: rest⟩ = ⟨offset, c :: rest⟩ :=
  skipBlanks_append blanks_nil offset hc rest

theorem Starts.append {cs : List Char} (h : Starts cs) (rest : List Char) :
    Starts (cs ++ rest) := by
  obtain ⟨c, tail, rfl, hopens⟩ := h
  exact ⟨c, tail ++ rest, rfl, hopens⟩

/-- The text starts as a value does, and the reader takes it for the datum. -/
def ReadsAs (reader : Read Datum) (text : List Char) (d : Datum) : Prop :=
  Starts text ∧ ∀ rest, Stops rest → Takes reader text d rest

/-! ## Scalars -/

/-- A digit begins a numeral, with or without a sign before it. -/
theorem Numeral.text_cases (t : Numeral) :
    ∃ c cs, isDigit c = true ∧ (t.text = c :: cs ∨ t.text = '-' :: c :: cs) := by
  obtain ⟨c, cs, hwhole⟩ := List.exists_cons_of_ne_nil t.whole_ne_nil
  have hdigit : isDigit c = true := t.whole_digits c (by rw [hwhole]; exact List.mem_cons_self)
  refine ⟨c, cs ++ (fractionText t.fraction ++ exponentText t.exponent), hdigit, ?_⟩
  unfold text
  rw [hwhole]
  cases t.negative with
  | true => exact .inr rfl
  | false => exact .inl rfl

/-- No word begins a numeral. -/
theorem find?_words_eq_none (t : Numeral) (rest : List Char) :
    words.find? (fun word => word.1.isPrefixOf (t.text ++ rest)) = none := by
  obtain ⟨c, cs, hdigit, htext⟩ := t.text_cases
  have hne : ∀ d, isDigit d = false → (d == c) = false :=
    fun d hd => beq_false_of_ne (ne_of_test hdigit hd).symm
  rcases htext with htext | htext
  · simp [htext, words, List.isPrefixOf, hne _ (rfl : isDigit 'n' = false),
      hne _ (rfl : isDigit 't' = false), hne _ (rfl : isDigit 'f' = false),
      hne _ (rfl : isDigit 'N' = false), hne _ (rfl : isDigit 'I' = false),
      hne _ (rfl : isDigit '-' = false)]
  · simp [htext, words, List.isPrefixOf, hne _ (rfl : isDigit 'I' = false)]

theorem Numeral.starts (t : Numeral) : Starts t.text := by
  obtain ⟨c, cs, hdigit, htext | htext⟩ := t.text_cases
  · exact ⟨c, cs, htext, by simp [opensValue, hdigit]⟩
  · exact ⟨'-', c :: cs, htext, rfl⟩

/-- A numeral is a value. -/
theorem numeral_readsAs (limit : Nat) (t : Numeral) :
    ReadsAs (value (limit + 1)) t.text t.datum := by
  refine ⟨t.starts, fun rest hrest offset => ?_⟩
  obtain ⟨c, cs, hdigit, htext⟩ := t.text_cases
  have hfront : ∀ d, isDigit d = false → d ≠ '-' → ∀ tail, t.text ++ rest ≠ d :: tail := by
    intro d hd hminus tail heq
    rcases htext with htext | htext
    · rw [htext] at heq
      cases heq
      exact ne_of_test hdigit hd rfl
    · rw [htext] at heq
      cases heq
      exact hminus rfl
  rw [value]
  split
  next heq => exact absurd heq (hfront _ rfl (by decide) _)
  next heq => exact absurd heq (hfront _ rfl (by decide) _)
  next heq => exact absurd heq (hfront _ rfl (by decide) _)
  next =>
    dsimp only
    rw [find?_words_eq_none]
    exact number_takes t hrest offset

/-- A word is a value. -/
theorem word_readsAs (limit : Nat) {word : List Char} {d : Datum} (h : (word, d) ∈ words) :
    ReadsAs (value (limit + 1)) word d := by
  constructor
  · have hall : words.all (fun entry => entry.1.head?.any opensValue) = true := by decide
    have hopens := List.all_eq_true.mp hall (word, d) h
    obtain ⟨c, hhead, hopens⟩ := Option.any_eq_true _ _ |>.mp hopens
    exact ⟨c, _, (List.cons_head?_tail hhead).symm, hopens⟩
  · intro rest _ offset
    simp only [words, List.mem_cons, Prod.mk.injEq, List.not_mem_nil, or_false] at h
    rcases h with ⟨rfl, rfl⟩ | ⟨rfl, rfl⟩ | ⟨rfl, rfl⟩ | ⟨rfl, rfl⟩ | ⟨rfl, rfl⟩ |
      ⟨rfl, rfl⟩ <;> rfl

/-- A string is a value. -/
theorem string_readsAs (limit : Nat) (s : String) :
    ReadsAs (value (limit + 1)) (stringText s).toList (.text s) := by
  rw [toList_stringText]
  refine ⟨⟨'"', _, rfl, rfl⟩, fun rest _ offset => ?_⟩
  have hstring := string_takes s rest offset
  rw [toList_stringText, List.cons_append] at hstring
  rw [List.cons_append, value]
  dsimp only
  rw [hstring]
  rfl

/-- An integer is a value. -/
theorem int_readsAs (limit : Nat) (n : Int) :
    ReadsAs (value (limit + 1)) (Number.intText n).toList (.int n) := by
  rw [← Numeral.text_ofInt, ← Numeral.datum_ofInt]
  exact numeral_readsAs limit (Numeral.ofInt n)

/-- A double is a value: a numeral if it is finite, and a word if it is not. -/
theorem float_readsAs (limit : Nat) (x : Float) :
    ReadsAs (value (limit + 1)) (floatText x).toList (.float x) := by
  unfold floatText
  cases hfinite : x.isFinite with
  | true =>
      obtain ⟨t, htext, hdatum⟩ := exists_numeral_of_finite hfinite
      rw [if_pos rfl, ← htext, ← hdatum]
      exact numeral_readsAs limit t
  | false =>
      rw [if_neg Bool.false_ne_true]
      unfold Number.plainText
      rcases Number.Binary.eq_of_not_isFinite hfinite with ⟨hfields, hx⟩ | ⟨hfields, hx⟩ |
        ⟨hfields, hx⟩
      · rw [hfields, hx]
        exact word_readsAs limit (by simp [words])
      · rw [hfields, hx]
        exact word_readsAs limit (by simp [words])
      · rw [hfields, hx]
        exact word_readsAs limit (by simp [words])

/-! ## Lists and dictionaries -/

/-- A blank, comma or closing bracket ends a number. -/
theorem stops_of_blanks {blanks : List Char} (h : Blanks blanks) {c : Char}
    (hc : c ∈ [',', ']', '\x7d']) (rest : List Char) : Stops (blanks ++ c :: rest) := by
  have hends : ∀ a ∈ [',', ']', '\x7d'] ++ [' ', '\t', '\n', '\r'],
      isDigit a = false ∧ a ≠ '.' ∧ a ≠ 'e' ∧ a ≠ 'E' := by simp [isDigit, Char.le_def]
  intro a ha
  cases blanks with
  | nil =>
      obtain rfl : c = a := by simpa using ha
      exact hends c (List.mem_append_left _ hc)
  | cons b blanks =>
      obtain rfl : b = a := by simpa using ha
      have hb := h b List.mem_cons_self
      exact hends b (List.mem_append_right _ (by simpa [isBlank, or_assoc] using hb))

/-- The blanks before a value are skipped. -/
theorem skipBlanks_of_starts {blanks text : List Char} (h : Blanks blanks) (htext : Starts text)
    (offset : Nat) :
    Place.skipBlanks ⟨offset, blanks ++ text⟩ = ⟨offset + blanks.length, text⟩ := by
  obtain ⟨c, cs, rfl, hopens⟩ := htext
  exact skipBlanks_append h offset (not_isBlank hopens) cs

section Sequences

variable (gap outer : List Char) (close : Char)

/-- What stands after a part: the other parts behind their commas, and the closing bracket. -/
def after : List (List Char) → List Char
  | [] => outer ++ [close]
  | text :: others => ',' :: (gap ++ (text ++ after others))

/-- Parts between commas are the first of them and what comes after it. -/
theorem intercalate_append_eq (text : List Char) (others : List (List Char)) :
    (',' :: gap).intercalate (text :: others) ++ (outer ++ [close]) =
      text ++ after gap outer close others := by
  induction others generalizing text with
  | nil => simp [List.intercalate, after]
  | cons second others ih =>
      rw [List.intercalate_cons_cons, after, ← ih]
      simp

/-- There are fewer parts left than characters, so that the rounds of the reader are enough. -/
theorem length_lt_after (others : List (List Char)) :
    others.length < (after gap outer close others).length := by
  induction others with
  | nil => simp [after]
  | cons text others ih =>
      simp only [after, List.length_cons, List.length_append]
      omega

variable {gap outer close}

/-- What comes after a part does not go on with a number in it. -/
theorem stops_after (houter : Blanks outer) (hclose : close ∈ [',', ']', '\x7d'])
    (others : List (List Char)) (rest : List Char) :
    Stops (after gap outer close others ++ rest) := by
  cases others with
  | nil =>
      rw [after, List.append_assoc]
      exact stops_of_blanks houter hclose rest
  | cons text others => exact stops_of_blanks blanks_nil (by simp) _

variable {reader : Read Datum} {write : Datum → List Char}

/-- Items between commas are read up to the closing bracket. -/
theorem items_takes (hgap : Blanks gap) (houter : Blanks outer) (d : Datum) (ds : List Datum)
    (hwrite : ∀ e ∈ d :: ds, ReadsAs reader (write e) e) {rounds : Nat}
    (hrounds : ds.length < rounds) (rest : List Char) :
    Takes (items reader rounds) (write d ++ after gap outer ']' (ds.map write)) (d :: ds) rest := by
  -- along the commas, with the item before the next one generalised
  induction ds generalizing d rounds with
  | nil =>
      intro offset
      obtain ⟨rounds, rfl⟩ := Nat.exists_eq_succ_of_ne_zero (Nat.ne_of_gt hrounds)
      rw [List.append_assoc, items,
        (hwrite d List.mem_cons_self).2 _ (stops_after houter (by simp) _ rest)]
      simp only [bind, Except.bind]
      rw [List.map_nil, after, List.append_assoc, List.singleton_append,
        skipBlanks_append houter _ rfl]
      simp [Nat.add_assoc]
  | cons second ds ih =>
      intro offset
      obtain ⟨rounds, rfl⟩ := Nat.exists_eq_succ_of_ne_zero
        (Nat.ne_of_gt (Nat.zero_lt_of_lt hrounds))
      have hothers := ih second (fun e he => hwrite e (List.mem_cons_of_mem d he))
        (Nat.lt_of_succ_lt_succ hrounds) (offset + (write d).length + 1 + gap.length)
      rw [List.append_assoc, items,
        (hwrite d List.mem_cons_self).2 _ (stops_after houter (by simp) _ rest)]
      simp only [bind, Except.bind]
      rw [List.map_cons, after, List.cons_append, skipBlanks_self _ rfl]
      dsimp only
      rw [Place.skip_one, List.append_assoc gap, skipBlanks_of_starts hgap
        (((hwrite second (by simp)).1.append _).append rest), hothers]
      simp
      omega

/-! Dictionaries are read entry by entry, and a key that is new comes last. -/

theorem setEntry_textEntries {key : String} {sofar : List (String × Datum)}
    (h : key ∉ sofar.map Prod.fst) (d : Datum) :
    setEntry key d (textEntries sofar) = textEntries (sofar ++ [(key, d)]) := by
  induction sofar with
  | nil => rfl
  | cons entry sofar ih =>
      obtain ⟨hne, hrest⟩ := not_or.mp (mt List.mem_cons.mpr h)
      have hkey : (entry.1 == key) = false := beq_false_of_ne (Ne.symm hne)
      have hothers := ih hrest
      unfold textEntries at *
      rw [List.cons_append, List.map_cons, List.map_cons, ← hothers, setEntry]
      simp [hkey]

/-- A key that is still to come has not been read. -/
theorem key_not_mem {sofar es : List (String × Datum)} {e : String × Datum}
    (h : ((sofar ++ e :: es).map Prod.fst).Nodup) : e.1 ∉ sofar.map Prod.fst := by
  rw [List.map_append, List.nodup_append] at h
  exact fun hmem => h.2.2 _ hmem _ (by simp) rfl

def entryText (write : Datum → List Char) (entry : String × Datum) : List Char :=
  (stringText entry.1).toList ++ (':' :: ' ' :: write entry.2)

theorem entryText_starts (write : Datum → List Char) (entry : String × Datum) :
    Starts (entryText write entry) := by
  rw [entryText, toList_stringText]
  exact ⟨'"', _, rfl, rfl⟩

/-- An entry is read from its text. -/
theorem entry_takes {e : String × Datum} (hwrite : ReadsAs reader (write e.2) e.2)
    {rest : List Char} (hrest : Stops rest) : Takes (entry reader) (entryText write e) e rest := by
  intro offset
  have hkey := string_takes e.1 (':' :: ' ' :: (write e.2 ++ rest)) offset
  have hvalue := hwrite.2 rest hrest (offset + (stringText e.1).toList.length + 1 + 1)
  have hblank : Blanks [' '] := by simp [Blanks, isBlank]
  have htext : entryText write e ++ rest =
      (stringText e.1).toList ++ (':' :: ' ' :: (write e.2 ++ rest)) := by
    simp [entryText]
  obtain ⟨cs, hquote⟩ : ∃ cs, (stringText e.1).toList ++ (':' :: ' ' :: (write e.2 ++ rest)) =
      '"' :: cs := ⟨_, by rw [toList_stringText]; rfl⟩
  have hskip := skipBlanks_of_starts hblank (hwrite.1.append rest)
    (offset + (stringText e.1).toList.length + 1)
  rw [List.singleton_append] at hskip
  rw [entry, htext]
  simp only [hquote]
  rw [← hquote, hkey]
  simp only [bind, Except.bind]
  rw [skipBlanks_self _ rfl]
  dsimp only
  rw [Place.skip_one, hskip, List.length_singleton, hvalue]
  simp [entryText]
  omega

/-- Entries between commas are read up to the closing brace, after those read before. -/
theorem entries_takes (hgap : Blanks gap) (houter : Blanks outer)
    (sofar : List (String × Datum)) (e : String × Datum) (es : List (String × Datum))
    (hwrite : ∀ e' ∈ e :: es, ReadsAs reader (write e'.2) e'.2)
    (hkeys : ((sofar ++ e :: es).map Prod.fst).Nodup) {rounds : Nat}
    (hrounds : es.length < rounds) (rest : List Char) :
    Takes (entries reader rounds (textEntries sofar))
      (entryText write e ++ after gap outer '\x7d' (es.map (entryText write)))
      (textEntries (sofar ++ e :: es)) rest := by
  -- the reader collects entries as it goes, so those read before are generalised too
  induction es generalizing rounds sofar e with
  | nil =>
      intro offset
      obtain ⟨rounds, rfl⟩ := Nat.exists_eq_succ_of_ne_zero (Nat.ne_of_gt hrounds)
      rw [List.append_assoc, entries, entry_takes (hwrite e List.mem_cons_self)
        (stops_after houter (by simp) _ rest)]
      simp only [bind, Except.bind]
      rw [List.map_nil, after, List.append_assoc, List.singleton_append,
        skipBlanks_append houter _ rfl, setEntry_textEntries (key_not_mem hkeys)]
      simp [Nat.add_assoc]
  | cons second es ih =>
      intro offset
      obtain ⟨rounds, rfl⟩ := Nat.exists_eq_succ_of_ne_zero
        (Nat.ne_of_gt (Nat.zero_lt_of_lt hrounds))
      have hothers := ih (sofar ++ [e]) second (fun e' he => hwrite e' (List.mem_cons_of_mem e he))
        (by simpa using hkeys) (Nat.lt_of_succ_lt_succ hrounds)
        (offset + (entryText write e).length + 1 + gap.length)
      rw [List.append_assoc, entries, entry_takes (hwrite e List.mem_cons_self)
        (stops_after houter (by simp) _ rest)]
      simp only [bind, Except.bind]
      rw [List.map_cons, after, List.cons_append, skipBlanks_self _ rfl]
      dsimp only
      rw [Place.skip_one, List.append_assoc gap, skipBlanks_of_starts hgap
        (((entryText_starts write second).append _).append rest),
        setEntry_textEntries (key_not_mem hkeys), hothers]
      simp
      omega

/-- After an opening bracket and blanks, items are read. -/
theorem value_bracket (limit offset : Nat) {inner body : List Char} (hinner : Blanks inner)
    (hbody : Starts body) :
    value (limit + 1) ⟨offset, '[' :: (inner ++ body)⟩ =
      (items (value limit) (body.length + 1) ⟨offset + 1 + inner.length, body⟩).map
        fun (xs, p) => (.list xs, p) := by
  have hskip := skipBlanks_of_starts hinner hbody (offset + 1)
  obtain ⟨c, cs, hc, hopens⟩ := hbody
  simp only [value, Place.skip_one, hskip]
  split
  next =>
    cases hc
    cases hopens
  next => cases items (value limit) (body.length + 1) ⟨offset + 1 + inner.length, body⟩ <;> rfl

/-- After an opening brace and blanks, entries are read. -/
theorem value_brace (limit offset : Nat) {inner body : List Char} (hinner : Blanks inner)
    (hbody : Starts body) :
    value (limit + 1) ⟨offset, '\x7b' :: (inner ++ body)⟩ =
      (entries (value limit) (body.length + 1) [] ⟨offset + 1 + inner.length, body⟩).map
        fun (es, p) => (.dict es, p) := by
  have hskip := skipBlanks_of_starts hinner hbody (offset + 1)
  obtain ⟨c, cs, hc, hopens⟩ := hbody
  simp only [value, Place.skip_one, hskip]
  split
  next =>
    cases hc
    cases hopens
  next => cases entries (value limit) (body.length + 1) [] ⟨offset + 1 + inner.length, body⟩ <;> rfl

variable {inner : List Char} {limit : Nat}

/-- A list of items that are values is a value. -/
theorem value_takes_list (hinner : Blanks inner) (hgap : Blanks gap) (houter : Blanks outer)
    (d : Datum) (ds : List Datum)
    (hwrite : ∀ e ∈ d :: ds, ReadsAs (value limit) (write e) e) (rest : List Char) :
    Takes (value (limit + 1)) ('[' :: (inner ++ (write d ++ after gap outer ']' (ds.map write))))
      (.list (d :: ds)) rest := by
  intro offset
  have hstarts := ((hwrite d List.mem_cons_self).1.append
    (after gap outer ']' (ds.map write))).append rest
  have hrounds : ds.length <
      (write d ++ after gap outer ']' (ds.map write) ++ rest).length + 1 := by
    have := length_lt_after gap outer ']' (ds.map write)
    simp only [List.length_append, List.length_map] at this ⊢
    omega
  rw [List.cons_append, List.append_assoc, value_bracket limit offset hinner hstarts,
    items_takes hgap houter d ds hwrite hrounds]
  simp [Except.map]
  omega

/-- A dictionary of distinct keys with values is a value. -/
theorem value_takes_dict (hinner : Blanks inner) (hgap : Blanks gap) (houter : Blanks outer)
    (e : String × Datum) (es : List (String × Datum)) (hkeys : ((e :: es).map Prod.fst).Nodup)
    (hwrite : ∀ e' ∈ e :: es, ReadsAs (value limit) (write e'.2) e'.2) (rest : List Char) :
    Takes (value (limit + 1)) ('\x7b' :: (inner ++
      (entryText write e ++ after gap outer '\x7d' (es.map (entryText write)))))
      (.dict (textEntries (e :: es))) rest := by
  intro offset
  have hstarts := ((entryText_starts write e).append
    (after gap outer '\x7d' (es.map (entryText write)))).append rest
  have hrounds : es.length < (entryText write e ++
      after gap outer '\x7d' (es.map (entryText write)) ++ rest).length + 1 := by
    have := length_lt_after gap outer '\x7d' (es.map (entryText write))
    simp only [List.length_append, List.length_map] at this ⊢
    omega
  rw [List.cons_append, List.append_assoc, value_brace limit offset hinner hstarts]
  have hentries := entries_takes hgap houter [] e es hwrite hkeys hrounds rest
    (offset + 1 + inner.length)
  rw [textEntries, List.map_nil] at hentries
  rw [hentries]
  simp [Except.map]
  omega

end Sequences

/-! ## Brackets -/

section Brackets

variable (indent : Option Nat) (level : Nat)

def innerBlanks : List Char :=
  match indent with
  | none => []
  | some width => '\n' :: List.replicate (width * (level + 1)) ' '

def gapBlanks : List Char :=
  match indent with
  | none => [' ']
  | some width => '\n' :: List.replicate (width * (level + 1)) ' '

def outerBlanks : List Char :=
  match indent with
  | none => []
  | some width => '\n' :: List.replicate (width * level) ' '

theorem blanks_newline (count : Nat) : Blanks ('\n' :: List.replicate count ' ') := by
  intro c hc
  rcases List.mem_cons.mp hc with rfl | hc
  · rfl
  · rw [List.eq_of_mem_replicate hc]
    rfl

theorem blanks_inner : Blanks (innerBlanks indent level) := by
  cases indent with
  | none => exact blanks_nil
  | some width => exact blanks_newline _

theorem blanks_gap : Blanks (gapBlanks indent level) := by
  cases indent with
  | none => simp [gapBlanks, Blanks, isBlank]
  | some width => exact blanks_newline _

theorem blanks_outer : Blanks (outerBlanks indent level) := by
  cases indent with
  | none => exact blanks_nil
  | some width => exact blanks_newline _

section Enclose

variable {openText closeText : String} {front close : Char} (hopen : openText.toList = [front])
  (hclose : closeText.toList = [close])

include hopen hclose

theorem toList_enclose_nil :
    (enclose indent level openText closeText []).toList = [front, close] := by
  simp [enclose, hopen, hclose]

/-- Parts in brackets, as the reader goes through them: blanks, the first part, and what comes after
it. -/
theorem toList_enclose_cons (part : String) (parts : List String) :
    (enclose indent level openText closeText (part :: parts)).toList =
      front :: (innerBlanks indent level ++ (part.toList ++
        after (gapBlanks indent level) (outerBlanks indent level) close
          (parts.map String.toList))) := by
  rw [← intercalate_append_eq, ← hclose]
  cases indent with
  | none =>
      simp [enclose, innerBlanks, gapBlanks, outerBlanks, String.toList_intercalate, hopen]
  | some width =>
      simp [enclose, innerBlanks, gapBlanks, outerBlanks, String.toList_intercalate, Number.copies,
        hopen]

theorem enclose_starts (hopens : opensValue front = true) (parts : List String) :
    Starts (enclose indent level openText closeText parts).toList := by
  cases parts with
  | nil => exact ⟨front, _, toList_enclose_nil indent level hopen hclose, hopens⟩
  | cons part parts =>
      exact ⟨front, _, toList_enclose_cons indent level hopen hclose part parts, hopens⟩

end Enclose

theorem itemTexts_eq (items : List Datum) :
    itemTexts indent level items = items.map (writeAt indent level) := by
  induction items with
  | nil => rfl
  | cons d items ih => rw [itemTexts, ih, List.map_cons]

theorem entryTexts_eq (entries : List (String × Datum)) :
    entryTexts indent level (textEntries entries) =
      entries.map fun entry => stringText entry.1 ++ ": " ++ writeAt indent level entry.2 := by
  induction entries with
  | nil => rfl
  | cons entry entries ih =>
      rw [List.map_cons, ← ih]
      rfl

abbrev written (d : Datum) : List Char := (writeAt indent level d).toList

variable {indent level}

/-- A list is a value if its items are. -/
theorem list_readsAs {limit : Nat} {items : List Datum}
    (h : ∀ d ∈ items, ReadsAs (value limit) (written indent (level + 1) d) d) :
    ReadsAs (value (limit + 1)) (written indent level (.list items)) (.list items) := by
  have hopen : "[".toList = ['['] := rfl
  have hclose : "]".toList = [']'] := rfl
  rw [written, writeAt, itemTexts_eq]
  refine ⟨enclose_starts indent level hopen hclose rfl _, fun rest _ => ?_⟩
  cases items with
  | nil =>
      rw [List.map_nil, toList_enclose_nil indent level hopen hclose]
      exact fun offset => rfl
  | cons d items =>
      rw [List.map_cons, toList_enclose_cons indent level hopen hclose, List.map_map]
      exact value_takes_list (blanks_inner indent level) (blanks_gap indent level)
        (blanks_outer indent level) d items h rest

/-- A dictionary is a value if the values of its entries are. -/
theorem dict_readsAs {limit : Nat} {entries : List (String × Datum)}
    (hkeys : (entries.map Prod.fst).Nodup)
    (h : ∀ e ∈ entries, ReadsAs (value limit) (written indent (level + 1) e.2) e.2) :
    ReadsAs (value (limit + 1)) (written indent level (.dict (textEntries entries)))
      (.dict (textEntries entries)) := by
  have hopen : "\x7b".toList = ['\x7b'] := rfl
  have hclose : "\x7d".toList = ['\x7d'] := rfl
  rw [written, writeAt, entryTexts_eq]
  refine ⟨enclose_starts indent level hopen hclose rfl _, fun rest _ => ?_⟩
  cases entries with
  | nil =>
      rw [List.map_nil, toList_enclose_nil indent level hopen hclose]
      exact fun offset => rfl
  | cons e entries =>
      have htext : ∀ e : String × Datum,
          (stringText e.1 ++ ": " ++ writeAt indent (level + 1) e.2).toList =
            entryText (written indent (level + 1)) e := by
        intro e
        simp [entryText]
      rw [List.map_cons, toList_enclose_cons indent level hopen hclose, List.map_map, htext]
      have hmap : entries.map (String.toList ∘ fun e => stringText e.1 ++ ": " ++
          writeAt indent (level + 1) e.2) = entries.map (entryText (written indent (level + 1))) :=
        List.map_congr_left fun e _ => htext e
      rw [hmap]
      exact value_takes_dict (blanks_inner indent level) (blanks_gap indent level)
        (blanks_outer indent level) e entries hkeys h rest

end Brackets

/-! ## Whole texts -/

mutual

/-- Every datum with texts for keys is read back where the limit lets its nesting through. -/
theorem writeAt_readsAs (indent : Option Nat) : (d : Datum) → (level limit : Nat) → d.Keyed →
    d.depth ≤ limit → ReadsAs (value limit) (written indent level d) d
  | d, _, 0, _, hdepth => absurd d.depth_pos (Nat.not_lt.mpr hdepth)
  | .null, level, limit + 1, _, _ => by
      rw [written, writeAt]
      exact word_readsAs limit (by simp [words])
  | .bool b, level, limit + 1, _, _ => by
      rw [written, writeAt]
      cases b with
      | true => exact word_readsAs limit (by simp [words])
      | false => exact word_readsAs limit (by simp [words])
  | .int n, level, limit + 1, _, _ => by
      rw [written, writeAt]
      exact int_readsAs limit n
  | .float x, level, limit + 1, _, _ => by
      rw [written, writeAt]
      exact float_readsAs limit x
  | .text s, level, limit + 1, _, _ => by
      rw [written, writeAt]
      exact string_readsAs limit s
  | .list items, level, limit + 1, hkeyed, hdepth => by
      rw [Datum.Keyed] at hkeyed
      rw [Datum.depth] at hdepth
      exact list_readsAs (items_readAs indent items (level + 1) limit hkeyed (by omega))
  | .dict entries, level, limit + 1, hkeyed, hdepth => by
      rw [Datum.Keyed] at hkeyed
      rw [Datum.depth] at hdepth
      -- the values are read before the keys are named: the recursion is on the entries themselves
      have hvalues := entries_readAs indent entries (level + 1) limit hkeyed.2 (by omega)
      obtain ⟨⟨texts, htexts, hkeys⟩, -⟩ := hkeyed
      rw [htexts] at hvalues ⊢
      refine dict_readsAs hkeys fun e he => hvalues (.text e.1, e.2) ?_
      exact List.mem_map_of_mem he

/-- Items of a list are read as they were written. -/
theorem items_readAs (indent : Option Nat) : (items : List Datum) → (level limit : Nat) →
    Datum.AllKeyed items → Datum.depths items ≤ limit →
    ∀ d ∈ items, ReadsAs (value limit) (written indent level d) d
  | [], _, _, _, _ => by simp
  | d :: items, level, limit, hkeyed, hdepth => by
      rw [Datum.AllKeyed] at hkeyed
      rw [Datum.depths] at hdepth
      have hfirst := writeAt_readsAs indent d level limit hkeyed.1 (by omega)
      have hothers := items_readAs indent items level limit hkeyed.2 (by omega)
      exact List.forall_mem_cons.mpr ⟨hfirst, hothers⟩

theorem entries_readAs (indent : Option Nat) : (entries : List (Datum × Datum)) →
    (level limit : Nat) → Datum.EntriesKeyed entries → Datum.entryDepths entries ≤ limit →
    ∀ e ∈ entries, ReadsAs (value limit) (written indent level e.2) e.2
  | [], _, _, _, _ => by simp
  | (_, d) :: entries, level, limit, hkeyed, hdepth => by
      rw [Datum.EntriesKeyed] at hkeyed
      rw [Datum.entryDepths] at hdepth
      have hfirst := writeAt_readsAs indent d level limit hkeyed.1 (by omega)
      have hothers := entries_readAs indent entries level limit hkeyed.2 (by omega)
      exact List.forall_mem_cons.mpr ⟨hfirst, hothers⟩

end

/-- A datum is read back from its text. -/
theorem read_write (indent : Option Nat) {d : Datum} {limit : Nat} (hkeyed : d.Keyed)
    (hdepth : d.depth ≤ limit) : read (write indent d) limit = .ok d := by
  obtain ⟨⟨c, cs, htext, hopens⟩, htakes⟩ := writeAt_readsAs indent d 0 limit hkeyed hdepth
  have hwritten : (write indent d).toList = c :: cs := htext
  have hmark : ((c :: cs).head? == some (Char.ofNat 0xFEFF)) = false := by
    simpa using ne_of_test hopens rfl
  -- no value begins with a byte order mark or a blank, and nothing follows this one
  have hvalue := htakes [] (by simp [Stops]) 0
  rw [htext, List.append_nil] at hvalue
  unfold read
  dsimp only
  rw [hwritten, hmark, if_neg Bool.false_ne_true, skipBlanks_self 0 (not_isBlank hopens), hvalue]
  rfl

end Json

end Treewalk
