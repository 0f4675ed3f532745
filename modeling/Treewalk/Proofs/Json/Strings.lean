import Treewalk.Json.Reader
import Treewalk.Json.Writer

/-! # Strings read back

What it means that a reader takes a text from the front of what is left, and that the reader of
strings so takes every string that is written: character by character, each from its escape.
-/

namespace Treewalk.Json

/-- The reader takes `text` off the front, wherever it stands, makes `a` of it and leaves `rest`. -/
def Takes {α : Type} (reader : Read α) (text : List Char) (a : α) (rest : List Char) : Prop :=
  ∀ offset, reader ⟨offset, text ++ rest⟩ = .ok (a, ⟨offset + text.length, rest⟩)

/-! ## Places -/

@[simp] theorem Place.skip_append (offset : Nat) (text rest : List Char) :
    Place.skip ⟨offset, text ++ rest⟩ text.length = ⟨offset + text.length, rest⟩ := by
  simp [Place.skip]

@[simp] theorem Place.skip_one (offset : Nat) (c : Char) (rest : List Char) :
    Place.skip ⟨offset, c :: rest⟩ 1 = ⟨offset + 1, rest⟩ := rfl

/-! ## Hexadecimal digits -/

theorem hexDigit?_digitChar : ∀ d < 16, hexDigit? (Nat.digitChar d) = some d := by decide

/-- The four digits of a number below `16 ^ 4`. -/
theorem hex_four {n : Nat} (h : n < 0x10000) :
    Text.hex 4 n = [Nat.digitChar (n / 16 / 16 / 16), Nat.digitChar (n / 16 / 16 % 16),
      Nat.digitChar (n / 16 % 16), Nat.digitChar (n % 16)] := by
  unfold Text.hex
  -- one case for each number of digits; the missing ones are zeros
  by_cases h1 : n < 16
  · rw [Nat.toDigits_of_lt_base h1, Nat.div_eq_of_lt h1, Nat.mod_eq_of_lt h1]
    rfl
  rw [Nat.toDigits_of_base_le (by omega) (by omega)]
  by_cases h2 : n / 16 < 16
  · rw [Nat.toDigits_of_lt_base h2, Nat.div_eq_of_lt h2, Nat.mod_eq_of_lt h2]
    rfl
  rw [Nat.toDigits_of_base_le (by omega) (by omega)]
  by_cases h3 : n / 16 / 16 < 16
  · rw [Nat.toDigits_of_lt_base h3, Nat.div_eq_of_lt h3, Nat.mod_eq_of_lt h3]
    rfl
  have h4 : n / 16 / 16 / 16 < 16 := by omega
  rw [Nat.toDigits_of_base_le (by omega) (by omega), Nat.toDigits_of_lt_base h4]
  rfl

/-- Four hexadecimal digits are read back. -/
theorem fourHex?_hex {n : Nat} (h : n < 0x10000) (rest : List Char) :
    fourHex? (Text.hex 4 n ++ rest) = some n := by
  rw [hex_four h]
  have hfirst : n / 16 / 16 / 16 < 16 := by omega
  have hsum :
      ((n / 16 / 16 / 16 * 16 + n / 16 / 16 % 16) * 16 + n / 16 % 16) * 16 + n % 16 = n := by
    omega
  simp [fourHex?, hexDigit?_digitChar, hfirst, Nat.mod_lt, hsum]

theorem length_hex_four {n : Nat} (h : n < 0x10000) : (Text.hex 4 n).length = 4 := by
  rw [hex_four h]
  rfl

/-! ## Escapes -/

/-- A unit that is no surrogate stands for its character. -/
theorem codePoint_of_unit {n : Nat} (h : n < 0x10000) (hunit : n < 0xD800 ∨ 0xDFFF < n)
    (offset : Nat) {rest : List Char} (hrest : rest ≠ []) :
    codePoint ⟨offset, Text.hex 4 n ++ rest⟩ = .ok (Char.ofNat n, 4) := by
  have hlength : 0 < rest.length := List.length_pos_iff.mpr hrest
  have hhigh : ¬ (0xD800 ≤ n ∧ n ≤ 0xDBFF) := by omega
  have hsurrogate : ¬ (0xD800 ≤ n ∧ n ≤ 0xDFFF) := by omega
  unfold codePoint
  rw [if_neg (by rw [List.length_append, length_hex_four h]; omega)]
  dsimp only
  rw [fourHex?_hex h]
  dsimp only
  rw [if_neg, unitChar, if_neg]
  · simpa only [Bool.and_eq_true, decide_eq_true_eq] using hsurrogate
  · simp only [Bool.and_eq_true, decide_eq_true_eq]
    exact fun htaken => hhigh htaken.1.1

/-- Two surrogates stand for one character. -/
theorem codePoint_of_pair {m : Nat} (h : m < 0x100000) (offset : Nat) {rest : List Char}
    (hrest : rest ≠ []) :
    codePoint ⟨offset, Text.hex 4 (0xD800 + m / 0x400) ++
      (unitEscape (0xDC00 + m % 0x400) ++ rest)⟩ = .ok (Char.ofNat (0x10000 + m), 10) := by
  have hhigh : 0xD800 + m / 0x400 < 0x10000 := by omega
  have hlow : 0xDC00 + m % 0x400 < 0x10000 := by omega
  have hafter : (Text.hex 4 (0xD800 + m / 0x400) ++
      (unitEscape (0xDC00 + m % 0x400) ++ rest)).drop 4 =
        '\\' :: 'u' :: (Text.hex 4 (0xDC00 + m % 0x400) ++ rest) := by
    have hfour := length_hex_four hhigh
    rw [List.drop_append_of_le_length (by omega), List.drop_of_length_le (by omega)]
    rfl
  have hlength : 0 < rest.length := List.length_pos_iff.mpr hrest
  unfold codePoint
  rw [if_neg (by rw [List.length_append, length_hex_four hhigh, unitEscape]; simp; omega)]
  dsimp only
  rw [fourHex?_hex hhigh, hafter]
  dsimp only
  have htaken : (0xD800 ≤ 0xD800 + m / 0x400 && 0xD800 + m / 0x400 ≤ 0xDBFF &&
      6 < ('\\' :: 'u' :: (Text.hex 4 (0xDC00 + m % 0x400) ++ rest)).length &&
      ('\\' :: 'u' :: (Text.hex 4 (0xDC00 + m % 0x400) ++ rest)).take 2 == ['\\', 'u']) = true := by
    simp only [List.length_cons, List.length_append, length_hex_four hlow, Bool.and_eq_true,
      decide_eq_true_eq]
    exact ⟨⟨⟨by omega, by omega⟩, by omega⟩, rfl⟩
  rw [if_pos htaken]
  have hdrop : ('\\' :: 'u' :: (Text.hex 4 (0xDC00 + m % 0x400) ++ rest)).drop 2 =
      Text.hex 4 (0xDC00 + m % 0x400) ++ rest := rfl
  rw [hdrop, fourHex?_hex hlow]
  dsimp only
  rw [if_pos (by simp only [Bool.and_eq_true, decide_eq_true_eq]; omega)]
  have hcode : 0x10000 + (0xD800 + m / 0x400 - 0xD800) * 0x400 + (0xDC00 + m % 0x400 - 0xDC00) =
      0x10000 + m := by omega
  rw [hcode]

/-- A round of reading takes a character that stands for itself. -/
theorem stringChars_plain (start rounds : Nat) (sofar : List Char) {c : Char} (offset : Nat)
    (rest : List Char) (hquote : c ≠ '"') (hslash : c ≠ '\\') (hprintable : 0x20 ≤ c.toNat) :
    stringChars start (rounds + 1) sofar ⟨offset, c :: rest⟩ =
      stringChars start rounds (c :: sofar) ⟨offset + 1, rest⟩ := by
  rw [stringChars]
  split
  next h => cases h
  next h => cases h; exact absurd rfl hquote
  next h => cases h; exact absurd rfl hslash
  next h => cases h; exact absurd rfl hslash
  next h => cases h; exact absurd rfl hslash
  next h =>
    cases h
    rw [if_neg (by omega), Place.skip_one]

/-- A round of reading takes a character from its short escape. -/
theorem stringChars_short (start rounds : Nat) (sofar : List Char) {letter c : Char} (offset : Nat)
    (rest : List Char) (hshort : shortEscape? letter = some c) :
    stringChars start (rounds + 1) sofar ⟨offset, '\\' :: letter :: rest⟩ =
      stringChars start rounds (c :: sofar) ⟨offset + 2, rest⟩ := by
  rw [stringChars]
  split
  next h => cases h
  next h => cases h
  next h => cases h
  next h => cases h; cases hshort
  next h =>
    cases h
    rw [hshort]
    rfl
  next hother h =>
    cases h
    exact (hother letter rest rfl rfl).elim

/-- A round of reading takes a character from its code point. -/
theorem stringChars_codePoint (start rounds : Nat) (sofar : List Char) {c : Char} {count : Nat}
    (offset : Nat) {text rest : List Char} (hlength : text.length = count)
    (hpoint : codePoint ⟨offset + 2, text ++ rest⟩ = .ok (c, count)) :
    stringChars start (rounds + 1) sofar ⟨offset, '\\' :: 'u' :: (text ++ rest)⟩ =
      stringChars start rounds (c :: sofar) ⟨offset + ('\\' :: 'u' :: text).length, rest⟩ := by
  have hplace : Place.skip ⟨offset, '\\' :: 'u' :: (text ++ rest)⟩ 2 = ⟨offset + 2, text ++ rest⟩ :=
    rfl
  have hskip : Place.skip ⟨offset, '\\' :: 'u' :: (text ++ rest)⟩ (2 + count) =
      ⟨offset + ('\\' :: 'u' :: text).length, rest⟩ := by
    have hcount : 2 + count = ('\\' :: 'u' :: text).length := by
      rw [← hlength, Nat.add_comm]
      rfl
    rw [hcount]
    exact Place.skip_append offset ('\\' :: 'u' :: text) rest
  rw [stringChars]
  dsimp only
  rw [hplace, hpoint]
  simp only [bind, Except.bind, hskip]

/-- No character is half a surrogate pair. -/
theorem code_valid (c : Char) : c.toNat < 0xD800 ∨ 0xDFFF < c.toNat ∧ c.toNat < 0x110000 := by
  have hvalid := c.valid
  unfold UInt32.isValidChar Nat.isValidChar at hvalid
  have hval : c.toNat = c.val.toNat := rfl
  omega

/-- The ways to write a character: by a letter, as it is, by its unit or by two surrogates. -/
theorem stringChar_cases (c : Char) :
    (∃ letter, shortEscape? letter = some c ∧ stringChar c = ['\\', letter]) ∨
    (c ≠ '"' ∧ c ≠ '\\' ∧ 0x20 ≤ c.toNat ∧ stringChar c = [c]) ∨
    (c.toNat < 0x10000 ∧ stringChar c = unitEscape c.toNat) ∨
    (∃ m < 0x100000, c = Char.ofNat (0x10000 + m) ∧
      stringChar c = unitEscape (0xD800 + m / 0x400) ++ unitEscape (0xDC00 + m % 0x400)) := by
  have hcode := Char.ofNat_toNat c
  -- the definition is split where it stands once
  generalize htext : stringChar c = text
  unfold stringChar at htext
  dsimp only at htext
  split at htext
  next h => exact .inl ⟨_, by rw [h]; rfl, htext.symm⟩
  next hquote =>
  split at htext
  next h => exact .inl ⟨_, by rw [h]; rfl, htext.symm⟩
  next hslash =>
  split at htext
  next h => exact .inl ⟨_, by rw [h]; rfl, htext.symm⟩
  split at htext
  next h => exact .inl ⟨_, by rw [h]; rfl, htext.symm⟩
  split at htext
  next h => exact .inl ⟨_, by rw [h]; rfl, htext.symm⟩
  split at htext
  next h => exact .inl ⟨'b', by rw [← hcode, h]; rfl, htext.symm⟩
  split at htext
  next h => exact .inl ⟨'f', by rw [← hcode, h]; rfl, htext.symm⟩
  split at htext
  next h => exact .inr (.inl ⟨hquote, hslash, h.1, htext.symm⟩)
  split at htext
  next h => exact .inr (.inr (.inl ⟨h, htext.symm⟩))
  next h =>
    have hvalid := code_valid c
    refine .inr (.inr (.inr ⟨c.toNat - 0x10000, by omega, ?_, htext.symm⟩))
    rw [Nat.add_sub_cancel' (by omega), hcode]

/-- Where a character is written, a round of reading takes it. -/
theorem stringChars_stringChar (start rounds : Nat) (sofar : List Char) (c : Char) (offset : Nat)
    {rest : List Char} (hrest : rest ≠ []) :
    stringChars start (rounds + 1) sofar ⟨offset, stringChar c ++ rest⟩ =
      stringChars start rounds (c :: sofar) ⟨offset + (stringChar c).length, rest⟩ := by
  rcases stringChar_cases c with ⟨letter, hshort, htext⟩ | ⟨hquote, hslash, hprintable, htext⟩ |
    ⟨hunit, htext⟩ | ⟨m, hm, hc, htext⟩
  · rw [htext]
    exact stringChars_short start rounds sofar offset rest hshort
  · rw [htext]
    exact stringChars_plain start rounds sofar offset rest hquote hslash hprintable
  · have hpoint := codePoint_of_unit hunit ((code_valid c).imp_right And.left) (offset + 2) hrest
    rw [Char.ofNat_toNat] at hpoint
    rw [htext]
    exact stringChars_codePoint start rounds sofar offset (length_hex_four hunit) hpoint
  · have hhigh : 0xD800 + m / 0x400 < 0x10000 := by omega
    have hlow : 0xDC00 + m % 0x400 < 0x10000 := by omega
    have hpoint := codePoint_of_pair hm (offset + 2) hrest
    rw [← List.append_assoc, ← hc] at hpoint
    have hlength : (Text.hex 4 (0xD800 + m / 0x400) ++
        unitEscape (0xDC00 + m % 0x400)).length = 10 := by
      simp [unitEscape, length_hex_four hhigh, length_hex_four hlow]
    rw [htext]
    exact stringChars_codePoint start rounds sofar offset hlength hpoint

/-! ## Whole strings -/

/-- The characters of a string are read up to its closing quote. -/
theorem stringChars_takes (start rounds : Nat) (sofar cs rest : List Char)
    (hrounds : cs.length < rounds) :
    Takes (stringChars start rounds sofar) (cs.flatMap stringChar ++ ['"']) (sofar.reverse ++ cs)
      rest := by
  induction cs generalizing rounds sofar with
  | nil =>
      intro offset
      obtain ⟨rounds, rfl⟩ := Nat.exists_eq_succ_of_ne_zero (Nat.ne_of_gt hrounds)
      rw [List.append_nil]
      rfl
  | cons c cs ih =>
      intro offset
      obtain ⟨rounds, rfl⟩ := Nat.exists_eq_succ_of_ne_zero
        (Nat.ne_of_gt (Nat.zero_lt_of_lt hrounds))
      have hnext := ih rounds (c :: sofar) (Nat.lt_of_succ_lt_succ hrounds)
        (offset + (stringChar c).length)
      rw [List.append_assoc] at hnext
      rw [List.flatMap_cons, List.append_assoc, List.append_assoc,
        stringChars_stringChar _ _ _ _ _ (by simp), hnext]
      simp [Nat.add_assoc]

/-- Every character is written by one character at least, so that the rounds of the reader are
enough. -/
theorem length_le_flatMap_stringChar (cs : List Char) :
    cs.length ≤ (cs.flatMap stringChar).length := by
  have hone : ∀ c, 1 ≤ (stringChar c).length := by
    intro c
    rcases stringChar_cases c with ⟨_, _, htext⟩ | ⟨_, _, _, htext⟩ | ⟨_, htext⟩ |
      ⟨_, _, _, htext⟩ <;> simp [htext, unitEscape]
  induction cs with
  | nil => exact Nat.le_refl _
  | cons c cs ih =>
      have := hone c
      rw [List.flatMap_cons, List.length_append, List.length_cons]
      omega

theorem toList_stringText (s : String) :
    (stringText s).toList = '"' :: (s.toList.flatMap stringChar ++ ['"']) := by
  rw [stringText, String.toList_ofList]
  rfl

/-- A written string is read back. -/
theorem string_takes (s : String) (rest : List Char) :
    Takes string (stringText s).toList s rest := by
  intro offset
  have hrounds : s.toList.length <
      ('"' :: (s.toList.flatMap stringChar ++ ['"'] ++ rest)).length + 1 := by
    have := length_le_flatMap_stringChar s.toList
    rw [List.length_cons, List.length_append, List.length_append]
    omega
  have hchars := stringChars_takes offset _ [] s.toList rest hrounds (offset + 1)
  unfold string
  rw [toList_stringText, List.cons_append]
  dsimp only
  rw [Place.skip_one, hchars, List.reverse_nil, List.nil_append, List.length_cons,
    Nat.add_assoc, Nat.add_comm 1]
  simp only [bind, Except.bind, String.ofList_toList]

end Treewalk.Json
