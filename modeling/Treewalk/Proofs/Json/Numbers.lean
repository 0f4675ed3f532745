import Treewalk.Proofs.Json.Strings
import Treewalk.Proofs.Number.Doubles

/-! # Numbers read back

A `Numeral` is a number as a text has it, in its parts: a sign, digits without a leading zero, a
fraction and an exponent. The reader of numbers takes the text of every numeral, whatever follows
that does not go on with it, and the texts of integers and of finite doubles are those of numerals
with their values.
-/

namespace Treewalk.Json

open Number (isDigit digitsValue)

def Digits (cs : List Char) : Prop := ∀ c ∈ cs, isDigit c = true

/-- A number in its parts. The fraction is empty where there is no point, and an exponent has a sign
and digits. -/
structure Numeral where
  negative : Bool
  whole : List Char
  fraction : List Char
  exponent : Option (Bool × List Char)
  whole_ne_nil : whole ≠ []
  whole_digits : Digits whole
  whole_zero : whole.head? = some '0' → whole = ['0']
  fraction_digits : Digits fraction
  exponent_digits : ∀ part ∈ exponent, part.2 ≠ [] ∧ Digits part.2

namespace Numeral

def signText (negative : Bool) : List Char := if negative then ['-'] else []

def fractionText : List Char → List Char
  | [] => []
  | digits => '.' :: digits

def exponentText : Option (Bool × List Char) → List Char
  | none => []
  | some (negative, digits) => 'e' :: (if negative then '-' else '+') :: digits

def text (t : Numeral) : List Char :=
  signText t.negative ++ (t.whole ++ (fractionText t.fraction ++ exponentText t.exponent))

def exponentValue : Option (Bool × List Char) → Int
  | none => 0
  | some (negative, digits) => if negative then -(digitsValue digits : Int) else digitsValue digits

/-- The exponent of ten that the digits of a numeral are scaled by. -/
def scale (t : Numeral) : Int := exponentValue t.exponent - t.fraction.length

/-- What a numeral stands for: an integer where there is neither a fraction nor an exponent. -/
def datum (t : Numeral) : Datum :=
  if t.fraction = [] ∧ t.exponent = none then
    .int (if t.negative then -(digitsValue t.whole : Int) else digitsValue t.whole)
  else .float (Number.ofDecimal t.negative (digitsValue (t.whole ++ t.fraction)) t.scale)

def magnitude (t : Numeral) : ℚ := digitsValue (t.whole ++ t.fraction) * 10 ^ t.scale

end Numeral

/-- What follows a number and does not go on with it. -/
def Stops (rest : List Char) : Prop :=
  ∀ c ∈ rest.head?, isDigit c = false ∧ c ≠ '.' ∧ c ≠ 'e' ∧ c ≠ 'E'

/-! ## The parts of a number -/

section Parts

variable {rest : List Char}

theorem takeWhile_isDigit {digits : List Char} (h : Digits digits)
    (hrest : ∀ c ∈ rest.head?, isDigit c = false) :
    (digits ++ rest).takeWhile isDigit = digits := by
  rw [List.takeWhile_append_of_pos h]
  cases rest with
  | nil => simp
  | cons c rest => simp [hrest c rfl]

/-- The whole part of a numeral is read as far as it goes, and no further. -/
theorem wholePart?_append (t : Numeral) (hrest : ∀ c ∈ rest.head?, isDigit c = false) :
    wholePart? (t.whole ++ rest) = some t.whole := by
  have htaken := takeWhile_isDigit t.whole_digits hrest
  unfold wholePart?
  split
  next heq =>
    have hhead : t.whole.head? = some '0' := by
      rw [← List.head?_append_of_ne_nil _ t.whole_ne_nil, heq]
      rfl
    rw [t.whole_zero hhead]
  next =>
    rw [htaken]
    simp [t.whole_ne_nil]

theorem fractionPart_append (t : Numeral) (hrest : Stops rest) :
    fractionPart (Numeral.fractionText t.fraction ++ (Numeral.exponentText t.exponent ++ rest)) =
      t.fraction := by
  -- an exponent or what follows the number ends the fraction
  have hends : ∀ c ∈ (Numeral.exponentText t.exponent ++ rest).head?,
      isDigit c = false ∧ c ≠ '.' := by
    intro c hc
    cases hexponent : t.exponent with
    | none =>
        rw [hexponent] at hc
        exact ⟨(hrest c hc).1, (hrest c hc).2.1⟩
    | some part =>
        rw [hexponent] at hc
        cases hc
        decide
  cases hfraction : t.fraction with
  | nil =>
      rw [Numeral.fractionText, List.nil_append]
      unfold fractionPart
      split
      next heq =>
        rw [heq] at hends
        exact absurd rfl (hends '.' rfl).2
      next => rfl
  | cons d digits =>
      have hdigits := t.fraction_digits
      rw [hfraction] at hdigits
      exact takeWhile_isDigit hdigits fun c hc => (hends c hc).1

/-- The exponent of a numeral is read as far as it goes, and a missing one as zero. -/
theorem exponentPart?_append (t : Numeral) (hrest : Stops rest) :
    (exponentPart? (Numeral.exponentText t.exponent ++ rest)).getD (0, 0) =
      (Numeral.exponentValue t.exponent, (Numeral.exponentText t.exponent).length) := by
  have hdigits := t.exponent_digits
  cases hexponent : t.exponent with
  | none =>
      have hnone : exponentPart? rest = none := by
        cases rest with
        | nil => rfl
        | cons c rest =>
            obtain ⟨-, -, he, hE⟩ := hrest c rfl
            simp [exponentPart?, he, hE]
      rw [Numeral.exponentText, List.nil_append, hnone]
      rfl
  | some part =>
      obtain ⟨negative, digits⟩ := part
      obtain ⟨hne, hdigits⟩ := hdigits _ hexponent
      have htaken := takeWhile_isDigit hdigits fun c hc => (hrest c hc).1
      have hsome : digits.isEmpty = false := by simpa using hne
      cases negative with
      | true =>
          simp [exponentPart?, Numeral.exponentText, Numeral.exponentValue, htaken, hsome]
          omega
      | false =>
          simp [exponentPart?, Numeral.exponentText, Numeral.exponentValue, htaken, hsome]
          omega

theorem signPart_append (negative : Bool) (hrest : rest.head? ≠ some '-') :
    signPart (Numeral.signText negative ++ rest) =
      (negative, (Numeral.signText negative).length) := by
  cases negative with
  | true => rfl
  | false =>
      rw [Numeral.signText, if_neg Bool.false_ne_true, List.nil_append]
      unfold signPart
      split
      next => exact absurd rfl hrest
      next => rfl

end Parts

/-- The length of the fraction as the reader counts it. -/
theorem length_fractionText (digits : List Char) :
    (if digits.isEmpty then 0 else 1 + digits.length) = (Numeral.fractionText digits).length := by
  cases digits with
  | nil => rfl
  | cons d digits => simp [Numeral.fractionText, Nat.add_comm]

/-- A numeral is an integer if nothing is written after its whole part. -/
theorem Numeral.isInt_iff (t : Numeral) :
    (fractionText t.fraction).length + (exponentText t.exponent).length = 0 ↔
      t.fraction = [] ∧ t.exponent = none := by
  have hfraction : (fractionText t.fraction).length = 0 ↔ t.fraction = [] := by
    cases t.fraction <;> simp [fractionText]
  have hexponent : (exponentText t.exponent).length = 0 ↔ t.exponent = none := by
    cases t.exponent <;> simp [exponentText]
  rw [Nat.add_eq_zero_iff, hfraction, hexponent]

/-- A sign or a digit begins a numeral. -/
theorem Numeral.whole_head (t : Numeral) (rest : List Char) :
    ∃ c, (t.whole ++ rest).head? = some c ∧ isDigit c = true := by
  obtain ⟨c, cs, hwhole⟩ := List.exists_cons_of_ne_nil t.whole_ne_nil
  refine ⟨c, by rw [hwhole]; rfl, t.whole_digits c ?_⟩
  rw [hwhole]
  exact List.mem_cons_self

/-- The reader of numbers takes a numeral. -/
theorem number_takes (t : Numeral) {rest : List Char} (hrest : Stops rest) :
    Takes number t.text t.datum rest := by
  intro offset
  have hsplit : t.text ++ rest = Numeral.signText t.negative ++ (t.whole ++
      (Numeral.fractionText t.fraction ++ (Numeral.exponentText t.exponent ++ rest))) := by
    simp only [Numeral.text, List.append_assoc]
  -- a minus is the sign only because no digit is one
  have hunsigned : (t.whole ++ (Numeral.fractionText t.fraction ++
      (Numeral.exponentText t.exponent ++ rest))).head? ≠ some '-' := by
    obtain ⟨c, hc, hdigit⟩ := t.whole_head
      (Numeral.fractionText t.fraction ++ (Numeral.exponentText t.exponent ++ rest))
    rw [hc]
    rintro ⟨⟩
    cases hdigit
  have hwhole : ∀ c ∈ (Numeral.fractionText t.fraction ++
      (Numeral.exponentText t.exponent ++ rest)).head?, isDigit c = false := by
    intro c hc
    cases hfraction : t.fraction with
    | cons d digits =>
        rw [hfraction] at hc
        cases hc
        rfl
    | nil =>
        rw [hfraction] at hc
        cases hexponent : t.exponent with
        | none =>
            rw [hexponent] at hc
            exact (hrest c hc).1
        | some part =>
            rw [hexponent] at hc
            cases hc
            rfl
  have hlength : t.text.length = (Numeral.signText t.negative).length + t.whole.length +
      (Numeral.fractionText t.fraction).length + (Numeral.exponentText t.exponent).length := by
    simp only [Numeral.text, List.length_append]
    omega
  have hplace := Place.skip_append offset t.text rest
  rw [number, ← hplace, hlength]
  dsimp only
  rw [hsplit, signPart_append _ hunsigned]
  dsimp only
  rw [List.drop_left, wholePart?_append t hwhole]
  dsimp only
  rw [← List.drop_drop, List.drop_left, List.drop_left, fractionPart_append t hrest,
    length_fractionText, List.drop_left, exponentPart?_append t hrest]
  dsimp only
  unfold Numeral.datum Numeral.scale
  by_cases hint : t.fraction = [] ∧ t.exponent = none
  · rw [if_pos (t.isInt_iff.mpr hint), if_pos hint]
  · rw [if_neg (mt t.isInt_iff.mp hint), if_neg hint]

/-! ## Written numbers -/

theorem digits_toDigits (n : Nat) : Digits (Nat.toDigits 10 n) := by
  intro c hc
  have hdigit := Nat.isDigit_of_mem_toDigits (by omega) (by omega) hc
  simpa [isDigit, Char.isDigit, Char.le_def] using hdigit

theorem digits_append {cs ds : List Char} (hcs : Digits cs) (hds : Digits ds) : Digits (cs ++ ds) :=
  fun c hc => (List.mem_append.mp hc).elim (hcs c) (hds c)

theorem digits_zeros (count : Nat) : Digits (List.replicate count '0') := by
  intro c hc
  rw [List.eq_of_mem_replicate hc]
  rfl

theorem digitsValue_toDigits (n : Nat) : digitsValue (Nat.toDigits 10 n) = n :=
  Nat.ofDigitChars_ten_toDigits

theorem digitsValue_zeros_append (count : Nat) (cs : List Char) :
    digitsValue (List.replicate count '0' ++ cs) = digitsValue cs := by
  have happend := Nat.ofDigitChars_append (b := 10) (l := List.replicate count '0') (m := cs) 0
  rw [Nat.ofDigitChars_replicate_zero, Nat.mul_zero] at happend
  exact happend

/-- Trailing zeros multiply by a power of ten. -/
theorem digitsValue_append_zeros (count : Nat) (cs : List Char) :
    digitsValue (cs ++ List.replicate count '0') = digitsValue cs * 10 ^ count := by
  have happend := Nat.ofDigitChars_append (b := 10) (l := cs) (m := List.replicate count '0') 0
  rw [Nat.ofDigitChars_replicate_zero, Nat.mul_comm] at happend
  exact happend

/-- The digits of a positive number do not begin with a zero. -/
theorem toDigits_head {n : Nat} (h : n ≠ 0) : (Nat.toDigits 10 n).head? ≠ some '0' := by
  induction n using Nat.strongRecOn with
  | ind n ih =>
      by_cases hlt : n < 10
      · rw [Nat.toDigits_of_lt_base hlt]
        have hdigit : ∀ d < 10, d ≠ 0 → [Nat.digitChar d].head? ≠ some '0' := by decide
        exact hdigit n hlt h
      · rw [Nat.toDigits_of_base_le (by omega) (by omega),
          List.head?_append_of_ne_nil _ Nat.toDigits_ne_nil]
        exact ih (n / 10) (by omega) (by omega)

def Numeral.ofInt (n : Int) : Numeral where
  negative := decide (n < 0)
  whole := Nat.toDigits 10 n.natAbs
  fraction := []
  exponent := none
  whole_ne_nil := Nat.toDigits_ne_nil
  whole_digits := digits_toDigits _
  whole_zero := by
    intro hzero
    by_cases h : n.natAbs = 0
    · rw [h]
      rfl
    · exact absurd hzero (toDigits_head h)
  fraction_digits := by simp [Digits]
  exponent_digits := by simp

/-- An integer is written as its numeral. -/
theorem Numeral.text_ofInt (n : Int) : (ofInt n).text = (Number.intText n).toList := by
  by_cases h : n < 0
  · simp [text, ofInt, signText, fractionText, exponentText, Number.intText, Number.natText, h]
  · simp [text, ofInt, signText, fractionText, exponentText, Number.intText, Number.natText, h]

theorem Numeral.datum_ofInt (n : Int) : (ofInt n).datum = .int n := by
  unfold datum
  rw [if_pos ⟨rfl, rfl⟩]
  simp only [ofInt, digitsValue_toDigits, decide_eq_true_eq]
  congr 1
  split <;> omega

/-- A numeral that a decimal is written as, apart from its sign. -/
structure Numeral.Spells (t : Numeral) (negative : Bool) (d : Number.Decimal) (written : String) :
    Prop where
  negative_eq : t.negative = negative
  text_eq : t.text = signText negative ++ written.toList
  not_int : ¬ (t.fraction = [] ∧ t.exponent = none)
  magnitude_eq : t.magnitude = d.value

section Layout

variable {d : Number.Decimal} (negative : Bool)

/-- No zero leads the digits of a positive number, nor the first of them. -/
theorem whole_zero_of_toDigits {n : Nat} (h : n ≠ 0) {whole rest : List Char} (hne : whole ≠ [])
    (hwhole : whole ++ rest = Nat.toDigits 10 n) : whole.head? = some '0' → whole = ['0'] := by
  intro hzero
  rw [← List.head?_append_of_ne_nil _ hne, hwhole] at hzero
  exact absurd hzero (toDigits_head h)

/-- A decimal without a fraction is written with zeros and a point after it. -/
theorem exists_spells_integral (hd : d.digits ≠ 0) (hexponent : 0 ≤ d.exponent) :
    ∃ t : Numeral, t.Spells negative d (String.ofList (Nat.toDigits 10 d.digits) ++
      Number.copies d.exponent.toNat '0' ++ ".0") := by
  obtain ⟨k, hk⟩ := Int.eq_ofNat_of_zero_le hexponent
  refine ⟨⟨negative, Nat.toDigits 10 d.digits ++ List.replicate k '0', ['0'], none, ?_, ?_, ?_, ?_,
    ?_⟩, rfl, ?_, ?_, ?_⟩
  · simp [Nat.toDigits_ne_nil]
  · exact digits_append (digits_toDigits _) (digits_zeros k)
  · intro hzero
    rw [List.head?_append_of_ne_nil _ Nat.toDigits_ne_nil] at hzero
    exact absurd hzero (toDigits_head hd)
  · exact digits_zeros 1
  · simp
  · simp [Numeral.text, Numeral.fractionText, Numeral.exponentText, Number.copies, hk]
  · simp
  · have hdigits : digitsValue (Nat.toDigits 10 d.digits ++ List.replicate k '0' ++ ['0']) =
        d.digits * 10 ^ (k + 1) := by
      rw [List.append_assoc, ← List.replicate_succ', digitsValue_append_zeros, digitsValue_toDigits]
    unfold Numeral.magnitude Numeral.scale Number.Decimal.value
    dsimp only [Numeral.exponentValue]
    rw [hdigits, hk]
    simp [pow_succ, zpow_neg]
    field_simp

theorem exists_spells_pointed (hd : d.digits ≠ 0) {whole : Nat} (hpos : 0 < whole)
    (hwhole : (whole : Int) = d.exponent + (Nat.toDigits 10 d.digits).length)
    (hexponent : d.exponent < 0) :
    ∃ t : Numeral, t.Spells negative d (String.ofList ((Nat.toDigits 10 d.digits).take whole) ++ "."
      ++ String.ofList ((Nat.toDigits 10 d.digits).drop whole)) := by
  have hsplit := List.take_append_drop whole (Nat.toDigits 10 d.digits)
  have hlength : 0 < (Nat.toDigits 10 d.digits).length := Nat.length_toDigits_pos
  have htake : (Nat.toDigits 10 d.digits).take whole ≠ [] := by
    simp [Nat.toDigits_ne_nil, Nat.ne_of_gt hpos]
  have hdrop : (Nat.toDigits 10 d.digits).drop whole ≠ [] := by
    rw [Ne, List.drop_eq_nil_iff]
    omega
  refine ⟨⟨negative, (Nat.toDigits 10 d.digits).take whole, (Nat.toDigits 10 d.digits).drop whole,
    none, htake, ?_, whole_zero_of_toDigits hd htake hsplit, ?_, ?_⟩, rfl, ?_, ?_, ?_⟩
  · exact fun c hc => digits_toDigits _ c (List.mem_of_mem_take hc)
  · exact fun c hc => digits_toDigits _ c (List.mem_of_mem_drop hc)
  · simp
  · obtain ⟨c, cs, hcons⟩ := List.exists_cons_of_ne_nil hdrop
    simp [Numeral.text, Numeral.fractionText, Numeral.exponentText, hcons]
  · simp [hdrop]
  · unfold Numeral.magnitude Numeral.scale Number.Decimal.value
    dsimp only [Numeral.exponentValue]
    rw [hsplit, digitsValue_toDigits, List.length_drop]
    congr 2
    omega

/-- A decimal below one is written with zeros between the point and its digits. -/
theorem exists_spells_small {zeros : Nat}
    (hzeros : (zeros : Int) = -d.exponent - (Nat.toDigits 10 d.digits).length) :
    ∃ t : Numeral, t.Spells negative d ("0." ++ Number.copies zeros '0' ++
      String.ofList (Nat.toDigits 10 d.digits)) := by
  have hne : List.replicate zeros '0' ++ Nat.toDigits 10 d.digits ≠ [] := by
    simp [Nat.toDigits_ne_nil]
  refine ⟨⟨negative, ['0'], List.replicate zeros '0' ++ Nat.toDigits 10 d.digits, none, by simp,
    digits_zeros 1, fun _ => rfl, digits_append (digits_zeros _) (digits_toDigits _), by simp⟩,
    rfl, ?_, ?_, ?_⟩
  · obtain ⟨c, cs, hcons⟩ := List.exists_cons_of_ne_nil hne
    simp [Numeral.text, Numeral.fractionText, Numeral.exponentText, Number.copies, hcons]
  · exact fun h => hne h.1
  · have hdigits : digitsValue (['0'] ++ (List.replicate zeros '0' ++ Nat.toDigits 10 d.digits)) =
        d.digits := by
      rw [← List.append_assoc, ← List.replicate_one, ← List.replicate_add,
        digitsValue_zeros_append, digitsValue_toDigits]
    unfold Numeral.magnitude Numeral.scale Number.Decimal.value
    dsimp only [Numeral.exponentValue]
    rw [hdigits, List.length_append, List.length_replicate]
    congr 2
    push_cast
    omega

/-- A decimal of great or small magnitude is written with one digit before the point, and an
exponent. -/
theorem exists_spells_scientific (hd : d.digits ≠ 0) {c : Char} {cs : List Char}
    (hdigits : Nat.toDigits 10 d.digits = c :: cs) {exponent : Int}
    (hexponent : exponent = d.exponent + cs.length) (padding : Nat) :
    ∃ t : Numeral, t.Spells negative d (String.ofList (c :: Numeral.fractionText cs) ++ "e" ++
      (if exponent < 0 then "-" else "+") ++ Number.copies padding '0' ++
        Number.natText exponent.natAbs) := by
  have hall := digits_toDigits d.digits
  rw [hdigits] at hall
  refine ⟨⟨negative, [c], cs, some (decide (exponent < 0),
      List.replicate padding '0' ++ Nat.toDigits 10 exponent.natAbs), by simp, ?_,
      whole_zero_of_toDigits hd (List.cons_ne_nil c []) hdigits.symm, ?_, ?_⟩, rfl, ?_, ?_, ?_⟩
  · exact fun a ha => hall a (by simp_all)
  · exact fun a ha => hall a (List.mem_cons_of_mem c ha)
  · rintro part ⟨⟩
    exact ⟨by simp [Nat.toDigits_ne_nil],
      digits_append (digits_zeros _) (digits_toDigits _)⟩
  · by_cases hneg : exponent < 0 <;>
      simp [Numeral.text, Numeral.exponentText, Number.copies, Number.natText, hneg]
  · simp
  · have hvalue : Numeral.exponentValue (some (decide (exponent < 0),
        List.replicate padding '0' ++ Nat.toDigits 10 exponent.natAbs)) = exponent := by
      simp only [Numeral.exponentValue, digitsValue_zeros_append, digitsValue_toDigits,
        decide_eq_true_eq]
      split <;> omega
    unfold Numeral.magnitude Numeral.scale Number.Decimal.value
    dsimp only
    rw [hvalue, List.singleton_append, ← hdigits, digitsValue_toDigits]
    congr 2
    omega

/-- However a positive decimal is laid out, a numeral spells it. -/
theorem exists_spells (layout : Number.Layout) (hd : d.digits ≠ 0) :
    ∃ t : Numeral, t.Spells negative d (layout.write d) := by
  have hlength : 0 < (Nat.toDigits 10 d.digits).length := Nat.length_toDigits_pos
  unfold Number.Layout.write
  dsimp only
  split
  next hpositional =>
    split
    next hexponent => exact exists_spells_integral negative hd hexponent
    split
    next hexponent hinside =>
      exact exists_spells_pointed negative hd (Nat.succ_pos _) (by push_cast; omega) (by omega)
    next hexponent hinside => exact exists_spells_small negative (by omega)
  next hscientific =>
    obtain ⟨c, cs, hdigits⟩ := List.exists_cons_of_ne_nil
      (Nat.toDigits_ne_nil (b := 10) (n := d.digits))
    have hexponent : d.exponent + (Nat.toDigits 10 d.digits).length - 1 =
        d.exponent + cs.length := by
      rw [hdigits, List.length_cons]
      push_cast
      omega
    have hspelled := exists_spells_scientific negative hd hdigits hexponent
      (layout.exponentWidth - (Number.natText
        (d.exponent + (Nat.toDigits 10 d.digits).length - 1).natAbs).length)
    cases cs with
    | nil =>
        rw [hdigits] at hspelled ⊢
        exact hspelled
    | cons a cs =>
        rw [hdigits] at hspelled ⊢
        dsimp only
        have hmantissa : String.ofList (c :: Numeral.fractionText (a :: cs)) =
            String.ofList [c] ++ "." ++ String.ofList (a :: cs) := by
          apply String.toList_inj.mp
          simp [Numeral.fractionText]
        rw [hmantissa] at hspelled
        exact hspelled

end Layout

/-- A finite double is written as a numeral that stands for it. -/
theorem exists_numeral_of_finite {x : Float} (h : x.isFinite = true) :
    ∃ t : Numeral, t.text = (Number.fullText x).toList ∧ t.datum = .float x := by
  obtain ⟨negative, m, e, hfields, -, hcases⟩ := Number.Binary.exists_finite h
  have hsign : (if negative then "-" else "" : String).toList = Numeral.signText negative := by
    cases negative <;> rfl
  unfold Number.fullText
  rw [hfields]
  dsimp only
  by_cases hm : m = 0
  · subst hm
    refine ⟨⟨negative, ['0'], ['0'], none, by simp, digits_zeros 1, fun _ => rfl, digits_zeros 1,
      by simp⟩, ?_, ?_⟩
    · rw [if_pos rfl, String.toList_append, hsign]
      rfl
    · rw [Numeral.datum, if_neg (by simp)]
      exact congrArg Datum.float (Number.ofDecimal_zero_of_finite h hfields _)
  · have hcanonical := hcases.resolve_left fun hzero => hm hzero.1
    have hdigits := (Number.digits_pos_of_holds hcanonical (Number.shortest_holds hcanonical)).ne'
    obtain ⟨t, ht⟩ := exists_spells negative Number.Layout.full hdigits
    refine ⟨t, ?_, ?_⟩
    · rw [if_neg hm, String.toList_append, hsign]
      exact ht.text_eq
    · rw [Numeral.datum, if_neg ht.not_int, ht.negative_eq]
      exact congrArg Datum.float (Number.ofDecimal_eq_of_finite h hfields hm ht.magnitude_eq)

end Treewalk.Json
