import Treewalk.Proofs.Number.Doubles

/-! # Arithmetic and the sign of zero

Numbers that differ at most in the sign of a zero give results that differ at most in the sign of a
zero, and compare alike. Only a division by zero tells the two zeros apart.
-/

namespace Treewalk.Number

open Float.Model (Format UnpackedFloat)

/-- Decoded numbers that differ at most in the sign of a zero. -/
inductive UpToZeroSign : UnpackedFloat → UnpackedFloat → Prop where
  | same {u} : UpToZeroSign u u
  | zeros {s t} : UpToZeroSign (.zero s) (.zero t)

namespace UpToZeroSign

variable {a b c x y : UnpackedFloat}

theorem trans (h : UpToZeroSign a b) (h' : UpToZeroSign b c) : UpToZeroSign a c := by
  cases h with
  | same => exact h'
  | zeros =>
      cases h' with
      | same => exact .zeros
      | zeros => exact .zeros

theorem symm (h : UpToZeroSign a b) : UpToZeroSign b a := by
  cases h with
  | same => exact .same
  | zeros => exact .zeros

/-- An operation that the sign of a zero on either side changes in the sign of a zero only. -/
theorem of_sides {op : UnpackedFloat → UnpackedFloat → UnpackedFloat}
    (hleft : ∀ s t v, UpToZeroSign (op (.zero s) v) (op (.zero t) v))
    (hright : ∀ s t u, UpToZeroSign (op u (.zero s)) (op u (.zero t)))
    (h : UpToZeroSign a x) (h' : UpToZeroSign b y) : UpToZeroSign (op a b) (op x y) := by
  have hfirst : UpToZeroSign (op a b) (op x b) := by
    cases h with
    | same => exact .same
    | zeros => exact hleft _ _ b
  have hsecond : UpToZeroSign (op x b) (op x y) := by
    cases h' with
    | same => exact .same
    | zeros => exact hright _ _ x
  exact hfirst.trans hsecond

/-- A sum is the same up to the sign of a zero. -/
theorem add (format : Format) (h : UpToZeroSign a x) (h' : UpToZeroSign b y) :
    UpToZeroSign (a.add format b) (x.add format y) := by
  refine of_sides (fun s t v => ?_) (fun s t u => ?_) h h'
  · cases v with
    | zero r => cases s <;> cases t <;> cases r <;> exact .zeros
    | _ => exact .same
  · cases u with
    | zero r => cases s <;> cases t <;> cases r <;> exact .zeros
    | _ => exact .same

theorem sub (format : Format) (h : UpToZeroSign a x) (h' : UpToZeroSign b y) :
    UpToZeroSign (a.sub format b) (x.sub format y) := by
  refine of_sides (fun s t v => ?_) (fun s t u => ?_) h h'
  · cases v with
    | zero r => cases s <;> cases t <;> cases r <;> exact .zeros
    | _ => exact .same
  · cases u with
    | zero r => cases s <;> cases t <;> cases r <;> exact .zeros
    | _ => exact .same

theorem mul (format : Format) (h : UpToZeroSign a x) (h' : UpToZeroSign b y) :
    UpToZeroSign (a.mul format b) (x.mul format y) := by
  refine of_sides (fun s t v => ?_) (fun s t u => ?_) h h'
  · cases v with
    | zero r => exact .zeros
    | finite r m e hm => exact .zeros
    | _ => exact .same
  · cases u with
    | zero r => exact .zeros
    | finite r m e hm => exact .zeros
    | _ => exact .same

/-- The divisor is the same on both sides. -/
theorem div (format : Format) (h : UpToZeroSign a x) (v : UnpackedFloat) :
    UpToZeroSign (a.div format v) (x.div format v) := by
  cases h with
  | same => exact .same
  | zeros =>
      cases v with
      | infinity r => exact .zeros
      | finite r m e hm => exact .zeros
      | _ => exact .same

theorem compare_eq (h : UpToZeroSign a x) (h' : UpToZeroSign b y) :
    x.compare y = a.compare b := by
  have hfirst : x.compare y = a.compare y := by
    cases h with
    | same => rfl
    | zeros =>
        cases y with
        | infinity r => cases r <;> rfl
        | finite r m e hm => cases r <;> rfl
        | _ => rfl
  have hsecond : a.compare y = a.compare b := by
    cases h' with
    | same => rfl
    | zeros =>
        cases a with
        | infinity r => cases r <;> rfl
        | finite r m e hm => cases r <;> rfl
        | _ => rfl
  rw [hfirst, hsecond]

end UpToZeroSign

def EqUpToZeroSign (x y : Float) : Prop := dropZeroSign x = dropZeroSign y

/-- Dropping the sign of a zero changes nothing else. -/
theorem eqUpToZeroSign_dropZeroSign (x : Float) : EqUpToZeroSign x (dropZeroSign x) := by
  by_cases hbits : x.toBits = 0x8000000000000000
  · have hzero : dropZeroSign x = Float.ofBits 0 := if_pos hbits
    rw [EqUpToZeroSign, hzero]
    rfl
  · have hself : dropZeroSign x = x := if_neg hbits
    rw [hself]
    rfl

/-- A zero that loses its sign is still a zero when it is decoded. -/
theorem upToZeroSign_dropZeroSign (x : Float) :
    UpToZeroSign x.toModel.unpack (dropZeroSign x).toModel.unpack := by
  unfold dropZeroSign
  split
  next hbits =>
    rw [eq_negativeZero hbits]
    exact .zeros (s := .negative) (t := .positive)
  next => exact .same

/-- What is the same up to the sign of a zero before it is encoded is so afterwards. -/
theorem UpToZeroSign.encoded {u v : UnpackedFloat} (h : UpToZeroSign u v) :
    EqUpToZeroSign ⟨.pack u⟩ ⟨.pack v⟩ := by
  cases h with
  | same => rfl
  | @zeros s t =>
      -- the bits of all zeros are known
      cases s <;> cases t <;> rfl

namespace EqUpToZeroSign

variable {a b x y : Float}

/-- What is the same up to the sign of a zero is so once it is decoded. -/
theorem decoded (h : EqUpToZeroSign a x) : UpToZeroSign a.toModel.unpack x.toModel.unpack := by
  have hx := (upToZeroSign_dropZeroSign x).symm
  rw [← h] at hx
  exact (upToZeroSign_dropZeroSign a).trans hx

theorem add (h : EqUpToZeroSign a x) (h' : EqUpToZeroSign b y) :
    EqUpToZeroSign (a + b) (x + y) :=
  (h.decoded.add .binary64 h'.decoded).encoded

theorem sub (h : EqUpToZeroSign a x) (h' : EqUpToZeroSign b y) :
    EqUpToZeroSign (a - b) (x - y) :=
  (h.decoded.sub .binary64 h'.decoded).encoded

theorem mul (h : EqUpToZeroSign a x) (h' : EqUpToZeroSign b y) :
    EqUpToZeroSign (a * b) (x * y) :=
  (h.decoded.mul .binary64 h'.decoded).encoded

theorem beq_eq (h : EqUpToZeroSign a x) (h' : EqUpToZeroSign b y) : (x == y) = (a == b) :=
  congrArg (· == some Ordering.eq) (h.decoded.compare_eq h'.decoded)

theorem lt_iff (h : EqUpToZeroSign a x) (h' : EqUpToZeroSign b y) : x < y ↔ a < b := by
  have hmodel : x.toModel.lt y.toModel = a.toModel.lt b.toModel :=
    congrArg (· == some Ordering.lt) (h.decoded.compare_eq h'.decoded)
  change decide (x.toModel.lt y.toModel = true) = true ↔
    decide (a.toModel.lt b.toModel = true) = true
  rw [hmodel]

/-- Numbers other than zero are the same. -/
theorem eq_of_ne_zero (h : EqUpToZeroSign b y) (hb : (b == 0) = false) : y = b := by
  have hne : ∀ z : Float, (z == 0) = false → dropZeroSign z = z := by
    intro z hz
    refine if_neg fun hbits => ?_
    rw [eq_negativeZero hbits] at hz
    exact absurd hz (by decide)
  have hy : (y == 0) = false := (h.beq_eq (b := 0) (y := 0) rfl).trans hb
  rw [← hne y hy, ← hne b hb]
  exact h.symm

/-- Two divisors may differ only where they are zeros, and so no division tells them apart. -/
theorem div (h : EqUpToZeroSign a x) (h' : EqUpToZeroSign b y) (hb : (b == 0) = false) :
    EqUpToZeroSign (a / b) (x / y) := by
  rw [h'.eq_of_ne_zero hb]
  exact (h.decoded.div .binary64 b.toModel.unpack).encoded

/-- A property that the two zeros share does not depend on the sign of a zero. -/
theorem apply_eq {α : Type} (f : Float → α)
    (hzeros : f (Float.ofBits 0x8000000000000000) = f (Float.ofBits 0))
    (h : EqUpToZeroSign a x) : f x = f a := by
  have hdrop : ∀ z, f (dropZeroSign z) = f z := by
    intro z
    unfold dropZeroSign
    split
    next hbits => rw [eq_negativeZero hbits, hzeros]
    next => rfl
  rw [← hdrop a, ← hdrop x, h]

end EqUpToZeroSign

/-! ## The zeros are shown alike -/

theorem ofFloat_positiveZero :
    Binary.ofFloat (Float.ofBits 0) = .finite false 0 Binary.minExponent := by
  decide

/-- A zero of either sign is printed as `0`. -/
theorem plainText_of_zero {x : Float} {negative : Bool}
    (h : Binary.ofFloat x = .finite negative 0 Binary.minExponent) : plainText x = "0" := by
  unfold plainText
  rw [h, toInt?_of_zero h]
  rfl

end Treewalk.Number
