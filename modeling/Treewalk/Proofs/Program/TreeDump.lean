import Treewalk.Program.Dump
import Treewalk.Proofs.Evaluation.Alike
import Treewalk.Proofs.Program.Encoding
import Treewalk.Proofs.Text.Told

/-! # Trees are told by their dumps

A dump is read from its top. The first line of a node names its label, and the label says which
fields follow and what stands in each of them: one thing or a list of things, all of one kind. A
list goes on up to its bracket, which has less in front of it than any item. So the lines of a tree
tell the tree, whatever lines follow them, and a dump stands for one program, spans aside.
-/

namespace Treewalk

open Text

/-! ## Numbers in full -/

/-- What a numeral is written with. -/
theorem Json.Numeral.mem_text {t : Numeral} {c : Char} (h : c ∈ t.text) :
    Number.isDigit c = true ∨ c ∈ ['-', '+', '.', 'e'] := by
  have hfraction : c ∈ fractionText t.fraction → c = '.' ∨ c ∈ t.fraction := by
    cases t.fraction with
    | nil => exact fun h => .inr h
    | cons d digits => exact fun h => List.mem_cons.mp h
  have hexponent : c ∈ exponentText t.exponent →
      Number.isDigit c = true ∨ c ∈ ['-', '+', '.', 'e'] := by
    cases hpart : t.exponent with
    | none => exact fun h => absurd h List.not_mem_nil
    | some part =>
        have hdigits := (t.exponent_digits part hpart).2
        obtain ⟨negative, digits⟩ := part
        intro h
        rcases List.mem_cons.mp h with rfl | h
        · exact .inr (by decide)
        rcases List.mem_cons.mp h with rfl | h
        · cases negative <;> exact .inr (by decide)
        · exact .inl (hdigits c h)
  rcases List.mem_append.mp h with h | h
  · cases hnegative : t.negative with
    | false =>
        rw [hnegative] at h
        cases h
    | true =>
        rw [hnegative] at h
        obtain rfl := List.mem_singleton.mp h
        exact .inr (by decide)
  rcases List.mem_append.mp h with h | h
  · exact .inl (t.whole_digits c h)
  rcases List.mem_append.mp h with h | h
  · rcases hfraction h with rfl | h
    · exact .inr (by decide)
    · exact .inl (t.fraction_digits c h)
  · exact hexponent h

namespace Number

/-- Neither a line feed nor the letter of the infinities is in the text of a finite double. -/
theorem not_mem_fullText {x : Float} (h : x.isFinite = true) {c : Char} (hc : c = '\n' ∨ c = 'n') :
    c ∉ (fullText x).toList := by
  obtain ⟨t, htext, -⟩ := Json.exists_numeral_of_finite h
  rw [← htext]
  intro hmem
  have hchar := Json.Numeral.mem_text hmem
  rcases hc with rfl | rfl <;> revert hchar <;> decide

/-- Infinities and NaN are written as words, one for each. -/
theorem fullText_of_not_isFinite {x : Float} (h : x.isFinite = false) :
    (fullText x = "nan" ∧ x = notANumber) ∨ (fullText x = "inf" ∧ x = infinity) ∨
      (fullText x = "-inf" ∧ x = -infinity) := by
  rcases Binary.eq_of_not_isFinite h with ⟨hfields, hx⟩ | ⟨hfields, hx⟩ | ⟨hfields, hx⟩
  · exact .inl ⟨by rw [fullText, hfields], hx⟩
  · exact .inr (.inl ⟨by rw [fullText, hfields]; rfl, hx⟩)
  · exact .inr (.inr ⟨by rw [fullText, hfields]; rfl, hx⟩)

/-- What is not finite is written with an `n`. -/
theorem mem_fullText_of_not_isFinite {x : Float} (h : x.isFinite = false) :
    'n' ∈ (fullText x).toList := by
  rcases fullText_of_not_isFinite h with ⟨htext, -⟩ | ⟨htext, -⟩ | ⟨htext, -⟩ <;> rw [htext] <;>
    decide

theorem fullText_oneLine (x : Float) : OneLine (fullText x) := by
  cases h : x.isFinite with
  | true => exact not_mem_fullText h (.inl rfl)
  | false =>
      rcases fullText_of_not_isFinite h with ⟨htext, -⟩ | ⟨htext, -⟩ | ⟨htext, -⟩ <;> rw [htext] <;>
        decide

/-- The full text of a double is the text of no other: the sign of a zero is in it. -/
theorem fullText_injective : Function.Injective fullText := by
  intro x y heq
  cases hx : x.isFinite with
  | true =>
      cases hy : y.isFinite with
      | true =>
          obtain ⟨t, htext, hdatum⟩ := Json.exists_numeral_of_finite hx
          obtain ⟨u, hutext, hudatum⟩ := Json.exists_numeral_of_finite hy
          have hsame : t.text = u.text := by rw [htext, heq, hutext]
          have hstops : Json.Stops [] := fun c hc => by cases hc
          have hread := (Json.number_takes t hstops 0).symm.trans
            (hsame ▸ Json.number_takes u hstops 0)
          have hdata := (Prod.mk.inj (Except.ok.inj hread)).1
          rw [hdatum, hudatum] at hdata
          exact Datum.float.inj hdata
      | false =>
          exact absurd (heq ▸ mem_fullText_of_not_isFinite hy) (not_mem_fullText hx (.inr rfl))
  | false =>
      cases hy : y.isFinite with
      | true =>
          exact absurd (heq ▸ mem_fullText_of_not_isFinite hx) (not_mem_fullText hy (.inr rfl))
      | false =>
          rcases fullText_of_not_isFinite hx with ⟨hx, rfl⟩ | ⟨hx, rfl⟩ | ⟨hx, rfl⟩ <;>
            rcases fullText_of_not_isFinite hy with ⟨hy, rfl⟩ | ⟨hy, rfl⟩ | ⟨hy, rfl⟩ <;>
            first | rfl | exact absurd (hx.symm.trans (heq.trans hy)) (by decide)

end Number

/-! ## What stands where -/

inductive Node.Kind where
  | text | number | boolean | operator | tree

/-- What a field holds: a thing, or a list of things of one kind. -/
inductive Node.Slot where
  | one (kind : Node.Kind)
  | many (kind : Node.Kind)

/-- What the fields under a label hold. -/
def Label.slots : Label → List Node.Slot
  | number => [.one .number]
  | boolean => [.one .boolean]
  | .variable => [.one .text]
  | binary => [.one .operator, .one .tree, .one .tree]
  | function => [.many .text, .many .tree]
  | call => [.one .text, .many .tree]
  | declare => [.one .text, .one .tree]
  | assign => [.one .text, .one .tree]
  | branch => [.one .tree, .many .tree, .many .tree]
  | loop => [.one .tree, .many .tree]
  | print => [.one .tree]
  | discard => [.one .tree]
  | give => [.one .tree]

theorem Label.length_fieldNames (label : Label) : label.fieldNames.length = label.slots.length := by
  cases label <;> rfl

/-- Texts by which things are found among some are different. -/
theorem injective_of_find? {α : Type} {all : List α} {text : α → String}
    (hfind : ∀ a, all.find? (text · == text a) = some a) : Function.Injective text := by
  intro a b h
  have hfound := hfind a
  rw [h, hfind b] at hfound
  exact (Option.some.inj hfound).symm

theorem Label.name_injective : Function.Injective Label.name := by
  have hfind : ∀ label : Label, all.find? (name · == name label) = some label := by
    intro label
    cases label <;> rfl
  exact injective_of_find? hfind

theorem Node.operatorLiteral_injective : Function.Injective operatorLiteral := by
  have hfind : ∀ o, Operator.all.find? (operatorLiteral · == operatorLiteral o) = some o := by
    intro o
    cases o <;> rfl
  exact injective_of_find? hfind

namespace Node

mutual

/-- A thing of a kind, with what its label asks for in its fields. -/
inductive Fits : Kind → Node → Prop where
  | text (s : String) : Fits .text (datum (.text s))
  | number (x : Float) : Fits .number (datum (.float x))
  | boolean (b : Bool) : Fits .boolean (datum (.bool b))
  | operator (o : Operator) : Fits .operator (operator o)
  | tree {label fields} : FieldsFit label.slots fields → Fits .tree (node label fields)

inductive FieldsFit : List Slot → List Node → Prop where
  | nil : FieldsFit [] []
  | one {kind slots n fields} : Fits kind n → FieldsFit slots fields →
      FieldsFit (.one kind :: slots) (n :: fields)
  | many {kind slots items fields} : (∀ n ∈ items, Fits kind n) → FieldsFit slots fields →
      FieldsFit (.many kind :: slots) (list items :: fields)

end

/-! ## Lines -/

/-- A line at a level tells its text. -/
theorem line_inj {level : Nat} {a b : String} : line level a = line level b ↔ a = b :=
  String.append_right_inj _

/-- Four more blanks are two more levels. -/
theorem line_shift (level : Nat) (text : String) :
    line level ("    " ++ text) = line (level + 2) text := by
  apply String.toList_inj.mp
  have hblanks : 2 * (level + 2) = 2 * level + 4 := by omega
  simp only [line, Number.copies, hblanks, String.toList_append, String.toList_ofList,
    List.replicate_add, List.append_assoc]
  rfl

theorem line_oneLine {level : Nat} {text : String} (h : OneLine text) :
    OneLine (line level text) := by
  refine OneLine.append ?_ h
  unfold OneLine Number.copies
  rw [String.toList_ofList]
  intro hmem
  cases List.eq_of_mem_replicate hmem

/-- The lines of a thing that stands on its own, at a level. -/
def dumpAt (level : Nat) : Node → List String
  | node label fields => line level label.name :: dumpFields level label.fieldNames fields
  | other => [line level other.literal]

theorem dumpItems_eq (level : Nat) (items : List Node) :
    dumpItems level items = items.flatMap (dumpAt (level + 2)) := by
  induction items with
  | nil => rfl
  | cons item rest ih =>
      cases item <;> simp only [dumpItems, List.flatMap_cons, dumpAt, ih, line_shift] <;> rfl

/-! ## Lines tell things -/

/-- A kind of things that are shown by their literals alone. -/
def Kind.IsLeaf : Kind → Prop
  | .tree => False
  | _ => True

/-- The literal of a leaf tells it among leaves of its kind. -/
theorem Fits.literal_inj {kind : Kind} {m n : Node} (hm : m.Fits kind) (hleaf : kind.IsLeaf)
    (hn : n.Fits kind) (heq : m.literal = n.literal) : m = n := by
  cases hm with
  | text s =>
      cases hn with
      | text s' => rw [quoted_inj heq]
  | number x =>
      cases hn with
      | number y => rw [Number.fullText_injective heq]
  | boolean b =>
      cases hn with
      | boolean b' =>
          cases b <;> cases b' <;> first | rfl | exact absurd heq (by decide)
  | operator o =>
      cases hn with
      | operator o' =>
          rw [operatorLiteral_injective heq]
  | tree _ => exact hleaf.elim

/-- A literal stands on one line: line breaks in texts are escaped. -/
theorem Fits.literal_oneLine {kind : Kind} {n : Node} (h : n.Fits kind) (hleaf : kind.IsLeaf) :
    OneLine n.literal := by
  cases h with
  | text s => exact quoted_oneLine s
  | number x => exact Number.fullText_oneLine x
  | boolean b => cases b <;> decide
  | operator o => cases o <;> decide
  | tree _ => exact hleaf.elim

/-- A leaf is told by a line that ends with its literal. -/
theorem Fits.told_literal {kind : Kind} {n : Node} (h : n.Fits kind) (hleaf : kind.IsLeaf)
    (head : String) : Told (fun n : Node => [head ++ n.literal]) (Fits kind) n := by
  intro m rest rest' hm heq
  obtain ⟨hline, hrest⟩ := List.cons.inj heq
  exact ⟨h.literal_inj hleaf hm ((String.append_right_inj _).mp hline), hrest⟩

/-- A leaf is dumped as one line, its literal. -/
theorem Fits.dumpAt_leaf {kind : Kind} {n : Node} (h : n.Fits kind) (hleaf : kind.IsLeaf)
    (level : Nat) : dumpAt level n = [line level n.literal] := by
  cases h with
  | tree _ => exact hleaf.elim
  | _ => rfl

/-- A leaf in a field stands on the line of the field's name. -/
theorem Fits.dumpField_leaf {kind : Kind} {n : Node} (h : n.Fits kind) (hleaf : kind.IsLeaf)
    (level : Nat) (name : String) :
    dumpField level name n = [line level ("  " ++ name ++ ": ") ++ n.literal] := by
  rw [line, String.append_assoc]
  cases h with
  | tree _ => exact hleaf.elim
  | _ => rfl

/-- A tree in a field stands below the line of the field's name. -/
theorem Fits.dumpField_tree {kind : Kind} {n : Node} (h : n.Fits kind) (htree : ¬ kind.IsLeaf)
    (level : Nat) (name : String) :
    dumpField level name n = line level ("  " ++ name ++ ":") :: dumpAt (level + 2) n := by
  cases h with
  | tree _ => rfl
  | _ => exact absurd trivial htree

/-- A list stands between a line that opens it and one that closes it. -/
theorem dumpField_list (level : Nat) (name : String) (items : List Node) :
    dumpField level name (list items) = line level ("  " ++ name ++ ": [") ::
      (items.flatMap (dumpAt (level + 2)) ++ [line level "  ]"]) := by
  rw [dumpField, dumpItems_eq]
  rfl

/-- The lines of a leaf tell it, whatever lines follow. -/
theorem Fits.told_dumpAt {kind : Kind} {n : Node} (h : n.Fits kind) (hleaf : kind.IsLeaf)
    (level : Nat) : Told (dumpAt level) (Fits kind) n := by
  intro m rest rest' hm heq
  rw [h.dumpAt_leaf hleaf, hm.dumpAt_leaf hleaf] at heq
  exact h.told_literal hleaf _ hm heq

/-- Every thing begins with a line that is further in than the bracket behind a list. -/
theorem Fits.dumpAt_head {kind : Kind} {n : Node} (h : n.Fits kind) (level : Nat) :
    ∃ c cs, dumpAt (level + 2) n = c :: cs ∧ c ≠ line level "  ]" := by
  have hfurther : ∀ text, line (level + 2) text ≠ line level "  ]" := by
    intro text heq
    rw [← line_shift, line_inj] at heq
    have hchars := congrArg String.toList heq
    rw [String.toList_append] at hchars
    cases hchars
  cases h <;> exact ⟨_, _, rfl, hfurther _⟩

/-- A field with one thing tells it if the lines of the thing do. -/
theorem Fits.told_dumpField {kind : Kind} {n : Node} (h : n.Fits kind) (level : Nat) (name : String)
    (htold : Told (dumpAt (level + 2)) (Fits kind) n) :
    Told (dumpField level name) (Fits kind) n := by
  intro m rest rest' hm heq
  by_cases hleaf : kind.IsLeaf
  · rw [h.dumpField_leaf hleaf, hm.dumpField_leaf hleaf] at heq
    exact h.told_literal hleaf _ hm heq
  · rw [h.dumpField_tree hleaf, hm.dumpField_tree hleaf] at heq
    exact htold hm (List.cons.inj heq).2

/-- A field with a list tells the list if the lines of each item tell the item. -/
theorem told_dumpField_list {kind : Kind} {items : List Node} (h : ∀ n ∈ items, n.Fits kind)
    (level : Nat) (name : String)
    (htold : ∀ n ∈ items, Told (dumpAt (level + 2)) (Fits kind) n) :
    Told (fun items => dumpField level name (list items)) (fun items => ∀ n ∈ items, n.Fits kind)
      items := by
  intro others rest rest' hothers heq
  dsimp only at heq
  rw [dumpField_list, dumpField_list] at heq
  exact told_flatMap (fun n hn => hn.dumpAt_head level) h htold hothers (List.cons.inj heq).2

mutual

/-- A thing is told by its lines. -/
theorem Fits.told (level : Nat) : ∀ {kind : Kind} {n : Node}, n.Fits kind →
    Told (dumpAt level) (Fits kind) n
  | _, _, .text s => (Fits.text s).told_dumpAt trivial level
  | _, _, .number x => (Fits.number x).told_dumpAt trivial level
  | _, _, .boolean b => (Fits.boolean b).told_dumpAt trivial level
  | _, _, .operator o => (Fits.operator o).told_dumpAt trivial level
  | _, _, .tree hfields => by
    rintro _ rest rest' (_ | _ | _ | _ | hothers) heq
    -- the first lines name the labels, and under the same label the same kinds of fields follow
    obtain ⟨hline, hrest⟩ := List.cons.inj heq
    obtain rfl := Label.name_injective (line_inj.mp hline)
    obtain ⟨rfl, hsame⟩ := hfields.told level _ (Label.length_fieldNames _) hothers hrest
    exact ⟨rfl, hsame⟩

/-- Fields are told by their lines. -/
theorem FieldsFit.told (level : Nat) : ∀ {slots : List Slot} {fields : List Node},
    FieldsFit slots fields → ∀ names : List String, names.length = slots.length →
      Told (dumpFields level names) (FieldsFit slots) fields
  | _, _, .nil, _, _ => by
    rintro _ rest rest' ⟨⟩ heq
    exact ⟨rfl, by simpa [dumpFields] using heq⟩
  | _, _, .one h hs, name :: names, hnames => by
    rintro _ rest rest' (_ | ⟨hother, hothers⟩) heq
    rw [dumpFields, dumpFields, List.append_assoc, List.append_assoc] at heq
    obtain ⟨rfl, hrest⟩ := h.told_dumpField level name (h.told (level + 2)) hother heq
    obtain ⟨rfl, hsame⟩ := hs.told level names (Nat.succ.inj hnames) hothers hrest
    exact ⟨rfl, hsame⟩
  | _, _, .many h hs, name :: names, hnames => by
    rintro _ rest rest' (_ | _ | ⟨hother, hothers⟩) heq
    rw [dumpFields, dumpFields, List.append_assoc, List.append_assoc] at heq
    obtain ⟨rfl, hrest⟩ := told_dumpField_list h level name (fun n hn => (h n hn).told (level + 2))
      hother heq
    obtain ⟨rfl, hsame⟩ := hs.told level names (Nat.succ.inj hnames) hothers hrest
    exact ⟨rfl, hsame⟩

end

theorem label_oneLine (label : Label) : OneLine label.name := by
  cases label <;> decide

theorem fieldNames_oneLine (label : Label) : ∀ name ∈ label.fieldNames, OneLine name := by
  cases label <;> decide

theorem Fits.dumpAt_oneLine {kind : Kind} {n : Node} (h : n.Fits kind) (hleaf : kind.IsLeaf)
    (level : Nat) : ∀ text ∈ dumpAt level n, OneLine text := by
  rw [h.dumpAt_leaf hleaf]
  exact List.forall_mem_singleton.mpr (line_oneLine (h.literal_oneLine hleaf))

theorem header_oneLine {name : String} (hname : OneLine name) {mark : String}
    (hmark : OneLine mark) : OneLine ("  " ++ name ++ mark) := by
  have hblanks : OneLine "  " := by decide
  exact (hblanks.append hname).append hmark

theorem Fits.dumpField_oneLine {kind : Kind} {n : Node} (h : n.Fits kind) (level : Nat)
    {name : String} (hname : OneLine name) (hlines : ∀ text ∈ dumpAt (level + 2) n, OneLine text) :
    ∀ text ∈ dumpField level name n, OneLine text := by
  by_cases hleaf : kind.IsLeaf
  · rw [h.dumpField_leaf hleaf]
    have hmark : OneLine ": " := by decide
    exact List.forall_mem_singleton.mpr
      ((line_oneLine (header_oneLine hname hmark)).append (h.literal_oneLine hleaf))
  · rw [h.dumpField_tree hleaf]
    have hmark : OneLine ":" := by decide
    exact List.forall_mem_cons.mpr ⟨line_oneLine (header_oneLine hname hmark), hlines⟩

theorem dumpField_list_oneLine {items : List Node} (level : Nat) {name : String}
    (hname : OneLine name) (hlines : ∀ n ∈ items, ∀ text ∈ dumpAt (level + 2) n, OneLine text) :
    ∀ text ∈ dumpField level name (list items), OneLine text := by
  rw [dumpField_list]
  have hopen : OneLine ": [" := by decide
  have hclose : OneLine "  ]" := by decide
  refine List.forall_mem_cons.mpr ⟨line_oneLine (header_oneLine hname hopen),
    List.forall_mem_append.mpr ⟨?_, List.forall_mem_singleton.mpr (line_oneLine hclose)⟩⟩
  intro text htext
  obtain ⟨n, hn, htext⟩ := List.mem_flatMap.mp htext
  exact hlines n hn text htext

mutual

/-- A dump has no line breaks but those between its lines. -/
theorem Fits.oneLine (level : Nat) : ∀ {kind : Kind} {n : Node}, n.Fits kind →
    ∀ text ∈ dumpAt level n, OneLine text
  | _, _, .text s => (Fits.text s).dumpAt_oneLine trivial level
  | _, _, .number x => (Fits.number x).dumpAt_oneLine trivial level
  | _, _, .boolean b => (Fits.boolean b).dumpAt_oneLine trivial level
  | _, _, .operator o => (Fits.operator o).dumpAt_oneLine trivial level
  | _, _, .tree hfields => List.forall_mem_cons.mpr
    ⟨line_oneLine (label_oneLine _), hfields.oneLine level _ (fieldNames_oneLine _)⟩

theorem FieldsFit.oneLine (level : Nat) : ∀ {slots : List Slot} {fields : List Node},
    FieldsFit slots fields → ∀ names : List String, (∀ name ∈ names, OneLine name) →
      ∀ text ∈ dumpFields level names fields, OneLine text
  | _, _, _, [], _ => by simp [dumpFields]
  | _, _, .nil, _ :: _, _ => by simp [dumpFields]
  | _, _, .one h hs, name :: names, hnames => by
    obtain ⟨hname, hnames⟩ := List.forall_mem_cons.mp hnames
    rw [dumpFields]
    exact List.forall_mem_append.mpr ⟨h.dumpField_oneLine level hname (h.oneLine (level + 2)),
      hs.oneLine level names hnames⟩
  | _, _, .many h hs, name :: names, hnames => by
    obtain ⟨hname, hnames⟩ := List.forall_mem_cons.mp hnames
    rw [dumpFields]
    exact List.forall_mem_append.mpr ⟨dumpField_list_oneLine level hname
      (fun n hn => (h n hn).oneLine (level + 2)), hs.oneLine level names hnames⟩

end

end Node

/-! ## Trees of programs -/

section Trees

variable {number : Float → Prop}

theorem Datum.IsText.fits_text : ∀ {name : Datum}, name.IsText → (Node.datum name).Fits .text
  | .text s, _ => .text s

theorem fits_ofNames {names : List Name} (h : ∀ name ∈ names, name.IsText) :
    ∀ n ∈ names.map Node.datum, n.Fits .text := by
  intro n hn
  obtain ⟨name, hname, rfl⟩ := List.mem_map.mp hn
  exact (h name hname).fits_text

mutual

/-- The tree of a built expression has in its places what is asked for there. -/
theorem Expr.Built.fits_tree : ∀ {e : Expr}, e.Built number → (Node.ofExpr e).Fits .tree
  | .number _ x, _ => .tree (.one (.number x) .nil)
  | .boolean _ b, _ => .tree (.one (.boolean b) .nil)
  | .variable _ _, h => .tree (.one (Datum.IsText.fits_text h) .nil)
  | .binary _ o _ _, h => .tree (.one (.operator o) (.one h.1.fits_tree (.one h.2.fits_tree .nil)))
  | .function _ _ _, h => .tree (.many (fits_ofNames h.1) (.many h.2.fits_tree .nil))
  | .call _ _ _, h => .tree (.one (Datum.IsText.fits_text h.1) (.many h.2.fits_tree .nil))
  | .malformed _, h => False.elim h

theorem Expr.AllBuilt.fits_tree : ∀ {es : List Expr}, Expr.AllBuilt number es →
    ∀ n ∈ Node.ofExprs es, n.Fits .tree
  | [], _ => List.forall_mem_nil _
  | _ :: _, h => List.forall_mem_cons.mpr ⟨h.1.fits_tree, h.2.fits_tree⟩

/-- The tree of a built statement has what its labels ask for. -/
theorem Stmt.Built.fits_tree : ∀ {stmt : Stmt}, stmt.Built number → (Node.ofStmt stmt).Fits .tree
  | .declare _ _ _, h => .tree (.one (Datum.IsText.fits_text h.1) (.one h.2.fits_tree .nil))
  | .assign _ _ _, h => .tree (.one (Datum.IsText.fits_text h.1) (.one h.2.fits_tree .nil))
  | .branch _ _ _ _, h =>
    .tree (.one h.1.fits_tree (.many h.2.1.fits_tree (.many h.2.2.fits_tree .nil)))
  | .loop _ _ _, h => .tree (.one h.1.fits_tree (.many h.2.fits_tree .nil))
  | .print _ _, h => .tree (.one (Expr.Built.fits_tree h) .nil)
  | .discard _ _, h => .tree (.one (Expr.Built.fits_tree h) .nil)
  | .give _ _, h => .tree (.one (Expr.Built.fits_tree h) .nil)
  | .malformed _, h => False.elim h

theorem Stmt.AllBuilt.fits_tree : ∀ {stmts : List Stmt}, Stmt.AllBuilt number stmts →
    ∀ n ∈ Node.ofStmts stmts, n.Fits .tree
  | [], _ => List.forall_mem_nil _
  | _ :: _, h => List.forall_mem_cons.mpr ⟨h.1.fits_tree, h.2.fits_tree⟩

end

mutual

/-- Expressions that differ in spans only have one tree. -/
theorem Expr.Alike.ofExpr_eq {e e' : Expr} : Expr.Alike .text e e' →
    Node.ofExpr e = Node.ofExpr e'
  | .number _ hnumber => by rw [Node.ofExpr, Node.ofExpr, hnumber]
  | .boolean _ => rfl
  | .variable _ => rfl
  | .binary _ hleft hright => by rw [Node.ofExpr, Node.ofExpr, hleft.ofExpr_eq, hright.ofExpr_eq]
  | .function _ hbody => by rw [Node.ofExpr, Node.ofExpr, hbody.ofStmts_eq]
  | .call _ harguments => by rw [Node.ofExpr, Node.ofExpr, harguments.ofExprs_eq]
  | .malformed => rfl

theorem Expr.AllAlike.ofExprs_eq {es es' : List Expr} : Expr.AllAlike .text es es' →
    Node.ofExprs es = Node.ofExprs es'
  | .nil => rfl
  | .cons h hrest => by rw [Node.ofExprs, Node.ofExprs, h.ofExpr_eq, hrest.ofExprs_eq]

theorem Stmt.Alike.ofStmt_eq {stmt stmt' : Stmt} : Stmt.Alike .text stmt stmt' →
    Node.ofStmt stmt = Node.ofStmt stmt'
  | .declare _ hvalue => by rw [Node.ofStmt, Node.ofStmt, hvalue.ofExpr_eq]
  | .assign _ hvalue => by rw [Node.ofStmt, Node.ofStmt, hvalue.ofExpr_eq]
  | .branch _ htest hthen helse => by
    rw [Node.ofStmt, Node.ofStmt, htest.ofExpr_eq, hthen.ofStmts_eq, helse.ofStmts_eq]
  | .loop _ htest hbody => by rw [Node.ofStmt, Node.ofStmt, htest.ofExpr_eq, hbody.ofStmts_eq]
  | .print _ hvalue => by rw [Node.ofStmt, Node.ofStmt, hvalue.ofExpr_eq]
  | .discard _ hvalue => by rw [Node.ofStmt, Node.ofStmt, hvalue.ofExpr_eq]
  | .give _ hvalue => by rw [Node.ofStmt, Node.ofStmt, hvalue.ofExpr_eq]
  | .malformed => rfl

theorem Stmt.AllAlike.ofStmts_eq {stmts stmts' : List Stmt} : Stmt.AllAlike .text stmts stmts' →
    Node.ofStmts stmts = Node.ofStmts stmts'
  | .nil => rfl
  | .cons h hrest => by rw [Node.ofStmts, Node.ofStmts, h.ofStmt_eq, hrest.ofStmts_eq]

end

theorem ofNames_inj {names names' : List Name} (heq : Node.ofNames names = Node.ofNames names') :
    names = names' := by
  have hdatum : Function.Injective Node.datum := fun _ _ => Node.datum.inj
  exact List.map_injective_iff.mpr hdatum (Node.list.inj heq)

mutual

/-- Expressions with one tree differ in spans only. -/
theorem Expr.alike_of_ofExpr_eq : ∀ {e e' : Expr}, e.Built number →
    Node.ofExpr e = Node.ofExpr e' → Expr.Alike .text e e'
  | .number _ x, e', _, heq => by
    cases e' <;> simp only [Node.ofExpr, Node.node.injEq, List.cons.injEq, Node.datum.injEq,
      Datum.float.injEq, reduceCtorEq, and_true, true_and, false_and] at heq
    exact .number trivial heq
  | .boolean _ b, e', _, heq => by
    cases e' <;> simp only [Node.ofExpr, Node.node.injEq, List.cons.injEq, Node.datum.injEq,
      Datum.bool.injEq, reduceCtorEq, and_true, true_and, false_and] at heq
    exact heq ▸ .boolean trivial
  | .variable _ name, e', _, heq => by
    cases e' <;> simp only [Node.ofExpr, Node.node.injEq, List.cons.injEq, Node.datum.injEq,
      reduceCtorEq, and_true, true_and, false_and] at heq
    exact heq ▸ .variable trivial
  | .binary _ o left right, e', h, heq => by
    cases e' <;> simp only [Node.ofExpr, Node.node.injEq, List.cons.injEq, Node.operator.injEq,
      reduceCtorEq, and_true, true_and, false_and] at heq
    obtain ⟨rfl, hleft, hright⟩ := heq
    exact .binary trivial (Expr.alike_of_ofExpr_eq h.1 hleft) (Expr.alike_of_ofExpr_eq h.2 hright)
  | .function _ names body, e', h, heq => by
    cases e' <;> simp only [Node.ofExpr, Node.node.injEq, List.cons.injEq, Node.list.injEq,
      reduceCtorEq, and_true, true_and, false_and] at heq
    obtain rfl := ofNames_inj heq.1
    exact .function trivial (Stmt.allAlike_of_ofStmts_eq h.2 heq.2)
  | .call _ callee arguments, e', h, heq => by
    cases e' <;> simp only [Node.ofExpr, Node.node.injEq, List.cons.injEq, Node.list.injEq,
      Node.datum.injEq, reduceCtorEq, and_true, true_and, false_and] at heq
    obtain ⟨rfl, harguments⟩ := heq
    exact .call trivial (Expr.allAlike_of_ofExprs_eq h.2 harguments)
  | .malformed _, _, h, _ => False.elim h
termination_by structural e => e

/-- Trees of built expressions are the same only if the expressions differ in spans only. -/
theorem Expr.allAlike_of_ofExprs_eq : ∀ {es es' : List Expr}, Expr.AllBuilt number es →
    Node.ofExprs es = Node.ofExprs es' → Expr.AllAlike .text es es'
  | [], [], _, _ => .nil
  | _ :: _, _ :: _, h, heq => by
    obtain ⟨hfirst, hrest⟩ := List.cons.inj heq
    exact .cons (Expr.alike_of_ofExpr_eq h.1 hfirst) (Expr.allAlike_of_ofExprs_eq h.2 hrest)
termination_by structural es => es

theorem Stmt.alike_of_ofStmt_eq : ∀ {stmt stmt' : Stmt}, stmt.Built number →
    Node.ofStmt stmt = Node.ofStmt stmt' → Stmt.Alike .text stmt stmt'
  | .declare _ name value, stmt', h, heq => by
    cases stmt' <;> simp only [Node.ofStmt, Node.node.injEq, List.cons.injEq, Node.datum.injEq,
      reduceCtorEq, and_true, true_and, false_and] at heq
    obtain ⟨rfl, hvalue⟩ := heq
    exact .declare trivial (Expr.alike_of_ofExpr_eq h.2 hvalue)
  | .assign _ name value, stmt', h, heq => by
    cases stmt' <;> simp only [Node.ofStmt, Node.node.injEq, List.cons.injEq, Node.datum.injEq,
      reduceCtorEq, and_true, true_and, false_and] at heq
    obtain ⟨rfl, hvalue⟩ := heq
    exact .assign trivial (Expr.alike_of_ofExpr_eq h.2 hvalue)
  | .branch _ test thenPart elsePart, stmt', h, heq => by
    cases stmt' <;> simp only [Node.ofStmt, Node.node.injEq, List.cons.injEq, Node.list.injEq,
      reduceCtorEq, and_true, true_and, false_and] at heq
    exact .branch trivial (Expr.alike_of_ofExpr_eq h.1 heq.1)
      (Stmt.allAlike_of_ofStmts_eq h.2.1 heq.2.1) (Stmt.allAlike_of_ofStmts_eq h.2.2 heq.2.2)
  | .loop _ test body, stmt', h, heq => by
    cases stmt' <;> simp only [Node.ofStmt, Node.node.injEq, List.cons.injEq, Node.list.injEq,
      reduceCtorEq, and_true, true_and, false_and] at heq
    exact .loop trivial (Expr.alike_of_ofExpr_eq h.1 heq.1)
      (Stmt.allAlike_of_ofStmts_eq h.2 heq.2)
  | .print _ value, stmt', h, heq => by
    cases stmt' <;> simp only [Node.ofStmt, Node.node.injEq, List.cons.injEq, reduceCtorEq,
      and_true, true_and, false_and] at heq
    exact .print trivial (Expr.alike_of_ofExpr_eq h heq)
  | .discard _ value, stmt', h, heq => by
    cases stmt' <;> simp only [Node.ofStmt, Node.node.injEq, List.cons.injEq, reduceCtorEq,
      and_true, true_and, false_and] at heq
    exact .discard trivial (Expr.alike_of_ofExpr_eq h heq)
  | .give _ value, stmt', h, heq => by
    cases stmt' <;> simp only [Node.ofStmt, Node.node.injEq, List.cons.injEq, reduceCtorEq,
      and_true, true_and, false_and] at heq
    exact .give trivial (Expr.alike_of_ofExpr_eq h heq)
  | .malformed _, _, h, _ => False.elim h
termination_by structural stmt => stmt

theorem Stmt.allAlike_of_ofStmts_eq : ∀ {stmts stmts' : List Stmt}, Stmt.AllBuilt number stmts →
    Node.ofStmts stmts = Node.ofStmts stmts' → Stmt.AllAlike .text stmts stmts'
  | [], [], _, _ => .nil
  | _ :: _, _ :: _, h, heq => by
    obtain ⟨hfirst, hrest⟩ := List.cons.inj heq
    exact .cons (Stmt.alike_of_ofStmt_eq h.1 hfirst) (Stmt.allAlike_of_ofStmts_eq h.2 hrest)
termination_by structural stmts => stmts

end

/-! ## Dumps of programs -/

/-- The dump of a tree starts at the leftmost level. -/
theorem Node.Fits.dump?_eq {n : Node} (h : n.Fits .tree) : n.dump? = some (n.dumpAt 0) := by
  cases h
  rfl

/-- The dump of a program is that of its trees, one after the other. -/
theorem Program.dump_eq : ∀ {program : Program}, Stmt.AllBuilt number program →
    program.dump = (Node.ofStmts program).flatMap (Node.dumpAt 0)
  | [], _ => rfl
  | _ :: rest, h => by
    have hrest : Program.dump rest = _ := Program.dump_eq h.2
    rw [Program.dump] at hrest ⊢
    rw [List.flatMap_cons, hrest, h.1.fits_tree.dump?_eq]
    rfl

theorem Program.dump_oneLine {program : Program} (h : Stmt.AllBuilt number program) :
    ∀ text ∈ program.dump, OneLine text := by
  rw [Program.dump_eq h]
  intro text htext
  obtain ⟨n, hn, htext⟩ := List.mem_flatMap.mp htext
  exact (h.fits_tree n hn).oneLine 0 text htext

/-- Programs with the same dump have the same trees. -/
theorem Program.ofStmts_eq_of_dump_eq {p q : Program} (hp : Stmt.AllBuilt number p)
    (hq : Stmt.AllBuilt number q) (heq : p.dump = q.dump) : Node.ofStmts p = Node.ofStmts q := by
  rw [Program.dump_eq hp, Program.dump_eq hq] at heq
  have hstops : ∀ (n : Node) (rest : List String), n.Fits .tree → ¬ [] = n.dumpAt 0 ++ rest := by
    rintro _ rest ⟨⟩ hnil
    cases hnil
  have htold : ∀ n ∈ Node.ofStmts p, Told (Node.dumpAt 0) (Node.Fits .tree) n := fun n hn =>
    (hp.fits_tree n hn).told 0
  exact (flatMap_inj hstops hp.fits_tree htold hq.fits_tree rfl rfl (congrArg (· ++ []) heq)).1

/-- A dump loses nothing but spans: two programs are printed as the same text just if they are the
same tree, node by node, name by name and literal by literal. A name may look like a line of a dump,
and zeros of different signs are different literals. -/
theorem Program.dump_text_eq_iff_alike {p q : Program} (hp : Stmt.AllBuilt number p)
    (hq : Stmt.AllBuilt number q) :
    ofLines p.dump = ofLines q.dump ↔ Stmt.AllAlike .text p q := by
  constructor
  · intro heq
    have hlines := ofLines_inj (Program.dump_oneLine hp) (Program.dump_oneLine hq) heq
    exact Stmt.allAlike_of_ofStmts_eq hp (Program.ofStmts_eq_of_dump_eq hp hq hlines)
  · intro halike
    rw [Program.dump_eq hp, Program.dump_eq hq, halike.ofStmts_eq]

end Trees

/-- A program with names that look like lines of a dump, with empty lists and with a zero. -/
def lookalike (span : Option Span) (zero : Float) : Program :=
  [.declare span (.text "  ]\n  ]") (.function span [.text "]", .text "While"] []),
    .branch span (.boolean span true) [] [.print span (.number span zero)]]

theorem lookalike_built (span : Option Span) (zero : Float) :
    Stmt.AllBuilt (fun x => x.isNaN = false) (lookalike span zero) ↔ zero.isNaN = false := by
  simp [lookalike, Stmt.AllBuilt, Stmt.Built, Expr.Built, Datum.IsText]

/-- Spans are not shown, and the sign of a zero is. -/
theorem dump_text_eq_iff_alike_lookalike :
    ofLines (lookalike none 0).dump = ofLines (lookalike (some default) 0).dump ∧
      ofLines (lookalike none 0).dump ≠ ofLines (lookalike none (-0)).dump := by
  have hbuilt : ∀ span, Stmt.AllBuilt (fun x => x.isNaN = false) (lookalike span 0) := fun span =>
    (lookalike_built span 0).mpr (by decide)
  have hminus : Stmt.AllBuilt (fun x => x.isNaN = false) (lookalike none (-0)) :=
    (lookalike_built none (-0)).mpr (by decide)
  constructor
  · refine (Program.dump_text_eq_iff_alike (hbuilt _) (hbuilt _)).mpr ?_
    exact .cons (.declare trivial (.function trivial .nil)) (.cons (.branch trivial
      (.boolean trivial) .nil (.cons (.print trivial (.number trivial rfl)) .nil)) .nil)
  · intro heq
    have halike := (Program.dump_text_eq_iff_alike (hbuilt _) hminus).mp heq
    rcases halike with _ | ⟨-, _ | ⟨hbranch, -⟩⟩
    rcases hbranch with _ | _ | ⟨-, -, -, _ | ⟨hprint, -⟩⟩
    rcases hprint with _ | _ | _ | _ | ⟨-, ⟨-, hzero⟩⟩
    have hsigns : (0 : Float) ≠ -0 := by decide
    exact hsigns hzero

end Treewalk
