import Treewalk.Proofs.Program.Encoding

/-! # Programs survive their JSON text

Writing a program and reading the text gives the program back. What is lost is the spans and the
sign of a zero, and neither matters for the text: writing the program that was read gives the same
text again. Whatever is nested as deeply as the limits allow is covered, for every indentation.
-/

namespace Treewalk

open Codec

/-! ## Data of programs as JSON data -/

/-- The keys are distinct texts and the nesting stays within a bound. -/
def Datum.Fits (bound : Nat) (d : Datum) : Prop := d.Keyed ∧ d.depth ≤ bound

namespace Datum

theorem Fits.mono {bound larger : Nat} {d : Datum} (h : d.Fits bound) (hle : bound ≤ larger) :
    d.Fits larger :=
  ⟨h.1, h.2.trans hle⟩

theorem fits_text (bound : Nat) (s : String) : (text s).Fits (bound + 1) :=
  ⟨trivial, by simp [depth]⟩

theorem IsText.fits {d : Datum} (h : d.IsText) (bound : Nat) : d.Fits (bound + 1) := by
  cases d with
  | text s => exact fits_text bound s
  | _ => exact h.elim

/-- A list nests one deeper than its items. -/
theorem fits_list {bound : Nat} {items : List Datum} (h : ∀ d ∈ items, d.Fits bound) :
    (list items).Fits (bound + 1) := by
  have hitems : AllKeyed items ∧ depths items ≤ bound := by
    induction items with
    | nil => exact ⟨trivial, Nat.zero_le _⟩
    | cons d items ih =>
        obtain ⟨hfirst, hothers⟩ := List.forall_mem_cons.mp h
        obtain ⟨hkeyed, hdepth⟩ := ih hothers
        exact ⟨⟨hfirst.1, hkeyed⟩, Nat.max_le.mpr ⟨hfirst.2, hdepth⟩⟩
  exact ⟨hitems.1, Nat.succ_le_succ hitems.2⟩

/-- A record with distinct keys nests one deeper than its values. -/
theorem fits_record {bound : Nat} {entries : List (String × Datum)}
    (hkeys : (entries.map Prod.fst).Nodup) (h : ∀ e ∈ entries, e.2.Fits bound) :
    (record entries).Fits (bound + 1) := by
  have hentries : EntriesKeyed (textEntries entries) ∧
      entryDepths (textEntries entries) ≤ bound := by
    clear hkeys
    induction entries with
    | nil => exact ⟨trivial, Nat.zero_le _⟩
    | cons e entries ih =>
        obtain ⟨hfirst, hothers⟩ := List.forall_mem_cons.mp h
        obtain ⟨hkeyed, hdepth⟩ := ih hothers
        exact ⟨⟨hfirst.1, hkeyed⟩, Nat.max_le.mpr ⟨hfirst.2, hdepth⟩⟩
  exact ⟨⟨⟨entries, rfl, hkeys⟩, hentries.1⟩, Nat.succ_le_succ hentries.2⟩

end Datum

theorem numberDatum_fits (bound : Nat) (x : Float) : (numberDatum x).Fits (bound + 1) := by
  unfold numberDatum
  split
  · split
    · split <;> exact ⟨trivial, by simp [Datum.depth]⟩
    · exact ⟨trivial, by simp [Datum.depth]⟩
  · exact Datum.fits_text bound _

/-- The datum of a node adds two levels to its parts. -/
theorem fits_node {nesting : Nat} (kind : String) {entries : List (String × Datum)}
    (hkeys : ("kind" :: entries.map Prod.fst).Nodup)
    (h : ∀ e ∈ entries, e.2.Fits (2 * nesting + 2)) :
    (record (("kind", .text kind) :: entries)).Fits (2 * (nesting + 1) + 1) :=
  Datum.fits_record hkeys (List.forall_mem_cons.mpr ⟨Datum.fits_text _ kind, h⟩)

mutual

/-- The datum of an expression has two levels for each node, and one more for what stands in it. -/
theorem Expr.datum_fits {number : Float → Prop} : (e : Expr) → e.Built number →
    e.datum.Fits (2 * Node.nesting (Node.ofExpr e) + 1)
  | .number _ x, _ => by
      refine fits_node "number" (by simp) ?_
      simp [numberDatum_fits]
  | .boolean _ b, _ => by
      refine fits_node "boolean" (by simp) ?_
      simp [Datum.Fits, Datum.Keyed, Datum.depth]
  | .variable _ name, h => by
      refine fits_node "variable" (by simp) ?_
      simpa using Datum.IsText.fits h _
  | .binary _ o left right, h => by
      rw [Expr.Built] at h
      have hleft := Expr.datum_fits left h.1
      have hright := Expr.datum_fits right h.2
      simp only [Node.ofExpr, Node.nesting, Node.nestings]
      refine fits_node "operator" (by simp) ?_
      simp only [List.forall_mem_cons, List.not_mem_nil, false_implies, implies_true, and_true]
      exact ⟨Datum.fits_text _ _, hleft.mono (by omega), hright.mono (by omega)⟩
  | .function _ parameters body, h => by
      rw [Expr.Built] at h
      have hparameters := Datum.fits_list fun p hp => (h.1 p hp).fits 0
      have hbody := Datum.fits_list (Stmt.allData_fit body h.2)
      simp only [Node.ofExpr, Node.nesting, Node.nestings]
      refine fits_node "function" (by simp) ?_
      simp only [List.forall_mem_cons, List.not_mem_nil, false_implies, implies_true, and_true]
      exact ⟨hparameters.mono (by omega), hbody.mono (by omega)⟩
  | .call _ callee arguments, h => by
      rw [Expr.Built] at h
      have harguments := Datum.fits_list (Expr.allData_fit arguments h.2)
      simp only [Node.ofExpr, Node.nesting, Node.nestings]
      refine fits_node "call" (by simp) ?_
      simp only [List.forall_mem_cons, List.not_mem_nil, false_implies, implies_true, and_true]
      exact ⟨h.1.fits _, harguments.mono (by omega)⟩
  | .malformed _, h => h.elim

theorem Expr.allData_fit {number : Float → Prop} : (es : List Expr) → Expr.AllBuilt number es →
    ∀ d ∈ Expr.allData es, d.Fits (2 * Node.nestings (Node.ofExprs es) + 1)
  | [], _ => by simp [Expr.allData]
  | e :: es, h => by
      rw [Expr.AllBuilt] at h
      have hfirst := Expr.datum_fits e h.1
      have hothers := Expr.allData_fit es h.2
      rw [Expr.allData, Node.ofExprs, Node.nestings]
      exact List.forall_mem_cons.mpr ⟨hfirst.mono (by omega),
        fun d hd => (hothers d hd).mono (by omega)⟩

/-- The datum of a statement has two levels for each node, and one more for what stands in it. -/
theorem Stmt.datum_fits {number : Float → Prop} : (s : Stmt) → s.Built number →
    s.datum.Fits (2 * Node.nesting (Node.ofStmt s) + 1)
  | .declare _ name value, h => by
      rw [Stmt.Built] at h
      have hvalue := Expr.datum_fits value h.2
      simp only [Node.ofStmt, Node.nesting, Node.nestings]
      refine fits_node "let" (by simp) ?_
      simp only [List.forall_mem_cons, List.not_mem_nil, false_implies, implies_true, and_true]
      exact ⟨h.1.fits _, hvalue.mono (by omega)⟩
  | .assign _ name value, h => by
      rw [Stmt.Built] at h
      have hvalue := Expr.datum_fits value h.2
      simp only [Node.ofStmt, Node.nesting, Node.nestings]
      refine fits_node "assignment" (by simp) ?_
      simp only [List.forall_mem_cons, List.not_mem_nil, false_implies, implies_true, and_true]
      exact ⟨h.1.fits _, hvalue.mono (by omega)⟩
  | .branch _ test thenPart elsePart, h => by
      rw [Stmt.Built] at h
      have htest := Expr.datum_fits test h.1
      have hthen := Datum.fits_list (Stmt.allData_fit thenPart h.2.1)
      have helse := Datum.fits_list (Stmt.allData_fit elsePart h.2.2)
      simp only [Node.ofStmt, Node.nesting, Node.nestings]
      refine fits_node "if" (by simp) ?_
      simp only [List.forall_mem_cons, List.not_mem_nil, false_implies, implies_true, and_true]
      exact ⟨htest.mono (by omega), hthen.mono (by omega), helse.mono (by omega)⟩
  | .loop _ test body, h => by
      rw [Stmt.Built] at h
      have htest := Expr.datum_fits test h.1
      have hbody := Datum.fits_list (Stmt.allData_fit body h.2)
      simp only [Node.ofStmt, Node.nesting, Node.nestings]
      refine fits_node "while" (by simp) ?_
      simp only [List.forall_mem_cons, List.not_mem_nil, false_implies, implies_true, and_true]
      exact ⟨htest.mono (by omega), hbody.mono (by omega)⟩
  | .print _ value, h => by
      rw [Stmt.Built] at h
      have hvalue := Expr.datum_fits value h
      simp only [Node.ofStmt, Node.nesting, Node.nestings]
      refine fits_node "print" (by simp) ?_
      simp only [List.forall_mem_cons, List.not_mem_nil, false_implies, implies_true, and_true]
      exact hvalue.mono (by omega)
  | .discard _ value, h => by
      rw [Stmt.Built] at h
      have hvalue := Expr.datum_fits value h
      simp only [Node.ofStmt, Node.nesting, Node.nestings]
      refine fits_node "expression" (by simp) ?_
      simp only [List.forall_mem_cons, List.not_mem_nil, false_implies, implies_true, and_true]
      exact hvalue.mono (by omega)
  | .give _ value, h => by
      rw [Stmt.Built] at h
      have hvalue := Expr.datum_fits value h
      simp only [Node.ofStmt, Node.nesting, Node.nestings]
      refine fits_node "return" (by simp) ?_
      simp only [List.forall_mem_cons, List.not_mem_nil, false_implies, implies_true, and_true]
      exact hvalue.mono (by omega)
  | .malformed _, h => h.elim

theorem Stmt.allData_fit {number : Float → Prop} : (ss : List Stmt) → Stmt.AllBuilt number ss →
    ∀ d ∈ Stmt.allData ss, d.Fits (2 * Node.nestings (Node.ofStmts ss) + 1)
  | [], _ => by simp [Stmt.allData]
  | s :: ss, h => by
      rw [Stmt.AllBuilt] at h
      have hfirst := Stmt.datum_fits s h.1
      have hothers := Stmt.allData_fit ss h.2
      rw [Stmt.allData, Node.ofStmts, Node.nestings]
      exact List.forall_mem_cons.mpr ⟨hfirst.mono (by omega),
        fun d hd => (hothers d hd).mono (by omega)⟩

end

/-! ## Bare programs -/

/-- A zero of either sign is written as an integer. -/
theorem numberDatum_of_zero {x : Float} (hfinite : x.isFinite = true)
    (h : Number.toInt? x = some 0) : numberDatum x = .int 0 := by
  unfold numberDatum
  rw [if_pos hfinite, h]
  rfl

/-- A number and its bare form have the same datum. -/
theorem numberDatum_dropZeroSign (x : Float) :
    numberDatum (Number.dropZeroSign x) = numberDatum x := by
  unfold Number.dropZeroSign
  split
  next hbits =>
    have hpositive : Number.Binary.ofFloat (Float.ofBits 0) =
        .finite false 0 Number.Binary.minExponent := by decide
    rw [Number.eq_negativeZero hbits,
      numberDatum_of_zero (by decide) (Number.toInt?_of_zero Number.ofFloat_negativeZero),
      numberDatum_of_zero (by decide) (Number.toInt?_of_zero hpositive)]
  next => rfl

mutual

/-- A bare expression is written as the expression is. -/
theorem encodeExpr_bare : (e : Expr) →
    encodeExpr (Node.ofExpr e.bare) = encodeExpr (Node.ofExpr e)
  | .number _ x => by
      simp only [Expr.bare, Node.ofExpr, encodeExpr, encodeNumber, numberDatum_dropZeroSign]
  | .boolean _ b => rfl
  | .variable _ name => rfl
  | .binary _ o left right => by
      simp only [Expr.bare, Node.ofExpr, encodeExpr, encodeExpr_bare left, encodeExpr_bare right]
  | .function _ parameters body => by
      simp only [Expr.bare, Node.ofExpr, encodeExpr, encodeBlock, encodeStmts_bare body]
  | .call _ callee arguments => by
      simp only [Expr.bare, Node.ofExpr, encodeExpr, encodeArguments, encodeExprs_bare arguments]
  | .malformed _ => rfl

theorem encodeExprs_bare : (es : List Expr) →
    encodeExprs (Node.ofExprs (Expr.allBare es)) = encodeExprs (Node.ofExprs es)
  | [] => rfl
  | e :: es => by
      simp only [Expr.allBare, Node.ofExprs, encodeExprs, encodeExpr_bare e, encodeExprs_bare es]

/-- A bare statement is written as the statement is. -/
theorem encodeStmt_bare : (s : Stmt) →
    encodeStmt (Node.ofStmt s.bare) = encodeStmt (Node.ofStmt s)
  | .declare _ name value => by
      simp only [Stmt.bare, Node.ofStmt, encodeStmt, encodeExpr_bare value]
  | .assign _ name value => by
      simp only [Stmt.bare, Node.ofStmt, encodeStmt, encodeExpr_bare value]
  | .branch _ test thenPart elsePart => by
      simp only [Stmt.bare, Node.ofStmt, encodeStmt, encodeBlock, encodeExpr_bare test,
        encodeStmts_bare thenPart, encodeStmts_bare elsePart]
  | .loop _ test body => by
      simp only [Stmt.bare, Node.ofStmt, encodeStmt, encodeBlock, encodeExpr_bare test,
        encodeStmts_bare body]
  | .print _ value => by
      simp only [Stmt.bare, Node.ofStmt, encodeStmt, encodeExpr_bare value]
  | .discard _ value => by
      simp only [Stmt.bare, Node.ofStmt, encodeStmt, encodeExpr_bare value]
  | .give _ value => by
      simp only [Stmt.bare, Node.ofStmt, encodeStmt, encodeExpr_bare value]
  | .malformed _ => rfl

theorem encodeStmts_bare : (ss : List Stmt) →
    encodeStmts (Node.ofStmts (Stmt.allBare ss)) = encodeStmts (Node.ofStmts ss)
  | [] => rfl
  | s :: ss => by
      simp only [Stmt.allBare, Node.ofStmts, encodeStmts, encodeStmt_bare s, encodeStmts_bare ss]

end

mutual

/-- Bare expressions are nested as deeply as before. -/
theorem nesting_bareExpr : (e : Expr) →
    Node.nesting (Node.ofExpr e.bare) = Node.nesting (Node.ofExpr e)
  | .number _ x => rfl
  | .boolean _ b => rfl
  | .variable _ name => rfl
  | .binary _ o left right => by
      simp only [Expr.bare, Node.ofExpr, Node.nesting, Node.nestings, nesting_bareExpr left,
        nesting_bareExpr right]
  | .function _ parameters body => by
      simp only [Expr.bare, Node.ofExpr, Node.nesting, Node.nestings, nestings_bareStmts body]
  | .call _ callee arguments => by
      simp only [Expr.bare, Node.ofExpr, Node.nesting, Node.nestings, nestings_bareExprs arguments]
  | .malformed _ => rfl

theorem nestings_bareExprs : (es : List Expr) →
    Node.nestings (Node.ofExprs (Expr.allBare es)) = Node.nestings (Node.ofExprs es)
  | [] => rfl
  | e :: es => by
      simp only [Expr.allBare, Node.ofExprs, Node.nestings, nesting_bareExpr e,
        nestings_bareExprs es]

theorem nesting_bareStmt : (s : Stmt) →
    Node.nesting (Node.ofStmt s.bare) = Node.nesting (Node.ofStmt s)
  | .declare _ name value => by
      simp only [Stmt.bare, Node.ofStmt, Node.nesting, Node.nestings, nesting_bareExpr value]
  | .assign _ name value => by
      simp only [Stmt.bare, Node.ofStmt, Node.nesting, Node.nestings, nesting_bareExpr value]
  | .branch _ test thenPart elsePart => by
      simp only [Stmt.bare, Node.ofStmt, Node.nesting, Node.nestings, nesting_bareExpr test,
        nestings_bareStmts thenPart, nestings_bareStmts elsePart]
  | .loop _ test body => by
      simp only [Stmt.bare, Node.ofStmt, Node.nesting, Node.nestings, nesting_bareExpr test,
        nestings_bareStmts body]
  | .print _ value => by
      simp only [Stmt.bare, Node.ofStmt, Node.nesting, Node.nestings, nesting_bareExpr value]
  | .discard _ value => by
      simp only [Stmt.bare, Node.ofStmt, Node.nesting, Node.nestings, nesting_bareExpr value]
  | .give _ value => by
      simp only [Stmt.bare, Node.ofStmt, Node.nesting, Node.nestings, nesting_bareExpr value]
  | .malformed _ => rfl

theorem nestings_bareStmts : (ss : List Stmt) →
    Node.nestings (Node.ofStmts (Stmt.allBare ss)) = Node.nestings (Node.ofStmts ss)
  | [] => rfl
  | s :: ss => by
      simp only [Stmt.allBare, Node.ofStmts, Node.nestings, nesting_bareStmt s,
        nestings_bareStmts ss]

end

/-! ## Equality of trees -/

theorem Datum.IsText.same_self {d : Datum} (h : d.IsText) : d.same d = true := by
  cases d with
  | text s => simp [Datum.same]
  | _ => exact h.elim

theorem sameAll_names {names : List Name} (h : ∀ name ∈ names, name.IsText) :
    Node.sameAll (names.map .datum) (names.map .datum) = true := by
  induction names with
  | nil => simp [Node.sameAll]
  | cons name names ih =>
      obtain ⟨hfirst, hothers⟩ := List.forall_mem_cons.mp h
      simp [Node.sameAll, Node.same, hfirst.same_self, ih hothers]

mutual

/-- A bare expression without NaN is equal to the expression. -/
theorem same_bareExpr : (e : Expr) → e.Built (·.isNaN = false) →
    Node.same (Node.ofExpr e.bare) (Node.ofExpr e) = true
  | .number _ x, h => by
      rw [Expr.Built] at h
      simp [Expr.bare, Node.ofExpr, Node.same, Node.sameAll, Datum.same, Datum.sameNumber,
        Number.dropZeroSign_beq h]
  | .boolean _ b, _ => by
      simp [Expr.bare, Node.ofExpr, Node.same, Node.sameAll, Datum.same, Datum.sameNumber]
  | .variable _ name, h => by
      rw [Expr.Built] at h
      simp [Expr.bare, Node.ofExpr, Node.same, Node.sameAll, h.same_self]
  | .binary _ o left right, h => by
      rw [Expr.Built] at h
      simp [Expr.bare, Node.ofExpr, Node.same, Node.sameAll, same_bareExpr left h.1,
        same_bareExpr right h.2]
  | .function _ parameters body, h => by
      rw [Expr.Built] at h
      simp [Expr.bare, Node.ofExpr, Node.ofNames, Node.same, Node.sameAll, sameAll_names h.1,
        sameAll_bareStmts body h.2]
  | .call _ callee arguments, h => by
      rw [Expr.Built] at h
      simp [Expr.bare, Node.ofExpr, Node.same, Node.sameAll, h.1.same_self,
        sameAll_bareExprs arguments h.2]
  | .malformed _, h => h.elim

/-- Bare expressions are equal to the originals, which have no NaN. -/
theorem sameAll_bareExprs : (es : List Expr) → Expr.AllBuilt (·.isNaN = false) es →
    Node.sameAll (Node.ofExprs (Expr.allBare es)) (Node.ofExprs es) = true
  | [], _ => by simp [Expr.allBare, Node.ofExprs, Node.sameAll]
  | e :: es, h => by
      rw [Expr.AllBuilt] at h
      simp [Expr.allBare, Node.ofExprs, Node.sameAll, same_bareExpr e h.1, sameAll_bareExprs es h.2]

/-- A bare statement without NaN is equal to the statement. -/
theorem same_bareStmt : (s : Stmt) → s.Built (·.isNaN = false) →
    Node.same (Node.ofStmt s.bare) (Node.ofStmt s) = true
  | .declare _ name value, h => by
      rw [Stmt.Built] at h
      simp [Stmt.bare, Node.ofStmt, Node.same, Node.sameAll, h.1.same_self, same_bareExpr value h.2]
  | .assign _ name value, h => by
      rw [Stmt.Built] at h
      simp [Stmt.bare, Node.ofStmt, Node.same, Node.sameAll, h.1.same_self, same_bareExpr value h.2]
  | .branch _ test thenPart elsePart, h => by
      rw [Stmt.Built] at h
      simp [Stmt.bare, Node.ofStmt, Node.same, Node.sameAll, same_bareExpr test h.1,
        sameAll_bareStmts thenPart h.2.1, sameAll_bareStmts elsePart h.2.2]
  | .loop _ test body, h => by
      rw [Stmt.Built] at h
      simp [Stmt.bare, Node.ofStmt, Node.same, Node.sameAll, same_bareExpr test h.1,
        sameAll_bareStmts body h.2]
  | .print _ value, h => by
      rw [Stmt.Built] at h
      simp [Stmt.bare, Node.ofStmt, Node.same, Node.sameAll, same_bareExpr value h]
  | .discard _ value, h => by
      rw [Stmt.Built] at h
      simp [Stmt.bare, Node.ofStmt, Node.same, Node.sameAll, same_bareExpr value h]
  | .give _ value, h => by
      rw [Stmt.Built] at h
      simp [Stmt.bare, Node.ofStmt, Node.same, Node.sameAll, same_bareExpr value h]
  | .malformed _, h => h.elim

theorem sameAll_bareStmts : (ss : List Stmt) → Stmt.AllBuilt (·.isNaN = false) ss →
    Node.sameAll (Node.ofStmts (Stmt.allBare ss)) (Node.ofStmts ss) = true
  | [], _ => by simp [Stmt.allBare, Node.ofStmts, Node.sameAll]
  | s :: ss, h => by
      rw [Stmt.AllBuilt] at h
      simp [Stmt.allBare, Node.ofStmts, Node.sameAll, same_bareStmt s h.1, sameAll_bareStmts ss h.2]

end

/-! ## Round trip -/

namespace Program

/-- Built from nodes, with texts for names and with numbers of which `number` holds. -/
def Built (number : Float → Prop) (program : Program) : Prop := Stmt.AllBuilt number program

/-- A tree that the limit lets through is written as the data of its statements. -/
theorem nodesToJson_of_encode {indent : Option Nat} {nodes : List Node} {limit : Nat}
    {data : List Datum} (hlimit : Node.nestings nodes ≤ limit)
    (hencode : encodeStmts nodes = .ok data) :
    nodesToJson indent nodes limit = .ok (Json.write indent (.list data)) := by
  rw [nodesToJson, checkNesting, if_pos hlimit, hencode]
  rfl

/-- The text of a built program is read as the bare program. -/
theorem ofJson_write {program : Program} {limit : Nat} (indent : Option Nat)
    (hbuilt : program.Built fun _ => True)
    (hlimit : 2 * Node.nestings program.toNodes + 2 ≤ limit) :
    ofJson (Json.write indent (.list (Stmt.allData program))) limit = .ok program.bare := by
  -- the reader counts lists and dictionaries, the decoder counts nodes
  have hfits := Datum.fits_list (Stmt.allData_fit program hbuilt)
  have hdepth : Node.nestings (Node.ofStmts program) ≤ limit := by
    unfold toNodes at hlimit
    omega
  rw [ofJson, Json.read_write indent hfits.1 (hfits.2.trans hlimit)]
  exact decodeStmts_datum program limit hbuilt hdepth

/-- Within the limits a program is read back from its text, but for spans and the signs of zeros. -/
theorem ofJson_toJson (indent : Option Nat) (program : Program) (writeLimit readLimit : Nat)
    (hbuilt : program.Built fun _ => True) (hwrite : Node.nestings program.toNodes ≤ writeLimit)
    (hread : 2 * Node.nestings program.toNodes + 2 ≤ readLimit) :
    ∃ text, program.toJson indent writeLimit = .ok text ∧
      ofJson text readLimit = .ok program.bare ∧
      ((program.Built fun x => x.isNaN = false) →
        Node.sameAll program.bare.toNodes program.toNodes = true) ∧
      program.bare.toJson indent writeLimit = .ok text := by
  have hencode := encodeStmts_ofStmts program hbuilt
  have hagain : encodeStmts program.bare.toNodes = .ok (Stmt.allData program) :=
    (encodeStmts_bare program).trans hencode
  have hnesting : Node.nestings program.bare.toNodes ≤ writeLimit :=
    (nestings_bareStmts program).trans_le hwrite
  exact ⟨_, nodesToJson_of_encode hwrite hencode, ofJson_write indent hbuilt hread,
    sameAll_bareStmts program, nodesToJson_of_encode hnesting hagain⟩

/-- A program with a span, with both infinities, NaN and `-0`, and with `2 ^ 53 + 2`, which is no
longer written as an integer. -/
def extremes : Program :=
  [ .declare (some ⟨{ line := 3 }, { line := 4 }⟩) (.text "f")
      (.function none [.text "x", .text "é"]
        [ .branch none (.binary none .less (.variable none (.text "x"))
              (.number none (Float.ofBits 0x4340000000000001)))
            [.give none (.number none Number.notANumber)]
            [ .loop none (.boolean none true)
                [.assign none (.text "x") (.number none (-Number.infinity))] ] ]),
    .print none (.call none (.text "f")
      [.number none (Float.ofBits 0x8000000000000000), .number none Number.infinity]) ]

theorem ofJson_toJson_extremes :
    (extremes.Built fun _ => True) ∧ Node.nestings extremes.toNodes = 6 ∧
    ∃ text, extremes.toJson (some 2) = .ok text ∧ ofJson text = .ok extremes.bare ∧
      ((extremes.Built fun x => x.isNaN = false) →
        Node.sameAll extremes.bare.toNodes extremes.toNodes = true) ∧
      extremes.bare.toJson (some 2) = .ok text := by
  have hbuilt : extremes.Built fun _ => True := by
    simp [extremes, Built, Stmt.AllBuilt, Stmt.Built, Expr.Built, Expr.AllBuilt, Datum.IsText]
  have hnestings : Node.nestings extremes.toNodes = 6 := by decide
  exact ⟨hbuilt, hnestings, ofJson_toJson (some 2) extremes Node.depthLimit Json.depthLimit hbuilt
    (by rw [hnestings]; decide) (by rw [hnestings]; decide)⟩

end Program

end Treewalk
