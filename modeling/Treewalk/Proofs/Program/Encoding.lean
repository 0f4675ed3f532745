import Treewalk.Program.Codec
import Treewalk.Proofs.Json.RoundTrip

/-! # Programs and their data

A program that is built from nodes with texts for names has a datum, `Stmt.datum` for each of its
statements. Encoding its trees gives that datum, and decoding the datum gives the program again,
without spans and with the positive zero in the place of the negative one. The cases follow the two
mutual recursions of the codec, one constructor at a time.
-/

namespace Treewalk

/-! ## Built programs -/

/-- A text in the place of a name. -/
def Datum.IsText : Datum → Prop
  | .text _ => True
  | _ => False

mutual

/-- Built from nodes, with texts for names and with numbers of which `number` holds. -/
def Expr.Built (number : Float → Prop) : Expr → Prop
  | .number _ x => number x
  | .boolean _ _ => True
  | .variable _ name => name.IsText
  | .binary _ _ left right => left.Built number ∧ right.Built number
  | .function _ parameters body => (∀ p ∈ parameters, p.IsText) ∧ Stmt.AllBuilt number body
  | .call _ callee arguments => callee.IsText ∧ Expr.AllBuilt number arguments
  | .malformed _ => False

def Expr.AllBuilt (number : Float → Prop) : List Expr → Prop
  | [] => True
  | e :: rest => e.Built number ∧ Expr.AllBuilt number rest

def Stmt.Built (number : Float → Prop) : Stmt → Prop
  | .declare _ name value => name.IsText ∧ value.Built number
  | .assign _ name value => name.IsText ∧ value.Built number
  | .branch _ test thenPart elsePart =>
    test.Built number ∧ Stmt.AllBuilt number thenPart ∧ Stmt.AllBuilt number elsePart
  | .loop _ test body => test.Built number ∧ Stmt.AllBuilt number body
  | .print _ value => value.Built number
  | .discard _ value => value.Built number
  | .give _ value => value.Built number
  | .malformed _ => False

def Stmt.AllBuilt (number : Float → Prop) : List Stmt → Prop
  | [] => True
  | s :: rest => s.Built number ∧ Stmt.AllBuilt number rest

end

mutual

/-- The expression without spans and without the sign of a zero. -/
def Expr.bare : Expr → Expr
  | .number _ x => .number none (Number.dropZeroSign x)
  | .boolean _ b => .boolean none b
  | .variable _ name => .variable none name
  | .binary _ o left right => .binary none o left.bare right.bare
  | .function _ parameters body => .function none parameters (Stmt.allBare body)
  | .call _ callee arguments => .call none callee (Expr.allBare arguments)
  | .malformed reason => .malformed reason

def Expr.allBare : List Expr → List Expr
  | [] => []
  | e :: rest => e.bare :: Expr.allBare rest

/-- The statement without spans and without the sign of a zero. -/
def Stmt.bare : Stmt → Stmt
  | .declare _ name value => .declare none name value.bare
  | .assign _ name value => .assign none name value.bare
  | .branch _ test thenPart elsePart =>
    .branch none test.bare (Stmt.allBare thenPart) (Stmt.allBare elsePart)
  | .loop _ test body => .loop none test.bare (Stmt.allBare body)
  | .print _ value => .print none value.bare
  | .discard _ value => .discard none value.bare
  | .give _ value => .give none value.bare
  | .malformed reason => .malformed reason

def Stmt.allBare : List Stmt → List Stmt
  | [] => []
  | s :: rest => s.bare :: Stmt.allBare rest

end

def Program.bare (program : Program) : Program := Stmt.allBare program

/-! ## Data of programs -/

open Codec

mutual

def Expr.datum : Expr → Datum
  | .number _ x => record [("kind", .text "number"), ("value", numberDatum x)]
  | .boolean _ b => record [("kind", .text "boolean"), ("value", .bool b)]
  | .variable _ name => record [("kind", .text "variable"), ("name", name)]
  | .binary _ o left right =>
    record [("kind", .text "operator"), ("operator", .text o.spelling), ("left", left.datum),
      ("right", right.datum)]
  | .function _ parameters body =>
    record [("kind", .text "function"), ("parameters", .list parameters),
      ("body", .list (Stmt.allData body))]
  | .call _ callee arguments =>
    record [("kind", .text "call"), ("callee", callee),
      ("arguments", .list (Expr.allData arguments))]
  | .malformed _ => .null

def Expr.allData : List Expr → List Datum
  | [] => []
  | e :: rest => e.datum :: Expr.allData rest

def Stmt.datum : Stmt → Datum
  | .declare _ name value =>
    record [("kind", .text "let"), ("name", name), ("expression", value.datum)]
  | .assign _ name value =>
    record [("kind", .text "assignment"), ("name", name), ("expression", value.datum)]
  | .branch _ test thenPart elsePart =>
    record [("kind", .text "if"), ("test", test.datum), ("truePart", .list (Stmt.allData thenPart)),
      ("falsePart", .list (Stmt.allData elsePart))]
  | .loop _ test body =>
    record [("kind", .text "while"), ("test", test.datum), ("body", .list (Stmt.allData body))]
  | .print _ value => record [("kind", .text "print"), ("expression", value.datum)]
  | .discard _ value => record [("kind", .text "expression"), ("expression", value.datum)]
  | .give _ value => record [("kind", .text "return"), ("expression", value.datum)]
  | .malformed _ => .null

def Stmt.allData : List Stmt → List Datum
  | [] => []
  | s :: rest => s.datum :: Stmt.allData rest

end

namespace Codec

/-! ## Encoding -/

theorem encodePlain_datum (d : Datum) : encodePlain (.datum d) = .ok d := rfl

theorem data?_map_datum (ds : List Datum) : Node.data? (ds.map .datum) = some ds := by
  induction ds with
  | nil => rfl
  | cons d ds ih => rw [List.map_cons, Node.data?, ih]; rfl

theorem encodeNames_ofNames (names : List Name) :
    encodeNames (Node.ofNames names) = .ok (.list names) := by
  rw [Node.ofNames, encodeNames, data?_map_datum]

mutual

/-- The tree of a built expression is written as its datum. -/
theorem encodeExpr_ofExpr {number : Float → Prop} : (e : Expr) → e.Built number →
    encodeExpr (Node.ofExpr e) = .ok e.datum
  | .number _ x, _ => by
      rw [Node.ofExpr, encodeExpr, encodeNumber]
      rfl
  | .boolean _ b, _ => by
      rw [Node.ofExpr, encodeExpr, encodePlain_datum]
      rfl
  | .variable _ name, _ => by
      rw [Node.ofExpr, encodeExpr, encodePlain_datum]
      rfl
  | .binary _ o left right, h => by
      rw [Expr.Built] at h
      rw [Node.ofExpr, encodeExpr, encodeExpr_ofExpr left h.1, encodeExpr_ofExpr right h.2]
      rfl
  | .function _ parameters body, h => by
      rw [Expr.Built] at h
      rw [Node.ofExpr, encodeExpr, encodeNames_ofNames, encodeBlock, encodeStmts_ofStmts body h.2]
      rfl
  | .call _ callee arguments, h => by
      rw [Expr.Built] at h
      rw [Node.ofExpr, encodeExpr, encodePlain_datum, encodeArguments,
        encodeExprs_ofExprs arguments h.2]
      rfl
  | .malformed _, h => by
      rw [Expr.Built] at h
      exact h.elim

theorem encodeExprs_ofExprs {number : Float → Prop} : (es : List Expr) →
    Expr.AllBuilt number es → encodeExprs (Node.ofExprs es) = .ok (Expr.allData es)
  | [], _ => by
      rw [Node.ofExprs, encodeExprs, Expr.allData]
  | e :: es, h => by
      rw [Expr.AllBuilt] at h
      rw [Node.ofExprs, encodeExprs, encodeExpr_ofExpr e h.1, encodeExprs_ofExprs es h.2]
      rfl

/-- The tree of a built statement is written as its datum. -/
theorem encodeStmt_ofStmt {number : Float → Prop} : (s : Stmt) → s.Built number →
    encodeStmt (Node.ofStmt s) = .ok s.datum
  | .declare _ name value, h => by
      rw [Stmt.Built] at h
      rw [Node.ofStmt, encodeStmt, encodePlain_datum, encodeExpr_ofExpr value h.2]
      rfl
  | .assign _ name value, h => by
      rw [Stmt.Built] at h
      rw [Node.ofStmt, encodeStmt, encodePlain_datum, encodeExpr_ofExpr value h.2]
      rfl
  | .branch _ test thenPart elsePart, h => by
      rw [Stmt.Built] at h
      rw [Node.ofStmt, encodeStmt, encodeExpr_ofExpr test h.1, encodeBlock,
        encodeStmts_ofStmts thenPart h.2.1, encodeBlock, encodeStmts_ofStmts elsePart h.2.2]
      rfl
  | .loop _ test body, h => by
      rw [Stmt.Built] at h
      rw [Node.ofStmt, encodeStmt, encodeExpr_ofExpr test h.1, encodeBlock,
        encodeStmts_ofStmts body h.2]
      rfl
  | .print _ value, h => by
      rw [Stmt.Built] at h
      rw [Node.ofStmt, encodeStmt, encodeExpr_ofExpr value h]
      rfl
  | .discard _ value, h => by
      rw [Stmt.Built] at h
      rw [Node.ofStmt, encodeStmt, encodeExpr_ofExpr value h]
      rfl
  | .give _ value, h => by
      rw [Stmt.Built] at h
      rw [Node.ofStmt, encodeStmt, encodeExpr_ofExpr value h]
      rfl
  | .malformed _, h => by
      rw [Stmt.Built] at h
      exact h.elim

theorem encodeStmts_ofStmts {number : Float → Prop} : (ss : List Stmt) →
    Stmt.AllBuilt number ss → encodeStmts (Node.ofStmts ss) = .ok (Stmt.allData ss)
  | [], _ => by
      rw [Node.ofStmts, encodeStmts, Stmt.allData]
  | s :: ss, h => by
      rw [Stmt.AllBuilt] at h
      rw [Node.ofStmts, encodeStmts, encodeStmt_ofStmt s h.1, encodeStmts_ofStmts ss h.2]
      rfl

end

/-! ## Decoding -/

/-- The number that is read for a number's datum is the same but for the sign of a zero. -/
theorem numberOf_numberDatum (x : Float) :
    numberOf (numberDatum x) = .ok (Number.dropZeroSign x) := by
  unfold numberDatum
  cases hfinite : x.isFinite with
  | true =>
      rw [if_pos rfl]
      cases hint : Number.toInt? x with
      | none =>
          rw [Number.dropZeroSign_eq_self (by simp [hint])]
          rfl
      | some n =>
          dsimp only
          split
          next hsmall =>
            rw [numberOf, Node.toNumber, Number.ofInt?_of_toInt? hfinite hint]
            · rfl
            all_goals simp
          next hlarge =>
            -- a zero is small, so a number written as a double keeps its sign
            have hzero : Number.toInt? x ≠ some 0 := by
              rw [hint]
              rintro ⟨⟩
              exact hlarge (by decide)
            rw [Number.dropZeroSign_eq_self hzero]
            rfl
  | false =>
      rw [if_neg Bool.false_ne_true]
      unfold Number.plainText
      rcases Number.Binary.eq_of_not_isFinite hfinite with ⟨hfields, hx⟩ | ⟨hfields, hx⟩ |
        ⟨hfields, hx⟩
      · rw [hfields, hx]
        rfl
      · rw [hfields, hx]
        rfl
      · rw [hfields, hx]
        rfl

/-- Operators are told by their spellings. -/
theorem ofSpelling?_spelling (o : Operator) : Operator.ofSpelling? o.spelling = some o := by
  cases o <;> decide

/-- In a record, a key has the value of its first entry. -/
@[simp] theorem get?_record (entries : List (String × Datum)) (key : String) :
    (record entries).get? key = (entries.find? (·.1 == key)).map (·.2) := by
  induction entries with
  | nil => rfl
  | cons entry entries ih =>
      simp only [record, List.map_cons, Datum.get?, List.find?_cons] at *
      cases hkey : entry.1 == key with
      | true => rfl
      | false => exact ih

theorem kindOf_record (kind : String) (entries : List (String × Datum)) :
    kindOf (record (("kind", .text kind) :: entries)) = .text kind := rfl

theorem nesting_ofExpr_pos {number : Float → Prop} {e : Expr} (h : e.Built number) :
    0 < Node.nesting (Node.ofExpr e) := by
  cases e with
  | malformed reason => exact h.elim
  | _ => simp [Node.ofExpr, Node.nesting]

theorem nesting_ofStmt_pos {number : Float → Prop} {s : Stmt} (h : s.Built number) :
    0 < Node.nesting (Node.ofStmt s) := by
  cases s with
  | malformed reason => exact h.elim
  | _ => simp [Node.ofStmt, Node.nesting]

mutual

/-- The datum of a built expression is read as the expression. -/
theorem decodeExpr_datum {number : Float → Prop} : (e : Expr) → (limit : Nat) → e.Built number →
    Node.nesting (Node.ofExpr e) ≤ limit → decodeExpr limit e.datum = .ok e.bare
  | e, 0, h, hlimit => absurd (nesting_ofExpr_pos h) (Nat.not_lt.mpr hlimit)
  | .number _ x, limit + 1, _, _ => by
      rw [Expr.datum, decodeExpr, kindOf_record]
      simp [part, numberOf_numberDatum, bind, Except.bind, Expr.bare]
  | .boolean _ b, limit + 1, _, _ => by
      rw [Expr.datum, decodeExpr, kindOf_record]
      simp [part, bind, Except.bind, Expr.bare, Datum.truthy]
  | .variable _ name, limit + 1, _, _ => by
      rw [Expr.datum, decodeExpr, kindOf_record]
      simp [part, bind, Except.bind, Expr.bare]
  | .binary _ o left right, limit + 1, h, hlimit => by
      rw [Expr.Built] at h
      simp only [Node.ofExpr, Node.nesting, Node.nestings] at hlimit
      have hleft := decodeExpr_datum left limit h.1 (by omega)
      have hright := decodeExpr_datum right limit h.2 (by omega)
      rw [Expr.datum, decodeExpr, kindOf_record]
      simp [part, operatorOf, Datum.key?, ofSpelling?_spelling, hleft, hright, bind, Except.bind,
        Expr.bare]
  | .function _ parameters body, limit + 1, h, hlimit => by
      rw [Expr.Built] at h
      simp only [Node.ofExpr, Node.nesting, Node.nestings] at hlimit
      have hbody := decodeStmts_datum body limit h.2 (by omega)
      rw [Expr.datum, decodeExpr, kindOf_record]
      simp [parts, Node.itemsOf?, hbody, bind, Except.bind, Expr.bare]
  | .call _ callee arguments, limit + 1, h, hlimit => by
      rw [Expr.Built] at h
      simp only [Node.ofExpr, Node.nesting, Node.nestings] at hlimit
      have harguments := decodeExprs_datum arguments limit h.2 (by omega)
      rw [Expr.datum, decodeExpr, kindOf_record]
      simp [part, parts, Node.itemsOf?, harguments, bind, Except.bind, Expr.bare]
  | .malformed _, _ + 1, h, _ => h.elim

/-- Expressions that were written are read back bare. -/
theorem decodeExprs_datum {number : Float → Prop} : (es : List Expr) → (limit : Nat) →
    Expr.AllBuilt number es → Node.nestings (Node.ofExprs es) ≤ limit →
    decodeAll (decodeExpr limit) (Expr.allData es) = .ok (Expr.allBare es)
  | [], _, _, _ => rfl
  | e :: es, limit, h, hlimit => by
      rw [Expr.AllBuilt] at h
      rw [Node.ofExprs, Node.nestings] at hlimit
      rw [Expr.allData, decodeAll, decodeExpr_datum e limit h.1 (by omega),
        decodeExprs_datum es limit h.2 (by omega)]
      rfl

/-- The datum of a built statement is read as the statement. -/
theorem decodeStmt_datum {number : Float → Prop} : (s : Stmt) → (limit : Nat) → s.Built number →
    Node.nesting (Node.ofStmt s) ≤ limit → decodeStmt limit s.datum = .ok s.bare
  | s, 0, h, hlimit => absurd (nesting_ofStmt_pos h) (Nat.not_lt.mpr hlimit)
  | .declare _ name value, limit + 1, h, hlimit => by
      rw [Stmt.Built] at h
      simp only [Node.ofStmt, Node.nesting, Node.nestings] at hlimit
      have hvalue := decodeExpr_datum value limit h.2 (by omega)
      rw [Stmt.datum, decodeStmt, kindOf_record]
      simp [part, hvalue, bind, Except.bind, Stmt.bare]
  | .assign _ name value, limit + 1, h, hlimit => by
      rw [Stmt.Built] at h
      simp only [Node.ofStmt, Node.nesting, Node.nestings] at hlimit
      have hvalue := decodeExpr_datum value limit h.2 (by omega)
      rw [Stmt.datum, decodeStmt, kindOf_record]
      simp [part, hvalue, bind, Except.bind, Stmt.bare]
  | .branch _ test thenPart elsePart, limit + 1, h, hlimit => by
      rw [Stmt.Built] at h
      simp only [Node.ofStmt, Node.nesting, Node.nestings] at hlimit
      have htest := decodeExpr_datum test limit h.1 (by omega)
      have hthen := decodeStmts_datum thenPart limit h.2.1 (by omega)
      have helse := decodeStmts_datum elsePart limit h.2.2 (by omega)
      rw [Stmt.datum, decodeStmt, kindOf_record]
      simp [part, parts, Node.itemsOf?, htest, hthen, helse, bind, Except.bind, Stmt.bare]
  | .loop _ test body, limit + 1, h, hlimit => by
      rw [Stmt.Built] at h
      simp only [Node.ofStmt, Node.nesting, Node.nestings] at hlimit
      have htest := decodeExpr_datum test limit h.1 (by omega)
      have hbody := decodeStmts_datum body limit h.2 (by omega)
      rw [Stmt.datum, decodeStmt, kindOf_record]
      simp [part, parts, Node.itemsOf?, htest, hbody, bind, Except.bind, Stmt.bare]
  | .print _ value, limit + 1, h, hlimit => by
      rw [Stmt.Built] at h
      simp only [Node.ofStmt, Node.nesting, Node.nestings] at hlimit
      have hvalue := decodeExpr_datum value limit h (by omega)
      rw [Stmt.datum, decodeStmt, kindOf_record]
      simp [part, hvalue, bind, Except.bind, Stmt.bare]
  | .discard _ value, limit + 1, h, hlimit => by
      rw [Stmt.Built] at h
      simp only [Node.ofStmt, Node.nesting, Node.nestings] at hlimit
      have hvalue := decodeExpr_datum value limit h (by omega)
      rw [Stmt.datum, decodeStmt, kindOf_record]
      simp [part, hvalue, bind, Except.bind, Stmt.bare]
  | .give _ value, limit + 1, h, hlimit => by
      rw [Stmt.Built] at h
      simp only [Node.ofStmt, Node.nesting, Node.nestings] at hlimit
      have hvalue := decodeExpr_datum value limit h (by omega)
      rw [Stmt.datum, decodeStmt, kindOf_record]
      simp [part, hvalue, bind, Except.bind, Stmt.bare]
  | .malformed _, _ + 1, h, _ => h.elim

theorem decodeStmts_datum {number : Float → Prop} : (ss : List Stmt) → (limit : Nat) →
    Stmt.AllBuilt number ss → Node.nestings (Node.ofStmts ss) ≤ limit →
    decodeAll (decodeStmt limit) (Stmt.allData ss) = .ok (Stmt.allBare ss)
  | [], _, _, _ => rfl
  | s :: ss, limit, h, hlimit => by
      rw [Stmt.AllBuilt] at h
      rw [Node.ofStmts, Node.nestings] at hlimit
      rw [Stmt.allData, decodeAll, decodeStmt_datum s limit h.1 (by omega),
        decodeStmts_datum ss limit h.2 (by omega)]
      rfl

end

end Codec

end Treewalk
