import Treewalk.Proofs.Evaluation.Watch

/-! # Labelled programs

Equal parts may stand at several places of a program. To tell these apart, each part can be given a
label in place of its span. What stands directly in a part has the label of the part; what stands in
one of its blocks has a label that is made of this one. A labelled program passes for the original
wherever spans do not count.
-/

namespace Treewalk

namespace Part

/-- The parts that stand directly in a part, in the same block. -/
def operands : Part → List Part
  | .expr (.binary _ _ left right) => [.expr left, .expr right]
  | .expr (.call _ _ arguments) => arguments.map .expr
  | .expr _ => []
  | .stmt (.declare _ _ value) => [.expr value]
  | .stmt (.assign _ _ value) => [.expr value]
  | .stmt (.branch _ test _ _) => [.expr test]
  | .stmt (.loop _ test _) => [.expr test]
  | .stmt (.print _ value) => [.expr value]
  | .stmt (.discard _ value) => [.expr value]
  | .stmt (.give _ value) => [.expr value]
  | .stmt (.malformed _) => []

/-- The blocks that stand directly in a part: branches, the body of a loop, the body of a
function. -/
def blocks : Part → List (List Stmt)
  | .expr (.function _ _ body) => [body]
  | .stmt (.branch _ _ thenPart elsePart) => [thenPart, elsePart]
  | .stmt (.loop _ _ body) => [body]
  | _ => []

def isFunction : Part → Bool
  | .expr (.function ..) => true
  | _ => false

end Part

/-- A span that stands for a number. -/
def Span.mark (n : Nat) : Span := ⟨{ offset := n }, { offset := n }⟩

theorem Span.mark_inj {n m : Nat} (h : Span.mark n = Span.mark m) : n = m := by
  simpa [Span.mark] using h

/-- How a label changes on the way into a block. -/
structure Labelling where
  /-- Into the body of a function literal. -/
  body : Nat → Nat
  /-- Into a branch or the body of a loop. -/
  block : Nat → Nat

/-- The label of what stands in a block of a part. -/
def Labelling.inside (labels : Labelling) (part : Part) (n : Nat) : Nat :=
  if part.isFunction then labels.body n else labels.block n

variable {labels : Labelling}

mutual

def Expr.labelled (labels : Labelling) (n : Nat) : Expr → Expr
  | .number _ value => .number (some (.mark n)) value
  | .boolean _ value => .boolean (some (.mark n)) value
  | .variable _ name => .variable (some (.mark n)) name
  | .binary _ operator left right =>
    .binary (some (.mark n)) operator (left.labelled labels n) (right.labelled labels n)
  | .function _ parameters body =>
    .function (some (.mark n)) parameters (Stmt.allLabelled labels (labels.body n) body)
  | .call _ callee arguments =>
    .call (some (.mark n)) callee (Expr.allLabelled labels n arguments)
  | .malformed reason => .malformed reason

def Expr.allLabelled (labels : Labelling) (n : Nat) : List Expr → List Expr
  | [] => []
  | e :: rest => e.labelled labels n :: Expr.allLabelled labels n rest

def Stmt.labelled (labels : Labelling) (n : Nat) : Stmt → Stmt
  | .declare _ name value => .declare (some (.mark n)) name (value.labelled labels n)
  | .assign _ name value => .assign (some (.mark n)) name (value.labelled labels n)
  | .branch _ test thenPart elsePart =>
    .branch (some (.mark n)) (test.labelled labels n)
      (Stmt.allLabelled labels (labels.block n) thenPart)
      (Stmt.allLabelled labels (labels.block n) elsePart)
  | .loop _ test body =>
    .loop (some (.mark n)) (test.labelled labels n) (Stmt.allLabelled labels (labels.block n) body)
  | .print _ value => .print (some (.mark n)) (value.labelled labels n)
  | .discard _ value => .discard (some (.mark n)) (value.labelled labels n)
  | .give _ value => .give (some (.mark n)) (value.labelled labels n)
  | .malformed reason => .malformed reason

def Stmt.allLabelled (labels : Labelling) (n : Nat) : List Stmt → List Stmt
  | [] => []
  | stmt :: rest => stmt.labelled labels n :: Stmt.allLabelled labels n rest

end

def Part.labelled (labels : Labelling) (n : Nat) : Part → Part
  | .expr e => .expr (e.labelled labels n)
  | .stmt s => .stmt (s.labelled labels n)

/-- Numbers pass for themselves, and spans do not count. -/
structure Likeness.SpanBlind (like : Likeness) : Prop where
  number : ∀ x, like.number x x
  span : ∀ a b, like.span a b

theorem Likeness.text_spanBlind : text.SpanBlind := ⟨fun _ => rfl, fun _ _ => trivial⟩

mutual

/-- Labels change nothing in an expression but spans. -/
theorem Expr.alike_labelled {like : Likeness} (hlike : like.SpanBlind) (n : Nat) :
    ∀ e : Expr, Expr.Alike like e (e.labelled labels n)
  | .number _ x => .number (hlike.span _ _) (hlike.number x)
  | .boolean _ _ => .boolean (hlike.span _ _)
  | .variable _ _ => .variable (hlike.span _ _)
  | .binary _ _ left right =>
    .binary (hlike.span _ _) (left.alike_labelled hlike n) (right.alike_labelled hlike n)
  | .function _ _ body => .function (hlike.span _ _) (Stmt.allAlike_labelled hlike _ body)
  | .call _ _ arguments => .call (hlike.span _ _) (Expr.allAlike_labelled hlike n arguments)
  | .malformed _ => .malformed

theorem Expr.allAlike_labelled {like : Likeness} (hlike : like.SpanBlind) (n : Nat) :
    ∀ es : List Expr, Expr.AllAlike like es (Expr.allLabelled labels n es)
  | [] => .nil
  | e :: rest => .cons (e.alike_labelled hlike n) (Expr.allAlike_labelled hlike n rest)

theorem Stmt.alike_labelled {like : Likeness} (hlike : like.SpanBlind) (n : Nat) :
    ∀ stmt : Stmt, Stmt.Alike like stmt (stmt.labelled labels n)
  | .declare _ _ value => .declare (hlike.span _ _) (value.alike_labelled hlike n)
  | .assign _ _ value => .assign (hlike.span _ _) (value.alike_labelled hlike n)
  | .branch _ test thenPart elsePart =>
    .branch (hlike.span _ _) (test.alike_labelled hlike n)
      (Stmt.allAlike_labelled hlike _ thenPart) (Stmt.allAlike_labelled hlike _ elsePart)
  | .loop _ test body =>
    .loop (hlike.span _ _) (test.alike_labelled hlike n) (Stmt.allAlike_labelled hlike _ body)
  | .print _ value => .print (hlike.span _ _) (value.alike_labelled hlike n)
  | .discard _ value => .discard (hlike.span _ _) (value.alike_labelled hlike n)
  | .give _ value => .give (hlike.span _ _) (value.alike_labelled hlike n)
  | .malformed _ => .malformed

/-- Labels change nothing but spans. -/
theorem Stmt.allAlike_labelled {like : Likeness} (hlike : like.SpanBlind) (n : Nat) :
    ∀ stmts : List Stmt, Stmt.AllAlike like stmts (Stmt.allLabelled labels n stmts)
  | [] => .nil
  | stmt :: rest => .cons (stmt.alike_labelled hlike n) (Stmt.allAlike_labelled hlike n rest)

end

theorem Expr.allLabelled_eq_map (n : Nat) (es : List Expr) :
    Expr.allLabelled labels n es = es.map (·.labelled labels n) := by
  induction es with
  | nil => rfl
  | cons e rest ih => rw [Expr.allLabelled, List.map_cons, ih]

theorem Stmt.allLabelled_eq_map (n : Nat) (stmts : List Stmt) :
    Stmt.allLabelled labels n stmts = stmts.map (·.labelled labels n) := by
  induction stmts with
  | nil => rfl
  | cons stmt rest ih => rw [Stmt.allLabelled, List.map_cons, ih]

theorem Stmt.exists_of_mem_labelled {n : Nat} {stmts : List Stmt} {stmt : Stmt}
    (h : stmt ∈ Stmt.allLabelled labels n stmts) :
    ∃ original : Part, .stmt stmt = original.labelled labels n := by
  rw [Stmt.allLabelled_eq_map] at h
  obtain ⟨original, _, rfl⟩ := List.mem_map.mp h
  exact ⟨.stmt original, rfl⟩

namespace Part

/-- In a function literal nothing stands directly, but only in its body. -/
theorem isFunction_of_operand {part inner : Part} (h : inner ∈ part.operands) :
    part.isFunction = false := by
  cases part with
  | expr e =>
      cases e with
      | function span parameters body => cases h
      | _ => rfl
  | stmt s => rfl

theorem isFunction_labelled (n : Nat) (part : Part) :
    (part.labelled labels n).isFunction = part.isFunction := by
  cases part with
  | expr e => cases e <;> rfl
  | stmt s => rfl

theorem operands_labelled (n : Nat) (part : Part) :
    (part.labelled labels n).operands = part.operands.map (·.labelled labels n) := by
  cases part with
  | expr e =>
      cases e with
      | call span callee arguments =>
          simp only [labelled, Expr.labelled, operands, Expr.allLabelled_eq_map, List.map_map]
          rfl
      | _ => rfl
  | stmt s => cases s <;> rfl

/-- Blocks are labelled as the labelling says for this kind of part. -/
theorem blocks_labelled (n : Nat) (part : Part) :
    (part.labelled labels n).blocks =
      part.blocks.map (Stmt.allLabelled labels (labels.inside part n)) := by
  cases part with
  | expr e => cases e <;> rfl
  | stmt s => cases s <;> rfl

/-- What stands directly in a labelled part has the label of the part. -/
theorem exists_of_mem_operands_labelled {n : Nat} {part inner : Part}
    (h : inner ∈ (part.labelled labels n).operands) :
    ∃ original : Part, inner = original.labelled labels n := by
  rw [operands_labelled] at h
  obtain ⟨original, _, rfl⟩ := List.mem_map.mp h
  exact ⟨original, rfl⟩

/-- What stands in a block of a labelled part has the label that the part gives to its blocks. -/
theorem exists_of_mem_blocks_labelled {n : Nat} {part : Part} {block : List Stmt} {stmt : Stmt}
    (hblock : block ∈ (part.labelled labels n).blocks) (hstmt : stmt ∈ block) :
    ∃ original : Part, .stmt stmt = original.labelled labels (labels.inside part n) := by
  rw [blocks_labelled] at hblock
  obtain ⟨block, _, rfl⟩ := List.mem_map.mp hblock
  exact Stmt.exists_of_mem_labelled hstmt

/-- The label of a part can be read off its span. -/
theorem span?_labelled (n : Nat) (part : Part) (hspan : (part.labelled labels n).span?.isSome) :
    (part.labelled labels n).span? = some (.mark n) := by
  cases part with
  | expr e =>
      cases e with
      | malformed reason => cases hspan
      | _ => rfl
  | stmt s =>
      cases s with
      | malformed reason => cases hspan
      | _ => rfl

/-- A part with a span has one label only. -/
theorem label_unique {n m : Nat} {part a b : Part} (hspan : part.span?.isSome)
    (ha : part = a.labelled labels n) (hb : part = b.labelled labels m) : n = m := by
  have hn := a.span?_labelled n (ha ▸ hspan)
  have hm := b.span?_labelled m (hb ▸ hspan)
  rw [← ha] at hn
  rw [← hb] at hm
  exact Span.mark_inj (Option.some.inj (hn.symm.trans hm))

end Part

end Treewalk
