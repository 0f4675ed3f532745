import Treewalk.Proofs.Program.RoundTrip

/-! # The schema of programs as data

Decoding follows a table: each kind of node has parts that are looked at one after the other, and
the first part that is not in order ends it. Unknown kinds and operators are obstacles that have an
error of their own, which names the tag. They are placed by rules that do not mention decoding, and
decoding is shown to end at the obstacle that the rules give, however deep it is.

Lists and dictionaries in the place of an operator are the exception. They cannot be looked up, and
end decoding without naming the tag.
-/

namespace Treewalk

namespace Codec

/-! ## Kinds and their parts -/

/-- What a datum is decoded as. -/
inductive Position where
  | expression | statement
  deriving DecidableEq, Repr

inductive Field where
  /-- A part that has to be there. -/
  | part (key : String)
  /-- A part that has to stand for a number. -/
  | number (key : String)
  /-- The operator. -/
  | operator
  /-- A part that has items, or is missing. -/
  | names (key : String)
  /-- A part that is a node. -/
  | node (position : Position) (key : String)
  /-- A part whose items are nodes, or that is missing. -/
  | nodes (position : Position) (key : String)

/-- The kinds of nodes in a position, and what is looked at in them, in this order. -/
def kinds : Position → List (String × List Field)
  | .expression =>
    [ ("number", [.number "value"]),
      ("boolean", [.part "value"]),
      ("variable", [.part "name"]),
      ("operator", [.operator, .node .expression "left", .node .expression "right"]),
      ("function", [.names "parameters", .nodes .statement "body"]),
      ("call", [.part "callee", .nodes .expression "arguments"]) ]
  | .statement =>
    [ ("let", [.part "name", .node .expression "expression"]),
      ("assignment", [.part "name", .node .expression "expression"]),
      ("if", [.node .expression "test", .nodes .statement "truePart",
        .nodes .statement "falsePart"]),
      ("while", [.node .expression "test", .nodes .statement "body"]),
      ("print", [.node .expression "expression"]),
      ("expression", [.node .expression "expression"]),
      ("return", [.node .expression "expression"]) ]

/-- The kind that a datum has is not known in a position. -/
def UnknownIn (position : Position) (d : Datum) : Prop :=
  ∀ known ∈ kinds position, d.get? "kind" ≠ some (.text known.1)

/-! ## Where decoding stops -/

/-- What decoding looks at: a datum in a position, or a part of a node. -/
inductive Site where
  | node (position : Position) (d : Datum)
  | field (d : Datum) (field : Field)

/-- A tag that decoding cannot go on from. -/
inductive Obstacle where
  /-- A kind that is not known in a position. -/
  | kind (position : Position) (given : Datum)
  /-- Something that is no operator in the place of one. -/
  | operator (given : Datum)

/-- Everything that is looked at is in order. -/
inductive Passes : Site → Prop
  | node {position : Position} {d : Datum} {kind : String} {fields : List Field}
      (hkind : d.get? "kind" = some (.text kind)) (hfields : (kind, fields) ∈ kinds position)
      (hpass : ∀ field ∈ fields, Passes (.field d field)) : Passes (.node position d)
  | part {d value : Datum} {key : String} (hpart : d.get? key = some value) :
      Passes (.field d (.part key))
  | number {d value : Datum} {key : String} {x : Float} (hpart : d.get? key = some value)
      (hnumber : numberOf value = .ok x) : Passes (.field d (.number key))
  | operator {d : Datum} {o : Operator} (hpart : d.get? "operator" = some (.text o.spelling)) :
      Passes (.field d .operator)
  | names {d : Datum} {key : String} {items : List Datum} (hitems : parts d key = .ok items) :
      Passes (.field d (.names key))
  | child {position : Position} {d value : Datum} {key : String}
      (hpart : d.get? key = some value) (hpass : Passes (.node position value)) :
      Passes (.field d (.node position key))
  | children {position : Position} {d : Datum} {key : String} {items : List Datum}
      (hitems : parts d key = .ok items) (hpass : ∀ item ∈ items, Passes (.node position item)) :
      Passes (.field d (.nodes position key))

/-- The first thing that is not in order is an obstacle. -/
inductive Stops : Site → Obstacle → Prop
  | foreign {position : Position} {d : Datum} (hforeign : ∀ entries, d ≠ .dict entries) :
      Stops (.node position d) (.kind position (.text d.typeName))
  | unknown {position : Position} {entries : List (Datum × Datum)}
      (hunknown : UnknownIn position (.dict entries)) :
      Stops (.node position (.dict entries))
        (.kind position (((Datum.dict entries).get? "kind").getD .null))
  | operator {d : Datum} (hpart : ∀ o : Operator, d.get? "operator" ≠ some (.text o.spelling)) :
      Stops (.field d .operator) (.operator ((d.get? "operator").getD .null))
  | inside {position : Position} {d : Datum} {kind : String} {before after : List Field}
      {field : Field} {o : Obstacle} (hkind : d.get? "kind" = some (.text kind))
      (hfields : (kind, before ++ field :: after) ∈ kinds position)
      (hpass : ∀ earlier ∈ before, Passes (.field d earlier)) (hstop : Stops (.field d field) o) :
      Stops (.node position d) o
  | child {position : Position} {d value : Datum} {key : String} {o : Obstacle}
      (hpart : d.get? key = some value) (hstop : Stops (.node position value) o) :
      Stops (.field d (.node position key)) o
  | children {position : Position} {d item : Datum} {key : String} {before after : List Datum}
      {o : Obstacle} (hitems : parts d key = .ok (before ++ item :: after))
      (hpass : ∀ earlier ∈ before, Passes (.node position earlier))
      (hstop : Stops (.node position item) o) : Stops (.field d (.nodes position key)) o

/-! ## What is said about an obstacle -/

def Position.text : Position → String
  | .expression => "expression"
  | .statement => "statement"

def Position.code : Position → String
  | .expression => "E201"
  | .statement => "E202"

namespace Obstacle

def position : Obstacle → Position
  | .kind position _ => position
  | .operator _ => .expression

def text : Obstacle → String
  | .kind _ given => given.plain
  | .operator given => "operator " ++ given.plain

def report : Obstacle → RuntimeError
  | .kind .expression given => .unknownExpression given
  | .kind .statement given => .unknownStatement given
  | .operator given => .unknownExpression (.text ("operator " ++ given.plain))

/-- A list or a dictionary in the place of an operator, which cannot be looked up. -/
def keyless : Obstacle → Bool
  | .operator (.list _) | .operator (.dict _) => true
  | _ => false

def failure (o : Obstacle) : CodecError :=
  if o.keyless then .malformed .notAKey else .error o.report

/-- An error tells the position and the tag of an obstacle. -/
structure NamedBy (o : Obstacle) (e : RuntimeError) : Prop where
  code : e.code = o.position.code
  message : e.message = "unknown " ++ o.position.text ++ ": " ++ o.text

/-- The report of an obstacle tells its position and its tag. -/
theorem namedBy_report (o : Obstacle) : o.NamedBy o.report := by
  cases o with
  | kind position given => cases position <;> exact ⟨rfl, rfl⟩
  | operator given => exact ⟨rfl, rfl⟩

/-- An obstacle is reported as an error unless its tag cannot be looked up. -/
theorem failure_eq_report_iff {o : Obstacle} : o.failure = .error o.report ↔ o.keyless = false := by
  unfold failure
  cases o.keyless <;> simp

theorem report_of_failure {o : Obstacle} {e : RuntimeError} (h : o.failure = .error e) :
    o.report = e := by
  unfold failure at h
  cases hkeyless : o.keyless <;> simp_all

end Obstacle

/-! ## Decoding by the schema -/

/-- Forgets a result, but not a failure. -/
def outcome {α : Type} (result : Except CodecError α) : Except CodecError Unit :=
  result.map fun _ => ()

def check (position : Position) (limit : Nat) (d : Datum) : Except CodecError Unit :=
  match position with
  | .expression => outcome (Expr.ofDatum d limit)
  | .statement => outcome (Stmt.ofDatum d limit)

/-- Goes from left to right up to the first failure. -/
def checkAll {α : Type} (check : α → Except CodecError Unit) : List α → Except CodecError Unit
  | [] => .ok ()
  | a :: rest => check a >>= fun _ => checkAll check rest

def checkField (limit : Nat) (d : Datum) : Field → Except CodecError Unit
  | .part key => outcome (part d key)
  | .number key => part d key >>= fun value => outcome (numberOf value)
  | .operator => outcome (operatorOf d)
  | .names key => outcome (parts d key)
  | .node position key => part d key >>= check position limit
  | .nodes position key => parts d key >>= checkAll (check position limit)

variable {α β : Type} {position : Position} {limit : Nat} {d value : Datum} {kind key : String}
  {fields : List Field}

@[simp] theorem outcome_ok (a : α) : outcome (.ok a) = .ok () := rfl

/-- Forgetting the result of two steps forgets that of the second. -/
theorem outcome_bind (x : Except CodecError α) (f : α → Except CodecError β) :
    outcome (x >>= f) = x >>= fun a => outcome (f a) := by
  cases x <;> rfl

theorem outcome_then (x : Except CodecError α) (f : Unit → Except CodecError β) :
    outcome x >>= f = x >>= fun _ => f () := by
  cases x <;> rfl

theorem exists_ok_of_bind {x : Except CodecError α} {f : α → Except CodecError β} {b : β}
    (h : x >>= f = .ok b) : ∃ a, x = .ok a ∧ f a = .ok b := by
  cases x with
  | error e => cases h
  | ok a => exact ⟨a, rfl, h⟩

theorem error_or_of_bind {x : Except CodecError α} {f : α → Except CodecError β} {e : CodecError}
    (h : x >>= f = .error e) : x = .error e ∨ ∃ a, x = .ok a ∧ f a = .error e := by
  cases x with
  | error e' => cases h; exact .inl rfl
  | ok a => exact .inr ⟨a, rfl, h⟩

theorem exists_ok_of_outcome {x : Except CodecError α} (h : outcome x = .ok ()) :
    ∃ a, x = .ok a := by
  cases x with
  | error e => cases h
  | ok a => exact ⟨a, rfl⟩

theorem error_of_outcome {x : Except CodecError α} {e : CodecError} (h : outcome x = .error e) :
    x = .error e := by
  cases x with
  | error e' => cases h; rfl
  | ok a => cases h

/-- Items are decoded as they are checked, one after the other. -/
theorem outcome_decodeAll (decode : Datum → Except CodecError α) (items : List Datum) :
    outcome (decodeAll decode items) = checkAll (fun item => outcome (decode item)) items := by
  induction items with
  | nil => rfl
  | cons item items ih =>
      rw [decodeAll, checkAll, ← ih]
      cases decode item with
      | error e => rfl
      | ok a => cases decodeAll decode items <;> rfl

theorem checkAll_eq_ok {f : α → Except CodecError Unit} {items : List α}
    (h : checkAll f items = .ok ()) : ∀ a ∈ items, f a = .ok () := by
  induction items with
  | nil => exact List.forall_mem_nil _
  | cons a items ih =>
      rw [checkAll] at h
      cases hfirst : f a with
      | error e => rw [hfirst] at h; cases h
      | ok u =>
          rw [hfirst] at h
          exact List.forall_mem_cons.mpr ⟨hfirst, ih h⟩

/-- The first failure among items comes after items that are in order. -/
theorem checkAll_eq_error {f : α → Except CodecError Unit} {items : List α} {e : CodecError}
    (h : checkAll f items = .error e) :
    ∃ before a after, items = before ++ a :: after ∧ (∀ b ∈ before, f b = .ok ()) ∧
      f a = .error e := by
  induction items with
  | nil => cases h
  | cons a items ih =>
      rw [checkAll] at h
      cases hfirst : f a with
      | error e' =>
          rw [hfirst] at h
          cases h
          exact ⟨[], a, items, rfl, List.forall_mem_nil _, hfirst⟩
      | ok u =>
          rw [hfirst] at h
          obtain ⟨before, b, after, rfl, hbefore, hb⟩ := ih h
          exact ⟨a :: before, b, after, rfl, List.forall_mem_cons.mpr ⟨hfirst, hbefore⟩, hb⟩

theorem checkAll_expression (limit : Nat) (items : List Datum) :
    checkAll (check .expression limit) items = outcome (decodeAll (decodeExpr limit) items) :=
  (outcome_decodeAll (decodeExpr limit) items).symm

theorem checkAll_statement (limit : Nat) (items : List Datum) :
    checkAll (check .statement limit) items = outcome (decodeAll (decodeStmt limit) items) :=
  (outcome_decodeAll (decodeStmt limit) items).symm

theorem part_of_get? (hpart : d.get? key = some value) : part d key = .ok value := by
  rw [part, hpart]

theorem get?_of_part (h : part d key = .ok value) : d.get? key = some value := by
  unfold part at h
  cases hget : d.get? key with
  | none => rw [hget] at h; cases h
  | some found => rw [hget] at h; cases h; rfl

/-- A missing part is no error of the language. -/
theorem part_ne_error (d : Datum) (key : String) (e : RuntimeError) :
    part d key ≠ .error (.error e) := by
  unfold part
  split <;> simp

theorem parts_ne_error (d : Datum) (key : String) (e : RuntimeError) :
    parts d key ≠ .error (.error e) := by
  unfold parts
  split
  · simp
  · split <;> simp

theorem numberOf_ne_error (d : Datum) (e : RuntimeError) : numberOf d ≠ .error (.error e) := by
  unfold numberOf
  split
  any_goals simp
  cases Node.toNumber (.datum d) <;> simp [Except.mapError]

theorem check_zero (position : Position) (d : Datum) : check position 0 d = .error .tooDeep := by
  cases position <;> rfl

theorem kindOf_of_get? (hkind : d.get? "kind" = some (.text kind)) : kindOf d = .text kind := by
  cases d with
  | dict entries => rw [kindOf, hkind]; rfl
  | _ => cases hkind

/-- Decoding a node of a known kind is looking at its parts. -/
theorem check_of_kind (hkind : d.get? "kind" = some (.text kind))
    (hfields : (kind, fields) ∈ kinds position) :
    check position (limit + 1) d = checkAll (checkField limit d) fields := by
  cases position with
  | expression =>
      simp only [kinds, List.mem_cons, Prod.mk.injEq, List.not_mem_nil, or_false] at hfields
      unfold check Expr.ofDatum
      rw [decodeExpr, kindOf_of_get? hkind]
      rcases hfields with ⟨rfl, rfl⟩ | ⟨rfl, rfl⟩ | ⟨rfl, rfl⟩ | ⟨rfl, rfl⟩ | ⟨rfl, rfl⟩ |
        ⟨rfl, rfl⟩ <;>
      simp only [checkAll, checkField, check, Expr.ofDatum, outcome_bind, outcome_then, bind_assoc,
        checkAll_expression, checkAll_statement, outcome_ok]
  | statement =>
      simp only [kinds, List.mem_cons, Prod.mk.injEq, List.not_mem_nil, or_false] at hfields
      unfold check Stmt.ofDatum
      rw [decodeStmt, kindOf_of_get? hkind]
      rcases hfields with ⟨rfl, rfl⟩ | ⟨rfl, rfl⟩ | ⟨rfl, rfl⟩ | ⟨rfl, rfl⟩ | ⟨rfl, rfl⟩ |
        ⟨rfl, rfl⟩ | ⟨rfl, rfl⟩ <;>
      simp only [checkAll, checkField, check, Expr.ofDatum, outcome_bind, outcome_then, bind_assoc,
        checkAll_statement, outcome_ok]

def Site.check (limit : Nat) : Site → Except CodecError Unit
  | .node position d => Codec.check position limit d
  | .field d part => checkField limit d part

/-! ## Unknown kinds and operators -/

/-- A datum has a kind that its position knows, or its kind is not known there. -/
theorem exists_kind_or_unknown (position : Position) (d : Datum) :
    (∃ kind fields, d.get? "kind" = some (.text kind) ∧ (kind, fields) ∈ kinds position) ∨
      UnknownIn position d := by
  by_cases h : ∃ known ∈ kinds position, d.get? "kind" = some (.text known.1)
  · obtain ⟨known, hknown, hkind⟩ := h
    exact .inl ⟨known.1, known.2, hkind, hknown⟩
  · exact .inr fun known hknown hkind => h ⟨known, hknown, hkind⟩

theorem kindOf_of_foreign (hforeign : ∀ entries, d ≠ .dict entries) :
    kindOf d = .text d.typeName := by
  cases d with
  | dict entries => exact absurd rfl (hforeign entries)
  | _ => rfl

theorem unknownIn_of_foreign (hforeign : ∀ entries, d ≠ .dict entries) : UnknownIn position d := by
  intro known _
  cases d with
  | dict entries => exact absurd rfl (hforeign entries)
  | _ => rintro ⟨⟩

theorem kindOf_ne_known (hunknown : UnknownIn position d) :
    ∀ known ∈ kinds position, kindOf d ≠ .text known.1 := by
  intro known hknown hkind
  cases d with
  | dict entries =>
      rw [kindOf] at hkind
      cases hget : (Datum.dict entries).get? "kind" with
      | none => rw [hget] at hkind; cases hkind
      | some given =>
          rw [hget, Option.getD_some] at hkind
          exact hunknown known hknown (by rw [hget, hkind])
  | _ =>
      -- no kind is the word for a type of data
      simp only [kindOf, Datum.typeName, Datum.text.injEq] at hkind
      revert known
      cases position <;> decide

/-- What is not known in a position is an obstacle by its kind. -/
theorem check_of_unknown (hunknown : UnknownIn position d) :
    check position (limit + 1) d = .error (Obstacle.kind position (kindOf d)).failure := by
  have hkind := kindOf_ne_known hunknown
  cases position with
  | expression =>
      simp only [kinds, List.forall_mem_cons] at hkind
      obtain ⟨_, _, _, _, _, _, _⟩ := hkind
      unfold check Expr.ofDatum decodeExpr
      dsimp only
      split
      any_goals contradiction
      rfl
  | statement =>
      simp only [kinds, List.forall_mem_cons] at hkind
      obtain ⟨_, _, _, _, _, _, _, _⟩ := hkind
      unfold check Stmt.ofDatum decodeStmt
      dsimp only
      split
      any_goals contradiction
      rfl

theorem stops_of_unknown (hunknown : UnknownIn position d) :
    Stops (.node position d) (.kind position (kindOf d)) := by
  cases d with
  | dict entries => exact .unknown hunknown
  | _ => exact .foreign (by simp)

theorem operatorOf_of_spelling {o : Operator}
    (hpart : d.get? "operator" = some (.text o.spelling)) : operatorOf d = .ok o := by
  simp [operatorOf, hpart, Datum.key?, ofSpelling?_spelling]

theorem spelling_of_ofSpelling? {s : String} {o : Operator} (h : Operator.ofSpelling? s = some o) :
    o.spelling = s := by
  simpa using List.find?_some h

/-- What spells no operator is an obstacle by its spelling. -/
theorem operatorOf_of_unknown
    (hpart : ∀ o : Operator, d.get? "operator" ≠ some (.text o.spelling)) :
    operatorOf d = .error (Obstacle.operator ((d.get? "operator").getD .null)).failure := by
  unfold operatorOf
  cases hget : d.get? "operator" with
  | none => rfl
  | some given =>
      cases given with
      | text s =>
          have hspelling : Operator.ofSpelling? s = none := by
            cases hs : Operator.ofSpelling? s with
            | none => rfl
            | some o => exact absurd (by rw [hget, spelling_of_ofSpelling? hs]) (hpart o)
          simp [Datum.key?, hspelling, Obstacle.failure, Obstacle.keyless, Obstacle.report]
      | float x =>
          cases hint : Number.toInt? x <;>
          simp [Datum.key?, hint, Obstacle.failure, Obstacle.keyless, Obstacle.report]
      | _ => rfl

/-- An operator node that is decoded has the spelling of an operator. -/
theorem exists_spelling_of_operatorOf {o : Operator} (h : operatorOf d = .ok o) :
    ∃ o : Operator, d.get? "operator" = some (.text o.spelling) := by
  by_contra hnone
  rw [operatorOf_of_unknown fun o ho => hnone ⟨o, ho⟩] at h
  cases h

/-! ## Nesting -/

/-- A check is cut off below some depth, which is within certain bounds, and ends in a result from
there on. -/
def Settles (Bound : Nat → Prop) (run : Nat → Except CodecError Unit)
    (result : Except CodecError Unit) : Prop :=
  ∃ depth, (∀ bound, Bound bound → depth ≤ bound) ∧
    ∀ limit, run limit = if depth ≤ limit then result else .error .tooDeep

namespace Settles

variable {Bound Closer : Nat → Prop} {run next : Nat → Except CodecError Unit}
  {result : Except CodecError Unit} {e : CodecError} {f : Nat → α → Except CodecError Unit}
  {items before after : List α} {a : α}

theorem const (Bound : Nat → Prop) (result : Except CodecError Unit) :
    Settles Bound (fun _ => result) result :=
  ⟨0, fun _ _ => Nat.zero_le _, fun limit => by rw [if_pos (Nat.zero_le limit)]⟩

/-- A check that settles within wide bounds settles within closer ones. -/
theorem mono (h : Settles Bound run result) (hle : ∀ bound, Closer bound → Bound bound) :
    Settles Closer run result := by
  obtain ⟨depth, hdepth, hrun⟩ := h
  exact ⟨depth, fun bound hbound => hdepth bound (hle bound hbound), hrun⟩

theorem andThen (h : Settles Bound run (.ok ())) (hnext : Settles Bound next result) :
    Settles Bound (fun limit => run limit >>= fun _ => next limit) result := by
  obtain ⟨depth, hdepth, hrun⟩ := h
  obtain ⟨depth', hdepth', hnext⟩ := hnext
  refine ⟨max depth depth', fun bound hbound =>
    Nat.max_le.mpr ⟨hdepth bound hbound, hdepth' bound hbound⟩, fun limit => ?_⟩
  simp only [hrun, hnext]
  by_cases hle : depth ≤ limit
  · simp only [hle, if_true, Nat.max_le, true_and]
    rfl
  · simp only [hle, if_false, Nat.max_le, false_and]
    rfl

theorem stop (h : Settles Bound run (.error e)) (next : Nat → Except CodecError Unit) :
    Settles Bound (fun limit => run limit >>= fun _ => next limit) (.error e) := by
  obtain ⟨depth, hdepth, hrun⟩ := h
  refine ⟨depth, hdepth, fun limit => ?_⟩
  simp only [hrun]
  split <;> rfl

theorem checkAll (h : ∀ a ∈ items, Settles Bound (f · a) (.ok ())) :
    Settles Bound (fun limit => Codec.checkAll (f limit) items) (.ok ()) := by
  induction items with
  | nil => exact const Bound _
  | cons a items ih =>
      obtain ⟨hfirst, hothers⟩ := List.forall_mem_cons.mp h
      exact hfirst.andThen (ih hothers)

/-- Checks settle at the first item that fails. -/
theorem checkAll_stop (hbefore : ∀ a ∈ before, Settles Bound (f · a) (.ok ()))
    (h : Settles Bound (f · a) (.error e)) :
    Settles Bound (fun limit => Codec.checkAll (f limit) (before ++ a :: after)) (.error e) := by
  induction before with
  | nil => exact h.stop fun limit => Codec.checkAll (f limit) after
  | cons b before ih =>
      obtain ⟨hfirst, hothers⟩ := List.forall_mem_cons.mp hbefore
      exact hfirst.andThen (ih hothers)

/-- One more level. -/
theorem deeper (h : Settles (fun bound => Bound (bound + 1)) run result) (hzero : ¬ Bound 0)
    (hcut : next 0 = .error .tooDeep) (hstep : ∀ limit, next (limit + 1) = run limit) :
    Settles Bound next result := by
  obtain ⟨depth, hdepth, hrun⟩ := h
  refine ⟨depth + 1, fun bound hbound => ?_, fun limit => ?_⟩
  · cases bound with
    | zero => exact absurd hbound hzero
    | succ bound => exact Nat.succ_le_succ (hdepth bound hbound)
  · cases limit with
    | zero => rw [hcut, if_neg (Nat.not_succ_le_zero depth)]
    | succ limit => simp only [hstep, hrun, Nat.succ_le_succ_iff]

end Settles

/-- The nesting of what is looked at is within a bound. -/
def Site.Fits (bound : Nat) : Site → Prop
  | .node _ d => d.Fits bound
  | .field d _ => d.Fits (bound + 1)

/-- Looking at a site ends in a result, unless the limit is too small for it. -/
def Site.EndsIn (site : Site) (result : Except CodecError Unit) : Prop :=
  Settles (site.Fits ·) (site.check ·) result

theorem not_fits_zero (d : Datum) : ¬ d.Fits 0 :=
  fun h => absurd h.2 (Nat.not_le.mpr d.depth_pos)

theorem fits_of_mem_entries {entries : List (Datum × Datum)} {bound : Nat}
    (hkeyed : Datum.EntriesKeyed entries) (hdepth : Datum.entryDepths entries ≤ bound) :
    ∀ entry ∈ entries, entry.2.Fits bound := by
  induction entries with
  | nil => exact List.forall_mem_nil _
  | cons entry entries ih =>
      rw [Datum.EntriesKeyed] at hkeyed
      rw [Datum.entryDepths, Nat.max_le] at hdepth
      exact List.forall_mem_cons.mpr ⟨⟨hkeyed.1, hdepth.1⟩, ih hkeyed.2 hdepth.2⟩

theorem fits_of_mem_items {items : List Datum} {bound : Nat}
    (hkeyed : Datum.AllKeyed items) (hdepth : Datum.depths items ≤ bound) :
    ∀ item ∈ items, item.Fits bound := by
  induction items with
  | nil => exact List.forall_mem_nil _
  | cons item items ih =>
      rw [Datum.AllKeyed] at hkeyed
      rw [Datum.depths, Nat.max_le] at hdepth
      exact List.forall_mem_cons.mpr ⟨⟨hkeyed.1, hdepth.1⟩, ih hkeyed.2 hdepth.2⟩

/-- A value in a datum nests less deeply than the datum. -/
theorem fits_of_get? {bound : Nat} (h : d.Fits (bound + 1))
    (hget : d.get? key = some value) : value.Fits bound := by
  cases d with
  | dict entries =>
      obtain ⟨entry, hfind, rfl⟩ := Option.map_eq_some_iff.mp hget
      have hdepth : Datum.entryDepths entries ≤ bound := Nat.succ_le_succ_iff.mp h.2
      exact fits_of_mem_entries h.1.2 hdepth entry (List.mem_of_find?_eq_some hfind)
  | _ => cases hget

theorem fits_of_itemsOf? {items : List Datum} {bound : Nat} (h : d.Fits bound)
    (hitems : Node.itemsOf? d = some items) : ∀ item ∈ items, item.Fits bound := by
  cases bound with
  | zero => exact absurd h (not_fits_zero d)
  | succ bound =>
      cases d with
      | list items =>
          cases hitems
          intro item hitem
          exact (fits_of_mem_items h.1 (Nat.succ_le_succ_iff.mp h.2) item hitem).mono
            (Nat.le_succ bound)
      | dict entries =>
          obtain ⟨⟨texts, rfl, -⟩, -⟩ := h.1
          cases hitems
          simp only [textEntries, List.map_map, List.forall_mem_map]
          exact fun entry _ => Datum.fits_text bound entry.1
      | text s =>
          cases hitems
          exact List.forall_mem_map.mpr fun c _ => Datum.fits_text bound _
      | _ => cases hitems

theorem fits_of_parts {items : List Datum} {bound : Nat} (h : d.Fits (bound + 1))
    (hitems : parts d key = .ok items) : ∀ item ∈ items, item.Fits bound := by
  unfold parts at hitems
  cases hget : d.get? key with
  | none =>
      rw [hget] at hitems
      cases hitems
      exact List.forall_mem_nil _
  | some value =>
      rw [hget] at hitems
      cases hvalue : Node.itemsOf? value with
      | none => simp [hvalue] at hitems
      | some found =>
          simp only [hvalue, Except.ok.injEq] at hitems
          exact hitems ▸ fits_of_itemsOf? (fits_of_get? h hget) hvalue

/-! ## Decoding meets the first obstacle -/

variable {items : List Datum} {result : Except CodecError Unit} {site : Site} {o : Obstacle}

/-- A node ends as the checks of its fields do, one level further in. -/
theorem endsIn_node (hkind : d.get? "kind" = some (.text kind))
    (hfields : (kind, fields) ∈ kinds position)
    (h : Settles (fun bound => d.Fits (bound + 1))
      (fun limit => checkAll (checkField limit d) fields) result) :
    (Site.node position d).EndsIn result :=
  h.deeper (not_fits_zero d) (check_zero position d) fun _ => check_of_kind hkind hfields

theorem endsIn_unknown (hunknown : UnknownIn position d) :
    (Site.node position d).EndsIn (.error (Obstacle.kind position (kindOf d)).failure) :=
  (Settles.const _ _).deeper (not_fits_zero d) (check_zero position d) fun _ =>
    check_of_unknown hunknown

theorem endsIn_const {field : Field} (h : ∀ limit, checkField limit d field = result) :
    (Site.field d field).EndsIn result := by
  have hcheck : (Site.check · (.field d field)) = fun _ => result := funext h
  rw [Site.EndsIn, hcheck]
  exact Settles.const _ _

/-- A field that holds a node ends as the node does. -/
theorem endsIn_child (hpart : d.get? key = some value)
    (h : (Site.node position value).EndsIn result) :
    (Site.field d (.node position key)).EndsIn result := by
  have hcheck : (Site.check · (.field d (.node position key))) =
      (Site.check · (.node position value)) := by
    funext limit
    simp only [Site.check, checkField, part_of_get? hpart]
    rfl
  rw [Site.EndsIn, hcheck]
  exact h.mono fun _ hfits => fits_of_get? hfits hpart

/-- A field that holds a list ends as its items do, in order. -/
theorem endsIn_children (hitems : parts d key = .ok items)
    (h : Settles (fun bound => ∀ item ∈ items, item.Fits bound)
      (fun limit => checkAll (check position limit) items) result) :
    (Site.field d (.nodes position key)).EndsIn result := by
  have hcheck : (Site.check · (.field d (.nodes position key))) =
      fun limit => checkAll (check position limit) items := by
    funext limit
    simp only [Site.check, checkField, hitems]
    rfl
  rw [Site.EndsIn, hcheck]
  exact h.mono fun _ hfits => fits_of_parts hfits hitems

/-- What is in order is decoded. -/
theorem Passes.endsIn (h : Passes site) : site.EndsIn (.ok ()) := by
  induction h with
  | node hkind hfields _ ih => exact endsIn_node hkind hfields (.checkAll ih)
  | part hpart => exact endsIn_const fun _ => by rw [checkField, part_of_get? hpart]; rfl
  | number hpart hnumber =>
      exact endsIn_const fun _ => by
        rw [checkField, part_of_get? hpart]
        exact congrArg outcome hnumber
  | operator hpart =>
      exact endsIn_const fun _ => by rw [checkField, operatorOf_of_spelling hpart]; rfl
  | names hitems => exact endsIn_const fun _ => by rw [checkField, hitems]; rfl
  | child hpart _ ih => exact endsIn_child hpart ih
  | children hitems _ ih =>
      exact endsIn_children hitems (.checkAll fun item hitem =>
        (ih item hitem).mono fun _ hfits => hfits item hitem)

/-- Decoding fails at the first obstacle. -/
theorem Stops.endsIn (h : Stops site o) : site.EndsIn (.error o.failure) := by
  -- along the way to the obstacle, past the parts and items before it
  induction h with
  | foreign hforeign =>
      rw [← kindOf_of_foreign hforeign]
      exact endsIn_unknown (unknownIn_of_foreign hforeign)
  | unknown hunknown => exact endsIn_unknown hunknown
  | operator hpart =>
      exact endsIn_const fun _ => by rw [checkField, operatorOf_of_unknown hpart]; rfl
  | inside hkind hfields hpass _ ih =>
      exact endsIn_node hkind hfields
        (.checkAll_stop (fun earlier hearlier => (hpass earlier hearlier).endsIn) ih)
  | child hpart _ ih => exact endsIn_child hpart ih
  | children hitems hpass _ ih =>
      refine endsIn_children hitems (.checkAll_stop (fun earlier hearlier => ?_) (ih.mono ?_))
      · exact (hpass earlier hearlier).endsIn.mono fun _ hfits =>
          hfits earlier (List.mem_append_left _ hearlier)
      · exact fun _ hfits => hfits _ (List.mem_append_right _ List.mem_cons_self)

/-! ## Only obstacles are reported -/

/-- A field that is in order passes, if nodes in it do. -/
theorem passes_of_checkField {field : Field}
    (hnode : ∀ position d, check position limit d = .ok () → Passes (.node position d))
    (h : checkField limit d field = .ok ()) : Passes (.field d field) := by
  cases field with
  | part key =>
      obtain ⟨value, hpart⟩ := exists_ok_of_outcome h
      exact .part (get?_of_part hpart)
  | number key =>
      obtain ⟨value, hpart, hvalue⟩ := exists_ok_of_bind h
      obtain ⟨x, hnumber⟩ := exists_ok_of_outcome hvalue
      exact .number (get?_of_part hpart) hnumber
  | operator =>
      obtain ⟨o, hoperator⟩ := exists_ok_of_outcome h
      obtain ⟨o, hpart⟩ := exists_spelling_of_operatorOf hoperator
      exact .operator hpart
  | names key =>
      obtain ⟨items, hitems⟩ := exists_ok_of_outcome h
      exact .names hitems
  | node position key =>
      obtain ⟨value, hpart, hvalue⟩ := exists_ok_of_bind h
      exact .child (get?_of_part hpart) (hnode position value hvalue)
  | nodes position key =>
      obtain ⟨items, hitems, hall⟩ := exists_ok_of_bind h
      exact .children hitems fun item hitem =>
        hnode position item (checkAll_eq_ok hall item hitem)

/-- What is decoded is in order. -/
theorem passes_of_check (h : check position limit d = .ok ()) : Passes (.node position d) := by
  induction limit generalizing position d with
  | zero => rw [check_zero] at h; cases h
  | succ limit ih =>
      rcases exists_kind_or_unknown position d with ⟨kind, fields, hkind, hfields⟩ | hunknown
      · rw [check_of_kind hkind hfields] at h
        exact .node hkind hfields fun field hfield =>
          passes_of_checkField (fun _ _ => ih) (checkAll_eq_ok h field hfield)
      · rw [check_of_unknown hunknown] at h
        cases h

/-- A field that fails stops at an obstacle, if nodes in it do. -/
theorem stops_of_checkField {field : Field} {e : RuntimeError}
    (hnode : ∀ position d, check position limit d = .error (.error e) →
      ∃ o, Stops (.node position d) o ∧ o.failure = .error e)
    (h : checkField limit d field = .error (.error e)) :
    ∃ o, Stops (.field d field) o ∧ o.failure = .error e := by
  cases field with
  | part key => exact absurd (error_of_outcome h) (part_ne_error d key e)
  | number key =>
      rcases error_or_of_bind h with hpart | ⟨value, -, hvalue⟩
      · exact absurd hpart (part_ne_error d key e)
      · exact absurd (error_of_outcome hvalue) (numberOf_ne_error value e)
  | operator =>
      have hoperator := error_of_outcome h
      have hpart : ∀ o : Operator, d.get? "operator" ≠ some (.text o.spelling) := by
        intro o ho
        rw [operatorOf_of_spelling ho] at hoperator
        cases hoperator
      rw [operatorOf_of_unknown hpart] at hoperator
      exact ⟨_, .operator hpart, Except.error.inj hoperator⟩
  | names key => exact absurd (error_of_outcome h) (parts_ne_error d key e)
  | node position key =>
      rcases error_or_of_bind h with hpart | ⟨value, hpart, hvalue⟩
      · exact absurd hpart (part_ne_error d key e)
      · obtain ⟨o, hstop, ho⟩ := hnode position value hvalue
        exact ⟨o, .child (get?_of_part hpart) hstop, ho⟩
  | nodes position key =>
      rcases error_or_of_bind h with hitems | ⟨items, hitems, hall⟩
      · exact absurd hitems (parts_ne_error d key e)
      · obtain ⟨before, item, after, rfl, hbefore, hitem⟩ := checkAll_eq_error hall
        obtain ⟨o, hstop, ho⟩ := hnode position item hitem
        exact ⟨o, .children hitems (fun earlier hearlier =>
          passes_of_check (hbefore earlier hearlier)) hstop, ho⟩

/-- What is reported is an obstacle, and the first one. -/
theorem stops_of_check {e : RuntimeError} (h : check position limit d = .error (.error e)) :
    ∃ o, Stops (.node position d) o ∧ o.failure = .error e := by
  induction limit generalizing position d with
  | zero => rw [check_zero] at h; cases h
  | succ limit ih =>
      rcases exists_kind_or_unknown position d with ⟨kind, fields, hkind, hfields⟩ | hunknown
      · rw [check_of_kind hkind hfields] at h
        obtain ⟨before, field, after, rfl, hbefore, hfield⟩ := checkAll_eq_error h
        obtain ⟨o, hstop, ho⟩ := stops_of_checkField (fun _ _ => ih) hfield
        refine ⟨o, .inside hkind hfields (fun earlier hearlier => ?_) hstop, ho⟩
        exact passes_of_checkField (fun _ _ => passes_of_check) (hbefore earlier hearlier)
      · rw [check_of_unknown hunknown] at h
        exact ⟨_, stops_of_unknown hunknown, Except.error.inj h⟩

/-- Decoding fails at the first obstacle with an error that names it, unless that is a list or a
dictionary in the place of an operator or the limit does not reach as far. A limit that the whole
datum fits in reaches. Only obstacles are reported by such errors. -/
theorem obstacle_reported_iff (position : Position) (d : Datum) :
    (∀ o, Stops (.node position d) o → o.NamedBy o.report ∧
      ∃ depth, (∀ bound, d.Fits bound → depth ≤ bound) ∧ ∀ limit,
        check position limit d = (if depth ≤ limit then .error o.failure else .error .tooDeep) ∧
        (check position limit d = .error (.error o.report) ↔
          depth ≤ limit ∧ o.keyless = false)) ∧
    ∀ limit e, check position limit d = .error (.error e) →
      ∃ o, Stops (.node position d) o ∧ o.report = e := by
  refine ⟨fun o hstop => ⟨o.namedBy_report, ?_⟩, fun limit e h => ?_⟩
  · obtain ⟨depth, hdepth, hcheck⟩ := hstop.endsIn
    refine ⟨depth, hdepth, fun limit => ⟨hcheck limit, ?_⟩⟩
    have hlimit : check position limit d = _ := hcheck limit
    rw [hlimit]
    split
    next hle => simp [hle, Obstacle.failure_eq_report_iff]
    next hlt => simp [hlt]
  · obtain ⟨o, hstop, ho⟩ := stops_of_check h
    exact ⟨o, hstop, Obstacle.report_of_failure ho⟩

/-- `print x + f(true, …)` with a loop in the place of an argument. -/
def strayLoop : Datum :=
  record [("kind", .text "print"), ("expression",
    record [("kind", .text "operator"), ("operator", .text "+"),
      ("left", record [("kind", .text "variable"), ("name", .text "x")]),
      ("right", record [("kind", .text "call"), ("callee", .text "f"),
        ("arguments", .list [record [("kind", .text "boolean"), ("value", .bool true)],
          record [("kind", .text "while")]])])])]

theorem strayLoop_stops :
    Stops (.node .statement strayLoop) (.kind .expression (.text "while")) := by
  refine @Stops.inside _ _ "print" [] [] (.node .expression "expression") _ rfl
    (by simp [kinds]) (List.forall_mem_nil _) (.child rfl ?_)
  refine @Stops.inside _ _ "operator" [.operator, .node .expression "left"] []
    (.node .expression "right") _ rfl (by simp [kinds]) ?_ (.child rfl ?_)
  · refine List.forall_mem_cons.mpr ⟨@Passes.operator _ .add rfl,
      List.forall_mem_singleton.mpr (.child rfl ?_)⟩
    exact @Passes.node _ _ "variable" [.part "name"] rfl (by simp [kinds])
      (List.forall_mem_singleton.mpr (.part rfl))
  · refine @Stops.inside _ _ "call" [.part "callee"] [] (.nodes .expression "arguments") _ rfl
      (by simp [kinds]) (List.forall_mem_singleton.mpr (.part rfl)) ?_
    refine @Stops.children _ _ _ _ [_] [] _ rfl ?_ (.unknown ?_)
    · exact List.forall_mem_singleton.mpr (@Passes.node _ _ "boolean" [.part "value"] rfl
        (by simp [kinds]) (List.forall_mem_singleton.mpr (.part rfl)))
    · simp [UnknownIn, kinds, Datum.get?]

theorem obstacle_reported_iff_strayLoop :
    Stops (.node .statement strayLoop) (.kind .expression (.text "while")) ∧ ∀ limit,
      check .statement limit strayLoop = .error (.error (.unknownExpression (.text "while"))) ↔
        4 ≤ limit := by
  obtain ⟨-, depth, -, hcheck⟩ := (obstacle_reported_iff .statement strayLoop).1 _ strayLoop_stops
  have henough : depth ≤ 4 := ((hcheck 4).2.mp rfl).1
  have hshort : ¬ depth ≤ 3 := by
    intro hle
    cases (hcheck 3).2.mpr ⟨hle, rfl⟩
  refine ⟨strayLoop_stops, fun limit => (hcheck limit).2.trans ?_⟩
  constructor
  · rintro ⟨hle, -⟩
    omega
  · exact fun hle => ⟨henough.trans hle, rfl⟩

/-- An operator node with a list in the place of its operator. -/
def listOperator : Datum :=
  record [("kind", .text "operator"), ("operator", .list []),
    ("left", record [("kind", .text "number"), ("value", .int 1)]),
    ("right", record [("kind", .text "number"), ("value", .int 2)])]

theorem listOperator_not_reported :
    Stops (.node .expression listOperator) (.operator (.list [])) ∧
      Expr.ofDatum listOperator = .error (.malformed .notAKey) ∧
      Expr.ofDatum listOperator ≠ .error (.error (Obstacle.operator (.list [])).report) := by
  have hfails : Expr.ofDatum listOperator = .error (.malformed .notAKey) := rfl
  refine ⟨?_, hfails, by rw [hfails]; rintro ⟨⟩⟩
  refine @Stops.inside _ _ "operator" [] [.node .expression "left", .node .expression "right"]
    .operator _ rfl (by simp [kinds]) (List.forall_mem_nil _) ?_
  exact .operator fun o => by rintro ⟨⟩

end Codec

end Treewalk
