import RowFlow.Proofs.Expr.References

/-!
# Why Expressions Cannot Be Prepared

Preparation comes to the leaves of an expression from left to right, however deep they are nested,
and fails at the first one that has no meaning for single rows of the schema: a reference to a
column that is not there, or an aggregate (`Expr.prepare_fails_at_first_offence`). Operators,
functions and connectives add no errors of their own, and nothing is passed over: neither operands
that evaluation would never come to nor the second of several columns.
-/

namespace RowFlow

/-! ## First failures -/

section
variable {ε α β : Type}

/-- The error of a computation that fails. -/
def failure? : Except ε α → Option ε
  | .ok _ => none
  | .error e => some e

theorem failure?_eq_some_iff {x : Except ε α} {e : ε} : failure? x = some e ↔ x = .error e := by
  cases x with
  | ok a => exact ⟨nofun, nofun⟩
  | error e' => rw [failure?, Option.some_inj, Except.error.injEq]

/-- What only returns something of a result fails as the result does. -/
theorem failure?_bind_pure (f : α → β) (x : Except ε α) :
    failure? (do let a ← x; return f a) = failure? x := by
  cases x <;> rfl

/-- A sequence fails as its first part does, or else as the other one. -/
theorem failure?_bind {x : Except ε α} {f : α → Except ε β} {rest : Option ε}
    (h : ∀ a, failure? (f a) = rest) : failure? (x >>= f) = (failure? x).or rest := by
  cases x with
  | ok a => exact h a
  | error e => rfl

/-- A traversal fails at the first step that does. -/
theorem failure?_mapM (f : α → Except ε β) (xs : List α) :
    failure? (xs.mapM f) = xs.findSome? fun x => failure? (f x) := by
  induction xs with
  | nil => rfl
  | cons x xs ih =>
    -- collecting the results adds no failure
    have hrest (y : β) : failure? (do let ys ← xs.mapM f; return y :: ys) =
        xs.findSome? fun x => failure? (f x) := by
      rw [failure?_bind_pure, ih]
    rw [List.mapM_cons, failure?_bind hrest, List.findSome?_cons]
    cases failure? (f x) <;> rfl

end

/-! ## Leaves -/

/-- A leaf that preparation looks at. -/
inductive Leaf where
  | reference (column : Column)
  | aggregate (reduction : Reduction) (target : Column)

namespace Leaf

/-- Whether a leaf has a meaning for single rows of a schema. -/
def Fits (schema : Schema) : Leaf → Prop
  | .reference column => schema.Has column
  | .aggregate _ _ => False

/-- The error of a leaf that does not fit. -/
def error (schema : Schema) : Leaf → Error
  | .reference column => .schemaMismatch (.unknownColumn column schema.names)
  | .aggregate reduction target => .notStreamable reduction target

/-- A leaf as messages name it. -/
def text : Leaf → String
  | .reference column => column.text
  | .aggregate reduction target => s!"{reduction.name}({target.text})"

/-- The error that a leaf makes of preparation, if any. -/
def fault? (schema : Schema) : Leaf → Option Error
  | .reference column => failure? (schema.resolve column)
  | .aggregate reduction target => some (.notStreamable reduction target)

theorem fault?_eq_none_iff {schema : Schema} {leaf : Leaf} :
    leaf.fault? schema = none ↔ leaf.Fits schema := by
  cases leaf with
  | reference column =>
    simp only [fault?, Fits, Schema.Has]
    cases schema.resolve column with
    | ok position => exact ⟨fun _ => ⟨position, rfl⟩, fun _ => rfl⟩
    | error e => exact ⟨nofun, nofun⟩
  | aggregate reduction target => exact ⟨nofun, False.elim⟩

theorem fault?_eq_some_iff {schema : Schema} {leaf : Leaf} {e : Error} :
    leaf.fault? schema = some e ↔ ¬ leaf.Fits schema ∧ e = leaf.error schema := by
  cases leaf with
  | reference column =>
    simp only [fault?, Fits, Schema.Has, error, Schema.resolve]
    cases schema.position? column with
    | some position => exact ⟨nofun, fun h => absurd ⟨position, rfl⟩ h.1⟩
    | none => exact ⟨fun h => ⟨nofun, (Option.some.inj h).symm⟩, fun h => congrArg some h.2.symm⟩
  | aggregate reduction target =>
    simp [fault?, Fits, error, eq_comm]

/-- The message of a leaf names it. -/
theorem exists_message_eq (schema : Schema) (leaf : Leaf) :
    ∃ front back, (leaf.error schema).message = front ++ leaf.text ++ back := by
  cases leaf with
  | reference column =>
    have hmessage : (error schema (.reference column)).message =
        "schema mismatch: " ++ ("unknown column " ++ column.text ++ ". columns=" ++
          Outline.list (schema.names.map Text.quoted)) := rfl
    refine ⟨"schema mismatch: " ++ "unknown column ",
      ". columns=" ++ Outline.list (schema.names.map Text.quoted), ?_⟩
    simp only [hmessage, text, String.append_assoc]
  | aggregate reduction target =>
    have hmessage : (error schema (.aggregate reduction target)).message =
        "evaluation function " ++ ("'" ++ text (.aggregate reduction target) ++ "'") ++
          " is not streamable: it requires the full table" := rfl
    refine ⟨"evaluation function " ++ "'",
      "'" ++ " is not streamable: it requires the full table", ?_⟩
    simp only [hmessage, String.append_assoc]

end Leaf

/-! ## Preparation -/

namespace Expr

mutual

/-- The leaves that preparation looks at, from left to right. -/
def leaves : Expr → List Leaf
  | .column target => [.reference target]
  | .columns targets => targets.map .reference
  | .literal _ => []
  | .all operands | .any operands => leavesAll operands
  | .not operand | .apply _ operand => operand.leaves
  | .binary _ left right => left.leaves ++ right.leaves
  | .aggregate reduction target => [.aggregate reduction target]

def leavesAll : List Expr → List Leaf
  | [] => []
  | e :: es => e.leaves ++ leavesAll es

end

variable {schema : Schema}

mutual

/-- Preparation fails at the first leaf with a fault. -/
theorem failure?_prepare :
    (e : Expr) → failure? (e.prepare schema) = e.leaves.findSome? (Leaf.fault? schema)
  | .column target => by
    rw [prepare, failure?_bind_pure, leaves, List.findSome?_singleton,
      Leaf.fault?]
  | .columns targets => by
    rw [prepare, failure?_bind_pure, leaves, List.findSome?_map]
    exact failure?_mapM schema.resolve targets
  | .literal _ => rfl
  | .all operands | .any operands => by
    rw [prepare, failure?_bind_pure, leaves, failure?_prepareAll operands]
  | .not operand | .apply _ operand => by
    rw [prepare, failure?_bind_pure, leaves, failure?_prepare operand]
  | .binary op left right => by
    -- the right operand is prepared whatever the left one has become
    have hright (l : Evaluator) : failure? (do
        let r ← right.prepare schema
        return (⟨schema.width, fun values => do op.apply (← l.eval values) (← r.eval values)⟩ :
          Evaluator)) = right.leaves.findSome? (Leaf.fault? schema) := by
      rw [failure?_bind_pure, failure?_prepare right]
    rw [prepare, failure?_bind hright, failure?_prepare left, leaves, List.findSome?_append]
  | .aggregate reduction target => rfl

theorem failure?_prepareAll : (es : List Expr) →
    failure? (prepareAll schema es) = (leavesAll es).findSome? (Leaf.fault? schema)
  | [] => rfl
  | e :: es => by
    have hrest (evaluator : Evaluator) : failure? (do
        return evaluator :: (← prepareAll schema es)) =
          (leavesAll es).findSome? (Leaf.fault? schema) := by
      rw [failure?_bind_pure, failure?_prepareAll es]
    rw [prepareAll, failure?_bind hrest, failure?_prepare e, leavesAll, List.findSome?_append]

end

/-- **Preparation fails at the first offending leaf.** An expression can be prepared exactly if it
    contains no aggregate and the schema has all columns that it refers to. Otherwise its leaves
    are looked at from left to right, and the first one that does not fit decides the error: an
    aggregate is not streamable, and a reference without a column does not match the schema. The
    message of the error names the leaf. -/
theorem prepare_fails_at_first_offence (e : Expr) (schema : Schema) :
    ((∃ evaluator, e.prepare schema = .ok evaluator) ↔
      e.streamable = true ∧ ∀ c ∈ e.references, schema.Has c) ∧
    (∀ error, e.prepare schema = .error error ↔
      ∃ before leaf after, e.leaves = before ++ leaf :: after ∧
        (∀ l ∈ before, l.Fits schema) ∧ ¬ leaf.Fits schema ∧ error = leaf.error schema) ∧
    ∀ leaf ∈ e.leaves, ∃ front back,
      (leaf.error schema).message = front ++ leaf.text ++ back := by
  refine ⟨exists_prepare_iff e, fun error => ?_, fun leaf _ => leaf.exists_message_eq schema⟩
  -- the first fault of a search splits the leaves in two
  rw [← failure?_eq_some_iff, failure?_prepare, List.findSome?_eq_some_iff]
  constructor
  · rintro ⟨before, leaf, after, hleaves, hfault, hbefore⟩
    obtain ⟨hoffends, herror⟩ := Leaf.fault?_eq_some_iff.1 hfault
    exact ⟨before, leaf, after, hleaves, fun l hl => Leaf.fault?_eq_none_iff.1 (hbefore l hl),
      hoffends, herror⟩
  · rintro ⟨before, leaf, after, hleaves, hbefore, hoffends, herror⟩
    exact ⟨before, leaf, after, hleaves, Leaf.fault?_eq_some_iff.2 ⟨hoffends, herror⟩,
      fun l hl => Leaf.fault?_eq_none_iff.2 (hbefore l hl)⟩

/-- The first fault decides, also behind an operand at which evaluation would stop. -/
example : (all [.literal (.bool false), .columns [.name "n", .name "m"],
    .aggregate .max (.name "n")]).prepare ⟨[⟨"n", .int64⟩]⟩ =
      .error (.schemaMismatch (.unknownColumn (.name "m") ["n"])) := rfl

end Expr

end RowFlow
