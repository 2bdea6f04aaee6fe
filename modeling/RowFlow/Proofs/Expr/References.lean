import RowFlow.Proofs.Expr.Agreement

/-!
# References of Expressions

The columns that an expression refers to, wherever they stand in it. An expression can be prepared
against a schema exactly if it is streamable and the schema has all these columns
(`Expr.exists_prepare_iff`): nothing else can go wrong before the first row. An aggregate refers to
its column too, and evaluating it amounts to reducing the column (`Expr.eval_aggregate`).
-/

namespace RowFlow

/-! ## Columns of a schema -/

namespace Schema

variable {schema : Schema}

/-- A schema has the column that a reference is to. -/
def Has (schema : Schema) (column : Column) : Prop :=
  ∃ position, schema.resolve column = .ok position

theorem exists_resolveEach_iff {columns : List Column} :
    (∃ positions, schema.resolveEach columns = .ok positions) ↔ ∀ c ∈ columns, schema.Has c :=
  exists_mapM_eq_ok_iff

end Schema

/-! ## References -/

namespace Expr

mutual

/-- The columns that an expression refers to. -/
def references : Expr → List Column
  | .column target | .aggregate _ target => [target]
  | .columns targets => targets
  | .literal _ => []
  | .all operands | .any operands => referencesAll operands
  | .not operand | .apply _ operand => operand.references
  | .binary _ left right => left.references ++ right.references

def referencesAll : List Expr → List Column
  | [] => []
  | e :: es => e.references ++ referencesAll es

end

/-! ## Preparation -/

variable {schema : Schema}

mutual

/-- An expression can be prepared if and only if it is streamable and its references resolve. -/
theorem exists_prepare_iff : (e : Expr) →
    ((∃ evaluator, e.prepare schema = .ok evaluator) ↔
      e.streamable = true ∧ ∀ c ∈ e.references, schema.Has c)
  | .column target => by simp [prepare, exists_map_eq_ok_iff, streamable, references, Schema.Has]
  | .columns targets => by
    simp [prepare, exists_map_eq_ok_iff, streamable, references, Schema.exists_resolveEach_iff]
  | .literal value => by
    simp only [streamable, references, List.not_mem_nil, false_implies, implies_true, and_true,
      iff_true]
    exact ⟨_, rfl⟩
  | .all operands | .any operands => by
    simp [prepare, exists_map_eq_ok_iff, streamable, references, exists_prepareAll_iff operands]
  | .not operand | .apply _ operand => by
    simp [prepare, exists_map_eq_ok_iff, streamable, references, exists_prepare_iff operand]
  | .binary op left right => by
    simp [prepare, exists_bind_eq_ok_iff, exists_map_eq_ok_iff, streamable, references,
      exists_prepare_iff left, exists_prepare_iff right, or_imp, forall_and, and_and_and_comm]
  | .aggregate reduction target => by simp [prepare, streamable]

theorem exists_prepareAll_iff : (es : List Expr) →
    ((∃ evaluators, prepareAll schema es = .ok evaluators) ↔
      streamableAll es = true ∧ ∀ c ∈ referencesAll es, schema.Has c)
  | [] => by simp [prepareAll, streamableAll, referencesAll]
  | e :: es => by
    simp [prepareAll, exists_bind_eq_ok_iff, exists_map_eq_ok_iff, streamableAll, referencesAll,
      exists_prepare_iff e, exists_prepareAll_iff es, or_imp, forall_and, and_and_and_comm]

end

/-! ## Aggregates -/

/-- The loop of an aggregate pushes what the loop of a reduction does, and fails where it does. -/
theorem foldlM_pushed_eq_accumulate (width position : Nat) (rows : List (List Value))
    (acc : Accumulator) :
    rows.foldlM (fun acc values => do
      expectWidth values width
      acc.pushed (values.getD position .null)) acc = Table.accumulate width position acc rows := by
  induction rows generalizing acc with
  | nil => rfl
  | cons values rest ih =>
    simp only [List.foldlM_cons, Table.accumulate, bind_assoc, ih]

/-- An aggregate repeats the reduction of its column for every row. -/
theorem eval_aggregate (table : Table) (reduction : Reduction) (target : Column) :
    (Expr.aggregate reduction target).eval table = (do
      let value ← table.reduce target reduction
      return List.replicate table.rowCount value) := by
  simp only [eval, evalAggregate, Table.reduce, foldlM_pushed_eq_accumulate, bind_assoc, pure_bind]

end Expr

end RowFlow
