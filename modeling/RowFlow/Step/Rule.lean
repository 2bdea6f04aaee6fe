import RowFlow.Csv.Cell
import RowFlow.Expr.Prepared
import RowFlow.Table.Edit

/-!
# Row Rules

What a step does to one row at a time: it drops the row, passes on a row in its place, or fails. A
rule keeps the number of the row.
-/

namespace RowFlow

/-! ## Inserted values -/

/-- Where the values of inserted columns come from. -/
inductive Cells where
  | nulls (count : Nat)
  /-- one value each -/
  | each (evaluators : List Evaluator)
  /-- the parts of one tuple -/
  | unpack (count : Nat) (evaluator : Evaluator)

namespace Cells

/-- The values for a row. -/
def values (cells : Cells) (row : List Value) : Except Error (List Value) :=
  match cells with
  | .nulls count => .ok (List.replicate count .null)
  | .each evaluators => evaluators.mapM (·.eval row)
  | .unpack count evaluator => do
    assign (List.replicate count .null) (List.range count) (← evaluator.eval row)

end Cells

/-! ## Conversions -/

/-- Converts values at positions one after another. A failure names the row and the column. -/
def castEach (id : Nat) (names : List String) (values : List Value) :
    List (Nat × ColumnType) → Except Error (List Value)
  | [] => .ok values
  | (position, type) :: rest =>
    match Csv.convert type (values.getD position .null) with
    | .ok value => castEach id names (values.set position value) rest
    | .error cause =>
      .error (.evaluation (.cast id ((names[position]?).getD "") type cause))

/-! ## Rules -/

/-- What a step does to one row, for rows of one width. -/
inductive RowRule where
  | filter (predicate : Evaluator) (negated : Bool)
  /-- the values at positions -/
  | project (width : Nat) (positions : List Nat)
  /-- the row as it is, of whatever width -/
  | keep
  | insert (width position : Nat) (cells : Cells)
  | update (positions : List Nat) (evaluator : Evaluator)
  | cast (width : Nat) (names : List String) (casts : List (Nat × ColumnType))

namespace RowRule

/-- The row that a rule puts in place of a row, if any. -/
def apply (rule : RowRule) (row : Row) : Except Error (Option Row) :=
  match rule with
  | .filter predicate negated => do
    return if (← predicate.evalTruth row.values) = negated then none else some row
  | .project width positions => do
    expectWidth row.values width
    return some (row.withValues (pick positions row.values))
  | .keep => .ok (some row)
  | .insert width position cells => do
    expectWidth row.values width
    let inserted ← cells.values row.values
    return some (row.withValues (row.values.take position ++ inserted ++ row.values.drop position))
  | .update positions evaluator => do
    let result ← evaluator.eval row.values
    return some (row.withValues (← assign row.values positions result))
  | .cast width names casts => do
    expectWidth row.values width
    return some (row.withValues (← castEach row.id names row.values casts))

end RowRule

end RowFlow
