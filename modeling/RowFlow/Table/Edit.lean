import RowFlow.Expr.Eager

/-!
# Editing Tables

New tables from old ones: rows kept or dropped by a predicate, columns replaced by an expression.
Predicates and expressions are evaluated eagerly, so they may use aggregates.
-/

namespace RowFlow

/-! ## Assignment -/

/-- Replaces the value at a position. -/
def assignAt (values : List Value) (position : Nat) (value : Value) : Except Error (List Value) :=
  if position < values.length then .ok (values.set position value)
  else .error (.schemaMismatch (.noSuchValue values.length position))

/-- Replaces values one after another. -/
def assignEach (values : List Value) : List (Nat × Value) → Except Error (List Value)
  | [] => .ok values
  | (position, value) :: rest => do assignEach (← assignAt values position value) rest

/-- Replaces the values at positions by a result: a single position takes it as it is, several take
    the parts of a tuple in order. -/
def assign (values : List Value) (positions : List Nat) (result : Value) :
    Except Error (List Value) :=
  match positions with
  | [position] => assignAt values position result
  | _ => match result with
    | .tuple parts =>
      if parts.length = positions.length then assignEach values (positions.zip parts)
      else .error (.evaluation (.tupleLength positions.length parts.length))
    | other => .error (.evaluation (.notTuple positions.length other))

namespace Table

/-! ## Rows -/

/-- The rows on which a predicate has the given truth. -/
def selectRows (table : Table) (predicate : Expr) (truth : Bool) : Except Error Table := do
  let truths ← (← predicate.eval table).mapM Value.truth
  return { table with rows := marked (truths.map (· == truth)) table.rows }

/-- The rows on which a predicate is true. -/
def filter (table : Table) (predicate : Expr) : Except Error Table :=
  table.selectRows predicate true

/-- The rows on which a predicate is not true. -/
def delete (table : Table) (predicate : Expr) : Except Error Table :=
  table.selectRows predicate false

/-! ## Columns -/

/-- The table with columns replaced by the values of an expression. -/
def update (table : Table) (columns : List Column) (e : Expr) : Except Error Table := do
  let positions ← table.schema.resolveEach columns
  let results ← e.eval table
  let rows ← (table.rows.zip results).mapM fun (values, result) => assign values positions result
  return { table with rows }

end Table

end RowFlow
