import RowFlow.Reduction.Accumulator
import RowFlow.Schema.Resolve

/-!
# Rows and Tables

A row on its way through a pipeline carries the number that its source gave it. A table holds all
rows of a schema at once.
-/

namespace RowFlow

/-! ## Rows -/

/-- A row with the number that its source gave it. -/
structure Row where
  id : Nat
  values : List Value
  deriving DecidableEq, Inhabited

namespace Row

def get? (row : Row) (position : Nat) : Option Value := row.values[position]?

/-- The number of values. -/
def length (row : Row) : Nat := row.values.length

def isEmpty (row : Row) : Bool := row.values.isEmpty

/-- Other values under the same number. -/
def withValues (row : Row) (values : List Value) : Row := { row with values }

@[simp] theorem id_withValues (row : Row) (values : List Value) :
    (row.withValues values).id = row.id := rfl

@[simp] theorem values_withValues (row : Row) (values : List Value) :
    (row.withValues values).values = values := rfl

end Row

/-- Numbers rows from zero. -/
def numbered (rows : List (List Value)) : List Row :=
  rows.zipIdx.map fun (values, id) => ⟨id, values⟩

/-! ## Tables -/

/-- All rows of a schema. The rows are not forced to have its width; what reads them checks it. -/
structure Table where
  schema : Schema
  rows : List (List Value)
  deriving DecidableEq, Inhabited

namespace Table

def rowCount (table : Table) : Nat := table.rows.length

/-- The values of a column from top to bottom. Rows that are too short have none. -/
def column? (table : Table) (name : String) : Option (List Value) := do
  let position ← table.schema.indexOf? name
  return table.rows.filterMap (·[position]?)

/-- The rows of a table, numbered by their positions. -/
def numberedRows (table : Table) : List Row := numbered table.rows

/-- Pushes the values of one column, from rows of a schema's width. -/
def accumulate (width position : Nat) (acc : Accumulator) : List (List Value) →
    Except Error Accumulator
  | [] => .ok acc
  | values :: rest => do
    expectWidth values width
    accumulate width position (← acc.pushed (values.getD position .null)) rest

/-- Reduces a column to one value. -/
def reduce (table : Table) (column : Column) (reduction : Reduction) : Except Error Value := do
  let position ← table.schema.resolve column
  let start := Accumulator.start reduction (table.schema.typeAt position)
  return (← accumulate table.schema.width position start table.rows).finish

end Table

end RowFlow
