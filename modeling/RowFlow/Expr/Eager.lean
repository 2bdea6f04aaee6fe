import RowFlow.Expr.Prepared
import RowFlow.Table.Basic

/-!
# Eager Evaluation

Expressions evaluated over a whole table, column by column. Here aggregates have a value, which
every row shares. Connectives keep the set of rows that no operand has decided yet, and later
operands are evaluated on those rows only, so a row fails here exactly where it fails when it is
evaluated alone.
-/

namespace RowFlow

/-! ## Undecided rows -/

/-- The members whose mark is set. -/
def marked {α : Type} (marks : List Bool) (items : List α) : List α :=
  (marks.zip items).filterMap fun (mark, item) => if mark then some item else none

/-- Clears the marks of the rows that the truths of the marked rows decide. -/
def clearDecided (decisive : Bool) : List Bool → List Bool → List Bool
  | [], _ => []
  | false :: marks, truths => false :: clearDecided decisive marks truths
  | true :: marks, [] => true :: marks
  | true :: marks, truth :: truths => (truth != decisive) :: clearDecided decisive marks truths

namespace Expr

/-- Evaluates a streamable expression on given rows. -/
def evalRows (e : Expr) (schema : Schema) (rows : List (List Value)) :
    Except Error (List Value) := do
  let evaluator ← e.prepare schema
  rows.mapM evaluator.eval

/-- Evaluates an aggregate once, and repeats its value for every row. -/
def evalAggregate (table : Table) (reduction : Reduction) (target : Column) :
    Except Error (List Value) := do
  let position ← table.schema.resolve target
  let start := Accumulator.start reduction (table.schema.typeAt position)
  let result ← table.rows.foldlM (fun acc values => do
    expectWidth values table.schema.width
    acc.pushed (values.getD position .null)) start
  return List.replicate table.rowCount result.finish

mutual

/-- The values of an expression, one for each row of a table. -/
def eval (table : Table) : Expr → Except Error (List Value)
  | .all operands => do
    let undecided ← settle table false operands (table.rows.map fun _ => true)
    return undecided.map .bool
  | .any operands => do
    let undecided ← settle table true operands (table.rows.map fun _ => true)
    return undecided.map fun mark => .bool !mark
  | .not operand => do
    (← operand.eval table).mapM fun v => do return .bool (!(← v.truth))
  | .binary op left right => do
    let ls ← left.eval table
    let rs ← right.eval table
    (ls.zip rs).mapM fun (l, r) => op.apply l r
  | .apply callback operand => do (← operand.eval table).mapM callback.run
  | .aggregate reduction target => evalAggregate table reduction target
  | e@(.column _) | e@(.columns _) | e@(.literal _) => e.evalRows table.schema table.rows

/-- Evaluates the operands of a connective from left to right on the rows that are still marked, and
    returns the marks of those that no operand decides. -/
def settle (table : Table) (decisive : Bool) : List Expr → List Bool → Except Error (List Bool)
  | [], marks => .ok marks
  | e :: es, marks =>
    if marks.any id then do
      -- an aggregate needs the whole column, of which the marked rows are read then
      let values ←
        if e.streamable then e.evalRows table.schema (marked marks table.rows)
        else marked marks <$> e.eval table
      let truths ← values.mapM Value.truth
      settle table decisive es (clearDecided decisive marks truths)
    else .ok marks

end

end Expr

end RowFlow
