import RowFlow.Chain.Link
import RowFlow.Random.Reservoir
import RowFlow.Step.Rule

/-!
# Stages

Transforms at work: bound to the schema of their input and in the middle of a run. Most apply a rule
to each row. A limit counts, and a sort and a sample hold rows back until the stream ends.
-/

namespace RowFlow

/-! ## Sorting -/

/-- Compares rows by the values at key positions, the first difference deciding. -/
def compareKeys (keys : List Nat) (descending : Bool) (a b : Row) : Ordering :=
  keys.foldl (fun order key =>
    let difference := (a.values.getD key .null).totalCompare (b.values.getD key .null)
    order.then (if descending then difference.swap else difference)) .eq

/-- Rows sorted by keys; rows with equal keys stay in order. -/
def sortRows (keys : List Nat) (descending : Bool) (rows : List Row) : List Row :=
  rows.mergeSort fun a b => compareKeys keys descending a b != .gt

/-! ## Stages -/

/-- The state of a transform in a run. -/
inductive Stage where
  | each (rule : RowRule)
  /-- passes on the first `rows` rows, `seen` of which have come -/
  | limit (rows seen : Nat)
  | sample (reservoir : Reservoir KeyStream)
  | sort (width : Nat) (keys : List Nat) (descending : Bool) (held : List Row)

namespace Stage

/-- Handles a row. A limit asks to stop together with its last row. -/
def handle (row : Row) : Stage → Feed (Except Error Flow × Stage)
  | .each rule => match rule.apply row with
    | .error e => .done (.error e, .each rule)
    | .ok none => .done (.ok .more, .each rule)
    | .ok (some image) => .forward image fun answer => .done (answer, .each rule)
  | .limit rows seen =>
    if rows ≤ seen then .done (.ok .stop, .limit rows seen)
    else .forward row fun answer =>
      .done (if seen + 1 = rows then answer.map fun _ => .stop else answer, .limit rows (seen + 1))
  | .sample reservoir => .done (.ok .more, .sample (reservoir.offer row))
  | .sort width keys descending held => match expectWidth row.values width with
    | .error e => .done (.error e, .sort width keys descending held)
    | .ok () => .done (.ok .more, .sort width keys descending (held ++ [row]))

/-- Passes on the rows held back. -/
def drain : Stage → Feed (Except Error Unit × Stage)
  | .sample reservoir =>
    (Feed.ofRows reservoir.rows).map (·, .sample { reservoir with held := [] })
  | .sort width keys descending held =>
    (Feed.ofRows (sortRows keys descending held)).map (·, .sort width keys descending [])
  | stage => .done (.ok (), stage)

instance : Producer Stage where
  handle := handle
  drain := drain

end Stage

end RowFlow
