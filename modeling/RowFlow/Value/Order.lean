import RowFlow.Number.Integer
import RowFlow.Value.Basic

/-!
# Order of Values

A total order on all values: null, booleans, numbers, texts, tuples. Integers and floating numbers
are compared by exact value, and an integer stands before the floating number equal to it, so values
compare as `eq` only if they are equal.
-/

namespace RowFlow

namespace Value

/-- The place of a value's type in the order. -/
def rank : Value → Nat
  | .null => 0
  | .bool _ => 1
  | .int64 _ | .float64 _ => 2
  | .utf8 _ => 3
  | .tuple _ => 4

mutual

/-- The total order of values. -/
def totalCompare : Value → Value → Ordering
  | .bool a, .bool b => compare a b
  | .int64 m, .int64 n => compare m.toInt n.toInt
  | .float64 x, .float64 y => x.totalCompare y
  -- equal numbers of both kinds are told apart
  | .int64 n, .float64 x => (Binary64.compareInt n x).then .lt
  | .float64 x, .int64 n => (Binary64.compareInt n x).swap.then .gt
  | .utf8 s, .utf8 t => compare s t
  | .tuple vs, .tuple ws => totalCompareList vs ws
  | v, w => compare v.rank w.rank

/-- Tuples compare by their first difference; a tuple stands before its extensions. -/
def totalCompareList : List Value → List Value → Ordering
  | [], [] => .eq
  | [], _ :: _ => .lt
  | _ :: _, [] => .gt
  | v :: vs, w :: ws => (totalCompare v w).then (totalCompareList vs ws)

end

end Value

end RowFlow
