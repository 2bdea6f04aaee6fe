/-!
# Reductions

The ways to reduce a column to one value.
-/

namespace RowFlow

/-- A reduction of a column. -/
inductive Reduction where
  /-- the number of rows, nulls included -/
  | count
  /-- the sum of the numbers -/
  | sum
  /-- the least value -/
  | min
  /-- the greatest value -/
  | max
  /-- the mean of the numbers -/
  | mean
  deriving DecidableEq, Inhabited

namespace Reduction

/-- The name of a reduction, as messages show it. -/
def name : Reduction → String
  | .count => "count"
  | .sum => "sum"
  | .min => "min"
  | .max => "max"
  | .mean => "mean"

def outline : Reduction → String
  | .count => "Count"
  | .sum => "Sum"
  | .min => "Min"
  | .max => "Max"
  | .mean => "Mean"

end Reduction

end RowFlow
