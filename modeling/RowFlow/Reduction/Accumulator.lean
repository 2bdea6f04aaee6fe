import RowFlow.Operator.Apply

/-!
# Accumulators

A reduction under way: values are pushed one at a time, and the result so far can be read at any
moment. Sums, minima and maxima keep the type that the column declares; values of other types are
passed over.
-/

namespace RowFlow

/-- The state of a reduction of one column. -/
inductive Accumulator where
  | rows (count : Nat)
  /-- a sum or extremum of an integer column -/
  | integers (reduction : Reduction) (result : Option Int64)
  /-- a sum or extremum of a floating column -/
  | numbers (reduction : Reduction) (result : Option Binary64)
  | mean (sum : Binary64) (count : Nat)
  /-- an extremum of another column; `greatest` tells which -/
  | extremum (greatest : Bool) (result : Option Value)
  /-- a sum of a column that has none -/
  | nothing
  deriving DecidableEq

namespace Accumulator

/-- The state before the first value of a column. -/
def start : Reduction → ColumnType → Accumulator
  | .count, _ => .rows 0
  | .mean, _ => .mean .zero 0
  | reduction, .int64 => .integers reduction none
  | reduction, .float64 => .numbers reduction none
  | .sum, _ => .nothing
  | reduction, _ => .extremum (reduction == .max) none

/-- Combines an integer result with the next integer. Sums must fit 64 bits. -/
def combineIntegers (reduction : Reduction) (result value : Int64) : Except Error Int64 :=
  match reduction with
  | .sum => match Operator.fit? (result.toInt + value.toInt) with
    | some sum => .ok sum
    | none => .error (.evaluation (.sumOverflow result value))
  | .min => .ok (if value.toInt < result.toInt then value else result)
  | _ => .ok (if result.toInt < value.toInt then value else result)

/-- Combines a floating result with the next number. -/
def combineNumbers (reduction : Reduction) (result value : Binary64) : Binary64 :=
  match reduction with
  | .sum => result.add value
  | .min => result.min value
  | _ => result.max value

/-- The better of an extremum and the next value; the earlier one stays if they are equal. -/
def better (greatest : Bool) (result value : Value) : Value :=
  if value.totalCompare result = (if greatest then .gt else .lt) then value else result

/-- Adds the next value of the column. -/
def push (acc : Accumulator) (value : Value) : Except Error Unit × Accumulator :=
  match acc with
  | .rows count => (.ok (), .rows (count + 1))
  -- values of other types than the column's are passed over
  | .integers reduction result =>
    match value, result with
    | .int64 n, none => (.ok (), .integers reduction (some n))
    | .int64 n, some m => match combineIntegers reduction m n with
      | .ok combined => (.ok (), .integers reduction (some combined))
      | .error e => (.error e, acc)
    | _, _ => (.ok (), acc)
  | .numbers reduction result =>
    match value.number?, result with
    | some x, none => (.ok (), .numbers reduction (some x))
    | some x, some y => (.ok (), .numbers reduction (some (combineNumbers reduction y x)))
    | none, _ => (.ok (), acc)
  | .mean sum count =>
    match value.number? with
    | some x => (.ok (), .mean (sum.add x) (count + 1))
    | none => (.ok (), acc)
  | .extremum greatest result =>
    if value.isNull then (.ok (), acc)
    else (.ok (), .extremum greatest (some ((result.map (better greatest · value)).getD value)))
  | .nothing => (.ok (), .nothing)

/-- The accumulator after a value, for those who have no use for it after a failure. -/
def pushed (acc : Accumulator) (value : Value) : Except Error Accumulator :=
  let (result, acc) := acc.push value
  result.map fun _ => acc

/-- The result for the values pushed so far. -/
def finish : Accumulator → Value
  | .rows count => .int64 (Int64.ofNat count)
  | .integers _ result => (result.map Value.int64).getD .null
  | .numbers _ result => (result.map Value.float64).getD .null
  | .mean _ 0 => .null
  | .mean sum count => .float64 (sum.div (.ofInt count))
  | .extremum _ result => result.getD .null
  | .nothing => .null

end Accumulator

end RowFlow
