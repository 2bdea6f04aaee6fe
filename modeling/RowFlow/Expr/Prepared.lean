import RowFlow.Expr.Basic
import RowFlow.Schema.Resolve

/-!
# Prepared Expressions

Expressions bound to the schema of a stream, evaluated one row at a time. References are resolved
once, when the expression is prepared; expressions with aggregates cannot be prepared.
-/

namespace RowFlow

/-! ## Evaluators -/

/-- An expression bound to a schema: the width of its rows and its value on a row of that width. -/
structure Evaluator where
  width : Nat
  run : List Value → Except Error Value

namespace Evaluator

/-- The value on a row, which must have the width of the schema. -/
def eval (evaluator : Evaluator) (values : List Value) : Except Error Value := do
  expectWidth values evaluator.width
  evaluator.run values

def outline (evaluator : Evaluator) : String :=
  Outline.record "RowEvaluator" [("width", toString evaluator.width)]

end Evaluator

/-! ## Truth -/

/-- The truth of a value in a connective or a predicate. Null counts as false. -/
def Value.truth : Value → Except Error Bool
  | .bool b => .ok b
  | .null => .ok false
  | other => .error (.evaluation (.notBoolean other))

namespace Evaluator

def evalTruth (evaluator : Evaluator) (values : List Value) : Except Error Bool := do
  (← evaluator.eval values).truth

/-- Whether some evaluator has the truth `decisive`. Evaluators after the first one are left
    alone. -/
def decides (decisive : Bool) (values : List Value) : List Evaluator → Except Error Bool
  | [] => .ok false
  | evaluator :: rest => do
    if (← evaluator.evalTruth values) = decisive then return true else decides decisive values rest

end Evaluator

/-! ## Preparation -/

namespace Expr

mutual

/-- Binds an expression to a schema. The first offending leaf from the left decides the error. -/
def prepare (schema : Schema) : Expr → Except Error Evaluator
  | .column target => do
    let position ← schema.resolve target
    return ⟨schema.width, fun values => .ok (values.getD position .null)⟩
  | .columns targets => do
    let positions ← schema.resolveEach targets
    return ⟨schema.width, fun values => .ok (gather positions values)⟩
  | .literal value => return ⟨schema.width, fun _ => .ok value⟩
  | .all operands => do
    let evaluators ← prepareAll schema operands
    return ⟨schema.width, fun values => do
      return .bool (!(← Evaluator.decides false values evaluators))⟩
  | .any operands => do
    let evaluators ← prepareAll schema operands
    return ⟨schema.width, fun values => do
      return .bool (← Evaluator.decides true values evaluators)⟩
  | .not operand => do
    let evaluator ← operand.prepare schema
    return ⟨schema.width, fun values => do return .bool (!(← evaluator.evalTruth values))⟩
  | .binary op left right => do
    let l ← left.prepare schema
    let r ← right.prepare schema
    return ⟨schema.width, fun values => do op.apply (← l.eval values) (← r.eval values)⟩
  | .apply callback operand => do
    let evaluator ← operand.prepare schema
    return ⟨schema.width, fun values => do callback.run (← evaluator.eval values)⟩
  | .aggregate reduction target => .error (.notStreamable reduction target)

def prepareAll (schema : Schema) : List Expr → Except Error (List Evaluator)
  | [] => .ok []
  | e :: es => do
    let evaluator ← e.prepare schema
    return evaluator :: (← prepareAll schema es)

end

end Expr

end RowFlow
