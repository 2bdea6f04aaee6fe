import RowFlow.Operator.Apply
import RowFlow.Text.Case

/-!
# Expressions

Declarative expressions over the columns of a row. Leaves are columns, literals and aggregates of a
whole column; inner nodes combine them by connectives, operators and named functions of one value.
-/

namespace RowFlow

/-! ## Named functions -/

/-- A named function of one value, which may fail with a message. -/
structure Callback where
  name : String
  function : Value → Except String Value

namespace Callback

/-- A function that never fails. -/
def total (name : String) (f : Value → Value) : Callback := ⟨name, fun v => .ok (f v)⟩

/-- A function that fails with a message. -/
def fallible (name : String) (f : Value → Except String Value) : Callback := ⟨name, f⟩

/-- Runs a function. A failure is reported with the name and the value. -/
def run (callback : Callback) (v : Value) : Except Error Value :=
  match callback.function v with
  | .ok w => .ok w
  | .error message => .error (.evaluation (.callback callback.name v message))

/-- A function of texts; other values stay as they are. -/
def onText (name : String) (f : String → String) : Callback :=
  total name fun
    | .utf8 text => .utf8 (f text)
    | other => other

/-- A test of values. -/
def test (name : String) (p : Value → Bool) : Callback := total name fun v => .bool (p v)

def upper : Callback := onText "upper" Text.upper

def lower : Callback := onText "lower" Text.lower

def trim : Callback := onText "trim" Text.trim

/-- Null and the empty text are empty. -/
def isEmpty : Callback := test "is_empty" fun
  | .null => true
  | .utf8 text => text.isEmpty
  | _ => false

/-- Null and texts without anything but blanks are blank. -/
def isBlank : Callback := test "is_blank" fun
  | .null => true
  | .utf8 text => (Text.trim text).isEmpty
  | _ => false

def isNull : Callback := test "is_null" Value.isNull

end Callback

/-! ## Expressions -/

/-- An expression over the columns of a row. -/
inductive Expr where
  | column (target : Column)
  /-- several columns as a tuple; a single one as it is -/
  | columns (targets : List Column)
  | literal (value : Value)
  /-- true if every operand is; operands after the first false one are left alone -/
  | all (operands : List Expr)
  /-- true if some operand is; operands after the first true one are left alone -/
  | any (operands : List Expr)
  | not (operand : Expr)
  | binary (op : Operator) (left right : Expr)
  | apply (callback : Callback) (operand : Expr)
  /-- a reduction of a column over the whole table -/
  | aggregate (reduction : Reduction) (target : Column)

namespace Expr

def upper (e : Expr) : Expr := .apply .upper e

def lower (e : Expr) : Expr := .apply .lower e

def trim (e : Expr) : Expr := .apply .trim e

def isEmpty (e : Expr) : Expr := .apply .isEmpty e

def isNotEmpty (e : Expr) : Expr := .not e.isEmpty

def isBlank (e : Expr) : Expr := .apply .isBlank e

def isNull (e : Expr) : Expr := .apply .isNull e

def isNotNull (e : Expr) : Expr := .not e.isNull

mutual

/-- Whether an expression can be evaluated row by row: it contains no aggregate. -/
def streamable : Expr → Bool
  | .column _ | .columns _ | .literal _ => true
  | .all operands | .any operands => streamableAll operands
  | .not operand | .apply _ operand => operand.streamable
  | .binary _ left right => left.streamable && right.streamable
  | .aggregate _ _ => false

def streamableAll : List Expr → Bool
  | [] => true
  | e :: es => e.streamable && streamableAll es

end

/-! ## Outline -/

mutual

/-- The outline of an expression. The function of a callback has none. -/
def outline : Expr → String
  | .column target => Outline.record "Col" [("column", target.outline)]
  | .columns targets =>
    Outline.record "Cols" [("columns", Outline.list (targets.map Column.outline))]
  | .literal value => Outline.record "Const" [("value", value.outline)]
  | .all operands => Outline.record "And" [("exprs", Outline.list (outlines operands))]
  | .any operands => Outline.record "Or" [("exprs", Outline.list (outlines operands))]
  | .not operand => Outline.record "Not" [("expr", operand.outline)]
  | .binary op left right =>
    Outline.record "Binary" [("op", op.outline), ("lhs", left.outline), ("rhs", right.outline)]
  | .apply callback operand =>
    Outline.openRecord "Apply" [("name", Text.quoted callback.name), ("input", operand.outline)]
  | .aggregate reduction target =>
    Outline.record "Aggregate" [("column", target.outline), ("op", reduction.outline)]

def outlines : List Expr → List String
  | [] => []
  | e :: es => e.outline :: outlines es

end

end Expr

end RowFlow
