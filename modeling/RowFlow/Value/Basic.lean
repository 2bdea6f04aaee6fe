import RowFlow.Number.Rounding

/-!
# Values

What a cell of a row can hold. Equality is structural: a whole number and a floating one are never
equal, and floating numbers are equal when their bits are.
-/

namespace RowFlow

/-- A cell: nothing, one of four scalars, or several values together. -/
inductive Value where
  | null
  | int64 (n : Int64)
  | float64 (x : Binary64)
  | bool (b : Bool)
  | utf8 (text : String)
  | tuple (items : List Value)
  deriving Inhabited

namespace Value

/-! ## Equality -/

mutual

/-- Decides equality of values. -/
def decEq : (v w : Value) → Decidable (v = w)
  | .null, .null => isTrue rfl
  | .int64 m, .int64 n =>
    if h : m = n then isTrue (by rw [h]) else isFalse (by simpa using h)
  | .float64 x, .float64 y =>
    if h : x = y then isTrue (by rw [h]) else isFalse (by simpa using h)
  | .bool a, .bool b =>
    if h : a = b then isTrue (by rw [h]) else isFalse (by simpa using h)
  | .utf8 s, .utf8 t =>
    if h : s = t then isTrue (by rw [h]) else isFalse (by simpa using h)
  | .tuple vs, .tuple ws =>
    match decEqList vs ws with
    | isTrue h => isTrue (by rw [h])
    | isFalse h => isFalse (by simpa using h)
  | .null, .int64 _ | .null, .float64 _ | .null, .bool _ | .null, .utf8 _ | .null, .tuple _
  | .int64 _, .null | .int64 _, .float64 _ | .int64 _, .bool _ | .int64 _, .utf8 _
  | .int64 _, .tuple _ | .float64 _, .null | .float64 _, .int64 _ | .float64 _, .bool _
  | .float64 _, .utf8 _ | .float64 _, .tuple _ | .bool _, .null | .bool _, .int64 _
  | .bool _, .float64 _ | .bool _, .utf8 _ | .bool _, .tuple _ | .utf8 _, .null
  | .utf8 _, .int64 _ | .utf8 _, .float64 _ | .utf8 _, .bool _ | .utf8 _, .tuple _
  | .tuple _, .null | .tuple _, .int64 _ | .tuple _, .float64 _ | .tuple _, .bool _
  | .tuple _, .utf8 _ => isFalse nofun

/-- Decides equality of lists of values. -/
def decEqList : (vs ws : List Value) → Decidable (vs = ws)
  | [], [] => isTrue rfl
  | [], _ :: _ | _ :: _, [] => isFalse nofun
  | v :: vs, w :: ws =>
    match decEq v w, decEqList vs ws with
    | isTrue h, isTrue hs => isTrue (by rw [h, hs])
    | isFalse h, _ => isFalse fun e => h (List.cons.inj e).1
    | _, isFalse h => isFalse fun e => h (List.cons.inj e).2

end

instance : DecidableEq Value := decEq

/-! ## Views -/

def isNull : Value → Bool
  | .null => true
  | _ => false

/-- The text of a text value. -/
def text? : Value → Option String
  | .utf8 text => some text
  | _ => none

/-- The number that a numeric value stands for; integers round to the nearest floating number. -/
def number? : Value → Option Binary64
  | .int64 n => some (.ofInt n.toInt)
  | .float64 x => some x
  | _ => none

/-- The short name of a value's type, as messages use it. -/
def typeName : Value → String
  | .null => "null"
  | .int64 _ => "int64"
  | .float64 _ => "float64"
  | .bool _ => "bool"
  | .utf8 _ => "utf8"
  | .tuple _ => "tuple"

end Value

end RowFlow
