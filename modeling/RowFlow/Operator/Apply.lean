import RowFlow.Error
import RowFlow.Number.Arithmetic
import RowFlow.Value.Order

/-!
# Applying Operators

What the operators do to two values. Comparisons never fail: a null compares with nothing, numbers
compare as floating numbers, and values of types that do not go together are unequal and unordered.
Arithmetic keeps integers where it can, gives null for a null operand, and fails on overflow,
division by zero and other operands.
-/

namespace RowFlow

namespace Operator

/-! ## Comparisons -/

/-- Whether two values are equal, unless one is null. -/
def equal? (left right : Value) : Option Bool :=
  if left.isNull || right.isNull then none
  else match left.number?, right.number? with
    | some x, some y => some (x.compare? y == some .eq)
    | _, _ => some (left == right)

/-- How two values are ordered, if they are. -/
def order? : Value → Value → Option Ordering
  | .null, _ | _, .null => none
  | .utf8 s, .utf8 t => some (compare s t)
  | .bool a, .bool b => some (compare a b)
  | .tuple vs, .tuple ws => some (Value.totalCompareList vs ws)
  | left, right => do (← left.number?).compare? (← right.number?)

/-! ## Arithmetic -/

/-- An integer result, if it fits 64 bits. -/
def fit? (i : Int) : Option Int64 :=
  if -(2 ^ 63) ≤ i && i < 2 ^ 63 then some (Int64.ofInt i) else none

/-- The exact integer result of an operator that keeps integers. -/
def onIntegers? : Operator → Int → Int → Option Int
  | .add, m, n => some (m + n)
  | .sub, m, n => some (m - n)
  | .mul, m, n => some (m * n)
  | _, _, _ => none

/-- The result of an arithmetic operator on floating numbers. -/
def onNumbers : Operator → Binary64 → Binary64 → Binary64
  | .add, x, y => x.add y
  | .sub, x, y => x.sub y
  | .mul, x, y => x.mul y
  | _, x, y => x.div y

/-- Arithmetic on numbers of any kind, as floating numbers. -/
def arithmeticAsNumbers (op : Operator) (left right : Value) : Except Error Value :=
  match left.number?, right.number? with
  | some x, some y =>
    -- division never keeps integers, so it is refused here and nowhere else
    if op = .div && y.isZero then .error (.evaluation (.divisionByZero left right))
    else .ok (.float64 (onNumbers op x y))
  | _, _ => .error (.evaluation (.operands op left right))

def arithmetic (op : Operator) (left right : Value) : Except Error Value :=
  match left, right with
  | .null, _ | _, .null => .ok .null
  | .utf8 s, .utf8 t =>
    if op = .add then .ok (.utf8 (s ++ t)) else .error (.evaluation (.operands op left right))
  | .int64 m, .int64 n =>
    match onIntegers? op m.toInt n.toInt with
    | none => arithmeticAsNumbers op left right
    | some i => match fit? i with
      | some result => .ok (.int64 result)
      | none => .error (.evaluation (.integerOverflow op m n))
  | _, _ => arithmeticAsNumbers op left right

/-! ## All operators -/

/-- The result of an operator on two values. -/
def apply (op : Operator) (left right : Value) : Except Error Value :=
  let ordered (accepted : Ordering → Bool) : Except Error Value :=
    .ok (.bool ((order? left right).any accepted))
  match op with
  | .eq => .ok (.bool (equal? left right == some true))
  | .ne => .ok (.bool (equal? left right == some false))
  | .lt => ordered Ordering.isLT
  | .le => ordered Ordering.isLE
  | .gt => ordered Ordering.isGT
  | .ge => ordered Ordering.isGE
  | .add | .sub | .mul | .div => arithmetic op left right

end Operator

end RowFlow
