import RowFlow.Number.Rounding

/-!
# Binary64 Arithmetic

Each operation computes the exact result on whole multiples of `2 ^ -1074` and rounds it once. A NaN
operand comes back quieted, the first one first; an operation without a result gives the default
NaN, whose sign bit is set.
-/

namespace RowFlow

namespace Binary64

/-! ## NaN results -/

/-- What an operation without a numeric result gives. -/
def undefined : Binary64 := ⟨0xFFF8000000000000⟩

/-- The quiet form of a NaN: its leading fraction bit is set. -/
def quiet (x : Binary64) : Binary64 := ⟨x.bits ||| 0x0008000000000000⟩

/-- Applies `op` to two numbers unless one is NaN. -/
def unlessNaN (x y : Binary64) (op : Binary64) : Binary64 :=
  if x.isNaN then x.quiet else if y.isNaN then y.quiet else op

/-! ## The four operations -/

/-- The number nearest to `i` multiples of `2 ^ -1074`; `negativeZero` is the sign of a zero sum. -/
def ofUnits (i : Int) (negativeZero : Bool) : Binary64 :=
  ofMagnitude (i < 0 || (i == 0 && negativeZero)) (nearestMagnitude i.natAbs 1)

/-- The sum of two numbers that are not NaN. -/
def sum (x y : Binary64) : Binary64 :=
  if x.isInfinite then
    if y.isInfinite && x.isNegative != y.isNegative then undefined else x
  else if y.isInfinite then y
  else ofUnits (x.signedUnits + y.signedUnits) (x.isNegative && y.isNegative)

def add (x y : Binary64) : Binary64 := unlessNaN x y (sum x y)

def sub (x y : Binary64) : Binary64 := unlessNaN x y (sum x y.neg)

def mul (x y : Binary64) : Binary64 :=
  let negative := x.isNegative != y.isNegative
  unlessNaN x y <|
    if x.isInfinite || y.isInfinite then
      if x.isZero || y.isZero then undefined else infinity negative
    else ofMagnitude negative (nearestMagnitude (x.units * y.units) (2 ^ 1074))

def div (x y : Binary64) : Binary64 :=
  let negative := x.isNegative != y.isNegative
  unlessNaN x y <|
    if x.isInfinite then
      if y.isInfinite then undefined else infinity negative
    else if y.isInfinite then ofMagnitude negative 0
    else if y.isZero then
      if x.isZero then undefined else infinity negative
    else ofMagnitude negative (nearestMagnitude (x.units * 2 ^ 1074) y.units)

/-! ## Extrema -/

/-- The lesser of two numbers; a NaN gives way to the other operand. -/
def min (x y : Binary64) : Binary64 :=
  if x.isNaN then y else if y.isNaN then x else if y.key < x.key then y else x

/-- The greater of two numbers; a NaN gives way to the other operand. -/
def max (x y : Binary64) : Binary64 :=
  if x.isNaN then y else if y.isNaN then x else if x.key < y.key then y else x

end Binary64

end RowFlow
