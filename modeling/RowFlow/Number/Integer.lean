import RowFlow.Number.Arithmetic

/-!
# Numbers and Integers

The integer part of a binary64 number, and the comparison of a 64-bit integer with a number. The
integer is never rounded: numbers beyond the 64-bit integers decide at once, other numbers are cut
to their integer part first, and their fraction decides between equal integers.
-/

namespace RowFlow

namespace Binary64

/-! ## Integer parts -/

/-- How many multiples of the least positive number make up one. It is too large to be unfolded by
    accident. -/
@[irreducible]
def unitsPerOne : Nat := 2 ^ 1074

/-- The magnitude without the fraction. Exponents below 1023 leave nothing, exponents from 1075 on
    have no fraction bits. -/
def wholeMagnitude (magnitude : Nat) : Nat :=
  if magnitude / 2 ^ 52 < 1023 then 0
  else if 1075 ≤ magnitude / 2 ^ 52 then magnitude
  else
    let fraction := 2 ^ (1075 - magnitude / 2 ^ 52)
    magnitude / fraction * fraction

/-- The number without its fraction. -/
def trunc (x : Binary64) : Binary64 := ofMagnitude x.isNegative (wholeMagnitude x.magnitude)

/-- The integer part as a 64-bit integer. Numbers beyond these integers give the nearest of them,
    NaNs give zero. -/
def toInt64 (x : Binary64) : Int64 :=
  if x.isNaN then 0
  else
    let whole := x.signedUnits.tdiv unitsPerOne
    if whole < -(2 ^ 63) then Int64.minValue
    else if 2 ^ 63 ≤ whole then Int64.maxValue
    else Int64.ofInt whole

/-! ## Comparison -/

/-- `2 ^ 63`, the first number above all 64-bit integers. -/
def int64Limit : Binary64 := ⟨0x43E0000000000000⟩

/-- Compares an integer with a number by exact value. NaNs lie outside all integers, on the side of
    their sign. -/
def compareInt (n : Int64) (x : Binary64) : Ordering :=
  if x.isNaN then
    if x.isNegative then .gt else .lt
  else if (x.compare? int64Limit).any Ordering.isGE then .lt
  else if (x.compare? int64Limit.neg).any Ordering.isLT then .gt
  else
    let whole := x.trunc
    (compare n.toInt whole.toInt64.toInt).then ((zero.compare? (x.sub whole)).getD .eq)

end Binary64

end RowFlow
