import RowFlow.Number.Binary64

/-!
# Rounding to Binary64

The binary64 number nearest to an exact ratio, halves to even. Integers, decimals and the results of
arithmetic are all rounded here, once each.
-/

namespace RowFlow

namespace Binary64

/-! ## Nearest naturals and magnitudes -/

/-- The natural number nearest to `num / den`; a half goes to the even neighbour. -/
def nearest (num den : Nat) : Nat :=
  let q := num / den
  let r := num % den
  if 2 * r < den then q else if den < 2 * r then q + 1 else q + q % 2

/-- The magnitude nearest to `num / den` multiples of `2 ^ -1074`.

    A quotient with more than 53 bits keeps its leading 53, so it is rounded to a multiple of
    `2 ^ shift`. Consecutive magnitudes are consecutive numbers, so a carry out of the significand
    moves into the exponent by itself, and beyond the largest number into infinity. -/
def nearestMagnitude (num den : Nat) : Nat :=
  let shift := (num / den).log2 - 52
  min infiniteMagnitude (shift * 2 ^ 52 + nearest num (den * 2 ^ shift))

/-! ## Exact values -/

/-- The number nearest to `num / den`, with the given sign. -/
def ofRatio (negative : Bool) (num den : Nat) : Binary64 :=
  ofMagnitude negative (nearestMagnitude (num * 2 ^ 1074) den)

/-- The number nearest to an integer. -/
def ofInt (i : Int) : Binary64 := ofRatio (i < 0) i.natAbs 1

/-- The number nearest to `digits * 10 ^ exponent`, with the given sign.

    Exponents far outside the range decide the result alone; cutting them off keeps the powers of
    ten small. -/
def ofDecimal (negative : Bool) (digits : Nat) (exponent : Int) : Binary64 :=
  if digits = 0 then ofMagnitude negative 0
  else if 400 ≤ exponent then infinity negative
  else if exponent + digits.log2 < -400 then ofMagnitude negative 0
  else match exponent with
    | .ofNat e => ofRatio negative (digits * 10 ^ e) 1
    | .negSucc e => ofRatio negative digits (10 ^ (e + 1))

end Binary64

end RowFlow
