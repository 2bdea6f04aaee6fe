import RowFlow.Number.Binary64

/-!
# Shortest Decimals

The decimal with the fewest digits that reads back to a given binary64 number. A decimal reads back
when it lies in the number's rounding interval: the reals between the midpoints to its two
neighbours, ends included exactly when the significand is even.

The search tries 1, 2, … 17 significant digits. On each grid only the two neighbours of the number
can be the best hit, the first grid with a hit wins, and of two hits the nearer one does. All
arithmetic is on naturals, in multiples of `2 ^ -1076`, a quarter of the least positive number.
-/

namespace RowFlow

/-- The number `digits * 10 ^ exponent`. -/
structure Decimal where
  digits : Nat
  exponent : Int
  deriving DecidableEq, Inhabited

/-- Which of two equally near decimals is taken. -/
inductive Tie where
  | up
  | toEven
  deriving DecidableEq

namespace Decimal

/-! ## The rounding interval -/

/-- Compares `d * 10 ^ e` with `n` multiples of `2 ^ -1076`. -/
def compareUnits (d : Nat) (e : Int) (n : Nat) : Ordering :=
  match e with
  | .ofNat k => compare (d * 10 ^ k * 2 ^ 1076) n
  | .negSucc k => compare (d * 2 ^ 1076) (n * 10 ^ (k + 1))

/-- Whether `d * 10 ^ e` lies in the rounding interval of a positive finite number. The gap below a
    power of two is half the gap above it. -/
def readsBack (x : Binary64) (d : Nat) (e : Int) : Bool :=
  let m := x.significand
  -- in quarters of the unit the midpoints to both neighbours are whole numbers
  let narrow := m == 2 ^ 52 && x.scale != 0
  let low := (if narrow then 4 * m - 1 else 4 * m - 2) * 2 ^ x.scale
  let high := (4 * m + 2) * 2 ^ x.scale
  let ends := m % 2 == 0
  let l := compareUnits d e low
  let h := compareUnits d e high
  (l == .gt || (ends && l == .eq)) && (h == .lt || (ends && h == .eq))

/-! ## The search -/

/-- The number of whole multiples of `10 ^ e` in `n` multiples of `2 ^ -1076`. -/
def floorOn (n : Nat) (e : Int) : Nat :=
  match e with
  | .ofNat k => n / (10 ^ k * 2 ^ 1076)
  | .negSucc k => n * 10 ^ (k + 1) / 2 ^ 1076

/-- The least `k` with `n * 2 ^ -1076 < 10 ^ k`, found from the binary logarithm and at most two
    steps up. -/
def decade (n : Nat) : Int :=
  let guess := Int.fdiv (((n.log2 : Int) - 1076) * 30103) 100000
  if compareUnits 1 guess n == .gt then guess
  else if compareUnits 1 (guess + 1) n == .gt then guess + 1
  else guess + 2

/-- The best decimal on the grid of `10 ^ e`, if one of the number's two neighbours there reads
    back. -/
def onGrid? (tie : Tie) (x : Binary64) (e : Int) : Option Decimal :=
  let n := 4 * x.units
  let below := floorOn n e
  match readsBack x below e, readsBack x (below + 1) e with
  | true, true =>
    -- both neighbours read back, so the nearer one is taken
    match compareUnits (2 * below + 1) e (2 * n) with
    | .lt => some ⟨below + 1, e⟩
    | .gt => some ⟨below, e⟩
    | .eq => some ⟨if tie = .up || below % 2 = 1 then below + 1 else below, e⟩
  | true, false => some ⟨below, e⟩
  | false, true => some ⟨below + 1, e⟩
  | false, false => none

/-- Drops trailing zeros of the digits, at most `fuel` of them. -/
def trim : Nat → Decimal → Decimal
  | 0, d => d
  | fuel + 1, d =>
    if d.digits != 0 && d.digits % 10 == 0 then trim fuel ⟨d.digits / 10, d.exponent + 1⟩ else d

/-- The shortest decimal that reads back to the absolute value of a finite number.

    Seventeen digits always suffice; the exact value stands behind them so that the answer is right
    even without that fact. -/
def shortest (tie : Tie) (x : Binary64) : Decimal :=
  if x.isZero then ⟨0, 0⟩
  else
    let top := decade (4 * x.units)
    -- one digit first, then two, and so on
    match (List.range 17).findSome? fun (i : Nat) => onGrid? tie x (top - 1 - i) with
    | some d => trim 17 d
    | none => ⟨x.units * 5 ^ 1074, -1074⟩

end Decimal

end RowFlow
