/-!
# Binary64 Numbers

Double-precision binary numbers as bit patterns. A pattern is a sign and a 63-bit magnitude; the
magnitude holds 11 exponent bits above 52 fraction bits. Working on patterns keeps the two zeros and
the many NaNs apart, which equality and ordering of values need.

Main definitions:

- `Binary64.units` reads a finite number as a whole multiple of the least positive one, `2 ^ -1074`;
- `Binary64.compare?` is the numeric comparison, undefined on NaN;
- `Binary64.totalCompare` orders all patterns, NaNs included.
-/

namespace RowFlow

-- Powers of numbers are those of the core library, also in modules that know powers in monoids.
attribute [instance (high), default_instance (20000)] instPowNat

/-- A double-precision number, given by its 64 bits. -/
structure Binary64 where
  bits : UInt64
  deriving DecidableEq, Inhabited

namespace Binary64

/-! ## Fields of a pattern -/

/-- The magnitude of the infinities; larger magnitudes are NaNs. -/
def infiniteMagnitude : Nat := 0x7FF0000000000000

/-- Everything but the sign. -/
def magnitude (x : Binary64) : Nat := x.bits.toNat % 2 ^ 63

/-- Whether the sign bit is set. -/
def isNegative (x : Binary64) : Bool := 2 ^ 63 ≤ x.bits.toNat

/-- The pattern with the given sign and magnitude. -/
def ofMagnitude (negative : Bool) (magnitude : Nat) : Binary64 :=
  ⟨UInt64.ofNat ((if negative then 2 ^ 63 else 0) + magnitude)⟩

def isNaN (x : Binary64) : Bool := infiniteMagnitude < x.magnitude

def isInfinite (x : Binary64) : Bool := x.magnitude == infiniteMagnitude

/-- Whether the number is one of the two zeros. -/
def isZero (x : Binary64) : Bool := x.magnitude == 0

def zero : Binary64 := ofMagnitude false 0

def infinity (negative : Bool) : Binary64 := ofMagnitude negative infiniteMagnitude

/-- The positive quiet NaN without payload. -/
def nan : Binary64 := ⟨0x7FF8000000000000⟩

/-- The number with its sign flipped; NaNs flip theirs too. -/
def neg (x : Binary64) : Binary64 := ofMagnitude (!x.isNegative) x.magnitude

/-- The significand of a finite number: its fraction bits, with the leading bit that normal numbers
    leave out. -/
def significand (x : Binary64) : Nat :=
  if x.magnitude < 2 ^ 52 then x.magnitude else 2 ^ 52 + x.magnitude % 2 ^ 52

/-- How often the significand of a finite number is doubled, counted from the least exponent. -/
def scale (x : Binary64) : Nat := x.magnitude / 2 ^ 52 - 1

/-- The absolute value of a finite number, as a multiple of `2 ^ -1074`. -/
def units (x : Binary64) : Nat := x.significand * 2 ^ x.scale

/-- The value of a finite number, as a multiple of `2 ^ -1074`. -/
def signedUnits (x : Binary64) : Int := if x.isNegative then -(x.units : Int) else x.units

/-! ## Comparison -/

/-- Orders numbers that are not NaN: magnitudes grow with absolute values, and both zeros have key
    0. -/
def key (x : Binary64) : Int := if x.isNegative then -(x.magnitude : Int) else x.magnitude

/-- Numeric comparison. Nothing compares with a NaN, and the two zeros are equal. -/
def compare? (x y : Binary64) : Option Ordering :=
  if x.isNaN || y.isNaN then none else some (compare x.key y.key)

/-- Orders all patterns: negative NaNs, negative numbers, `-0`, `0`, positive numbers, positive
    NaNs. -/
def totalKey (x : Binary64) : Int :=
  if x.isNegative then -(x.magnitude : Int) - 1 else x.magnitude

/-- The total order of patterns. It answers `eq` only for equal patterns. -/
def totalCompare (x y : Binary64) : Ordering := compare x.totalKey y.totalKey

end Binary64

end RowFlow
