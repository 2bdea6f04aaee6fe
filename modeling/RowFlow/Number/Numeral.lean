import RowFlow.Number.Rounding

/-!
# Numerals

Reading integers and numbers from text. Both take an optional sign and nothing around the numeral:
blanks are the caller's business.
-/

namespace RowFlow

/-- Why a text is no numeral. -/
inductive NumeralFault where
  | invalidDigit
  | tooLarge
  | tooSmall
  | invalidNumber
  deriving DecidableEq

namespace NumeralFault

def message : NumeralFault → String
  | .invalidDigit => "invalid digit found in string"
  | .tooLarge => "number too large to fit in target type"
  | .tooSmall => "number too small to fit in target type"
  | .invalidNumber => "invalid float literal"

end NumeralFault

namespace Numeral

/-! ## Digits -/

/-- The value of an ASCII digit. -/
def digit? (c : Char) : Option Nat := if c.isDigit then some (c.toNat - '0'.toNat) else none

/-- The value of a run of digits, read after those that make up `value`. -/
def value (value : Nat) (digits : List Char) : Nat :=
  digits.foldl (fun n c => 10 * n + (c.toNat - '0'.toNat)) value

/-- A sign and what follows it. A text without a sign is positive. -/
def splitSign : List Char → Bool × List Char
  | '-' :: rest => (true, rest)
  | '+' :: rest => (false, rest)
  | rest => (false, rest)

/-! ## Integers -/

/-- Reads digits after those that make up `n`. The first character that is no digit or that takes
    the value beyond `limit` decides. -/
def readBounded (limit : Nat) (beyond : NumeralFault) (n : Nat) :
    List Char → Except NumeralFault Nat
  | [] => .ok n
  | c :: rest =>
    match digit? c with
    | none => .error .invalidDigit
    | some d =>
      if limit < 10 * n + d then .error beyond else readBounded limit beyond (10 * n + d) rest

/-- Reads a 64-bit integer: an optional sign and at least one digit. -/
def readInt64 (text : List Char) : Except NumeralFault Int64 :=
  match splitSign text with
  | (_, []) => .error .invalidDigit
  | (true, digits) => do
    let n ← readBounded (2 ^ 63) .tooSmall 0 digits
    return Int64.ofInt (-(n : Int))
  | (false, digits) => do
    let n ← readBounded (2 ^ 63 - 1) .tooLarge 0 digits
    return Int64.ofInt n

/-! ## Numbers -/

/-- The exponent behind a mantissa: nothing, or a mark, an optional sign and digits up to the
    end. -/
def readExponent : List Char → Option Int
  | [] => some 0
  | mark :: rest =>
    if mark = 'e' || mark = 'E' then
      match splitSign rest with
      | (_, []) => none
      | (negative, digits) =>
        if digits.all Char.isDigit then
          let n := value 0 digits
          some (if negative then -(n : Int) else n)
        else none
    else none

/-- A decimal without sign: digits with an optional point, at least one digit in all, and an
    optional exponent. -/
def readDecimal (negative : Bool) (text : List Char) : Option Binary64 := do
  let whole := text.takeWhile Char.isDigit
  let afterWhole := text.dropWhile Char.isDigit
  let (fraction, rest) := match afterWhole with
    | '.' :: tail => (tail.takeWhile Char.isDigit, tail.dropWhile Char.isDigit)
    | tail => ([], tail)
  -- a point alone is no number
  guard !(whole.isEmpty && fraction.isEmpty)
  let exponent ← readExponent rest
  return .ofDecimal negative (value (value 0 whole) fraction) (exponent - fraction.length)

/-- The words for values without digits, in any mixture of cases. -/
def readWord (negative : Bool) (text : List Char) : Option Binary64 :=
  match String.ofList (text.map Char.toLower) with
  | "inf" | "infinity" => some (.infinity negative)
  | "nan" => some (if negative then Binary64.nan.neg else .nan)
  | _ => none

/-- Reads a number: an optional sign and a decimal or a word. Decimals are rounded to the nearest
    number, beyond the largest one to infinity. -/
def readBinary64 (text : List Char) : Except NumeralFault Binary64 :=
  let (negative, rest) := splitSign text
  match readDecimal negative rest <|> readWord negative rest with
  | some x => .ok x
  | none => .error .invalidNumber

end Numeral

end RowFlow
