import RowFlow.Number.Shortest

/-!
# Layout of Numbers

How a binary64 number becomes text. The digits are always the shortest ones that read back; a
`Layout` holds what is left to decide: where positional writing ends, how an exponent looks, and the
words for the values that have no digits.
-/

namespace RowFlow

/-- The decisions of one way to write numbers. -/
structure Layout where
  /-- least exponent of the leading digit that is written positionally -/
  plainFrom : Int
  /-- least exponent of the leading digit above the positional ones -/
  plainBelow : Int
  /-- whether whole numbers end in `.0` -/
  pointZero : Bool
  /-- whether a positive exponent has a plus sign -/
  plusSign : Bool
  tie : Tie
  nan : String
  infinity : String
  negativeInfinity : String

namespace Layout

/-! ## Digits into text -/

/-- Digits with the point after the first `point` of them, filled with zeros on either side. -/
def positional (layout : Layout) (digits : List Char) (point : Int) : List Char :=
  match point with
  | .negSucc k => '0' :: '.' :: List.replicate (k + 1) '0' ++ digits
  | .ofNat 0 => '0' :: '.' :: digits
  | .ofNat p =>
    if digits.length ≤ p then
      digits ++ List.replicate (p - digits.length) '0' ++
        (if layout.pointZero then ['.', '0'] else [])
    else digits.take p ++ '.' :: digits.drop p

/-- Digits with the point after the first one and the exponent behind them. -/
def scientific (layout : Layout) (digits : List Char) (exponent : Int) : List Char :=
  let mantissa := match digits with
    | first :: second :: rest => first :: '.' :: second :: rest
    | short => short
  let sign := if 0 ≤ exponent && layout.plusSign then ['+'] else []
  mantissa ++ 'e' :: sign ++ (toString exponent).toList

/-- The text of a decimal that is not negative. -/
def decimal (layout : Layout) (d : Decimal) : List Char :=
  let digits := (toString d.digits).toList
  let lead := d.exponent + digits.length - 1
  if d.digits = 0 || (layout.plainFrom ≤ lead && lead < layout.plainBelow) then
    positional layout digits (lead + 1)
  else scientific layout digits lead

/-- The text of a number. -/
def write (layout : Layout) (x : Binary64) : String :=
  if x.isNaN then layout.nan
  else if x.isInfinite then if x.isNegative then layout.negativeInfinity else layout.infinity
  else
    let digits := layout.decimal (Decimal.shortest layout.tie x)
    String.ofList (if x.isNegative then '-' :: digits else digits)

/-! ## The three ways to write numbers -/

/-- Numbers as cells and messages show them: never an exponent, and no point in whole numbers. -/
def plain : Layout where
  plainFrom := -400
  plainBelow := 400
  pointZero := false
  plusSign := false
  tie := .up
  nan := "NaN"
  infinity := "inf"
  negativeInfinity := "-inf"

/-- Numbers in outlines: always marked as floating, with an exponent from `1e16` up and below
    `1e-4`. -/
def outline : Layout where
  plainFrom := -4
  plainBelow := 16
  pointZero := true
  plusSign := false
  tie := .up
  nan := "NaN"
  infinity := "inf"
  negativeInfinity := "-inf"

/-- Numbers in JSON texts, where NaN and the infinities have no number and become `null`. -/
def json : Layout where
  plainFrom := -5
  plainBelow := 16
  pointZero := true
  plusSign := true
  tie := .toEven
  nan := "null"
  infinity := "null"
  negativeInfinity := "null"

end Layout

end RowFlow
