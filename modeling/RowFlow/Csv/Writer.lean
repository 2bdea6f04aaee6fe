import RowFlow.Csv.Dialect

/-!
# Writing CSV

A record as bytes. A field stands in quotes if it holds a byte that would end it; a quote inside it
is then written twice.
-/

namespace RowFlow

namespace Csv

/-! ## Bytes with a meaning -/

def quoteByte : UInt8 := '"'.toUInt8

def lineFeed : UInt8 := '\n'.toUInt8

def carriageReturn : UInt8 := '\r'.toUInt8

/-- Whether a byte ends a record. -/
def isLineEnd (b : UInt8) : Bool := b == lineFeed || b == carriageReturn

/-! ## Fields and records -/

/-- Whether a field holds a byte that needs quotes around it. -/
def needsQuotes (delimiter : UInt8) (field : List UInt8) : Bool :=
  field.any fun b => b == delimiter || b == quoteByte || isLineEnd b

/-- The content of a quoted field: every quote twice. -/
def doubleQuotes : List UInt8 → List UInt8
  | [] => []
  | b :: rest =>
    if b = quoteByte then quoteByte :: quoteByte :: doubleQuotes rest else b :: doubleQuotes rest

/-- A field as it is written. -/
def writeField (delimiter : UInt8) (field : List UInt8) : List UInt8 :=
  if needsQuotes delimiter field then quoteByte :: doubleQuotes field ++ [quoteByte] else field

/-- A record as it is written. A record without any byte is written as a pair of quotes, so that its
    line is not empty. -/
def writeRecord (delimiter : UInt8) (fields : List (List UInt8)) : List UInt8 :=
  let line := [delimiter].intercalate (fields.map (writeField delimiter))
  (if line.isEmpty then [quoteByte, quoteByte] else line) ++ [lineFeed]

end Csv

end RowFlow
