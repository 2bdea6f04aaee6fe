import RowFlow.Error
import RowFlow.Text.Blank

/-!
# Typed Cells

The value of a text cell under a column type, and conversions between types. Blanks around a cell do
not count, and a blank cell is null.
-/

namespace RowFlow

namespace Csv

/-- Reads one of the words for truth values, in any mixture of cases. -/
def readBool (text : List Char) : Except CellFault Bool :=
  match String.ofList (text.map Char.toLower) with
  | "true" | "t" | "1" | "yes" | "y" => .ok true
  | "false" | "f" | "0" | "no" | "n" => .ok false
  | _ => .error .booleanWord

/-- Reads a cell as a value of a type. -/
def readCell (type : ColumnType) (text : String) : Except CellFault Value :=
  let content := Text.trimChars text.toList
  if content.isEmpty then .ok .null
  else match type with
    | .utf8 => .ok (.utf8 (String.ofList content))
    | .int64 => (Numeral.readInt64 content).map .int64 |>.mapError .numeral
    | .float64 => (Numeral.readBinary64 content).map .float64 |>.mapError .numeral
    | .bool => (readBool content).map .bool

/-- Converts a value to a type. Texts are read as cells, integers widen, and every value has a
    text. -/
def convert (type : ColumnType) (value : Value) : Except CellFault Value :=
  match value, type with
  | .null, _ => .ok .null
  | .utf8 text, _ => readCell type text
  | .int64 n, .float64 => .ok (.float64 (.ofInt n.toInt))
  | .int64 _, .int64 | .float64 _, .float64 | .bool _, .bool => .ok value
  | _, .utf8 => .ok (.utf8 value.text)
  | _, _ => .error (.unsupported value)

end Csv

end RowFlow
