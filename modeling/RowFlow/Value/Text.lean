import RowFlow.Number.Layout
import RowFlow.Text.Outline
import RowFlow.Text.Quoted
import RowFlow.Value.Basic

/-!
# Text of Values

A value as the text of a cell, and its outline, which names the type of every part.
-/

namespace RowFlow

namespace Value

/-! ## Cell text -/

mutual

/-- The text of a cell. Null is empty, and the parts of a tuple stand in parentheses. -/
def text : Value → String
  | .null => ""
  | .int64 n => toString n.toInt
  | .float64 x => Layout.plain.write x
  | .bool b => if b then "true" else "false"
  | .utf8 text => text
  | .tuple items => "(" ++ ", ".intercalate (texts items) ++ ")"

/-- The texts of several cells. -/
def texts : List Value → List String
  | [] => []
  | v :: vs => text v :: texts vs

end

/-! ## Outline -/

mutual

/-- The outline of a value. -/
def outline : Value → String
  | .null => "Null"
  | .int64 n => Outline.call "Int64" [toString n.toInt]
  | .float64 x => Outline.call "Float64" [Layout.outline.write x]
  | .bool b => Outline.call "Bool" [Outline.bool b]
  | .utf8 text => Outline.call "Utf8" [Text.quoted text]
  | .tuple items => Outline.call "Tuple" [Outline.list (outlines items)]

/-- The outlines of several values. -/
def outlines : List Value → List String
  | [] => []
  | v :: vs => outline v :: outlines vs

end

end Value

end RowFlow
