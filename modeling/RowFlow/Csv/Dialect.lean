import RowFlow.Text.Outline
import RowFlow.Text.Quoted

/-!
# CSV Dialects

The options that reading and writing CSV files share.
-/

namespace RowFlow

namespace Csv

/-- The options of a CSV file. -/
structure Dialect where
  /-- the byte between two fields -/
  delimiter : UInt8
  /-- whether the first record names the columns -/
  hasHeaders : Bool
  /-- the cell that stands for null; empty cells always do when a file is read -/
  nullText : String
  deriving DecidableEq

namespace Dialect

/-- Commas, a header and empty nulls. -/
def standard : Dialect := ⟨','.toUInt8, true, ""⟩

instance : Inhabited Dialect := ⟨standard⟩

def outline (dialect : Dialect) : String :=
  Outline.record "CsvOptions"
    [("delimiter", toString dialect.delimiter.toNat),
     ("has_headers", Outline.bool dialect.hasHeaders),
     ("null_value", Text.quoted dialect.nullText)]

end Dialect

end Csv

end RowFlow
