import RowFlow.Csv.Cell
import RowFlow.Csv.Record
import RowFlow.Table.Basic

/-!
# Rows of CSV Files

The schema of a CSV file and its rows under a schema. With a header, columns are found by name,
without one by position.
-/

namespace RowFlow

namespace Csv

/-! ## Columns -/

/-- The fields of the first record. -/
def firstRecord (records : List (Except Error (List String))) : Except Error (List String) :=
  records.head?.getD (.ok [])

/-- The names of a file's columns: those of the header without blanks around them, or numbers. -/
def columnNames (dialect : Dialect) (records : List (Except Error (List String))) :
    Except Error (List String) := do
  let first ← firstRecord records
  if dialect.hasHeaders then return first.map Text.trim
  else return (List.range first.length).map fun i => "column_" ++ toString i

/-- The position of a field in a header. -/
def headerPosition (header : List String) (field : Field) : Except Error Nat :=
  match header.findIdx? (Text.trim · == field.name) with
  | some position => .ok position
  | none => .error (.schemaMismatch (.missingHeader field.name header))

/-- The positions of the fields of a schema in each record. -/
def positions (dialect : Dialect) (schema : Schema) (records : List (Except Error (List String))) :
    Except Error (List Nat) :=
  if dialect.hasHeaders then do
    let header ← firstRecord records
    schema.fields.mapM (headerPosition header)
  else .ok (List.range schema.width)

/-- The schema of a file in which every column is text. -/
def schemaOf (dialect : Dialect) (bytes : List UInt8) : Except Error Schema := do
  Schema.ofNames (← columnNames dialect (textRecords dialect.delimiter bytes))

/-! ## Rows -/

/-- The value of a cell. A record that is too short has empty cells. -/
def cellValue (dialect : Dialect) (line : Nat) (record : List String) (field : Field)
    (position : Nat) : Except Error Value :=
  let raw := record.getD position ""
  if raw = dialect.nullText then .ok .null
  else (readCell field.type raw).mapError fun cause => .source (.cell line field.name raw cause)

/-- The values of a record under a schema. -/
def recordValues (dialect : Dialect) (schema : Schema) (positions : List Nat) (line : Nat)
    (record : List String) : Except Error (List Value) :=
  (schema.fields.zip positions).mapM fun (field, position) =>
    cellValue dialect line record field position

/-- The rows of a file. Rows are numbered from zero; errors count records, with the header, from
    one. A row that cannot be read does not keep the next ones from being read. -/
def rows (dialect : Dialect) (schema : Schema) (bytes : List UInt8) :
    Except Error (List (Except Error Row)) := do
  let records := textRecords dialect.delimiter bytes
  let places ← positions dialect schema records
  let (body, firstLine) := if dialect.hasHeaders then (records.tail, 2) else (records, 1)
  return body.zipIdx.map fun (record, id) => do
    return ⟨id, ← recordValues dialect schema places (id + firstLine) (← record)⟩

end Csv

end RowFlow
