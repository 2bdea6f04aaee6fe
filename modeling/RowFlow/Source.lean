import RowFlow.Csv.Rows
import RowFlow.Files
import RowFlow.Json.Rows

/-!
# Sources

Where the rows of a pipeline come from. Tables, files and sources of one's own can be read any
number of times; a one-shot source gives its rows to the first reader only.
-/

namespace RowFlow

/-! ## Kinds of sources -/

/-- Where a JSON text is. -/
inductive JsonInput where
  | path (path : String)
  | text (text : String)
  deriving DecidableEq

/-- A source of one's own, which can be read any number of times. What it tells may depend on the
    files, and it may fail wherever it is asked. -/
structure CustomSource where
  schema : Files → Except Error Schema
  /-- opens the source: rows, numbered as the source likes, and failures -/
  items : Files → Except Error (List (Except Error Row))
  outline : String

/-- A source of rows. -/
inductive Source where
  | table (table : Table)
  /-- a CSV file; without a schema every column is text -/
  | csv (path : String) (schema : Option Schema) (dialect : Csv.Dialect)
  | json (input : JsonInput) (schema : Schema)
  /-- rows and failures that can be read once -/
  | once (schema : Schema) (items : List (Except Error Row))
  | custom (source : CustomSource)

namespace Source

/-- Rows that can be read once, numbered from zero. -/
def onceOf (schema : Schema) (rows : List (List Value)) : Source :=
  .once schema ((numbered rows).map .ok)

/-! ## Reading -/

/-- The content of a file, which must exist. -/
def fileContent (files : Files) (path : String) : Except Error (List UInt8) :=
  match files.read? path with
  | some content => .ok content
  | none => .error (.source .missingFile)

/-- The schema of the rows. -/
def schema (files : Files) : Source → Except Error Schema
  | .table t => .ok t.schema
  | .csv _ (some schema) _ => .ok schema
  | .csv path none dialect => do Csv.schemaOf dialect (← fileContent files path)
  | .json _ schema => .ok schema
  | .once schema _ => .ok schema
  | .custom source => source.schema files

/-- The rows of a source, each of which may be a failure. -/
def items (files : Files) : Source → Except Error (List (Except Error Row))
  | .table t => .ok (t.numberedRows.map .ok)
  | .csv path schema dialect => do
    let schema ← (Source.csv path schema dialect).schema files
    Csv.rows dialect schema (← fileContent files path)
  | .json (.path path) schema => do Json.rows schema (← fileContent files path)
  | .json (.text text) schema => Json.rows schema (Utf8.encode text)
  | .once _ items => .ok items
  | .custom source => source.items files

/-- Opens a source for reading. `spent` tells whether a one-shot source has been opened before, and
    whether it has been afterwards. -/
def openOn (source : Source) (files : Files) (spent : Bool) :
    Except Error (List (Except Error Row)) × Bool :=
  match source with
  | .once _ items => (if spent then .error .sourceExhausted else .ok items, true)
  | source => (source.items files, spent)

/-! ## Outline -/

private def rowOutline (values : List Value) : String := Outline.list (values.map Value.outline)

private def inputOutline : JsonInput → String
  | .path path => Outline.call "Path" [Text.quoted path]
  | .text text => Outline.call "Text" [Text.quoted text]

/-- The outline of a source, of which the rows are shown if they can be read again. -/
def outline (spent : Bool) : Source → String
  | .table t =>
    Outline.record "DataSet"
      [("schema", t.schema.outline), ("rows", Outline.list (t.rows.map rowOutline))]
  | .csv path schema dialect =>
    Outline.record "CsvSource"
      [("path", Text.quoted path), ("schema", Outline.option (schema.map Schema.outline)),
       ("options", dialect.outline)]
  | .json input schema =>
    Outline.record "JsonSource" [("input", inputOutline input), ("schema", schema.outline)]
  | .once schema _ =>
    Outline.record "IterSource" [("schema", schema.outline), ("exhausted", Outline.bool spent)]
  | .custom source => source.outline

end Source

end RowFlow
