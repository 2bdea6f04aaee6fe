import RowFlow.Chain.Consumer
import RowFlow.Csv.Writer
import RowFlow.Files
import RowFlow.Text.Utf8

/-!
# Collectors

Collections at work. All but the row counter check that a row has the width of their input before
they take it in.
-/

namespace RowFlow

/-! ## Frequencies -/

/-- Counts one more occurrence of a key. Keys stay in the order of their first occurrence. -/
def tally (key : Value) : List (Value × Nat) → List (Value × Nat)
  | [] => [(key, 1)]
  | (other, n) :: rest =>
    if other = key then (other, n + 1) :: rest else (other, n) :: tally key rest

/-! ## Files under way -/

/-- A CSV file that rows are written to. It is created when the first row arrives, or at the end. -/
structure FileWriter where
  width : Nat
  path : String
  dialect : Csv.Dialect
  /-- the record that the file starts with, if any -/
  header : Option (List String)
  created : Bool

namespace FileWriter

/-- The bytes of a record of texts. -/
def record (writer : FileWriter) (cells : List String) : List UInt8 :=
  Csv.writeRecord writer.dialect.delimiter (cells.map Utf8.encode)

/-- The text of a cell. -/
def cell (writer : FileWriter) : Value → String
  | .null => writer.dialect.nullText
  | value => value.text

/-- Creates the file, or empties it, unless this has been done, and writes the header. -/
def create (writer : FileWriter) (files : Files) : Except Error Unit × FileWriter × Files :=
  if writer.created then (.ok (), writer, files)
  else if Files.reaches writer.path then
    (.ok (), { writer with created := true },
      files.write writer.path ((writer.header.map writer.record).getD []))
  else (.error (.source .missingFile), writer, files)

/-- Writes the record of a row. -/
def put (writer : FileWriter) (values : List Value) (files : Files) :
    Except Error Unit × FileWriter × Files :=
  match writer.create files with
  | (.ok (), writer, files) =>
    (.ok (), writer, files.append writer.path (writer.record (values.map writer.cell)))
  | failed => failed

end FileWriter

/-! ## Collectors -/

/-- The state of a collection in a run. -/
inductive Collector where
  | table (schema : Schema) (held : List (List Value))
  | count (seen : Nat)
  | distinct (width : Nat) (positions : List Nat) (counts : List (Value × Nat))
  | rows (width : Nat) (held : List Row)
  | reduce (width position : Nat) (accumulator : Accumulator)
  | csvFile (writer : FileWriter)

namespace Collector

/-- The width that rows must have, if it matters. -/
def width? : Collector → Option Nat
  | .table schema _ => some schema.width
  | .count _ => none
  | .distinct width _ _ | .rows width _ | .reduce width _ _ => some width
  | .csvFile writer => some writer.width

/-- Takes in a row of the right width. -/
def take (row : Row) (files : Files) : Collector → Except Error Unit × Collector × Files
  | .table schema held => (.ok (), .table schema (held ++ [row.values]), files)
  | .count seen => (.ok (), .count (seen + 1), files)
  | .distinct width positions counts =>
    (.ok (), .distinct width positions (tally (gather positions row.values) counts), files)
  | .rows width held => (.ok (), .rows width (held ++ [row]), files)
  | .reduce width position accumulator =>
    let (done, accumulator) := accumulator.push (row.values.getD position .null)
    (done, .reduce width position accumulator, files)
  | .csvFile writer =>
    let (done, writer, files) := writer.put row.values files
    (done, .csvFile writer, files)

/-- Takes in a row. A collector never asks to stop. -/
def consume (row : Row) (collector : Collector) (files : Files) :
    Except Error Flow × Collector × Files :=
  match (collector.width?.map (expectWidth row.values)).getD (.ok ()) with
  | .error e => (.error e, collector, files)
  | .ok () =>
    let (done, collector, files) := collector.take row files
    (done.map fun _ => .more, collector, files)

/-- Gives the result. Collected rows, tables and frequencies are given away; counts and reductions
    stay. -/
def close (files : Files) : Collector → Except Error (Option Output) × Collector × Files
  | .table schema held => (.ok (some (.table ⟨schema, held⟩)), .table schema [], files)
  | .count seen => (.ok (some (.count seen)), .count seen, files)
  | .distinct width positions counts =>
    (.ok (some (.distinct counts)), .distinct width positions [], files)
  | .rows width held => (.ok (some (.rows held)), .rows width [], files)
  | .reduce width position accumulator =>
    (.ok (some (.value accumulator.finish)), .reduce width position accumulator, files)
  | .csvFile writer =>
    let (done, writer, files) := writer.create files
    (done.map fun _ => none, .csvFile writer, files)

instance : Consumer Files Collector where
  consume := consume
  close collector files := collector.close files

end Collector

end RowFlow
