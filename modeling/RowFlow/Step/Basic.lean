import RowFlow.Csv.Dialect
import RowFlow.Expr.Basic

/-!
# Steps

The steps of a pipeline before they know their input. A transform passes rows on; a collection takes
them in and ends the pipeline. Steps hold no rows, so one step serves any number of runs.
-/

namespace RowFlow

/-! ## Transforms -/

/-- A step that passes rows on. -/
inductive Transform where
  /-- keeps the rows on which the truth of the predicate differs from `negated` -/
  | filter (predicate : Expr) (negated : Bool)
  /-- keeps the first rows -/
  | limit (rows : Nat)
  /-- keeps columns in the given order, under new names if there are any -/
  | select (columns : List Column) (names : Option (List String))
  | rename (columns : List Column) (names : List String)
  /-- moves columns to a position among the others -/
  | move (columns : List Column) (position : Nat)
  /-- adds text columns, at the end if there is no position, with nulls if there are no values -/
  | insert (names : List String) (position : Option Nat) (values : List Expr)
  /-- replaces columns by the value of an expression -/
  | update (columns : List Column) (value : Expr)
  /-- keeps a random choice of rows, repeatable under a seed -/
  | sample (size : Nat) (seed : Option UInt64)
  | sort (keys : List Column) (descending : Bool)
  /-- converts columns to other types -/
  | typecast (casts : List (Column × ColumnType))

namespace Transform

private def columnList (columns : List Column) : String :=
  Outline.list (columns.map Column.outline)

private def nameList (names : List String) : String := Outline.list (names.map Text.quoted)

private def castOutline (cast : Column × ColumnType) : String :=
  Outline.call "" [cast.1.outline, cast.2.name]

/-- The outline of a transform. -/
def outline : Transform → String
  | .filter predicate negated =>
    Outline.record "Filter" [("predicate", predicate.outline), ("negated", Outline.bool negated)]
  | .limit rows => Outline.record "Limit" [("rows", toString rows)]
  | .select columns names =>
    Outline.record "Select"
      [("columns", columnList columns), ("names", Outline.option (names.map nameList))]
  | .rename columns names =>
    Outline.record "Rename" [("columns", columnList columns), ("names", nameList names)]
  | .move columns position =>
    Outline.record "MoveColumns" [("columns", columnList columns), ("pos", toString position)]
  | .insert names position values =>
    Outline.record "Insert"
      [("names", nameList names), ("pos", Outline.option (position.map toString)),
       ("values", Outline.list (values.map Expr.outline))]
  | .update columns value =>
    Outline.record "Update" [("columns", columnList columns), ("func", value.outline)]
  | .sample size seed =>
    Outline.record "Sample"
      [("n", toString size), ("seed", Outline.option (seed.map fun s => toString s.toNat))]
  | .sort keys descending =>
    Outline.record "Sort" [("keys", columnList keys), ("descending", Outline.bool descending)]
  | .typecast casts =>
    Outline.record "Typecast" [("casts", Outline.list (casts.map castOutline))]

/-- The number of generators that the operating system is asked for when a transform is opened. -/
def draws : Transform → Nat
  | .sample _ none => 1
  | _ => 0

end Transform

/-! ## Collections -/

/-- A step that takes rows in and gives a result. -/
inductive Collection where
  /-- all rows as a table -/
  | table
  /-- the number of rows -/
  | count
  /-- the frequencies of the values of columns, all of them if none are given -/
  | distinct (columns : List Column)
  /-- the rows with their numbers -/
  | rows
  /-- the reduction of a column -/
  | reduce (column : Column) (reduction : Reduction)
  /-- a CSV file; gives no result -/
  | csvFile (path : String) (dialect : Csv.Dialect)

/-- The outline of a collection. -/
def Collection.outline : Collection → String
  | .table => "CollectDataSet"
  | .count => "CountRows"
  | .distinct columns =>
    Outline.record "Distinct" [("columns", Outline.list (columns.map Column.outline))]
  | .rows => "CollectRows"
  | .reduce column reduction =>
    Outline.record "Reduce" [("column", column.outline), ("op", reduction.outline)]
  | .csvFile path dialect =>
    Outline.record "WriteCsv" [("path", Text.quoted path), ("options", dialect.outline)]

/-! ## Steps -/

/-- A step of a pipeline. -/
inductive Step where
  | transform (t : Transform)
  | collect (c : Collection)

def Step.outline : Step → String
  | .transform t => t.outline
  | .collect c => c.outline

/-- The number of generators that the operating system is asked for when a step is opened. -/
def Step.draws : Step → Nat
  | .transform t => t.draws
  | .collect _ => 0

end RowFlow
