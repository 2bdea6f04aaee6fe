import RowFlow.Pipeline.Run

/-!
# Results of Runs

Runs that end in a certain collector and give its result.
-/

namespace RowFlow

/-! ## Kinds of results -/

namespace Output

def table? : Output → Option Table
  | .table t => some t
  | _ => none

def count? : Output → Option Nat
  | .count n => some n
  | _ => none

def distinct? : Output → Option (List (Value × Nat))
  | .distinct counts => some counts
  | _ => none

def rows? : Output → Option (List Row)
  | .rows held => some held
  | _ => none

def value? : Output → Option Value
  | .value v => some v
  | _ => none

end Output

/-- The part of a result that was asked for. -/
def requirePart {β : Type} (part : Output → Option β) (expected : String)
    (result : Except Error (Option Output)) : Except Error β := do
  match (← result).bind part with
  | some b => return b
  | none => throw (.consumerState (.noResult expected))

namespace Pipeline

variable {ι π κ α : Type} [StepKind ι π κ] [Producer π] [Consumer Files κ]

/-- Runs a pipeline with a collection at its end and gives a part of the result. -/
def collect {β : Type} (pipeline : Pipeline ι α) (collection : Collection)
    (part : Output → Option β) (expected : String) (session : Session α) :
    Except Error β × Session α :=
  let (result, session) := pipeline.runWith (StepKind.ofStep (.collect collection)) session
  (requirePart part expected result, session)

/-- All rows as a table. -/
def toTable (pipeline : Pipeline ι α) (session : Session α) : Except Error Table × Session α :=
  pipeline.collect .table Output.table? "a data set" session

/-- The first rows as a table. -/
def head (pipeline : Pipeline ι α) (rows : Nat) (session : Session α) :
    Except Error Table × Session α :=
  (pipeline.limit rows).toTable session

/-- The number of rows. -/
def count (pipeline : Pipeline ι α) (session : Session α) : Except Error Nat × Session α :=
  pipeline.collect .count Output.count? "a row count" session

/-- The frequencies of the values of columns, of all columns if none are given. -/
def distinct (pipeline : Pipeline ι α) (columns : List Column) (session : Session α) :
    Except Error (List (Value × Nat)) × Session α :=
  pipeline.collect (.distinct columns) Output.distinct? "distinct values" session

/-- The values of a column in the order of their first occurrence. -/
def distinctValues (pipeline : Pipeline ι α) (column : Column) (session : Session α) :
    Except Error (List Value) × Session α :=
  let (counts, session) := pipeline.distinct [column] session
  (counts.map (·.map Prod.fst), session)

/-- The reduction of a column. -/
def reduce (pipeline : Pipeline ι α) (column : Column) (reduction : Reduction)
    (session : Session α) : Except Error Value × Session α :=
  pipeline.collect (.reduce column reduction) Output.value? "a reduced value" session

/-- The rows with their numbers. -/
def collectRows (pipeline : Pipeline ι α) (session : Session α) :
    Except Error (List Row) × Session α :=
  pipeline.collect .rows Output.rows? "rows" session

/-- Writes the rows to a CSV file of the standard dialect. -/
def writeCsv (pipeline : Pipeline ι α) (path : String) (session : Session α) :
    Except Error Unit × Session α :=
  let (result, session) :=
    pipeline.runWith (StepKind.ofStep (.collect (.csvFile path .standard))) session
  (result.map fun _ => (), session)

end Pipeline

end RowFlow
