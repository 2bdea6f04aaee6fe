import RowFlow.Number.Numeral
import RowFlow.Operator.Basic
import RowFlow.Reduction.Basic
import RowFlow.Schema.Basic
import RowFlow.Value.Text

/-!
# Errors

What can go wrong when pipelines are defined, opened and run. Errors are causes; `Error.message`
holds all their wording.
-/

namespace RowFlow

/-! ## Causes -/

/-- Why columns, steps and rows do not fit together. -/
inductive SchemaFault where
  | duplicateColumn (name : String)
  | unknownColumn (column : Column) (columns : List String)
  | rowWidth (values columns : Nat)
  | noSuchValue (values position : Nat)
  | movePosition (position columns : Nat)
  | insertPosition (position columns : Nat)
  | nameCount (columns names : Nat)
  | functionCount (columns functions : Nat)
  | afterCollector (position : Nat) (step : String)
  | missingHeader (name : String) (headers : List String)
  | notObject (row : Nat)
  | missingField (row : Nat) (name : String)
  deriving DecidableEq

/-- How a consumer was misused. -/
inductive StateFault where
  | consumeAfterClose
  | closeAfterClose
  /-- a run ended without the kind of result that was asked for -/
  | noResult (expected : String)
  deriving DecidableEq

/-- Why a cell cannot be read or converted. -/
inductive CellFault where
  | numeral (fault : NumeralFault)
  | booleanWord
  | unsupported (value : Value)
  | expectedString
  | expectedBoolean
  | integerRange
  | expectedInteger
  | expectedNumber
  deriving DecidableEq

/-- Why a row has no value. -/
inductive EvaluationFault where
  | notBoolean (value : Value)
  | integerOverflow (operator : Operator) (left right : Int64)
  | divisionByZero (left right : Value)
  | operands (operator : Operator) (left right : Value)
  | sumOverflow (sum value : Int64)
  | tupleLength (columns values : Nat)
  | notTuple (columns : Nat) (value : Value)
  | callback (name : String) (value : Value) (message : String)
  | cast (row : Nat) (column : String) (type : ColumnType) (cause : CellFault)
  deriving DecidableEq

/-- Why a text is not the JSON that was expected. -/
inductive JsonFault where
  /-- it breaks the grammar or a limit -/
  | malformed
  /-- it ends inside a value -/
  | truncated
  /-- it is JSON of another shape -/
  | mismatched
  deriving DecidableEq

/-- An error in a chain of errors, each of which is the cause of the one before it. -/
inductive Cause where
  /-- a failure to reach a file or a device -/
  | io
  /-- an error of the CSV reader or writer, `ofFile` if it could not reach its file -/
  | csv (ofFile : Bool)
  | other
  deriving DecidableEq

/-- Why a source or a file has no more rows. -/
inductive SourceFault where
  | missingFile
  /-- a record whose `field` stops being text after `index` bytes -/
  | notText (record line byte field index : Nat)
  | cell (row : Nat) (column raw : String) (cause : CellFault)
  | json (fault : JsonFault)
  /-- an error of a source or a sink of one's own, with the chain that it is the head of -/
  | custom (message : String) (chain : List Cause)
  deriving DecidableEq

/-- An error of a definition, an opening or a run. -/
inductive Error where
  | schemaMismatch (cause : SchemaFault)
  /-- an aggregate, which needs the whole table, was asked for single rows -/
  | notStreamable (reduction : Reduction) (column : Column)
  /-- a source that can be read once was opened again -/
  | sourceExhausted
  | consumerState (cause : StateFault)
  | evaluation (cause : EvaluationFault)
  | source (cause : SourceFault)
  deriving DecidableEq

/-! ## Wording -/

/-- Quoted names in brackets. -/
private def nameList (names : List String) : String := Outline.list (names.map Text.quoted)

/-- A name in single quotes. -/
private def named (name : String) : String := "'" ++ name ++ "'"

def SchemaFault.message : SchemaFault → String
  | .duplicateColumn name => "duplicate column name " ++ named name
  | .unknownColumn column columns =>
    "unknown column " ++ column.text ++ ". columns=" ++ nameList columns
  | .rowWidth values columns => s!"row has {values} values but the schema has {columns} columns"
  | .noSuchValue values position => s!"row has {values} values, no column #{position}"
  | .movePosition position columns => s!"invalid target position {position} for {columns} columns"
  | .insertPosition position columns => s!"invalid insert position {position} for {columns} columns"
  | .nameCount columns names => s!"{columns} columns but {names} names were given"
  | .functionCount columns functions => s!"{columns} new columns but {functions} value functions"
  | .afterCollector position step =>
    s!"step {position} ({step}) follows a collector; " ++
      "a collector emits no rows and must be the last step"
  | .missingHeader name headers =>
    "missing required column " ++ named name ++ ". headers=" ++ nameList headers
  | .notObject row => s!"row {row} is not a json object"
  | .missingField row name => s!"row {row} missing required field " ++ named name

def StateFault.message : StateFault → String
  | .consumeAfterClose => "consume() called after close()"
  | .closeAfterClose => "close() called more than once"
  | .noResult expected => "pipeline did not produce " ++ expected

def CellFault.message : CellFault → String
  | .numeral fault => fault.message
  | .booleanWord => "expected bool (true/false/1/0/yes/no)"
  | .unsupported value => "unsupported " ++ value.typeName ++ " value " ++ named value.text
  | .expectedString => "expected string"
  | .expectedBoolean => "expected bool"
  | .integerRange => "u64 out of range for i64"
  | .expectedInteger => "expected integer number"
  | .expectedNumber => "expected number"

def EvaluationFault.message : EvaluationFault → String
  | .notBoolean value =>
    "expected a boolean, got " ++ value.typeName ++ " value " ++ named value.text
  | .integerOverflow operator left right =>
    s!"integer overflow in {left.toInt} {operator.symbol} {right.toInt}"
  | .divisionByZero left right => s!"division by zero in {left.text} / {right.text}"
  | .operands operator left right =>
    "unsupported operands for " ++ named operator.symbol ++
      s!": {left.typeName} and {right.typeName}"
  | .sumOverflow sum value => s!"integer overflow in sum: {sum.toInt} + {value.toInt}"
  | .tupleLength columns values => s!"expected {columns} values instead of {values}"
  | .notTuple columns value =>
    s!"expected {columns} values instead of a single {value.typeName} value"
  | .callback name value message => s!"{name}({value.text}): {message}"
  | .cast row column type cause =>
    s!"cannot cast row {row} column " ++ named column ++ s!" to {type.name}: {cause.message}"

def JsonFault.message : JsonFault → String
  | .malformed => "malformed JSON text"
  | .truncated => "JSON text ends inside a value"
  | .mismatched => "JSON value of an unexpected shape"

def SourceFault.message : SourceFault → String
  | .missingFile => "No such file or directory (os error 2)"
  | .notText record line byte field index =>
    s!"CSV parse error: record {record} (line {line}, field: {field}, byte: {byte}): " ++
      s!"invalid utf-8: invalid UTF-8 in field {field} near byte index {index}"
  | .cell row column raw cause =>
    s!"failed to parse value at row {row} column " ++ named column ++
      s!": {cause.message} (raw=" ++ named raw ++ ")"
  | .json fault => fault.message
  | .custom message _ => message

namespace Error

/-- The text of an error: its kind, then its cause. -/
def message : Error → String
  | .schemaMismatch cause => "schema mismatch: " ++ cause.message
  | .notStreamable reduction column =>
    "evaluation function " ++ named s!"{reduction.name}({column.text})" ++
      " is not streamable: it requires the full table"
  | .sourceExhausted => "row source exhausted: the source does not support re-iteration"
  | .consumerState cause => "consumer state error: " ++ cause.message
  | .evaluation cause => "evaluation error: " ++ cause.message
  | .source cause => "source error: " ++ cause.message

end Error

/-! ## Severity -/

def Cause.isIo : Cause → Bool
  | .io => true
  | .csv ofFile => ofFile
  | .other => false

/-- The chain of an error of a source, from the error itself to its first cause. -/
def SourceFault.chain : SourceFault → List Cause
  | .missingFile => [.io]
  | .notText .. => [.csv false]
  | .cell .. | .json _ => [.other]
  | .custom _ chain => chain

/-- Whether an error of a source stems from a failure to reach a file. -/
def SourceFault.containsIo (fault : SourceFault) : Bool := fault.chain.any Cause.isIo

/-- How serious an event or a failure is. -/
inductive Severity where
  | info
  | warning
  | error
  | critical
  deriving DecidableEq, Inhabited

namespace Severity

/-- Severities in rising order. -/
def level : Severity → Nat
  | .info => 0
  | .warning => 1
  | .error => 2
  | .critical => 3

def name : Severity → String
  | .info => "Info"
  | .warning => "Warning"
  | .error => "Error"
  | .critical => "Critical"

/-- Errors of sources are critical if a failure to reach a file is in their chain. All others are
    errors. -/
def ofError : Error → Severity
  | .source fault => if fault.containsIo then .critical else .error
  | _ => .error

end Severity

end RowFlow
