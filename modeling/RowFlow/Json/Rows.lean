import RowFlow.Error
import RowFlow.Json.Reader
import RowFlow.Table.Basic

/-!
# Rows of JSON Documents

Each object is a row. A field of the schema is the member of that name, or the member that a path of
names separated by dots leads to.
-/

namespace RowFlow

namespace Json

/-! ## Members -/

/-- The parts of a text between its dots. -/
def splitAtDots : List Char → List (List Char)
  | [] => [[]]
  | c :: rest =>
    match splitAtDots rest with
    | part :: parts => if c = '.' then [] :: part :: parts else (c :: part) :: parts
    | [] => [[c]]

/-- The names in a path. -/
def pathNames (path : String) : List String := (splitAtDots path.toList).map String.ofList

/-- The document that names lead to, one level each. -/
def descend (document : Json) : List String → Option Json
  | [] => some document
  | name :: rest => do ((← (← members? document).lookup name).descend rest)

/-- The member of a name. If there is none, the name is read as a path. -/
def member? (members : List (String × Json)) (name : String) : Option Json :=
  (members.lookup name).or ((Json.object members).descend (pathNames name))

/-! ## Cells -/

/-- The value of a member that a column of a type asks for. -/
def readCell (type : ColumnType) (document : Json) : Except CellFault Value :=
  match type, document with
  | _, .null => .ok .null
  | .utf8, .string text => .ok (.utf8 text)
  | .utf8, _ => .error .expectedString
  | .bool, .bool b => .ok (.bool b)
  | .bool, _ => .error .expectedBoolean
  | .int64, .int n =>
    match Operator.fit? n with
    | some n => .ok (.int64 n)
    | none => .error .integerRange
  | .int64, _ => .error .expectedInteger
  | .float64, .int n => .ok (.float64 (.ofInt n))
  | .float64, .number x => .ok (.float64 x)
  | .float64, _ => .error .expectedNumber

/-- The value of a field in an object. -/
def memberValue (row : Nat) (members : List (String × Json)) (field : Field) : Except Error Value :=
  match member? members field.name with
  | none => .error (.schemaMismatch (.missingField row field.name))
  | some document =>
    (readCell field.type document).mapError fun cause =>
      .source (.cell row field.name document.text cause)

/-! ## Rows -/

/-- The row of a document. Rows are numbered from zero, but from one in errors. -/
def row (schema : Schema) (id : Nat) (document : Json) : Except Error Row :=
  match members? document with
  | none => .error (.schemaMismatch (.notObject (id + 1)))
  | some members => do return ⟨id, ← schema.fields.mapM (memberValue (id + 1) members)⟩

/-- The rows of a text. The text is read no further than its first fault. -/
def rows (schema : Schema) (bytes : List UInt8) : Except Error (List (Except Error Row)) :=
  match stream bytes with
  | .error fault => .error (.source (.json fault))
  | .ok documents => .ok <| documents.zipIdx.map fun (document, id) =>
    match document with
    | .error fault => .error (.source (.json fault))
    | .ok document => row schema id document

end Json

end RowFlow
