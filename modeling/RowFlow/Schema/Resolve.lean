import RowFlow.Error

/-!
# Resolving Columns

Schemas with distinct names, references to their columns, and the check that a row fits a schema.
-/

namespace RowFlow

namespace Schema

/-! ## Distinct names -/

/-- The first name that occurs again after names already `seen`, or twice. -/
def repeatedName? (seen : List String) : List Field → Option String
  | [] => none
  | field :: rest =>
    if seen.contains field.name then some field.name else repeatedName? (field.name :: seen) rest

/-- A schema of fields with distinct names. -/
def ofFields (fields : List Field) : Except Error Schema :=
  match repeatedName? [] fields with
  | some name => .error (.schemaMismatch (.duplicateColumn name))
  | none => .ok ⟨fields⟩

/-- A schema of text columns with distinct names. -/
def ofNames (names : List String) : Except Error Schema :=
  ofFields (names.map fun name => ⟨name, .utf8⟩)

/-! ## References -/

/-- The position that a reference denotes. -/
def position? (schema : Schema) : Column → Option Nat
  | .name name => schema.indexOf? name
  | .index position => if position < schema.width then some position else none

def resolve (schema : Schema) (column : Column) : Except Error Nat :=
  match schema.position? column with
  | some position => .ok position
  | none => .error (.schemaMismatch (.unknownColumn column schema.names))

/-- Resolves references from left to right. -/
def resolveEach (schema : Schema) (columns : List Column) : Except Error (List Nat) :=
  columns.mapM schema.resolve

/-- The schema of the fields at the given positions. There is none if a position is not in the
    schema. -/
def project? (schema : Schema) (positions : List Nat) : Option (Except Error Schema) :=
  ofFields <$> positions.mapM (schema.fields[·]?)

/-- The type of the column at a position. -/
def typeAt (schema : Schema) (position : Nat) : ColumnType :=
  (schema.fields[position]?.map Field.type).getD .utf8

end Schema

/-! ## Rows of a schema -/

/-- Fails unless a row has as many values as there are columns. -/
def expectWidth (values : List Value) (width : Nat) : Except Error Unit :=
  if values.length = width then .ok ()
  else .error (.schemaMismatch (.rowWidth values.length width))

theorem expectWidth_eq_ok_iff {values : List Value} {width : Nat} :
    expectWidth values width = .ok () ↔ values.length = width := by
  unfold expectWidth
  split
  · rename_i h
    exact ⟨fun _ => h, fun _ => rfl⟩
  · rename_i h
    exact ⟨nofun, fun h' => absurd h' h⟩

/-- The values at resolved positions: a single one as it is, several as a tuple. -/
def gather (positions : List Nat) (values : List Value) : Value :=
  match positions with
  | [position] => values.getD position .null
  | _ => .tuple (pick positions values)

end RowFlow
