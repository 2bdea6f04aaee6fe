import RowFlow.Proofs.Json.Containers
import RowFlow.Proofs.Value.Order

/-!
# Tables Read Back

The JSON text of a table is read as the table (`Json.tableOfText_tableText`), whatever its columns
are called and however wide its rows are. Values are led through their reader by induction over
tuples, of which each one takes two levels of the reader's depth. The texts of floating numbers are
left out.
-/

namespace RowFlow

/-! ## Depth -/

namespace Value

mutual

/-- How deep tuples nest in a value. -/
def depth : Value → Nat
  | .tuple items => depthOf items + 1
  | _ => 0

/-- How deep tuples nest in the deepest one of several values. -/
def depthOf : List Value → Nat
  | [] => 0
  | v :: vs => max v.depth (depthOf vs)

end

mutual

/-- Whether a value holds no floating number, at any depth. -/
def floatFree : Value → Bool
  | .float64 _ => false
  | .tuple items => floatFreeAll items
  | _ => true

def floatFreeAll : List Value → Bool
  | [] => true
  | v :: vs => v.floatFree && floatFreeAll vs

end

/-- Tuples nest in the deepest value at least as deep as in any. -/
theorem depth_le_depthOf {v : Value} {vs : List Value} (h : v ∈ vs) : v.depth ≤ depthOf vs := by
  induction vs with
  | nil => cases h
  | cons w vs ih =>
    rw [depthOf]
    rcases List.mem_cons.1 h with rfl | h
    · exact Nat.le_max_left _ _
    · exact Nat.le_trans (ih h) (Nat.le_max_right _ _)

/-- Values without floating numbers are so one by one. -/
theorem floatFree_of_mem {v : Value} {vs : List Value} (hvs : floatFreeAll vs = true) (h : v ∈ vs) :
    v.floatFree = true := by
  induction vs with
  | nil => cases h
  | cons w vs ih =>
    rw [floatFreeAll, Bool.and_eq_true] at hvs
    rcases List.mem_cons.1 h with rfl | h
    · exact hvs.1
    · exact ih hvs.2 h

end Value

namespace Json

/-! ## Values -/

/-- The texts of values are those of each. -/
theorem valueTexts_eq_map (vs : List Value) : valueTexts vs = vs.map valueText := by
  induction vs with
  | nil => rfl
  | cons v vs ih => rw [valueTexts, ih, List.map_cons]

/-- Below the last level, values may be objects. -/
theorem exists_tableValueWith {n : Nat} (h : 0 < n) :
    ∃ part, tableValue n = tableValueWith true part := by
  match n with
  | 1 => exact ⟨none, rfl⟩
  | n + 2 => exact ⟨some (tableValue n), rfl⟩

/-- A value is read at twice its depth. -/
theorem reads_valueText {v : Value} {n : Nat} (hfloat : v.floatFree = true)
    (hdepth : 2 * v.depth < n) : Reads (tableValue n) (valueText v) v := by
  induction v using Value.tuple_induction generalizing n with
  | scalar v hscalar =>
    obtain ⟨part, hpart⟩ := exists_tableValueWith (Nat.zero_lt_of_lt hdepth)
    rw [hpart]
    -- a null is a bare word, and each other scalar an object with one member
    cases v with
    | null => exact reads_bare rfl
    | int64 m => exact ((reads_toString m).map Value.int64).variant rfl
    | float64 x => cases hfloat
    | bool b => exact ((reads_truth b).map Value.bool).variant rfl
    | utf8 text => exact ((reads_stringText text).map Value.utf8).variant rfl
    | tuple items => exact absurd rfl hscalar
  | tuple items ih =>
    -- a tuple takes two levels, one for its object and one for its array
    rw [Value.depth] at hdepth
    obtain ⟨d, rfl⟩ : ∃ d, n = d + 2 := ⟨n - 2, by omega⟩
    have hitems : ∀ v ∈ items, Reads (tableValue d) (valueText v) v := by
      intro v hv
      have hle := Value.depth_le_depthOf hv
      exact ih v hv (Value.floatFree_of_mem hfloat hv) (by omega)
    have hparts := (reads_arrayOf hitems).map Value.tuple
    rw [← valueTexts_eq_map] at hparts
    have htable : tableValue (d + 2) = tableValueWith true (some (tableValue d)) := rfl
    rw [htable]
    exact hparts.variant rfl

/-- A row is read as its values, however many they are. -/
theorem reads_row {row : List Value} {n : Nat} (hfloat : ∀ v ∈ row, v.floatFree = true)
    (hdepth : ∀ v ∈ row, 2 * v.depth < n) :
    Reads (arrayOf (tableValue n)) (between "[" (valueTexts row) "]") row := by
  rw [valueTexts_eq_map]
  exact reads_arrayOf fun v hv => reads_valueText (hfloat v hv) (hdepth v hv)

/-! ## Schemas -/

/-- The name of a type names it. -/
theorem columnType?_name (type : ColumnType) : columnType? type.name = some type := by
  cases type <;> rfl

/-- A type is read back from its name. -/
theorem reads_columnType (type : ColumnType) :
    Reads columnTypeValue (stringText type.name) type :=
  reads_bare (columnType?_name type)

/-- A field is written as an object of two members. -/
theorem fieldText_eq (field : Field) :
    fieldText field = between "\x7b" (partTexts
      [("name", stringText field.name), ("data_type", stringText field.type.name)]) "\x7d" := by
  have hname : "\"name\":" = stringText "name" ++ ":" := by decide
  have htype : "\"data_type\":" = stringText "data_type" ++ ":" := by decide
  rw [fieldText, hname, htype]
  rfl

/-- A field is read back from its text. -/
theorem reads_fieldText (field : Field) : Reads fieldValue (fieldText field) field := by
  have hname := (reads_stringText field.name).map fun name => (some name, (none : Option ColumnType))
  have htype := (reads_columnType field.type).map fun type => (some field.name, some type)
  -- the members come in the order in which the format asks for them
  have hfills : Fills fieldFormat (none, none)
      [("name", stringText field.name), ("data_type", stringText field.type.name)]
      (some field.name, some field.type) :=
    .next rfl rfl hname (.next rfl rfl htype (.done _))
  rw [fieldText_eq]
  exact hfills.reads rfl

/-- The text of a schema. -/
def schemaText (schema : Schema) : String :=
  tagged "fields" (between "[" (schema.fields.map fieldText) "]")

/-- A schema is read back from its text. -/
theorem reads_schemaText (schema : Schema) : Reads schemaValue (schemaText schema) schema := by
  have hfields := (reads_arrayOf fun field (_ : field ∈ schema.fields) =>
    reads_fieldText field).map some
  have hfills : Fills schemaFormat none
      [("fields", between "[" (schema.fields.map fieldText) "]")] (some schema.fields) :=
    .next rfl rfl hfields (.done _)
  exact hfills.reads rfl

/-! ## Tables -/

/-- The text of rows. -/
def rowsText (rows : List (List Value)) : String :=
  between "[" (rows.map fun row => between "[" (valueTexts row) "]") "]"

/-- A table is written as an object of its schema and its rows. -/
theorem tableText_eq (table : Table) :
    tableText table = between "\x7b" (partTexts
      [("schema", schemaText table.schema), ("rows", rowsText table.rows)]) "\x7d" := by
  have hschema : "\"schema\":" = stringText "schema" ++ ":" := by decide
  have hrows : "\"rows\":" = stringText "rows" ++ ":" := by decide
  rw [tableText, hschema, hrows]
  rfl

/-- A table is read as deep as its values need. -/
theorem reads_tableText {table : Table}
    (hfloat : ∀ row ∈ table.rows, ∀ v ∈ row, v.floatFree = true)
    (hdepth : ∀ row ∈ table.rows, ∀ v ∈ row, 2 * v.depth < depthLimit - 3) :
    Reads tableReader (tableText table) table := by
  have hschema := (reads_schemaText table.schema).map
    fun schema => (some schema, (none : Option (List (List Value))))
  have hrows := (reads_arrayOf fun row hrow => reads_row (hfloat row hrow) (hdepth row hrow)).map
    fun rows => (some table.schema, some rows)
  -- once the schema is read, the rows are read for it
  have hfills : Fills tableFormat (none, none)
      [("schema", schemaText table.schema), ("rows", rowsText table.rows)]
      (some table.schema, some table.rows) :=
    .next rfl rfl hschema (.next rfl rfl hrows (.done _))
  rw [tableText_eq]
  exact hfills.reads rfl

/-- **A table is read back from its JSON text.** The names of its columns, the widths of its rows and
    the types of its values are free; only floating numbers must not stand in it, and tuples must not
    nest more than 50 deep. -/
theorem tableOfText_tableText {table : Table}
    (hfloat : ∀ row ∈ table.rows, ∀ v ∈ row, v.floatFree = true)
    (hdepth : ∀ row ∈ table.rows, ∀ v ∈ row, v.depth ≤ 50) :
    tableOfText (tableText table) = .ok table := by
  -- 50 tuples take 100 levels of the depth, and the table itself three
  have hlimit : ∀ row ∈ table.rows, ∀ v ∈ row, 2 * v.depth < depthLimit - 3 := by
    intro row hrow v hv
    have hle := hdepth row hrow v hv
    rw [depthLimit]
    omega
  have hread := (reads_tableText hfloat hlimit).reads [] nofun
  rw [List.append_nil] at hread
  rw [tableOfText, hread]
  rfl

/-- A value inside of tuples of one item. -/
def nest (v : Value) : Nat → Value
  | 0 => v
  | n + 1 => .tuple [nest v n]

/-- A table with what its text has to escape, with columns of one name and rows of any width. -/
def awkward : Table where
  schema := ⟨[⟨"", .utf8⟩, ⟨"\"a\\\x07\"", .float64⟩, ⟨"", .int64⟩]⟩
  rows :=
    [[], [.utf8 "\"\\/\x08\x0c\n\r\t\x01\x1f\x7f é€😀", .int64 .minValue, .bool false],
      [.null, .int64 .maxValue, .int64 0, .tuple [], .tuple [.utf8 "", .tuple [.null, .bool true]]],
      [nest (.utf8 "deep") 50]]

theorem awkward_read_back :
    (∀ row ∈ awkward.rows, ∀ v ∈ row, v.floatFree = true) ∧
      (∀ row ∈ awkward.rows, ∀ v ∈ row, v.depth ≤ 50) ∧
      tableOfText (tableText awkward) = .ok awkward := by
  have hfloat : ∀ row ∈ awkward.rows, ∀ v ∈ row, v.floatFree = true := by decide
  have hdepth : ∀ row ∈ awkward.rows, ∀ v ∈ row, v.depth ≤ 50 := by decide +kernel
  exact ⟨hfloat, hdepth, tableOfText_tableText hfloat hdepth⟩

end Json

end RowFlow
