import Mathlib.Data.List.GetD
import Mathlib.Data.List.Nodup
import RowFlow.Csv.Rows
import RowFlow.Proofs.Csv.Cell
import RowFlow.Proofs.Csv.Record
import RowFlow.Proofs.Table.Numbering
import RowFlow.Step.Collector

/-!
# Rows Read and Written

The rows of a file are the rows of its records, numbered from zero, and hold in each column null or
a value of its type. Written with the dialect that they are read with, rows are read back, except
that a value with the text of nulls comes back as null (`Csv.rows_content`). The header is found
again if the names in it are distinct and have no blanks around them.
-/

namespace RowFlow

/-! ## Values read back -/

/-- What is read where a value has been written: a value with the text of nulls comes back as
    null. -/
def Value.reread (nullText : String) (v : Value) : Value := if v.text = nullText then .null else v

/-- Null comes back as null. -/
theorem Value.reread_null (nullText : String) : Value.null.reread nullText = .null :=
  ite_self _

/-- A value with another text than nulls comes back as it is. -/
theorem Value.reread_of_ne {nullText : String} {v : Value} (h : v ≠ .null → v.text ≠ nullText) :
    v.reread nullText = v := by
  by_cases hnull : v = .null
  · rw [hnull, reread_null]
  · exact if_neg (h hnull)

/-- And no other value does, but null. -/
theorem Value.reread_eq_self_iff {nullText : String} {v : Value} :
    v.reread nullText = v ↔ (v ≠ .null → v.text ≠ nullText) := by
  refine ⟨fun h hnull htext => hnull ?_, reread_of_ne⟩
  rw [← h, reread, if_pos htext]

namespace Csv

/-! ## Rows of records -/

/-- The row of a record. -/
def rowOf (dialect : Dialect) (schema : Schema) (places : List Nat) (firstLine : Nat)
    (record : Except Error (List String)) (id : Nat) : Except Error Row := do
  return ⟨id, ← recordValues dialect schema places (id + firstLine) (← record)⟩

/-- The records behind the header, if there is one. -/
def body (dialect : Dialect) (records : List (Except Error (List String))) :
    List (Except Error (List String)) :=
  if dialect.hasHeaders then records.tail else records

/-- The line of the first row. -/
def firstLine (dialect : Dialect) : Nat := if dialect.hasHeaders then 2 else 1

section
variable {dialect : Dialect} {schema : Schema} {bytes : List UInt8}

/-- The rows of a file are those of the records behind the header. -/
theorem rows_eq (dialect : Dialect) (schema : Schema) (bytes : List UInt8) :
    rows dialect schema bytes = (do
      let records := textRecords dialect.delimiter bytes
      let places ← positions dialect schema records
      return (body dialect records).zipIdx.map fun (record, id) =>
        rowOf dialect schema places (firstLine dialect) record id) := by
  unfold rows body firstLine
  cases dialect.hasHeaders <;> rfl

/-- Each column has its place in the records. -/
theorem length_positions {records : List (Except Error (List String))} {places : List Nat}
    (h : positions dialect schema records = .ok places) : places.length = schema.width := by
  unfold positions at h
  split at h
  · obtain ⟨header, -, h⟩ := bind_eq_ok_iff.1 h
    exact length_of_mapM_eq_ok h
  · rw [← Except.ok.inj h, List.length_range]

/-- The values of a record whose columns stand in the order of the schema. -/
theorem recordValues_range_eq_ok_iff {line : Nat} {record : List String} {values : List Value} :
    recordValues dialect schema (List.range schema.width) line record = .ok values ↔
      values.length = schema.width ∧ ∀ p field, schema.fields[p]? = some field →
        cellValue dialect line record field p = .ok (values.getD p .null) := by
  -- each column is paired with its own position
  have hzip : (schema.fields.zip (List.range schema.width)).length = schema.width := by
    rw [List.length_zip, List.length_range, Schema.width, Nat.min_self]
  rw [recordValues, mapM_eq_ok_iff, List.forall₂_iff_get]
  simp only [hzip, List.get_eq_getElem, List.getElem_zip, List.getElem_range]
  constructor
  · rintro ⟨hlength, hcells⟩
    refine ⟨hlength.symm, fun p field hfield => ?_⟩
    obtain ⟨hp, rfl⟩ := List.getElem?_eq_some_iff.1 hfield
    rw [List.getD_eq_getElem _ _ (hlength ▸ hp)]
    exact hcells p hp (hlength ▸ hp)
  · rintro ⟨hlength, hcells⟩
    refine ⟨hlength.symm, fun p hp hvalue => ?_⟩
    have hcell := hcells p _ (List.getElem?_eq_getElem hp)
    rwa [List.getD_eq_getElem _ _ hvalue] at hcell

/-! ## Rows that can be read -/

/-- The values of a row of a file: in each column null or a value of its type, and no text that is
    blank or has blanks around it. -/
def Readable (fields : List Field) (values : List Value) : Prop :=
  List.Forall₂ (fun field v => v.Fits field.type ∧ v.Tidy) fields values

instance (fields : List Field) (values : List Value) : Decidable (Readable fields values) :=
  inferInstanceAs (Decidable (List.Forall₂ _ _ _))

/-- A readable row has the width of its schema. -/
theorem Readable.length_eq {values : List Value} (h : Readable schema.fields values) :
    values.length = schema.width :=
  (List.Forall₂.length_eq h).symm

/-- A cell that has been read is null or of the type, and tidy. -/
theorem fits_of_cellValue {line position : Nat} {record : List String} {field : Field} {v : Value}
    (h : cellValue dialect line record field position = .ok v) : v.Fits field.type ∧ v.Tidy := by
  unfold cellValue at h
  dsimp only at h
  split at h
  · rw [← Except.ok.inj h]
    exact ⟨.inl rfl, trivial⟩
  · exact fits_of_readCell (mapError_eq_ok_iff.1 h)

/-- A record that has been read gives a readable row. -/
theorem readable_of_recordValues {places : List Nat} {line : Nat} {record : List String}
    {values : List Value} (hplaces : places.length = schema.width)
    (h : recordValues dialect schema places line record = .ok values) :
    Readable schema.fields values := by
  have hfields : (schema.fields.zip places).map Prod.fst = schema.fields :=
    List.map_fst_zip (Nat.le_of_eq hplaces.symm)
  rw [Readable, ← hfields, List.forall₂_map_left_iff]
  exact (mapM_eq_ok_iff.1 h).imp fun _ _ hcell => fits_of_cellValue hcell

/-- A row that has been read is numbered by its record and has readable values. -/
theorem of_getElem?_rows {items : List (Except Error Row)}
    (h : rows dialect schema bytes = .ok items) {i : Nat} {row : Row}
    (hrow : items[i]? = some (.ok row)) : row.id = i ∧ Readable schema.fields row.values := by
  rw [rows_eq] at h
  obtain ⟨places, hplaces, h⟩ := bind_eq_ok_iff.1 h
  rw [← Except.ok.inj h, List.getElem?_map, List.getElem?_zipIdx, Option.map_map,
    Option.map_eq_some_iff] at hrow
  -- the row comes from the record at the same position
  obtain ⟨record, -, hrow⟩ := hrow
  obtain ⟨cells, -, hrow⟩ := bind_eq_ok_iff.1 hrow
  obtain ⟨values, hvalues, hrow⟩ := bind_eq_ok_iff.1 hrow
  rw [← Except.ok.inj hrow]
  exact ⟨Nat.zero_add i, readable_of_recordValues (length_positions hplaces) hvalues⟩

/-- The rows of a file have the width of its schema. -/
theorem length_of_mem_rows {items : List (Except Error Row)}
    (h : rows dialect schema bytes = .ok items) (row : Row) (hrow : .ok row ∈ items) :
    row.length = schema.width := by
  obtain ⟨i, hi⟩ := List.mem_iff_getElem?.1 hrow
  exact (of_getElem?_rows h hi).2.length_eq

/-! ## Written rows -/

/-- A dialect and a schema under which files can be written and read back: the delimiter separates,
    the names are distinct and have no blanks around them, and no column holds floating numbers. -/
structure Faithful (dialect : Dialect) (schema : Schema) : Prop where
  separates : Separates dialect.delimiter
  distinct : schema.names.Nodup
  trimmed : ∀ name ∈ schema.names, Text.trim name = name
  whole : ∀ field ∈ schema.fields, field.type ≠ .float64

end

end Csv

/-! ### Writers -/

namespace FileWriter

/-- A writer before its first row. -/
def start (schema : Schema) (path : String) (dialect : Csv.Dialect) : FileWriter :=
  ⟨schema.width, path, dialect, if dialect.hasHeaders then some schema.names else none, false⟩

/-- The records of a file with some rows. -/
def lines (writer : FileWriter) (rows : List (List Value)) : List (List String) :=
  writer.header.toList ++ rows.map (·.map writer.cell)

/-- The content of a file with some rows. -/
def content (writer : FileWriter) (rows : List (List Value)) : List UInt8 :=
  Csv.writeTexts writer.dialect.delimiter (writer.lines rows)

/-- A value other than null is written as its text. -/
theorem cell_of_ne_null (writer : FileWriter) {v : Value} (h : v ≠ .null) :
    writer.cell v = v.text := by
  cases v with
  | null => exact absurd rfl h
  | _ => rfl

end FileWriter

namespace Csv

/-- A written value is read back, or as null if it looks like one. -/
theorem cellValue_cell {writer : FileWriter} {field : Field} {v : Value}
    (hfits : v.Fits field.type) (htidy : v.Tidy) (hwhole : field.type ≠ .float64) (line : Nat)
    {record : List String} {position : Nat} (hraw : record.getD position "" = writer.cell v) :
    cellValue writer.dialect line record field position =
      .ok (v.reread writer.dialect.nullText) := by
  rw [cellValue, hraw]
  by_cases hnull : v = .null
  · rw [hnull, Value.reread_null]
    exact if_pos rfl
  · rw [writer.cell_of_ne_null hnull, Value.reread,
      readCell_text (hfits.resolve_left hnull) hwhole htidy]
    split <;> rfl

/-- The values of a written record are read back by their positions. -/
theorem recordValues_cells (writer : FileWriter) {schema : Schema} {values : List Value}
    (h : Readable schema.fields values) (hwhole : ∀ field ∈ schema.fields, field.type ≠ .float64)
    (line : Nat) :
    recordValues writer.dialect schema (List.range schema.width) line
      (orBlank (values.map writer.cell)) =
        .ok (values.map (·.reread writer.dialect.nullText)) := by
  obtain ⟨hlength, hcells⟩ := List.forall₂_iff_get.1 h
  rw [recordValues_range_eq_ok_iff, List.length_map]
  refine ⟨h.length_eq, fun p field hfield => ?_⟩
  obtain ⟨hp, rfl⟩ := List.getElem?_eq_some_iff.1 hfield
  have hvalue : p < values.length := hlength ▸ hp
  obtain ⟨hfits, htidy⟩ := hcells p hp hvalue
  rw [List.getD_eq_getElem _ _ (by rwa [List.length_map]), List.getElem_map]
  refine cellValue_cell hfits htidy (hwhole _ (List.getElem_mem hp)) line ?_
  -- a row with a value is not written as a blank record
  have hany : values.map writer.cell ≠ [] := by
    rw [ne_eq, List.map_eq_nil_iff]
    exact List.ne_nil_of_length_pos (Nat.zero_lt_of_lt hvalue)
  rw [orBlank_of_ne_nil hany, List.getD_eq_getElem _ _ (by rwa [List.length_map]),
    List.getElem_map]
  rfl

/-! ### The header -/

/-- The names of a header, without the blanks around them, are found where they stand. -/
theorem mapM_headerPosition {header : List String} {fields : List Field}
    (hnames : header.map Text.trim = fields.map Field.name)
    (hdistinct : (fields.map Field.name).Nodup) :
    fields.mapM (headerPosition header) = .ok (List.range fields.length) := by
  rw [mapM_eq_ok_iff, List.forall₂_iff_get]
  refine ⟨List.length_range.symm, fun i hi _ => ?_⟩
  rw [List.get_eq_getElem, List.get_eq_getElem, List.getElem_range]
  have hlength : header.length = fields.length := by
    rw [← List.length_map (f := Text.trim), hnames, List.length_map]
  have hname {j : Nat} (hj : j < header.length) (hfield : j < fields.length) :
      Text.trim header[j] = fields[j].name := by
    have hboth := congrArg (·[j]?) hnames
    simpa [hj, hfield] using hboth
  -- the name is found at its position, and nowhere before since names are distinct
  have hfind : header.findIdx? (Text.trim · == fields[i].name) = some i := by
    rw [List.findIdx?_eq_some_iff_getElem]
    refine ⟨hlength ▸ hi, ?_, fun j hj => ?_⟩
    · rw [hname _ hi, beq_self_eq_true]
    · -- a name in front of it is another one
      have hbefore : j < (fields.map Field.name).length := by
        rw [List.length_map]
        exact hj.trans hi
      have hthis : i < (fields.map Field.name).length := by rwa [List.length_map]
      have hsame : (fields.map Field.name)[j] = (fields.map Field.name)[i] ↔ j = i :=
        hdistinct.getElem_inj_iff
      rw [List.getElem_map, List.getElem_map] at hsame
      rw [hname _ (hj.trans hi), beq_iff_eq, hsame]
      omega
  rw [headerPosition, hfind]

/-- A written header is found again, name by name. -/
theorem mapM_headerPosition_names {schema : Schema} (hdistinct : schema.names.Nodup)
    (htrimmed : ∀ name ∈ schema.names, Text.trim name = name) :
    schema.fields.mapM (headerPosition (orBlank schema.names)) = .ok (List.range schema.width) := by
  by_cases hany : schema.names = []
  · rw [Schema.width, List.map_eq_nil_iff.1 hany]
    rfl
  · rw [orBlank_of_ne_nil hany]
    exact mapM_headerPosition ((List.map_congr_left htrimmed).trans (List.map_id' _)) hdistinct

/-! ### Files -/

/-- The rows of written records behind a header, or from the first record on. -/
theorem map_rowOf_cells (writer : FileWriter) {schema : Schema} {values : List (List Value)}
    {n : Nat} (hvalues : ∀ row ∈ values, Readable schema.fields row)
    (hwhole : ∀ field ∈ schema.fields, field.type ≠ .float64) :
    (values.map fun row => (.ok (orBlank (row.map writer.cell)) : Except Error _)).zipIdx.map
        (fun (record, id) =>
          rowOf writer.dialect schema (List.range schema.width) n record id) =
      (numbered (values.map (·.map (·.reread writer.dialect.nullText)))).map .ok := by
  simp only [numbered, List.zipIdx_map, List.map_map]
  refine List.map_congr_left ?_
  rintro ⟨row, id⟩ hmem
  have hrow : row ∈ values := List.fst_mem_of_mem_zipIdx hmem
  have hread := recordValues_cells writer (hvalues row hrow) hwhole (id + n)
  simp only [Function.comp_apply, Prod.map, id_eq, rowOf, bind, Except.bind, hread]
  rfl

/-- Written rows are read back, with null for the values that look like it. -/
theorem rows_content {dialect : Dialect} {schema : Schema} {path : String}
    {values : List (List Value)} (h : Faithful dialect schema)
    (hvalues : ∀ row ∈ values, Readable schema.fields row)
    (hmark : Unmarked ((FileWriter.start schema path dialect).lines values)) :
    rows dialect schema ((FileWriter.start schema path dialect).content values) =
      .ok ((numbered (values.map (·.map (·.reread dialect.nullText)))).map .ok) := by
  have hrecords : textRecords dialect.delimiter
      ((FileWriter.start schema path dialect).content values) = _ :=
    textRecords_writeTexts h.separates hmark
  have hrows (n : Nat) := map_rowOf_cells (.start schema path dialect) (n := n) hvalues h.whole
  rw [rows_eq, hrecords]
  dsimp only
  -- with a header the first record names the columns, without one they stand in order
  cases hheaders : dialect.hasHeaders with
  | false =>
    have hlines : (FileWriter.start schema path dialect).lines values =
        values.map (·.map (FileWriter.start schema path dialect).cell) := by
      simp [FileWriter.lines, FileWriter.start, hheaders]
    simp only [positions, body, hheaders, hlines, List.map_map, bind, Except.bind]
    exact congrArg Except.ok (hrows _)
  | true =>
    have hlines : (FileWriter.start schema path dialect).lines values =
        schema.names :: values.map (·.map (FileWriter.start schema path dialect).cell) := by
      simp [FileWriter.lines, FileWriter.start, hheaders]
    have hplaces := mapM_headerPosition_names h.distinct h.trimmed
    simp only [positions, body, hheaders, hlines, firstRecord, List.map_cons, List.head?_cons,
      List.tail_cons, Option.getD_some, List.map_map, bind, Except.bind, if_true, hplaces]
    exact congrArg Except.ok (hrows _)

end Csv

end RowFlow
