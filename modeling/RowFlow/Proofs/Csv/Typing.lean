import RowFlow.Proofs.Csv.Rows
import RowFlow.Proofs.Step.Casts
import RowFlow.Proofs.Step.Names

/-!
# Typing Late and Early

A file is read as text and its columns are cast to types, or it is read under these types at once.
Both ways start from the same text cells (`Csv.cellValue_eq_convert`), so record by record they give
the same row or both fail (`Csv.rows_agree`).
-/

namespace RowFlow

namespace Csv

/-! ## Cells -/

/-- The value of a cell that is read as text. -/
def textCell (dialect : Dialect) (record : List String) (position : Nat) : Value :=
  let raw := record.getD position ""
  if raw = dialect.nullText then .null else plain raw

/-- A cell has the value that its text is converted to. -/
theorem cellValue_eq_convert (dialect : Dialect) (line : Nat) (record : List String) (field : Field)
    (position : Nat) :
    cellValue dialect line record field position =
      (convert field.type (textCell dialect record position)).mapError
        fun cause => .source (.cell line field.name (record.getD position "") cause) := by
  unfold cellValue textCell
  dsimp only
  split
  · rfl
  · rw [convert_plain]

theorem cellValue_eq_ok_iff {dialect : Dialect} {line : Nat} {record : List String} {field : Field}
    {position : Nat} {v : Value} :
    cellValue dialect line record field position = .ok v ↔
      convert field.type (textCell dialect record position) = .ok v := by
  rw [cellValue_eq_convert, mapError_eq_ok_iff]

theorem convert_textCell (dialect : Dialect) (record : List String) (position : Nat) :
    convert .utf8 (textCell dialect record position) = .ok (textCell dialect record position) := by
  unfold textCell
  dsimp only
  split
  · rfl
  · rw [convert_plain, readCell_utf8]

/-! ## Records -/

section
variable {dialect : Dialect} {schema : Schema} {types : List ColumnType} {line id : Nat}
  {record : List String}

theorem recordValues_eq_ok_iff {values : List Value} :
    recordValues dialect schema (List.range schema.width) line record = .ok values ↔
      values.length = schema.width ∧
        ∀ p field, schema.fields[p]? = some field →
          convert field.type (textCell dialect record p) = .ok (values.getD p .null) := by
  simp only [recordValues_range_eq_ok_iff, cellValue_eq_ok_iff]

/-- A record of text columns is read whole. -/
theorem recordValues_text (htext : ∀ field ∈ schema.fields, field.type = .utf8) :
    recordValues dialect schema (List.range schema.width) line record =
      .ok ((List.range schema.width).map (textCell dialect record)) := by
  rw [recordValues_eq_ok_iff, List.length_map, List.length_range]
  refine ⟨rfl, fun p field hfield => ?_⟩
  obtain ⟨hp, -⟩ := List.getElem?_eq_some_iff.1 hfield
  have hp : p < schema.width := hp
  -- a column of text takes a cell as it is
  rw [htext field (List.mem_of_getElem? hfield), convert_textCell, List.getD_eq_getElem?_getD,
    List.getElem?_map, List.getElem?_range hp]
  rfl

/-- Casting the texts of a record gives the values that the record has under the types. -/
theorem castEach_agree {names : List String} {resolved : List (Nat × ColumnType)}
    (hwidth : types.length = schema.width)
    (honce : (resolved.map Prod.fst).Perm (List.range schema.width))
    (htypes : ∀ cast ∈ resolved, types[cast.1]? = some cast.2) :
    Agree
      (castEach id names ((List.range schema.width).map (textCell dialect record)) resolved)
      (recordValues dialect (schema.retyped types) (List.range schema.width) line record) := by
  intro values
  -- the casts are of all columns
  have hposition {p : Nat} : p ∈ resolved.map Prod.fst ↔ p < schema.width :=
    honce.mem_iff.trans List.mem_range
  have hlength : ((List.range schema.width).map (textCell dialect record)).length =
      schema.width := by
    rw [List.length_map, List.length_range]
  -- the record that was read as text has the cell of each position
  have htext {p : Nat} (hp : p < schema.width) :
      ((List.range schema.width).map (textCell dialect record)).getD p .null =
        textCell dialect record p := by
    rw [List.getD_eq_getElem?_getD, List.getElem?_map, List.getElem?_range hp]
    rfl
  have hrange : ∀ cast ∈ resolved, cast.1 <
      ((List.range schema.width).map (textCell dialect record)).length := by
    intro cast hcast
    rw [hlength]
    exact hposition.1 (List.mem_map_of_mem hcast)
  rw [castEach_eq_ok_iff (honce.nodup_iff.2 List.nodup_range) hrange, hlength]
  -- both say that the value of each column is converted to the type that the column has been given
  have htyped : recordValues dialect (schema.retyped types) (List.range schema.width) line record =
      .ok values ↔ values.length = schema.width ∧
        ∀ p field, (schema.retyped types).fields[p]? = some field →
          convert field.type (textCell dialect record p) = .ok (values.getD p .null) := by
    rw [← Schema.width_retyped hwidth, recordValues_eq_ok_iff]
  rw [htyped]
  refine and_congr_right fun hvalues => ⟨fun ⟨hcasts, _⟩ p field hfield => ?_, fun hcells => ?_⟩
  · obtain ⟨old, hold, type, htype, rfl⟩ : ∃ old, schema.fields[p]? = some old ∧
        ∃ type, types[p]? = some type ∧ { old with type } = field := by
      rw [Schema.getElem?_retyped] at hfield
      simpa [Option.bind_eq_some_iff, Option.map_eq_some_iff] using hfield
    obtain ⟨hp, -⟩ := List.getElem?_eq_some_iff.1 hold
    obtain ⟨⟨_, given⟩, hcast, rfl⟩ := List.mem_map.1 (hposition.2 hp)
    obtain rfl : given = type := Option.some.inj ((htypes _ hcast).symm.trans htype)
    rw [← hcasts _ hcast, htext hp]
  · refine ⟨fun cast hcast => ?_, fun p hp => ?_⟩
    · have hp := hposition.1 (List.mem_map_of_mem hcast)
      have hfield : (schema.retyped types).fields[cast.1]? =
          some { schema.fields[cast.1] with type := cast.2 } := by
        rw [Schema.getElem?_retyped, htypes cast hcast, List.getElem?_eq_getElem hp]
        rfl
      rw [htext hp]
      exact hcells _ _ hfield
    · -- no position is left out
      have hp := Nat.le_of_not_lt (mt hposition.2 hp)
      rw [List.getElem?_eq_none (hvalues.trans_le hp), List.getElem?_eq_none (hlength.trans_le hp)]

/-! ## Files -/

/-- A record gives the same row both ways, or fails both ways. -/
theorem rowOf_agree {names : List String} {resolved : List (Nat × ColumnType)} {n : Nat}
    (htext : ∀ field ∈ schema.fields, field.type = .utf8)
    (hwidth : types.length = schema.width)
    (honce : (resolved.map Prod.fst).Perm (List.range schema.width))
    (htypes : ∀ cast ∈ resolved, types[cast.1]? = some cast.2)
    (record : Except Error (List String)) :
    Agree
      (rowOf dialect schema (List.range schema.width) n record id >>=
        (RowRule.cast schema.width names resolved).apply)
      (some <$> rowOf dialect (schema.retyped types) (List.range schema.width) n record id) := by
  -- a record that cannot be split fails both ways with the same error
  cases record with
  | error e => exact .of_eq rfl
  | ok cells =>
    have hread : rowOf dialect schema (List.range schema.width) n (.ok cells) id =
        .ok ⟨id, (List.range schema.width).map (textCell dialect cells)⟩ := by
      simp only [rowOf, bind, Except.bind, recordValues_text htext]
      rfl
    have hlength : expectWidth ((List.range schema.width).map (textCell dialect cells))
        schema.width = .ok () :=
      expectWidth_eq_ok_iff.2 (by rw [List.length_map, List.length_range])
    have hcast : (RowRule.cast schema.width names resolved).apply
        ⟨id, (List.range schema.width).map (textCell dialect cells)⟩ =
          (fun values => some ⟨id, values⟩) <$> castEach id names
            ((List.range schema.width).map (textCell dialect cells)) resolved := by
      simp only [RowRule.apply, hlength, bind, Except.bind, Row.withValues]
      cases castEach id names _ resolved <;> rfl
    have hrow : some <$> rowOf dialect (schema.retyped types) (List.range schema.width) n
        (.ok cells) id = (fun values => some ⟨id, values⟩) <$> recordValues dialect
          (schema.retyped types) (List.range schema.width) (id + n) cells := by
      simp only [rowOf, bind, Except.bind]
      cases recordValues dialect (schema.retyped types) _ _ cells <;> rfl
    rw [hread, hrow]
    exact (Agree.of_eq hcast).trans ((castEach_agree hwidth honce htypes).map _)

theorem fields_of_ofNames {names : List String} (h : Schema.ofNames names = .ok schema) :
    schema.fields = names.map fun name => ⟨name, .utf8⟩ :=
  Schema.fields_of_ofFields h

theorem names_of_ofNames {names : List String} (h : Schema.ofNames names = .ok schema) :
    schema.names = names := by
  rw [Schema.names, fields_of_ofNames h, List.map_map]
  exact List.map_id' names

variable {bytes : List UInt8} {untyped : Schema} (h : schemaOf dialect bytes = .ok untyped)
include h

/-- The columns of a file are found where they stand, whatever their types are. -/
theorem positions_of_schemaOf (hnames : schema.names = untyped.names) :
    positions dialect schema (textRecords dialect.delimiter bytes) =
      .ok (List.range schema.width) := by
  obtain ⟨names, hcolumns, hschema⟩ := bind_eq_ok_iff.1 h
  obtain ⟨first, hfirst, hcolumns⟩ := bind_eq_ok_iff.1 hcolumns
  unfold positions
  split
  · rename_i hheaders
    rw [if_pos hheaders] at hcolumns
    have hheader : first.map Text.trim = schema.fields.map Field.name := by
      rw [Except.ok.inj hcolumns, ← names_of_ofNames hschema, ← hnames]
      rfl
    have hdistinct : (schema.fields.map Field.name).Nodup := by
      rw [show schema.fields.map Field.name = untyped.names from hnames]
      exact Schema.nodup_of_ofFields hschema
    rw [hfirst]
    exact mapM_headerPosition hheader hdistinct
  · rfl

/-- The records of a file, one by one, give the same row both ways or fail both ways. -/
theorem rows_agree (names : List String) {resolved : List (Nat × ColumnType)}
    (hwidth : types.length = untyped.width)
    (honce : (resolved.map Prod.fst).Perm (List.range untyped.width))
    (htypes : ∀ cast ∈ resolved, types[cast.1]? = some cast.2) :
    ∃ read typed, rows dialect untyped bytes = .ok read ∧
      rows dialect (untyped.retyped types) bytes = .ok typed ∧
      List.Forall₂ (fun row typedRow => Agree
        (row >>= (RowRule.cast untyped.width names resolved).apply) (some <$> typedRow))
        read typed := by
  obtain ⟨columns, -, hschema⟩ := bind_eq_ok_iff.1 h
  have htext : ∀ field ∈ untyped.fields, field.type = .utf8 := by
    rw [fields_of_ofNames hschema]
    exact List.forall_mem_map.2 fun _ _ => rfl
  have hplaces := positions_of_schemaOf h rfl
  have htypedPlaces := positions_of_schemaOf h (Schema.names_retyped hwidth)
  rw [Schema.width_retyped hwidth] at htypedPlaces
  rw [rows_eq, rows_eq]
  dsimp only
  rw [hplaces, htypedPlaces]
  refine ⟨_, _, rfl, rfl, ?_⟩
  rw [List.forall₂_map_left_iff, List.forall₂_map_right_iff, List.forall₂_same]
  exact fun ⟨record, _⟩ _ => rowOf_agree htext hwidth honce htypes record

end

end Csv

end RowFlow
