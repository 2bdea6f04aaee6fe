import RowFlow.Proofs.Csv.Rows
import RowFlow.Proofs.Pipeline.Collections
import RowFlow.Proofs.Step.Admission
import RowFlow.Proofs.Stream.Lineage

/-!
# Well-Typed Rows

Files are read under a schema, CSV cells by one set of rules and JSON members by another. Both give
rows that the schema admits, whatever the file holds; and transforms that keep types pass on rows
that the schema they lead to admits. So all rows of a table that a pipeline of such transforms gives
are well typed (`Pipeline.well_typed_rows`).
-/

namespace RowFlow

variable {α : Type}

/-! ## Streams -/

/-- The schema admits all rows in front of the end of the stream. -/
def RowStream.AdmittedBy (s : RowStream) (schema : Schema) : Prop :=
  ∀ row ∈ s.rows, schema.Admits row.values

/-- The rows of a stream of items are among the items. -/
theorem RowStream.mem_of_mem_rows_ofItems {width : Nat} {items : List (Except Error Row)} {row : Row}
    (h : row ∈ (ofItems width items).rows) : .ok row ∈ items := by
  -- an item that is an error, or a row of another width, ends the stream
  induction items with
  | nil => cases h
  | cons item items ih =>
    cases item with
    | error e => cases h
    | ok first =>
      simp only [ofItems] at h
      split at h
      · cases h
      · rcases List.mem_cons.1 h with rfl | h
        · exact List.mem_cons_self
        · exact List.mem_cons_of_mem _ (ih h)

/-- Rows that are rearranged are rows of the stream. -/
theorem RowStream.AdmittedBy.rearrange {s : RowStream} {schema : Schema} (h : s.AdmittedBy schema)
    {f : List Row → List Row} (hf : ∀ rows, ∀ row ∈ f rows, row ∈ rows) :
    (s.rearrange f).AdmittedBy schema := by
  intro row hrow
  rcases RowStream.rows_rearrange f s with hrows | hrows
  · exact h row (hf _ row (hrows ▸ hrow))
  · rw [hrows] at hrow
    cases hrow

/-- A transform that keeps types makes a stream of rows that its output schema admits. -/
theorem Transform.admittedBy_onStream {entropy : Entropy} {schema output : Schema}
    {t : Transform} {stage : Stage} (h : t.openOn entropy schema = .ok (stage, output))
    (hkeeps : t.KeepsTypes) {s : RowStream} (hs : s.AdmittedBy schema) :
    (stage.onStream s).AdmittedBy output := by
  -- the stages that hold rows back give some of them, in whatever order
  cases stage with
  | each rule =>
    intro image himage
    obtain ⟨kept, hkept, himages⟩ := RowStream.exists_kept_mapRows rule.apply s
    obtain ⟨row, hrow, hrule⟩ := exists_mem_of_forall₂ himages himage
    exact (opens_of_openOn h).admits_image hkeeps (hs row (hkept.subset hrow)) hrule
  | limit rows seen =>
    cases opens_of_openOn h
    intro row hrow
    rw [Stage.onStream, RowStream.rows_limit] at hrow
    exact hs row (List.mem_of_mem_take hrow)
  | sample reservoir =>
    cases opens_of_openOn h
    rw [Stage.onStream_sample]
    refine hs.rearrange fun rows row hrow => ?_
    exact ((Reservoir.holds_start _ _).offers rows).rows_sublist.subset hrow
  | sort width keys descending held =>
    cases opens_of_openOn h
    rw [Stage.onStream_sort]
    exact hs.rearrange fun rows row hrow => mem_sortRows.1 hrow

theorem Transform.admittedBy_through {entropy : Entropy} {ts : List Transform} {position : Nat}
    {schema : Schema} {assembly : Assembly Stage Collector}
    (h : assemble entropy position schema (ts.map Step.transform) = .ok assembly)
    (hkeeps : ∀ t ∈ ts, t.KeepsTypes) {s : RowStream} (hs : s.AdmittedBy schema) :
    (s.through assembly.producers).AdmittedBy assembly.schema := by
  -- each transform takes the schema on, and the rest is assembled under what it leads to
  induction ts generalizing entropy position schema assembly s with
  | nil =>
    obtain rfl := Except.ok.inj h
    exact hs
  | cons t rest ih =>
    obtain ⟨stage, output, behind, hopen, hbehind, rfl⟩ := assemble_cons_eq_ok h
    obtain ⟨ht, hrest⟩ := List.forall_mem_cons.1 hkeeps
    exact ih hbehind hrest (Transform.admittedBy_onStream hopen ht hs)

/-! ## Files -/

namespace Json

/-- What a member is read as. -/
theorem fits_of_readCell {type : ColumnType} {document : Json} {v : Value}
    (h : readCell type document = .ok v) : v.Fits type := by
  -- a member is null, of the one form that its type takes, or refused
  cases type with
  | int64 =>
    cases document with
    | null => exact .inl (Except.ok.inj h).symm
    | int n =>
      simp only [readCell] at h
      split at h
      · exact .inr (Except.ok.inj h ▸ rfl)
      · cases h
    | bool | number | string | array | object => cases h
  | float64 =>
    cases document with
    | null => exact .inl (Except.ok.inj h).symm
    | int | number => exact .inr (Except.ok.inj h ▸ rfl)
    | bool | string | array | object => cases h
  | bool =>
    cases document with
    | null => exact .inl (Except.ok.inj h).symm
    | bool => exact .inr (Except.ok.inj h ▸ rfl)
    | int | number | string | array | object => cases h
  | utf8 =>
    cases document with
    | null => exact .inl (Except.ok.inj h).symm
    | string => exact .inr (Except.ok.inj h ▸ rfl)
    | bool | int | number | array | object => cases h

theorem fits_of_memberValue {row : Nat} {members : List (String × Json)} {field : Field} {v : Value}
    (h : memberValue row members field = .ok v) : v.Fits field.type := by
  unfold memberValue at h
  split at h
  · cases h
  · exact fits_of_readCell (Csv.mapError_eq_ok_iff.1 h)

/-- The row of an object has a value for each field. -/
theorem admits_of_row {schema : Schema} {id : Nat} {document : Json} {row : Row}
    (h : Json.row schema id document = .ok row) : schema.Admits row.values := by
  unfold Json.row at h
  split at h
  · cases h
  · obtain ⟨values, hvalues, h⟩ := bind_eq_ok_iff.1 h
    rw [← Except.ok.inj h, Schema.Admits, Schema.types, List.forall₂_map_left_iff]
    exact (mapM_eq_ok_iff.1 hvalues).imp fun _ _ hvalue => fits_of_memberValue hvalue

theorem admits_of_mem_rows {schema : Schema} {bytes : List UInt8} {items : List (Except Error Row)}
    (h : rows schema bytes = .ok items) {row : Row} (hrow : .ok row ∈ items) :
    schema.Admits row.values := by
  unfold rows at h
  split at h
  · cases h
  · rw [← Except.ok.inj h] at hrow
    -- a record that is no document stays an error and is no row
    obtain ⟨⟨document, id⟩, -, hrow⟩ := List.mem_map.1 hrow
    cases document with
    | error fault => cases hrow
    | ok document => exact admits_of_row hrow

end Json

theorem Csv.admits_of_mem_rows {dialect : Dialect} {schema : Schema} {bytes : List UInt8}
    {items : List (Except Error Row)} (h : rows dialect schema bytes = .ok items) {row : Row}
    (hrow : .ok row ∈ items) : schema.Admits row.values := by
  obtain ⟨i, hi⟩ := List.mem_iff_getElem?.1 hrow
  rw [Schema.Admits, Schema.types, List.forall₂_map_left_iff]
  exact (of_getElem?_rows h hi).2.imp fun _ _ hcell => hcell.1

namespace Source

variable {files : Files}

/-- The schema of a source admits every row that the source gives. -/
def WellTyped (source : Source) (files : Files) : Prop :=
  ∀ schema items, source.schema files = .ok schema → source.items files = .ok items →
    ∀ row, .ok row ∈ items → schema.Admits row.values

theorem wellTyped_csv (path : String) (schema : Option Schema) (dialect : Csv.Dialect) :
    (Source.csv path schema dialect).WellTyped files := by
  intro opened items hschema h row hrow
  obtain ⟨_, hopened, h⟩ := bind_eq_ok_iff.1 h
  obtain rfl := Except.ok.inj (hschema.symm.trans hopened)
  obtain ⟨content, -, hrows⟩ := bind_eq_ok_iff.1 h
  exact Csv.admits_of_mem_rows hrows hrow

theorem wellTyped_json (input : JsonInput) (schema : Schema) :
    (Source.json input schema).WellTyped files := by
  intro opened items hschema h row hrow
  obtain rfl : schema = opened := Except.ok.inj hschema
  cases input with
  | path path =>
    obtain ⟨content, -, hrows⟩ := bind_eq_ok_iff.1 h
    exact Json.admits_of_mem_rows hrows hrow
  | text text => exact Json.admits_of_mem_rows h hrow

/-- A source that is opened gives its items. -/
theorem items_of_openOn {source : Source} {spent : Bool} {items : List (Except Error Row)}
    (h : (source.openOn files spent).1 = .ok items) : source.items files = .ok items := by
  -- rows that are given once are gone when they have been read before
  cases source with
  | once schema given =>
    cases spent with
    | true => cases h
    | false => exact h
  | table | csv | json | custom => exact h

end Source

namespace Pipeline

/-- **Rows stay well typed.** Whatever a file holds and whatever schema it is read under, a CSV or
JSON source gives rows of the width of the schema with null or a value of the declared type in each
column. From any source with this property, a pipeline of transforms that keep types leads to a table
with this property with respect to its own schema. -/
theorem well_typed_rows :
    (∀ path schema dialect files, (Source.csv path schema dialect).WellTyped files) ∧
    (∀ input schema files, (Source.json input schema).WellTyped files) ∧
    ∀ (source : Source) (ts : List Transform) (options : Options α) (session : Session α),
      source.WellTyped session.files → (∀ t ∈ ts, t.KeepsTypes) →
        ∀ table, ((ofTransforms source ts options).toTable session).1 = .ok table →
          ∀ values ∈ table.rows, table.schema.Admits values := by
  refine ⟨fun path schema dialect files => Source.wellTyped_csv path schema dialect,
    fun input schema files => Source.wellTyped_json input schema, ?_⟩
  intro source ts options session hsource hkeeps table h
  obtain ⟨launch, rows, hopening, hresult, rfl⟩ := exists_stream_of_toTable h
  obtain ⟨⟨width, assembly⟩, hassembly, hopening⟩ := bind_eq_ok_iff.1 hopening
  obtain ⟨items, hitems, hopening⟩ := bind_eq_ok_iff.1 hopening
  obtain ⟨schema, hschema, hassemble, rfl⟩ := assembly_eq_ok_iff.1 hassembly
  obtain rfl := Except.ok.inj hopening
  -- the stream of the source starts with rows that its schema admits
  have hgiven : (RowStream.ofItems schema.width items).AdmittedBy schema := fun row hrow =>
    hsource schema items hschema (Source.items_of_openOn hitems) row
      (RowStream.mem_of_mem_rows_ofItems hrow)
  have hadmitted := Transform.admittedBy_through hassemble hkeeps hgiven
  -- the rows of the table are the rows of the stream, which has ended normally
  refine List.forall_mem_map.2 fun row hrow => hadmitted row ?_
  exact (RowStream.rows_of_result hresult).symm ▸ hrow

/-- Answers to a poll, as a text. -/
def answers : Source :=
  .json (.text "[\x7b\"age\":7,\"vote\":\"no\"\x7d,\x7b\"age\":null,\"vote\":\"Y\"\x7d]")
    ⟨[⟨"age", .int64⟩, ⟨"vote", .utf8⟩]⟩

/-- One column is converted once and another one twice, and a column of nulls is added. -/
def coding : List Transform :=
  [.typecast [(.name "vote", .bool), (.name "age", .float64), (.index 1, .utf8)],
    .insert ["remark"] (some 2) [], .move [.name "vote"] 0]

/-- The answers after these steps. -/
def codedAnswers : Table :=
  ⟨⟨[⟨"vote", .utf8⟩, ⟨"age", .float64⟩, ⟨"remark", .utf8⟩]⟩,
    [[.utf8 "false", .float64 ⟨0x401C000000000000⟩, .null], [.utf8 "true", .null, .null]]⟩

/-- The column that is converted twice has the last type, and values of this type. -/
theorem coded_answers_admitted :
    (∀ t ∈ coding, t.KeepsTypes) ∧
      ((ofTransforms answers coding .unobserved).toTable (.start .empty ())).1 =
        .ok codedAnswers ∧
      ∀ values ∈ codedAnswers.rows, codedAnswers.schema.Admits values := by
  have hkeeps : ∀ t ∈ coding, t.KeepsTypes := by
    simp [coding, Transform.KeepsTypes]
  have htable : ((ofTransforms answers coding .unobserved).toTable (.start .empty ())).1 =
      .ok codedAnswers := by decide +kernel
  obtain ⟨-, hjson, hpipeline⟩ := well_typed_rows (α := Unit)
  exact ⟨hkeeps, htable, hpipeline answers coding .unobserved (.start .empty ()) (hjson _ _ _)
    hkeeps _ htable⟩

end Pipeline

end RowFlow
