import RowFlow.Proofs.Pipeline.Collections
import RowFlow.Proofs.Step.Writer

/-!
# Written Tables Are Read Back

A pipeline that ends in a CSV file leaves the file with the header and a record for every row that
reaches the end (`Pipeline.run_csvFile_of_opening`). A table that has been written is read back with
the same schema and dialect, row by row.
-/

namespace RowFlow

variable {α : Type}

/-! ## Delivery to a writer -/

namespace RowStream

variable {writer : FileWriter} (hpath : Files.reaches writer.path = true)

/-- The writer at the end of a chain, after some rows. -/
abbrev writerEnd (writer : FileWriter) (held : List (List Value)) : Guarded (Metered Collector) :=
  Guarded.start ⟨.csvFile (writer.after held)⟩

include hpath

theorem consume_writerEnd (held : List (List Value)) {row : Row} (hrow : row.length = writer.width)
    {files : Files} {session : Session α} (hfiles : session.files = writer.filesAfter held files) :
    Consumer.consume row (writerEnd writer held) session =
      (.ok .more, writerEnd writer (held ++ [row.values]),
        { session.collected with files := writer.filesAfter (held ++ [row.values]) files }) := by
  have hwidth : expectWidth row.values (writer.after held).width = .ok () :=
    expectWidth_eq_ok_iff.2 hrow
  have hcounted : session.collected.files = writer.filesAfter held files := hfiles
  have hput := FileWriter.put_after hpath held row.values files
  rw [← hcounted] at hput
  simp only [Session.collected] at hput
  simp only [Consumer.consume, Guarded.start, Bool.false_eq_true, if_false, Collector.consume,
    Collector.width?, Option.map_some, Option.getD_some, hwidth, Collector.take, hput]
  rfl

theorem close_writerEnd (held : List (List Value)) {files : Files} {session : Session α}
    (hfiles : session.files = writer.filesAfter held files) :
    (Consumer.close (writerEnd writer held) session).1 = .ok none ∧
      (Consumer.close (writerEnd writer held) session).2.2.files =
        files.write writer.path (writer.content held) := by
  have hcreate := FileWriter.create_after hpath held files
  rw [← hfiles] at hcreate
  simp only [Consumer.close, Guarded.start, Bool.false_eq_true, if_false, Collector.close, hcreate,
    and_true]
  rfl

/-- A stream that ends normally leaves the file with all its rows. -/
theorem deliver_writer {s : RowStream} (hs : s.HasWidth writer.width) {rows : List Row}
    (hrows : s.result = .ok rows) (held : List (List Value)) {files : Files} {session : Session α}
    (hfiles : session.files = writer.filesAfter held files) :
    (s.deliver (writerEnd writer held) session).1 = .ok none ∧
      (s.deliver (writerEnd writer held) session).2.files =
        files.write writer.path (writer.content (held ++ rows.map Row.values)) := by
  induction s generalizing held rows session with
  | ended =>
    obtain rfl := Except.ok.inj hrows
    rw [List.map_nil, List.append_nil]
    exact close_writerEnd hpath held hfiles
  | failed e => cases hrows
  | row r rest ih =>
    obtain ⟨tail, htail, hrows⟩ := bind_eq_ok_iff.1 hrows
    obtain rfl := Except.ok.inj hrows
    have hheld := List.append_cons held r.values (tail.map Row.values)
    rw [deliver_row_more (consume_writerEnd hpath held hs.1 hfiles), List.map_cons, hheld]
    refine ih hs.2 htail (held ++ [r.values]) ?_
    rfl

end RowStream

/-! ## Runs -/

@[simp]
theorem Session.files_closeRun {β : Type} (options : Options α) (result : Except Error β)
    (session : Session α) : (session.closeRun options result).files = session.files := by
  cases result with
  | ok b => exact files_report options session _
  | error e =>
    simp only [closeRun, fail]
    split <;> simp only [files_tell, files_report] <;> rfl

namespace Pipeline

variable {source : Source} {ts : List Transform} {options : Options α} {session : Session α}
  {launch : Launch}

/-- A run that ends in a collection delivers the stream of its rows to the collector. -/
theorem run_of_opening
    (h : (ofTransforms source ts options).opening session.fresh session.files session.spent =
      .ok launch)
    {c : Collection} {collector : Collector} (hc : c.openOn launch.schema = .ok collector) :
    let run := ((ofTransforms source ts options).runWith (.collect c) session)
    let delivery := launch.stream.deliver (Guarded.start (Metered.mk collector)) session
    run.1 = delivery.1 ∧ run.2.files = delivery.2.files := by
  obtain ⟨⟨width, assembly⟩, hassembly, h⟩ := bind_eq_ok_iff.1 h
  obtain ⟨items, hitems, h⟩ := bind_eq_ok_iff.1 h
  obtain rfl := Except.ok.inj h
  have hitems : (((ofTransforms source ts options).append (.collect c)).source.openOn session.files
      session.spent).1 = .ok items := hitems
  -- the collector is opened last, on the schema that the stages lead to
  have happend : ((ofTransforms source ts options).append (.collect c)).assembly session.fresh
      session.files = .ok (width, { assembly with collector := some collector }) := by
    obtain ⟨schema, hschema, hassemble, rfl⟩ := assembly_eq_ok_iff.1 hassembly
    refine assembly_eq_ok_iff.2 ⟨schema, hschema, ?_, rfl⟩
    refine (assemble_append_collect ts c).trans (bind_eq_ok_iff.2 ⟨assembly, hassemble, ?_⟩)
    exact bind_eq_ok_iff.2 ⟨collector, hc, rfl⟩
  rw [runWith, run_of_opened happend hitems]
  dsimp only
  rw [Session.files_closeRun, Launch.stream,
    ← RowStream.deliver_connect (fitAll_of_assembly hassembly)
      (RowStream.hasWidth_ofItems width items)]
  exact pushAndClose_deliver _ _ _ _ files_begun

/-- A pipeline that ends in a file leaves the file with the rows of its stream, if this ends
    normally. -/
theorem run_csvFile_of_opening
    (h : (ofTransforms source ts options).opening session.fresh session.files session.spent =
      .ok launch)
    {path : String} (hpath : Files.reaches path = true) (dialect : Csv.Dialect) {rows : List Row}
    (hrows : launch.stream.result = .ok rows) :
    let run := (ofTransforms source ts options).runWith (.collect (.csvFile path dialect)) session
    run.1 = .ok none ∧ run.2.files = session.files.write path
      ((FileWriter.start launch.schema path dialect).content (rows.map Row.values)) := by
  have hwidth : launch.stream.HasWidth launch.schema.width :=
    Stage.FitAll.through (fitAll_of_opening h) (RowStream.hasWidth_ofItems _ _)
  obtain ⟨hresult, hfiles⟩ := run_of_opening h (c := .csvFile path dialect) rfl
  -- before its first row the writer has not touched the file
  have huntouched : session.files =
    (FileWriter.start launch.schema path dialect).filesAfter [] session.files := rfl
  obtain ⟨hdelivered, hwritten⟩ := RowStream.deliver_writer hpath hwidth hrows [] huntouched
  exact ⟨hresult.trans hdelivered, hfiles.trans hwritten⟩

/-- A table of rows of its width is written whole. -/
theorem run_csvFile_of_table {table : Table}
    (hwidth : ∀ values ∈ table.rows, values.length = table.schema.width) {path : String}
    (hpath : Files.reaches path = true) (dialect : Csv.Dialect) (options : Options α)
    (session : Session α) :
    let run := (ofTransforms (.table table) [] options).runWith (.collect (.csvFile path dialect))
      session
    run.1 = .ok none ∧ run.2.files = session.files.write path
      ((FileWriter.start table.schema path dialect).content table.rows) := by
  have hopening : (ofTransforms (.table table) [] options).opening session.fresh session.files
      session.spent = .ok ⟨table.schema.width, [], table.schema, table.numberedRows.map .ok⟩ :=
    opening_table table [] options session.fresh session.files session.spent
  -- without transforms the stream is that of the table
  have hrows : (Launch.mk table.schema.width [] table.schema (table.numberedRows.map .ok)).stream =
      RowStream.ofRows table.numberedRows :=
    RowStream.ofItems_map_ok (Table.forall_mem_numberedRows.2 hwidth)
  have hresult := RowStream.result_ofRows table.numberedRows
  rw [← hrows] at hresult
  have hrun := run_csvFile_of_opening hopening hpath dialect hresult
  rwa [Table.numberedRows, map_values_numbered] at hrun

end Pipeline

/-! ## Reading back -/

/-- A CSV source reads what has been written to its path. -/
theorem Source.items_csv_write (files : Files) (path : String) (schema : Schema)
    (dialect : Csv.Dialect) (content : List UInt8) :
    (Source.csv path (some schema) dialect).items (files.write path content) =
      Csv.rows dialect schema content := by
  have hcontent : Source.fileContent (files.write path content) path = .ok content := by
    rw [fileContent, Files.read?_write]
  rw [items, hcontent]
  rfl

/-- Rows that a CSV file gives are numbered by their positions and have readable values. -/
theorem Source.of_items_csv {files : Files} {path : String} {schema : Schema}
    {dialect : Csv.Dialect} {rows : List Row}
    (h : (Source.csv path (some schema) dialect).items files = .ok (rows.map .ok)) :
    (∀ (i : Nat) (row : Row), rows[i]? = some row → row.id = i) ∧
      ∀ row ∈ rows, Csv.Readable schema.fields row.values := by
  obtain ⟨_, hschema, h⟩ := bind_eq_ok_iff.1 h
  obtain rfl := Except.ok.inj hschema
  obtain ⟨content, -, hrows⟩ := bind_eq_ok_iff.1 h
  -- an item that is a row has been read from the record at its position
  have hrow {i : Nat} {row : Row} (hi : rows[i]? = some row) :
      row.id = i ∧ Csv.Readable schema.fields row.values :=
    Csv.of_getElem?_rows hrows (by rw [List.getElem?_map, hi]; rfl)
  refine ⟨fun i row hi => (hrow hi).1, fun row hmem => ?_⟩
  obtain ⟨i, hi⟩ := List.mem_iff_getElem?.1 hmem
  exact (hrow hi).2

/-- The row that is read where a row has been written. -/
def Row.reread (nullText : String) (row : Row) : Row :=
  row.withValues (row.values.map (·.reread nullText))

/-- A row comes back as it is if none of its values is taken for null. -/
theorem Row.reread_eq_self_iff {nullText : String} {row : Row} :
    row.reread nullText = row ↔ ∀ v ∈ row.values, v ≠ .null → v.text ≠ nullText := by
  have hvalues : row.reread nullText = row ↔
      row.values.map (·.reread nullText) = row.values.map fun v => v := by
    rw [List.map_id']
    exact ⟨congrArg Row.values, congrArg row.withValues⟩
  rw [hvalues, List.map_inj_left]
  exact forall₂_congr fun v _ => Value.reread_eq_self_iff

namespace Pipeline

variable {dialect : Csv.Dialect} {path : String}

/-- A written table is read back, with null for the values that have the text of nulls. -/
theorem items_of_written {table : Table} (h : Csv.Faithful dialect table.schema)
    (hrows : ∀ values ∈ table.rows, Csv.Readable table.schema.fields values)
    (hmark : Csv.Unmarked ((FileWriter.start table.schema path dialect).lines table.rows))
    (hpath : Files.reaches path = true) (options : Options α) (session : Session α) :
    let written := (ofTransforms (.table table) [] options).runWith
      (.collect (.csvFile path dialect)) session
    written.1 = .ok none ∧
      (Source.csv path (some table.schema) dialect).items written.2.files =
        .ok ((numbered (table.rows.map (·.map (·.reread dialect.nullText)))).map .ok) := by
  -- readable rows have the width of the table
  have hwidth : ∀ values ∈ table.rows, values.length = table.schema.width := fun values hvalues =>
    (hrows values hvalues).length_eq
  obtain ⟨hresult, hfiles⟩ := run_csvFile_of_table hwidth hpath dialect options session
  refine ⟨hresult, ?_⟩
  rw [hfiles, Source.items_csv_write]
  exact Csv.rows_content h hrows hmark

/-- **Written tables are read back.** A table is written to a file and read with the same schema and
    dialect: the rows are those of the table, in order and numbered from zero. The delimiter must be
    neither a quote nor the end of a line, the names distinct and without blanks around them, and no
    column may hold floating numbers. Each value is null or of its column's type, no text is blank
    or has blanks around it, and no value but null has the text of nulls. -/
theorem written_table_reads_back {table : Table} (h : Csv.Faithful dialect table.schema)
    (hrows : ∀ values ∈ table.rows, Csv.Readable table.schema.fields values)
    (hnull : ∀ values ∈ table.rows, ∀ v ∈ values, v ≠ .null → v.text ≠ dialect.nullText)
    (hmark : Csv.Unmarked ((FileWriter.start table.schema path dialect).lines table.rows))
    (hpath : Files.reaches path = true) (options : Options α) (session : Session α) :
    let written := (ofTransforms (.table table) [] options).runWith
      (.collect (.csvFile path dialect)) session
    written.1 = .ok none ∧
      (Source.csv path (some table.schema) dialect).items written.2.files =
        .ok (table.numberedRows.map .ok) := by
  -- no value is taken for null, so all of them come back
  have hsame : table.rows.map (·.map (·.reread dialect.nullText)) = table.rows := by
    refine (List.map_congr_left fun values hvalues => ?_).trans (List.map_id table.rows)
    refine (List.map_congr_left fun v hv => ?_).trans (List.map_id values)
    exact Value.reread_of_ne (hnull values hvalues v hv)
  have hread := items_of_written h hrows hmark hpath options session
  rwa [hsame] at hread

/-- Nulls next to texts that need quotes. -/
def remarks : Table :=
  ⟨⟨[⟨"id", .int64⟩, ⟨"done", .bool⟩, ⟨"remark", .utf8⟩]⟩,
    [[.int64 (-7), .bool true, .utf8 "now; \"then\""], [.null, .null, .null],
      [.int64 0, .bool false, .utf8 "not NA"]]⟩

/-- Semicolons, a header and a word for nulls. -/
def semicolons : Csv.Dialect := ⟨';'.toUInt8, true, "NA"⟩

theorem faithful_semicolons : Csv.Faithful semicolons remarks.schema where
  separates := by decide
  distinct := by decide
  trimmed := by decide
  whole := by decide

/-- The remarks are read back from the file that they have been written to. -/
theorem remarks_read_back :
    let written := (ofTransforms (.table remarks) [] .unobserved).runWith
      (.collect (.csvFile "remarks.csv" semicolons)) (Session.start .empty ())
    Csv.Faithful semicolons remarks.schema ∧ written.1 = .ok none ∧
      (Source.csv "remarks.csv" (some remarks.schema) semicolons).items written.2.files =
        .ok (remarks.numberedRows.map .ok) :=
  ⟨faithful_semicolons,
    written_table_reads_back faithful_semicolons (by decide) (by decide) (by decide) (by decide)
      .unobserved (Session.start .empty ())⟩

/-- **Rewritten rows are read again, but for values that look like null.** Rows that have been read
    from any file are written as a table and read again with the same schema and dialect: each value
    with the text of nulls has become null, and the others are the same. So the rows are the same if
    and only if no value but null has this text. -/
theorem rewritten_rows_reread_iff {schema : Schema} (h : Csv.Faithful dialect schema)
    {origin : String} {files : Files} {rows : List Row}
    (hread : (Source.csv origin (some schema) dialect).items files = .ok (rows.map .ok))
    (hmark : Csv.Unmarked
      ((FileWriter.start schema path dialect).lines (rows.map Row.values)))
    (hpath : Files.reaches path = true) (options : Options α) (session : Session α) :
    let rewritten := (ofTransforms (.table (.ofRows schema rows)) [] options).runWith
      (.collect (.csvFile path dialect)) session
    let reread := (Source.csv path (some schema) dialect).items rewritten.2.files
    rewritten.1 = .ok none ∧
      reread = .ok (rows.map fun row => .ok (row.reread dialect.nullText)) ∧
      (reread = .ok (rows.map .ok) ↔
        ∀ row ∈ rows, ∀ v ∈ row.values, v ≠ .null → v.text ≠ dialect.nullText) := by
  intro rewritten reread
  obtain ⟨hid, hreadable⟩ := Source.of_items_csv hread
  have hvalues : ∀ values ∈ rows.map Row.values, Csv.Readable schema.fields values :=
    List.forall_mem_map.2 hreadable
  -- the rows that come back have the numbers that the rows had before
  have hnumbered : numbered ((rows.map Row.values).map (·.map (·.reread dialect.nullText))) =
      rows.map (·.reread dialect.nullText) := by
    have hposition : ∀ (i : Nat) (row : Row),
        (rows.map (·.reread dialect.nullText))[i]? = some row → row.id = i := by
      intro i row hrow
      rw [List.getElem?_map, Option.map_eq_some_iff] at hrow
      obtain ⟨row, hrow, rfl⟩ := hrow
      exact hid i row hrow
    rw [← numbered_map_values hposition, List.map_map, List.map_map]
    rfl
  -- the table of rows that have been read can be written as any other
  have hwritten : rewritten.1 = .ok none ∧ reread = .ok ((numbered ((rows.map Row.values).map
      (·.map (·.reread dialect.nullText)))).map .ok) :=
    items_of_written h hvalues hmark hpath options session
  rw [hnumbered, List.map_map] at hwritten
  refine ⟨hwritten.1, hwritten.2, ?_⟩
  rw [hwritten.2, Except.ok.injEq, List.map_inj_left]
  refine forall₂_congr fun row _ => ?_
  rw [Function.comp_apply, Except.ok.injEq, Row.reread_eq_self_iff]

/-- A file of remarks, of which one has blanks around it. -/
def untidyRemarks : Files :=
  ⟨[("remarks.csv", Utf8.encode "id;done;remark\n+7; yes ;NA\n 08;;  later\n")]⟩

/-- The remarks that are read from the file, none of which looks like null. -/
def tidiedRemarks : List Row :=
  [⟨0, [.int64 7, .bool true, .null]⟩, ⟨1, [.int64 8, .null, .utf8 "later"]⟩]

/-- The tidied remarks are read again after they have been rewritten. -/
theorem tidied_remarks_reread :
    let rewritten := (ofTransforms (.table (.ofRows remarks.schema tidiedRemarks)) []
      .unobserved).runWith (.collect (.csvFile "tidy.csv" semicolons)) (Session.start .empty ())
    (Source.csv "remarks.csv" (some remarks.schema) semicolons).items untidyRemarks =
        .ok (tidiedRemarks.map .ok) ∧
      (Source.csv "tidy.csv" (some remarks.schema) semicolons).items rewritten.2.files =
        .ok (tidiedRemarks.map .ok) := by
  have hread : (Source.csv "remarks.csv" (some remarks.schema) semicolons).items untidyRemarks =
      .ok (tidiedRemarks.map .ok) := rfl
  have hnull : ∀ row ∈ tidiedRemarks, ∀ v ∈ row.values, v ≠ .null →
      v.text ≠ semicolons.nullText := by decide
  refine ⟨hread, ?_⟩
  exact ((rewritten_rows_reread_iff faithful_semicolons hread (by decide) (by decide) .unobserved
    (Session.start .empty ())).2.2).2 hnull

/-- What a file with some content is read as. -/
def readingOf (dialect : Csv.Dialect) (schema : Schema) (content : String) :
    Except Error (List (Except Error Row)) :=
  (Source.csv "first.csv" (some schema) dialect).items ⟨[("first.csv", Utf8.encode content)]⟩

/-- What a file is read as to which rows have been written. -/
def rereadingOf (dialect : Csv.Dialect) (schema : Schema) (rows : List Row) :
    Except Error (List (Except Error Row)) :=
  (Source.csv "second.csv" (some schema) dialect).items
    ((ofTransforms (.table (.ofRows schema rows)) [] .unobserved).runWith
      (.collect (.csvFile "second.csv" dialect)) (Session.start .empty ())).2.files

/-- Rewritten rows can change: a text with the blanks trimmed from it may have become the text of
    nulls; a text at the start of the file may start with a byte order mark; and behind an empty
    field a delimiter that is a quote or the end of a line is not taken for a delimiter. -/
theorem rewritten_rows_drift :
    let note : Schema := ⟨[⟨"note", .utf8⟩]⟩
    let pair : Schema := ⟨[⟨"left", .utf8⟩, ⟨"right", .utf8⟩]⟩
    let bare (delimiter : Char) : Csv.Dialect := ⟨delimiter.toUInt8, false, ""⟩
    let right : List Row := [⟨0, [.null, .utf8 "b"]⟩]
    let left : List Row := [⟨0, [.utf8 "b", .null]⟩]
    readingOf semicolons note "note\n NA \n" = .ok [.ok ⟨0, [.utf8 "NA"]⟩] ∧
      rereadingOf semicolons note [⟨0, [.utf8 "NA"]⟩] = .ok [.ok ⟨0, [.null]⟩] ∧
      readingOf (bare ',') note "\uFEFF\uFEFFa\n" = .ok [.ok ⟨0, [.utf8 "\uFEFFa"]⟩] ∧
      rereadingOf (bare ',') note [⟨0, [.utf8 "\uFEFFa"]⟩] = .ok [.ok ⟨0, [.utf8 "a"]⟩] ∧
      readingOf (bare '"') pair " \"b\n" = .ok (right.map .ok) ∧
      rereadingOf (bare '"') pair right = .ok (left.map .ok) ∧
      readingOf (bare '\r') pair " \rb\n" = .ok (right.map .ok) ∧
      rereadingOf (bare '\r') pair right = .ok (left.map .ok) ∧
      readingOf (bare '\n') pair " \nb\r" = .ok (right.map .ok) ∧
      rereadingOf (bare '\n') pair right = .ok (left.map .ok) :=
  ⟨rfl, rfl, rfl, rfl, rfl, rfl, rfl, rfl, rfl, rfl⟩

end Pipeline

end RowFlow
