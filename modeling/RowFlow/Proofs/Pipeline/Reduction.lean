import RowFlow.Proofs.Expr.References
import RowFlow.Proofs.Pipeline.Collections
import RowFlow.Proofs.Reduction.Accumulator
import RowFlow.Table.Edit

/-!
# Reductions of Streams and of Tables

A column is reduced in three places: over a table at once, at the end of a pipeline, and by an
aggregate. The collector at the end of a pipeline pushes the values of a stream into an accumulator
(`RowStream.accumulate`). Over the stream of the rows of a table this is the loop over the table,
which checks the width of a row right before it pushes a value of it, so the first failure is the
same one in all three places.

Whether a column of numbers is reduced to null depends on its values and on the type that it
declares (`Pipeline.reductions_see_numbers_iff`), which steps that change values leave as it is.
-/

namespace RowFlow

variable {α : Type}

/-! ## Reducing collectors -/

/-- A collector in the middle of a reduction. -/
abbrev reducerEnd (width position : Nat) (acc : Accumulator) : Guarded (Metered Collector) :=
  Guarded.start ⟨.reduce width position acc⟩

section
variable {width : Nat} {row : Row} (hrow : row.length = width) (position : Nat)
  {acc : Accumulator} (session : Session α)
include hrow

theorem consume_reducerEnd_of_ok {next : Accumulator}
    (h : acc.pushed (row.values.getD position .null) = .ok next) :
    Consumer.consume row (reducerEnd width position acc) session =
      (.ok .more, reducerEnd width position next, session.collected) := by
  have hwidth : expectWidth row.values width = .ok () := expectWidth_eq_ok_iff.2 hrow
  have hconsume (files : Files) : (Collector.reduce width position acc).consume row files =
      (.ok .more, .reduce width position next, files) := by
    simp only [Collector.consume, Collector.width?, Option.map_some, Option.getD_some, hwidth,
      Collector.take, Accumulator.pushed_eq_ok_iff.1 h]
    rfl
  simp only [Consumer.consume, Guarded.start, Bool.false_eq_true, if_false, hconsume]
  rfl

/-- A push that fails leaves the accumulator as it was; the row is counted all the same. -/
theorem consume_reducerEnd_of_error {e : Error}
    (h : acc.pushed (row.values.getD position .null) = .error e) :
    Consumer.consume row (reducerEnd width position acc) session =
      (.error e, reducerEnd width position acc, session.collected) := by
  have hwidth : expectWidth row.values width = .ok () := expectWidth_eq_ok_iff.2 hrow
  have hconsume (files : Files) : (Collector.reduce width position acc).consume row files =
      (.error e, .reduce width position acc, files) := by
    have hpush := Accumulator.pushed_eq_error_iff.1 h
    simp only [Collector.consume, Collector.width?, Option.map_some, Option.getD_some, hwidth,
      Collector.take, hpush, Accumulator.push_snd_of_error hpush]
    rfl
  simp only [Consumer.consume, Guarded.start, Bool.false_eq_true, if_false, hconsume]
  rfl

end

/-! ## Streams -/

namespace RowStream

/-- Pushes the values that the rows of a stream have at a position. -/
def accumulate (position : Nat) : RowStream → Accumulator → Except Error Accumulator
  | .ended, acc => .ok acc
  | .failed e, _ => .error e
  | .row r rest, acc => do rest.accumulate position (← acc.pushed (r.values.getD position .null))

/-- A collector that reduces gives the result of its accumulator, or the error of the first push
    that fails. -/
theorem deliver_reducerEnd {width : Nat} {s : RowStream} (hs : s.HasWidth width) (position : Nat)
    (acc : Accumulator) (session : Session α) :
    (s.deliver (reducerEnd width position acc) session).1 =
      (s.accumulate position acc).map fun acc => some (.value acc.finish) := by
  -- every pushed value leads to another accumulator, so the induction runs over all of them
  induction s generalizing acc session with
  | ended => rfl
  | failed e => rfl
  | row r rest ih =>
    rw [accumulate]
    cases hpush : acc.pushed (r.values.getD position .null) with
    | error e =>
      rw [deliver_row_error (consume_reducerEnd_of_error hs.1 position session hpush)]
      rfl
    | ok next =>
      rw [deliver_row_more (consume_reducerEnd_of_ok hs.1 position session hpush)]
      exact ih hs.2 next session.collected

/-- The loop over the rows of a table is a reduction of the stream that the table is read as. A row
    of another width ends both, after the pushes of the rows in front of it. -/
theorem accumulate_ofItems (width position : Nat) (acc : Accumulator) (rows : List Row) :
    (ofItems width (rows.map .ok)).accumulate position acc =
      Table.accumulate width position acc (rows.map Row.values) := by
  induction rows generalizing acc with
  | nil => rfl
  | cons row rows ih =>
    simp only [List.map_cons, ofItems, Table.accumulate]
    -- the loop and the stream check the width of a row before its value is pushed
    cases expectWidth row.values width with
    | error e => rfl
    | ok _ => exact bind_congr fun next => ih next

/-- A stream that ends normally is the stream of its rows. -/
theorem eq_ofRows_of_result {s : RowStream} {rows : List Row} (h : s.result = .ok rows) :
    s = ofRows rows := by
  induction s generalizing rows with
  | ended => exact Except.ok.inj h ▸ rfl
  | failed e => cases h
  | row r rest ih =>
    obtain ⟨tail, htail, h⟩ := bind_eq_ok_iff.1 h
    rw [← Except.ok.inj h, ofRows, ← ih htail]

end RowStream

/-! ## Pipelines -/

namespace Pipeline

variable {source : Source} {ts : List Transform} {options : Options α} {session : Session α}

/-- A column is resolved against the schema that the steps lead to, before the first row is read. -/
theorem reduce_of_opening {launch : Launch}
    (h : (ofTransforms source ts options).opening session.fresh session.files session.spent =
      .ok launch)
    (column : Column) (reduction : Reduction) :
    ((ofTransforms source ts options).reduce column reduction session).1 = (do
      let position ← launch.schema.resolve column
      let start := Accumulator.start reduction (launch.schema.typeAt position)
      return (← launch.stream.accumulate position start).finish) := by
  have hwidth : launch.stream.HasWidth launch.schema.width :=
    Stage.FitAll.through (fitAll_of_opening h) (RowStream.hasWidth_ofItems _ _)
  refine (collect_of_opening h (.reduce column reduction) _ _).trans ?_
  simp only [Collection.openOn, bind_assoc, pure_bind]
  refine bind_congr fun position => ?_
  rw [RowStream.deliver_reducerEnd hwidth]
  -- what is accumulated is finished, and an error stays one
  cases launch.stream.accumulate position _ <;> rfl

/-- A pipeline that can be run to its end reduces a column to what its table is reduced to. -/
theorem reduce_eq_of_toTable {table : Table}
    (h : ((ofTransforms source ts options).toTable session).1 = .ok table) (column : Column)
    (reduction : Reduction) :
    ((ofTransforms source ts options).reduce column reduction session).1 =
      table.reduce column reduction := by
  obtain ⟨launch, rows, hopening, hresult, rfl⟩ := exists_stream_of_toTable h
  have hwidth : launch.stream.HasWidth launch.schema.width :=
    Stage.FitAll.through (fitAll_of_opening hopening) (RowStream.hasWidth_ofItems _ _)
  -- the stream of the table is the stream at the end of the pipeline
  have hstream : RowStream.ofItems launch.schema.width (rows.map .ok) = launch.stream := by
    rw [RowStream.ofItems_map_ok (hwidth.length_of_result hresult),
      ← RowStream.eq_ofRows_of_result hresult]
  simp only [reduce_of_opening hopening, ← hstream, RowStream.accumulate_ofItems]
  rfl

/-- **Three ways to reduce a column agree.** The reduction of a table, the reduction at the end of a
pipeline that reads the table, and the aggregate over the table resolve the same column, and fail
with the same error or have the same result; the aggregate gives it to each row. -/
theorem reduce_table_eq (table : Table) (column : Column) (reduction : Reduction)
    (options : Options α) (session : Session α) :
    ((ofTransforms (.table table) [] options).reduce column reduction session).1 =
        table.reduce column reduction ∧
      (Expr.aggregate reduction column).eval table =
        (table.reduce column reduction).map (List.replicate table.rowCount) := by
  constructor
  · -- rows may be misshapen, so the table is compared with the stream before its end is known
    have hopening :
        (ofTransforms (.table table) [] options).opening session.fresh session.files
            session.spent =
          .ok ⟨table.schema.width, [], table.schema, table.numberedRows.map .ok⟩ :=
      opening_table table [] options session.fresh session.files session.spent
    have hstream (position : Nat) (acc : Accumulator) :
        (RowStream.ofItems table.schema.width (table.numberedRows.map .ok)).accumulate position
          acc = Table.accumulate table.schema.width position acc table.rows := by
      rw [RowStream.accumulate_ofItems, Table.numberedRows, map_values_numbered]
    rw [reduce_of_opening hopening]
    simp only [Launch.stream, RowStream.through, List.foldl_nil, hstream]
    rfl
  -- the aggregate has a loop of its own, which is that of the table
  · rw [Expr.eval_aggregate]
    cases table.reduce column reduction <;> rfl

end Pipeline

/-! ## Columns of numbers -/

namespace Table

/-- The values at a position from top to bottom, null where a row is too short. -/
def valuesAt (table : Table) (position : Nat) : List Value :=
  table.rows.map (·.getD position .null)

theorem accumulate_eq_foldlM {width : Nat} {rows : List (List Value)}
    (h : ∀ values ∈ rows, values.length = width) (position : Nat) (acc : Accumulator) :
    accumulate width position acc rows =
      (rows.map (·.getD position .null)).foldlM Accumulator.pushed acc := by
  induction rows generalizing acc with
  | nil => rfl
  | cons values rows ih =>
    obtain ⟨hvalues, hrows⟩ := List.forall_mem_cons.1 h
    have hwidth : expectWidth values width = .ok () := expectWidth_eq_ok_iff.2 hvalues
    simp only [accumulate, hwidth, List.map_cons, List.foldlM_cons, ← ih hrows]
    rfl

section
variable {table : Table} {column : Column} {position : Nat}
  (hrows : ∀ values ∈ table.rows, values.length = table.schema.width)
  (hcolumn : table.schema.resolve column = .ok position)
include hrows hcolumn

theorem reduce_eq_foldlM (reduction : Reduction) :
    table.reduce column reduction = Accumulator.finish <$> (table.valuesAt position).foldlM
      Accumulator.pushed (.start reduction (table.schema.typeAt position)) := by
  rw [valuesAt, ← accumulate_eq_foldlM hrows, reduce, hcolumn]
  rfl

/-- A reduction other than a count is null if and only if it passes over every value of its
    column. -/
theorem reduce_eq_null_iff {reduction : Reduction} (hcount : reduction ≠ .count) :
    table.reduce column reduction = .ok .null ↔
      ∀ v ∈ table.valuesAt position, reduction.PassesOver (table.schema.typeAt position) v := by
  rw [reduce_eq_foldlM hrows hcolumn, Accumulator.finish_foldlM_start_eq_null_iff hcount]
  simp only [Reduction.passesOver_iff_not_takes]

/-- Only the sum of a column that declares integers fails, and only because it leaves the range of
    64 bits. -/
theorem reduce_failsWith (reduction : Reduction) :
    FailsWith (fun e => reduction = .sum ∧ table.schema.typeAt position = .int64 ∧
      ∃ sum n, e = .evaluation (.sumOverflow sum n)) (table.reduce column reduction) := by
  rw [reduce_eq_foldlM hrows hcolumn]
  refine FailsWith.map (fun e he => ?_) Accumulator.finish
  obtain ⟨hkind, hoverflow⟩ := Accumulator.foldlM_pushed_eq_error he
  rw [Accumulator.initial_start] at hkind
  -- only one pair of a reduction and a type starts with such a state
  obtain ⟨hsum, htype⟩ : reduction = .sum ∧ table.schema.typeAt position = .int64 := by
    cases reduction <;> cases htype : table.schema.typeAt position <;>
      simp_all [Accumulator.start]
  exact ⟨hsum, htype, hoverflow⟩

/-- If a column of numbers holds one at all, no reduction but a count is null if and only if the
    column declares floating numbers or holds an integer. -/
theorem reduce_ne_null_iff
    (htype : table.schema.typeAt position = .int64 ∨ table.schema.typeAt position = .float64)
    {number : Value} (hmem : number ∈ table.valuesAt position) (hnumber : number.number?.isSome) :
    (∀ reduction, reduction ≠ .count → table.reduce column reduction ≠ .ok .null) ↔
      table.schema.typeAt position = .float64 ∨ ∃ n, .int64 n ∈ table.valuesAt position := by
  constructor
  · intro h
    have hsum : Reduction.sum ≠ .count := by decide
    have hnull := h .sum hsum
    rw [Ne, reduce_eq_null_iff hrows hcolumn hsum] at hnull
    push Not at hnull
    obtain ⟨v, hv, htaken⟩ := hnull
    rw [Reduction.passesOver_iff hsum htype] at htaken
    push Not at htaken
    -- a number that the sum takes in is an integer, or the column is one of floating numbers
    rcases htype with hint | hfloat
    · cases v with
      | int64 n => exact .inr ⟨n, hv⟩
      | float64 x => exact absurd rfl (htaken.2 hint (by decide) x)
      | null | bool | utf8 | tuple => exact absurd rfl htaken.1
    · exact .inl hfloat
  · intro h reduction hcount hnull
    have hover := (reduce_eq_null_iff hrows hcolumn hcount).1 hnull
    simp only [Reduction.passesOver_iff hcount htype] at hover
    rcases h with hfloat | ⟨n, hn⟩
    · have hnone : number.number? ≠ none := Option.isSome_iff_ne_none.1 hnumber
      simpa [hfloat, hnone] using hover number hmem
    · simpa [Value.number?] using hover _ hn

end

/-- The reductions of a column of numbers pass over nothing else than nulls and values that are no
    numbers if and only if the column declares floating numbers or holds none. -/
theorem passesOver_iff_not_number_iff {table : Table} {position : Nat}
    (htype : table.schema.typeAt position = .int64 ∨ table.schema.typeAt position = .float64) :
    (∀ reduction : Reduction, reduction ≠ .count → ∀ v ∈ table.valuesAt position,
        (reduction.PassesOver (table.schema.typeAt position) v ↔ v.number? = none)) ↔
      table.schema.typeAt position = .float64 ∨ ∀ x, .float64 x ∉ table.valuesAt position := by
  constructor
  · intro h
    rcases htype with hint | hfloat
    -- a floating number in a column of integers would be passed over by its sum
    · refine .inr fun x hx => ?_
      have hsum : Reduction.sum ≠ .count := by decide
      have hover : Reduction.sum.PassesOver (table.schema.typeAt position) (.float64 x) :=
        (Reduction.passesOver_iff hsum (.inl hint)).2 (.inr ⟨hint, by decide, x, rfl⟩)
      cases (h .sum hsum _ hx).1 hover
    · exact .inl hfloat
  · intro h reduction hcount v hv
    rw [Reduction.passesOver_iff hcount htype]
    -- the second way to be passed over needs a floating number in a column of integers
    refine or_iff_left ?_
    rintro ⟨hint, -, x, rfl⟩
    rcases h with hfloat | hnever
    · cases hint.symm.trans hfloat
    · exact hnever x hv

/-- An update leaves the columns as they are declared. -/
theorem schema_of_update {original table : Table} {columns : List Column} {value : Expr}
    (h : original.update columns value = .ok table) : original.schema = table.schema := by
  obtain ⟨positions, -, h⟩ := bind_eq_ok_iff.1 h
  obtain ⟨results, -, h⟩ := bind_eq_ok_iff.1 h
  obtain ⟨rows, -, h⟩ := bind_eq_ok_iff.1 h
  obtain rfl : { original with rows } = table := Except.ok.inj h
  rfl

end Table

namespace Pipeline

/-- If a column of numbers holds one at all, no reduction but a count passes over all of it if and
    only if the column declares floating numbers or holds an integer. The reductions pass over
    nothing else than nulls and values that are no numbers if and only if the column declares
    floating numbers or holds none. Where the table comes from is of no importance: an update leaves
    the declared types as they are, and a pipeline that gives the table reduces its columns to the
    same when it draws from the same tape. -/
theorem reductions_see_numbers_iff {table : Table} {column : Column} {position : Nat}
    (hrows : ∀ values ∈ table.rows, values.length = table.schema.width)
    (hcolumn : table.schema.resolve column = .ok position)
    (htype : table.schema.typeAt position = .int64 ∨ table.schema.typeAt position = .float64)
    (hnumber : ∃ v ∈ table.valuesAt position, v.number?.isSome) :
    ((∀ reduction, reduction ≠ .count → table.reduce column reduction ≠ .ok .null) ↔
      table.schema.typeAt position = .float64 ∨ ∃ n, .int64 n ∈ table.valuesAt position) ∧
    ((∀ reduction : Reduction, reduction ≠ .count → ∀ v ∈ table.valuesAt position,
        (reduction.PassesOver (table.schema.typeAt position) v ↔ v.number? = none)) ↔
      table.schema.typeAt position = .float64 ∨ ∀ x, .float64 x ∉ table.valuesAt position) ∧
    (∀ reduction, FailsWith (fun e => reduction = .sum ∧
        table.schema.typeAt position = .int64 ∧ ∃ sum n, e = .evaluation (.sumOverflow sum n))
      (table.reduce column reduction)) ∧
    (∀ (original : Table) (columns : List Column) (value : Expr),
      original.update columns value = .ok table → original.schema = table.schema) ∧
    ∀ (source : Source) (ts : List Transform) (options : Options α) (session : Session α),
      ((ofTransforms source ts options).toTable session).1 = .ok table → ∀ reduction,
        ((ofTransforms source ts options).reduce column reduction session).1 =
          table.reduce column reduction := by
  obtain ⟨number, hmem, hsome⟩ := hnumber
  exact ⟨Table.reduce_ne_null_iff hrows hcolumn htype hmem hsome,
    Table.passesOver_iff_not_number_iff htype, Table.reduce_failsWith hrows hcolumn,
    fun original columns value h => Table.schema_of_update h,
    fun source ts options session h => reduce_eq_of_toTable h column⟩

/-- Levels, one of which is a whole number, one is missing and one is in words. -/
def levels : Table :=
  ⟨⟨[⟨"at", .utf8⟩, ⟨"level", .float64⟩]⟩,
    [[.utf8 "dawn", .int64 2], [.utf8 "noon", .null], [.utf8 "dusk", .utf8 "high"],
      [.utf8 "night", .float64 ⟨0x3FE0000000000000⟩]]⟩

/-- The column of levels declares floating numbers, so its reductions see the whole number too. -/
theorem levels_reduced :
    (∀ values ∈ levels.rows, values.length = levels.schema.width) ∧
      levels.schema.resolve (.name "level") = .ok 1 ∧
      levels.schema.typeAt 1 = .float64 ∧ (.int64 2) ∈ levels.valuesAt 1 ∧
      (∀ reduction, reduction ≠ .count → levels.reduce (.name "level") reduction ≠ .ok .null) ∧
      levels.reduce (.name "level") .sum = .ok (.float64 ⟨0x4004000000000000⟩) ∧
      ((ofTransforms (.table levels) [.limit 4] .unobserved).reduce (.name "level") .sum
        (.start .empty ())).1 = .ok (.float64 ⟨0x4004000000000000⟩) := by
  have hrows : ∀ values ∈ levels.rows, values.length = levels.schema.width := by decide
  have htwo : (.int64 2) ∈ levels.valuesAt 1 := by decide
  have hsum : levels.reduce (.name "level") .sum = .ok (.float64 ⟨0x4004000000000000⟩) := by
    decide +kernel
  -- a limit that no row exceeds leaves the table as it is
  have htable : ((ofTransforms (.table levels) [.limit 4] .unobserved).toTable
      (.start .empty ())).1 = .ok levels := by decide +kernel
  have hcolumn : levels.schema.resolve (.name "level") = .ok 1 := rfl
  obtain ⟨hnull, -, -, -, hpipeline⟩ := reductions_see_numbers_iff (α := Unit) hrows hcolumn
    (.inr rfl) ⟨_, htwo, rfl⟩
  exact ⟨hrows, hcolumn, rfl, htwo, hnull.2 (.inl rfl), hsum,
    (hpipeline _ _ _ _ htable .sum).trans hsum⟩

/-- Two whole numbers. -/
def wholes : Table := ⟨⟨[⟨"n", .int64⟩]⟩, [[.int64 1], [.int64 2]]⟩

/-- The half of a whole number. -/
def half : Expr := .binary .div (.column (.name "n")) (.literal (.int64 2))

/-- Halves are floating numbers in a column that declares integers: their sum is null and so are
    the least and the greatest of them, while their mean is not. -/
theorem halves_unseen :
    wholes.update [.name "n"] half = .ok { wholes with
        rows := [[.float64 ⟨0x3FE0000000000000⟩], [.float64 ⟨0x3FF0000000000000⟩]] } ∧
      (do (← wholes.update [.name "n"] half).reduce (.name "n") .sum) = .ok .null ∧
      (do (← wholes.update [.name "n"] half).reduce (.name "n") .min) = .ok .null ∧
      (do (← wholes.update [.name "n"] half).reduce (.name "n") .max) = .ok .null ∧
      (do (← wholes.update [.name "n"] half).reduce (.name "n") .mean) =
        .ok (.float64 ⟨0x3FE8000000000000⟩) ∧
      ((ofTransforms (.table wholes) [.update [.name "n"] half] .unobserved).reduce (.name "n")
        .sum (.start .empty ())).1 = .ok .null := by
  refine ⟨by decide +kernel, by decide +kernel, by decide +kernel, by decide +kernel,
    by decide +kernel, by decide +kernel⟩

end Pipeline

end RowFlow
