import RowFlow.Proofs.Expr.Agreement
import RowFlow.Proofs.Operator.Integers
import RowFlow.Proofs.Pipeline.Collections

/-!
# Filters Over Tables

A filter keeps the rows on which its predicate is true, whether the whole table is filtered at once
(`Table.filter_eq`) or its rows flow through a pipeline (`Pipeline.collectRows_filter`). For a
filter that asks for an integer in a column this means that it keeps the rows with integers that are
rounded to the same number, which are those with this very integer if and only if the column holds
no others.
-/

namespace RowFlow

variable {α : Type}

/-! ## Kept rows -/

theorem filter_eq_filter_iff {β : Type} {p q : β → Bool} {items : List β} :
    items.filter p = items.filter q ↔ ∀ item ∈ items, p item = q item := by
  constructor
  · intro h item hitem
    -- an item of the list is in the result just if the predicate keeps it
    have hmem := congrArg (item ∈ ·) h
    simp only [List.mem_filter, hitem, true_and, eq_iff_iff] at hmem
    exact Bool.eq_iff_iff.2 hmem
  · exact List.filter_congr

namespace Table

variable {table : Table} {e : Expr} {evaluator : Evaluator} {truth : List Value → Bool}

/-- Filtering a table keeps the rows on which the evaluator of the predicate is true. -/
theorem filter_eq (hprep : e.prepare table.schema = .ok evaluator)
    (hwidth : ∀ row ∈ table.rows, row.length = table.schema.width)
    (htruth : ∀ row ∈ table.rows, evaluator.evalTruth row = .ok (truth row)) :
    table.filter e = .ok { table with rows := table.rows.filter truth } := by
  -- the whole column of truths is computed first, and row by row it is the evaluator's
  have htruths : (do (← e.eval table).mapM Value.truth) = .ok (table.rows.map truth) := by
    apply (Expr.truths_agree table hwidth hprep _).2
    rw [mapM_eq_ok_iff, List.forall₂_map_right_iff, List.forall₂_same]
    exact htruth
  have hfilter : table.filter e = do
      let truths ← (do (← e.eval table).mapM Value.truth)
      return { table with rows := marked (truths.map (· == true)) table.rows } := by
    simp only [filter, selectRows, bind_assoc]
  rw [hfilter, htruths]
  simp only [beq_true, List.map_id']
  rw [← marked_map truth]
  rfl

end Table

/-! ## Filters in pipelines -/

/-- A filter drops rows of a stream that ends normally, if its predicate never fails. -/
theorem RowStream.mapRows_filter {evaluator : Evaluator} {truth : List Value → Bool}
    {rows : List Row} (h : ∀ row ∈ rows, evaluator.evalTruth row.values = .ok (truth row.values)) :
    (ofRows rows).mapRows (RowRule.filter evaluator false).apply =
      ofRows (rows.filter fun row => truth row.values) := by
  induction rows with
  | nil => rfl
  | cons row rows ih =>
    obtain ⟨hrow, hrows⟩ := List.forall_mem_cons.1 h
    have ih := ih hrows
    simp only [ofRows, mapRows, RowRule.apply, hrow, bind, Except.bind, pure, Except.pure]
    cases htruth : truth row.values with
    | true => simp [htruth, ih, ofRows]
    | false => simp [htruth, ih]

namespace Pipeline

variable {table : Table} {e : Expr} {evaluator : Evaluator} {truth : List Value → Bool}

/-- A filter in a pipeline over a table keeps the rows on which the evaluator of its predicate is
    true. -/
theorem collectRows_filter (hprep : e.prepare table.schema = .ok evaluator)
    (hwidth : ∀ row ∈ table.rows, row.length = table.schema.width)
    (htruth : ∀ row ∈ table.rows, evaluator.evalTruth row = .ok (truth row)) (options : Options α)
    (session : Session α) :
    ((ofTransforms (.table table) [.filter e false] options).collectRows session).1 =
      .ok (table.numberedRows.filter fun row => truth row.values) := by
  have hopening : (ofTransforms (.table table) [.filter e false] options).opening session.fresh
      session.files session.spent =
        .ok ⟨table.schema.width, [.each (.filter evaluator false)], table.schema,
          table.numberedRows.map .ok⟩ := by
    simp only [opening_table, List.map_cons, List.map_nil, assemble_transform, assemble,
      Transform.openOn, hprep, bind, Except.bind, pure, Except.pure]
  have hrows := RowStream.ofItems_map_ok (Table.forall_mem_numberedRows.2 hwidth)
  rw [collectRows_of_opening hopening, Launch.stream, RowStream.through, List.foldl_cons,
    List.foldl_nil, Stage.onStream, hrows,
    RowStream.mapRows_filter (Table.forall_mem_numberedRows.2 htruth), RowStream.result_ofRows]

end Pipeline

/-! ## Filters on integers -/

/-- Whether a column has a value. -/
def Expr.columnIs (column : Column) (value : Value) : Expr :=
  .binary .eq (.column column) (.literal value)

theorem Expr.prepare_columnIs {schema : Schema} {column : Column} {position : Nat}
    (hcolumn : schema.resolve column = .ok position) (value : Value) :
    ∃ evaluator, (columnIs column value).prepare schema = .ok evaluator ∧
      ∀ row : List Value, row.length = schema.width → evaluator.evalTruth row =
        .ok (Operator.equal? (row.getD position .null) value == some true) := by
  -- both operands prepare to evaluators that cannot fail
  have hprep : (columnIs column value).prepare schema = (do
      let position ← schema.resolve column
      let cell : Evaluator := ⟨schema.width, fun values => .ok (values.getD position .null)⟩
      let constant : Evaluator := ⟨schema.width, fun _ => .ok value⟩
      return ⟨schema.width, fun values => do
        Operator.apply .eq (← cell.eval values) (← constant.eval values)⟩) := by
    simp only [columnIs, prepare, bind_assoc, pure_bind]
  rw [hcolumn] at hprep
  refine ⟨_, hprep, fun row hrow => ?_⟩
  have hwidth : expectWidth row schema.width = .ok () := expectWidth_eq_ok_iff.2 hrow
  simp only [Evaluator.evalTruth, Evaluator.eval, hwidth, Operator.apply, bind, Except.bind]
  rfl

namespace Table

variable {table : Table} {position : Nat} {k : Int64}

/-- All rows have the width of the schema, and an integer or nothing at a position. -/
def HasIntegersAt (table : Table) (position : Nat) : Prop :=
  ∀ row ∈ table.rows, row.length = table.schema.width ∧
    (row[position]? = some .null ∨ ∃ n, row[position]? = some (.int64 n))

/-- The integers at a position are rounded apart from an integer. -/
def RoundsApartAt (table : Table) (position : Nat) (k : Int64) : Prop :=
  ∀ row ∈ table.rows, ∀ n, row[position]? = some (.int64 n) → Operator.RoundApart n k

/-- A filter takes an integer for another one only if both are rounded to the same number. -/
theorem equal_at_eq_iff (h : table.HasIntegersAt position) :
    (∀ row ∈ table.rows, (Operator.equal? (row.getD position .null) (.int64 k) == some true) =
      decide (row[position]? = some (.int64 k))) ↔ table.RoundsApartAt position k := by
  refine forall₂_congr fun row hrow => ?_
  -- a null is equal to nothing, so only integers have to be told apart
  rcases (h row hrow).2 with hvalue | ⟨n, hvalue⟩
  · rw [List.getD_eq_getElem?_getD, hvalue]
    exact ⟨nofun, fun _ => rfl⟩
  · rw [List.getD_eq_getElem?_getD, hvalue, Option.getD_some, Operator.equal?_int64,
      Option.some_beq_some, beq_true, Bool.eq_iff_iff, beq_iff_eq, decide_eq_true_eq,
      Operator.compareRounded_eq_iff, Option.some_inj, Value.int64.injEq]
    constructor
    · intro hiff m hm
      obtain rfl := Value.int64.inj (Option.some.inj hm)
      exact hiff.1
    · intro hapart
      exact ⟨hapart n rfl, fun hsame => hsame ▸ rfl⟩

end Table

namespace Pipeline

/-- Comparisons of integers are exact if and only if the integers are rounded apart, as integers of
    at most 53 bits are. A filter that asks for an integer keeps exactly the rows with it, at once
    or in a pipeline, if and only if it is rounded apart from the integers in the column. -/
theorem exact_iff_roundApart {table : Table} {column : Column} {position : Nat}
    (hcolumn : table.schema.resolve column = .ok position)
    (hrows : table.HasIntegersAt position) (k : Int64) (options : Options α)
    (session : Session α) :
    (∀ a b, Operator.ComparesExactly a b ↔ Operator.RoundApart a b) ∧
    (∀ a b : Int64, a.toInt.natAbs < 2 ^ 53 ∨ b.toInt.natAbs < 2 ^ 53 →
      Operator.RoundApart a b) ∧
    (table.filter (.columnIs column (.int64 k)) = .ok { table with
        rows := table.rows.filter fun row => row[position]? = some (.int64 k) } ↔
      table.RoundsApartAt position k) ∧
    (((ofTransforms (.table table)
          [.filter (.columnIs column (.int64 k)) false] options).collectRows session).1 =
        .ok (table.numberedRows.filter fun row => row.get? position = some (.int64 k)) ↔
      table.RoundsApartAt position k) := by
  obtain ⟨evaluator, hprep, heval⟩ := Expr.prepare_columnIs hcolumn (.int64 k)
  have hwidth : ∀ row ∈ table.rows, row.length = table.schema.width := fun row hrow =>
    (hrows row hrow).1
  have htruth : ∀ row ∈ table.rows, evaluator.evalTruth row =
      .ok (Operator.equal? (row.getD position .null) (.int64 k) == some true) := fun row hrow =>
    heval row (hwidth row hrow)
  refine ⟨fun _ _ => Operator.comparesExactly_iff, fun _ _ => Operator.roundApart_of_natAbs_lt,
    ?_, ?_⟩
  · rw [Table.filter_eq hprep hwidth htruth, Except.ok.injEq, Table.mk.injEq, and_iff_right rfl,
      filter_eq_filter_iff]
    exact Table.equal_at_eq_iff hrows
  · rw [collectRows_filter hprep hwidth htruth, Except.ok.injEq, filter_eq_filter_iff]
    exact Table.forall_mem_numberedRows.trans (Table.equal_at_eq_iff hrows)

/-- Identifiers, of which one is long and one is missing. -/
def identifiers : Table :=
  ⟨⟨[⟨"id", .int64⟩]⟩, [[.int64 9007199254740993], [.null], [.int64 7]]⟩

/-- The short identifier is found alone, at once and in a pipeline. -/
theorem identifiers_filtered :
    identifiers.schema.resolve (.name "id") = .ok 0 ∧ identifiers.HasIntegersAt 0 ∧
      identifiers.filter (.columnIs (.name "id") (.int64 7)) =
        .ok { identifiers with rows := [[.int64 7]] } ∧
      ((ofTransforms (.table identifiers) [.filter (.columnIs (.name "id") (.int64 7)) false]
        .unobserved).collectRows (.start .empty ())).1 = .ok [⟨2, [.int64 7]⟩] := by
  have hrows : identifiers.HasIntegersAt 0 := by
    intro row hrow
    simp only [identifiers, List.mem_cons, List.not_mem_nil, or_false] at hrow
    rcases hrow with rfl | rfl | rfl
    · exact ⟨rfl, .inr ⟨_, rfl⟩⟩
    · exact ⟨rfl, .inl rfl⟩
    · exact ⟨rfl, .inr ⟨_, rfl⟩⟩
  have hcolumn : identifiers.schema.resolve (.name "id") = .ok 0 := rfl
  obtain ⟨-, hbits, hfilter, hpipeline⟩ :=
    exact_iff_roundApart hcolumn hrows 7 .unobserved (.start .empty ())
  have hapart : identifiers.RoundsApartAt 0 7 := fun _ _ n _ => hbits n 7 (.inr (by decide))
  exact ⟨hcolumn, hrows, hfilter.2 hapart, hpipeline.2 hapart⟩

/-- Two different identifiers that are rounded to the same number. -/
def twins : Table :=
  ⟨⟨[⟨"id", .int64⟩]⟩, [[.int64 9007199254740992], [.int64 9007199254740993]]⟩

/-- The operators take the two identifiers for equal, and a filter that asks for one keeps both. -/
theorem twins_confused :
    (9007199254740992 : Int64) ≠ 9007199254740993 ∧
      Operator.apply .eq (.int64 9007199254740992) (.int64 9007199254740993) = .ok (.bool true) ∧
      Operator.apply .lt (.int64 9007199254740992) (.int64 9007199254740993) = .ok (.bool false) ∧
      twins.filter (.columnIs (.name "id") (.int64 9007199254740992)) = .ok twins ∧
      ((ofTransforms (.table twins)
        [.filter (.columnIs (.name "id") (.int64 9007199254740992)) false]
        .unobserved).collectRows (.start .empty ())).1 = .ok twins.numberedRows := by
  -- the second identifier has 54 bits, and its lowest one is lost
  refine ⟨by decide, by decide +kernel, by decide +kernel, by decide +kernel, by decide +kernel⟩

end Pipeline

end RowFlow
