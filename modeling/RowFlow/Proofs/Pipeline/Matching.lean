import RowFlow.Proofs.Expr.Connectives
import RowFlow.Proofs.Operator.Tuples
import RowFlow.Proofs.Pipeline.Filtering
import RowFlow.Proofs.Step.Failures

/-!
# Matching Several Columns

Several columns can be matched with as many others at once, by comparing two tuples, or one by one,
by a conjunction of comparisons (`Expr.tuplesEqual`, `Expr.columnsEqual`). On each row the first
tells whether the values are the same and the second whether they are equal. Filters by the two keep
the same rows if and only if both tell the same of every row (`Pipeline.matches_alike_iff`).
-/

namespace RowFlow

variable {α : Type}

/-- The first of the positions is looked up in front of the others. -/
theorem pick_cons {β : Type} {position : Nat} {items : List β} (h : position < items.length)
    (positions : List Nat) (default : β) :
    pick (position :: positions) items = items.getD position default :: pick positions items := by
  -- within the items the lookup succeeds, and the default is of no importance
  simp [pick, h]

/-! ## Two ways of matching -/

namespace Expr

/-- Columns are equal to others, compared as tuples. -/
def tuplesEqual (left right : List Column) : Expr := .binary .eq (.columns left) (.columns right)

/-- Columns are equal to others, each to its counterpart. -/
def columnsEqual (left right : List Column) : Expr :=
  .all (List.zipWith (fun l r => .binary .eq (.column l) (.column r)) left right)

variable {schema : Schema}

theorem evalTruth_of_eval {evaluator : Evaluator} {row : List Value} {b : Bool}
    (h : evaluator.eval row = .ok (.bool b)) : evaluator.evalTruth row = .ok b := by
  rw [Evaluator.evalTruth, h]
  rfl

theorem onRow_of_prepare {e : Expr} {evaluator : Evaluator} {row : List Value} {v : Value}
    (hprep : e.prepare schema = .ok evaluator) (h : evaluator.eval row = .ok v) :
    e.onRow schema row = .ok (.ok v) := by
  rw [onRow, hprep, ← h]
  rfl

/-- The equality of two expressions that have a value on each row is evaluated to a truth. -/
theorem exists_prepare_equal {left right : Expr} {l r : List Value → Value}
    (hl : left.prepare schema = .ok ⟨schema.width, fun row => .ok (l row)⟩)
    (hr : right.prepare schema = .ok ⟨schema.width, fun row => .ok (r row)⟩) :
    ∃ evaluator, (binary .eq left right).prepare schema = .ok evaluator ∧
      ∀ row : List Value, row.length = schema.width →
        evaluator.eval row = .ok (.bool (decide (Operator.Holds .eq (l row) (r row)))) := by
  -- the equation of the preparation, before what is known of the operands is put in
  have hprep : (binary .eq left right).prepare schema = (do
      let l ← left.prepare schema
      let r ← right.prepare schema
      return ⟨schema.width, fun values => do
        Operator.apply .eq (← l.eval values) (← r.eval values)⟩) := by
    rw [prepare]
  rw [hl, hr] at hprep
  refine ⟨_, hprep, fun row hrow => ?_⟩
  have hwidth : expectWidth row schema.width = .ok () := expectWidth_eq_ok_iff.2 hrow
  simp only [Evaluator.eval, hwidth, bind, Except.bind]
  exact Operator.apply_eq _ _

theorem prepare_column {column : Column} {position : Nat}
    (h : schema.resolve column = .ok position) :
    (Expr.column column).prepare schema =
      .ok ⟨schema.width, fun row => .ok (row.getD position .null)⟩ := by
  rw [prepare, h]
  rfl

theorem prepare_columns {columns : List Column} {positions : List Nat}
    (h : schema.resolveEach columns = .ok positions) :
    (Expr.columns columns).prepare schema =
      .ok ⟨schema.width, fun row => .ok (gather positions row)⟩ := by
  rw [prepare, h]
  rfl

/-- Several values are gathered to a tuple. -/
theorem gather_of_two_le {positions : List Nat} (h : 2 ≤ positions.length) (row : List Value) :
    gather positions row = .tuple (pick positions row) := by
  match positions, h with
  | _ :: _ :: _, _ => rfl

section
variable {left right : List Column} {ps qs : List Nat}

/-- Matched as tuples, columns are equal on a row if they hold the same values. -/
theorem exists_prepare_tuplesEqual (hleft : schema.resolveEach left = .ok ps)
    (hright : schema.resolveEach right = .ok qs) (hps : 2 ≤ ps.length) (hqs : 2 ≤ qs.length) :
    ∃ evaluator, (tuplesEqual left right).prepare schema = .ok evaluator ∧
      ∀ row : List Value, row.length = schema.width →
        evaluator.eval row = .ok (.bool (decide (pick ps row = pick qs row))) := by
  obtain ⟨evaluator, hprep, heval⟩ :=
    exists_prepare_equal (prepare_columns hleft) (prepare_columns hright)
  refine ⟨evaluator, hprep, fun row hrow => ?_⟩
  rw [heval row hrow, gather_of_two_le hps, gather_of_two_le hqs]
  simp only [Operator.holds_eq_tuple_iff]

/-- Operands that compare columns with their counterparts, one false one of which decides. -/
theorem exists_prepareAll_columnsEqual
    (hleft : List.Forall₂ (fun c p => schema.resolve c = .ok p) left ps)
    (hright : List.Forall₂ (fun c p => schema.resolve c = .ok p) right qs)
    (hlength : left.length = right.length) :
    ∃ evaluators, prepareAll schema
        (List.zipWith (fun l r => .binary .eq (.column l) (.column r)) left right) =
          .ok evaluators ∧
      ∀ row : List Value, row.length = schema.width → Evaluator.decides false row evaluators =
        .ok (!decide (List.Forall₂ (Operator.Holds .eq) (pick ps row) (pick qs row))) := by
  -- both lists of columns are walked along together
  induction hleft generalizing right qs with
  | nil =>
    obtain rfl : right = [] := List.length_eq_zero_iff.1 hlength.symm
    cases hright
    exact ⟨[], rfl, fun row _ => rfl⟩
  | @cons l p left ps hl _ ih =>
    cases hright with
    | nil => cases hlength
    | @cons r q right qs hr hright =>
      obtain ⟨evaluator, hprep, heval⟩ :=
        exists_prepare_equal (prepare_column hl) (prepare_column hr)
      obtain ⟨evaluators, hpreps, hdecides⟩ := ih hright (Nat.succ.inj hlength)
      refine ⟨evaluator :: evaluators, ?_, fun row hrow => ?_⟩
      · simp only [List.zipWith_cons_cons, prepareAll, hprep, hpreps]
        rfl
      · -- both positions lie within the row, so the first values are those at them
        have hp : p < row.length := hrow ▸ Schema.lt_width_of_resolve hl
        have hq : q < row.length := hrow ▸ Schema.lt_width_of_resolve hr
        have htruth : evaluator.evalTruth row =
            .ok (decide (Operator.Holds .eq (row.getD p .null) (row.getD q .null))) :=
          evalTruth_of_eval (heval row hrow)
        rw [Evaluator.decides, htruth, hdecides row hrow, pick_cons hp ps .null,
          pick_cons hq qs .null]
        -- a false operand decides the conjunction, a true one leaves it to the rest
        by_cases hholds : Operator.Holds .eq (row.getD p .null) (row.getD q .null)
        · simp only [List.forall₂_cons, hholds, true_and, decide_true]
          rfl
        · simp only [List.forall₂_cons, hholds, false_and, decide_false]
          rfl

/-- Matched one by one, columns are equal on a row if each value is equal to its counterpart. -/
theorem exists_prepare_columnsEqual (hleft : schema.resolveEach left = .ok ps)
    (hright : schema.resolveEach right = .ok qs) (hlength : left.length = right.length) :
    ∃ evaluator, (columnsEqual left right).prepare schema = .ok evaluator ∧
      ∀ row : List Value, row.length = schema.width → evaluator.eval row = .ok
        (.bool (decide (List.Forall₂ (Operator.Holds .eq) (pick ps row) (pick qs row)))) := by
  obtain ⟨evaluators, hpreps, hdecides⟩ :=
    exists_prepareAll_columnsEqual (mapM_eq_ok_iff.1 hleft) (mapM_eq_ok_iff.1 hright) hlength
  have hprep := prepare_connective schema false
    (List.zipWith (fun l r => .binary .eq (.column l) (.column r)) left right)
  rw [hpreps] at hprep
  refine ⟨_, hprep, fun row hrow => ?_⟩
  have hwidth : expectWidth row schema.width = .ok () := expectWidth_eq_ok_iff.2 hrow
  simp only [Evaluator.eval, Evaluator.connective, hwidth, hdecides row hrow, bind, Except.bind,
    beq_false, Bool.not_not]
  rfl

end

end Expr

/-! ## Filters by two ways of matching -/

namespace Pipeline

open Operator (ToldAlike)

/-- **When several columns match as tuples and one by one alike.** Tuples are equal if and only if
    they are the same, which is the equality of their items, place by place, if and only if these
    are told alike: the tuples are not the same with a null or a NaN in them, and do not differ in
    nothing but different values that stand for the same numbers. So on each row two or more columns
    match their counterparts as tuples just as they match one by one if and only if their values are
    told alike, and a filter of a table, at once or in a pipeline, keeps the same rows either way if
    and only if this is so on all rows. -/
theorem matches_alike_iff {table : Table} {left right : List Column} {ps qs : List Nat}
    (hleft : table.schema.resolveEach left = .ok ps)
    (hright : table.schema.resolveEach right = .ok qs) (htwo : 2 ≤ left.length)
    (hlength : left.length = right.length)
    (hrows : ∀ row ∈ table.rows, row.length = table.schema.width) (options : Options α)
    (session : Session α) :
    let tuples := Expr.tuplesEqual left right
    let columns := Expr.columnsEqual left right
    (∀ vs ws : List Value, (Operator.Holds .eq (.tuple vs) (.tuple ws) ↔ vs = ws) ∧
      ((Operator.Holds .eq (.tuple vs) (.tuple ws) ↔ List.Forall₂ (Operator.Holds .eq) vs ws) ↔
        ToldAlike vs ws)) ∧
    (∀ row : List Value, row.length = table.schema.width →
      tuples.onRow table.schema row = .ok (.ok (.bool (decide (pick ps row = pick qs row)))) ∧
      columns.onRow table.schema row =
        .ok (.ok (.bool (decide (List.Forall₂ (Operator.Holds .eq) (pick ps row) (pick qs row))))) ∧
      (tuples.onRow table.schema row = columns.onRow table.schema row ↔
        ToldAlike (pick ps row) (pick qs row))) ∧
    (table.filter tuples = table.filter columns ↔
      ∀ row ∈ table.rows, ToldAlike (pick ps row) (pick qs row)) ∧
    (((ofTransforms (.table table) [.filter tuples false] options).collectRows session).1 =
        ((ofTransforms (.table table) [.filter columns false] options).collectRows session).1 ↔
      ∀ row ∈ table.rows, ToldAlike (pick ps row) (pick qs row)) := by
  intro tuples columns
  have hps : ps.length = left.length := length_of_mapM_eq_ok hleft
  have hqs : qs.length = right.length := length_of_mapM_eq_ok hright
  obtain ⟨asTuples, htuples, hsame⟩ :=
    Expr.exists_prepare_tuplesEqual hleft hright (by omega) (by omega)
  obtain ⟨oneByOne, hcolumns, hequal⟩ := Expr.exists_prepare_columnsEqual hleft hright hlength
  -- on a row the two truths are the two sides of the equality of tuples
  have halike (row : List Value) :
      decide (pick ps row = pick qs row) =
          decide (List.Forall₂ (Operator.Holds .eq) (pick ps row) (pick qs row)) ↔
        ToldAlike (pick ps row) (pick qs row) := by
    rw [decide_eq_decide, ← Operator.holds_eq_tuple_iff]
    exact Operator.holds_eq_tuple_iff_forall₂_iff
  have hsameTruth (row : List Value) (hrow : row ∈ table.rows) :=
    Expr.evalTruth_of_eval (hsame row (hrows row hrow))
  have hequalTruth (row : List Value) (hrow : row ∈ table.rows) :=
    Expr.evalTruth_of_eval (hequal row (hrows row hrow))
  refine ⟨fun vs ws => ⟨Operator.holds_eq_tuple_iff, Operator.holds_eq_tuple_iff_forall₂_iff⟩,
    fun row hrow => ?_, ?_, ?_⟩
  · have htuplesOn := Expr.onRow_of_prepare htuples (hsame row hrow)
    have hcolumnsOn := Expr.onRow_of_prepare hcolumns (hequal row hrow)
    refine ⟨htuplesOn, hcolumnsOn, ?_⟩
    rw [htuplesOn, hcolumnsOn, ← halike row]
    simp only [Except.ok.injEq, Value.bool.injEq]
  · rw [Table.filter_eq htuples hrows hsameTruth, Table.filter_eq hcolumns hrows hequalTruth,
      Except.ok.injEq, Table.mk.injEq, and_iff_right rfl, filter_eq_filter_iff]
    exact forall₂_congr fun row _ => halike row
  · rw [collectRows_filter htuples hrows hsameTruth, collectRows_filter hcolumns hrows hequalTruth,
      Except.ok.injEq, filter_eq_filter_iff]
    exact (forall₂_congr fun (row : Row) _ => halike row.values).trans
      (Table.forall_mem_numberedRows (P := fun row => ToldAlike (pick ps row) (pick qs row)))

/-- Authors and readers of letters, one of which has no name that is known in full. -/
def letters : Table :=
  ⟨⟨[⟨"given", .utf8⟩, ⟨"family", .utf8⟩, ⟨"to given", .utf8⟩, ⟨"to family", .utf8⟩]⟩,
    [[.utf8 "ada", .utf8 "byron", .utf8 "ada", .utf8 "byron"],
      [.utf8 "ada", .null, .utf8 "ada", .utf8 "king"]]⟩

/-- The letter that went to its author is found either way. -/
theorem letters_to_authors :
    let tuples := Expr.tuplesEqual [.name "given", .name "family"] [.name "to given", .index 3]
    let columns := Expr.columnsEqual [.name "given", .name "family"] [.name "to given", .index 3]
    letters.schema.resolveEach [.name "given", .name "family"] = .ok [0, 1] ∧
      letters.schema.resolveEach [.name "to given", .index 3] = .ok [2, 3] ∧
      (∀ row ∈ letters.rows, row.length = letters.schema.width) ∧
      (∀ row ∈ letters.rows, ToldAlike (pick [0, 1] row) (pick [2, 3] row)) ∧
      letters.filter tuples = letters.filter columns ∧
      letters.filter tuples =
        .ok ⟨letters.schema, [[.utf8 "ada", .utf8 "byron", .utf8 "ada", .utf8 "byron"]]⟩ := by
  intro tuples columns
  have hleft : letters.schema.resolveEach [.name "given", .name "family"] = .ok [0, 1] := by
    decide +kernel
  have hright : letters.schema.resolveEach [.name "to given", .index 3] = .ok [2, 3] := by
    decide +kernel
  have hrows : ∀ row ∈ letters.rows, row.length = letters.schema.width := by decide
  -- a null beside a name tells the two rows apart either way
  have halike : ∀ row ∈ letters.rows, ToldAlike (pick [0, 1] row) (pick [2, 3] row) := by
    decide +kernel
  obtain ⟨-, -, hfilter, -⟩ :=
    matches_alike_iff hleft hright (by decide) rfl hrows .unobserved (.start .empty ())
  exact ⟨hleft, hright, hrows, halike, hfilter.2 halike, by decide +kernel⟩

/-- Two pairs of columns: in the first row they hold the same numbers in different kinds, in the
    second one the same values, of which one is null. -/
def pairs : Table :=
  ⟨⟨[⟨"a", .int64⟩, ⟨"b", .int64⟩, ⟨"c", .float64⟩, ⟨"d", .int64⟩]⟩,
    [[.int64 1, .int64 2, .float64 ⟨0x3FF0000000000000⟩, .int64 2],
      [.null, .int64 2, .null, .int64 2]]⟩

/-- The pairs of the first row are equal one by one but not as tuples, those of the second one the
    other way round, so that the two filters keep different rows. -/
theorem pairs_told_apart :
    ¬ (Operator.Holds .eq (.tuple [.int64 1, .int64 2])
          (.tuple [.float64 ⟨0x3FF0000000000000⟩, .int64 2]) ↔
        List.Forall₂ (Operator.Holds .eq) [.int64 1, .int64 2]
          [.float64 ⟨0x3FF0000000000000⟩, .int64 2]) ∧
      ¬ (Operator.Holds .eq (.tuple [.null, .int64 2]) (.tuple [.null, .int64 2]) ↔
        List.Forall₂ (Operator.Holds .eq) [.null, .int64 2] [.null, .int64 2]) ∧
      pairs.filter (.tuplesEqual [.name "a", .name "b"] [.name "c", .name "d"]) =
        .ok { pairs with rows := [[.null, .int64 2, .null, .int64 2]] } ∧
      pairs.filter (.columnsEqual [.name "a", .name "b"] [.name "c", .name "d"]) =
        .ok { pairs with
          rows := [[.int64 1, .int64 2, .float64 ⟨0x3FF0000000000000⟩, .int64 2]] } := by
  refine ⟨by decide +kernel, by decide +kernel, by decide +kernel, by decide +kernel⟩

end Pipeline

end RowFlow
