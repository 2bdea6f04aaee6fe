import RowFlow.Proofs.Expr.References

/-!
# Aggregates as Literals

An expression with aggregates has no evaluator of its own, since an aggregate needs the whole table.
Once its aggregates have been computed they are constants, and with constants in their place the
expression can be prepared. Eager evaluation never answers anything else than this evaluator does
row by row (`Expr.eval_eq_evaluator_of_literals`).

The connectives mix two ways to evaluate an operand: a streamable one on the undecided rows, any
other one on the whole table, of which the undecided rows are read off. To the marks of the rows
both ways are the same (`Expr.settle_refines`).
-/

namespace RowFlow

/-! ## Marked rows -/

theorem forall₂_marked {α β : Type} {R : α → β → Prop} {xs : List α} {ys : List β}
    (h : List.Forall₂ R xs ys) (marks : List Bool) :
    List.Forall₂ R (marked marks xs) (marked marks ys) := by
  induction h generalizing marks with
  | nil => simp [marked]
  | cons hxy _ ih =>
    rcases marks with _ | ⟨_ | _, marks⟩
    · exact .nil
    · exact ih marks
    · exact .cons hxy (ih marks)

namespace Expr

/-! ## Literals for aggregates -/

mutual

/-- The aggregates in an expression. -/
def aggregates : Expr → List (Reduction × Column)
  | .aggregate reduction target => [(reduction, target)]
  | .all operands | .any operands => aggregatesAll operands
  | .not operand | .apply _ operand => operand.aggregates
  | .binary _ left right => left.aggregates ++ right.aggregates
  | .column _ | .columns _ | .literal _ => []

def aggregatesAll : List Expr → List (Reduction × Column)
  | [] => []
  | e :: es => e.aggregates ++ aggregatesAll es

end

mutual

/-- The expression in which every aggregate is replaced by a literal. -/
def withLiterals (value : Reduction → Column → Value) : Expr → Expr
  | .aggregate reduction target => .literal (value reduction target)
  | .all operands => .all (withLiteralsAll value operands)
  | .any operands => .any (withLiteralsAll value operands)
  | .not operand => .not (operand.withLiterals value)
  | .apply callback operand => .apply callback (operand.withLiterals value)
  | .binary op left right => .binary op (left.withLiterals value) (right.withLiterals value)
  | .column target => .column target
  | .columns targets => .columns targets
  | .literal v => .literal v

def withLiteralsAll (value : Reduction → Column → Value) : List Expr → List Expr
  | [] => []
  | e :: es => e.withLiterals value :: withLiteralsAll value es

end

variable {value : Reduction → Column → Value}

mutual

theorem streamable_withLiterals : (e : Expr) → (e.withLiterals value).streamable = true
  | .column _ | .columns _ | .literal _ | .aggregate _ _ => rfl
  | .all operands | .any operands => streamableAll_withLiteralsAll operands
  | .not operand | .apply _ operand => streamable_withLiterals operand
  | .binary _ left right => by
    simp [withLiterals, streamable, streamable_withLiterals left, streamable_withLiterals right]

theorem streamableAll_withLiteralsAll :
    (es : List Expr) → streamableAll (withLiteralsAll value es) = true
  | [] => rfl
  | e :: es => by
    simp [withLiteralsAll, streamableAll, streamable_withLiterals e,
      streamableAll_withLiteralsAll es]

end

mutual

/-- Without aggregates there is nothing to replace. -/
theorem withLiterals_of_streamable : (e : Expr) → e.streamable = true → e.withLiterals value = e
  | .column _, _ | .columns _, _ | .literal _, _ => rfl
  | .all operands, h | .any operands, h => by
    simp [withLiterals, withLiteralsAll_of_streamableAll operands h]
  | .not operand, h | .apply _ operand, h => by
    simp [withLiterals, withLiterals_of_streamable operand h]
  | .binary _ left right, h => by
    obtain ⟨hl, hr⟩ := Bool.and_eq_true_iff.1 h
    simp [withLiterals, withLiterals_of_streamable left hl, withLiterals_of_streamable right hr]

theorem withLiteralsAll_of_streamableAll :
    (es : List Expr) → streamableAll es = true → withLiteralsAll value es = es
  | [], _ => rfl
  | e :: es, h => by
    obtain ⟨he, hes⟩ := Bool.and_eq_true_iff.1 h
    simp [withLiteralsAll, withLiterals_of_streamable e he,
      withLiteralsAll_of_streamableAll es hes]

end

mutual

/-- Literals refer to nothing. -/
theorem references_withLiterals_subset :
    (e : Expr) → (e.withLiterals value).references ⊆ e.references
  | .column _ | .columns _ | .literal _ => List.Subset.refl _
  | .aggregate _ _ => List.nil_subset _
  | .all operands | .any operands => referencesAll_withLiteralsAll_subset operands
  | .not operand | .apply _ operand => references_withLiterals_subset operand
  | .binary _ left right =>
    List.append_subset.2
      ⟨List.subset_append_of_subset_left _ (references_withLiterals_subset left),
        List.subset_append_of_subset_right _ (references_withLiterals_subset right)⟩

theorem referencesAll_withLiteralsAll_subset :
    (es : List Expr) → referencesAll (withLiteralsAll value es) ⊆ referencesAll es
  | [] => List.Subset.refl _
  | e :: es =>
    List.append_subset.2
      ⟨List.subset_append_of_subset_left _ (references_withLiterals_subset e),
        List.subset_append_of_subset_right _ (referencesAll_withLiteralsAll_subset es)⟩

end

theorem exists_prepare_withLiterals {schema : Schema} {e : Expr}
    (h : ∀ c ∈ e.references, schema.Has c) :
    ∃ evaluator, (e.withLiterals value).prepare schema = .ok evaluator :=
  (exists_prepare_iff _).2
    ⟨streamable_withLiterals e, fun c hc => h c (references_withLiterals_subset e hc)⟩

/-! ## Eager evaluation -/

/-- The aggregates in an expression have the values that literals stand for. -/
def AggregatesAre (table : Table) (value : Reduction → Column → Value)
    (aggregates : List (Reduction × Column)) : Prop :=
  ∀ a ∈ aggregates, table.reduce a.2 a.1 = .ok (value a.1 a.2)

/-- A literal has its value on every row. -/
theorem eval_literal {table : Table}
    (hwidth : ∀ row ∈ table.rows, row.length = table.schema.width) (v : Value) :
    (Expr.literal v).eval table = .ok (List.replicate table.rowCount v) := by
  have hprep : (Expr.literal v).prepare table.schema =
      .ok ⟨table.schema.width, fun _ => .ok v⟩ := rfl
  -- eager evaluation reads a literal off every row, and checks the width of each
  refine (eval_agree table hwidth _ _ hprep _).2 (mapM_eq_ok_iff.2 ?_)
  rw [Table.rowCount, ← List.map_const', List.forall₂_map_right_iff, List.forall₂_same]
  intro row hrow
  exact Evaluator.eval_of_width (hwidth row hrow)

/-- The values of a column on marked rows are the values on the marked rows alone. -/
theorem evalRows_marked {table : Table} {e : Expr} {evaluator : Evaluator}
    (hprep : e.prepare table.schema = .ok evaluator)
    (hwidth : ∀ row ∈ table.rows, row.length = table.schema.width) {values : List Value}
    (h : e.eval table = .ok values) (marks : List Bool) :
    e.evalRows table.schema (marked marks table.rows) = .ok (marked marks values) := by
  have hrows := mapM_eq_ok_iff.1 ((eval_agree table hwidth e evaluator hprep values).1 h)
  rw [evalRows_of_prepare hprep, mapM_eq_ok_iff]
  exact forall₂_marked hrows marks

section
variable {table : Table} (hwidth : ∀ row ∈ table.rows, row.length = table.schema.width)
include hwidth

mutual

/-- Whenever eager evaluation succeeds, it does so with literals in the place of aggregates. -/
theorem eval_refines : (e : Expr) → (∀ c ∈ e.references, table.schema.Has c) →
    AggregatesAre table value e.aggregates →
      Refines (e.eval table) ((e.withLiterals value).eval table)
  | .column _, _, _ | .columns _, _, _ | .literal _, _, _ => Refines.refl _
  | .all operands, hrefs, hvalue | .any operands, hrefs, hvalue => by
    simp only [eval, withLiterals]
    exact (settle_refines _ operands hrefs hvalue _).bind fun _ => Refines.refl _
  | .not operand, hrefs, hvalue | .apply _ operand, hrefs, hvalue => by
    simp only [eval, withLiterals]
    exact (eval_refines operand hrefs hvalue).bind fun _ => Refines.refl _
  | .binary op left right, hrefs, hvalue => by
    simp only [references, aggregates, AggregatesAre, List.forall_mem_append] at hrefs hvalue
    simp only [eval, withLiterals]
    exact (eval_refines left hrefs.1 hvalue.1).bind fun _ =>
      (eval_refines right hrefs.2 hvalue.2).bind fun _ => Refines.refl _
  | .aggregate reduction target, _, hvalue => by
    have hreduce := hvalue (reduction, target) List.mem_cons_self
    simp only [eval_aggregate, withLiterals, hreduce, eval_literal hwidth]
    exact Refines.refl _

/-- Whenever the operands of a connective can be settled, they can with literals in the place of
    aggregates. -/
theorem settle_refines (decisive : Bool) : (es : List Expr) →
    (∀ c ∈ referencesAll es, table.schema.Has c) → AggregatesAre table value (aggregatesAll es) →
    (marks : List Bool) → Refines (settle table decisive es marks)
      (settle table decisive (withLiteralsAll value es) marks)
  | [], _, _, _ => Refines.refl _
  | e :: es, hrefs, hvalue, marks => by
    simp only [referencesAll, aggregatesAll, AggregatesAre, List.forall_mem_append] at hrefs hvalue
    have ih := eval_refines e hrefs.1 hvalue.1
    have ihs := settle_refines decisive es hrefs.2 hvalue.2
    simp only [settle, withLiteralsAll]
    split
    · -- the operands behind this one see the same marks
      have hrest (values : List Value) : Refines
          (do
            let truths ← values.mapM Value.truth
            settle table decisive es (clearDecided decisive marks truths))
          (do
            let truths ← values.mapM Value.truth
            settle table decisive (withLiteralsAll value es)
              (clearDecided decisive marks truths)) :=
        (Refines.refl _).bind fun truths => ihs _
      rw [if_pos (streamable_withLiterals e)]
      by_cases hstream : e.streamable = true
      · rw [if_pos hstream, withLiterals_of_streamable e hstream]
        exact (Refines.refl _).bind hrest
      · rw [if_neg hstream]
        refine Refines.bind ?_ hrest
        -- the whole column has been computed, of which the marked rows would have been enough
        intro values hvalues
        obtain ⟨column, hcolumn, rfl⟩ := map_eq_ok_iff.1 hvalues
        obtain ⟨evaluator, hprep⟩ := exists_prepare_withLiterals hrefs.1
        exact evalRows_marked hprep hwidth (ih column hcolumn) marks
    · exact Refines.refl _

end

end

/-- **Aggregates are constants.** Over a table of well-formed rows whose schema has all columns that
    an expression refers to, and over which its aggregates can be computed, the expression with
    literals for its aggregates can be prepared. If eager evaluation succeeds, it gives the
    evaluator's value of each row, in the order of the rows. -/
theorem eval_eq_evaluator_of_literals (e : Expr) (table : Table)
    (hwidth : ∀ row ∈ table.rows, row.length = table.schema.width)
    (hrefs : ∀ c ∈ e.references, table.schema.Has c) (value : Reduction → Column → Value)
    (hvalue : AggregatesAre table value e.aggregates) :
    ∃ evaluator, (e.withLiterals value).prepare table.schema = .ok evaluator ∧
      ∀ values, e.eval table = .ok values →
        List.Forall₂ (fun row v => evaluator.eval row = .ok v) table.rows values := by
  have hexists : ∃ evaluator, (e.withLiterals value).prepare table.schema = .ok evaluator :=
    exists_prepare_withLiterals hrefs
  obtain ⟨evaluator, hprep⟩ := hexists
  refine ⟨evaluator, hprep, fun values hvalues => mapM_eq_ok_iff.1 ?_⟩
  exact (eval_agree table hwidth _ evaluator hprep values).1
    (eval_refines hwidth e hrefs hvalue values hvalues)

/-- Whether `n` exceeds two and is the greatest of its column. -/
def greatestAboveTwo : Expr :=
  .all
    [.binary .gt (.column (.name "n")) (.literal (.int64 2)),
     .binary .eq (.column (.name "n")) (.aggregate .max (.name "n"))]

/-- Three numbers, the greatest in the middle. -/
def threeNumbers : Table := ⟨⟨[⟨"n", .int64⟩]⟩, [[.int64 1], [.int64 5], [.int64 3]]⟩

/-- The first operand decides one row, and the greatest number is sought in the whole column all the
    same. -/
theorem greatestAboveTwo_on_threeNumbers :
    (∀ row ∈ threeNumbers.rows, row.length = threeNumbers.schema.width) ∧
      (∀ c ∈ greatestAboveTwo.references, threeNumbers.schema.Has c) ∧
      AggregatesAre threeNumbers (fun _ _ => .int64 5) greatestAboveTwo.aggregates ∧
      greatestAboveTwo.eval threeNumbers = .ok [.bool false, .bool true, .bool false] ∧
      ∃ evaluator, (greatestAboveTwo.withLiterals fun _ _ => .int64 5).prepare
          threeNumbers.schema = .ok evaluator ∧
        List.Forall₂ (fun row v => evaluator.eval row = .ok v) threeNumbers.rows
          [.bool false, .bool true, .bool false] := by
  have hwidth : ∀ row ∈ threeNumbers.rows, row.length = threeNumbers.schema.width := by decide
  have hrefs : ∀ c ∈ greatestAboveTwo.references, threeNumbers.schema.Has c := by
    intro c hc
    obtain rfl : c = .name "n" := by
      simpa [greatestAboveTwo, references, referencesAll] using hc
    exact ⟨0, rfl⟩
  have hvalue : AggregatesAre threeNumbers (fun _ _ => .int64 5) greatestAboveTwo.aggregates := by
    intro a ha
    obtain rfl : a = (.max, .name "n") := by
      simpa [greatestAboveTwo, aggregates, aggregatesAll] using ha
    decide +kernel
  have heval : greatestAboveTwo.eval threeNumbers =
      .ok [.bool false, .bool true, .bool false] := by
    decide +kernel
  obtain ⟨evaluator, hprep, hrows⟩ :=
    eval_eq_evaluator_of_literals greatestAboveTwo threeNumbers hwidth hrefs _ hvalue
  exact ⟨hwidth, hrefs, hvalue, heval, evaluator, hprep, hrows _ heval⟩

end Expr

end RowFlow
