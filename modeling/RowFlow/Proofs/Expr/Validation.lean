import RowFlow.Proofs.Expr.References

/-!
# What Eager Evaluation Validates

Preparing an expression looks up every column that it refers to, and its evaluator checks the width
of every row. Eager evaluation does both only as far as it comes. Operands of a connective behind
those that have decided every row are not even looked at, and an expression that is built from
connectives without operands reads no row. What is left out is all that can be wrong with the input
of an evaluation that succeeds (`Expr.validated_iff`).
-/

namespace RowFlow

namespace Expr

/-! ## What is left out -/

mutual

/-- The references in operands that evaluation never comes to, because the operands before them have
    decided every row. -/
def skipped (table : Table) : Expr → List Column
  | .all operands => skippedFrom table false operands (table.rows.map fun _ => true)
  | .any operands => skippedFrom table true operands (table.rows.map fun _ => true)
  | .not operand | .apply _ operand => operand.skipped table
  | .binary _ left right => left.skipped table ++ right.skipped table
  | .column _ | .columns _ | .literal _ | .aggregate _ _ => []

/-- The references that are skipped in the operands of a connective, for the rows that are still
    marked. A streamable operand is prepared as a whole, so nothing in it is skipped. -/
def skippedFrom (table : Table) (decisive : Bool) : List Expr → List Bool → List Column
  | [], _ => []
  | e :: es, marks =>
    if marks.any id then
      (if e.streamable then [] else e.skipped table) ++
        match settle table decisive [e] marks with
        | .ok left => skippedFrom table decisive es left
        | .error _ => []
    else referencesAll (e :: es)

end

/-- Whether an expression looks at the rows of a table with at least one row: it is not built from
    connectives without operands alone. -/
def readsRows : Expr → Bool
  | .all operands | .any operands => !operands.isEmpty
  | .not operand | .apply _ operand => operand.readsRows
  | .binary _ left right => left.readsRows || right.readsRows
  | .column _ | .columns _ | .literal _ | .aggregate _ _ => true

variable {table : Table}

mutual

/-- What is skipped in an expression are references of it. -/
theorem skipped_subset : (e : Expr) → e.skipped table ⊆ e.references
  | .column _ | .columns _ | .literal _ | .aggregate _ _ => List.nil_subset _
  | .all operands => skippedFrom_subset false operands _
  | .any operands => skippedFrom_subset true operands _
  | .not operand | .apply _ operand => skipped_subset operand
  | .binary _ left right =>
    List.append_subset.2
      ⟨List.subset_append_of_subset_left _ (skipped_subset left),
        List.subset_append_of_subset_right _ (skipped_subset right)⟩

/-- So it is for operands. -/
theorem skippedFrom_subset (decisive : Bool) : (es : List Expr) → (marks : List Bool) →
    skippedFrom table decisive es marks ⊆ referencesAll es
  | [], _ => List.Subset.refl _
  | e :: es, marks => by
    have ih := skipped_subset e
    have ihs := skippedFrom_subset decisive es
    simp only [skippedFrom]
    split
    · refine List.append_subset.2 ⟨?_, ?_⟩
      · refine List.subset_append_of_subset_left _ ?_
        split
        · exact List.nil_subset _
        · exact ih
      · refine List.subset_append_of_subset_right _ ?_
        split
        · exact ihs _
        · exact List.nil_subset _
    · exact List.Subset.refl _

end

/-! ## One operand after another -/

/-- The operands of a connective are settled one by one. -/
theorem settle_cons (decisive : Bool) (e : Expr) (es : List Expr) (marks : List Bool) :
    settle table decisive (e :: es) marks =
      if marks.any id then do
        let left ← settle table decisive [e] marks
        settle table decisive es left
      else .ok marks := by
  by_cases h : marks.any id = true
  -- a streamable operand is prepared, any other one evaluated on the table
  · by_cases hstream : e.streamable = true
    · simp only [settle, h, hstream, if_true, bind_assoc]
      rfl
    · simp only [settle, h, if_neg hstream, if_true, bind_assoc]
      rfl
  · simp [settle, h]

/-- An operand that has settled some rows has been prepared, or evaluated on the whole table. -/
theorem operand_of_settle {decisive : Bool} {e : Expr} {marks left : List Bool}
    (hany : marks.any id = true) (h : settle table decisive [e] marks = .ok left) :
    (e.streamable = true ∧ ∃ values, e.evalRows table.schema (marked marks table.rows) = .ok values)
      ∨ (e.streamable = false ∧ ∃ values, e.eval table = .ok values) := by
  simp only [settle, if_pos hany] at h
  cases hstream : e.streamable with
  | true =>
    rw [if_pos hstream] at h
    obtain ⟨values, hvalues, -⟩ := bind_eq_ok_iff.1 h
    exact .inl ⟨rfl, values, hvalues⟩
  | false =>
    rw [hstream] at h
    obtain ⟨values, hvalues, -⟩ := bind_eq_ok_iff.1 h
    obtain ⟨column, hcolumn, -⟩ := map_eq_ok_iff.1 hvalues
    exact .inr ⟨rfl, column, hcolumn⟩

/-! ## References -/

/-- Evaluating an expression on given rows resolves all its references. -/
theorem has_of_evalRows {schema : Schema} {e : Expr} {rows : List (List Value)}
    {values : List Value} (h : e.evalRows schema rows = .ok values) :
    ∀ c ∈ e.references, schema.Has c := by
  obtain ⟨evaluator, hprep, -⟩ := bind_eq_ok_iff.1 h
  exact ((exists_prepare_iff e).1 ⟨evaluator, hprep⟩).2

mutual

/-- A reference in an expression that has been evaluated resolves, or it has been skipped. -/
theorem has_or_skipped_of_eval : (e : Expr) → {values : List Value} →
    e.eval table = .ok values → ∀ c ∈ e.references, table.schema.Has c ∨ c ∈ e.skipped table
  | .column _, _, h | .columns _, _, h | .literal _, _, h => fun c hc =>
    .inl (has_of_evalRows h c hc)
  | .all operands, _, h => by
    obtain ⟨left, hleft, -⟩ := bind_eq_ok_iff.1 h
    exact has_or_skipped_of_settle false operands _ hleft
  | .any operands, _, h => by
    obtain ⟨left, hleft, -⟩ := bind_eq_ok_iff.1 h
    exact has_or_skipped_of_settle true operands _ hleft
  | .not operand, _, h | .apply _ operand, _, h => by
    obtain ⟨_, hoperand, -⟩ := bind_eq_ok_iff.1 h
    exact has_or_skipped_of_eval operand hoperand
  | .binary _ left right, _, h => by
    obtain ⟨_, hl, h⟩ := bind_eq_ok_iff.1 h
    obtain ⟨_, hr, -⟩ := bind_eq_ok_iff.1 h
    have ihl := has_or_skipped_of_eval left hl
    have ihr := has_or_skipped_of_eval right hr
    intro c hc
    simp only [references, skipped, List.mem_append] at hc ⊢
    -- a reference of either side resolves or is skipped on that side
    grind
  | .aggregate reduction target, _, h => by
    obtain ⟨position, hposition, -⟩ := bind_eq_ok_iff.1 h
    intro c hc
    obtain rfl : c = target := List.mem_singleton.1 hc
    exact .inl ⟨position, hposition⟩

/-- A reference in operands that have been settled resolves, or it has been skipped. -/
theorem has_or_skipped_of_settle (decisive : Bool) : (es : List Expr) → (marks : List Bool) →
    {left : List Bool} → settle table decisive es marks = .ok left →
      ∀ c ∈ referencesAll es, table.schema.Has c ∨ c ∈ skippedFrom table decisive es marks
  | [], _, _, _ => nofun
  | e :: es, marks, _, h => by
    intro c hc
    rw [settle_cons] at h
    simp only [skippedFrom]
    by_cases hany : marks.any id = true
    · rw [if_pos hany] at h ⊢
      obtain ⟨left, hleft, h⟩ := bind_eq_ok_iff.1 h
      rw [hleft, List.mem_append]
      -- the reference is in the operand that evaluation has come to, or in one behind it
      rcases List.mem_append.1 hc with hc | hc
      · rcases operand_of_settle hany hleft with ⟨-, _, hvalues⟩ | ⟨hstream, _, hvalues⟩
        · exact .inl (has_of_evalRows hvalues c hc)
        · rw [hstream]
          exact (has_or_skipped_of_eval e hvalues c hc).imp_right .inl
      · exact (has_or_skipped_of_settle decisive es left h c hc).imp_right .inr
    · -- every row is decided, so this operand and all behind it are skipped
      rw [if_neg hany]
      exact .inr hc

end

/-! ## Widths -/

/-- An evaluator has the width of the schema that it is prepared for. -/
theorem width_of_prepare {schema : Schema} {e : Expr} {evaluator : Evaluator}
    (h : e.prepare schema = .ok evaluator) : evaluator.width = schema.width := by
  cases e with
  | column _ | columns _ | all _ | any _ | not _ | apply _ _ =>
    obtain ⟨_, _, h⟩ := bind_eq_ok_iff.1 h
    exact Except.ok.inj h ▸ rfl
  | literal _ => exact Except.ok.inj h ▸ rfl
  | binary _ _ _ =>
    obtain ⟨_, _, h⟩ := bind_eq_ok_iff.1 h
    obtain ⟨_, _, h⟩ := bind_eq_ok_iff.1 h
    exact Except.ok.inj h ▸ rfl
  | aggregate _ _ => cases h

/-- Evaluating an expression on given rows checks the width of each. -/
theorem fits_of_evalRows {schema : Schema} {e : Expr} {rows : List (List Value)}
    {values : List Value} (h : e.evalRows schema rows = .ok values) :
    ∀ row ∈ rows, row.length = schema.width := by
  obtain ⟨evaluator, hprep, h⟩ := bind_eq_ok_iff.1 h
  intro row hrow
  obtain ⟨_, hvalue⟩ := exists_mapM_eq_ok_iff.1 ⟨values, h⟩ row hrow
  obtain ⟨_, hwidth, -⟩ := bind_eq_ok_iff.1 hvalue
  rw [← width_of_prepare hprep]
  exact expectWidth_eq_ok_iff.1 hwidth

/-- Accumulating a column checks the width of each row. -/
theorem fits_of_accumulate {width position : Nat} {acc result : Accumulator}
    {rows : List (List Value)} (h : Table.accumulate width position acc rows = .ok result) :
    ∀ row ∈ rows, row.length = width := by
  induction rows generalizing acc with
  | nil => simp
  | cons row rest ih =>
    obtain ⟨_, hwidth, h⟩ := bind_eq_ok_iff.1 h
    obtain ⟨_, _, h⟩ := bind_eq_ok_iff.1 h
    exact List.forall_mem_cons.2 ⟨expectWidth_eq_ok_iff.1 hwidth, ih h⟩

/-- An aggregate looks at every row. -/
theorem readsRows_of_not_streamable : (e : Expr) → e.streamable = false → e.readsRows = true
  | .column _, _ | .columns _, _ | .literal _, _ | .aggregate _ _, _ => rfl
  | .all (_ :: _), _ | .any (_ :: _), _ => rfl
  | .not operand, h | .apply _ operand, h => readsRows_of_not_streamable operand h
  | .binary _ left right, h => by
    rcases Bool.and_eq_false_iff.1 h with h | h
    · simp [readsRows, readsRows_of_not_streamable left h]
    · simp [readsRows, readsRows_of_not_streamable right h]

/-- The first operand of a connective looks at every row. -/
theorem fits_of_settle_cons {decisive : Bool} {e : Expr} {es : List Expr} {left : List Bool}
    (heval : e.streamable = false → ∀ values, e.eval table = .ok values →
      ∀ row ∈ table.rows, row.length = table.schema.width)
    (h : settle table decisive (e :: es) (table.rows.map fun _ => true) = .ok left) :
    ∀ row ∈ table.rows, row.length = table.schema.width := by
  cases hrows : table.rows with
  | nil => simp
  | cons first rest =>
    -- there is a row, and at first all rows are undecided
    have hany : (table.rows.map fun _ => true).any id = true := by simp [hrows]
    rw [settle_cons, if_pos hany] at h
    obtain ⟨_, hsettle, -⟩ := bind_eq_ok_iff.1 h
    rw [← hrows]
    rcases operand_of_settle hany hsettle with ⟨-, _, hvalues⟩ | ⟨hstream, _, hvalues⟩
    · -- no row is decided yet, so all of them are marked
      rw [marked_map, List.filter_true] at hvalues
      exact fits_of_evalRows hvalues
    · exact heval hstream _ hvalues

/-- An expression that reads rows checks the width of each. -/
theorem fits_of_eval : (e : Expr) → e.readsRows = true → {values : List Value} →
    e.eval table = .ok values → ∀ row ∈ table.rows, row.length = table.schema.width
  | .column _, _, _, h | .columns _, _, _, h | .literal _, _, _, h => fits_of_evalRows h
  | .all [], hreads, _, _ | .any [], hreads, _, _ => nomatch hreads
  | .all (e :: es), _, _, h | .any (e :: es), _, _, h => by
    obtain ⟨_, hsettle, -⟩ := bind_eq_ok_iff.1 h
    refine fits_of_settle_cons (fun hstream values hvalues => ?_) hsettle
    exact fits_of_eval e (readsRows_of_not_streamable e hstream) hvalues
  | .not operand, hreads, _, h | .apply _ operand, hreads, _, h => by
    obtain ⟨_, hoperand, -⟩ := bind_eq_ok_iff.1 h
    exact fits_of_eval operand hreads hoperand
  | .binary _ left right, hreads, _, h => by
    obtain ⟨_, hl, h⟩ := bind_eq_ok_iff.1 h
    obtain ⟨_, hr, -⟩ := bind_eq_ok_iff.1 h
    -- one of the operands reads rows
    rcases Bool.or_eq_true_iff.1 hreads with hreads | hreads
    · exact fits_of_eval left hreads hl
    · exact fits_of_eval right hreads hr
  | .aggregate reduction target, _, _, h => by
    rw [eval_aggregate] at h
    obtain ⟨_, hreduce, -⟩ := bind_eq_ok_iff.1 h
    obtain ⟨position, _, hreduce⟩ := bind_eq_ok_iff.1 hreduce
    obtain ⟨_, haccumulate, -⟩ := bind_eq_ok_iff.1 hreduce
    exact fits_of_accumulate haccumulate

/-! ## Validated input -/

/-- **What eager evaluation validates.** If an expression has been evaluated over a table, then its
    references resolve and the rows have the width of the schema, if and only if this holds of what
    evaluation leaves out: of the references that it has skipped, and of the rows if the expression
    reads none. So everything is validated where no operand is skipped and some row is read. -/
theorem validated_iff (e : Expr) (table : Table) {values : List Value}
    (heval : e.eval table = .ok values) :
    ((∀ c ∈ e.references, table.schema.Has c) ∧
        ∀ row ∈ table.rows, row.length = table.schema.width) ↔
      (∀ c ∈ e.skipped table, table.schema.Has c) ∧
        (e.readsRows = false → ∀ row ∈ table.rows, row.length = table.schema.width) := by
  constructor
  · rintro ⟨hrefs, hwidth⟩
    exact ⟨fun c hc => hrefs c (skipped_subset e hc), fun _ => hwidth⟩
  · rintro ⟨hskipped, hunread⟩
    constructor
    · intro c hc
      rcases has_or_skipped_of_eval e heval c hc with h | h
      · exact h
      · exact hskipped c h
    · -- the rows are checked if any are read
      cases hreads : e.readsRows with
      | true => exact fits_of_eval e hreads heval
      | false => exact hunread hreads

/-- The second row needs both operands of the guarded quotient, so nothing is skipped. -/
theorem guardedQuotient_validated :
    guardedQuotient.eval zeroFirst = .ok [.bool false, .bool true] ∧
      (∀ c ∈ guardedQuotient.skipped zeroFirst, zeroFirst.schema.Has c) ∧
      guardedQuotient.readsRows = true ∧
      (∀ c ∈ guardedQuotient.references, zeroFirst.schema.Has c) ∧
      ∀ row ∈ zeroFirst.rows, row.length = zeroFirst.schema.width := by
  have heval : guardedQuotient.eval zeroFirst = .ok [.bool false, .bool true] := by
    decide +kernel
  have hskipped : guardedQuotient.skipped zeroFirst = [] := by decide +kernel
  have hnone : ∀ c ∈ guardedQuotient.skipped zeroFirst, zeroFirst.schema.Has c := by
    simp [hskipped]
  have hreads : guardedQuotient.readsRows = true := rfl
  have hvalid := (validated_iff guardedQuotient zeroFirst heval).2 ⟨hnone, by simp [hreads]⟩
  exact ⟨heval, hnone, hreads, hvalid⟩

/-- A conjunction whose first operand decides every row. -/
def decidedAtOnce : Expr := .all [.literal (.bool false), .column (.name "missing")]

/-- A row with a value more than there are columns. -/
def overlongRow : Table := ⟨⟨[⟨"n", .int64⟩]⟩, [[.int64 1, .int64 2]]⟩

/-- An unknown column is not noticed behind an operand that decides every row, though it cannot be
    prepared, and an overlong row is not noticed by a conjunction of nothing. -/
theorem missing_column_unnoticed :
    zeroFirst.rows ≠ [] ∧
      decidedAtOnce.eval zeroFirst = .ok [.bool false, .bool false] ∧
      .name "missing" ∈ decidedAtOnce.references ∧
      ¬ zeroFirst.schema.Has (.name "missing") ∧
      overlongRow.rows ≠ [] ∧
      (Expr.all []).eval overlongRow = .ok [.bool true] ∧
      ∃ row ∈ overlongRow.rows, row.length ≠ overlongRow.schema.width := by
  refine ⟨by decide, by decide +kernel, by decide, ?_, by decide, rfl, _, List.mem_cons_self,
    by decide⟩
  rintro ⟨position, hposition⟩
  cases hposition

end Expr

end RowFlow
