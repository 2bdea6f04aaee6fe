import RowFlow.Proofs.Expr.Agreement
import RowFlow.Proofs.Pipeline.Collections

/-!
# Editing Tables and Pipelines

Rows of a table can be kept, dropped and changed at once, one edit after another, or the same edits
can be the steps of a pipeline. A table is finished with one edit before the next one begins; a
pipeline takes each row through all edits before it looks at the next row, so the two meet failures
in different orders. They succeed on the same tables all the same, and with the same result
(`Table.foldlM_edit_eq_toTable`). An edit applies a rule row by row (`Table.edit_agree`), and the
table after some edits has the rows of the stream behind the same steps.
-/

namespace RowFlow

variable {α : Type}

/-! ## Edits -/

/-- A change to a table. -/
inductive Edit where
  /-- keeps the rows on which a predicate is true -/
  | filter (predicate : Expr)
  /-- drops these rows -/
  | delete (predicate : Expr)
  /-- replaces columns by the value of an expression -/
  | update (columns : List Column) (value : Expr)

namespace Edit

/-- The step of a pipeline that makes the same change. -/
def transform : Edit → Transform
  | .filter predicate => .filter predicate false
  | .delete predicate => .filter predicate true
  | .update columns value => .update columns value

/-- The columns of an edit are those of a schema, and its expression can be prepared. -/
def Prepares (schema : Schema) : Edit → Prop
  | .filter predicate | .delete predicate =>
    ∃ evaluator, predicate.prepare schema = .ok evaluator
  | .update columns value =>
    (∃ positions, schema.resolveEach columns = .ok positions) ∧
      ∃ evaluator, value.prepare schema = .ok evaluator

/-- An edit opens as a rule, and the schema stays as it is. -/
theorem exists_rule_of_prepares {entropy : Entropy} {schema : Schema} {edit : Edit}
    (h : edit.Prepares schema) :
    ∃ rule, edit.transform.openOn entropy schema = .ok (.each rule, schema) := by
  -- what an edit needs to be prepared is what its step needs to open
  cases edit with
  | filter predicate =>
    obtain ⟨evaluator, hprep⟩ := h
    exact ⟨.filter evaluator false, by simp only [transform, Transform.openOn, hprep]; rfl⟩
  | delete predicate =>
    obtain ⟨evaluator, hprep⟩ := h
    exact ⟨.filter evaluator true, by simp only [transform, Transform.openOn, hprep]; rfl⟩
  | update columns value =>
    obtain ⟨⟨positions, hpositions⟩, evaluator, hprep⟩ := h
    refine ⟨.update positions evaluator, ?_⟩
    simp only [transform, Transform.openOn, hpositions, hprep]
    rfl

theorem exists_rules_of_prepares {entropy : Entropy} {schema : Schema} {edits : List Edit}
    (h : ∀ edit ∈ edits, edit.Prepares schema) :
    ∃ rules, List.Forall₂ (fun edit rule =>
      edit.transform.openOn entropy schema = .ok (.each rule, schema)) edits rules := by
  induction edits with
  | nil => exact ⟨[], .nil⟩
  | cons edit edits ih =>
    obtain ⟨hedit, hedits⟩ := List.forall_mem_cons.1 h
    obtain ⟨rule, hrule⟩ := exists_rule_of_prepares hedit
    obtain ⟨rules, hrules⟩ := ih hedits
    exact ⟨rule :: rules, .cons hrule hrules⟩

end Edit

/-! ## One pass over the rows -/

/-- Testing all items and then keeping those with a truth is one pass over the items. -/
theorem marked_eq_filterMapM {ε β : Type} (test : β → Except ε Bool) (truth : Bool)
    (items : List β) :
    (fun truths => marked (truths.map (· == truth)) items) <$> items.mapM test =
      items.filterMapM fun item => do
        return if (← test item) = !truth then none else some item := by
  induction items with
  | nil => rfl
  | cons item items ih =>
    simp only [List.mapM_cons, List.filterMapM_cons, bind_assoc, pure_bind, map_bind]
    refine congrArg _ (funext fun b => ?_)
    cases b <;> cases truth
    -- the first item is kept if its truth is the one that is asked for
    case false.false | true.true => simpa using congrArg ((item :: ·) <$> ·) ih
    case false.true | true.false => simpa using ih

theorem filterMapM_some {ε β γ : Type} (f : β → Except ε γ) (items : List β) :
    (items.filterMapM fun item => some <$> f item) = items.mapM f := by
  induction items with
  | nil => rfl
  | cons item items ih => simp [List.mapM_cons, List.filterMapM_cons, ih]

/-- The values of the rows that a rule passes on, if it looks at values only. -/
theorem RowRule.map_values_filterMapM {rule : RowRule}
    {f : List Value → Except Error (Option (List Value))}
    (h : ∀ row, rule.apply row = Option.map row.withValues <$> f row.values) (rows : List Row) :
    List.map Row.values <$> rows.filterMapM rule.apply = (rows.map Row.values).filterMapM f := by
  induction rows with
  | nil => rfl
  | cons row rows ih =>
    simp only [List.map_cons, List.filterMapM_cons, h, map_bind, bind_map_left]
    refine congrArg _ (funext fun image => ?_)
    -- a row that is dropped leaves no values
    cases image with
    | none => exact ih
    | some values => simpa using congrArg ((values :: ·) <$> ·) ih

/-- A filter looks at the values of a row. -/
theorem RowRule.apply_filter (evaluator : Evaluator) (negated : Bool) (row : Row) :
    (filter evaluator negated).apply row = Option.map row.withValues <$> (do
      return if (← evaluator.evalTruth row.values) = negated then none else some row.values) := by
  simp only [apply, map_bind]
  refine congrArg _ (funext fun b => ?_)
  split <;> rfl

/-- An update looks at the values of a row. -/
theorem RowRule.apply_update (positions : List Nat) (evaluator : Evaluator) (row : Row) :
    (update positions evaluator).apply row = Option.map row.withValues <$> (some <$> (do
      assign row.values positions (← evaluator.eval row.values))) := by
  simp [apply, Functor.map_map]

/-! ## Edits of tables -/

namespace Table

/-- Makes a change at once. -/
def edit (table : Table) : Edit → Except Error Table
  | .filter predicate => table.filter predicate
  | .delete predicate => table.delete predicate
  | .update columns value => table.update columns value

/-- Rows and values are kept alike by a rule that looks at values only. -/
theorem mk_filterMapM {rule : RowRule} {f : List Value → Except Error (Option (List Value))}
    (h : ∀ row, rule.apply row = Option.map row.withValues <$> f row.values) (schema : Schema)
    (rows : List Row) :
    Table.mk schema <$> (rows.map Row.values).filterMapM f =
      ofRows schema <$> rows.filterMapM rule.apply := by
  rw [← RowRule.map_values_filterMapM h, Functor.map_map]
  rfl

section
variable {table : Table} {evaluator : Evaluator}
  (hwidth : ∀ values ∈ table.rows, values.length = table.schema.width)
include hwidth

/-- Keeping the rows with a truth is a filter, row by row. -/
theorem selectRows_agree {predicate : Expr} (hprep : predicate.prepare table.schema = .ok evaluator)
    (truth : Bool) :
    Agree (table.selectRows predicate truth)
      (Table.mk table.schema <$> table.rows.filterMapM fun values => do
        return if (← evaluator.evalTruth values) = !truth then none else some values) := by
  -- the table is marked in one go, after all truths are known
  have hselect : table.selectRows predicate truth =
      (fun truths => ⟨table.schema, marked (truths.map (· == truth)) table.rows⟩) <$>
        (do (← predicate.eval table).mapM Value.truth) := by
    simp only [selectRows, map_bind, bind_pure_comp]
  rw [hselect, ← marked_eq_filterMapM, Functor.map_map]
  exact (Expr.truths_agree table hwidth hprep).map _

/-- An update assigns to each row. -/
theorem update_agree {columns : List Column} {positions : List Nat} {value : Expr}
    (hpositions : table.schema.resolveEach columns = .ok positions)
    (hprep : value.prepare table.schema = .ok evaluator) :
    Agree (table.update columns value)
      (Table.mk table.schema <$> table.rows.mapM fun values => do
        assign values positions (← evaluator.eval values)) := by
  -- results in one pass and assignments in a second one are a single pass over the rows
  have hassign : Agree
      (do
        let results ← value.eval table
        (table.rows.zip results).mapM fun pair => assign pair.1 positions pair.2)
      (table.rows.mapM fun values => do assign values positions (← evaluator.eval values)) :=
    ((Expr.eval_agree table hwidth value evaluator hprep).bind fun _ _ => Agree.refl _).trans
      (Agree.mapM_zip_self evaluator.eval _ table.rows)
  have hupdate : table.update columns value = Table.mk table.schema <$> (do
      let results ← value.eval table
      (table.rows.zip results).mapM fun pair => assign pair.1 positions pair.2) := by
    rw [update, hpositions, map_bind]
    rfl
  rw [hupdate]
  exact hassign.map _

end

/-- An edit applies its rule row by row. -/
theorem edit_agree {entropy : Entropy} {schema : Schema} {edit : Edit} {rule : RowRule}
    (hopen : edit.transform.openOn entropy schema = .ok (.each rule, schema)) {rows : List Row}
    (hwidth : ∀ row ∈ rows, row.length = schema.width) :
    Agree ((ofRows schema rows).edit edit) (ofRows schema <$> rows.filterMapM rule.apply) := by
  have hvalues : ∀ values ∈ (ofRows schema rows).rows, values.length = schema.width :=
    List.forall_mem_map.2 hwidth
  -- each edit and its step use the same evaluator
  cases edit with
  | filter predicate =>
    cases Transform.opens_of_openOn hopen with
    | filter hprep =>
      have hselect := selectRows_agree hvalues hprep true
      refine hselect.trans (Agree.of_eq (mk_filterMapM ?_ schema rows))
      exact RowRule.apply_filter _ false
  | delete predicate =>
    cases Transform.opens_of_openOn hopen with
    | filter hprep =>
      have hselect := selectRows_agree hvalues hprep false
      refine hselect.trans (Agree.of_eq (mk_filterMapM ?_ schema rows))
      exact RowRule.apply_filter _ true
  | update columns value =>
    cases Transform.opens_of_openOn hopen with
    | update hpositions hprep =>
      have hupdate := update_agree hvalues hpositions hprep
      rw [← filterMapM_some] at hupdate
      refine hupdate.trans (Agree.of_eq (mk_filterMapM ?_ schema rows))
      exact RowRule.apply_update _ _

end Table

/-! ## Edits of streams -/

section
variable {entropy : Entropy} {schema : Schema} {edits : List Edit} {rules : List RowRule}
  (hopen : List.Forall₂ (fun edit rule =>
    edit.transform.openOn entropy schema = .ok (.each rule, schema)) edits rules)
include hopen

/-- Edits of a table and rules on a stream keep in step: the table after some edits has the rows of
    the stream behind as many rules, if both get so far. -/
theorem foldlM_edit_agree {table : Except Error Table} {s : RowStream}
    (hs : s.HasWidth schema.width) (h : Agree table (Table.ofRows schema <$> s.result)) :
    Agree (table >>= edits.foldlM Table.edit)
      (Table.ofRows schema <$> (s.through (rules.map Stage.each)).result) := by
  -- the table and the stream go through the same edits, one at a time
  induction hopen generalizing table s with
  | nil => simpa [RowStream.through] using h
  | @cons edit rule edits rules hedit _ ih =>
    have hfits := Transform.fits_of_openOn hedit
    -- one edit of the table, and one rule on the stream
    have hstep : Agree (table >>= (Table.edit · edit))
        (Table.ofRows schema <$> (s.mapRows rule.apply).result) := by
      have htable : Agree (table >>= (Table.edit · edit))
          (s.result >>= fun rows => (Table.ofRows schema rows).edit edit) := by
        simpa using h.bind fun t _ => Agree.refl (t.edit edit)
      have hrows := (Agree.refl s.result).bind fun rows hrows =>
        Table.edit_agree hedit (hs.length_of_result hrows)
      have hstream := (RowStream.result_mapRows rule.apply s).symm.map (Table.ofRows schema)
      rw [map_bind] at hstream
      exact (htable.trans hrows).trans hstream
    have hrest := ih (hfits.onStream hs) hstep
    simpa [RowStream.through, Stage.onStream] using hrest

/-- The steps of edits open as rules and leave the schema as it is. -/
theorem assemble_edits (position : Nat) :
    assemble entropy position schema ((edits.map Edit.transform).map Step.transform) =
      .ok ⟨rules.map Stage.each, none, schema⟩ := by
  -- a rule draws nothing, so the tape stays as it is
  induction hopen generalizing position with
  | nil => rfl
  | cons hedit _ ih =>
    rw [List.map_cons, List.map_cons, assemble_transform, Transform.draws_of_openOn_each hedit,
      Entropy.drop_zero, hedit]
    simp only [bind, Except.bind, ih]
    rfl

end

/-- **Edits at once are edits on the way.** If the edits can be prepared against the schema of a
    table of well-formed rows, making them one after another succeeds exactly if a pipeline of the
    same edits succeeds in giving a table, and then both give the same table. -/
theorem Table.foldlM_edit_eq_toTable (table : Table) (edits : List Edit)
    (hprep : ∀ edit ∈ edits, edit.Prepares table.schema)
    (hwidth : ∀ row ∈ table.rows, row.length = table.schema.width) (options : Options α)
    (session : Session α) (result : Table) :
    edits.foldlM Table.edit table = .ok result ↔
      ((Pipeline.ofTransforms (.table table) (edits.map Edit.transform) options).toTable
        session).1 = .ok result := by
  obtain ⟨rules, hopen⟩ := Edit.exists_rules_of_prepares hprep
  have hopening : (Pipeline.ofTransforms (.table table) (edits.map Edit.transform) options).opening
      session.fresh session.files session.spent =
        .ok ⟨table.schema.width, rules.map .each, table.schema, table.numberedRows.map .ok⟩ := by
    rw [Pipeline.opening_table, assemble_edits hopen]
    rfl
  have hnumbered := Table.forall_mem_numberedRows.2 hwidth
  have hrows : Table.ofRows table.schema table.numberedRows = table :=
    congrArg (Table.mk table.schema) (map_values_numbered table.rows)
  -- before the first edit the stream has the rows of the table
  have hstart : Agree (.ok table)
      (Table.ofRows table.schema <$> (RowStream.ofRows table.numberedRows).result) := by
    rw [RowStream.result_ofRows]
    exact Agree.of_eq (congrArg Except.ok hrows.symm)
  rw [Pipeline.toTable_of_opening hopening, Launch.stream, RowStream.ofItems_map_ok hnumbered]
  exact foldlM_edit_agree hopen (RowStream.hasWidth_ofRows hnumbered) hstart result

/-- The squares above four of numbers other than zero. -/
def largeSquares : List Edit :=
  [.delete (.binary .eq (.column (.name "n")) (.literal (.int64 0))),
   .update [.name "n"] (.binary .mul (.column (.name "n")) (.column (.name "n"))),
   .filter (.binary .gt (.column (.name "n")) (.literal (.int64 4)))]

/-- Three small numbers. -/
def smallNumbers : Table := ⟨⟨[⟨"n", .int64⟩]⟩, [[.int64 0], [.int64 2], [.int64 5]]⟩

/-- One large square is left, at once and on the way. -/
theorem largeSquares_of_smallNumbers :
    (∀ edit ∈ largeSquares, edit.Prepares smallNumbers.schema) ∧
      (∀ row ∈ smallNumbers.rows, row.length = smallNumbers.schema.width) ∧
      largeSquares.foldlM Table.edit smallNumbers =
        .ok { smallNumbers with rows := [[.int64 25]] } ∧
      ((Pipeline.ofTransforms (.table smallNumbers) (largeSquares.map Edit.transform)
        .unobserved).toTable (.start .empty ())).1 =
          .ok { smallNumbers with rows := [[.int64 25]] } := by
  have hprep : ∀ edit ∈ largeSquares, edit.Prepares smallNumbers.schema := by
    simp only [largeSquares, List.forall_mem_cons]
    exact ⟨⟨_, rfl⟩, ⟨⟨_, rfl⟩, _, rfl⟩, ⟨_, rfl⟩, nofun⟩
  have hwidth : ∀ row ∈ smallNumbers.rows, row.length = smallNumbers.schema.width := by decide
  have hedited : largeSquares.foldlM Table.edit smallNumbers =
      .ok { smallNumbers with rows := [[.int64 25]] } := by
    decide +kernel
  exact ⟨hprep, hwidth, hedited, (Table.foldlM_edit_eq_toTable smallNumbers largeSquares hprep
    hwidth .unobserved (.start .empty ()) _).1 hedited⟩

end RowFlow
