import RowFlow.Proofs.Chain.Feed
import RowFlow.Proofs.Random.Reservoir
import RowFlow.Proofs.Step.Opening

/-!
# Widths of Rows Between Steps

Opening a transform computes the schema of the rows that it passes on; its stage builds these rows
later, by other code. The two stay in step: a stage turns rows of the width of its input schema into
rows of the width of its output schema (`Transform.fits_of_openOn`), and it still does so after any
number of rows (`Stage.handle_sends`, `Stage.drain_sends`).
-/

namespace RowFlow

/-! ## Lengths of rebuilt rows -/

/-- Picking looks at positions only, so from lists of one length it picks equally many items. -/
theorem length_pick_congr {α β : Type} (positions : List Nat) {xs : List α} {ys : List β}
    (h : xs.length = ys.length) : (pick positions xs).length = (pick positions ys).length := by
  induction positions with
  | nil => rfl
  | cons position rest ih =>
    -- a position beyond the end is dropped from both lists
    by_cases hlt : position < xs.length
    · have hlt' : position < ys.length := h ▸ hlt
      simp only [pick, List.filterMap_cons, List.getElem?_eq_getElem hlt,
        List.getElem?_eq_getElem hlt', List.length_cons] at ih ⊢
      rw [ih]
    · have hge' : ys.length ≤ position := h ▸ Nat.le_of_not_lt hlt
      simpa only [pick, List.filterMap_cons, List.getElem?_eq_none (Nat.le_of_not_lt hlt),
        List.getElem?_eq_none hge'] using ih

/-- Putting items between others lengthens a list by their number, at whatever position. -/
theorem length_splice {α : Type} (xs ys : List α) (position : Nat) :
    (xs.take position ++ ys ++ xs.drop position).length = xs.length + ys.length := by
  -- the two halves have the length of the whole
  have hsplit := congrArg List.length (List.take_append_drop position xs)
  rw [List.length_append] at hsplit
  rw [List.length_append, List.length_append]
  omega

/-- Assigning at a position keeps the number of values. -/
theorem length_assignAt {values out : List Value} {position : Nat} {value : Value}
    (h : assignAt values position value = .ok out) : out.length = values.length := by
  unfold assignAt at h
  split at h
  · exact (Except.ok.inj h) ▸ List.length_set ..
  · cases h

/-- Assigning at several positions keeps the number of values. -/
theorem length_assignEach {values out : List Value} {assignments : List (Nat × Value)}
    (h : assignEach values assignments = .ok out) : out.length = values.length := by
  induction assignments generalizing values with
  | nil => exact (Except.ok.inj h) ▸ rfl
  | cons assignment rest ih =>
    obtain ⟨next, hnext, hrest⟩ := bind_eq_ok_iff.1 h
    exact (ih hrest).trans (length_assignAt hnext)

/-- Assigning a result replaces values and adds none. -/
theorem length_assign {values out : List Value} {positions : List Nat} {result : Value}
    (h : assign values positions result = .ok out) : out.length = values.length := by
  unfold assign at h
  split at h
  · exact length_assignAt h
  · -- several positions take the parts of a tuple
    split at h
    · split at h
      · exact length_assignEach h
      · cases h
    · cases h

/-- Casting values in place keeps their number. -/
theorem length_castEach {id : Nat} {names : List String} {values out : List Value}
    {casts : List (Nat × ColumnType)} (h : castEach id names values casts = .ok out) :
    out.length = values.length := by
  induction casts generalizing values with
  | nil => exact (Except.ok.inj h) ▸ rfl
  | cons cast rest ih =>
    unfold castEach at h
    split at h
    · exact (ih h).trans (List.length_set ..)
    · cases h

/-! ## Lengths of rebuilt schemas -/

namespace Schema

/-- A schema has the fields that it is made of. -/
theorem fields_of_ofFields {fields : List Field} {schema : Schema}
    (h : ofFields fields = .ok schema) : schema.fields = fields := by
  unfold ofFields at h
  split at h
  · cases h
  · exact (Except.ok.inj h) ▸ rfl

/-- It is as wide as these are many. -/
theorem width_of_ofFields {fields : List Field} {schema : Schema}
    (h : ofFields fields = .ok schema) : schema.width = fields.length :=
  congrArg List.length (fields_of_ofFields h)

end Schema

/-- Renaming all fields keeps their number. -/
theorem length_renameFields {fields out : List Field} {names : List String}
    (h : renameFields fields names = .ok out) : out.length = fields.length := by
  unfold renameFields at h
  split at h
  · rename_i hlen
    rw [← Except.ok.inj h, List.length_zipWith, ← hlen, Nat.min_self]
  · cases h

/-- Renaming some fields keeps their number. -/
theorem length_renameAt {fields out : List Field} {positions : List Nat} {names : List String}
    (h : renameAt fields positions names = .ok out) : out.length = fields.length := by
  unfold renameAt at h
  split at h
  · rw [← Except.ok.inj h]
    generalize positions.zip names = changes
    -- the schema changes name by name, and each change leaves its length
    clear h
    induction changes generalizing fields with
    | nil => rfl
    | cons change rest ih => rw [List.foldl_cons, ih, List.length_modify]
  · cases h

/-- Retyping fields keeps their number. -/
theorem length_resolveCasts {schema : Schema} {fields out : List Field}
    {casts : List (Column × ColumnType)} {resolved : List (Nat × ColumnType)}
    (h : resolveCasts schema fields casts = .ok (out, resolved)) :
    out.length = fields.length := by
  induction casts generalizing fields resolved with
  | nil => exact (Prod.mk.inj (Except.ok.inj h)).1 ▸ rfl
  | cons cast rest ih =>
    obtain ⟨position, behind, -, hbehind, -⟩ := resolveCasts_cons_eq_ok_iff.1 h
    exact (ih hbehind).trans (List.length_modify ..)

/-- As many evaluators are prepared as there are expressions. -/
theorem Expr.length_of_prepareAll {schema : Schema} {es : List Expr}
    {evaluators : List Evaluator} (h : prepareAll schema es = .ok evaluators) :
    evaluators.length = es.length := by
  induction es generalizing evaluators with
  | nil => exact (Except.ok.inj h) ▸ rfl
  | cons e es ih =>
    obtain ⟨_, _, h⟩ := bind_eq_ok_iff.1 h
    obtain ⟨rest, hrest, h⟩ := bind_eq_ok_iff.1 h
    rw [← Except.ok.inj h, List.length_cons, List.length_cons, ih hrest]

/-- The cells prepared for some new columns are that many. -/
theorem Cells.length_values {schema : Schema} {count : Nat} {exprs : List Expr} {cells : Cells}
    (hcells : prepareCells schema count exprs = .ok cells) {row out : List Value}
    (h : cells.values row = .ok out) : out.length = count := by
  unfold prepareCells at hcells
  split at hcells
  · obtain rfl := Except.ok.inj hcells
    -- no expression: the new columns are blank
    exact (Except.ok.inj h) ▸ List.length_replicate
  · split at hcells
    · obtain ⟨evaluator, _, rfl⟩ := map_eq_ok_iff.1 hcells
      obtain ⟨result, _, h⟩ := bind_eq_ok_iff.1 h
      -- one value is unpacked over as many blanks as there are columns
      exact (length_assign h).trans List.length_replicate
    · split at hcells
      · rename_i hlen
        obtain ⟨evaluators, hevs, rfl⟩ := map_eq_ok_iff.1 hcells
        -- otherwise there is an expression for each column
        rw [length_of_mapM_eq_ok h, Expr.length_of_prepareAll hevs, hlen]
      · cases hcells

/-! ## Rules -/

namespace RowRule

/-- A rule puts rows of width `output` in the place of rows of width `input`. -/
def Fits (rule : RowRule) (input output : Nat) : Prop :=
  ∀ row image, row.length = input → rule.apply row = .ok (some image) → image.length = output

/-- A filter passes rows on as they are. -/
theorem fits_filter (predicate : Evaluator) (negated : Bool) (width : Nat) :
    (filter predicate negated).Fits width width := by
  intro row image hrow h
  obtain ⟨truth, _, h⟩ := bind_eq_ok_iff.1 h
  have himage := Except.ok.inj h
  split at himage
  · cases himage
  · exact Option.some.inj himage ▸ hrow

/-- A projection picks as many values from a row as it picks fields from its schema. -/
theorem fits_project {α : Type} {width : Nat} (positions : List Nat) {items : List α}
    (h : items.length = width) :
    (project width positions).Fits width (pick positions items).length := by
  intro row image hrow hrule
  obtain ⟨_, _, hrule⟩ := bind_eq_ok_iff.1 hrule
  rw [← Option.some.inj (Except.ok.inj hrule)]
  exact length_pick_congr positions (hrow.trans h.symm)

/-- Renaming does not touch rows. -/
theorem fits_keep (width : Nat) : keep.Fits width width := by
  intro row image hrow h
  exact Option.some.inj (Except.ok.inj h) ▸ hrow

/-- An insertion widens rows by the new cells. -/
theorem fits_insert {schema : Schema} {count : Nat} {exprs : List Expr} {cells : Cells}
    (hcells : prepareCells schema count exprs = .ok cells) (width position : Nat) :
    (insert width position cells).Fits width (width + count) := by
  intro row image hrow h
  obtain ⟨_, _, h⟩ := bind_eq_ok_iff.1 h
  obtain ⟨inserted, hinserted, h⟩ := bind_eq_ok_iff.1 h
  -- what is inserted has the length that was prepared for
  have hcount := Cells.length_values hcells hinserted
  have hlength : row.values.length = width := hrow
  rw [← Option.some.inj (Except.ok.inj h), ← hlength, ← hcount]
  exact length_splice row.values inserted position

/-- An update writes over values that are there. -/
theorem fits_update (positions : List Nat) (evaluator : Evaluator) (width : Nat) :
    (update positions evaluator).Fits width width := by
  intro row image hrow h
  obtain ⟨result, _, h⟩ := bind_eq_ok_iff.1 h
  obtain ⟨values, hvalues, h⟩ := bind_eq_ok_iff.1 h
  rw [← Option.some.inj (Except.ok.inj h)]
  exact (length_assign hvalues).trans hrow

/-- Casting replaces values one by one. -/
theorem fits_cast (width : Nat) (names : List String) (casts : List (Nat × ColumnType)) :
    (cast width names casts).Fits width width := by
  intro row image hrow h
  obtain ⟨_, _, h⟩ := bind_eq_ok_iff.1 h
  obtain ⟨values, hvalues, h⟩ := bind_eq_ok_iff.1 h
  rw [← Option.some.inj (Except.ok.inj h)]
  exact (length_castEach hvalues).trans hrow

end RowRule

/-! ## Sorted rows -/

/-- Sorting neither adds nor drops rows. -/
theorem mem_sortRows {keys : List Nat} {descending : Bool} {rows : List Row} {row : Row} :
    row ∈ sortRows keys descending rows ↔ row ∈ rows :=
  List.mem_mergeSort

/-! ## Stages -/

/-- A stage turns rows of width `input` into rows of width `output`, and holds back rows of these
    widths only. -/
def Stage.Fits (input output : Nat) : Stage → Prop
  | .each rule => rule.Fits input output
  | .limit _ _ => input = output
  | .sample reservoir => input = output ∧ ∀ entry ∈ reservoir.held, entry.2.length = input
  | .sort width _ _ held => input = output ∧ width = input ∧ ∀ row ∈ held, row.length = input

/-- Each of some stages passes on rows of the width that the next one takes. -/
def Stage.FitAll : List Stage → Nat → Nat → Prop
  | [], input, output => input = output
  | stage :: rest, input, output => ∃ between, stage.Fits input between ∧ FitAll rest between output

/-- A freshly opened stage fits the widths of its input schema and its output schema. -/
theorem Transform.fits_of_openOn {entropy : Entropy} {schema output : Schema} {t : Transform}
    {stage : Stage} (h : t.openOn entropy schema = .ok (stage, output)) :
    stage.Fits schema.width output.width := by
  cases opens_of_openOn h with
  | filter _ => exact RowRule.fits_filter _ _ schema.width
  | limit rows => rfl
  | @select _ _ positions fields _ _ hfields houtput =>
    -- new names are as many as the columns they are given to
    have hlength : fields.length = (pick positions schema.fields).length := by
      rcases hfields with rfl | ⟨names, hfields⟩
      · rfl
      · exact length_renameFields hfields
    rw [Schema.width_of_ofFields houtput, hlength]
    exact RowRule.fits_project positions rfl
  | rename _ hfields houtput =>
    rw [Schema.width_of_ofFields houtput, length_renameAt hfields]
    exact RowRule.fits_keep schema.width
  | move houtput =>
    rw [Schema.width_of_ofFields houtput]
    exact RowRule.fits_project _ rfl
  | @insert names _ _ _ _ _ hcells houtput =>
    -- the fields are spliced where the cells will be
    have hwidth : output.width = schema.width + names.length := by
      rw [Schema.width_of_ofFields houtput, length_splice, List.length_map]
      rfl
    rw [hwidth]
    exact RowRule.fits_insert hcells schema.width _
  | update _ _ => exact RowRule.fits_update _ _ schema.width
  | sample size seed => exact ⟨rfl, fun _ hentry => nomatch hentry⟩
  | sort _ => exact ⟨rfl, rfl, fun _ hrow => nomatch hrow⟩
  | typecast hcasts houtput =>
    rw [Schema.width_of_ofFields houtput, length_resolveCasts hcasts]
    exact RowRule.fits_cast schema.width schema.names _

/-- A step that passes rows on fits its schemas as its transform does. -/
theorem Step.fits_of_openOn {entropy : Entropy} {schema output : Schema} {step : Step}
    {stage : Stage} (h : StepKind.openOn entropy schema step = .ok (.producer stage output)) :
    stage.Fits schema.width output.width := by
  cases step with
  | transform t =>
    obtain ⟨⟨stage', output'⟩, hopen, h⟩ := bind_eq_ok_iff.1 h
    obtain ⟨rfl, rfl⟩ := Opened.producer.inj (Except.ok.inj h)
    exact Transform.fits_of_openOn hopen
  | collect c =>
    obtain ⟨collector, _, h⟩ := bind_eq_ok_iff.1 h
    cases h

namespace Stage

/-- A row of the input width makes a stage forward rows of the output width only, and leaves it
    fitting the same widths. -/
theorem handle_sends {input output : Nat} {stage : Stage} (h : stage.Fits input output) {row : Row}
    (hrow : row.length = input) :
    (stage.handle row).Sends (·.length = output) fun r => r.2.Fits input output := by
  cases stage with
  | each rule =>
    simp only [handle]
    split
    · exact h
    · exact h
    · rename_i image himage
      exact ⟨h row image hrow himage, fun _ => h⟩
  | limit rows seen =>
    simp only [handle]
    split
    · exact h
    -- a limit counts the row and passes it on
    · exact ⟨hrow.trans h, fun _ => h⟩
  | sample reservoir =>
    -- what is held is an earlier row or this one
    exact ⟨h.1, Reservoir.forall_held_offer (P := fun r => r.length = input) h.2 hrow⟩
  | sort width keys descending held =>
    simp only [handle]
    split
    · exact h
    -- the row is put behind those held, after its width has been checked
    · refine ⟨h.1, h.2.1, fun r hr => ?_⟩
      rcases List.mem_append.1 hr with hr | hr
      · exact h.2.2 r hr
      · exact List.mem_singleton.1 hr ▸ hrow

/-- At the end of the stream a stage forwards rows of the output width only. -/
theorem drain_sends {input output : Nat} {stage : Stage} (h : stage.Fits input output) :
    stage.drain.Sends (·.length = output) fun r => r.2.Fits input output := by
  cases stage with
  | each rule => exact h
  | limit rows seen => exact h
  | sample reservoir =>
    obtain ⟨rfl, hheld⟩ := h
    refine Feed.Sends.map (Feed.sends_ofRows ?_ fun _ => ?_)
    · exact Reservoir.forall_rows (P := fun r => r.length = input) hheld
    · exact ⟨rfl, fun _ hentry => nomatch hentry⟩
  | sort width keys descending held =>
    obtain ⟨rfl, rfl, hheld⟩ := h
    refine Feed.Sends.map (Feed.sends_ofRows (fun r hr => ?_) fun _ => ?_)
    -- the sorted rows are the held ones in another order
    · exact hheld r (mem_sortRows.1 hr)
    · exact ⟨rfl, rfl, fun _ hrow => nomatch hrow⟩

end Stage

end RowFlow
