import RowFlow.Proofs.Pipeline.Execution
import RowFlow.Proofs.Stream.Refinement
import RowFlow.Proofs.Table.Numbering

/-!
# Collections Behind Transforms

A collection behind transforms gives its output of the rows of the stream, or the error that ends
the stream. Which rows these are does not depend on the collection (`Pipeline.collect_of_opening`):
collected rows and a table are two views of the same stream.
-/

namespace RowFlow

variable {α : Type}

/-! ## Collected streams -/

/-- The stream of rows that reach the end. -/
def Launch.stream (launch : Launch) : RowStream :=
  (RowStream.ofItems launch.width launch.items).through launch.stages

namespace Pipeline

/-- A pipeline over a table reads the numbered rows of the table. -/
theorem opening_table (table : Table) (ts : List Transform) (options : Options α)
    (entropy : Entropy) (files : Files) (spent : Bool) :
    (ofTransforms (.table table) ts options).opening entropy files spent = (do
      let assembly ← assemble entropy 0 table.schema (ts.map Step.transform)
      return ⟨table.schema.width, assembly.producers, assembly.schema,
        table.numberedRows.map .ok⟩ : Except Error Launch) := by
  simp only [opening, assembly, ofTransforms, Source.schema, bind_assoc, pure_bind]
  rfl

variable {source : Source} {ts : List Transform} {options : Options α} {session : Session α}

/-- A collection behind transforms gives what is delivered to its collector: the steps are opened,
    then the collection, then the source, and the first of these that fails is the result. -/
theorem collect_fst {β : Type} (c : Collection) (part : Output → Option β) (expected : String) :
    ((ofTransforms source ts options).collect c part expected session).1 = (do
      let (width, assembly) ← (ofTransforms source ts options).assembly session.fresh session.files
      let collector ← c.openOn assembly.schema
      let items ← (source.openOn session.files session.spent).1
      let stream := (RowStream.ofItems width items).through assembly.producers
      requirePart part expected
        (stream.deliver (Guarded.start (Metered.mk collector)) session).1) := by
  have hsource : ((ofTransforms source ts options).append (.collect c)).source = source := rfl
  have hcollect : ((ofTransforms source ts options).collect c part expected session).1 =
      requirePart part expected
        (((ofTransforms source ts options).append (.collect c)).run session).1 := rfl
  have happend :
      ((ofTransforms source ts options).append (.collect c)).assembly session.fresh
          session.files = (do
        let (width, assembly) ←
          (ofTransforms source ts options).assembly session.fresh session.files
        let collector ← c.openOn assembly.schema
        return (width, { assembly with collector := some collector })) := by
    simp only [assembly, append, ofTransforms, assemble_append_collect, bind_assoc, pure_bind]
  rw [hcollect]
  -- the cases follow the order of opening, in the run and in the sequence alike
  rcases hassembly : (ofTransforms source ts options).assembly session.fresh session.files with
    e | ⟨width, assembly⟩
  · rw [hassembly] at happend
    rw [run_of_not_assembled happend]
    rfl
  · rw [hassembly] at happend
    rcases hopen : c.openOn assembly.schema with e | collector
    · simp only [hopen, bind, Except.bind] at happend ⊢
      rw [run_of_not_assembled happend]
      rfl
    · simp only [hopen, bind, Except.bind, pure, Except.pure] at happend ⊢
      rcases hitems : (source.openOn session.files session.spent).1 with e | items
      · rw [run_of_not_opened happend (hsource ▸ hitems)]
        rfl
      · have hfit := fitAll_of_assembly hassembly
        have hrows := RowStream.hasWidth_ofItems width items
        rw [run_of_opened happend (hsource ▸ hitems)]
        dsimp only
        rw [← RowStream.deliver_connect hfit hrows]
        exact congrArg (requirePart part expected)
          (pushAndClose_eq_deliver _ _ _ _ files_begun)

/-- If a pipeline does not open, no collection that opens on any schema gives anything. -/
theorem collect_of_not_opening {β : Type} {e : Error}
    (h : (ofTransforms source ts options).opening session.fresh session.files session.spent =
      .error e)
    {c : Collection} {opened : Schema → Collector}
    (hc : ∀ schema, c.openOn schema = .ok (opened schema)) (part : Output → Option β)
    (expected : String) :
    ((ofTransforms source ts options).collect c part expected session).1 = .error e := by
  have hsource : (ofTransforms source ts options).source = source := rfl
  rw [opening, hsource] at h
  rw [collect_fst]
  rcases hassembly : (ofTransforms source ts options).assembly session.fresh session.files with
    e' | ⟨width, assembly⟩
  · rw [hassembly] at h
    exact congrArg _ (Except.error.inj h)
  · rw [hassembly] at h
    simp only [hc, bind, Except.bind] at h ⊢
    rcases hitems : (source.openOn session.files session.spent).1 with e' | items
    · rw [hitems] at h
      exact congrArg _ (Except.error.inj h)
    · rw [hitems] at h
      cases h

section
variable {launch : Launch}
  (h : (ofTransforms source ts options).opening session.fresh session.files session.spent =
    .ok launch)
include h

/-- What is delivered to a collection is the stream of the rows that reach the end. -/
theorem collect_of_opening {β : Type} (c : Collection) (part : Output → Option β)
    (expected : String) :
    ((ofTransforms source ts options).collect c part expected session).1 = (do
      let collector ← c.openOn launch.schema
      requirePart part expected
        (launch.stream.deliver (Guarded.start (Metered.mk collector)) session).1) := by
  obtain ⟨⟨width, assembly⟩, hassembly, h⟩ := bind_eq_ok_iff.1 h
  obtain ⟨items, hitems, h⟩ := bind_eq_ok_iff.1 h
  have hitems : (source.openOn session.files session.spent).1 = .ok items := hitems
  rw [collect_fst, hassembly, ← Except.ok.inj h, hitems]
  rfl

/-- A collection that gathers rows gives its output of the stream. -/
theorem collect_gathering {β : Type} {c : Collection} {state : List Row → Collector}
    {output : List Row → Output} (hc : c.openOn launch.schema = .ok (state []))
    (hgathers : Gathers launch.schema.width state output) (part : Output → Option β)
    (expected : String) :
    ((ofTransforms source ts options).collect c part expected session).1 =
      requirePart part expected (launch.stream.result.map fun rows => some (output rows)) := by
  have hwidth : launch.stream.HasWidth launch.schema.width :=
    Stage.FitAll.through (fitAll_of_opening h) (RowStream.hasWidth_ofItems _ _)
  rw [collect_of_opening h, hc]
  exact congrArg (requirePart part expected)
    (RowStream.deliver_gathering hgathers hwidth [] session)

theorem collectRows_of_opening :
    ((ofTransforms source ts options).collectRows session).1 = launch.stream.result := by
  refine (collect_gathering h rfl (gathers_rows launch.schema.width) _ _).trans ?_
  cases launch.stream.result <;> rfl

/-- A table has the values of the collected rows in their order. -/
theorem toTable_of_opening :
    ((ofTransforms source ts options).toTable session).1 =
      launch.stream.result.map (Table.ofRows launch.schema) := by
  refine (collect_gathering h rfl (gathers_table launch.schema) _ _).trans ?_
  cases launch.stream.result <;> rfl

end

/-- If rows are collected, the pipeline opens and they are the rows of its stream. -/
theorem exists_stream_of_collectRows {rows : List Row}
    (h : ((ofTransforms source ts options).collectRows session).1 = .ok rows) :
    ∃ launch,
      (ofTransforms source ts options).opening session.fresh session.files session.spent =
          .ok launch ∧
        launch.stream.result = .ok rows := by
  rcases hlaunch : (ofTransforms source ts options).launch session.fresh
    (session.startRun options) with ⟨e | launch, opened⟩
  · rw [collectRows_eq, hlaunch] at h
    cases h
  · have hopening := opening_of_launch hlaunch
    exact ⟨launch, hopening, (collectRows_of_opening hopening).symm.trans h⟩

/-- If a table is collected, the pipeline opens and it is the table of the rows of its stream. -/
theorem exists_stream_of_toTable {table : Table}
    (h : ((ofTransforms source ts options).toTable session).1 = .ok table) :
    ∃ launch rows,
      (ofTransforms source ts options).opening session.fresh session.files session.spent =
        .ok launch ∧
      launch.stream.result = .ok rows ∧ table = .ofRows launch.schema rows := by
  cases hopening : (ofTransforms source ts options).opening session.fresh session.files
    session.spent with
  | error e =>
    have hfailed := collect_of_not_opening hopening (c := .table) (fun _ => rfl) Output.table?
      "a data set"
    cases hfailed.symm.trans h
  | ok launch =>
    rw [toTable_of_opening hopening] at h
    cases hresult : launch.stream.result with
    | error e =>
      rw [hresult] at h
      cases h
    | ok rows =>
      rw [hresult] at h
      exact ⟨launch, rows, rfl, hresult, (Except.ok.inj h).symm⟩

end Pipeline

end RowFlow
