import RowFlow.Pipeline.Iterator
import RowFlow.Pipeline.Results
import RowFlow.Proofs.Step.Draws
import RowFlow.Proofs.Step.Width

/-!
# Opening Pipelines of Transforms

Rows that a pipeline of transforms passes on are either collected or given to a reader. The two ways
to run the pipeline open it alike: they report the same, fail together, and put the same stages in
front of the same items (`Pipeline.launch`); only the consumers at the end of the chain differ.
-/

namespace RowFlow

variable {α : Type}

/-! ## Assemblies -/

section
variable {ι π κ : Type} [StepKind ι π κ] {entropy : Entropy} {position width : Nat}
  {schema : Schema} {step : ι} {rest : List ι} {assembly : Assembly π κ}

/-- The first step has been opened in front of the others, or it is a collector and the last one. -/
theorem assemble_cons_cases (h : assemble entropy position schema (step :: rest) = .ok assembly) :
    (∃ state output behind, StepKind.openOn entropy schema step = .ok (.producer state output) ∧
      assemble (entropy.drop (StepKind.draws step)) (position + 1) output rest = .ok behind ∧
      assembly = { behind with producers := state :: behind.producers }) ∨
    ∃ state, StepKind.openOn entropy schema step = .ok (.collector state) ∧ rest = [] ∧
      assembly = ⟨[], some state, schema⟩ := by
  obtain ⟨opened, hopen, h⟩ := bind_eq_ok_iff.1 h
  cases opened with
  | producer state output =>
    obtain ⟨behind, hbehind, h⟩ := bind_eq_ok_iff.1 h
    exact .inl ⟨state, output, behind, hopen, hbehind, (Except.ok.inj h).symm⟩
  | collector state =>
    cases rest with
    | nil => exact .inr ⟨state, hopen, rfl, (Except.ok.inj h).symm⟩
    | cons next rest => cases h

/-- A pipeline is assembled if its source has a schema and its steps open on it. -/
theorem Pipeline.assembly_eq_ok_iff {pipeline : Pipeline ι α} {files : Files} :
    pipeline.assembly entropy files = .ok (width, assembly) ↔
      ∃ schema, pipeline.source.schema files = .ok schema ∧
        assemble entropy 0 schema pipeline.steps = .ok assembly ∧ schema.width = width := by
  constructor
  · intro h
    obtain ⟨schema, hschema, h⟩ := bind_eq_ok_iff.1 h
    obtain ⟨assembled, hassemble, h⟩ := bind_eq_ok_iff.1 h
    obtain ⟨rfl, rfl⟩ := Prod.mk.inj (Except.ok.inj h)
    exact ⟨schema, hschema, hassemble, rfl⟩
  · rintro ⟨schema, hschema, hassemble, rfl⟩
    exact bind_eq_ok_iff.2 ⟨schema, hschema, bind_eq_ok_iff.2 ⟨assembly, hassemble, rfl⟩⟩

end

/-! ### Steps that open evenly -/

section
variable {ι π κ : Type} [StepKind ι π κ]

/-- The schema that an opened step passes on, unless it is a collector. -/
def Opened.output? : Opened π κ → Option Schema
  | .producer _ schema => some schema
  | .collector _ => none

/-- Whatever a step draws, it opens to the same schema or as a collector, or fails alike. -/
def OpensEvenly (step : ι) : Prop :=
  ∀ (entropy other : Entropy) (schema : Schema),
    Opened.output? <$> StepKind.openOn entropy schema step =
      Opened.output? <$> StepKind.openOn other schema step

/-- The steps behind are opened on the schema that the first one passes on. -/
theorem schema_assemble_cons {entropy : Entropy} {position : Nat} {schema : Schema} {step : ι}
    {rest : List ι} :
    Assembly.schema <$> (assemble entropy position schema (step :: rest) :
      Except Error (Assembly π κ)) =
      Opened.output? <$> StepKind.openOn entropy schema step >>= fun
        | some output => Assembly.schema <$> (assemble (entropy.drop (StepKind.draws step))
            (position + 1) output rest : Except Error (Assembly π κ))
        | none => match rest with
          | [] => pure schema
          | next :: _ =>
            throw (.schemaMismatch (.afterCollector (position + 1) (StepKind.outline next))) := by
  rw [assemble, map_bind, bind_map_left]
  refine congrArg _ (funext fun opened => ?_)
  cases opened with
  | producer state output =>
    simp only [Opened.output?, map_bind, map_pure]
    exact bind_pure_comp _ _
  | collector state => cases rest <;> rfl

theorem schema_assemble {steps : List ι} (h : ∀ step ∈ steps, OpensEvenly step)
    (entropy other : Entropy) (position : Nat) (schema : Schema) :
    Assembly.schema <$> (assemble entropy position schema steps : Except Error (Assembly π κ)) =
      Assembly.schema <$> (assemble other position schema steps :
        Except Error (Assembly π κ)) := by
  induction steps generalizing entropy other position schema with
  | nil => rfl
  | cons step rest ih =>
    obtain ⟨hstep, hrest⟩ := List.forall_mem_cons.1 h
    rw [schema_assemble_cons, schema_assemble_cons, hstep entropy other]
    refine congrArg _ (funext fun output => ?_)
    cases output with
    | none => rfl
    | some output => exact ih hrest _ _ _ _

end

/-- Generators are all that a step of this library draws, and no schema depends on them. -/
theorem Step.opensEvenly (step : Step) : OpensEvenly step := by
  intro entropy other schema
  cases step with
  | transform t =>
    have houtput := t.output_openOn entropy other schema
    simp only [StepKind.openOn, Step.openOn, map_bind, map_pure]
    have hrest := congrArg (some <$> ·) houtput
    simpa only [← bind_pure_comp, bind_assoc, pure_bind, Opened.output?] using hrest
  | collect c => rfl

/-! ### Assemblies of transforms -/

section
variable {entropy : Entropy} {position : Nat} {schema : Schema}

/-- Freshly opened stages fit one behind another. -/
theorem Stage.fitAll_of_assemble {steps : List Step} {assembly : Assembly Stage Collector}
    (h : assemble entropy position schema steps = .ok assembly) :
    FitAll assembly.producers schema.width assembly.schema.width := by
  induction steps generalizing entropy position schema assembly with
  | nil => exact Except.ok.inj h ▸ rfl
  | cons step rest ih =>
    obtain ⟨stage, output, behind, hopen, hbehind, rfl⟩ | ⟨state, -, -, rfl⟩ :=
      assemble_cons_cases h
    · exact ⟨output.width, Step.fits_of_openOn hopen, ih hbehind⟩
    · rfl

theorem assemble_transform (t : Transform) (rest : List Step) :
    assemble entropy position schema (.transform t :: rest) = (do
      let (stage, output) ← t.openOn entropy schema
      let behind ← assemble (entropy.drop t.draws) (position + 1) output rest
      return { behind with producers := stage :: behind.producers } :
        Except Error (Assembly Stage Collector)) := by
  simp only [assemble, StepKind.openOn, Step.openOn, bind_assoc, pure_bind]
  rfl

/-- Only what stands behind a collector fails with its position. -/
theorem assemble_congr_position (other : Nat) (ts : List Transform) :
    (assemble entropy position schema (ts.map Step.transform) :
        Except Error (Assembly Stage Collector)) =
      assemble entropy other schema (ts.map Step.transform) := by
  induction ts generalizing entropy position other schema with
  | nil => rfl
  | cons t rest ih =>
    rw [List.map_cons, assemble_transform, assemble_transform]
    simp only [ih (other + 1)]

/-- Transforms are opened alike on tapes that agree on what they draw. -/
theorem assemble_congr_tape {other : Entropy} {ts : List Transform}
    (h : entropy.AgreeUpTo (Transform.drawn ts) other) :
    (assemble entropy position schema (ts.map Step.transform) :
      Except Error (Assembly Stage Collector)) =
      assemble other position schema (ts.map Step.transform) := by
  induction ts generalizing entropy other position schema with
  | nil => rfl
  | cons t rest ih =>
    have ht : t.openOn entropy schema = t.openOn other schema :=
      Transform.openOn_congr (h.mono (Nat.le_add_right _ _)) schema
    rw [List.map_cons, assemble_transform, assemble_transform, ht]
    simp only [ih h.drop]

theorem exists_assemble_of_assemble {ts : List Transform} {assembly : Assembly Stage Collector}
    (h : assemble entropy position schema (ts.map Step.transform) = .ok assembly)
    (other : Entropy) :
    ∃ own : Assembly Stage Collector,
      assemble other position schema (ts.map Step.transform) = .ok own ∧
        own.schema = assembly.schema := by
  have heven : ∀ step ∈ ts.map Step.transform, OpensEvenly step := fun step _ => step.opensEvenly
  have hschema := schema_assemble heven other entropy position schema
  rw [h] at hschema
  exact map_eq_ok_iff.1 hschema

/-- Behind a transform that has been opened, the others have been. -/
theorem assemble_cons_eq_ok {t : Transform} {rest : List Transform}
    {assembly : Assembly Stage Collector}
    (h : assemble entropy position schema ((t :: rest).map Step.transform) = .ok assembly) :
    ∃ stage output behind, t.openOn entropy schema = .ok (stage, output) ∧
      assemble (entropy.drop t.draws) (position + 1) output (rest.map Step.transform) = .ok behind ∧
      assembly = { behind with producers := stage :: behind.producers } := by
  rw [List.map_cons, assemble_transform] at h
  obtain ⟨⟨stage, output⟩, hopen, h⟩ := bind_eq_ok_iff.1 h
  obtain ⟨behind, hbehind, h⟩ := bind_eq_ok_iff.1 h
  exact ⟨stage, output, behind, hopen, hbehind, (Except.ok.inj h).symm⟩

/-- Transforms alone end in no collector. -/
theorem collector_of_assemble {ts : List Transform} {assembly : Assembly Stage Collector}
    (h : assemble entropy position schema (ts.map Step.transform) = .ok assembly) :
    assembly.collector = none := by
  induction ts generalizing entropy position schema assembly with
  | nil => exact Except.ok.inj h ▸ rfl
  | cons t rest ih =>
    obtain ⟨stage, output, behind, _, hbehind, rfl⟩ := assemble_cons_eq_ok h
    exact (show behind.collector = none from ih hbehind)

/-- A collection behind transforms is opened on the schema that they lead to. -/
theorem assemble_append_collect (ts : List Transform) (c : Collection) :
    assemble entropy position schema (ts.map Step.transform ++ [.collect c]) = (do
      let assembly ← assemble entropy position schema (ts.map Step.transform)
      let collector ← c.openOn assembly.schema
      return { assembly with collector := some collector } :
        Except Error (Assembly Stage Collector)) := by
  induction ts generalizing entropy position schema with
  | nil =>
    simp only [List.map_nil, List.nil_append, assemble, StepKind.openOn, Step.openOn, bind_assoc,
      pure_bind]
    rfl
  | cons t rest ih =>
    simp only [List.map_cons, List.cons_append, assemble_transform, ih, bind_assoc, pure_bind]

end

/-! ## Launches -/

/-- A pipeline about to read its first row. -/
structure Launch where
  /-- the width of the rows of the source -/
  width : Nat
  stages : List Stage
  /-- the schema of the rows that reach the end -/
  schema : Schema
  items : List (Except Error Row)

namespace Pipeline

/-- A pipeline of transforms. -/
def ofTransforms (source : Source) (ts : List Transform) (options : Options α) : Pipeline Step α :=
  ⟨source, ts.map .transform, options⟩

/-- What a pipeline reads and where the rows go, or the error that keeps it from opening. -/
def opening (pipeline : Pipeline Step α) (entropy : Entropy) (files : Files) (spent : Bool) :
    Except Error Launch := do
  let (width, assembly) ← pipeline.assembly entropy files
  let items ← (pipeline.source.openOn files spent).1
  return ⟨width, assembly.producers, assembly.schema, items⟩

/-- Opens the steps and the source, for a consumer behind all steps. -/
def launch (pipeline : Pipeline Step α) (entropy : Entropy) (session : Session α) :
    Except Error Launch × Session α :=
  match pipeline.assembly entropy session.files with
  | .error e => (.error e, session)
  | .ok (width, assembly) =>
    let session := session.report pipeline.options (.opened (pipeline.length + 1) assembly.schema)
    match pipeline.source.openIn session with
    | (.error e, session) => (.error e, session)
    | (.ok items, session) => (.ok ⟨width, assembly.producers, assembly.schema, items⟩, session)

/-- The stages of an opened pipeline fit each other, from the width of its source to that of its
    schema. -/
theorem fitAll_of_assembly {pipeline : Pipeline Step α} {entropy : Entropy} {files : Files}
    {width : Nat} {assembly : Assembly Stage Collector}
    (h : pipeline.assembly entropy files = .ok (width, assembly)) :
    Stage.FitAll assembly.producers width assembly.schema.width := by
  obtain ⟨schema, -, hassemble, rfl⟩ := assembly_eq_ok_iff.1 h
  exact Stage.fitAll_of_assemble hassemble

/-- So do those of a launched one. -/
theorem fitAll_of_opening {pipeline : Pipeline Step α} {entropy : Entropy} {files : Files}
    {spent : Bool} {launch : Launch} (h : pipeline.opening entropy files spent = .ok launch) :
    Stage.FitAll launch.stages launch.width launch.schema.width := by
  obtain ⟨⟨width, assembly⟩, hassembly, h⟩ := bind_eq_ok_iff.1 h
  obtain ⟨items, _, h⟩ := bind_eq_ok_iff.1 h
  rw [← Except.ok.inj h]
  exact fitAll_of_assembly hassembly

end Pipeline

/-! ## Effects of reports -/

namespace Session

variable (options : Options α) (session : Session α)

/-- Telling the observer leaves the files, -/
@[simp]
theorem files_tell (f : Observer α → α → α) : (session.tell options f).files = session.files := by
  unfold tell
  split <;> rfl

/-- and the one-shot source, -/
@[simp]
theorem spent_tell (f : Observer α → α → α) : (session.tell options f).spent = session.spent := by
  unfold tell
  split <;> rfl

/-- and the tapes, -/
@[simp]
theorem entropy_tell (f : Observer α → α → α) :
    (session.tell options f).entropy = session.entropy := by
  unfold tell
  split <;> rfl

/-- and the counters. -/
@[simp]
theorem counters_tell (f : Observer α → α → α) :
    (session.tell options f).counters = session.counters := by
  unfold tell
  split <;> rfl

@[simp]
theorem files_report (event : Event) : (session.report options event).files = session.files :=
  files_tell options session _

@[simp]
theorem spent_report (event : Event) : (session.report options event).spent = session.spent :=
  spent_tell options session _

@[simp]
theorem entropy_report (event : Event) :
    (session.report options event).entropy = session.entropy :=
  entropy_tell options session _

@[simp]
theorem counters_report (event : Event) :
    (session.report options event).counters = session.counters :=
  counters_tell options session _

@[simp]
theorem files_startRun : (session.startRun options).files = session.files :=
  files_report options _ _

@[simp]
theorem spent_startRun : (session.startRun options).spent = session.spent :=
  spent_report options _ _

@[simp]
theorem entropy_startRun : (session.startRun options).entropy = session.entropy :=
  entropy_report options _ _

end Session

/-! ## Both ways to run a pipeline -/

namespace Launch

/-- The chain in front of a collector. -/
def gathering (launch : Launch) (collector : Collector) :
    Chain Stage (Guarded (Metered Collector)) launch.stages.length :=
  Chain.connect launch.stages (Guarded.start ⟨collector⟩)

/-- The chain whose rows are collected. -/
def collecting (launch : Launch) : Chain Stage (Guarded (Metered Collector)) launch.stages.length :=
  Chain.connect launch.stages (Guarded.start ⟨.rows launch.schema.width []⟩)

/-- The chain whose rows are given to a reader. -/
def fetching (launch : Launch) : FetchedChain Stage launch.stages.length :=
  Chain.connect launch.stages (Guarded.start ⟨⟨[]⟩⟩)

/-- The reader before its first row. -/
def iterator (launch : Launch) (options : Options α) : RowIterator Stage α launch.stages.length :=
  ⟨options, launch.width, launch.items, some launch.fetching, 0, []⟩

end Launch

namespace Pipeline

/-- A launch answers what the opening does, which is read off files and one-shot source alone. -/
theorem launch_fst (pipeline : Pipeline Step α) (entropy : Entropy) (session : Session α) :
    (pipeline.launch entropy session).1 =
      pipeline.opening entropy session.files session.spent := by
  simp only [launch, opening]
  rcases pipeline.assembly entropy session.files with e | ⟨width, assembly⟩
  · rfl
  -- reports between the steps and the source change neither
  · simp only [Source.openIn, Session.files_report, Session.spent_report]
    rcases pipeline.source.openOn session.files session.spent with ⟨_ | _, _⟩ <;> rfl

/-- Transforms are launched alike on tapes that agree on what they draw. -/
theorem launch_congr_tape {entropy other : Entropy} {ts : List Transform}
    (h : entropy.AgreeUpTo (Transform.drawn ts) other) (source : Source) (options : Options α)
    (session : Session α) :
    (ofTransforms source ts options).launch entropy session =
      (ofTransforms source ts options).launch other session := by
  simp only [launch, assembly, ofTransforms, assemble_congr_tape h]

/-- Transforms lead to the same schema whatever they draw, or fail to open alike. -/
theorem schema_assembly (source : Source) (ts : List Transform) (options : Options α)
    (entropy other : Entropy) (files : Files) :
    Prod.map id Assembly.schema <$> (ofTransforms source ts options).assembly entropy files =
      Prod.map id Assembly.schema <$> (ofTransforms source ts options).assembly other files := by
  have heven : ∀ step ∈ ts.map Step.transform, OpensEvenly step := fun step _ => step.opensEvenly
  simp only [assembly, map_bind, map_pure, Prod.map_apply, id_eq]
  refine bind_congr fun schema => ?_
  have hschema := schema_assemble heven entropy other 0 schema
  have hwidth := congrArg (Prod.mk schema.width <$> ·) hschema
  simpa only [ofTransforms, Functor.map_map, bind_pure_comp] using hwidth

/-- What cannot be launched on one tape cannot be launched on any. -/
theorem launch_of_error {source : Source} {ts : List Transform} {options : Options α}
    {entropy : Entropy} {session opened : Session α} {e : Error}
    (h : (ofTransforms source ts options).launch entropy session = (.error e, opened))
    (other : Entropy) :
    (ofTransforms source ts options).launch other session = (.error e, opened) := by
  have hschema := schema_assembly source ts options entropy other session.files
  -- the steps fail alike on both tapes, or they lead to the same schema and the source fails
  rcases hhere : (ofTransforms source ts options).assembly entropy session.files with
    e' | ⟨width, assembly⟩
  all_goals rcases hthere : (ofTransforms source ts options).assembly other session.files with
    e'' | ⟨width', own⟩
  all_goals rw [hhere, hthere] at hschema
  · obtain rfl : e' = e'' := Except.error.inj hschema
    simp only [launch, hhere] at h
    simp only [launch, hthere, h]
  · cases hschema
  · cases hschema
  · obtain ⟨hwidth, hsame⟩ := Prod.mk.inj (Except.ok.inj hschema)
    have hsame : assembly.schema = own.schema := hsame
    -- the report names the schema alone, and the source is opened without looking at the stages
    simp only [launch, hhere, hsame] at h
    simp only [launch, hthere]
    split at h
    · exact h
    · cases h

/-- Whether a run can be launched does not depend on what has been counted and reported before. -/
theorem opening_of_launch {pipeline : Pipeline Step α} {entropy : Entropy} {options : Options α}
    {session opened : Session α} {launched : Except Error Launch}
    (h : pipeline.launch entropy (session.startRun options) = (launched, opened)) :
    pipeline.opening entropy session.files session.spent = launched := by
  have hopening := launch_fst pipeline entropy (session.startRun options)
  rw [h, Session.files_startRun, Session.spent_startRun] at hopening
  exact hopening.symm

/-- A collection that opens on any schema opens behind transforms that do. -/
theorem assembly_append_collect {c : Collection} {opened : Schema → Collector}
    (hc : ∀ schema, c.openOn schema = .ok (opened schema)) (source : Source) (ts : List Transform)
    (options : Options α) (entropy : Entropy) (files : Files) :
    ((ofTransforms source ts options).append (.collect c)).assembly entropy files = (do
      let (width, assembly) ← (ofTransforms source ts options).assembly entropy files
      return (width, { assembly with collector := some (opened assembly.schema) }) :
        Except Error (Nat × Assembly Stage Collector)) := by
  simp only [assembly, append, ofTransforms, assemble_append_collect, hc, bind_assoc, pure_bind]
  rfl

/-- Transforms alone open without a collector. -/
theorem collector_of_assembly {source : Source} {ts : List Transform} {options : Options α}
    {entropy : Entropy} {files : Files} {width : Nat} {assembly : Assembly Stage Collector}
    (h : (ofTransforms source ts options).assembly entropy files = .ok (width, assembly)) :
    assembly.collector = none := by
  obtain ⟨schema, -, hassemble, rfl⟩ := assembly_eq_ok_iff.1 h
  exact collector_of_assemble hassemble

/-- A collection behind transforms has all rows pushed through the launched chain. -/
theorem execute_append_collect {c : Collection} {opened : Schema → Collector}
    (hc : ∀ schema, c.openOn schema = .ok (opened schema)) (source : Source) (ts : List Transform)
    (options : Options α) (entropy : Entropy) (session : Session α) :
    ((ofTransforms source ts options).append (.collect c)).execute entropy session =
      match (ofTransforms source ts options).launch entropy session with
      | (.error e, session) => (.error e, session)
      | (.ok launch, session) => pushAndClose options launch.width launch.items
          (launch.gathering (opened launch.schema)) session := by
  have hlength : ((ofTransforms source ts options).append (.collect c)).length =
      (ofTransforms source ts options).length + 1 := List.length_append ..
  simp only [execute, launch, assembly_append_collect hc, hlength]
  rcases (ofTransforms source ts options).assembly entropy session.files with e | ⟨width, assembly⟩
  · rfl
  · dsimp only [bind, Except.bind, pure, Except.pure, append, ofTransforms]
    rcases source.openIn (session.report options (.opened _ assembly.schema)) with ⟨e | items, s⟩
    · rfl
    · rfl

/-- Iterating over the rows of transforms hands the launched chain to a reader. -/
theorem openIterator_eq (source : Source) (ts : List Transform) (options : Options α)
    (entropy : Entropy) (session : Session α) :
    (ofTransforms source ts options).openIterator entropy session =
      match (ofTransforms source ts options).launch entropy session with
      | (.error e, session) => (.error e, session)
      | (.ok launch, session) => (.ok ⟨_, launch.iterator options⟩, session) := by
  simp only [openIterator, openForReader, launch]
  rcases hassembly : (ofTransforms source ts options).assembly entropy session.files with
    e | ⟨width, assembly⟩
  · rfl
  · dsimp only [bind, Except.bind, pure, Except.pure]
    -- transforms alone leave the place of the collector to the reader
    rw [collector_of_assembly hassembly]
    dsimp only [ofTransforms]
    rcases source.openIn (session.report options (.opened _ assembly.schema)) with ⟨e | items, s⟩
    · rfl
    · rfl

/-- A run of transforms in front of a collection. -/
theorem collect_eq {β : Type} {c : Collection} {opened : Schema → Collector}
    (hc : ∀ schema, c.openOn schema = .ok (opened schema)) (source : Source) (ts : List Transform)
    (options : Options α) (part : Output → Option β) (expected : String) (session : Session α) :
    (ofTransforms source ts options).collect c part expected session =
      match (ofTransforms source ts options).launch session.fresh (session.startRun options) with
      | (.error e, session) => (.error e, session.fail options e)
      | (.ok launch, session) =>
        let (result, session) := pushAndClose options launch.width launch.items
          (launch.gathering (opened launch.schema)) session
        (requirePart part expected result, session.closeRun options result) := by
  have hrun : (ofTransforms source ts options).collect c part expected session =
      let (result, session) := ((ofTransforms source ts options).append (.collect c)).execute
        session.fresh (session.startRun options)
      (requirePart part expected result, session.closeRun options result) := rfl
  -- both sides go on with the same launch
  rw [hrun, execute_append_collect hc]
  rcases (ofTransforms source ts options).launch session.fresh (session.startRun options) with
    ⟨_ | _, _⟩ <;> rfl

/-- A run of transforms whose rows are collected. -/
theorem collectRows_eq (source : Source) (ts : List Transform) (options : Options α)
    (session : Session α) :
    (ofTransforms source ts options).collectRows session =
      match (ofTransforms source ts options).launch session.fresh (session.startRun options) with
      | (.error e, session) => (.error e, session.fail options e)
      | (.ok launch, session) =>
        let (result, session) :=
          pushAndClose options launch.width launch.items launch.collecting session
        (requirePart Output.rows? "rows" result, session.closeRun options result) := by
  have hrows : ∀ schema, Collection.rows.openOn schema = .ok (.rows schema.width []) := fun _ => rfl
  exact collect_eq hrows source ts options Output.rows? "rows" session

/-- A run of transforms under the control of a reader. -/
theorem iterate_eq (source : Source) (ts : List Transform) (options : Options α)
    (session : Session α) :
    (ofTransforms source ts options).iterate session =
      match (ofTransforms source ts options).launch session.fresh (session.startRun options) with
      | (.error e, session) => (.error e, session.fail options e)
      | (.ok launch, session) => (.ok ⟨_, launch.iterator options⟩, session) := by
  -- the options of a pipeline of transforms are those that it was given
  have hstart : (ofTransforms source ts options).options = options := rfl
  rw [iterate, hstart, openIterator_eq]
  rcases (ofTransforms source ts options).launch session.fresh (session.startRun options) with
    ⟨_ | _, _⟩ <;> rfl

/-- The stages of a launched pipeline fit each other. -/
theorem fitAll_of_launch {pipeline : Pipeline Step α} {entropy : Entropy}
    {session opened : Session α} {launch : Launch}
    (h : pipeline.launch entropy session = (.ok launch, opened)) :
    Stage.FitAll launch.stages launch.width launch.schema.width := by
  have hopening := launch_fst pipeline entropy session
  rw [h] at hopening
  exact fitAll_of_opening hopening.symm

/-- A reader that a pipeline of transforms gives stands in front of the launched pipeline. -/
theorem exists_launch_of_iterate {source : Source} {ts : List Transform} {options : Options α}
    {session opened : Session α} {it : Sigma (RowIterator Stage α)}
    (h : (ofTransforms source ts options).iterate session = (.ok it, opened)) :
    ∃ launch : Launch, Stage.FitAll launch.stages launch.width launch.schema.width ∧
      it = ⟨_, launch.iterator options⟩ := by
  rw [iterate_eq] at h
  -- a launch that fails gives no reader
  rcases hlaunch : (ofTransforms source ts options).launch session.fresh
    (session.startRun options) with ⟨e | launch, session'⟩
  · rw [hlaunch] at h
    cases h
  · rw [hlaunch] at h
    exact ⟨launch, fitAll_of_launch hlaunch, (Except.ok.inj (Prod.mk.inj h).1).symm⟩

end Pipeline

end RowFlow
