import RowFlow.Proofs.Pipeline.Metrics

/-!
# Instantiation

A run opens the steps first and the source only then. Which steps cannot be opened, and where, is
said here without running anything (`StepsFault`); a pipeline with such a fault fails before its
source is touched, so a source that can be read once is still there for others
(`Pipeline.opens_steps_first`).
-/

namespace RowFlow

variable {ι π κ α : Type}

/-! ## Faults of steps -/

section
variable [StepKind ι π κ]

/-- The number of generators that steps read from the tape together. -/
def stepsDrawn (steps : List ι) : Nat := (steps.map StepKind.draws).sum

/-- What the steps draw together is what the first one draws and then the others. -/
theorem drop_stepsDrawn_cons (entropy : Entropy) (step : ι) (steps : List ι) :
    entropy.drop (stepsDrawn (step :: steps)) =
      (entropy.drop (StepKind.draws step)).drop (stepsDrawn steps) :=
  (Entropy.drop_drop _ _ entropy).symm

/-- Steps that pass rows on lead from one schema to another. -/
inductive Leads : Entropy → Schema → List ι → Schema → Prop
  | nil (entropy : Entropy) (schema : Schema) : Leads entropy schema [] schema
  | cons {entropy : Entropy} {schema output last : Schema} {step : ι} {steps : List ι} {state : π} :
    StepKind.openOn entropy schema step = .ok (.producer state output) →
      Leads (entropy.drop (StepKind.draws step)) output steps last →
      Leads entropy schema (step :: steps) last

/-- Steps of which only the last one is a collector. -/
inductive EndsInCollector (entropy : Entropy) (schema : Schema) : List ι → Prop
  | intro {before : List ι} {collector : ι} {reached : Schema} {state : κ} :
    Leads entropy schema before reached →
      StepKind.openOn (entropy.drop (stepsDrawn before)) reached collector =
        .ok (.collector state) →
      EndsInCollector entropy schema (before ++ [collector])

/-- What keeps steps from being opened one behind another, the first of which has a position in the
    pipeline: one of them does not open on the schema that those before it lead to, or it stands
    behind a collector. -/
inductive StepsFault (entropy : Entropy) (position : Nat) (schema : Schema) :
    List ι → Error → Prop
  | opening {before after : List ι} {step : ι} {reached : Schema} {e : Error} :
    Leads entropy schema before reached →
      StepKind.openOn (entropy.drop (stepsDrawn before)) reached step = .error e →
      StepsFault entropy position schema (before ++ step :: after) e
  | following {before after : List ι} {collector next : ι} {reached : Schema} {state : κ} :
    Leads entropy schema before reached →
      StepKind.openOn (entropy.drop (stepsDrawn before)) reached collector =
        .ok (.collector state) →
      StepsFault entropy position schema (before ++ collector :: next :: after)
        (.schemaMismatch (.afterCollector (position + before.length + 1) (StepKind.outline next)))

variable {entropy : Entropy} {position : Nat} {schema output reached : Schema} {step : ι}
  {steps before : List ι} {state : π} {e : Error}

/-- A step that passes rows on may be put in front. -/
theorem EndsInCollector.cons
    (hopen : StepKind.openOn entropy schema step = .ok (.producer state output))
    (h : EndsInCollector (entropy.drop (StepKind.draws step)) output steps) :
    EndsInCollector entropy schema (step :: steps) := by
  obtain ⟨hleads, hcollector⟩ := h
  rw [← drop_stepsDrawn_cons] at hcollector
  exact .intro (.cons hopen hleads) hcollector

/-- A fault stays the same fault, one position on, when a step is put in front. -/
theorem StepsFault.cons
    (hopen : StepKind.openOn entropy schema step = .ok (.producer state output))
    (h : StepsFault (entropy.drop (StepKind.draws step)) (position + 1) output steps e) :
    StepsFault entropy position schema (step :: steps) e := by
  cases h with
  | opening hleads hfail =>
    rw [← drop_stepsDrawn_cons] at hfail
    exact .opening (.cons hopen hleads) hfail
  | @following before after collector next reached _ hleads hcollector =>
    -- the position in the message counts the new step, which is why it is generalized
    have hposition : position + 1 + before.length = position + (step :: before).length :=
      Nat.succ_add_eq_add_succ ..
    rw [hposition]
    rw [← drop_stepsDrawn_cons] at hcollector
    exact .following (.cons hopen hleads) hcollector

/-- Steps open one behind another, perhaps up to a collector at their end, or one of them is at
    fault. -/
theorem leads_or_fault (entropy : Entropy) (position : Nat) (schema : Schema) (steps : List ι) :
    (∃ reached, Leads entropy schema steps reached) ∨ EndsInCollector entropy schema steps ∨
      ∃ e, StepsFault entropy position schema steps e := by
  induction steps generalizing entropy position schema with
  | nil => exact .inl ⟨schema, .nil entropy schema⟩
  | cons step rest ih =>
    rcases hopen : (StepKind.openOn entropy schema step : Except Error (Opened π κ)) with
      e | ⟨state, output⟩ | state
    · exact .inr (.inr ⟨e, .opening (.nil entropy schema) hopen⟩)
    · -- the first step opens, so the rest says which of the three it is
      rcases ih (entropy.drop (StepKind.draws step)) (position + 1) output with
        ⟨reached, h⟩ | h | ⟨e, h⟩
      · exact .inl ⟨reached, .cons hopen h⟩
      · exact .inr (.inl (h.cons hopen))
      · exact .inr (.inr ⟨e, h.cons hopen⟩)
    · -- a collector ends the steps, or the step behind it is at fault
      cases rest with
      | nil => exact .inr (.inl (.intro (.nil entropy schema) hopen))
      | cons next rest => exact .inr (.inr ⟨_, .following (.nil entropy schema) hopen⟩)

/-! ### Assemblies -/

/-- Steps that pass rows on are opened, and those behind them on the schema that they lead to. -/
theorem Leads.assemble (h : Leads entropy schema before reached) :
    ∃ states : List π, ∀ position (rest : List ι),
      RowFlow.assemble entropy position schema (before ++ rest) = (do
        let behind ← RowFlow.assemble (entropy.drop (stepsDrawn before))
          (position + before.length) reached rest
        return { behind with producers := states ++ behind.producers } :
          Except Error (Assembly π κ)) := by
  -- the states depend neither on the position nor on the steps behind, which vary in the induction
  induction h with
  | nil entropy schema =>
    refine ⟨[], fun position rest => ?_⟩
    exact (bind_pure _).symm
  | @cons entropy schema output last step steps state hopen _ ih =>
    obtain ⟨states, hstates⟩ := ih
    refine ⟨state :: states, fun position rest => ?_⟩
    have hposition : position + 1 + steps.length = position + (step :: steps).length :=
      Nat.succ_add_eq_add_succ ..
    have hstep : RowFlow.assemble entropy position schema (step :: steps ++ rest) = (do
        let behind ← RowFlow.assemble (entropy.drop (StepKind.draws step)) (position + 1) output
          (steps ++ rest)
        return { behind with producers := state :: behind.producers } :
          Except Error (Assembly π κ)) := by
      rw [List.cons_append, RowFlow.assemble, hopen]
      rfl
    rw [hstep, hstates, hposition, drop_stepsDrawn_cons]
    simp only [bind_assoc, pure_bind, List.cons_append]

/-- Steps that all pass rows on are assembled without a collector. -/
theorem Leads.assemble_eq (h : Leads entropy schema steps reached) (position : Nat) :
    ∃ states, RowFlow.assemble entropy position schema steps =
      .ok (⟨states, none, reached⟩ : Assembly π κ) := by
  obtain ⟨states, hstates⟩ := h.assemble
  -- nothing stands behind them here
  have hall := hstates position []
  rw [List.append_nil] at hall
  exact ⟨states ++ [], hall⟩

/-- Steps that end in a collector are assembled with it. -/
theorem EndsInCollector.assemble_eq (h : EndsInCollector entropy schema steps) (position : Nat) :
    ∃ states collector reached, RowFlow.assemble entropy position schema steps =
      .ok (⟨states, some collector, reached⟩ : Assembly π κ) := by
  obtain ⟨hleads, hcollector⟩ := h
  obtain ⟨states, hstates⟩ := hleads.assemble
  rw [hstates]
  simp only [assemble, hcollector]
  exact ⟨_, _, _, rfl⟩

/-- A fault of the steps is what opening them answers. -/
theorem StepsFault.assemble_eq (h : StepsFault entropy position schema steps e) :
    (assemble entropy position schema steps : Except Error (Assembly π κ)) = .error e := by
  cases h with
  | opening hleads hfail =>
    obtain ⟨states, hstates⟩ := hleads.assemble
    rw [hstates, assemble, hfail]
    rfl
  | following hleads hcollector =>
    obtain ⟨states, hstates⟩ := hleads.assemble
    rw [hstates, assemble, hcollector]
    rfl

/-- The first step that is at fault is reported, and only such a step. -/
theorem assemble_eq_error_iff :
    (assemble entropy position schema steps : Except Error (Assembly π κ)) = .error e ↔
      StepsFault entropy position schema steps e := by
  refine ⟨fun h => ?_, StepsFault.assemble_eq⟩
  -- the three ways in which steps open exclude each other by what is answered
  rcases leads_or_fault entropy position schema steps with
    ⟨reached, hleads⟩ | hends | ⟨e', hfault⟩
  · obtain ⟨states, hassemble⟩ := hleads.assemble_eq position
    cases hassemble.symm.trans h
  · obtain ⟨states, collector, reached, hassemble⟩ := hends.assemble_eq position
    cases hassemble.symm.trans h
  · cases hfault.assemble_eq.symm.trans h
    exact hfault

/-- Only steps that end in a collector are assembled with one. -/
theorem collector_isSome_iff {assembly : Assembly π κ}
    (h : assemble entropy position schema steps = .ok assembly) :
    assembly.collector.isSome ↔ EndsInCollector entropy schema steps := by
  rcases leads_or_fault entropy position schema steps with
    ⟨reached, hleads⟩ | hends | ⟨e, hfault⟩
  · obtain ⟨states, hassemble⟩ := hleads.assemble_eq position
    cases hassemble.symm.trans h
    refine iff_of_false nofun fun hends => ?_
    obtain ⟨states', collector, reached', hother⟩ := hends.assemble_eq position
    cases hassemble.symm.trans hother
  · obtain ⟨states, collector, reached, hassemble⟩ := hends.assemble_eq position
    cases hassemble.symm.trans h
    exact iff_of_true rfl hends
  · cases hfault.assemble_eq.symm.trans h

end

/-! ## Faults of pipelines -/

namespace Pipeline

variable [StepKind ι π κ]

/-- What keeps a pipeline from being opened: its source has no schema, or a step is at fault. -/
inductive Fault (pipeline : Pipeline ι α) (entropy : Entropy) (files : Files) : Error → Prop
  | source {e : Error} : pipeline.source.schema files = .error e → Fault pipeline entropy files e
  | steps {schema : Schema} {e : Error} : pipeline.source.schema files = .ok schema →
    StepsFault entropy 0 schema pipeline.steps e → Fault pipeline entropy files e

/-- Whether the last step is a collector, where those before it can be opened. -/
def Collects (pipeline : Pipeline ι α) (entropy : Entropy) (files : Files) : Prop :=
  ∃ schema, pipeline.source.schema files = .ok schema ∧
    EndsInCollector entropy schema pipeline.steps

/-- What keeps a pipeline from being opened for a reader, who stands behind the last step. -/
inductive ReaderFault (pipeline : Pipeline ι α) (entropy : Entropy) (files : Files) : Error → Prop
  | fault {e : Error} : pipeline.Fault entropy files e → ReaderFault pipeline entropy files e
  | collects : pipeline.Collects entropy files → ReaderFault pipeline entropy files
    (.schemaMismatch (.afterCollector pipeline.length readerOutline))

section
variable {pipeline : Pipeline ι α} {entropy : Entropy} {files : Files} {e : Error}

/-- A pipeline opens unless it has a fault, and answers that fault. -/
theorem assembly_eq_error_iff :
    (pipeline.assembly entropy files : Except Error (Nat × Assembly π κ)) = .error e ↔
      pipeline.Fault entropy files e := by
  rw [assembly, bind_eq_error_iff]
  constructor
  · rintro (hschema | ⟨schema, hschema, h⟩)
    · exact .source hschema
    · rcases bind_eq_error_iff.1 h with hassemble | ⟨_, _, h⟩
      · exact .steps hschema (assemble_eq_error_iff.1 hassemble)
      · cases h
  · rintro (hschema | ⟨hschema, hfault⟩)
    · exact .inl hschema
    · exact .inr ⟨_, hschema, bind_eq_error_iff.2 (.inl hfault.assemble_eq)⟩

/-- The output schema is told of a pipeline that has no fault. -/
theorem outputSchema_eq_error_iff :
    pipeline.outputSchema entropy files = .error e ↔ pipeline.Fault entropy files e := by
  rw [← assembly_eq_error_iff, outputSchema, bind_eq_error_iff]
  exact or_iff_left fun ⟨_, _, h⟩ => nomatch h

/-- A pipeline that collects opens, with its collector. -/
theorem Collects.assembly (h : pipeline.Collects entropy files) :
    ∃ width states collector schema,
      pipeline.assembly entropy files = .ok (width, ⟨states, some collector, schema⟩) := by
  obtain ⟨schema, hschema, hends⟩ := h
  obtain ⟨states, collector, reached, hassemble⟩ := hends.assemble_eq 0
  exact ⟨schema.width, states, collector, reached,
    assembly_eq_ok_iff.2 ⟨schema, hschema, hassemble, rfl⟩⟩

/-- A pipeline that opens with a collector collects. -/
theorem collects_of_assembly {width : Nat} {states : List π} {collector : κ} {schema : Schema}
    (h : pipeline.assembly entropy files = .ok (width, ⟨states, some collector, schema⟩)) :
    pipeline.Collects entropy files := by
  obtain ⟨source, hsource, hassemble, -⟩ := assembly_eq_ok_iff.1 h
  exact ⟨source, hsource, (collector_isSome_iff hassemble).1 rfl⟩

/-- A reader is given a pipeline that has no fault and does not collect. -/
theorem openForReader_eq_error_iff :
    (pipeline.openForReader entropy files : Except Error (Nat × List π × Schema)) = .error e ↔
      pipeline.ReaderFault entropy files e := by
  rw [openForReader, bind_eq_error_iff]
  constructor
  · rintro (hassembly | ⟨⟨width, states, collector, schema⟩, hassembly, h⟩)
    · exact .fault (assembly_eq_error_iff.1 hassembly)
    -- a collector leaves nothing to read behind it
    · cases collector with
      | none => cases h
      | some collector =>
        cases h
        exact .collects (collects_of_assembly hassembly)
  · rintro (hfault | hcollects)
    · exact .inl (assembly_eq_error_iff.2 hfault)
    · obtain ⟨width, states, collector, schema, hassembly⟩ := hcollects.assembly
      exact .inr ⟨_, hassembly, rfl⟩

/-- Steps that open evenly lead to the same schema, or fail alike, whatever they draw. -/
theorem outputSchema_congr_tape (h : ∀ step ∈ pipeline.steps, OpensEvenly step)
    (entropy other : Entropy) :
    pipeline.outputSchema entropy files = pipeline.outputSchema other files := by
  simp only [outputSchema, assembly, bind_assoc, pure_bind]
  refine congrArg _ (funext fun schema => ?_)
  -- only the stages depend on the tape, and they are dropped here
  have hassemble := schema_assemble h entropy other 0 schema
  simpa only [← bind_pure_comp] using hassemble

/-- A pipeline without a fault opens. -/
theorem exists_assembly (h : ∀ e, ¬ pipeline.Fault entropy files e) :
    ∃ width assembly, pipeline.assembly entropy files = .ok (width, assembly) := by
  obtain ⟨⟨width, assembly⟩, hassembly⟩ := exists_eq_ok fun e he => h e (assembly_eq_error_iff.1 he)
  exact ⟨width, assembly, hassembly⟩

/-- A pipeline opens for a reader who finds no fault. -/
theorem exists_openForReader (h : ∀ e, ¬ pipeline.ReaderFault entropy files e) :
    ∃ width producers schema,
      pipeline.openForReader entropy files = .ok (width, producers, schema) := by
  obtain ⟨⟨width, producers, schema⟩, hreader⟩ :=
    exists_eq_ok fun e he => h e (openForReader_eq_error_iff.1 he)
  exact ⟨width, producers, schema, hreader⟩

end

/-! ## Failing to open -/

variable [Producer π]

/-- A run fails with an error before the steps have been opened. -/
def FailsToOpen [Consumer Files κ] (pipeline : Pipeline ι α) (session : Session α) (e : Error) :
    Prop :=
  (pipeline.run session).1 = .error e ∧ ¬ TellsOpened (pipeline.notices session)

/-- A run with a reader fails with an error before the steps have been opened. -/
def FailsToIterate (pipeline : Pipeline ι α) (session : Session α) (e : Error) : Prop :=
  (pipeline.iterate session).1 = .error e ∧ ¬ TellsOpened (pipeline.openingNotices session)

variable {pipeline : Pipeline ι α} {session : Session α} {e : Error}

theorem failsToIterate_iff :
    pipeline.FailsToIterate session e ↔ pipeline.ReaderFault session.fresh session.files e := by
  have hopened : TellsOpened (pipeline.openingNotices session) ↔
      ∃ opened, pipeline.openForReader session.fresh session.files = .ok opened :=
    (openingDeed_cases pipeline session).2
  rw [FailsToIterate, hopened, ← openForReader_eq_error_iff]
  exact fails_first_iff fun e h => congrArg Prod.fst (iterate_of_not_assembled h)

theorem failsToOpen_iff [Consumer Files κ] :
    pipeline.FailsToOpen session e ↔ pipeline.Fault session.fresh session.files e := by
  obtain ⟨notices, ⟨-, hlogged, -⟩, hopened⟩ := exists_account pipeline.recorded session.recorded
  obtain rfl : notices = pipeline.notices session := hlogged.eq_log.symm
  have hopened : TellsOpened (pipeline.notices session) ↔
      ∃ assembled, pipeline.assembly session.fresh session.files = .ok assembled := hopened
  rw [FailsToOpen, hopened, ← assembly_eq_error_iff]
  exact fails_first_iff fun e h => congrArg Prod.fst (run_of_not_assembled h)

end Pipeline

/-! ## What is left alone -/

/-- Sessions in which the same can be read: in files, from a one-shot source, and by the runs to
    come from their tapes. -/
structure Session.SameReading (session session' : Session α) : Prop where
  files : session.files = session'.files
  spent : session.spent = session'.spent
  ahead (run : Nat) : session.entropy (session.counters.runs + run) =
    session'.entropy (session'.counters.runs + run)

/-- The session in which the tapes of some runs have been passed over. -/
def Session.skip (runs : Nat) (session : Session α) : Session α :=
  { session with entropy := fun run => session.entropy (run + runs) }

namespace Session.SameReading

variable {session session' : Session α} (h : session.SameReading session')
include h

theorem notify (options : Options α) (notices notices' : List Notice) :
    (session.notify options notices).SameReading (session'.notify options notices') :=
  ⟨h.files, h.spent, h.ahead⟩

theorem count {f : Counters → Counters} (hf : Counters.Adds f) :
    (session.count f).SameReading (session'.count f) := by
  obtain ⟨added, hf⟩ := hf
  refine ⟨h.files, h.spent, fun run => ?_⟩
  have hahead := h.ahead (added.runs + run)
  rw [← Nat.add_assoc, ← Nat.add_assoc] at hahead
  simp only [Session.count, hf]
  exact hahead

end Session.SameReading

/-- Runs in two sessions that read the same do the same, whoever listens. -/
theorem tie_sameReading (options : Options α) :
    Session.Tie options options Session.SameReading where
  files h := h.files
  spent h := h.spent
  -- the tape of the next run is that of the generation reached
  fresh h := h.ahead 0
  count hf h := h.count hf
  report event h := by
    rw [Session.report_eq, Session.report_eq]
    exact h.notify options _ _
  succeed h := by
    rw [Session.succeed_eq, Session.succeed_eq]
    exact h.notify options _ _
  fail error h := by
    rw [Session.fail_eq, Session.fail_eq]
    -- a failure is counted, but no run is
    exact (h.count ⟨⟨0, 1, 0, 0, 0⟩, fun _ => rfl⟩).notify options _ _
  use _ _ h := ⟨rfl, rfl, h.ahead⟩

/-- A run that could not open its steps leaves the files and the one-shot source, and the tapes
    behind its own. -/
theorem Session.sameReading_unopened (options : Options α) (e : Error) (session : Session α) :
    ((session.startRun options).fail options e).SameReading (session.skip 1) := by
  rw [Session.fail_eq, Session.startRun_eq]
  exact ⟨rfl, rfl, fun run => congrArg session.entropy (Nat.add_right_comm _ 1 run)⟩

section
variable [StepKind ι π κ] [Producer π] [Consumer Files κ]

/-- Nothing has been read between two scenes but the tape of one run, and whatever is done later
    gives the same answers in both, if runs get the same tapes then. -/
structure Scene.LeftAlone (ι : Type) {π κ : Type} [StepKind ι π κ] [Producer π] [Consumer Files κ]
    (scene scene' : Scene π α) : Prop where
  readers : scene'.readers = scene.readers
  reading : scene'.session.SameReading (scene.session.skip 1)
  rowsPulled : scene'.session.counters.rowsPulled = scene.session.counters.rowsPulled
  answers (acts : List (Act ι α)) : (scene'.play acts).1 =
    (Scene.play acts { scene with session := scene.session.skip 1 }).1

/-- A run that fails before its steps are open leaves a scene alone. -/
theorem Scene.leftAlone_unopened (options : Options α) (e : Error) (scene : Scene π α) :
    scene.LeftAlone ι
      { scene with session := (scene.session.startRun options).fail options e } := by
  have hreading := Session.sameReading_unopened options e scene.session
  exact ⟨rfl, hreading, (Session.Logged.unopened options e scene.session).rowsPulled,
    fun acts => play_tied tie_sameReading acts ⟨hreading, rfl⟩⟩

/-- A run over steps that do not open leaves the scene alone. -/
theorem Act.leftAlone_run {pipeline : Pipeline ι α} {scene : Scene π α} {e : Error}
    (h : pipeline.Fault scene.session.fresh scene.session.files e) :
    scene.LeftAlone ι ((Act.run pipeline).perform scene).2 := by
  rw [perform_run (Pipeline.run_of_not_assembled (Pipeline.assembly_eq_error_iff.2 h))]
  exact Scene.leftAlone_unopened pipeline.options e scene

/-- So does a reader asked for over steps that do not open. -/
theorem Act.leftAlone_iterate {pipeline : Pipeline ι α} {scene : Scene π α} {e : Error}
    (h : pipeline.ReaderFault scene.session.fresh scene.session.files e) :
    scene.LeftAlone ι ((Act.iterate pipeline).perform scene).2 := by
  rw [perform_iterate_error
    (Pipeline.iterate_of_not_assembled (Pipeline.openForReader_eq_error_iff.2 h))]
  exact Scene.leftAlone_unopened pipeline.options e scene

/-! ## Sources that can be read once -/

/-- A pipeline over a source that has been read before cannot read it again. -/
structure Pipeline.Exhausted (pipeline : Pipeline ι α) (session : Session α) : Prop where
  run : (∀ e, ¬ pipeline.FailsToOpen session e) →
    (pipeline.run session).1 = .error .sourceExhausted ∧
      (pipeline.run session).2.counters.rowsPulled = session.counters.rowsPulled
  iterate : (∀ e, ¬ pipeline.FailsToIterate session e) →
    (pipeline.iterate session).1 = .error .sourceExhausted ∧
      (pipeline.iterate session).2.counters.rowsPulled = session.counters.rowsPulled

/-- A source that has been read once answers nothing more. -/
theorem Source.openOn_of_once {source : Source} (h : ¬ source.Rereadable) (files : Files) :
    source.openOn files true = (.error .sourceExhausted, true) := by
  cases source with
  | once schema items => rfl
  | _ => exact absurd trivial h

namespace Pipeline

variable {pipeline : Pipeline ι α} {files : Files}

/-- Over a spent source a run or a reader opens its steps and then fails. -/
theorem exhausted_of_spent {session : Session α} (hsource : ¬ pipeline.source.Rereadable)
    (hspent : session.spent = true) : pipeline.Exhausted session := by
  have hitems : (pipeline.source.openOn session.files session.spent).1 =
      .error .sourceExhausted := by
    rw [hspent, Source.openOn_of_once hsource]
  constructor
  · intro h
    -- the steps open, so it is the source that answers
    obtain ⟨width, assembly, hassembly⟩ := exists_assembly fun e he => h e (failsToOpen_iff.2 he)
    rw [run_of_not_opened hassembly hitems]
    exact ⟨rfl, (Session.Logged.unread pipeline _ assembly.schema _ session).rowsPulled⟩
  · intro h
    obtain ⟨width, producers, schema, hreader⟩ :=
      exists_openForReader fun e he => h e (failsToIterate_iff.2 he)
    rw [iterate_of_not_opened hreader hitems]
    exact ⟨rfl, (Session.Logged.unread pipeline _ schema _ session).rowsPulled⟩

end Pipeline

/-- An act that opens the steps of a pipeline over a source that can be read once. -/
def Act.OpensOnce (act : Act ι α) (session : Session α) : Prop :=
  match act with
  | .run pipeline => ¬ pipeline.source.Rereadable ∧ ∀ e, ¬ pipeline.FailsToOpen session e
  | .iterate pipeline => ¬ pipeline.source.Rereadable ∧ ∀ e, ¬ pipeline.FailsToIterate session e
  | _ => False

/-- Pushing rows does not look at the source again. -/
theorem spent_pushAndClose (options : Options α) (width : Nat) (items : List (Except Error Row))
    {n : Nat} (chain : Chain π (Guarded (Metered κ)) n) (w : Session α) :
    (pushAndClose options width items chain w).2.spent = w.spent := by
  have htouch : TouchesEnd α (Chain π (Guarded (Metered κ)) n) := Chain.touchesEnd n
  -- pushing keeps the mark, by one row, one report and one failure at a time
  have hpushed := pushUntil_kept options width
    (I := fun (_ : Chain π (Guarded (Metered κ)) n) (v : Session α) => v.spent = w.spent)
    (fun row c v h => (htouch.consume row c v.pulled).spent.trans h)
    (fun pulled h => (Session.spent_report options _ _).trans h) (fun _ => false) items 0
    (s := chain) rfl
  simp only [pushAndClose, pushAll_eq]
  generalize pushUntil options width (fun _ => false) items 0 chain w = run at hpushed ⊢
  obtain ⟨halt, pulled, chain', w'⟩ := run
  cases halt.result with
  -- after an error the chain is not closed
  | error e => exact hpushed
  | ok _ => exact (htouch.close chain' w').spent.trans hpushed

/-- Once the steps have been opened, the source is. -/
theorem Act.spent_of_opensOnce {act : Act ι α} {scene : Scene π α}
    (h : act.OpensOnce scene.session) : (act.perform scene).2.session.spent = true := by
  -- a one-shot source is spent by the attempt to open it, whatever comes of that
  have hbegun {pipeline : Pipeline ι α} (hsource : ¬ pipeline.source.Rereadable) (steps : Nat)
      (schema : Schema) : (pipeline.begun steps schema scene.session).spent = true := by
    rw [Pipeline.spent_begun]
    cases hsame : pipeline.source with
    | once schema items => rfl
    | _ => exact absurd (hsame ▸ trivial) hsource
  cases act with
  | run pipeline =>
    obtain ⟨width, assembly, hassembly⟩ :=
      Pipeline.exists_assembly fun e he => h.2 e (Pipeline.failsToOpen_iff.2 he)
    have hspent := hbegun h.1 pipeline.length assembly.schema
    -- what the source answers does not matter
    rcases hitems : (pipeline.source.openOn scene.session.files scene.session.spent).1 with
      e | items
    · rw [perform_run (Pipeline.run_of_not_opened hassembly hitems)]
      exact (Session.Logged.fail pipeline.options e _).spent hspent
    · change (pipeline.run scene.session).2.spent = true
      rw [Pipeline.run_of_opened hassembly hitems]
      refine (Session.Logged.closeRun pipeline.options _ _).spent ?_
      rwa [spent_pushAndClose]
  | iterate pipeline =>
    obtain ⟨width, producers, schema, hreader⟩ :=
      Pipeline.exists_openForReader fun e he => h.2 e (Pipeline.failsToIterate_iff.2 he)
    have hspent := hbegun h.1 (pipeline.length + 1) schema
    rcases hitems : (pipeline.source.openOn scene.session.files scene.session.spent).1 with
      e | items
    · rw [perform_iterate_error (Pipeline.iterate_of_not_opened hreader hitems)]
      exact (Session.Logged.fail pipeline.options e _).spent hspent
    · rw [perform_iterate_ok (Pipeline.iterate_of_opened hreader hitems)]
      exact hspent
  -- no other act opens steps
  | _ => exact h.elim

/-- A source that has been read stays so until another one takes its place. -/
theorem Scene.spent_play {acts : List (Act ι α)} (hacts : ∀ act ∈ acts, act.SameSource)
    {scene : Scene π α} (hfetched : scene.Fetched) (h : scene.session.spent = true) :
    (scene.play acts).2.session.spent = true := by
  induction acts generalizing scene with
  | nil => exact h
  | cons act acts ih =>
    obtain ⟨hact, hacts⟩ := List.forall_mem_cons.1 hacts
    -- no act turns the source back, and readers are fetched again after each one
    exact ih hacts (act.leaves hfetched).fetched ((act.leaves hfetched).spent hact h)

/-! ## Steps first -/

namespace Pipeline

/-- How a pipeline is opened in a scene: its steps first, one after another, and its source only
    when they are all open. -/
structure OpensStepsFirst (pipeline : Pipeline ι α) (scene : Scene π α) : Prop where
  outputSchema (e : Error) :
    pipeline.outputSchema scene.session.fresh scene.session.files = .error e ↔
      pipeline.Fault scene.session.fresh scene.session.files e
  /-- the tape of the run is as good as any other to tell -/
  anyTape : (∀ step ∈ pipeline.steps, OpensEvenly step) → ∀ entropy,
    pipeline.outputSchema entropy scene.session.files =
      pipeline.outputSchema scene.session.fresh scene.session.files
  run (e : Error) : pipeline.FailsToOpen scene.session e ↔
    pipeline.outputSchema scene.session.fresh scene.session.files = .error e
  iterate (e : Error) : pipeline.FailsToIterate scene.session e ↔
    pipeline.outputSchema scene.session.fresh scene.session.files = .error e ∨
      (pipeline.Collects scene.session.fresh scene.session.files ∧
        e = .schemaMismatch (.afterCollector pipeline.length readerOutline))
  leftAloneByRun (e : Error) : pipeline.FailsToOpen scene.session e →
    scene.LeftAlone ι ((Act.run pipeline).perform scene).2
  leftAloneByIterate (e : Error) : pipeline.FailsToIterate scene.session e →
    scene.LeftAlone ι ((Act.iterate pipeline).perform scene).2
  /-- a source that can be read once gives all its rows to the first reader -/
  unread {schema : Schema} {items : List (Except Error Row)} :
    pipeline.source = .once schema items → scene.session.spent = false →
      (∀ e, ¬ pipeline.FailsToIterate scene.session e) →
        ∃ it, (pipeline.iterate scene.session).1 = .ok it ∧ it.2.items = items
  /-- or to the first run -/
  unreadByRun {schema : Schema} {items : List (Except Error Row)} :
    pipeline.source = .once schema items → scene.session.spent = false →
      (∀ e, ¬ pipeline.FailsToOpen scene.session e) →
        ∃ width assembly,
          pipeline.assembly scene.session.fresh scene.session.files = .ok (width, assembly) ∧
          (pipeline.run scene.session).1 =
            (pushAndClose pipeline.options width items (assembly.chain ι)
              (pipeline.begun pipeline.length assembly.schema scene.session)).1
  /-- and none to anybody after the steps of another pipeline have been opened over it -/
  exhausted (first : Act ι α) (between : List (Act ι α)) :
    ¬ pipeline.source.Rereadable → first.OpensOnce scene.session →
      (∀ act ∈ between, act.SameSource) →
        pipeline.Exhausted ((first.perform scene).2.play between).2.session

/-- Whatever has been played in a session, a pipeline opens its steps before its source. -/
theorem opens_steps_first (pipeline : Pipeline ι α) (session : Session α)
    (history : List (Act ι α)) :
    pipeline.OpensStepsFirst ((Scene.mk session []).play history).2 := by
  have hfetched : ((Scene.mk session []).play history).2.Fetched := Scene.fetched_play history nofun
  -- all that is used of the history is that its readers have been fetched
  generalize ((Scene.mk session []).play history).2 = scene at hfetched ⊢
  -- an unread one-shot source gives all its items
  have hopen {schema : Schema} {items : List (Except Error Row)}
      (hsource : pipeline.source = .once schema items) (hspent : scene.session.spent = false) :
      (pipeline.source.openOn scene.session.files scene.session.spent).1 = .ok items := by
    rw [hsource, hspent]
    rfl
  constructor
  · exact fun e => outputSchema_eq_error_iff
  · exact fun heven entropy => outputSchema_congr_tape heven entropy _
  · intro e
    rw [failsToOpen_iff, outputSchema_eq_error_iff]
  · intro e
    -- a reader may also find a collector, which is no fault of the pipeline
    rw [failsToIterate_iff, outputSchema_eq_error_iff]
    constructor
    · rintro (hfault | hcollects)
      · exact .inl hfault
      · exact .inr ⟨hcollects, rfl⟩
    · rintro (hfault | ⟨hcollects, rfl⟩)
      · exact .fault hfault
      · exact .collects hcollects
  · exact fun e h => Act.leftAlone_run (failsToOpen_iff.1 h)
  · exact fun e h => Act.leftAlone_iterate (failsToIterate_iff.1 h)
  · intro schema items hsource hspent h
    obtain ⟨width, producers, output, hreader⟩ :=
      exists_openForReader fun e he => h e (failsToIterate_iff.2 he)
    rw [iterate_of_opened hreader (hopen hsource hspent)]
    exact ⟨_, rfl, rfl⟩
  · intro schema items hsource hspent h
    obtain ⟨width, assembly, hassembly⟩ :=
      exists_assembly fun e he => h e (failsToOpen_iff.2 he)
    rw [run_of_opened hassembly (hopen hsource hspent)]
    exact ⟨width, assembly, hassembly, rfl⟩
  · intro first between hsource hfirst hbetween
    have hspent := Scene.spent_play hbetween (first.leaves hfetched).fetched
      (Act.spent_of_opensOnce hfirst)
    exact exhausted_of_spent hsource hspent

end Pipeline

end

/-- Letters that can be read once. -/
def lettersOnce : Source := .onceOf letters.schema letters.rows

/-- A run over a column that does not exist leaves the letters to a reader; after another run there
    are none. -/
theorem lettersOnce_opened :
    let scene : Scene Stage (List Notice) := ⟨.start .empty [], []⟩
    let wrong : Pipeline Step (List Notice) :=
      .ofTransforms lettersOnce [.select [.name "digit"] none] .unobserved
    let first : Pipeline Step (List Notice) := .ofTransforms lettersOnce [.limit 2] .unobserved
    wrong.FailsToOpen scene.session
        (.schemaMismatch (.unknownColumn (.name "digit") ["letter"])) ∧
      scene.LeftAlone Step ((Act.run wrong).perform scene).2 ∧
      (∃ it, (first.iterate scene.session).1 = .ok it ∧
        it.2.items = (numbered letters.rows).map .ok) ∧
      (first.run ((Act.run first).perform scene).2.session).1 = .error .sourceExhausted := by
  intro scene wrong first
  have hwrong := wrong.opens_steps_first (.start .empty []) []
  have hfirst := first.opens_steps_first (.start .empty []) []
  have hfails := (hwrong.run (.schemaMismatch (.unknownColumn (.name "digit") ["letter"]))).2 rfl
  -- a limit opens on any schema, so there is no fault to report
  have hopens (e : Error) : ¬ first.FailsToOpen scene.session e := fun he =>
    nomatch (hfirst.run e).1 he
  have hreads (e : Error) : ¬ first.FailsToIterate scene.session e := fun he => nomatch he.1
  have hexhausted : first.Exhausted ((Act.run first).perform scene).2.session :=
    hfirst.exhausted (.run first) [] id ⟨id, hopens⟩ nofun
  refine ⟨hfails, hwrong.leftAloneByRun _ hfails, hfirst.unread rfl rfl hreads, ?_⟩
  exact (hexhausted.run fun e he => nomatch (Pipeline.outputSchema_eq_error_iff.2
    (Pipeline.failsToOpen_iff.1 he))).1

end RowFlow
