import RowFlow.Proofs.Pipeline.Contract
import RowFlow.Proofs.Pipeline.Opening
import RowFlow.Proofs.Step.Names

/-!
# Schemas Along a Pipeline

The schemas that opening computes and the rows that are built later stay in step along any list of
transforms that opens: every row that is handed on has the width of the schema there, so that behind
the source nothing can be found not to fit, and distinct names stay distinct
(`Pipeline.widths_kept`).
-/

namespace RowFlow

/-! ## Schemas between transforms -/

/-- The schemas that transforms lead through: of the rows that each of them passes on, on which the
    next one is opened. -/
def Transform.outputs (entropy : Entropy) (schema : Schema) :
    List Transform → Except Error (List Schema)
  | [] => .ok []
  | t :: rest => do
    let (_, output) ← t.openOn entropy schema
    return output :: (← outputs (entropy.drop t.draws) output rest)

/-- Open steps that lead from a schema through schemas to a collector of the last one. -/
structure Assembly.Sound (input : Schema) (outputs : List Schema)
    (assembly : Assembly Stage Collector) : Prop where
  along : Stage.Along input assembly.producers outputs
  schema : assembly.schema = outputs.getLastD input
  collector : ∀ c ∈ assembly.collector, c.Suits assembly.schema

/-- Opened transforms lead through their schemas, which have distinct names if the first one has. -/
theorem Transform.outputs_of_assemble {entropy : Entropy} {position : Nat} {schema : Schema}
    {ts : List Transform} {assembly : Assembly Stage Collector}
    (h : assemble entropy position schema (ts.map Step.transform) = .ok assembly) :
    ∃ outputs, Transform.outputs entropy schema ts = .ok outputs ∧ assembly.Sound schema outputs ∧
      (schema.names.Nodup → ∀ output ∈ outputs, output.names.Nodup) := by
  induction ts generalizing entropy position schema assembly with
  | nil =>
    rw [← Except.ok.inj h]
    exact ⟨[], rfl, ⟨.nil schema, rfl, nofun⟩, fun _ => nofun⟩
  | cons t rest ih =>
    obtain ⟨stage, output, behind, hopen, hbehind, rfl⟩ := assemble_cons_eq_ok h
    obtain ⟨outputs, houtputs, hsound, hnames⟩ := ih hbehind
    have hstage : stage.Sound schema.width output.width :=
      ⟨fits_of_openOn hopen, reliable_of_openOn hopen⟩
    refine ⟨output :: outputs, ?_, ⟨.cons hstage hsound.along, ?_, hsound.collector⟩,
      fun hnodup => ?_⟩
    · exact bind_eq_ok_iff.2 ⟨(stage, output), hopen, bind_eq_ok_iff.2 ⟨outputs, houtputs, rfl⟩⟩
    · rw [List.getLastD_cons]
      exact hsound.schema
    · have houtput := nodup_of_openOn hopen hnodup
      exact List.forall_mem_cons.2 ⟨houtput, hnames houtput⟩

/-! ## Reading sources -/

/-- All rows of a source: it opens, none of its items is a failure, and no row has another width
    than its schema. -/
def Source.read (source : Source) (files : Files) (spent : Bool) : Except Error (List Row) := do
  let schema ← source.schema files
  let items ← (source.openOn files spent).1
  (RowStream.ofItems schema.width items).result

section
variable {α : Type} {F : Error → Prop} {schema : Schema}

theorem Source.failsWith_items {source : Source} {files : Files} {spent : Bool}
    (hschema : source.schema files = .ok schema) (h : FailsWith F (source.read files spent)) :
    FailsWith F (source.openOn files spent).1 ∧
      ∀ items, (source.openOn files spent).1 = .ok items →
        FailsWith F (RowStream.ofItems schema.width items).result := by
  simp only [read, hschema] at h
  cases hopen : (source.openOn files spent).1 with
  | error e =>
    rw [hopen] at h
    exact ⟨.error (h e rfl), nofun⟩
  | ok items =>
    rw [hopen] at h
    exact ⟨.ok _, fun _ hitems => Except.ok.inj hitems ▸ h⟩

/-! ## Runs -/

namespace Pipeline

variable {pipeline : Pipeline Step α} {session : Session α} {outputs : List Schema}
  {assembly : Assembly Stage Collector}

theorem execute_within {entropy : Entropy}
    (hassembly : pipeline.assembly entropy session.files = .ok (schema.width, assembly))
    (h : assembly.Sound schema outputs)
    (hschema : pipeline.source.schema session.files = .ok schema)
    (hsource : FailsWith F (pipeline.source.read session.files session.spent)) :
    FailsWith (Error.Within F) (pipeline.execute entropy session).1 ∧
      ∀ output, (pipeline.execute entropy session).1 = .ok output →
        Output.Suits assembly.schema output := by
  have hchain : Honours (Session α) (·.length = schema.width) F (Output.Suits assembly.schema)
      (Chain.Sound (fun s : Guarded (Metered Collector) => s.inner.inner.Suits assembly.schema)
        assembly.producers.length schema outputs) := by
    refine Chain.honours _ ?_
    rw [← h.schema]
    exact Collector.honours.metered.guarded
  -- without a collector the rows become a table of the schema at the end
  have hcollector : (assembly.collector.getD (.table assembly.schema [])).Suits
      assembly.schema := by
    cases hc : assembly.collector with
    | none => exact ⟨rfl, List.forall_mem_nil _⟩
    | some c => exact h.collector c hc
  obtain ⟨hopen, hitems⟩ := Source.failsWith_items hschema hsource
  simp only [execute, hassembly, Source.openIn, Session.files_report, Session.spent_report]
  generalize pipeline.source.openOn session.files session.spent = opened at hopen hitems ⊢
  obtain ⟨_ | items, spent⟩ := opened
  · refine ⟨.error fun _ => hopen _ rfl, fun output houtput => ?_⟩
    cases houtput
  · exact pushAndClose_within hchain pipeline.options (hitems items rfl)
      (Chain.sound_connect h.along hcollector) _

/-- A run meets no mismatch but those of reading its source, and its result suits the schema at the
    end. -/
theorem run_within
    (hassembly : pipeline.assembly session.fresh session.files = .ok (schema.width, assembly))
    (h : assembly.Sound schema outputs)
    (hschema : pipeline.source.schema session.files = .ok schema)
    (hsource : FailsWith F (pipeline.source.read session.files session.spent)) :
    FailsWith (Error.Within F) (pipeline.run session).1 ∧
      ∀ output, (pipeline.run session).1 = .ok output → Output.Suits assembly.schema output := by
  rw [← Session.files_startRun pipeline.options session] at hassembly hschema hsource
  rw [← Session.spent_startRun pipeline.options session] at hsource
  exact execute_within hassembly h hschema hsource

end Pipeline

/-! ## Pipelines of transforms -/

namespace Pipeline

variable {source : Source} {ts : List Transform} {options : Options α} {session : Session α}
  {outputs : List Schema} {assembly : Assembly Stage Collector}

theorem assembly_ofTransforms
    (h : assemble session.fresh 0 schema (ts.map Step.transform) = .ok assembly)
    (hschema : source.schema session.files = .ok schema) :
    (ofTransforms source ts options).assembly session.fresh session.files =
      .ok (schema.width, assembly) :=
  bind_eq_ok_iff.2 ⟨schema, hschema, bind_eq_ok_iff.2 ⟨assembly, h, rfl⟩⟩

/-- The rows of transforms are collected within the contract of any collection that opens. -/
theorem runWith_within
    (h : assemble session.fresh 0 schema (ts.map Step.transform) = .ok assembly)
    (hsound : assembly.Sound schema outputs) (hschema : source.schema session.files = .ok schema)
    (hsource : FailsWith F (source.read session.files session.spent)) {c : Collection}
    {collector : Collector} (hc : c.openOn assembly.schema = .ok collector) :
    FailsWith (Error.Within F)
        ((ofTransforms source ts options).runWith (.collect c) session).1 ∧
      ∀ output, ((ofTransforms source ts options).runWith (.collect c) session).1 = .ok output →
        Output.Suits assembly.schema output := by
  have hassemble : assemble session.fresh 0 schema (ts.map Step.transform ++ [.collect c]) =
      .ok { assembly with collector := some collector } := by
    rw [assemble_append_collect]
    exact bind_eq_ok_iff.2 ⟨assembly, h, bind_eq_ok_iff.2 ⟨collector, hc, rfl⟩⟩
  have hassembly : ((ofTransforms source ts options).append (.collect c)).assembly session.fresh
      session.files = .ok (schema.width, { assembly with collector := some collector }) :=
    bind_eq_ok_iff.2 ⟨schema, hschema, bind_eq_ok_iff.2 ⟨_, hassemble, rfl⟩⟩
  have hcollecting : Assembly.Sound schema outputs
      { assembly with collector := some collector } := by
    refine ⟨hsound.along, hsound.schema, fun own hown => ?_⟩
    obtain rfl := Option.some.inj hown
    exact Collection.suits_of_openOn hc
  have hrun := run_within hassembly hcollecting hschema hsource
  exact hrun

/-- A collected table has the schema at the end, and so have its rows. -/
theorem suits_of_toTable
    (h : assemble session.fresh 0 schema (ts.map Step.transform) = .ok assembly)
    (hsound : assembly.Sound schema outputs) (hschema : source.schema session.files = .ok schema)
    {table : Table} (htable : ((ofTransforms source ts options).toTable session).1 = .ok table) :
    table.schema = assembly.schema ∧
      ∀ values ∈ table.rows, values.length = assembly.schema.width := by
  have hsource : FailsWith (fun _ => True) (source.read session.files session.spent) :=
    fun _ _ => trivial
  obtain ⟨output, houtput, hpart⟩ := bind_eq_ok_iff.1 htable
  have hsuits := (runWith_within h hsound hschema hsource (c := .table) rfl).2 output houtput
  -- only a table gives the part that is asked for
  match output with
  | some (.table t) => exact Except.ok.inj hpart ▸ hsuits
  | none | some (.count _) | some (.distinct _) | some (.rows _) | some (.value _) => cases hpart

/-- A reader of transforms is sound from its start. -/
theorem sound_of_iterate
    (h : assemble session.fresh 0 schema (ts.map Step.transform) = .ok assembly)
    (hsound : assembly.Sound schema outputs) (hschema : source.schema session.files = .ok schema)
    (hsource : FailsWith F (source.read session.files session.spent))
    {it : Sigma (RowIterator Stage α)} {opened : Session α}
    (hit : (ofTransforms source ts options).iterate session = (.ok it, opened)) :
    it.2.Sound F schema outputs := by
  rw [iterate_eq] at hit
  rcases hlaunch : (ofTransforms source ts options).launch session.fresh
    (session.startRun options) with ⟨e | launch, session'⟩
  · rw [hlaunch] at hit
    cases hit
  · rw [hlaunch] at hit
    obtain rfl : ⟨_, launch.iterator options⟩ = it := Except.ok.inj (Prod.mk.inj hit).1
    -- the launch consists of the open steps and the items of the source
    obtain ⟨⟨width, own⟩, hassembly, hopening⟩ := bind_eq_ok_iff.1 (opening_of_launch hlaunch)
    obtain ⟨items, hitems, hopening⟩ := bind_eq_ok_iff.1 hopening
    rw [assembly_ofTransforms h hschema] at hassembly
    obtain ⟨rfl, rfl⟩ := Prod.mk.inj (Except.ok.inj hassembly)
    obtain rfl := Except.ok.inj hopening
    refine ⟨rfl, (Source.failsWith_items hschema hsource).2 items hitems, fun chain hchain => ?_,
      nofun⟩
    obtain rfl := Option.some.inj hchain
    exact Chain.sound_connect hsound.along nofun

/-- No stage and no collector that opens behind them ever finds a mismatch in rows of the width of
    the first schema. -/
theorem not_isMismatch_serve (hsound : assembly.Sound schema outputs) {c : Collection}
    {collector : Collector} (hc : c.openOn assembly.schema = .ok collector)
    {requests : List (Request Files)}
    (hrequests : ∀ request ∈ requests, request.Hands (·.length = schema.width)) :
    ∀ call ∈ (serve requests (Chain.connect assembly.producers collector)).1,
      ¬ call.IsMismatch := by
  have hend : Honours Files (·.length = (outputs.getLastD schema).width) (fun _ => False)
      (Output.Suits assembly.schema) (Collector.Suits assembly.schema) := by
    rw [← hsound.schema]
    exact Collector.honours
  have hstart := Chain.sound_connect hsound.along (Collection.suits_of_openOn hc)
  exact fun call hcall =>
    (((Chain.honours _ hend).serve hrequests hstart).1 call hcall).not_isMismatch

/-- No run over a source meets a mismatch that reading the source does not meet. -/
theorem ne_mismatch_of_read
    (h : assemble session.fresh 0 schema (ts.map Step.transform) = .ok assembly)
    (hsound : assembly.Sound schema outputs) (hschema : source.schema session.files = .ok schema)
    {e : Error} (he : e.IsMismatch) (hread : source.read session.files session.spent ≠ .error e) :
    ((ofTransforms source ts options).run session).1 ≠ .error e ∧
      (∀ c collector, Collection.openOn assembly.schema c = .ok collector →
        ((ofTransforms source ts options).runWith (.collect c) session).1 ≠ .error e) ∧
      ∀ it opened k, (ofTransforms source ts options).iterate session = (.ok it, opened) →
        some (.error e) ∉ (it.2.ask k opened).1 := by
  -- whatever reading the source meets is another error
  have hsource : FailsWith (· ≠ e) (source.read session.files session.spent) :=
    fun _ hfails he => hread (he ▸ hfails)
  refine ⟨fun hfails => ?_, fun c collector hc hfails => ?_, fun it opened k hit hmem => ?_⟩
  · have hassembly : (ofTransforms source ts options).assembly session.fresh session.files =
        .ok (schema.width, assembly) := assembly_ofTransforms h hschema
    exact (run_within hassembly hsound hschema hsource).1 e hfails he rfl
  · exact (runWith_within h hsound hschema hsource hc).1 e hfails he rfl
  · have hanswer := (sound_of_iterate h hsound hschema hsource hit).ask k opened _ hmem
    exact (hanswer _ rfl).1 e rfl he rfl

/-- **Widths are kept.** Transforms that open on a schema lead from it through schemas, whose names
    are distinct if those of the first schema are. Whatever rows of its width are handed to the
    chain of their stages, each stage hands on rows of the width of the next schema, and neither the
    stages nor a collector behind them ever find a mismatch. So no run over a source of the schema
    meets a mismatch but those of reading the source itself, a reader gets rows of the width of the
    last schema, and a table that is collected has this schema. -/
theorem widths_kept {entropy : Entropy} {schema : Schema} {ts : List Transform}
    {assembly : Assembly Stage Collector}
    (h : assemble entropy 0 schema (ts.map Step.transform) = .ok assembly) :
    ∃ outputs, Transform.outputs entropy schema ts = .ok outputs ∧
      assembly.schema = outputs.getLastD schema ∧
      (schema.names.Nodup → ∀ output ∈ outputs, output.names.Nodup) ∧
      (∀ {ω τ : Type} [Consumer ω τ] (terminal : τ) (requests : List (Request ω)),
        (∀ request ∈ requests, request.Hands (·.length = schema.width)) →
        let chain := serve requests (Chain.connect assembly.producers terminal)
        let watched := serve requests (WatchedChain.connect assembly.producers terminal)
        chain = (watched.1, WatchedChain.forget _ watched.2) ∧
        List.Forall₂ (fun output rows => ∀ row ∈ rows, row.length = output.width) outputs
          (WatchedChain.passedOn _ watched.2)) ∧
      (∀ c collector, Collection.openOn assembly.schema c = .ok collector →
        ∀ requests : List (Request Files),
          (∀ request ∈ requests, request.Hands (·.length = schema.width)) →
          ∀ call ∈ (serve requests (Chain.connect assembly.producers collector)).1,
            ¬ call.IsMismatch) ∧
      ∀ {α : Type} (source : Source) (options : Options α) (session : Session α),
        source.schema session.files = .ok schema →
        let pipeline := ofTransforms source ts options
        pipeline.outputSchema session.fresh session.files = .ok assembly.schema ∧
        (∀ e : Error, e.IsMismatch → source.read session.files session.spent ≠ .error e →
          (pipeline.run session).1 ≠ .error e ∧
          (∀ c collector, Collection.openOn assembly.schema c = .ok collector →
            (pipeline.runWith (.collect c) session).1 ≠ .error e) ∧
          ∀ it opened k, pipeline.iterate session = (.ok it, opened) →
            some (.error e) ∉ (it.2.ask k opened).1) ∧
        (∀ it opened k row, pipeline.iterate session = (.ok it, opened) →
          some (.ok row) ∈ (it.2.ask k opened).1 → row.length = assembly.schema.width) ∧
        ∀ table, (pipeline.toTable session).1 = .ok table →
          table.schema = assembly.schema ∧
            ∀ values ∈ table.rows, values.length = assembly.schema.width := by
  obtain ⟨outputs, houtputs, hsound, hnames⟩ := Transform.outputs_of_assemble h
  refine ⟨outputs, houtputs, hsound.schema, hnames, fun {ω τ} _ terminal requests hrequests => ?_,
    fun c collector hc requests hrequests => ?_, fun {α} source options session hschema => ?_⟩
  · exact ⟨WatchedChain.serve_connect assembly.producers terminal requests,
      WatchedChain.passedOn_serve hsound.along terminal hrequests⟩
  · exact not_isMismatch_serve hsound hc hrequests
  · -- a run opens the transforms on a tape of its own, and they lead to the same schema
    obtain ⟨own, hown, hsame⟩ := exists_assemble_of_assemble h session.fresh
    obtain ⟨_, -, hownSound, -⟩ := Transform.outputs_of_assemble hown
    rw [← hsame]
    refine ⟨?_, fun e he => ?_, ?_, fun table htable => ?_⟩
    · exact bind_eq_ok_iff.2 ⟨_, assembly_ofTransforms hown hschema, rfl⟩
    · exact ne_mismatch_of_read hown hownSound hschema he
    · intro it opened k row hit hmem
      have hsource : FailsWith (fun _ => True) (source.read session.files session.spent) :=
        fun _ _ => trivial
      have hanswer := (sound_of_iterate hown hownSound hschema hsource hit).ask k opened _ hmem
      rw [hownSound.schema]
      exact (hanswer _ rfl).2 row rfl
    · exact suits_of_toTable hown hownSound hschema htable

/-- Scores with names. -/
def scores : Table :=
  ⟨⟨[⟨"score", .int64⟩, ⟨"name", .utf8⟩]⟩, [[.int64 1, .utf8 "a"], [.int64 2, .utf8 "b"]]⟩

/-- Names come first, scores are called points, and there is room for notes. -/
def presentation : List Transform :=
  [.move [.name "name"] 0, .rename [.name "score"] ["points"], .insert ["note"] none []]

/-- All schemas of the presentation have distinct names, and the table has the last of them. -/
theorem presentation_fits :
    ∃ outputs table, Transform.outputs (.seeded 0) scores.schema presentation = .ok outputs ∧
      (∀ output ∈ outputs, output.names.Nodup) ∧
      ((ofTransforms (.table scores) presentation .unobserved).toTable (.start .empty ())).1 =
        .ok table ∧
      table.schema = outputs.getLastD scores.schema ∧
      table.rows = [[.utf8 "a", .int64 1, .null], [.utf8 "b", .int64 2, .null]] ∧
      table.schema.names = ["name", "points", "note"] := by
  have h : assemble (.seeded 0) 0 scores.schema (presentation.map Step.transform) =
      .ok ⟨[.each (.project 2 [1, 0]), .each .keep, .each (.insert 2 2 (.nulls 1))], none,
        ⟨[⟨"name", .utf8⟩, ⟨"points", .int64⟩, ⟨"note", .utf8⟩]⟩⟩ := rfl
  have htable : ((ofTransforms (.table scores) presentation .unobserved).toTable
      (.start .empty ())).1 =
        .ok ⟨⟨[⟨"name", .utf8⟩, ⟨"points", .int64⟩, ⟨"note", .utf8⟩]⟩,
          [[.utf8 "a", .int64 1, .null], [.utf8 "b", .int64 2, .null]]⟩ := rfl
  obtain ⟨outputs, houtputs, hlast, hnames, -, -, hruns⟩ := widths_kept h
  obtain ⟨-, -, -, hsame⟩ := hruns (.table scores) .unobserved (.start .empty ()) rfl
  refine ⟨outputs, _, houtputs, hnames (by decide), htable, ?_, rfl, rfl⟩
  exact (hsame _ htable).1.trans hlast

end Pipeline

end

end RowFlow
