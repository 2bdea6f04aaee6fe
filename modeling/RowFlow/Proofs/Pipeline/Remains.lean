import RowFlow.Proofs.Chain.Kept
import RowFlow.Proofs.Pipeline.Protocol
import RowFlow.Proofs.Pipeline.Written
import RowFlow.Proofs.Step.Hosts

/-!
# What a Run Leaves in Its File

A run that ends in a CSV file may fail anywhere: before its chain is open, at a row of the source,
in a step, or when rows that were held back are drained. Whatever happens, the file holds the header
and a record for each row that the writer has taken, and it has not been touched if there is none
and the run has failed (`Pipeline.run_leaves_accepted`). The rows taken are all that the writer has
been handed if the run succeeds and no producer hides a failure, as no stage does
(`Stage.relaying`).
-/

namespace RowFlow

/-! ## Rows that are taken -/

/-- The row that a call hands over, if it is taken. -/
def Call.taken? : Call → Option Row
  | .consume row (.ok _) => some row
  | _ => none

/-- The rows that a consumer has taken. -/
def Recorded.accepted {σ : Type} (s : Recorded σ) : List Row := s.calls.filterMap Call.taken?

namespace Recorded

variable {ω σ : Type} [Consumer ω σ] {row : Row} {s : Recorded σ} {w : ω}

theorem accepted_of_ok {flow : Flow} (h : (Consumer.consume row s w).1 = .ok flow) :
    (Consumer.consume row s w).2.1.accepted = s.accepted ++ [row] := by
  rw [accepted, calls_consume, List.filterMap_append, h]
  rfl

/-- A row that is refused is not. -/
theorem accepted_of_error {e : Error} (h : (Consumer.consume row s w).1 = .error e) :
    (Consumer.consume row s w).2.1.accepted = s.accepted := by
  rw [accepted, calls_consume, List.filterMap_append, h]
  exact List.append_nil _

/-- Closing takes no row. -/
theorem accepted_close (s : Recorded σ) (w : ω) :
    (Consumer.close s w).2.1.accepted = s.accepted := by
  rw [accepted, calls_close, List.filterMap_append]
  exact List.append_nil _

end Recorded

/-! ## Contents -/

namespace Csv.Dialect

/-- What stands in a file for a value. -/
def cell (dialect : Dialect) (v : Value) : String := if v = .null then dialect.nullText else v.text

/-- The line of a record. -/
def record (dialect : Dialect) (cells : List String) : List UInt8 :=
  writeRecord dialect.delimiter (cells.map Utf8.encode)

/-- The header, if the dialect has one. -/
def headerOf (dialect : Dialect) (schema : Schema) : List UInt8 :=
  if dialect.hasHeaders then dialect.record schema.names else []

/-- A file of rows: the header, if the dialect has one, and a record for each row. -/
def fileOf (dialect : Dialect) (schema : Schema) (rows : List Row) : List UInt8 :=
  dialect.headerOf schema ++ rows.flatMap fun row => dialect.record (row.values.map dialect.cell)

end Csv.Dialect

/-- A writer writes values as its dialect does. -/
theorem FileWriter.cell_start (schema : Schema) (path : String) (dialect : Csv.Dialect) :
    (start schema path dialect).cell = dialect.cell := by
  funext v
  by_cases hnull : v = .null
  · rw [hnull]
    rfl
  · rw [cell_of_ne_null _ hnull, Csv.Dialect.cell, if_neg hnull]

/-- A file of rows is what the writer makes of them. -/
theorem FileWriter.content_start (schema : Schema) (path : String) (dialect : Csv.Dialect)
    (rows : List Row) :
    (start schema path dialect).content (rows.map Row.values) = dialect.fileOf schema rows := by
  -- the header is a record of names, or there is none
  have hheader : (start schema path dialect).header.toList.flatMap dialect.record =
      dialect.headerOf schema := by
    simp only [start, Csv.Dialect.headerOf]
    cases dialect.hasHeaders with
    | false => rfl
    | true => exact List.flatMap_singleton _ _
  rw [Csv.Dialect.fileOf, ← hheader, content, lines, cell_start, Csv.writeTexts,
    List.flatMap_append, List.map_map, List.flatMap_map]
  rfl

/-- The files after some rows: untouched before the first, then with a file of these rows. -/
theorem FileWriter.filesAfter_start (schema : Schema) (path : String) (dialect : Csv.Dialect)
    (rows : List Row) (files : Files) :
    (start schema path dialect).filesAfter (rows.map Row.values) files =
      if rows = [] then files else files.write path (dialect.fileOf schema rows) := by
  cases rows with
  | nil => rfl
  | cons row rest => exact congrArg (files.write path) (content_start schema path dialect _)

/-! ## Ends of chains -/

section
variable {π κ α : Type}

/-- A collector that has not been closed, with a property of itself and the files. -/
def AtEnd (K : κ → Files → Prop) (t : Guarded (Metered κ)) (w : Session α) : Prop :=
  t.closed = false ∧ K t.inner.inner w.files

/-- A request to stop is reported, and changes neither the collector nor the files. -/
theorem AtEnd.stopped (options : Options α) {K : κ → Files → Prop} {t : Guarded (Metered κ)}
    {w : Session α} (pulled : Nat) (h : AtEnd K t w) :
    AtEnd K t (w.stopped options pulled) := by
  refine ⟨h.1, ?_⟩
  rw [Session.stopped, Session.files_report]
  exact h.2

variable [Consumer Files κ] {K : κ → Files → Prop}

/-- What rows do not break in a collector they do not break at the end of a chain. -/
theorem KeptByRows.atEnd (hK : KeptByRows K) :
    KeptByRows (AtEnd K : Guarded (Metered κ) → Session α → Prop) := by
  rintro row ⟨⟨collector⟩, closed⟩ w ⟨hopen, h⟩
  obtain rfl : closed = false := hopen
  exact ⟨rfl, hK row h⟩

/-- So it is for rows that are taken. -/
theorem KeptBySuccess.atEnd (hK : KeptBySuccess K) :
    KeptBySuccess (AtEnd K : Guarded (Metered κ) → Session α → Prop) := by
  rintro row ⟨⟨collector⟩, closed⟩ w flow ⟨hopen, h⟩ hanswer
  obtain rfl : closed = false := hopen
  exact ⟨rfl, hK row h hanswer⟩

/-- A collector is closed together with the end that it stands at. -/
theorem AtEnd.close {t t' : Guarded (Metered κ)} {w w' : Session α}
    {result : Except Error (Option Output)} (h : AtEnd K t w)
    (hclose : Consumer.close t w = (result, t', w')) :
    Consumer.close t.inner.inner w.files = (result, t'.inner.inner, w'.files) := by
  obtain ⟨⟨collector⟩, closed⟩ := t
  obtain rfl : closed = false := h.1
  cases hclose
  rfl

end

/-! ## Rows that are pushed -/

section
variable {σ α : Type} [Consumer (Session α) σ] {K : σ → Session α → Prop} (options : Options α)
  (width : Nat)

/-- What only failing rows break is still there when all rows have been pushed. -/
theorem pushAll_kept_of_ok (hK : KeptBySuccess K) (hpulled : ∀ {s w}, K s w → K s w.pulled)
    (hstopped : ∀ {s w} (pulled : Nat), K s w → K s (w.stopped options pulled))
    (items : List (Except Error Row)) (pulled : Nat) {s : σ} {w : Session α} (h : K s w)
    (hresult : (pushAll options width items pulled s w).1 = .ok ()) :
    K (pushAll options width items pulled s w).2.1
      (pushAll options width items pulled s w).2.2 := by
  -- a run that succeeds has had no failing row, item by item
  induction items generalizing pulled s w with
  | nil => exact h
  | cons item rest ih =>
    cases item with
    -- an item without a row fails the run
    | error e => cases hresult
    | ok row =>
      cases hwidth : expectWidth row.values width with
      | error e =>
        simp only [pushAll, pushRow_of_mismatch hwidth] at hresult
        cases hresult
      | ok _ =>
        have hrow : row.length = width := expectWidth_eq_ok_iff.1 hwidth
        have hafter (flow : Flow) (hanswer : (Consumer.consume row s w.pulled).1 = .ok flow) :=
          hK row (hpulled h) hanswer
        rcases hstep : Consumer.consume row s w.pulled with ⟨e | _ | _, s', w'⟩
        all_goals rw [hstep] at hafter
        · simp only [pushAll, pushRow_of_error hrow hstep] at hresult
          cases hresult
        · simp only [pushAll, pushRow_of_more hrow hstep] at hresult ⊢
          exact ih _ (hafter _ rfl) hresult
        · -- a request to stop ends the run well
          simp only [pushAll, pushRow_of_stop hrow hstep]
          exact hstopped _ (hafter _ rfl)

end

section
variable {π κ α : Type} [Producer π] [Consumer Files κ] {K : κ → Files → Prop}
  (options : Options α) (width : Nat) (items : List (Except Error Row)) {n : Nat}
  {c : Chain π (Guarded (Metered κ)) n} {w : Session α}

/-- What no row breaks at the end of a chain is still there when a run fails, or the collector is
    closed with it. -/
theorem pushAndKeep_cases (hK : KeptByRows K) (h : AtEnd K (Chain.terminal n c) w) :
    let after := pushAndKeep options width items (Recorded.start c) w
    let collector := (Chain.terminal n after.2.1.inner).inner.inner
    (∃ e, after.1 = .error e ∧ K collector after.2.2.files) ∨
      ∃ s files, K s files ∧ Consumer.close s files = (after.1, collector, after.2.2.files) := by
  -- rows leave the property at the end of the chain, taken or not
  have hpushed := pushUntil_kept options width
    (I := fun (s : Recorded (Chain π (Guarded (Metered κ)) n)) (w : Session α) =>
      AtEnd K (Chain.terminal n s.inner) w)
    (fun row s w h => Chain.kept_by_rows hK.atEnd n row (s := s.inner) (w := w.pulled) h)
    (fun pulled => AtEnd.stopped options pulled) (fun _ => false) items 0
    (s := Recorded.start c) h
  simp only [pushAndKeep, pushAll_eq]
  generalize pushUntil options width (fun _ => false) items 0 (Recorded.start c) w = pushed
    at hpushed ⊢
  obtain ⟨halt, now, s, v⟩ := pushed
  dsimp only at hpushed ⊢
  cases halt.result with
  | error e => exact .inl ⟨e, rfl, hpushed.2⟩
  | ok _ =>
    -- the collector is closed unless a producer in front fails to drain
    rcases Chain.close_cases hK.atEnd s.inner hpushed with ⟨e, hfailed, hend⟩ | ⟨t, u, hend, hclose⟩
    · exact .inl ⟨e, hfailed, hend.2⟩
    · exact .inr ⟨_, _, hend.2, hend.close hclose⟩

/-- What only failing rows break at the end of a chain is still there when the collector is closed,
    if the run does not fail. -/
theorem pushAndKeep_of_ok (hπ : Relaying π) (hK : KeptBySuccess K)
    (h : AtEnd K (Chain.terminal n c) w) (result : Option Output) :
    let after := pushAndKeep options width items (Recorded.start c) w
    let collector := (Chain.terminal n after.2.1.inner).inner.inner
    after.1 = .ok result →
      ∃ s files, K s files ∧ Consumer.close s files = (after.1, collector, after.2.2.files) := by
  intro after collector hresult
  -- a run that succeeds has seen no failure, and no producer hides one
  have hpushed := pushAll_kept_of_ok options width
    (K := fun (s : Recorded (Chain π (Guarded (Metered κ)) n)) (w : Session α) =>
      AtEnd K (Chain.terminal n s.inner) w)
    (fun row s w flow h => Chain.kept_by_success hπ hK.atEnd n row (s := s.inner) h)
    id (fun pulled => AtEnd.stopped options pulled) items 0 (s := Recorded.start c) h
  simp only [after, collector, pushAndKeep] at hresult ⊢
  generalize pushAll options width items 0 (Recorded.start c) w = pushed at hpushed hresult ⊢
  obtain ⟨e | _, s, v⟩ := pushed
  · cases hresult
  · obtain ⟨t, u, hend, hclose⟩ := Chain.close_of_ok hπ hK.atEnd s.inner (hpushed rfl) hresult
    exact ⟨_, _, hend.2, hend.close hclose⟩

end

/-! ## Writers at the end of a chain -/

/-- A writer and its file as the rows that it has taken have left them. -/
def Writing (ι : Type) {π κ : Type} [StepKind ι π κ] (writer : FileWriter) (files : Files)
    (s : Recorded κ) (now : Files) : Prop :=
  s.inner = StepKind.ofCollector ι (.csvFile (writer.after (s.accepted.map Row.values))) ∧
    now = writer.filesAfter (s.accepted.map Row.values) files

section
variable {writer : FileWriter} (hpath : Files.reaches writer.path = true)
include hpath

/-- A writer takes each row of its width, and leaves alone what it refuses. -/
theorem FileWriter.consume_cases (row : Row) (held : List (List Value)) (files : Files) :
    (∃ e, Consumer.consume row (Collector.csvFile (writer.after held))
        (writer.filesAfter held files) =
      (.error e, .csvFile (writer.after held), writer.filesAfter held files)) ∨
    Consumer.consume row (Collector.csvFile (writer.after held)) (writer.filesAfter held files) =
      (.ok .more, .csvFile (writer.after (held ++ [row.values])),
        writer.filesAfter (held ++ [row.values]) files) := by
  cases hwidth : expectWidth row.values (writer.after held).width with
  -- a row of another width is refused before it is written
  | error e =>
    refine .inl ⟨e, ?_⟩
    simp only [Consumer.consume, Collector.consume, Collector.width?, Option.map_some,
      Option.getD_some, hwidth]
  | ok _ =>
    refine .inr ?_
    simp only [Consumer.consume, Collector.consume, Collector.width?, Option.map_some,
      Option.getD_some, hwidth, Collector.take, put_after hpath]
    rfl

/-- A writer that is closed writes its file, also if it has had no row. -/
theorem FileWriter.close_after (held : List (List Value)) (files : Files) :
    Consumer.close (Collector.csvFile (writer.after held)) (writer.filesAfter held files) =
      (.ok none, .csvFile { writer with created := true },
        files.write writer.path (writer.content held)) := by
  simp only [Consumer.close, Collector.close, create_after hpath]
  rfl

variable {ι π κ : Type} [StepKind ι π κ] [Consumer Files κ] {files : Files}
  (h : ActsAs Files (StepKind.ofCollector ι : Collector → κ))
include h

/-- Rows leave the writer and its file as the rows taken have made them. -/
theorem keptByRows_writing : KeptByRows (Writing ι writer files) := by
  rintro row s w ⟨hinner, rfl⟩
  have hconsume := h.consume row (.csvFile (writer.after (s.accepted.map Row.values)))
    (writer.filesAfter (s.accepted.map Row.values) files)
  rw [← hinner] at hconsume
  rcases FileWriter.consume_cases hpath row (s.accepted.map Row.values) files with
    ⟨e, hcases⟩ | hcases
  all_goals rw [hcases] at hconsume
  -- a refused row is not among the rows taken, and has left the file alone
  · have haccepted := Recorded.accepted_of_error (s := s) (congrArg Prod.fst hconsume)
    refine ⟨?_, ?_⟩
    · rw [haccepted]
      exact congrArg (·.2.1) hconsume
    · rw [haccepted]
      exact congrArg (·.2.2) hconsume
  · have haccepted := Recorded.accepted_of_ok (s := s) (congrArg Prod.fst hconsume)
    rw [Writing, haccepted, List.map_append]
    exact ⟨congrArg (·.2.1) hconsume, congrArg (·.2.2) hconsume⟩

/-- A writer that is closed leaves its file with the rows that it has taken. -/
theorem Writing.close {s s' : Recorded κ} {now after : Files}
    {result : Except Error (Option Output)} (hs : Writing ι writer files s now)
    (hclose : Consumer.close s now = (result, s', after)) :
    result = .ok none ∧
      after = files.write writer.path (writer.content (s'.accepted.map Row.values)) := by
  obtain ⟨hinner, rfl⟩ := hs
  -- the hosted writer is closed as the writer itself
  have hcollector := h.close (.csvFile (writer.after (s.accepted.map Row.values)))
    (writer.filesAfter (s.accepted.map Row.values) files)
  rw [← hinner, FileWriter.close_after hpath] at hcollector
  have haccepted := Recorded.accepted_close s (writer.filesAfter (s.accepted.map Row.values) files)
  rw [hclose] at haccepted
  rw [haccepted]
  have hresult := congrArg Prod.fst hclose
  have hafter := congrArg (·.2.2) hclose
  exact ⟨hresult.symm.trans (congrArg Prod.fst hcollector),
    hafter.symm.trans (congrArg (·.2.2) hcollector)⟩

end

/-! ## Runs into a file -/

/-- The collector at the end of a pipeline is opened on the schema of the rows that reach it. -/
theorem Hosts.collector_of_assemble {ι π κ : Type} [StepKind ι π κ] [Producer π] [Consumer Files κ]
    {stage : Stage → π} (h : Hosts ι stage) {c : Collection} {opened : Schema → Collector}
    (hc : ∀ schema, c.openOn schema = .ok (opened schema)) {position : Nat} {schema : Schema}
    {steps : List ι} {assembly : Assembly π κ} {entropy : Entropy}
    (hassemble : assemble entropy position schema (steps ++ [StepKind.ofStep (.collect c)]) =
      .ok assembly) :
    assembly.collector = some (StepKind.ofCollector ι (opened assembly.schema)) := by
  have hopen (entropy : Entropy) (schema : Schema) :
      (StepKind.openOn entropy schema (StepKind.ofStep (.collect c) : ι)) =
        .ok (.collector (StepKind.ofCollector ι (opened schema))) := by
    rw [h.openOn, Step.openOn, hc]
    rfl
  -- the collector stands behind all steps, which open one after another
  induction steps generalizing entropy position schema assembly with
  | nil =>
    rcases assemble_cons_cases hassemble with
      ⟨state, output, behind, hstep, -, -⟩ | ⟨state, hstep, -, rfl⟩
    all_goals cases (hopen entropy schema).symm.trans hstep
    rfl
  | cons step rest ih =>
    rcases assemble_cons_cases hassemble with
      ⟨state, output, behind, -, hbehind, rfl⟩ | ⟨state, -, hrest, -⟩
    · exact (ih hbehind :)
    · -- a collector in front of it would have nothing behind
      simp at hrest

namespace Pipeline

variable {ι π κ α : Type} [StepKind ι π κ] [Producer π] [Consumer Files κ]

/-- The rows that the collector of a run has taken. -/
def accepted (pipeline : Pipeline ι α) (session : Session α) : List Row :=
  match (pipeline.assembly session.fresh session.files : Except Error (Nat × Assembly π κ)),
    (pipeline.source.openOn session.files session.spent).1 with
  | .ok (width, assembly), .ok items =>
    let (_, head, _) := pushAndKeep pipeline.options width items
      (Recorded.start (assembly.recordedChain ι))
      (pipeline.begun pipeline.length assembly.schema session)
    (Chain.terminal _ head.inner).inner.inner.accepted
  | _, _ => []

/-- The files that a run finds, with some rows of the output schema in a file. -/
def Filled (pipeline : Pipeline ι α) (path : String) (dialect : Csv.Dialect) (rows : List Row)
    (session : Session α) (after : Files) : Prop :=
  ∃ schema, pipeline.outputSchema session.fresh session.files = .ok schema ∧
    after = session.files.write path (dialect.fileOf schema rows)

section
variable {pipeline : Pipeline ι α} {session : Session α} {width : Nat} {assembly : Assembly π κ}
  {items : List (Except Error Row)}
  (hassembly : pipeline.assembly session.fresh session.files = .ok (width, assembly))
  (hitems : (pipeline.source.openOn session.files session.spent).1 = .ok items)
include hassembly hitems

theorem run_of_kept {result : Except Error (Option Output)}
    {head : Recorded (Chain π (Guarded (Metered (Recorded κ))) assembly.producers.length)}
    {after : Session α}
    (hkept : pushAndKeep pipeline.options width items (Recorded.start (assembly.recordedChain ι))
      (pipeline.begun pipeline.length assembly.schema session) = (result, head, after)) :
    (pipeline.run session).1 = result ∧ (pipeline.run session).2.files = after.files ∧
      pipeline.accepted session = (Chain.terminal _ head.inner).inner.inner.accepted ∧
      (pipeline.traffic session).handed = (Chain.terminal _ head.inner).inner.inner.rows := by
  rw [run_of_opened hassembly hitems, assembly.pushAndClose_chain, hkept]
  simp only [accepted, traffic, hassembly, hitems, hkept, Session.files_closeRun, and_self]

/-- A run that has opened its steps and its source leaves the file of its writer as the rows have
    left it that the writer has taken. -/
theorem leaves_of_opened (h : ActsAs Files (StepKind.ofCollector ι : Collector → κ))
    {path : String} (hpath : Files.reaches path = true) {dialect : Csv.Dialect}
    (hcollector : assembly.collector =
      some (StepKind.ofCollector ι (.csvFile (.start assembly.schema path dialect)))) :
    let rows := pipeline.accepted session
    let run := pipeline.run session
    let filled := session.files.write path (dialect.fileOf assembly.schema rows)
    (run.1 = .ok none ∧ run.2.files = filled) ∨
      ∃ e, run.1 = .error e ∧ run.2.files = if rows = [] then session.files else filled := by
  -- before the first row the writer has no file
  have hstart : AtEnd (Writing ι (.start assembly.schema path dialect) session.files)
      (Chain.terminal _ (assembly.recordedChain ι))
      (pipeline.begun pipeline.length assembly.schema session) := by
    rw [Assembly.recordedChain, Chain.terminal_connect, hcollector]
    exact ⟨rfl, rfl, files_begun⟩
  have hcases := pushAndKeep_cases pipeline.options width items (keptByRows_writing hpath h) hstart
  rcases hkept : pushAndKeep pipeline.options width items
    (Recorded.start (assembly.recordedChain ι))
    (pipeline.begun pipeline.length assembly.schema session) with ⟨result, head, after⟩
  obtain ⟨hresult, hfiles, haccepted, -⟩ := run_of_kept hassembly hitems hkept
  rw [hkept] at hcases
  dsimp only at hcases ⊢
  rw [hresult, hfiles, haccepted]
  rcases hcases with ⟨e, he, -, hwritten⟩ | ⟨s, files, hs, hclose⟩
  -- the chain is dropped without being closed
  · rw [FileWriter.filesAfter_start] at hwritten
    exact .inr ⟨e, he, hwritten⟩
  · obtain ⟨hnone, hwritten⟩ := Writing.close hpath h hs hclose
    rw [FileWriter.content_start] at hwritten
    exact .inl ⟨hnone, hwritten⟩

/-- All rows that the collector has been handed have been taken, if a run succeeds whose producers
    hide no failure. -/
theorem accepted_of_ok (hπ : Relaying π) {output : Option Output}
    (h : (pipeline.run session).1 = .ok output) :
    pipeline.accepted session = (pipeline.traffic session).handed := by
  -- rows are taken as they are handed over, until one is refused
  have hK : KeptBySuccess fun (s : Recorded κ) (_ : Files) => s.accepted = s.rows := by
    intro row s w flow hs hanswer
    rw [Recorded.accepted_of_ok hanswer, Recorded.rows_consume, hs]
  have hstart : AtEnd (fun (s : Recorded κ) (_ : Files) => s.accepted = s.rows)
      (Chain.terminal _ (assembly.recordedChain ι))
      (pipeline.begun pipeline.length assembly.schema session) := by
    rw [Assembly.recordedChain, Chain.terminal_connect]
    exact ⟨rfl, rfl⟩
  have hend := pushAndKeep_of_ok pipeline.options width items hπ hK hstart output
  rcases hkept : pushAndKeep pipeline.options width items
    (Recorded.start (assembly.recordedChain ι))
    (pipeline.begun pipeline.length assembly.schema session) with ⟨result, head, after⟩
  obtain ⟨hresult, -, haccepted, hhanded⟩ := run_of_kept hassembly hitems hkept
  rw [hkept] at hend
  obtain ⟨s, files, hs, hclose⟩ := hend (hresult.symm.trans h)
  have hcollector := congrArg (·.2.1) hclose
  dsimp only at hcollector
  rw [haccepted, hhanded, ← hcollector, Recorded.accepted_close, Recorded.rows_close, hs]

end

/-- A run that cannot open its steps or its source takes no row and touches no file. -/
theorem untouched_of_unopened {pipeline : Pipeline ι α} {session : Session α} {e : Error}
    (h : (pipeline.assembly session.fresh session.files : Except Error (Nat × Assembly π κ)) =
        .error e ∨
      ∃ opened : Nat × Assembly π κ, pipeline.assembly session.fresh session.files = .ok opened ∧
        (pipeline.source.openOn session.files session.spent).1 = .error e) :
    pipeline.accepted session = [] ∧ (pipeline.run session).1 = .error e ∧
      (pipeline.run session).2.files = session.files := by
  have hclosed (session : Session α) := Session.files_closeRun pipeline.options
    (.error e : Except Error Unit) session
  rcases h with hassembly | ⟨⟨width, assembly⟩, hassembly, hitems⟩
  · rw [run_of_not_assembled hassembly]
    exact ⟨by simp only [accepted, hassembly], rfl, (hclosed _).trans (Session.files_startRun _ _)⟩
  · rw [run_of_not_opened hassembly hitems]
    exact ⟨by simp only [accepted, hassembly, hitems], rfl, (hclosed _).trans files_begun⟩

section
variable {stage : Stage → π} (h : Hosts ι stage) (pipeline : Pipeline ι α) {path : String}
  (hpath : Files.reaches path = true) (dialect : Csv.Dialect) (session : Session α)
include h hpath

/-- A run into a file succeeds and leaves the rows that its writer has taken, or fails and leaves
    them if there are any. -/
theorem run_writes :
    let writing := pipeline.append (StepKind.ofStep (.collect (.csvFile path dialect)))
    let rows := writing.accepted session
    let run := writing.run session
    (run.1 = .ok none ∧ writing.Filled path dialect rows session run.2.files ∧
      (Relaying π → rows = (writing.traffic session).handed)) ∨
    ∃ e, run.1 = .error e ∧ (rows = [] → run.2.files = session.files) ∧
      (rows ≠ [] → writing.Filled path dialect rows session run.2.files) := by
  intro writing rows run
  have hunopened {e : Error} (hrun : rows = [] ∧ run.1 = .error e ∧ run.2.files = session.files) :
      ∃ e, run.1 = .error e ∧ (rows = [] → run.2.files = session.files) ∧
        (rows ≠ [] → writing.Filled path dialect rows session run.2.files) :=
    ⟨e, hrun.2.1, fun _ => hrun.2.2, fun hany => absurd hrun.1 hany⟩
  rcases hassembly : (writing.assembly session.fresh session.files :
    Except Error (Nat × Assembly π κ)) with e | ⟨width, assembly⟩
  · exact .inr (hunopened (untouched_of_unopened (.inl hassembly)))
  · rcases hitems : (writing.source.openOn session.files session.spent).1 with e | items
    · exact .inr (hunopened (untouched_of_unopened (.inr ⟨_, hassembly, hitems⟩)))
    · obtain ⟨schema, hschema, hassemble, -⟩ := assembly_eq_ok_iff.1 hassembly
      have houtput : writing.outputSchema session.fresh session.files = .ok assembly.schema :=
        bind_eq_ok_iff.2 ⟨_, hassembly, rfl⟩
      rcases leaves_of_opened hassembly hitems h.collects hpath
        (h.collector_of_assemble (fun _ => rfl) hassemble) with
        ⟨hresult, hfiles⟩ | ⟨e, hresult, hfiles⟩
      · exact .inl ⟨hresult, ⟨_, houtput, hfiles⟩,
          fun hπ => accepted_of_ok hassembly hitems hπ hresult⟩
      · refine .inr ⟨e, hresult, fun hnone => ?_, fun hany => ?_⟩
        · rw [hfiles, if_pos hnone]
        · exact ⟨_, houtput, hfiles.trans (if_neg hany)⟩

end

/-- **A file holds the rows that have been taken.** A run that succeeds leaves its file with the
    header, if the dialect has one, and a record for each row that the writer has taken; these are
    all rows that have been collected, if no producer hides a failure. A run that fails leaves the
    same for the rows taken by then, and all files as they were if no row has been. -/
theorem run_leaves_accepted {stage : Stage → π} (h : Hosts ι stage) (pipeline : Pipeline ι α)
    {path : String} (hpath : Files.reaches path = true) (dialect : Csv.Dialect)
    (session : Session α) :
    let writing := pipeline.append (StepKind.ofStep (.collect (.csvFile path dialect)))
    let rows := writing.accepted session
    let run := writing.run session
    (∀ output, run.1 = .ok output → output = none ∧
      writing.Filled path dialect rows session run.2.files ∧
      (Relaying π → rows = (writing.traffic session).handed ∧
        run.2.counters.rowsCollected = session.counters.rowsCollected + rows.length)) ∧
    ∀ e, run.1 = .error e → (rows = [] → run.2.files = session.files) ∧
      (rows ≠ [] → writing.Filled path dialect rows session run.2.files) := by
  intro writing rows run
  obtain ⟨notices, ⟨-, hlogged, -⟩, -⟩ := exists_account writing session
  have hcollected : run.2.counters.rowsCollected =
      session.counters.rowsCollected + (writing.traffic session).handed.length :=
    congrArg Counters.rowsCollected hlogged.counters
  rcases run_writes h pipeline hpath dialect session with
    ⟨hresult, hfilled, hall⟩ | ⟨e, hresult, hleft⟩
  · refine ⟨fun output hended => ⟨?_, hfilled, fun hπ => ⟨hall hπ, ?_⟩⟩, fun e hfailed => ?_⟩
    · exact (Except.ok.inj (hresult.symm.trans hended)).symm
    · rw [hcollected, ← hall hπ]
    · cases hresult.symm.trans hfailed
  · refine ⟨fun output hended => ?_, fun _ _ => hleft⟩
    cases hresult.symm.trans hended

/-- A null that a test refuses comes behind a text that has been written. -/
theorem written_until_refused :
    let remarks : Source := .table ⟨⟨[⟨"remark", .utf8⟩]⟩, [[.utf8 "now"], [.null], [.utf8 "then"]]⟩
    let spoken : Callback := .fallible "spoken" fun v => if v = .null then .error "silent" else
      .ok (.bool true)
    let heard : Pipeline Step Unit :=
      ⟨remarks, [.transform (.filter (.apply spoken (.column (.name "remark"))) false)],
        .unobserved⟩
    let run := (heard.append (.collect (.csvFile "heard.csv" semicolons))).run (.start .empty ())
    Hosts Step id ∧ Files.reaches "heard.csv" = true ∧
      run.1 = .error (.evaluation (.callback "spoken" .null "silent")) ∧
      run.2.files = Files.empty.write "heard.csv" (Utf8.encode "remark\nnow\n") := by
  intro remarks spoken heard run
  have hfailed : run.1 = .error (.evaluation (.callback "spoken" .null "silent")) := rfl
  have hpath : Files.reaches "heard.csv" = true := rfl
  refine ⟨Hosts.self, hpath, hfailed, ?_⟩
  obtain ⟨-, hfails⟩ := run_leaves_accepted Hosts.self heard hpath semicolons (.start .empty ())
  obtain ⟨schema, hschema, hfiles⟩ := (hfails _ hfailed).2 nofun
  obtain rfl := Except.ok.inj hschema
  exact hfiles

end Pipeline

end RowFlow
