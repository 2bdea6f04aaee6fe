import RowFlow.Pipeline.Iterator
import RowFlow.Proofs.Pipeline.Opening

/-!
# How Runs Begin

A run opens the steps and then the source, whether it collects its rows or has a reader. It fails in
the first, or in the second, or goes on to push rows; what it has done to the session by then is
said here once for each of the three cases.
-/

namespace RowFlow

variable {ι π κ α : Type} [StepKind ι π κ]

/-- The chain of an assembly, in front of its collector or of one that makes a table. -/
def Assembly.chain (ι : Type) {π κ : Type} [StepKind ι π κ] (assembly : Assembly π κ) :
    Chain π (Guarded (Metered κ)) assembly.producers.length :=
  Chain.connect assembly.producers (Guarded.start ⟨assembly.collector.getD
    (StepKind.ofCollector ι (.table assembly.schema []))⟩)

/-- The reader of a run that is about to pull its first row. -/
def RowIterator.start (options : Options α) (width : Nat) (producers : List π)
    (items : List (Except Error Row)) : RowIterator π α producers.length :=
  ⟨options, width, items, some (Chain.connect producers (Guarded.start ⟨⟨[]⟩⟩)), 0, []⟩

namespace Pipeline

/-- The session of a run that has opened the steps, and then the source or tried to. -/
def begun (pipeline : Pipeline ι α) (steps : Nat) (schema : Schema) (session : Session α) :
    Session α :=
  { (session.startRun pipeline.options).report pipeline.options (.opened steps schema) with
    spent := (pipeline.source.openOn session.files session.spent).2 }

section
variable {pipeline : Pipeline ι α} {session : Session α} {steps width : Nat} {schema : Schema}

/-- Opening changes no files. -/
@[simp]
theorem files_begun : (pipeline.begun steps schema session).files = session.files := by
  simp only [begun, Session.files_report, Session.files_startRun]

/-- The source has been tried. -/
@[simp]
theorem spent_begun : (pipeline.begun steps schema session).spent =
    (pipeline.source.openOn session.files session.spent).2 :=
  rfl

/-- Opening leaves the tapes, of which each run has its own. -/
@[simp]
theorem entropy_begun : (pipeline.begun steps schema session).entropy = session.entropy := by
  simp only [begun, Session.entropy_report, Session.entropy_startRun]

/-- The source is opened in the session that the steps leave. -/
theorem openIn_begun :
    pipeline.source.openIn
        ((session.startRun pipeline.options).report pipeline.options (.opened steps schema)) =
      ((pipeline.source.openOn session.files session.spent).1,
        pipeline.begun steps schema session) := by
  simp only [Source.openIn, begun, Session.files_report, Session.files_startRun,
    Session.spent_report, Session.spent_startRun]

/-- A reader stands behind the assembly of a pipeline that has no collector. -/
theorem assembly_of_openForReader {entropy : Entropy} {files : Files} {producers : List π}
    (h : pipeline.openForReader entropy files = .ok (width, producers, schema)) :
    pipeline.assembly entropy files = .ok (width, ⟨producers, none, schema⟩) := by
  obtain ⟨⟨_, assembled, collector, _⟩, hassembly, h⟩ := bind_eq_ok_iff.1 h
  -- a collector would stand where the reader is
  cases collector with
  | some collector => cases h
  | none =>
    cases h
    exact hassembly

/-! ## Runs into a collector -/

section
variable [Producer π] [Consumer Files κ] {assembly : Assembly π κ}

/-- A run whose steps do not open fails before it touches the source. -/
theorem run_of_not_assembled {e : Error}
    (h : (pipeline.assembly session.fresh session.files : Except Error (Nat × Assembly π κ)) =
      .error e) :
    pipeline.run session =
      (.error e, (session.startRun pipeline.options).fail pipeline.options e) := by
  simp only [run, execute, Session.files_startRun, h, Session.closeRun]

variable (h : pipeline.assembly session.fresh session.files = .ok (width, assembly))
include h

/-- A run whose source does not open fails after its steps have been opened. -/
theorem run_of_not_opened {e : Error}
    (hitems : (pipeline.source.openOn session.files session.spent).1 = .error e) :
    pipeline.run session = (.error e,
      (pipeline.begun pipeline.length assembly.schema session).fail pipeline.options e) := by
  simp only [run, execute, Session.files_startRun, h, openIn_begun, hitems, Session.closeRun]

/-- A run whose steps and source are open pushes rows through the chain and ends with what comes of
    it. -/
theorem run_of_opened {items : List (Except Error Row)}
    (hitems : (pipeline.source.openOn session.files session.spent).1 = .ok items) :
    pipeline.run session =
      match pushAndClose pipeline.options width items (assembly.chain ι)
        (pipeline.begun pipeline.length assembly.schema session) with
      | (result, session) => (result, session.closeRun pipeline.options result) := by
  simp only [run, execute, Session.files_startRun, h, openIn_begun, hitems]
  rfl

end

/-! ## Runs with a reader -/

section
variable {producers : List π}

/-- A reader is refused if the steps do not open, -/
theorem iterate_of_not_assembled {e : Error}
    (h : (pipeline.openForReader session.fresh session.files :
      Except Error (Nat × List π × Schema)) = .error e) :
    pipeline.iterate session =
      (.error e, (session.startRun pipeline.options).fail pipeline.options e) := by
  simp only [iterate, openIterator, Session.files_startRun, h]

variable (h : pipeline.openForReader session.fresh session.files = .ok (width, producers, schema))
include h

/-- or if the source does not. -/
theorem iterate_of_not_opened {e : Error}
    (hitems : (pipeline.source.openOn session.files session.spent).1 = .error e) :
    pipeline.iterate session = (.error e,
      (pipeline.begun (pipeline.length + 1) schema session).fail pipeline.options e) := by
  simp only [iterate, openIterator, Session.files_startRun, h, openIn_begun, hitems]

/-- Otherwise the reader stands at the beginning of the source. -/
theorem iterate_of_opened {items : List (Except Error Row)}
    (hitems : (pipeline.source.openOn session.files session.spent).1 = .ok items) :
    pipeline.iterate session =
      (.ok ⟨_, RowIterator.start pipeline.options width producers items⟩,
        pipeline.begun (pipeline.length + 1) schema session) := by
  simp only [iterate, openIterator, Session.files_startRun, h, openIn_begun, hitems]
  rfl

end

end

end Pipeline

end RowFlow
