import RowFlow.Proofs.Pipeline.Ties

/-!
# What Observers Are Told

Observers are told of a run by notices. Which notices these are does not depend on who listens: a
run whose observer records them and a run with any other observer in its place give the same result
and do the same to the session, and the log of the other observer is what it makes of the recorded
notices (`Pipeline.run_recorded`, `RowIterator.next_recorded`). So what is said of the notices of a
run is said for every observer.
-/

namespace RowFlow

variable {α : Type}

/-! ## Notices -/

/-- What an observer is told. -/
inductive Notice where
  | event (event : Event)
  | failure (severity : Severity) (error : Error)
  | alert (severity : Severity) (error : Error)
  deriving DecidableEq

/-- What is told of a failure, and to whom: an alert is raised from some severity on. -/
def Notice.ofFailure (alertAt : Severity) (error : Error) : List Notice :=
  let severity := Severity.ofError error
  [.event (.failed severity error), .failure severity error] ++
    if alertAt.level ≤ severity.level then [.alert severity error] else []

/-- An observer is told something. -/
def Observer.hear (observer : Observer α) : Notice → α → α
  | .event event => observer.onEvent event
  | .failure severity error => observer.onFailure severity error
  | .alert severity error => observer.onAlert severity error

/-- The observer, if there is one, is told some notices one after another. -/
def Options.hear (options : Options α) (notices : List Notice) (log : α) : α :=
  match options.observer with
  | some observer => notices.foldl (fun log notice => observer.hear notice log) log
  | none => log

/-- What is heard first is heard first. -/
theorem Options.hear_append (options : Options α) (notices more : List Notice) (log : α) :
    options.hear (notices ++ more) log = options.hear more (options.hear notices log) := by
  unfold hear
  cases options.observer with
  | none => rfl
  | some observer => exact List.foldl_append

/-- Nothing heard leaves the log. -/
@[simp]
theorem Options.hear_nil (options : Options α) (log : α) : options.hear [] log = log := by
  unfold hear
  cases options.observer <;> rfl

namespace Session

/-- Tells the observer some notices. -/
def notify (options : Options α) (notices : List Notice) (session : Session α) : Session α :=
  { session with log := options.hear notices session.log }

variable (options : Options α) (session : Session α)

/-- Reporting an event is a notice. -/
theorem report_eq (event : Event) :
    session.report options event = session.notify options [.event event] := by
  simp only [report, tell, notify, Options.hear]
  cases options.observer <;> rfl

/-- A failure is counted, and the observer is told of it. -/
theorem fail_eq (error : Error) :
    session.fail options error =
      (session.count fun c => { c with failedRuns := c.failedRuns + 1 }).notify options
        (Notice.ofFailure options.alertAt error) := by
  simp only [fail, report, tell, notify, Options.hear, Notice.ofFailure]
  -- without an observer both sides leave the log, whatever the severity
  cases options.observer with
  | none => simp only [ite_self]
  | some observer => split <;> rfl

/-- A started run is counted and told. -/
theorem startRun_eq :
    session.startRun options =
      (session.count fun c => { c with runs := c.runs + 1 }).notify options [.event .started] :=
  report_eq options _ _

/-- A finished run is told with the counters that it reached. -/
theorem succeed_eq :
    session.succeed options = session.notify options [.event (.finished session.counters)] :=
  report_eq options session _

end Session

/-! ## Records -/

/-- An observer that keeps what it is told. -/
def Observer.recorder : Observer (List Notice) where
  onEvent event log := log ++ [.event event]
  onFailure severity error log := log ++ [.failure severity error]
  onAlert severity error log := log ++ [.alert severity error]

/-- Options under which notices are recorded instead. -/
def Options.recorded (options : Options α) : Options (List Notice) :=
  ⟨some .recorder, options.alertAt⟩

/-- Recording puts notices behind the log, in order. -/
theorem Options.hear_recorded (options : Options α) (notices log : List Notice) :
    options.recorded.hear notices log = log ++ notices := by
  have hstep (notice : Notice) (log : List Notice) :
      Observer.recorder.hear notice log = log ++ [notice] := by cases notice <;> rfl
  simp only [hear, recorded, hstep]
  -- the log grows with every notice, so it is generalized
  induction notices generalizing log with
  | nil => exact (List.append_nil log).symm
  | cons notice notices ih =>
    rw [List.foldl_cons, ih, List.append_assoc, List.singleton_append]

/-- The session with an empty record. -/
def Session.recorded (session : Session α) : Session (List Notice) :=
  ⟨session.files, session.counters, session.spent, [], session.entropy⟩

/-- The session in which an observer with some log has been told what is recorded. -/
def Session.heardBy (options : Options α) (log : α) (session : Session (List Notice)) : Session α :=
  ⟨session.files, session.counters, session.spent, options.hear session.log log, session.entropy⟩

/-- The pipeline under an observer that records. -/
def Pipeline.recorded {ι : Type} (pipeline : Pipeline ι α) : Pipeline ι (List Notice) :=
  pipeline.under pipeline.options.recorded

/-- The reader of a recorded run. -/
def RowIterator.recorded {π : Type} {n : Nat} (it : RowIterator π α n) :
    RowIterator π (List Notice) n :=
  it.under it.options.recorded

namespace Session

variable (options : Options α) (log : α) (session : Session (List Notice))

/-- An empty record leaves the session as it was. -/
theorem heardBy_recorded (session : Session α) :
    session.recorded.heardBy options session.log = session := by
  simp only [heardBy, recorded, Options.hear_nil]

/-- Counting does not look at the log. -/
theorem count_heardBy (f : Counters → Counters) :
    (session.heardBy options log).count f = (session.count f).heardBy options log :=
  rfl

/-- Notices that are recorded are told. -/
theorem notify_heardBy (notices : List Notice) :
    (session.heardBy options log).notify options notices =
      (session.notify options.recorded notices).heardBy options log := by
  simp only [heardBy, notify, Options.hear_recorded, Options.hear_append]

/-- Reports that are recorded are told. -/
theorem report_heardBy (event : Event) :
    (session.heardBy options log).report options event =
      (session.report options.recorded event).heardBy options log := by
  simp only [report_eq, notify_heardBy]

/-- The end of a run that is recorded is told. -/
theorem succeed_heardBy :
    (session.heardBy options log).succeed options =
      (session.succeed options.recorded).heardBy options log :=
  report_heardBy options log _ _

/-- Failures that are recorded are told. -/
theorem fail_heardBy (error : Error) :
    (session.heardBy options log).fail options error =
      (session.fail options.recorded error).heardBy options log := by
  rw [fail_eq, fail_eq, count_heardBy, notify_heardBy]
  rfl

end Session

/-! ## Runs that are recorded -/

/-- A session, and one whose notices are recorded and are told to the observer of the first. -/
def Overheard (options : Options α) (log : α) (w : Session α) (w' : Session (List Notice)) : Prop :=
  w = w'.heardBy options log

/-- A session is overheard from its start. -/
theorem overheard_recorded (options : Options α) (session : Session α) :
    Overheard options session.log session session.recorded :=
  (Session.heardBy_recorded options session).symm

/-- Runs do not look at the log. -/
theorem tie_overheard (options : Options α) (log : α) :
    Session.Tie options options.recorded (Overheard options log) where
  files h := congrArg Session.files h
  spent h := congrArg Session.spent h
  fresh h := congrArg Session.fresh h
  -- the log is not counted, and only the notices differ between the two sides
  count _ h := congrArg (Session.count _) h
  report event h := h ▸ Session.report_heardBy options log _ event
  succeed h := h ▸ Session.succeed_heardBy options log _
  fail error h := h ▸ Session.fail_heardBy options log _ error
  use _ _ h := h ▸ rfl

namespace Pipeline

variable {ι π κ : Type} [StepKind ι π κ] (pipeline : Pipeline ι α) (session : Session α)

/-- A run gives the result of the recorded run, and its observer hears the record. -/
theorem run_recorded [Producer π] [Consumer Files κ] :
    pipeline.run session =
      ((pipeline.recorded.run session.recorded).1,
        (pipeline.recorded.run session.recorded).2.heardBy pipeline.options session.log) := by
  -- the recorded run is the same run, by the tie, up to what the log is
  obtain ⟨result, w₁, w₁', hrun, hrecorded, rfl⟩ :=
    run_tied (tie_overheard pipeline.options session.log)
      (overheard_recorded pipeline.options session)
  rw [recorded, hrun, hrecorded]

/-- A reader stands in front of the same run as the reader of the recorded run. -/
theorem iterate_recorded :
    pipeline.iterate session =
      ((pipeline.recorded.iterate session.recorded).1.map
          (fun it => ⟨it.1, it.2.under pipeline.options⟩),
        (pipeline.recorded.iterate session.recorded).2.heardBy pipeline.options session.log) := by
  obtain ⟨result, w₁, w₁', hiterate, hrecorded, hown, rfl⟩ :=
    iterate_tied (tie_overheard pipeline.options session.log)
      (overheard_recorded pipeline.options session)
  rw [recorded, hiterate, hrecorded]
  -- the reader keeps the options it was asked for with, which are all that differ
  cases result with
  | error e => rfl
  | ok it =>
    obtain ⟨n, own, width, items, chain, pulled, waiting⟩ := it
    obtain rfl : own = pipeline.options := hown _ rfl
    rfl

end Pipeline

/-- A reader answers as the reader of the recorded run does, and its observer hears the record. -/
theorem RowIterator.next_recorded {π : Type} {n : Nat} [Producer π] (it : RowIterator π α n)
    (session : Session α) :
    it.next session =
      ((it.recorded.next session.recorded).1,
        (it.recorded.next session.recorded).2.1.under it.options,
        (it.recorded.next session.recorded).2.2.heardBy it.options session.log) := by
  obtain ⟨hanswer, hafter, hown, hsession⟩ := next_tied (tie_overheard it.options session.log) rfl
    (overheard_recorded it.options session)
  rw [recorded, ← hanswer, ← hafter, ← hsession]
  -- the answers agree, and the reader differs in its options alone
  exact Prod.ext rfl (Prod.ext (congrArg (RowIterator.under · (it.next session).2.1) hown) rfl)

/-! ## Notices of runs and readers -/

/-- What a run tells its observer. -/
def Pipeline.notices {ι π κ : Type} [StepKind ι π κ] [Producer π] [Consumer Files κ]
    (pipeline : Pipeline ι α) (session : Session α) : List Notice :=
  (pipeline.recorded.run session.recorded).2.log

/-- What is told of a run when its reader is started. -/
def Pipeline.openingNotices {ι π κ : Type} [StepKind ι π κ] [Producer π]
    (pipeline : Pipeline ι α) (session : Session α) : List Notice :=
  (pipeline.recorded.iterate session.recorded).2.log

/-- What a reader tells its observer when it is asked for a row. -/
def RowIterator.notices {π : Type} {n : Nat} [Producer π] (it : RowIterator π α n)
    (session : Session α) : List Notice :=
  (it.recorded.next session.recorded).2.2.log

section
variable {ι π κ : Type} [StepKind ι π κ] [Producer π]

/-- A run leaves its notices with the observer. -/
theorem Pipeline.log_run [Consumer Files κ] (pipeline : Pipeline ι α) (session : Session α) :
    (pipeline.run session).2.log =
      pipeline.options.hear (pipeline.notices session) session.log := by
  rw [run_recorded]
  rfl

/-- Starting a reader leaves its notices with the observer. -/
theorem Pipeline.log_iterate (pipeline : Pipeline ι α) (session : Session α) :
    (pipeline.iterate session).2.log =
      pipeline.options.hear (pipeline.openingNotices session) session.log := by
  rw [iterate_recorded]
  rfl

/-- Asking a reader for a row leaves its notices with the observer. -/
theorem RowIterator.log_next {n : Nat} (it : RowIterator π α n) (session : Session α) :
    (it.next session).2.2.log = it.options.hear (it.notices session) session.log := by
  rw [next_recorded]
  rfl

end

end RowFlow
