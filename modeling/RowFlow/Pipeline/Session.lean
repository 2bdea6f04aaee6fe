import RowFlow.Chain.Consumer
import RowFlow.Files
import RowFlow.Pipeline.Observer
import RowFlow.Random.Entropy

/-!
# Sessions

What outlives a run: files, counters, the log of the observer, whether a one-shot source has been
read, and what the operating system has in store for runs that ask it for generators. Runs start and
end here, so that every run is counted and reported in the same way.
-/

namespace RowFlow

/-- The surroundings of runs. -/
structure Session (α : Type) where
  files : Files
  counters : Counters
  /-- a source that can be read once has been read -/
  spent : Bool
  log : α
  /-- the tape that each run reads generators from, by the number of runs before it -/
  entropy : Nat → Entropy

namespace Session

variable {α : Type}

/-- A session before its first run, with tapes that have nothing in common. -/
def start (files : Files) (log : α) : Session α :=
  ⟨files, .zero, false, log, fun run => .seeded (run * 2 ^ 32)⟩

/-- The tape of the next run. -/
def fresh (session : Session α) : Entropy := session.entropy session.counters.runs

/-- Changes the counters. -/
def count (f : Counters → Counters) (session : Session α) : Session α :=
  { session with counters := f session.counters }

/-- Changes the log, if there is an observer. -/
def tell (options : Options α) (f : Observer α → α → α) (session : Session α) : Session α :=
  match options.observer with
  | some observer => { session with log := f observer session.log }
  | none => session

/-- Reports an event. -/
def report (options : Options α) (event : Event) (session : Session α) : Session α :=
  session.tell options fun observer => observer.onEvent event

/-! ## Start and end of runs -/

/-- Counts and reports a run that begins. -/
def startRun (options : Options α) (session : Session α) : Session α :=
  (session.count fun c => { c with runs := c.runs + 1 }).report options .started

/-- Reports a run that ended well. -/
def succeed (options : Options α) (session : Session α) : Session α :=
  session.report options (.finished session.counters)

/-- Counts and reports a run that failed. -/
def fail (options : Options α) (error : Error) (session : Session α) : Session α :=
  let severity := Severity.ofError error
  let session := session.count fun c => { c with failedRuns := c.failedRuns + 1 }
  -- every failure is told three times: as an event, as a failure, and as an alert if it is grave
  let session := session.report options (.failed severity error)
  let session := session.tell options fun observer => observer.onFailure severity error
  if options.alertAt.level ≤ severity.level then
    session.tell options fun observer => observer.onAlert severity error
  else session

/-- Reports the end of a run. -/
def closeRun {β : Type} (options : Options α) (result : Except Error β) (session : Session α) :
    Session α :=
  match result with
  | .ok _ => session.succeed options
  | .error error => session.fail options error

end Session

/-! ## Ends of chains -/

/-- A collector in a session, which counts the rows that reach it. -/
structure Metered (κ : Type) where
  inner : κ

instance {α κ : Type} [Consumer Files κ] : Consumer (Session α) (Metered κ) where
  consume row collector session :=
    let session := session.count fun c => { c with rowsCollected := c.rowsCollected + 1 }
    let (answer, inner, files) := Consumer.consume row collector.inner session.files
    (answer, ⟨inner⟩, { session with files })
  close collector session :=
    let (result, inner, files) := Consumer.close collector.inner session.files
    (result, ⟨inner⟩, { session with files })

/-- A collector that holds rows until they are fetched. -/
structure Outbox where
  rows : List Row

instance {ω : Type} : Consumer ω Outbox where
  consume row outbox world := (.ok .more, ⟨outbox.rows ++ [row]⟩, world)
  close outbox world := (.ok none, outbox, world)

end RowFlow
