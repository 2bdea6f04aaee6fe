import RowFlow.Error

/-!
# Observing Runs

Counters of what runs do, the events they report, and observers, which receive events and failures.
An observer keeps what it learns in a log.
-/

namespace RowFlow

/-! ## Counters -/

/-- What all runs so far have done. -/
structure Counters where
  runs : Nat
  failedRuns : Nat
  /-- rows read from sources -/
  rowsPulled : Nat
  /-- rows that reached a collector -/
  rowsCollected : Nat
  earlyStops : Nat
  deriving DecidableEq, Inhabited

namespace Counters

def zero : Counters := ⟨0, 0, 0, 0, 0⟩

/-- The counters as a line of text. No time is measured. -/
def text (counters : Counters) : String :=
  s!"runs={counters.runs} (failed={counters.failedRuns}), rows_pulled={counters.rowsPulled}, " ++
    s!"rows_collected={counters.rowsCollected}, early_stops={counters.earlyStops}, elapsed=0ns"

end Counters

/-! ## Events -/

/-- An event of a run. -/
inductive Event where
  | started
  /-- all steps are open; rows of the schema reach the collector -/
  | opened (steps : Nat) (schema : Schema)
  /-- a step asked to stop after this run had pulled some rows -/
  | earlyStop (rowsPulled : Nat)
  /-- a run ended well, with the counters of all runs -/
  | finished (counters : Counters)
  | failed (severity : Severity) (error : Error)
  deriving DecidableEq

/-! ## Observers -/

/-- A receiver of events and failures, which keeps a log `α`. -/
structure Observer (α : Type) where
  onEvent : Event → α → α
  onFailure : Severity → Error → α → α
  /-- receives failures that are serious enough, after `onFailure` has -/
  onAlert : Severity → Error → α → α := onFailure

namespace Observer

variable {α : Type}

/-- An observer that keeps nothing. -/
def silent : Observer α where
  onEvent _ log := log
  onFailure _ _ log := log

/-- Observers that receive everything one after another. -/
def composite (observers : List (Observer α)) : Observer α where
  onEvent event log := observers.foldl (fun log o => o.onEvent event log) log
  onFailure severity error log := observers.foldl (fun log o => o.onFailure severity error log) log
  onAlert severity error log := observers.foldl (fun log o => o.onAlert severity error log) log

end Observer

/-- How runs are observed. -/
structure Options (α : Type) where
  observer : Option (Observer α)
  /-- the least severity of a failure that is an alert -/
  alertAt : Severity

namespace Options

/-- Without an observer. -/
def unobserved {α : Type} : Options α := ⟨none, .critical⟩

def outline {α : Type} (options : Options α) : String :=
  Outline.record "PipelineOptions"
    [("observer", Outline.option (options.observer.map fun _ => Text.quoted "<observer>")),
     ("alert_at_or_above", options.alertAt.name)]

end Options

end RowFlow
