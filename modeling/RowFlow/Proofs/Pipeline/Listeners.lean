import RowFlow.Proofs.Pipeline.Interviews

/-!
# Who Hears of a Failure, and How Often

An observer that leaves alerts to the default hears a grave failure twice: as a failure, and as an
alert that is forwarded to the same method. How often `onFailure` is called does not depend on the
composites that the observer stands in, nor on what else they hold. It is called once for a run
that fails, and once more if the failure is an alert and the observer has no method for alerts
(`Pipeline.failure_calls`).
-/

namespace RowFlow

variable {α : Type}

/-! ## Listeners -/

/-- The methods of an observer as they are written; alerts may be left to the default. -/
structure Listener (α : Type) where
  onEvent : Event → α → α
  onFailure : Severity → Error → α → α
  onAlert : Option (Severity → Error → α → α)

/-- Calls of `onFailure`, with the failures that they are about. -/
abbrev FailureCalls := List (Severity × Error)

namespace Listener

/-- The observer with these methods. -/
def observer : Listener α → Observer α
  | ⟨onEvent, onFailure, some onAlert⟩ => { onEvent, onFailure, onAlert }
  | ⟨onEvent, onFailure, none⟩ => { onEvent, onFailure }

/-- The listener with a record of the calls of its `onFailure`. -/
def counted (listener : Listener α) : Listener (α × FailureCalls) where
  onEvent event log := (listener.onEvent event log.1, log.2)
  onFailure severity error log :=
    (listener.onFailure severity error log.1, log.2 ++ [(severity, error)])
  onAlert := listener.onAlert.map fun onAlert severity error log =>
    (onAlert severity error log.1, log.2)

/-- The calls of `onFailure` that a notice leads to. -/
def calls (listener : Listener α) : Notice → FailureCalls
  | .event _ => []
  | .failure severity error => [(severity, error)]
  | .alert severity error => if listener.onAlert.isSome then [] else [(severity, error)]

/-- The calls of `onFailure` for a run that fails with an error. -/
def callsFor (listener : Listener α) (alertAt : Severity) (error : Error) : FailureCalls :=
  let severity := Severity.ofError error
  let forwarded := listener.onAlert.isNone ∧ alertAt.level ≤ severity.level
  List.replicate (if forwarded then 2 else 1) (severity, error)

variable (listener : Listener α)

/-- The record changes nothing for the listener, and holds the calls. -/
theorem hear_counted (notice : Notice) (log : α × FailureCalls) :
    listener.counted.observer.hear notice log =
      (listener.observer.hear notice log.1, log.2 ++ listener.calls notice) := by
  obtain ⟨onEvent, onFailure, _ | onAlert⟩ := listener <;> cases notice <;>
    simp [Observer.hear, observer, counted, calls]

/-- What is told of a failure leads to the calls for it. -/
theorem calls_ofFailure (alertAt : Severity) (error : Error) :
    (Notice.ofFailure alertAt error).flatMap listener.calls = listener.callsFor alertAt error := by
  obtain ⟨onEvent, onFailure, _ | onAlert⟩ := listener <;>
    by_cases halert : alertAt.level ≤ (Severity.ofError error).level <;>
    simp [Notice.ofFailure, calls, callsFor, halert]

theorem calls_ofStop (stopped : Bool) (pulled : Nat) :
    (Notice.ofStop stopped pulled).flatMap listener.calls = [] := by
  cases stopped <;> rfl

theorem calls_notices (alertAt : Severity) (standing : Standing) :
    (standing.notices alertAt).flatMap listener.calls =
      standing.errors.flatMap (listener.callsFor alertAt) := by
  cases standing with
  | underway => rfl
  | finished counters => rfl
  | failed e =>
    rw [Standing.notices, calls_ofFailure, Standing.errors, List.flatMap_singleton]

/-- Nothing but the failure of a run leads to calls. -/
theorem calls_told {alertAt : Severity} {pulled : Nat} {standing : Standing}
    {notices : List Notice} (h : Told alertAt pulled standing notices) :
    notices.flatMap listener.calls = standing.errors.flatMap (listener.callsFor alertAt) := by
  cases h with
  | unopened e =>
    rw [List.flatMap_cons, calls_ofFailure, Standing.errors, List.flatMap_singleton]
    rfl
  | opened steps schema stopped =>
    rw [List.flatMap_cons, List.flatMap_cons, List.flatMap_append, calls_ofStop, calls_notices]
    rfl

end Listener

/-! ## Composites -/

namespace Observer

/-- An observer that does not touch the record of another one's calls. -/
def beside (observer : Observer α) : Observer (α × FailureCalls) where
  onEvent event log := (observer.onEvent event log.1, log.2)
  onFailure severity error log := (observer.onFailure severity error log.1, log.2)
  onAlert severity error log := (observer.onAlert severity error log.1, log.2)

/-- An observer between others in a composite, which may itself stand between others in a composite,
    and so on. -/
def within (observer : Observer α) : List (List (Observer α) × List (Observer α)) → Observer α
  | [] => observer
  | (before, after) :: outer => within (composite (before ++ observer :: after)) outer

variable {observer : Observer α}

/-- A composite tells its observers one after another. -/
theorem hear_composite (observers : List (Observer α)) (notice : Notice) (log : α) :
    (composite observers).hear notice log =
      observers.foldl (fun log observer => observer.hear notice log) log := by
  cases notice <;> rfl

theorem hear_beside (notice : Notice) (log : α × FailureCalls) :
    (beside observer).hear notice log = (observer.hear notice log.1, log.2) := by
  cases notice <;> rfl

theorem hear_all_beside (observers : List (Observer α)) (notice : Notice)
    (log : α × FailureCalls) :
    ((observers.map beside).foldl (fun log observer => observer.hear notice log) log).2 =
      log.2 := by
  induction observers generalizing log with
  | nil => rfl
  | cons observer observers ih => rw [List.map_cons, List.foldl_cons, ih, hear_beside]

end Observer

/-- The others in the composites that an observer stands in, from the innermost one outwards. -/
abbrev Surroundings (α : Type) := List (List (Observer α) × List (Observer α))

namespace Listener

/-- The listener in its surroundings, with a record of its calls. -/
def amid (listener : Listener α) (others : Surroundings α) : Observer (α × FailureCalls) :=
  listener.counted.observer.within
    (others.map fun (before, after) => (before.map .beside, after.map .beside))

variable (listener : Listener α) (others : Surroundings α) (alertAt : Severity)

/-- The surroundings of a listener do not call it. -/
theorem hear_amid (notice : Notice) (log : α × FailureCalls) :
    ((listener.amid others).hear notice log).2 = log.2 ++ listener.calls notice := by
  -- the induction goes outwards, over any observer that records as the listener does
  suffices h : ∀ observer : Observer (α × FailureCalls),
      (∀ log, (observer.hear notice log).2 = log.2 ++ listener.calls notice) →
      ((observer.within (others.map fun (before, after) =>
        (before.map .beside, after.map .beside))).hear notice log).2 =
          log.2 ++ listener.calls notice from
    h _ fun log => congrArg Prod.snd (hear_counted listener notice log)
  induction others with
  | nil => exact fun observer hrecords => hrecords log
  | cons frame outer ih =>
    intro observer hrecords
    refine ih _ fun log => ?_
    -- those before and those behind the observer leave its record alone
    rw [Observer.hear_composite, List.foldl_append, List.foldl_cons, Observer.hear_all_beside,
      hrecords, Observer.hear_all_beside]

/-- How runs are observed by the listener in its surroundings. -/
def options : Options (α × FailureCalls) := ⟨some (listener.amid others), alertAt⟩

theorem hear_options (notices : List Notice) (log : α × FailureCalls) :
    ((listener.options others alertAt).hear notices log).2 =
      log.2 ++ notices.flatMap listener.calls := by
  simp only [Options.hear, options]
  induction notices generalizing log with
  | nil => exact (List.append_nil log.2).symm
  | cons notice notices ih =>
    rw [List.foldl_cons, ih, hear_amid, List.flatMap_cons, List.append_assoc]

end Listener

/-! ## Runs and readers -/

theorem Standing.length_errors_le (standing : Standing) : standing.errors.length ≤ 1 := by
  cases standing with
  | underway => exact Nat.zero_le 1
  | finished counters => exact Nat.zero_le 1
  | failed e => exact Nat.le_refl 1

variable {ι π κ : Type} [Producer π]

/-- A question to a reader leads to the calls for the error that it answers, if it does. -/
theorem RowIterator.calls_deed (listener : Listener α) {n : Nat} {β : Type}
    {it : RowIterator π β n} (hfetched : it.Fetched) (session : Session β) :
    (it.deed session).notices.flatMap listener.calls =
      (errorsOf [(it.next session).1]).flatMap (listener.callsFor it.options.alertAt) := by
  by_cases hpulls : it.Pulls
  -- how the run stands after the pull decides on the calls and on the error that is answered
  · obtain ⟨rows, handed, stopped, standing, hdeed, -, -, -, -, hadvances⟩ :=
      deed_of_pulls hpulls hfetched session
    rw [hdeed, List.flatMap_append, listener.calls_ofStop, listener.calls_notices,
      hadvances.errors, List.nil_append]
  · obtain ⟨answer, waiting, hnext, hdeed, herrors, -⟩ := deed_of_not_pulls hpulls session
    rw [hdeed, hnext, herrors]
    rfl

namespace Pipeline

variable [StepKind ι π κ] (listener : Listener α) (others : Surroundings α) (alertAt : Severity)
  (pipeline : Pipeline ι α) (session : Session (α × FailureCalls))

/-- The pipeline under the listener in its surroundings. -/
def heardBy : Pipeline ι (α × FailureCalls) := pipeline.under (listener.options others alertAt)

/-- A run leads to the calls for the error that it ends in, if it does. -/
theorem calls_run [Consumer Files κ] {result : Except Error (Option Output)}
    {after : Session (α × FailureCalls)}
    (hrun : (pipeline.heardBy listener others alertAt).run session = (result, after)) :
    after.log.2 = session.log.2 ++
      (Standing.ofResult after.counters result).errors.flatMap (listener.callsFor alertAt) := by
  obtain ⟨htold, hlogged, -⟩ := run_account (pipeline.heardBy listener others alertAt) session
  have hcalls := listener.calls_told htold
  rw [hrun] at hcalls
  have hlog := hlogged.log
  rw [hrun] at hlog
  rw [hlog]
  exact (listener.hear_options others alertAt _ session.log).trans (congrArg _ hcalls)

/-- A reader that cannot be started has failed, and leads to the calls for that. -/
theorem calls_iterate {e : Error} {after : Session (α × FailureCalls)}
    (hiterate : ((pipeline.heardBy listener others alertAt).iterate session :
      Except Error (Sigma (RowIterator π _)) × _) = (.error e, after)) :
    after.log.2 = session.log.2 ++ listener.callsFor alertAt e := by
  have haccount := reader_account (π := π) (pipeline.heardBy listener others alertAt) session
  have hcalls := listener.calls_told (haccount.failed e (congrArg Prod.fst hiterate))
  have hlog := haccount.heard
  rw [hiterate] at hlog
  rw [hlog, ← List.flatMap_singleton (listener.callsFor alertAt) e]
  exact (listener.hear_options others alertAt _ session.log).trans (congrArg _ hcalls)

/-- A reader leads to no calls when it is started, and whenever it is asked to the calls for the
    error that it answers; it answers one error at most. -/
theorem calls_asked {it : Sigma (RowIterator π (α × FailureCalls))}
    {after : Session (α × FailureCalls)}
    (hiterate : (pipeline.heardBy listener others alertAt).iterate session = (.ok it, after)) :
    after.log.2 = session.log.2 ∧
      ∀ (sessions : List (Session (α × FailureCalls))) (now : Session (α × FailureCalls)),
        (errorsOf (it.2.interview sessions).1).length ≤ 1 ∧
        ((it.2.interview sessions).2.2.next now).2.2.log.2 = now.log.2 ++
          (errorsOf [((it.2.interview sessions).2.2.next now).1]).flatMap
            (listener.callsFor alertAt) := by
  have hresult := congrArg Prod.fst hiterate
  have haccount := reader_account (π := π) (pipeline.heardBy listener others alertAt) session
  obtain ⟨e, hfailed, -⟩ | ⟨it', hstarted, hown, hfetched, htelling, -⟩ :=
    (openingDeed_cases (π := π) (pipeline.heardBy listener others alertAt) session).1
  · cases hresult.symm.trans hfailed
  cases hresult.symm.trans hstarted
  refine ⟨?_, fun sessions now => ⟨?_, ?_⟩⟩
  · have hlog := haccount.heard
    rw [hiterate] at hlog
    rw [hlog, ← List.append_nil session.log.2]
    exact (listener.hear_options others alertAt _ session.log).trans
      (congrArg _ (listener.calls_told htelling.told))
  · obtain ⟨standing, -, herrors, -⟩ := haccount.told it sessions hstarted
    rw [← herrors]
    exact standing.length_errors_le
  · -- the questions before have left the reader with the options that it was started with
    obtain ⟨hlast, hkept⟩ := RowIterator.interview_last hfetched sessions
    have hcalls := RowIterator.calls_deed listener hkept now
    rw [hlast, hown] at hcalls
    rw [haccount.heardNext it sessions now hstarted]
    exact (listener.hear_options others alertAt _ now.log).trans (congrArg _ hcalls)

/-- For a run that fails the listener's `onFailure` is called once, and once more if the listener
    leaves alerts to the default and the failure is grave enough for one. It is not called for any
    other run. A reader's run fails when the reader is started or when it answers an error, which
    it does at most once. -/
theorem failure_calls [Consumer Files κ] :
    (match (pipeline.heardBy listener others alertAt).run session with
      | (.error e, after) => after.log.2 = session.log.2 ++ listener.callsFor alertAt e
      | (.ok _, after) => after.log.2 = session.log.2) ∧
    match ((pipeline.heardBy listener others alertAt).iterate session :
      Except Error (Sigma (RowIterator π _)) × _) with
    | (.error e, after) => after.log.2 = session.log.2 ++ listener.callsFor alertAt e
    | (.ok it, after) => after.log.2 = session.log.2 ∧
        ∀ (sessions : List (Session (α × FailureCalls))) (now : Session (α × FailureCalls)),
          (errorsOf (it.2.interview sessions).1).length ≤ 1 ∧
          ((it.2.interview sessions).2.2.next now).2.2.log.2 = now.log.2 ++
            (errorsOf [((it.2.interview sessions).2.2.next now).1]).flatMap
              (listener.callsFor alertAt) := by
  constructor
  · split
    · next e after hrun =>
      rw [calls_run listener others alertAt pipeline session hrun]
      exact congrArg _ (List.flatMap_singleton _ e)
    · next output after hrun =>
      rw [calls_run listener others alertAt pipeline session hrun]
      exact List.append_nil _
  · split
    · next e after hiterate => exact calls_iterate listener others alertAt pipeline session hiterate
    · next it after hiterate => exact calls_asked listener others alertAt pipeline session hiterate

end Pipeline

/-- A listener that counts failures, and leaves alerts to the default. -/
def Listener.tally : Listener Unit := ⟨fun _ => id, fun _ _ => id, none⟩

/-- The failure of a run whose source is missing is heard twice. -/
theorem missing_source_heard_twice :
    let missing : Pipeline Step Unit := .ofSource (.csv "none.csv" none .standard)
    let run := (missing.heardBy .tally [] .critical).run (.start .empty ((), []))
    run.1 = .error (.source .missingFile) ∧
      run.2.log.2 = [(.critical, .source .missingFile), (.critical, .source .missingFile)] := by
  decide

end RowFlow
