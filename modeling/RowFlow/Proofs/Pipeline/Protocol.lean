import RowFlow.Proofs.Pipeline.Traffic

/-!
# The Protocol of a Run

What the observer of a run is told, from its beginning to its end, and what is counted meanwhile
(`Pipeline.run_account`). A run with a reader goes on whenever the reader is asked, perhaps between
other runs in the same session; what is told of it in all fits the same protocol
(`RowIterator.Telling.interview`).
-/

namespace RowFlow

variable {ι π κ α : Type}

/-! ## Reports of runs -/

/-- Where a run has come to. -/
inductive Standing where
  | underway
  /-- it has ended well, with the counters of all runs -/
  | finished (counters : Counters)
  | failed (error : Error)

namespace Standing

/-- Whether a run has ended. -/
def IsEnd : Standing → Prop
  | .underway => False
  | _ => True

/-- A run has ended or goes on. -/
theorem isEnd_or_underway (standing : Standing) : standing.IsEnd ∨ standing = .underway := by
  cases standing with
  | underway => exact .inr rfl
  | finished counters => exact .inl trivial
  | failed e => exact .inl trivial

/-- Where a run with a result has come to. -/
def ofResult {β : Type} (counters : Counters) : Except Error β → Standing
  | .ok _ => .finished counters
  | .error e => .failed e

/-- The error that a run has failed with, if it has. -/
def errors : Standing → List Error
  | .failed e => [e]
  | _ => []

/-- What is told of the end of a run. -/
def notices (alertAt : Severity) : Standing → List Notice
  | .underway => []
  | .finished counters => [.event (.finished counters)]
  | .failed e => Notice.ofFailure alertAt e

end Standing

/-- What is told of a run that has pulled some number of rows: it has begun, it may have been
    opened, and then it may have been asked to stop before it ended. -/
inductive Told (alertAt : Severity) : Nat → Standing → List Notice → Prop
  | unopened (e : Error) :
    Told alertAt 0 (.failed e) (.event .started :: Notice.ofFailure alertAt e)
  | opened (steps : Nat) (schema : Schema) (stopped : Bool) (pulled : Nat) (standing : Standing) :
    Told alertAt pulled standing
      (.event .started :: .event (.opened steps schema) ::
        (Notice.ofStop stopped pulled ++ standing.notices alertAt))

/-- Whether it has been told that the steps are open. -/
def TellsOpened (notices : List Notice) : Prop :=
  ∃ steps schema, .event (.opened steps schema) ∈ notices

/-- A run that fails at once does not tell that it was opened. -/
theorem not_tellsOpened (alertAt : Severity) (e : Error) :
    ¬ TellsOpened (.event .started :: Notice.ofFailure alertAt e) := by
  rintro ⟨steps, schema, hmem⟩
  simp only [Notice.ofFailure] at hmem
  -- with an alert or without one, a failure is no opening
  split at hmem <;> simp at hmem

/-- An opening that is told is told. -/
theorem tellsOpened (steps : Nat) (schema : Schema) (notices : List Notice) :
    TellsOpened (.event .started :: .event (.opened steps schema) :: notices) :=
  ⟨steps, schema, List.mem_cons_of_mem _ List.mem_cons_self⟩

/-! ### Requests to stop -/

/-- Of a request to stop nothing more is told. -/
theorem Notice.ofStop_append {stopped stopped' : Bool} {pulled more : Nat}
    (h : stopped = true → stopped' = false ∧ more = 0) :
    Notice.ofStop stopped pulled ++ Notice.ofStop stopped' (pulled + more) =
      Notice.ofStop (stopped || stopped') (pulled + more) := by
  cases stopped with
  | false => rfl
  | true =>
    obtain ⟨rfl, rfl⟩ := h rfl
    rfl

/-- Whether a notice is of a request to stop. -/
def Notice.isStop : Notice → Bool
  | .event (.earlyStop _) => true
  | _ => false

/-- How many requests to stop have been told. -/
def stops (notices : List Notice) : Nat := notices.countP Notice.isStop

/-- Requests to stop add up. -/
theorem stops_append (notices more : List Notice) :
    stops (notices ++ more) = stops notices + stops more :=
  List.countP_append

/-- A request to stop is told once. -/
theorem stops_ofStop (stopped : Bool) (pulled : Nat) :
    stops (Notice.ofStop stopped pulled) = if stopped then 1 else 0 := by
  cases stopped <;> rfl

/-- The end of a run is no request to stop. -/
theorem Standing.stops_notices (alertAt : Severity) (standing : Standing) :
    stops (standing.notices alertAt) = 0 := by
  cases standing with
  | underway => rfl
  | finished counters => rfl
  | failed e =>
    simp only [notices, Notice.ofFailure]
    split <;> rfl

/-! ## What happens in sessions -/

/-- Some notices have been told in a session, and something has been counted. A one-shot source that
    has been read stays so. -/
structure Session.Logged (options : Options α) (notices : List Notice) (added : Counters)
    (before after : Session α) : Prop where
  log : after.log = options.hear notices before.log
  counters : after.counters = before.counters + added
  spent : before.spent = true → after.spent = true

namespace Session.Logged

variable {options : Options α} {notices more : List Notice} {added extra : Counters}
  {w w₁ w₂ : Session α}

/-- What happens first is told first and counted once. -/
theorem trans (h : Session.Logged options notices added w w₁)
    (h' : Session.Logged options more extra w₁ w₂) :
    Session.Logged options (notices ++ more) (added + extra) w w₂ where
  log := by rw [h'.log, h.log, Options.hear_append]
  counters := by rw [h'.counters, h.counters, Counters.add_assoc]
  spent hspent := h'.spent (h.spent hspent)

/-- No row has been pulled if none has been counted. -/
theorem rowsPulled {runs failed collected stops : Nat}
    (h : Session.Logged options notices ⟨runs, failed, 0, collected, stops⟩ w w₁) :
    w₁.counters.rowsPulled = w.counters.rowsPulled := by
  rw [h.counters]
  rfl

/-- A run starts with a notice, and counts as a run. -/
theorem startRun (options : Options α) (w : Session α) :
    Session.Logged options [.event .started] ⟨1, 0, 0, 0, 0⟩ w (w.startRun options) := by
  rw [Session.startRun_eq]
  exact ⟨rfl, rfl, id⟩

/-- A failure is told and counted. -/
theorem fail (options : Options α) (e : Error) (w : Session α) :
    Session.Logged options (Notice.ofFailure options.alertAt e) ⟨0, 1, 0, 0, 0⟩ w
      (w.fail options e) := by
  rw [Session.fail_eq]
  exact ⟨rfl, rfl, id⟩

/-- A good end is told, with the counters as they are. -/
theorem succeed (options : Options α) (w : Session α) :
    Session.Logged options [.event (.finished w.counters)] ⟨0, 0, 0, 0, 0⟩ w
      (w.succeed options) := by
  rw [Session.succeed_eq]
  exact ⟨rfl, rfl, id⟩

/-- A run that has opened its steps has told so, whatever becomes of the source. -/
theorem begun (pipeline : Pipeline ι α) (steps : Nat) (schema : Schema) (w : Session α) :
    Session.Logged pipeline.options [.event .started, .event (.opened steps schema)]
      ⟨1, 0, 0, 0, 0⟩ w (pipeline.begun steps schema w) := by
  -- opening the steps counts nothing, and reading the source changes at most the mark of it
  have hopened : Session.Logged pipeline.options [.event (.opened steps schema)] ⟨0, 0, 0, 0, 0⟩
      (w.startRun pipeline.options) (pipeline.begun steps schema w) := by
    constructor
    · simp only [Pipeline.begun, Session.report_eq]
      rfl
    · simp only [Pipeline.begun, Session.counters_report]
      rfl
    · intro hspent
      rw [Session.spent_startRun] at hspent
      rw [Pipeline.spent_begun, hspent]
      cases pipeline.source <;> rfl
  exact (startRun pipeline.options w).trans hopened

/-- The end of a run is told, and counted if the run has failed. -/
theorem closeRun {β : Type} (options : Options α) (result : Except Error β) (w : Session α) :
    Session.Logged options
      ((Standing.ofResult (w.closeRun options result).counters result).notices options.alertAt)
      ⟨0, (Standing.ofResult (w.closeRun options result).counters result).errors.length, 0, 0, 0⟩
      w (w.closeRun options result) := by
  cases result with
  | error e => exact fail options e w
  | ok _ =>
    -- the counters in the notice are those of the session, which the notice leaves alone
    have hcounters : (w.succeed options).counters = w.counters :=
      Session.counters_report options w _
    simp only [Session.closeRun, Standing.ofResult, hcounters]
    exact succeed options w

end Session.Logged

/-! ## Deeds -/

/-- What a run tells its observer, and the rows that it moves, from one moment to another. -/
structure Deed where
  notices : List Notice
  traffic : Traffic

namespace Deed

/-- Nothing at all. -/
def none : Deed := ⟨[], .none⟩

/-- Deeds, one after another. -/
def all (deeds : List Deed) : Deed :=
  ⟨deeds.flatMap Deed.notices,
    ⟨deeds.flatMap (·.traffic.pushed), deeds.flatMap (·.traffic.handed)⟩⟩

/-- The first of some deeds comes first in their notices and rows. -/
theorem all_cons (deed : Deed) (deeds : List Deed) :
    all (deed :: deeds) = ⟨deed.notices ++ (all deeds).notices,
      ⟨deed.traffic.pushed ++ (all deeds).traffic.pushed,
        deed.traffic.handed ++ (all deeds).traffic.handed⟩⟩ := by
  simp only [all, List.flatMap_cons]

/-- What is counted for a deed. -/
def counters (begun failed : Nat) (deed : Deed) : Counters :=
  ⟨begun, failed, deed.traffic.pushed.length, deed.traffic.handed.length, stops deed.notices⟩

/-- Deeds are counted one by one. -/
theorem counters_all_cons (begun begun' failed failed' : Nat) (deed : Deed) (deeds : List Deed) :
    (all (deed :: deeds)).counters (begun + begun') (failed + failed') =
      deed.counters begun failed + (all deeds).counters begun' failed' := by
  simp only [counters, all_cons, List.length_append, stops_append, Counters.mk_add_mk]

end Deed

/-! ## Rows and ends in sessions -/

section
variable {options : Options α} {rows pulled handed : Nat} {stopped : Bool} {w w₁ w' : Session α}

/-- Rows that have been pushed and handed over are told of and counted, and so is an end of the run
    that follows. -/
theorem Session.Pushed.logged (standing : Standing)
    (h : Session.Pushed options rows pulled stopped w w₁)
    (hhanded : w₁.counters.rowsCollected = w.counters.rowsCollected + handed)
    (hend : Session.Logged options (standing.notices options.alertAt)
      ⟨0, standing.errors.length, 0, 0, 0⟩ w₁ w') :
    Session.Logged options (Notice.ofStop stopped pulled ++ standing.notices options.alertAt)
      ⟨0, standing.errors.length, rows, handed,
        stops (Notice.ofStop stopped pulled ++ standing.notices options.alertAt)⟩ w w' := by
  -- the rows are told of by nothing but a request to stop
  have hpushed : Session.Logged options (Notice.ofStop stopped pulled)
    ⟨0, 0, rows, handed, if stopped then 1 else 0⟩ w w₁ :=
    ⟨h.log, h.counters_eq hhanded, h.spent.trans⟩
  have hlogged := hpushed.trans hend
  -- and the end of a run asks for none
  rw [stops_append, stops_ofStop, Standing.stops_notices]
  simpa only [Counters.mk_add_mk, Nat.zero_add, Nat.add_zero] using hlogged

/-- A run that has begun and has opened its steps goes on to push rows, and may end. -/
theorem Session.Logged.opened {pipeline : Pipeline ι α} {steps : Nat} {schema : Schema}
    {notices : List Notice} {failed : Nat}
    (h : Session.Logged pipeline.options notices ⟨0, failed, rows, handed, stops notices⟩
      (pipeline.begun steps schema w) w') :
    Session.Logged pipeline.options (.event .started :: .event (.opened steps schema) :: notices)
      ⟨1, failed, rows, handed,
        stops (.event .started :: .event (.opened steps schema) :: notices)⟩ w w' := by
  have hlogged := (Session.Logged.begun pipeline steps schema w).trans h
  -- two notices and one begun run come in front
  rw [Counters.mk_add_mk] at hlogged
  simp only [Nat.zero_add] at hlogged
  exact hlogged

end

/-- A run that cannot open its steps begins and fails. -/
theorem Session.Logged.unopened (options : Options α) (e : Error) (w : Session α) :
    Session.Logged options (.event .started :: Notice.ofFailure options.alertAt e)
      ⟨1, 1, 0, 0, stops (.event .started :: Notice.ofFailure options.alertAt e)⟩ w
      ((w.startRun options).fail options e) := by
  have hlogged := (startRun options w).trans (fail options e _)
  have hstops : stops (.event .started :: Notice.ofFailure options.alertAt e) = 0 :=
    Standing.stops_notices options.alertAt (.failed e)
  rw [hstops]
  exact hlogged

/-- A run that cannot open its source fails after it has opened its steps. -/
theorem Session.Logged.unread (pipeline : Pipeline ι α) (steps : Nat) (schema : Schema)
    (e : Error) (w : Session α) :
    Session.Logged pipeline.options (.event .started :: .event (.opened steps schema) ::
        Notice.ofFailure pipeline.options.alertAt e)
      ⟨1, 1, 0, 0, stops (.event .started :: .event (.opened steps schema) ::
        Notice.ofFailure pipeline.options.alertAt e)⟩ w
      ((pipeline.begun steps schema w).fail pipeline.options e) :=
  ((Session.Pushed.none 0 _).logged (.failed e) (Nat.add_zero _).symm
    (.fail pipeline.options e (pipeline.begun steps schema w))).opened

/-- Nothing is in a record before something has been told. -/
theorem Session.Logged.eq_log {options : Options α} {notices : List Notice} {added : Counters}
    {session : Session α} {after : Session (List Notice)}
    (h : Session.Logged options.recorded notices added session.recorded after) :
    after.log = notices := by
  rw [h.log, Options.hear_recorded]
  rfl

/-! ## Runs into a collector -/

/-- The chain of an assembly with a record of the calls on its collector. -/
def Assembly.recordedChain (ι : Type) {π κ : Type} [StepKind ι π κ] (assembly : Assembly π κ) :
    Chain π (Guarded (Metered (Recorded κ))) assembly.producers.length :=
  Chain.connect assembly.producers (Guarded.start ⟨.start (assembly.collector.getD
    (StepKind.ofCollector ι (.table assembly.schema [])))⟩)

/-- Records at both ends of the chain of an assembly show the rows, and change nothing. -/
theorem Assembly.pushAndClose_chain [StepKind ι π κ] [Producer π] [Consumer Files κ]
    (assembly : Assembly π κ) (options : Options α) (width : Nat)
    (items : List (Except Error Row)) (w : Session α) :
    let kept := pushAndKeep options width items (Recorded.start (assembly.recordedChain ι)) w
    pushAndClose options width items (assembly.chain ι) w = (kept.1, kept.2.2) :=
  pushAndClose_eq_pushAndKeep options width items
    (Chain.coupled_connect assembly.producers ⟨rfl, rfl, rfl⟩)

namespace Pipeline

variable [StepKind ι π κ] [Producer π] [Consumer Files κ]

/-- The rows that a run moves: those that the head of the chain has been handed, and those that the
    collector has. -/
def traffic (pipeline : Pipeline ι α) (session : Session α) : Traffic :=
  match (pipeline.assembly session.fresh session.files : Except Error (Nat × Assembly π κ)),
    (pipeline.source.openOn session.files session.spent).1 with
  | .ok (width, assembly), .ok items =>
    let (_, head, _) := pushAndKeep pipeline.options width items
      (Recorded.start (assembly.recordedChain ι))
      (pipeline.begun pipeline.length assembly.schema session)
    ⟨head.rows, (Chain.terminal _ head.inner).inner.inner.rows⟩
  | _, _ => .none

/-- What a run does. -/
def deed (pipeline : Pipeline ι α) (session : Session α) : Deed :=
  ⟨pipeline.notices session, pipeline.recorded.traffic session.recorded⟩

/-- Rows that are the first ones of a source and have its width. -/
def Begins (pipeline : Pipeline ι α) (session : Session α) (rows : List Row) : Prop :=
  ∃ schema items, pipeline.source.schema session.files = .ok schema ∧
    (pipeline.source.openOn session.files session.spent).1 = .ok items ∧
    rows.map Except.ok <+: items ∧ ∀ row ∈ rows, row.length = schema.width

/-- What a run has told and counted, and which rows it has pushed. -/
structure Account (pipeline : Pipeline ι α) (session : Session α) (deed : Deed)
    (result : Except Error (Option Output)) (after : Session α) : Prop where
  told : Told pipeline.options.alertAt deed.traffic.pushed.length
    (.ofResult after.counters result) deed.notices
  logged : Session.Logged pipeline.options deed.notices
    (deed.counters 1 (Standing.ofResult after.counters result).errors.length) session after
  pushed : deed.traffic.pushed = [] ∨ pipeline.Begins session deed.traffic.pushed

/-- A run that has opened its steps and its source pushes rows, and ends. -/
theorem exists_account_of_opened {pipeline : Pipeline ι α} {session : Session α} {width : Nat}
    {assembly : Assembly π κ} {items : List (Except Error Row)}
    (hassembly : pipeline.assembly session.fresh session.files = .ok (width, assembly))
    (hitems : (pipeline.source.openOn session.files session.spent).1 = .ok items) :
    ∃ notices, pipeline.Account session ⟨notices, pipeline.traffic session⟩
      (pipeline.run session).1 (pipeline.run session).2 ∧ TellsOpened notices := by
  -- a fresh collector has been handed nothing
  have hstart : (Chain.terminal _ (assembly.recordedChain ι)).inner.inner.rows = [] := by
    rw [Assembly.recordedChain, Chain.terminal_connect]
    rfl
  obtain ⟨stopped, result, head, after, hpush, htaken, hwidths, hpushed, hhanded⟩ :=
    pushAndKeep_pushed pipeline.options width items Recorded.holds (assembly.recordedChain ι)
      hstart (pipeline.begun pipeline.length assembly.schema session)
  -- the records at both ends of the chain are the rows that have moved
  have htraffic : pipeline.traffic session =
      ⟨head.rows, (Chain.terminal _ head.inner).inner.inner.rows⟩ := by
    simp only [traffic, hassembly, hitems, hpush]
  -- what is told is the beginning, the pushed rows and the end, in this order
  have hlogged := (hpushed.logged _ hhanded (.closeRun pipeline.options result after)).opened
  obtain ⟨schema, hschema, -, rfl⟩ := assembly_eq_ok_iff.1 hassembly
  rw [run_of_opened hassembly hitems, assembly.pushAndClose_chain, hpush, htraffic]
  exact ⟨_, ⟨.opened _ _ stopped _ _, hlogged, .inr ⟨schema, items, hschema, hitems, htaken,
    hwidths⟩⟩, tellsOpened _ _ _⟩

variable (pipeline : Pipeline ι α) (session : Session α)

/-- Every run has an account, and tells of its opening when its steps are open. -/
theorem exists_account :
    ∃ notices, pipeline.Account session ⟨notices, pipeline.traffic session⟩
      (pipeline.run session).1 (pipeline.run session).2 ∧
      (TellsOpened notices ↔
        ∃ assembled, pipeline.assembly session.fresh session.files = .ok assembled) := by
  rcases hassembly : (pipeline.assembly session.fresh session.files :
    Except Error (Nat × Assembly π κ)) with e | ⟨width, assembly⟩
  -- no row moves before the steps and the source are open
  · have htraffic : pipeline.traffic session = .none := by simp only [traffic, hassembly]
    rw [run_of_not_assembled hassembly, htraffic]
    exact ⟨_, ⟨.unopened e, .unopened pipeline.options e session, .inl rfl⟩,
      iff_of_false (not_tellsOpened _ e) nofun⟩
  · rcases hitems : (pipeline.source.openOn session.files session.spent).1 with e | items
    · have htraffic : pipeline.traffic session = .none := by
        simp only [traffic, hassembly, hitems]
      rw [run_of_not_opened hassembly hitems, htraffic]
      exact ⟨_, ⟨.opened pipeline.length assembly.schema false 0 (.failed e),
        .unread pipeline pipeline.length assembly.schema e session, .inl rfl⟩,
        iff_of_true (tellsOpened _ _ _) ⟨_, rfl⟩⟩
    · obtain ⟨notices, haccount, hopened⟩ := exists_account_of_opened hassembly hitems
      exact ⟨notices, haccount, iff_of_true hopened ⟨_, rfl⟩⟩

/-- What a run tells, counts and pushes. -/
theorem run_account :
    pipeline.Account session (pipeline.deed session) (pipeline.run session).1
      (pipeline.run session).2 := by
  obtain ⟨notices, ⟨htold, hlogged, hpushed⟩, -⟩ :=
    exists_account pipeline.recorded session.recorded
  obtain rfl : notices = pipeline.notices session := hlogged.eq_log.symm
  -- the run itself differs from the recorded one in its log only
  have hrun := run_recorded pipeline session
  have hresult := congrArg Prod.fst hrun
  have hcounters := congrArg (fun run => run.2.counters) hrun
  constructor
  · rw [hresult, hcounters]
    exact htold
  · refine ⟨log_run pipeline session, ?_, ?_⟩
    · rw [hresult, hcounters]
      exact hlogged.counters
    · rw [hrun]
      exact hlogged.spent
  · exact hpushed

end Pipeline

end RowFlow
