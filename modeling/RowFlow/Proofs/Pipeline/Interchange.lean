import RowFlow.Proofs.Chain.Interchange
import RowFlow.Proofs.Pipeline.Ties
import RowFlow.Proofs.Pipeline.Traffic

/-!
# Pipelines with Interchangeable Producers

Two pipelines over one source whose steps open to interchangeable producers give the same result,
count the same rows and leave the same files, with a collector (`Pipeline.run_interchanged`) and
with a reader (`Pipeline.iterate_interchanged`). Only the logs may differ, since observers are told
how many steps there are.
-/

namespace RowFlow

variable {α α' π κ : Type}

/-! ## Sessions that differ in their logs -/

/-- Two sessions that differ in their logs at most. -/
structure Session.SameButLog (session : Session α) (session' : Session α') : Prop where
  files : session.files = session'.files
  counters : session.counters = session'.counters
  spent : session.spent = session'.spent
  entropy : session.entropy = session'.entropy

theorem Session.SameButLog.refl (session : Session α) : session.SameButLog session :=
  ⟨rfl, rfl, rfl, rfl⟩

/-- The next run draws alike in both. -/
theorem Session.SameButLog.fresh {w : Session α} {w' : Session α'} (h : w.SameButLog w') :
    w.fresh = w'.fresh := by
  rw [Session.fresh, Session.fresh, h.entropy, h.counters]

/-- Runs may fail with different errors. -/
theorem Session.SameButLog.fail {w : Session α} {w' : Session α'} (h : w.SameButLog w')
    (options : Options α) (options' : Options α') (e e' : Error) :
    (w.fail options e).SameButLog (w'.fail options' e') := by
  rw [Session.fail_eq, Session.fail_eq]
  exact ⟨h.files, congrArg (fun c => { c with failedRuns := c.failedRuns + 1 }) h.counters, h.spent,
    h.entropy⟩

theorem tie_sameButLog (options : Options α) (options' : Options α') :
    Session.Tie options options' Session.SameButLog where
  files h := h.files
  spent h := h.spent
  fresh h := h.fresh
  count _ h := ⟨h.files, congrArg _ h.counters, h.spent, h.entropy⟩
  report event h := by
    rw [Session.report_eq, Session.report_eq]
    exact ⟨h.files, h.counters, h.spent, h.entropy⟩
  succeed h := by
    rw [Session.succeed_eq, Session.succeed_eq]
    exact ⟨h.files, h.counters, h.spent, h.entropy⟩
  fail error h := h.fail options options' error error
  use _ _ h := ⟨rfl, h.counters, rfl, h.entropy⟩

/-! ## Bisimilar chains in tied sessions -/

section
variable {options : Options α} {options' : Options α'} {S : Session α → Session α' → Prop}
  (htie : Session.Tie options options' S)
include htie

section
variable [Producer π] [Consumer Files κ] {n n' : Nat}
  {D : Chain π (Guarded (Metered κ)) n → Session α → Chain π (Guarded (Metered κ)) n' →
    Session α' → Prop}
  (hD : Chain.Bisimulation (InBoth S) D)
include hD

theorem Chain.Bisimulation.steady : Steady options options' D where
  count hf h := hD.move h ⟨(hD.terminal h).1, htie.count hf (hD.terminal h).2⟩
  report event h := hD.move h ⟨(hD.terminal h).1, htie.report event (hD.terminal h).2⟩

/-- Runs push the same rows into bisimilar chains and get the same result. -/
theorem Chain.Bisimulation.pushAndClose (width : Nat) (items : List (Except Error Row))
    {c : Chain π (Guarded (Metered κ)) n} {w : Session α} {c' : Chain π (Guarded (Metered κ)) n'}
    {w' : Session α'} (h : D c w c' w') :
    ∃ result w₁ w₁', RowFlow.pushAndClose options width items c w = (result, w₁) ∧
      RowFlow.pushAndClose options' width items c' w' = (result, w₁') ∧ S w₁ w₁' := by
  obtain ⟨result, c₁, w₁, c₁', w₁', hpush, hpush', hafter⟩ :=
    pushAll_lockstep (hD.parallel.consume.mono fun row (_ : row.length = width) => trivial)
      (hD.steady htie) items 0 h
  simp only [RowFlow.pushAndClose, hpush, hpush']
  cases result with
  -- a chain is closed only if all rows have gone through
  | error e => exact ⟨_, _, _, rfl, rfl, (hD.terminal hafter).2⟩
  | ok _ =>
    obtain ⟨hresult, hclosed⟩ := hD.parallel.close hafter
    exact ⟨_, _, _, rfl, Prod.ext hresult.symm rfl, (hD.terminal hclosed).2⟩

end

/-! ## Bisimilar readers -/

namespace RowIterator

variable {n n' : Nat}

/-- Two readers that have come equally far, in front of chains related by `D`. -/
inductive Beside (options : Options α) (options' : Options α')
    (S : Session α → Session α' → Prop)
    (D : FetchedChain π n → Session α → FetchedChain π n' → Session α' → Prop) :
    RowIterator π α n → Session α → RowIterator π α' n' → Session α' → Prop
  | underway {width pulled : Nat} {items : List (Except Error Row)} {waiting : List Row}
    {c : FetchedChain π n} {w : Session α} {c' : FetchedChain π n'} {w' : Session α'} :
    emitted c = [] → emitted c' = [] → D c w c' w' →
      Beside options options' S D ⟨options, width, items, some c, pulled, waiting⟩ w
        ⟨options', width, items, some c', pulled, waiting⟩ w'
  | ended {width pulled : Nat} {items : List (Except Error Row)} {waiting : List Row}
    {w : Session α} {w' : Session α'} : S w w' →
      Beside options options' S D ⟨options, width, items, none, pulled, waiting⟩ w
        ⟨options', width, items, none, pulled, waiting⟩ w'

/-- Two readers give the same answer and are beside each other afterwards. -/
def AnswerAlike (options : Options α) (options' : Options α')
    (S : Session α → Session α' → Prop)
    (D : FetchedChain π n → Session α → FetchedChain π n' → Session α' → Prop)
    (outcome : Option (Except Error Row) × RowIterator π α n × Session α)
    (outcome' : Option (Except Error Row) × RowIterator π α' n' × Session α') : Prop :=
  outcome.1 = outcome'.1 ∧
    Beside options options' S D outcome.2.1 outcome.2.2 outcome'.2.1 outcome'.2.2

variable {D : FetchedChain π n → Session α → FetchedChain π n' → Session α' → Prop}

omit htie in
theorem Beside.tied [Producer π] (hD : Chain.Bisimulation (InBoth S) D) {it : RowIterator π α n}
    {w : Session α} {it' : RowIterator π α' n'} {w' : Session α'}
    (h : Beside options options' S D it w it' w') : S w w' := by
  cases h with
  | underway _ _ hd => exact (hD.terminal hd).2
  | ended hS => exact hS

omit htie in
theorem giveWaiting_beside {it : RowIterator π α n} {w : Session α} {it' : RowIterator π α' n'}
    {w' : Session α'} (h : Beside options options' S D it w it' w') :
    AnswerAlike options options' S D (it.giveWaiting w) (it'.giveWaiting w') := by
  cases h with
  | @underway _ _ _ waiting _ _ _ _ hemitted hemitted' hd =>
    cases waiting with
    | nil => exact ⟨rfl, .underway hemitted hemitted' hd⟩
    | cons row waiting => exact ⟨rfl, .underway hemitted hemitted' hd⟩
  | @ended _ _ _ waiting _ _ hS =>
    cases waiting with
    | nil => exact ⟨rfl, .ended hS⟩
    | cons row waiting => exact ⟨rfl, .ended hS⟩

variable [Producer π] (hD : Chain.Bisimulation (InBoth S) D)
include hD

omit htie in
theorem emitted_beside {c : FetchedChain π n} {w : Session α} {c' : FetchedChain π n'}
    {w' : Session α'} (h : D c w c' w') : emitted c = emitted c' := by
  rw [emitted, (hD.terminal h).1]
  rfl

omit htie in
theorem hasEmitted_beside {c : FetchedChain π n} {w : Session α} {c' : FetchedChain π n'}
    {w' : Session α'} (h : D c w c' w') : hasEmitted c = hasEmitted c' :=
  congrArg (fun rows : List Row => !rows.isEmpty) (emitted_beside hD h)

omit htie in
theorem fetched_beside {c : FetchedChain π n} {w : Session α} {c' : FetchedChain π n'}
    {w' : Session α'} (h : D c w c' w') : D (fetched c) w (fetched c') w' := by
  obtain ⟨hterminal, hS⟩ := hD.terminal h
  exact hD.retie _ _ h ⟨by rw [hterminal], hS⟩

theorem finish_beside {width pulled : Nat} {c : FetchedChain π n} {w : Session α}
    {c' : FetchedChain π n'} {w' : Session α'} (h : D c w c' w') :
    AnswerAlike options options' S D (finish c ⟨options, width, [], none, pulled, []⟩ w)
      (finish c' ⟨options', width, [], none, pulled, []⟩ w') := by
  obtain ⟨hresult, hafter⟩ := hD.parallel.close h
  simp only [finish]
  generalize Consumer.close c w = closing at hresult hafter ⊢
  generalize Consumer.close c' w' = closing' at hresult hafter ⊢
  obtain ⟨result, c₁, w₁⟩ := closing
  obtain ⟨result', c₁', w₁'⟩ := closing'
  obtain rfl : result = result' := hresult
  have hS := (hD.terminal hafter).2
  dsimp only
  rw [emitted_beside hD hafter]
  -- a close that fails ends both runs with the same error
  cases result with
  | error e => exact ⟨rfl, .ended (htie.fail e hS)⟩
  | ok _ => exact giveWaiting_beside (.ended (htie.succeed hS))

theorem resume_beside {width pulled : Nat} (halt : Halt) {c : FetchedChain π n} {w : Session α}
    {c' : FetchedChain π n'} {w' : Session α'} (h : D c w c' w') :
    AnswerAlike options options' S D (resume options width (halt, pulled, c, w))
      (resume options' width (halt, pulled, c', w')) := by
  have hemitted := emitted_beside hD h
  -- the rows that have come out are fetched from both chains at once
  have hwaiting (items : List (Except Error Row)) : AnswerAlike options options' S D
      (giveWaiting ⟨options, width, items, some (fetched c), pulled, emitted c⟩ w)
      (giveWaiting ⟨options', width, items, some (fetched c'), pulled, emitted c'⟩ w') := by
    rw [hemitted]
    exact giveWaiting_beside (.underway (emitted_fetched c) (emitted_fetched c')
      (fetched_beside hD h))
  cases halt with
  | failed e =>
    simp only [resume, hemitted]
    exact ⟨rfl, .ended (htie.fail e (hD.terminal h).2)⟩
  | ready rest => exact hwaiting rest
  | ended => exact finish_beside htie hD h
  -- rows that have come out are given before the chains are closed
  | stopped =>
    simp only [resume, hasEmitted_beside hD h]
    cases hasEmitted c' with
    | true => exact hwaiting []
    | false => exact finish_beside htie hD h

/-- Readers beside each other answer the same. -/
theorem next_beside {it : RowIterator π α n} {w : Session α} {it' : RowIterator π α' n'}
    {w' : Session α'} (h : Beside options options' S D it w it' w') :
    AnswerAlike options options' S D (it.next w) (it'.next w') := by
  have hgive := giveWaiting_beside h
  cases h with
  | @ended width pulled items waiting w w' hS => cases waiting <;> exact hgive
  | @underway width pulled items waiting c w c' w' hemitted hemitted' hd =>
    cases waiting with
    | cons row waiting => exact hgive
    -- with no row waiting, rows are pushed until one comes out, at the same row on both sides
    | nil =>
      obtain ⟨halt, now, c₁, w₁, c₁', w₁', hpush, hpush', hafter⟩ :=
        pushUntil_lockstep (hD.parallel.consume.mono fun row (_ : row.length = width) => trivial)
          (hD.steady htie) hasEmitted hasEmitted
          (hasEmitted_beside hD) items pulled hd
      rw [next_eq _ fun _ hc => Option.mem_some.1 hc ▸ hemitted,
        next_eq _ fun _ hc => Option.mem_some.1 hc ▸ hemitted']
      dsimp only
      rw [hpush, hpush']
      exact resume_beside htie hD halt hafter

/-- However often they are asked, readers beside each other answer the same. -/
theorem ask_beside {it : RowIterator π α n} {w : Session α} {it' : RowIterator π α' n'}
    {w' : Session α'} (h : Beside options options' S D it w it' w') (k : Nat) :
    (it.ask k w).1 = (it'.ask k w').1 ∧
      Beside options options' S D (it.ask k w).2.1 (it.ask k w).2.2 (it'.ask k w').2.1
        (it'.ask k w').2.2 := by
  -- each question leads both readers and sessions on
  induction k generalizing it w it' w' with
  | zero => exact ⟨rfl, h⟩
  | succ k ih =>
    obtain ⟨hanswer, hnext⟩ := next_beside htie hD h
    obtain ⟨hanswers, hlast⟩ := ih hnext
    have hask : it.ask (k + 1) w = _ := ask_succ rfl
    have hask' : it'.ask (k + 1) w' = _ := ask_succ rfl
    rw [hask, hask']
    exact ⟨List.cons_eq_cons.2 ⟨hanswer, hanswers⟩, hlast⟩

end RowIterator

end

/-! ## Steps that open alike -/

/-- Failures that differ as `F` allows, or assemblies with interchangeable producers. -/
inductive AssembledAlike [Producer π] (F : Error → Error → Prop) :
    Except Error (Assembly π κ) → Except Error (Assembly π κ) → Prop
  | failed {e e' : Error} : F e e' → AssembledAlike F (.error e) (.error e')
  | opened {producers producers' : List π} (collector : Option κ) (schema : Schema) :
    Interchangeable producers producers' →
      AssembledAlike F (.ok ⟨producers, collector, schema⟩) (.ok ⟨producers', collector, schema⟩)

/-- The same result, or failures that differ as `F` allows. -/
inductive SameResult {β : Type} (F : Error → Error → Prop) : Except Error β → Except Error β → Prop
  | same (result : Except Error β) : SameResult F result result
  | failed {e e' : Error} : F e e' → SameResult F (.error e) (.error e')

/-- Two readers that cannot be started, or that give the same answers. -/
def ReadAlike [Producer π] (F : Error → Error → Prop)
    (opening : Except Error (Sigma (RowIterator π α)) × Session α)
    (opening' : Except Error (Sigma (RowIterator π α')) × Session α') : Prop :=
  opening.2.SameButLog opening'.2 ∧
    match opening.1, opening'.1 with
    | .error e, .error e' => F e e'
    | .ok it, .ok it' => ∀ k, (it.2.ask k opening.2).1 = (it'.2.ask k opening'.2).1 ∧
        (it.2.ask k opening.2).2.2.SameButLog (it'.2.ask k opening'.2).2.2
    | _, _ => False

namespace Pipeline

variable {ι : Type} [StepKind ι π κ] {F : Error → Error → Prop} {pipeline : Pipeline ι α}
  {pipeline' : Pipeline ι α'} {w : Session α} {w' : Session α'}

/-- What has begun alike has done the same to the sessions, but for the logs. -/
theorem begun_sameButLog (hsource : pipeline.source = pipeline'.source) (steps steps' : Nat)
    (schema : Schema) (hw : w.SameButLog w') :
    (pipeline.begun steps schema w).SameButLog (pipeline'.begun steps' schema w') := by
  -- only the reported number of steps depends on the pipeline
  constructor
  · rw [files_begun, files_begun, hw.files]
  · simp only [begun, Session.counters_report, Session.startRun_eq]
    exact congrArg (fun c : Counters => { c with runs := c.runs + 1 }) hw.counters
  · rw [spent_begun, spent_begun, hsource, hw.files, hw.spent]
  · rw [entropy_begun, entropy_begun, hw.entropy]

variable [Producer π] (hF : ∀ e, F e e) (hsource : pipeline.source = pipeline'.source)
  (hsteps : ∀ entropy schema, AssembledAlike F
    (assemble entropy 0 schema pipeline.steps : Except Error (Assembly π κ))
    (assemble entropy 0 schema pipeline'.steps))
include hF hsource hsteps

/-- Two pipelines fail to open, or they open to interchangeable producers. -/
theorem assembly_alike (entropy : Entropy) (files : Files) :
    (∃ e e', (pipeline.assembly entropy files : Except Error (Nat × Assembly π κ)) = .error e ∧
      (pipeline'.assembly entropy files : Except Error (Nat × Assembly π κ)) = .error e' ∧
      F e e') ∨
    ∃ (width : Nat) (producers producers' : List π) (collector : Option κ) (schema : Schema),
      pipeline.assembly entropy files = .ok (width, ⟨producers, collector, schema⟩) ∧
      pipeline'.assembly entropy files = .ok (width, ⟨producers', collector, schema⟩) ∧
      Interchangeable producers producers' := by
  simp only [assembly, ← hsource]
  cases pipeline.source.schema files with
  | error e => exact .inl ⟨e, e, rfl, rfl, hF e⟩
  | ok schema =>
    have halike := hsteps entropy schema
    dsimp only [bind, Except.bind]
    generalize (assemble entropy 0 schema pipeline.steps : Except Error (Assembly π κ)) = a
      at halike ⊢
    generalize (assemble entropy 0 schema pipeline'.steps : Except Error (Assembly π κ)) = a'
      at halike ⊢
    cases halike with
    | failed hfail => exact .inl ⟨_, _, rfl, rfl, hfail⟩
    | opened collector output hproducers =>
      exact .inr ⟨schema.width, _, _, collector, output, rfl, rfl, hproducers⟩

variable (hw : w.SameButLog w')
include hw

/-- Runs of the two pipelines give the same result and leave sessions that differ in their logs at
    most. -/
theorem run_interchanged [Consumer Files κ] :
    SameResult F (pipeline.run w).1 (pipeline'.run w').1 ∧
      (pipeline.run w).2.SameButLog (pipeline'.run w').2 := by
  have htie := tie_sameButLog pipeline.options pipeline'.options
  have hopen : (pipeline'.source.openOn w'.files w'.spent).1 =
      (pipeline.source.openOn w.files w.spent).1 := by rw [hsource, hw.files, hw.spent]
  obtain ⟨e, e', hfails, hfails', hfail⟩ |
    ⟨width, producers, producers', collector, schema, hopens, hopens', hproducers⟩ :=
    assembly_alike hF hsource hsteps w.fresh w.files
  · rw [hw.files, hw.fresh] at hfails'
    rw [run_of_not_assembled hfails, run_of_not_assembled hfails']
    have hstarted := htie.startRun hw
    exact ⟨.failed hfail, hstarted.fail pipeline.options pipeline'.options e e'⟩
  · rw [hw.files, hw.fresh] at hopens'
    have hbegun := begun_sameButLog hsource pipeline.length pipeline'.length schema hw
    -- the assembly comes first, so a source that does not open fails a run that has begun
    rcases hitems : (pipeline.source.openOn w.files w.spent).1 with e | items
    · rw [run_of_not_opened hopens hitems, run_of_not_opened hopens' (hopen.trans hitems)]
      exact ⟨.same _, htie.fail e hbegun⟩
    · -- the chains cannot be told apart in sessions that differ in their logs
      obtain ⟨D, hD, hconnect⟩ := hproducers.exists_bisimulation (htie.parallel κ)
      obtain ⟨result, w₁, w₁', hpush, hpush', hafter⟩ :=
        hD.pushAndClose htie width items
          (hconnect (t := Guarded.start ⟨collector.getD
            (StepKind.ofCollector ι (.table schema []))⟩) ⟨rfl, hbegun⟩)
      rw [run_of_opened hopens hitems, run_of_opened hopens' (hopen.trans hitems)]
      simp only [Assembly.chain, hpush, hpush']
      exact ⟨.same result, htie.closeRun result hafter⟩

/-- Readers of the two pipelines give the same answers, however often they are asked. -/
theorem iterate_interchanged
    (hreader : F (.schemaMismatch (.afterCollector pipeline.length readerOutline))
      (.schemaMismatch (.afterCollector pipeline'.length readerOutline))) :
    ReadAlike F (pipeline.iterate w : Except Error (Sigma (RowIterator π α)) × Session α)
      (pipeline'.iterate w') := by
  have htie := tie_sameButLog pipeline.options pipeline'.options
  have hopen : (pipeline'.source.openOn w'.files w'.spent).1 =
      (pipeline.source.openOn w.files w.spent).1 := by rw [hsource, hw.files, hw.spent]
  -- a reader that cannot be started leaves the counters and files of a run that has failed
  have hfailed {e e' : Error} (hfail : F e e')
      (hreads : (pipeline.openForReader w.fresh w.files :
        Except Error (Nat × List π × Schema)) = .error e)
      (hreads' : (pipeline'.openForReader w'.fresh w'.files :
        Except Error (Nat × List π × Schema)) = .error e') :
      ReadAlike F (pipeline.iterate w : Except Error (Sigma (RowIterator π α)) × Session α)
        (pipeline'.iterate w') := by
    rw [iterate_of_not_assembled hreads, iterate_of_not_assembled hreads']
    exact ⟨(htie.startRun hw).fail pipeline.options pipeline'.options e e', hfail⟩
  obtain ⟨e, e', hfails, hfails', hfail⟩ |
    ⟨width, producers, producers', collector, schema, hopens, hopens', hproducers⟩ :=
    assembly_alike hF hsource hsteps w.fresh w.files
  · rw [hw.files, hw.fresh] at hfails'
    exact hfailed hfail (by rw [openForReader, hfails]; rfl) (by rw [openForReader, hfails']; rfl)
  · rw [hw.files, hw.fresh] at hopens'
    cases collector with
    -- no reader stands behind a collector
    | some collector =>
      exact hfailed hreader (by rw [openForReader, hopens]; rfl)
        (by rw [openForReader, hopens']; rfl)
    | none =>
      have hreads : pipeline.openForReader w.fresh w.files = .ok (width, producers, schema) := by
        rw [openForReader, hopens]
        rfl
      have hreads' : pipeline'.openForReader w'.fresh w'.files =
          .ok (width, producers', schema) := by
        rw [openForReader, hopens']
        rfl
      have hbegun :=
        begun_sameButLog hsource (pipeline.length + 1) (pipeline'.length + 1) schema hw
      rcases hitems : (pipeline.source.openOn w.files w.spent).1 with e | items
      · rw [iterate_of_not_opened hreads hitems,
          iterate_of_not_opened hreads' (hopen.trans hitems)]
        exact ⟨htie.fail e hbegun, hF e⟩
      · obtain ⟨D, hD, hconnect⟩ := hproducers.exists_bisimulation (htie.parallel Outbox)
        rw [iterate_of_opened hreads hitems, iterate_of_opened hreads' (hopen.trans hitems)]
        have hstart : RowIterator.Beside pipeline.options pipeline'.options Session.SameButLog D
            (.start pipeline.options width producers items) _
            (.start pipeline'.options width producers' items) _ :=
          .underway (RowIterator.emitted_connect producers) (RowIterator.emitted_connect producers')
            (hconnect ⟨rfl, hbegun⟩)
        refine ⟨hbegun, fun k => ?_⟩
        obtain ⟨hanswers, hlast⟩ := RowIterator.ask_beside htie hD hstart k
        exact ⟨hanswers, hlast.tied hD⟩

end Pipeline

end RowFlow
