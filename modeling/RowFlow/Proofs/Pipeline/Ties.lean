import RowFlow.Proofs.Pipeline.Execution
import RowFlow.Proofs.Pipeline.Pushing

/-!
# Runs in Tied Sessions

Two sessions are tied by a relation that nothing a run does to a session can break. The same
pipeline goes the same way in both, each time under an observer of its own: runs give the same
result (`Pipeline.run_tied`), readers stand in front of the same rows (`Pipeline.iterate_tied`) and
give the same answers (`RowIterator.next_tied`), and the sessions are tied again afterwards.
-/

namespace RowFlow

variable {α α' : Type}

/-! ## Ties -/

/-- A relation between sessions with the same files, the same one-shot source and the same tape for
    the next run that survives whatever a run counts, reports, writes and reads. -/
structure Session.Tie (options : Options α) (options' : Options α')
    (S : Session α → Session α' → Prop) : Prop where
  files {w : Session α} {w' : Session α'} : S w w' → w.files = w'.files
  spent {w : Session α} {w' : Session α'} : S w w' → w.spent = w'.spent
  fresh {w : Session α} {w' : Session α'} : S w w' → w.fresh = w'.fresh
  count {w : Session α} {w' : Session α'} {f : Counters → Counters} :
    Counters.Adds f → S w w' → S (w.count f) (w'.count f)
  report {w : Session α} {w' : Session α'} (event : Event) :
    S w w' → S (w.report options event) (w'.report options' event)
  succeed {w : Session α} {w' : Session α'} :
    S w w' → S (w.succeed options) (w'.succeed options')
  fail {w : Session α} {w' : Session α'} (error : Error) :
    S w w' → S (w.fail options error) (w'.fail options' error)
  use {w : Session α} {w' : Session α'} (files : Files) (spent : Bool) :
    S w w' → S { w with files, spent } { w' with files, spent }

/-- The pipeline under another observer. -/
def Pipeline.under {ι : Type} (options : Options α') (pipeline : Pipeline ι α) : Pipeline ι α' :=
  { pipeline with options }

/-- The reader of a run under another observer. -/
def RowIterator.under {π : Type} {n : Nat} (options : Options α') (it : RowIterator π α n) :
    RowIterator π α' n :=
  { it with options }

namespace Session.Tie

variable {options : Options α} {options' : Options α'} {S : Session α → Session α' → Prop}
  {w : Session α} {w' : Session α'} (h : Session.Tie options options' S)
include h

/-- Tied sessions begin runs alike. -/
theorem startRun (hS : S w w') : S (w.startRun options) (w'.startRun options') :=
  h.report .started (h.count ⟨⟨1, 0, 0, 0, 0⟩, fun _ => rfl⟩ hS)

/-- Tied sessions end runs alike. -/
theorem closeRun {β : Type} (result : Except Error β) (hS : S w w') :
    S (w.closeRun options result) (w'.closeRun options' result) := by
  cases result with
  | error e => exact h.fail e hS
  | ok _ => exact h.succeed hS

/-- Counting and reporting keep two sessions tied, whatever the chains are. -/
theorem steady (σ : Type) : Steady options options' (InBoth (τ := σ) S) where
  count hf hS := ⟨hS.1, h.count hf hS.2⟩
  report event hS := ⟨hS.1, h.report event hS.2⟩

/-- Collectors count rows and look at files. -/
theorem parallel (κ : Type) [Consumer Files κ] :
    Parallel (InBoth (τ := Guarded (Metered κ)) S) where
  consume := by
    -- a closed collector refuses the row in both sessions
    rintro row ⟨⟨inner⟩, closed⟩ w _ w' - ⟨rfl, hS⟩
    cases closed with
    | true => exact ⟨rfl, rfl, hS⟩
    | false =>
      -- an open collector counts the row, and then looks at files that are the same in both
      have hcounted := h.count (f := fun c => { c with rowsCollected := c.rowsCollected + 1 })
        ⟨⟨0, 0, 0, 1, 0⟩, fun _ => rfl⟩ hS
      have hused := h.use (Consumer.consume row inner w.files).2.2 w.spent hcounted
      obtain ⟨files, counters, spent, log, entropy⟩ := w
      obtain ⟨files', counters', spent', log', entropy'⟩ := w'
      obtain rfl : files = files' := h.files hS
      obtain rfl : spent = spent' := h.spent hS
      exact ⟨rfl, rfl, hused⟩
  close := by
    rintro ⟨⟨inner⟩, closed⟩ w _ w' ⟨rfl, hS⟩
    cases closed with
    | true => exact ⟨rfl, rfl, hS⟩
    | false =>
      have hused := h.use (Consumer.close inner w.files).2.2 w.spent hS
      obtain ⟨files, counters, spent, log, entropy⟩ := w
      obtain ⟨files', counters', spent', log', entropy'⟩ := w'
      obtain rfl : files = files' := h.files hS
      obtain rfl : spent = spent' := h.spent hS
      exact ⟨rfl, rfl, hused⟩

section
variable {π κ : Type} [Producer π] [Consumer Files κ] {n : Nat}
  (c : Chain π (Guarded (Metered κ)) n)

/-- A chain is closed alike in tied sessions. -/
theorem close (hS : S w w') :
    ∃ result c₁ w₁ w₁', Consumer.close c w = (result, c₁, w₁) ∧
      Consumer.close c w' = (result, c₁, w₁') ∧ S w₁ w₁' := by
  obtain ⟨hresult, hchain, hsession⟩ :=
    (Chain.parallel_inBoth (h.parallel κ) n).close (s := c) ⟨rfl, hS⟩
  exact ⟨_, _, _, _, rfl, Prod.ext hresult.symm (Prod.ext hchain.symm rfl), hsession⟩

/-- A row is pushed alike in tied sessions. -/
theorem pushRow (width : Nat) (row : Row) (pulled : Nat) (hS : S w w') :
    ∃ answer now c₁ w₁ w₁', pushRow options width row pulled c w = (answer, now, c₁, w₁) ∧
      RowFlow.pushRow options' width row pulled c w' = (answer, now, c₁, w₁') ∧ S w₁ w₁' := by
  have hstep := (Chain.parallel_inBoth (π := π) (h.parallel κ) n).consume
  obtain ⟨answer, now, c₁, w₁, _, w₁', hpush, hpush', rfl, hafter⟩ :=
    pushRow_lockstep (hstep.mono fun row (_ : row.length = width) => trivial) (h.steady _) row
      pulled (s := c) ⟨rfl, hS⟩
  exact ⟨answer, now, c₁, w₁, w₁', hpush, hpush', hafter⟩

/-- A source is pushed alike in tied sessions. -/
theorem pushAndClose (width : Nat) (items : List (Except Error Row)) (hS : S w w') :
    ∃ result w₁ w₁', pushAndClose options width items c w = (result, w₁) ∧
      RowFlow.pushAndClose options' width items c w' = (result, w₁') ∧ S w₁ w₁' := by
  have hstep := (Chain.parallel_inBoth (π := π) (h.parallel κ) n).consume
  -- the chains are the same on both sides, and go the same way row by row
  obtain ⟨result, c₁, w₁, _, w₁', hpush, hpush', rfl, hafter⟩ :=
    pushAll_lockstep (hstep.mono fun row (_ : row.length = width) => trivial) (h.steady _) items 0
      (s := c) ⟨rfl, hS⟩
  simp only [RowFlow.pushAndClose, hpush, hpush']
  cases result with
  -- an error ends both runs before they are closed
  | error e => exact ⟨_, _, _, rfl, rfl, hafter⟩
  | ok _ =>
    obtain ⟨result, c₂, w₂, w₂', hclose, hclose', hend⟩ := h.close c₁ hafter
    simp only [hclose, hclose']
    exact ⟨_, _, _, rfl, rfl, hend⟩

end

end Session.Tie

/-! ## Pipelines -/

namespace Pipeline

variable {ι π κ : Type} [StepKind ι π κ] {pipeline : Pipeline ι α} {options' : Options α'}
  {S : Session α → Session α' → Prop} {w : Session α} {w' : Session α'}
  (h : Session.Tie pipeline.options options' S)
include h

/-- Tied sessions are tied when the steps and the source have been opened. -/
theorem begun_tied (steps : Nat) (schema : Schema) (hS : S w w') :
    S (pipeline.begun steps schema w) ((pipeline.under options').begun steps schema w') := by
  have hreported := h.report (.opened steps schema) (h.startRun hS)
  have hused := h.use w.files (pipeline.source.openOn w.files w.spent).2 hreported
  simp only [begun]
  rw [show (pipeline.under options').source = pipeline.source from rfl,
    show (pipeline.under options').options = options' from rfl, ← h.files hS, ← h.spent hS]
  -- reports leave the files as they are
  have hfiles : ((w.startRun pipeline.options).report pipeline.options (.opened steps schema)).files
      = w.files := by rw [Session.files_report, Session.files_startRun]
  have hfiles' : ((w'.startRun options').report options' (.opened steps schema)).files =
      w.files := by rw [Session.files_report, Session.files_startRun, h.files hS]
  generalize (w.startRun pipeline.options).report _ _ = v at hused hfiles ⊢
  generalize (w'.startRun options').report _ _ = v' at hused hfiles' ⊢
  obtain ⟨files, counters, spent, log, entropy⟩ := v
  obtain ⟨files', counters', spent', log', entropy'⟩ := v'
  obtain rfl : files = w.files := hfiles
  obtain rfl : files' = w.files := hfiles'
  exact hused

/-- A pipeline gives the same result in tied sessions, and they are tied again. -/
theorem run_tied [Producer π] [Consumer Files κ] (hS : S w w') :
    ∃ result w₁ w₁', pipeline.run w = (result, w₁) ∧
      (pipeline.under options').run w' = (result, w₁') ∧ S w₁ w₁' := by
  have hopen : ((pipeline.under options').source.openOn w'.files w'.spent).1 =
      (pipeline.source.openOn w.files w.spent).1 := by rw [h.files hS, h.spent hS]; rfl
  have hsame : ((pipeline.under options').assembly w'.fresh w'.files :
      Except Error (Nat × Assembly π κ)) = pipeline.assembly w.fresh w.files := by
    rw [h.files hS, h.fresh hS]
    rfl
  rcases hassembly : (pipeline.assembly w.fresh w.files : Except Error (Nat × Assembly π κ)) with
    e | ⟨width, assembly⟩
  -- the steps and the source open alike in both sessions
  · rw [run_of_not_assembled hassembly, run_of_not_assembled (hsame.trans hassembly)]
    exact ⟨_, _, _, rfl, rfl, h.fail e (h.startRun hS)⟩
  · have hbegun := begun_tied h pipeline.length assembly.schema hS
    rcases hitems : (pipeline.source.openOn w.files w.spent).1 with e | items
    · rw [run_of_not_opened hassembly hitems,
        run_of_not_opened (hsame.trans hassembly) (hopen.trans hitems)]
      exact ⟨_, _, _, rfl, rfl, h.fail e hbegun⟩
    · rw [run_of_opened hassembly hitems,
        run_of_opened (hsame.trans hassembly) (hopen.trans hitems)]
      -- from here on only the chain acts on the sessions
      obtain ⟨result, w₁, w₁', hpush, hpush', hafter⟩ :=
        h.pushAndClose (assembly.chain ι) width items hbegun
      simp only [hpush]
      refine ⟨_, _, _, rfl, ?_, h.closeRun result hafter⟩
      exact congrArg (fun run : Except Error (Option Output) × Session α' =>
        (run.1, run.2.closeRun options' run.1)) hpush'

/-- A reader of a pipeline stands in front of the same rows in tied sessions. -/
theorem iterate_tied (hS : S w w') :
    ∃ result w₁ w₁', pipeline.iterate w = (result, w₁) ∧
      (pipeline.under options').iterate w' =
        (result.map fun it => ⟨it.1, it.2.under options'⟩, w₁') ∧
      (∀ it, result = .ok it → it.2.options = pipeline.options) ∧ S w₁ w₁' := by
  have hopen : ((pipeline.under options').source.openOn w'.files w'.spent).1 =
      (pipeline.source.openOn w.files w.spent).1 := by rw [h.files hS, h.spent hS]; rfl
  have hsame : ((pipeline.under options').openForReader w'.fresh w'.files :
      Except Error (Nat × List π × Schema)) = pipeline.openForReader w.fresh w.files := by
    rw [h.files hS, h.fresh hS]
    rfl
  rcases hreader : (pipeline.openForReader w.fresh w.files :
      Except Error (Nat × List π × Schema)) with e | ⟨width, producers, schema⟩
  · rw [iterate_of_not_assembled hreader, iterate_of_not_assembled (hsame.trans hreader)]
    exact ⟨_, _, _, rfl, rfl, nofun, h.fail e (h.startRun hS)⟩
  · have hbegun := begun_tied h (pipeline.length + 1) schema hS
    rcases hitems : (pipeline.source.openOn w.files w.spent).1 with e | items
    · rw [iterate_of_not_opened hreader hitems,
        iterate_of_not_opened (hsame.trans hreader) (hopen.trans hitems)]
      exact ⟨_, _, _, rfl, rfl, nofun, h.fail e hbegun⟩
    · -- the two readers differ in the options alone
      rw [iterate_of_opened hreader hitems,
        iterate_of_opened (hsame.trans hreader) (hopen.trans hitems)]
      exact ⟨_, _, _, rfl, rfl, fun it hit => Except.ok.inj hit ▸ rfl, hbegun⟩

end Pipeline

/-! ## Readers -/

namespace RowIterator

variable {π : Type} {n : Nat} {options : Options α} {options' : Options α'}
  {S : Session α → Session α' → Prop} {w : Session α} {w' : Session α'}

/-- The outcome of a question to a reader, and that of the same question in a tied session. -/
def Tied (options : Options α) (options' : Options α') (S : Session α → Session α' → Prop)
    (outcome : Option (Except Error Row) × RowIterator π α n × Session α)
    (outcome' : Option (Except Error Row) × RowIterator π α' n × Session α') : Prop :=
  outcome.1 = outcome'.1 ∧ outcome.2.1.under options' = outcome'.2.1 ∧
    outcome.2.1.options = options ∧ S outcome.2.2 outcome'.2.2

/-- A waiting row is given alike. -/
theorem giveWaiting_tied (it : RowIterator π α n) (hit : it.options = options) (hS : S w w') :
    Tied options options' S (it.giveWaiting w) ((it.under options').giveWaiting w') := by
  obtain ⟨_, width, items, chain, pulled, waiting⟩ := it
  cases waiting with
  | nil => exact ⟨rfl, rfl, hit, hS⟩
  | cons row waiting => exact ⟨rfl, rfl, hit, hS⟩

variable (h : Session.Tie options options' S)
include h

/-- An error is given alike. -/
theorem giveError_tied (it : RowIterator π α n) (hit : it.options = options) (e : Error)
    (hS : S w w') :
    Tied options options' S (it.giveError e w) ((it.under options').giveError e w') := by
  obtain rfl := hit
  exact ⟨rfl, rfl, rfl, h.fail e hS⟩

variable [Producer π]

/-- The end of a source is given alike. -/
theorem finish_tied (it : RowIterator π α n) (hit : it.options = options)
    (chain : FetchedChain π n) (hS : S w w') :
    Tied options options' S (it.finish chain w) ((it.under options').finish chain w') := by
  obtain ⟨own, width, items, chain?, pulled, waiting⟩ := it
  obtain rfl : own = options := hit
  obtain ⟨result, c₁, w₁, w₁', hclose, hclose', hafter⟩ := h.close chain hS
  simp only [finish, under, hclose, hclose']
  cases result with
  | error e => exact giveError_tied h ⟨_, _, _, _, _, _⟩ rfl e hafter
  | ok _ => exact giveWaiting_tied ⟨_, _, _, _, _, _⟩ rfl (h.succeed hafter)

/-- Rows are pulled alike, up to the one that comes out. -/
theorem pull_tied (it : RowIterator π α n) (hit : it.options = options)
    (chain : FetchedChain π n) (items : List (Except Error Row)) (hS : S w w') :
    Tied options options' S (it.pull chain w items) ((it.under options').pull chain w' items) := by
  -- the reader and its chain go on after each row that gives nothing
  induction items generalizing it chain w w' with
  | nil => exact finish_tied h it hit chain hS
  | cons item rest ih =>
    cases item with
    | error e => exact giveError_tied h it hit e hS
    | ok row =>
      obtain ⟨own, width, items, chain?, pulled, waiting⟩ := it
      obtain rfl : own = options := hit
      obtain ⟨answer, now, c₁, w₁, w₁', hpush, hpush', hafter⟩ :=
        h.pushRow chain width row pulled hS
      simp only [pull, under, hpush, hpush']
      rcases answer with e | _ | _
      · exact giveError_tied h ⟨_, _, _, _, _, _⟩ rfl e hafter
      · dsimp only
        split
        · -- nothing has come out, so the next row is pulled
          exact ih ⟨_, _, _, _, _, _⟩ rfl c₁ hafter
        · exact giveWaiting_tied ⟨_, _, _, _, _, _⟩ rfl hafter
      · dsimp only
        split
        · exact finish_tied h ⟨_, _, _, _, _, _⟩ rfl c₁ hafter
        · exact giveWaiting_tied ⟨_, _, _, _, _, _⟩ rfl hafter

/-- A reader gives the same answer in tied sessions, and they are tied again. -/
theorem next_tied {it : RowIterator π α n} (hit : it.options = options) (hS : S w w') :
    Tied options options' S (it.next w) ((it.under options').next w') := by
  have hwaiting : Tied options options' S (it.giveWaiting w) ((it.under options').giveWaiting w') :=
    giveWaiting_tied it hit hS
  have hpull (chain : FetchedChain π n) := pull_tied h it hit chain it.items hS
  obtain ⟨_, width, items, chain, pulled, waiting⟩ := it
  -- a row that waits is given first, and without a chain there is nothing to pull
  rcases waiting with _ | ⟨row, rest⟩
  · rcases chain with _ | chain
    · exact hwaiting
    · exact hpull chain
  · exact hwaiting

end RowIterator

end RowFlow
