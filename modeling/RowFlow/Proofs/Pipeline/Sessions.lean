import RowFlow.Proofs.Pipeline.Opening

/-!
# Sessions in Step

Two runs that go on in different sessions do the same to them when the same is added to both
counters, the same events are reported to both logs, and the files stay as they are. Whatever a run
does to a session keeps two sessions in step; only the event that ends a run well carries the
counters themselves, which differ if they differed before.
-/

namespace RowFlow

variable {α : Type}

/-! ## Adding to counters -/

instance : Add Counters where
  add a b := ⟨a.runs + b.runs, a.failedRuns + b.failedRuns, a.rowsPulled + b.rowsPulled,
    a.rowsCollected + b.rowsCollected, a.earlyStops + b.earlyStops⟩

/-- Counters add up one by one. -/
theorem Counters.mk_add_mk (runs failed pulled collected stops runs' failed' pulled' collected'
    stops' : Nat) :
    (⟨runs, failed, pulled, collected, stops⟩ : Counters) +
        ⟨runs', failed', pulled', collected', stops'⟩ =
      ⟨runs + runs', failed + failed', pulled + pulled', collected + collected', stops + stops'⟩ :=
  rfl

/-- Adding counters is associative. -/
theorem Counters.add_assoc (a b c : Counters) : a + b + c = a + (b + c) := by
  simp only [HAdd.hAdd, Add.add, Counters.mk.injEq]
  exact ⟨Nat.add_assoc .., Nat.add_assoc .., Nat.add_assoc .., Nat.add_assoc .., Nat.add_assoc ..⟩

/-- A change that adds to counters, whatever they are. -/
def Counters.Adds (f : Counters → Counters) : Prop := ∃ added, ∀ c, f c = c + added

/-- No observer looks at the counters that the end of a run is reported with. -/
def Options.IgnoresCounters (options : Options α) : Prop :=
  ∀ observer ∈ options.observer, ∀ c c' log,
    observer.onEvent (.finished c) log = observer.onEvent (.finished c') log

/-! ## Sessions in step -/

namespace Session

/-- Since two sessions were `s₀` and `t₀`, the same has happened in them. -/
structure InStep (options : Options α) (s₀ t₀ s t : Session α) : Prop where
  files : s.files = s₀.files ∧ t.files = t₀.files
  counters : ∃ added, s.counters = s₀.counters + added ∧ t.counters = t₀.counters + added
  log : s₀.log = t₀.log → s₀.counters = t₀.counters ∨ options.IgnoresCounters → s.log = t.log

namespace InStep

variable {options : Options α} {s₀ t₀ s t : Session α}

/-- Nothing has happened yet. -/
theorem start : InStep options s₀ t₀ s₀ t₀ :=
  ⟨⟨rfl, rfl⟩, ⟨.zero, rfl, rfl⟩, fun hlog _ => hlog⟩

/-- The same is counted in both. -/
theorem count (h : InStep options s₀ t₀ s t) {f : Counters → Counters} (hf : Counters.Adds f) :
    InStep options s₀ t₀ (s.count f) (t.count f) := by
  obtain ⟨more, hf⟩ := hf
  obtain ⟨added, hs, ht⟩ := h.counters
  refine ⟨h.files, ⟨added + more, ?_, ?_⟩, h.log⟩
  · simp only [Session.count, hf, hs, Counters.add_assoc]
  · simp only [Session.count, hf, ht, Counters.add_assoc]

/-- The observer is told the same in both. -/
theorem tell (h : InStep options s₀ t₀ s t) (f : Observer α → α → α) :
    InStep options s₀ t₀ (s.tell options f) (t.tell options f) := by
  simp only [Session.tell]
  cases options.observer with
  | none => exact h
  | some observer =>
    exact ⟨h.files, h.counters, fun hlog hc => congrArg (f observer) (h.log hlog hc)⟩

/-- The same is reported in both. -/
theorem report (h : InStep options s₀ t₀ s t) (event : Event) :
    InStep options s₀ t₀ (s.report options event) (t.report options event) :=
  h.tell _

/-- A run is started in both. -/
theorem startRun (h : InStep options s₀ t₀ s t) :
    InStep options s₀ t₀ (s.startRun options) (t.startRun options) :=
  (h.count ⟨⟨1, 0, 0, 0, 0⟩, fun _ => rfl⟩).report _

/-- A failure is told and counted in both. -/
theorem fail (h : InStep options s₀ t₀ s t) (error : Error) :
    InStep options s₀ t₀ (s.fail options error) (t.fail options error) := by
  -- the severity is a matter of the error, so both sessions alert or neither does
  have hfailed := ((h.count ⟨⟨0, 1, 0, 0, 0⟩, fun _ => rfl⟩).report
    (.failed (Severity.ofError error) error)).tell
      fun observer => observer.onFailure (Severity.ofError error) error
  simp only [Session.fail]
  split
  · exact hfailed.tell _
  · exact hfailed

/-- The counters that a finished run is reported with are equal, or nobody looks at them. -/
theorem succeed (h : InStep options s₀ t₀ s t) :
    InStep options s₀ t₀ (s.succeed options) (t.succeed options) := by
  obtain ⟨added, hs, ht⟩ := h.counters
  refine ⟨?_, ⟨added, ?_, ?_⟩, fun hlog hc => ?_⟩
  · simpa only [Session.succeed, files_report] using h.files
  · simpa only [Session.succeed, counters_report] using hs
  · simpa only [Session.succeed, counters_report] using ht
  · have hsame := h.log hlog hc
    simp only [Session.succeed, Session.report, Session.tell]
    cases hobserver : options.observer with
    | none => exact hsame
    | some observer =>
      dsimp only
      -- the event carries the counters, which are equal or are not looked at
      rcases hc with hc | hc
      · rw [hs, ht, hc, hsame]
      · rw [hsame]
        exact hc observer hobserver _ _ _

end InStep

end Session

/-! ## Launching in step -/

/-- Whether a source gives the same whenever it is read. -/
def Source.Rereadable : Source → Prop
  | .once _ _ => False
  | _ => True

/-- A source that can be read again gives the same whenever it is opened. -/
theorem Source.openOn_of_rereadable {source : Source} (h : source.Rereadable) (files : Files)
    (spent : Bool) : source.openOn files spent = (source.items files, spent) := by
  cases source with
  | once schema items => exact h.elim
  | _ => rfl

/-- And it leaves no mark in the session. -/
theorem Source.openIn_of_rereadable {source : Source} (h : source.Rereadable)
    (session : Session α) : source.openIn session = (source.items session.files, session) := by
  rw [openIn, openOn_of_rereadable h]

/-- A pipeline over a source that can be read again is launched in two sessions alike. -/
theorem Pipeline.launch_inStep (pipeline : Pipeline Step α) (hsource : pipeline.source.Rereadable)
    (entropy : Entropy) {s₀ t₀ s t : Session α} (hfiles : s₀.files = t₀.files)
    (h : Session.InStep pipeline.options s₀ t₀ s t) :
    (pipeline.launch entropy s).1 = (pipeline.launch entropy t).1 ∧
      Session.InStep pipeline.options s₀ t₀ (pipeline.launch entropy s).2
        (pipeline.launch entropy t).2 := by
  -- the files are the same in both, and neither the counters nor the log open anything
  have hst : s.files = t.files := h.files.1.trans (hfiles.trans h.files.2.symm)
  simp only [launch, hst]
  rcases pipeline.assembly entropy t.files with e | ⟨width, assembly⟩
  · exact ⟨rfl, h⟩
  · have hreported := h.report (.opened (pipeline.length + 1) assembly.schema)
    -- the source is read in both sessions, from the same files
    simp only [Source.openIn_of_rereadable hsource, Session.files_report, hst]
    rcases pipeline.source.items t.files with e | items
    · exact ⟨rfl, hreported⟩
    · exact ⟨rfl, hreported⟩

end RowFlow
