import Mathlib
import RowFlow.Proofs.Pipeline.Demand

/-!
# Reading and Collecting

The rows of a pipeline of transforms can be collected at once or asked for one by one. Both give the
same rows or the same error, report the same events and count the same
(`Pipeline.ReadsAsCollected`). A run that collects rows and one in front of a reader that fetches
nothing stay in step, row by row (`Launch.pushAndClose_course`), and a reader that fetches rows
follows the course of the latter.
-/

namespace RowFlow

variable {α : Type}

/-! ## Matched ends -/

section
variable (options : Options α) (s₀ t₀ : Session α) (width : Nat)

/-- A collector and an outbox that hold the same rows, in two sessions in step. -/
def Matched (t : Guarded (Metered Collector)) (s : Session α) (t' : Guarded (Metered Outbox))
    (s' : Session α) : Prop :=
  Session.InStep options s₀ t₀ s s' ∧ ∃ held, t = rowsEnd width held ∧ t' = outboxEnd held

theorem lockstep_matched : Lockstep (·.length = width) (Matched options s₀ t₀ width) := by
  rintro row _ s _ s' hrow ⟨hstep, held, rfl, rfl⟩
  rw [consume_rowsEnd held hrow, consume_outboxEnd]
  exact ⟨rfl, hstep.count ⟨⟨0, 0, 0, 1, 0⟩, fun _ => rfl⟩, held ++ [row], rfl, rfl⟩

theorem steady_matched : Steady options options (Matched options s₀ t₀ width) where
  count hf h := ⟨h.1.count hf, h.2⟩
  report event h := ⟨h.1.report event, h.2⟩

end

/-! ## Runs in step -/

namespace Launch

variable {options : Options α} {s₀ t₀ s t : Session α} {launch : Launch}

/-- A run that collects rows and the course of a run in front of a reader end alike: with the same
    rows, or with the same error. -/
theorem pushAndClose_course
    (h : Stage.FitAll launch.stages launch.width launch.schema.width)
    (hst : Session.InStep options s₀ t₀ s t) :
    (∃ rows s', pushAndClose options launch.width launch.items launch.collecting s =
        (.ok (some (.rows rows)), s') ∧
      (launch.course options t).rows = rows ∧ (launch.course options t).failure = none ∧
      Session.InStep options s₀ t₀ (s'.succeed options) (launch.course options t).session) ∨
    ∃ e s' stranded, pushAndClose options launch.width launch.items launch.collecting s =
        (.error e, s') ∧
      (launch.course options t).failure = some (e, stranded) ∧
      Session.InStep options s₀ t₀ (s'.fail options e) (launch.course options t).session := by
  have hstart : Matched options s₀ t₀ launch.schema.width (rowsEnd launch.schema.width []) s
      (outboxEnd []) t := ⟨hst, [], rfl, rfl⟩
  have hlockstep := lockstep_matched options s₀ t₀ launch.schema.width
  have halike : Chain.Alike _ launch.schema.width launch.stages.length launch.width
      launch.collecting s launch.fetching t := Chain.alike_connect h hstart
  obtain ⟨result, c₁, s₁, c₁', t₁, hpush, hpush', h₁⟩ :=
    pushAll_lockstep (Chain.lockstep_alike hlockstep launch.stages.length launch.width)
      (Chain.steady_alike (steady_matched options s₀ t₀ launch.schema.width) _ _ _) launch.items 0
      halike
  cases result with
  | error e =>
    refine .inr ⟨e, s₁, [], ?_, ?_, ?_⟩
    · rw [pushAndClose, hpush]
    · rw [course, RowIterator.course, hpush']
    · rw [course, RowIterator.course, hpush']
      exact h₁.terminal.1.fail e
  | ok _ =>
    -- both chains close alike up to their ends, which hold the same rows
    have hclosing := h₁.closing hlockstep
    have hrun : pushAndClose options launch.width launch.items launch.collecting s =
        ((Chain.closing _ c₁ s₁).1, (Chain.closing _ c₁ s₁).2.2) := by
      rw [pushAndClose, hpush]
      rfl
    have hcourse : launch.course options t = RowIterator.closedCourse options
        (RowIterator.emitted c₁') (Chain.closing _ c₁' t₁) := by
      rw [course, RowIterator.course, hpush']
    generalize Chain.closing _ c₁ s₁ = closed at hclosing hrun
    generalize Chain.closing _ c₁' t₁ = closed' at hclosing hcourse
    cases hclosing with
    | failed e ht =>
      rw [hcourse]
      exact .inr ⟨e, _, _, hrun, rfl, ht.1.fail e⟩
    | closed ht =>
      obtain ⟨hstep, held, rfl, rfl⟩ := ht
      rw [hcourse]
      exact .inl ⟨held, _, hrun, rfl, rfl, hstep.succeed⟩

end Launch

/-! ## Reading instead of collecting -/

/-- A course that fails answers with its error once. -/
theorem Course.errorsOf_answers {course : Course α} {e : Error} {stranded : List Row}
    (h : course.failure = some (e, stranded)) (k : Nat) :
    errorsOf (course.answers.map some ++ List.replicate k none) = [e] := by
  have hanswers : course.answers.map some ++ List.replicate k none =
      course.rows.map (some ∘ .ok) ++
        (some (.error e) :: (stranded.map (some ∘ .ok) ++ List.replicate k none)) := by
    rw [answers, ending, h, List.map_append, List.map_map, List.map_cons, List.map_map,
      List.append_assoc, List.cons_append]
  rw [hanswers, errorsOf_rows_append, errorsOf, errorsOf_rows_append, errorsOf_nothing]

namespace Pipeline

/-- A reader that starts in a session `t` gives rows that a run from a session `s` has collected, in
    the same order, and then nothing. -/
def Gives (pipeline : Pipeline Step α) (s t : Session α) (rows : List Row) : Prop :=
  ∃ n it opened, pipeline.iterate t = (.ok ⟨n, it⟩, opened) ∧
    ∀ more, (it.ask (rows.length + 1 + more) opened).1 =
        rows.map (some ∘ .ok) ++ List.replicate (more + 1) none ∧
      Session.InStep pipeline.options s t (pipeline.collectRows s).2
        (it.ask (rows.length + 1 + more) opened).2.2

/-- A reader that starts in a session `t` answers the error once that a run from a session `s` has
    failed with while it collected rows. -/
def FailsOnce (pipeline : Pipeline Step α) (s t : Session α) (e : Error) : Prop :=
  ∃ n it opened k, pipeline.iterate t = (.ok ⟨n, it⟩, opened) ∧
    ∀ more, errorsOf (it.ask (k + more) opened).1 = [e] ∧
      Session.InStep pipeline.options s t (pipeline.collectRows s).2 (it.ask (k + more) opened).2.2

section
variable {source : Source} {ts : List Transform} {options : Options α} {s t s₁ t₁ : Session α}

section
variable {launch : Launch}
  (hs : (ofTransforms source ts options).launch s.fresh (s.startRun options) = (.ok launch, s₁))
  (ht : (ofTransforms source ts options).launch t.fresh (t.startRun options) = (.ok launch, t₁))
include hs ht

/-- The reader's course has the collected rows and no error, so it gives these rows. -/
theorem gives_of_launches {rows : List Row} {s' : Session α}
    (hrun : pushAndClose options launch.width launch.items launch.collecting s₁ =
      (.ok (some (.rows rows)), s'))
    (hrows : (launch.course options t₁).rows = rows)
    (hfailure : (launch.course options t₁).failure = none)
    (hend : Session.InStep options s t (s'.succeed options) (launch.course options t₁).session) :
    ((ofTransforms source ts options).collectRows s).1 = .ok rows ∧
      (ofTransforms source ts options).Gives s t rows := by
  have hcollect : (ofTransforms source ts options).collectRows s =
      (.ok rows, s'.succeed options) := by
    rw [collectRows_eq, hs]
    dsimp only
    rw [hrun]
    rfl
  have hiterate : (ofTransforms source ts options).iterate t =
      (.ok ⟨_, launch.iterator options⟩, t₁) := by rw [iterate_eq, ht]
  have hyields := launch.yields_course (fitAll_of_launch ht) options t₁
  have hanswers : (launch.course options t₁).answers = rows.map .ok := by
    rw [Course.answers, Course.ending, hrows, hfailure, List.append_nil]
  rw [hanswers] at hyields
  rw [Gives, hcollect]
  refine ⟨rfl, _, _, _, hiterate, fun more => ⟨?_, ?_⟩⟩
  · have hall := hyields.ask_all (1 + more)
    rw [List.length_map, List.map_map, ← Nat.add_assoc, Nat.add_comm 1 more] at hall
    exact hall
  · rw [hyields.ask_session (by rw [List.length_map]; omega)]
    exact hend

/-- The reader's course fails with the error of the run, so it answers this error, once. -/
theorem failsOnce_of_launches {e : Error} {stranded : List Row} {s' : Session α}
    (hrun : pushAndClose options launch.width launch.items launch.collecting s₁ = (.error e, s'))
    (hfailure : (launch.course options t₁).failure = some (e, stranded))
    (hend : Session.InStep options s t (s'.fail options e) (launch.course options t₁).session) :
    ((ofTransforms source ts options).collectRows s).1 = .error e ∧
      (ofTransforms source ts options).FailsOnce s t e := by
  have hcollect : (ofTransforms source ts options).collectRows s =
      (.error e, s'.fail options e) := by
    rw [collectRows_eq, hs]
    dsimp only
    rw [hrun]
    rfl
  have hiterate : (ofTransforms source ts options).iterate t =
      (.ok ⟨_, launch.iterator options⟩, t₁) := by rw [iterate_eq, ht]
  have hyields := launch.yields_course (fitAll_of_launch ht) options t₁
  rw [FailsOnce, hcollect]
  -- one question more than there are answers: whatever the course strands, the error is one
  refine ⟨rfl, _, _, _, (launch.course options t₁).answers.length + 1, hiterate,
    fun more => ⟨?_, ?_⟩⟩
  · rw [Nat.add_assoc, hyields.ask_all, Course.errorsOf_answers hfailure]
  · rw [hyields.ask_session (by omega)]
    exact hend

end

variable (hsource : source.Rereadable) (hfiles : s.files = t.files)
include hsource hfiles

/-- A pipeline that cannot be opened fails alike in both runs, whatever they would have drawn. -/
theorem fails_of_opening {e : Error}
    (h : (ofTransforms source ts options).opening s.fresh s.files s.spent = .error e) :
    ((ofTransforms source ts options).collectRows s).1 = .error e ∧
      ((ofTransforms source ts options).iterate t).1 = .error e ∧
      Session.InStep options s t ((ofTransforms source ts options).collectRows s).2
        ((ofTransforms source ts options).iterate t).2 := by
  have hbegun : Session.InStep options s t (s.startRun options) (t.startRun options) :=
    Session.InStep.start.startRun
  have hlaunch := launch_inStep (ofTransforms source ts options) hsource s.fresh hfiles hbegun
  rcases hs : (ofTransforms source ts options).launch s.fresh (s.startRun options) with
    ⟨launched, s₁⟩
  rcases ht : (ofTransforms source ts options).launch s.fresh (t.startRun options) with
    ⟨launched', t₁⟩
  rw [hs, ht] at hlaunch
  obtain ⟨rfl, hstep⟩ : launched = launched' ∧ Session.InStep options s t s₁ t₁ := hlaunch
  obtain rfl : launched = .error e := (opening_of_launch hs).symm.trans h
  rw [collectRows_eq, hs, iterate_eq, launch_of_error ht t.fresh]
  exact ⟨rfl, rfl, hstep.fail e⟩

variable (hdraws : s.fresh.AgreeUpTo (Transform.drawn ts) t.fresh)
include hdraws

/-- Where a pipeline opens, its rows are collected and the reader gives them, or both fail. -/
theorem gives_or_failsOnce {launch : Launch}
    (h : (ofTransforms source ts options).opening s.fresh s.files s.spent = .ok launch) :
    (∃ rows, ((ofTransforms source ts options).collectRows s).1 = .ok rows ∧
      (ofTransforms source ts options).Gives s t rows) ∨
    ∃ e, ((ofTransforms source ts options).collectRows s).1 = .error e ∧
      (ofTransforms source ts options).FailsOnce s t e := by
  have hbegun : Session.InStep options s t (s.startRun options) (t.startRun options) :=
    Session.InStep.start.startRun
  have hlaunch := launch_inStep (ofTransforms source ts options) hsource s.fresh hfiles hbegun
  rcases hs : (ofTransforms source ts options).launch s.fresh (s.startRun options) with
    ⟨launched, s₁⟩
  rcases ht : (ofTransforms source ts options).launch t.fresh (t.startRun options) with
    ⟨launched', t₁⟩
  rw [hs, launch_congr_tape hdraws, ht] at hlaunch
  obtain ⟨rfl, hstep⟩ : launched = launched' ∧ Session.InStep options s t s₁ t₁ := hlaunch
  obtain rfl : launched = .ok launch := (opening_of_launch hs).symm.trans h
  rcases Launch.pushAndClose_course (fitAll_of_launch ht) hstep with
    ⟨rows, s', hrun, hrows, hfailure, hend⟩ | ⟨e, s', stranded, hrun, hfailure, hend⟩
  · exact .inl ⟨rows, gives_of_launches hs ht hrun hrows hfailure hend⟩
  · exact .inr ⟨e, failsOnce_of_launches hs ht hrun hfailure hend⟩

/-- Collected rows are given by a reader. -/
theorem gives_of_collectRows {rows : List Row}
    (h : ((ofTransforms source ts options).collectRows s).1 = .ok rows) :
    (ofTransforms source ts options).Gives s t rows := by
  cases hopening : (ofTransforms source ts options).opening s.fresh s.files s.spent with
  | error e =>
    have hfails := (fails_of_opening hsource hfiles hopening).1
    cases h.symm.trans hfails
  | ok launch =>
    rcases gives_or_failsOnce hsource hfiles hdraws hopening with
      ⟨rows', hrows, hgives⟩ | ⟨e, hfails, -⟩
    · obtain rfl := Except.ok.inj (h.symm.trans hrows)
      exact hgives
    · cases h.symm.trans hfails

end

/-- Three numbers, each of which comes before a lesser one or behind it. -/
def threeNumbers : Source :=
  .table ⟨⟨[⟨"n", .int64⟩]⟩, [[.int64 3], [.int64 1], [.int64 2]]⟩

-- two runs of a sample without a seed draw from different tapes, and take different rows
example :
    let drawing (word : UInt32) : Session Unit :=
      { Session.start .empty () with entropy := fun _ => ⟨fun _ => ⟨[], 0, [word, word]⟩⟩ }
    let pipeline := ofTransforms threeNumbers [.sample 2 none] (.unobserved : Options Unit)
    ((pipeline.collectRows (drawing 0)).1, (pipeline.collectRows (drawing 0xFFFFFFFF)).1) =
      (.ok [⟨1, [.int64 1]⟩, ⟨2, [.int64 2]⟩], .ok [⟨0, [.int64 3]⟩, ⟨1, [.int64 1]⟩]) := by
  cbv

end Pipeline

end RowFlow
