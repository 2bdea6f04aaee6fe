import RowFlow.Proofs.Pipeline.Answers
import RowFlow.Proofs.Pipeline.Ends
import RowFlow.Proofs.Pipeline.Pushing

/-!
# The Course of a Run in Front of a Reader

A reader fetches rows while the run goes on. Nothing but the outbox notices: the run takes the
course that it takes when nobody fetches anything until it has ended (`RowIterator.yields_course`).
The invariant ties the chain of the reader to the chain of a run without one, which is ahead by the
rows that have been fetched and is otherwise the same.
-/

namespace RowFlow

variable {α : Type}

/-! ## Courses -/

/-- What a run in front of a reader comes to. -/
structure Course (α : Type) where
  /-- the rows that come out before the run ends -/
  rows : List Row
  /-- the error that ends the run, with the rows that come out while the chain fails to close -/
  failure : Option (Error × List Row)
  session : Session α

namespace Course

/-- The answers that follow the rows. -/
def ending (course : Course α) : List (Except Error Row) :=
  match course.failure with
  | none => []
  | some (e, stranded) => .error e :: stranded.map .ok

/-- All answers. -/
def answers (course : Course α) : List (Except Error Row) := course.rows.map .ok ++ course.ending

end Course

namespace RowIterator

variable {n : Nat}

/-- The course of a run that has let out some rows before its chain was closed. -/
def closedCourse (options : Options α) (out : List Row) :
    Except Error (Option Output) × Guarded (Metered Outbox) × Session α → Course α
  | (.error e, terminal, session) =>
    ⟨out, some (e, terminal.inner.inner.rows.drop out.length), session.fail options e⟩
  | (.ok _, terminal, session) => ⟨terminal.inner.inner.rows, none, session.succeed options⟩

/-- The course of the rest of a run whose chain has not been closed. -/
def course (options : Options α) (width : Nat) (items : List (Except Error Row)) (pulled : Nat)
    (chain : FetchedChain Stage n) (session : Session α) : Course α :=
  match pushAll options width items pulled chain session with
  | (.error e, chain, session) => ⟨emitted chain, some (e, []), session.fail options e⟩
  | (.ok (), chain, session) =>
    closedCourse options (emitted chain) (Chain.closing n chain session)

section
variable {options : Options α} {width pulled now : Nat} {row : Row} {rest : List (Except Error Row)}
  {chain chain' : FetchedChain Stage n} {session session' : Session α}

theorem course_of_error {e : Error}
    (h : pushRow options width row pulled chain session = (.error e, now, chain', session')) :
    course options width (.ok row :: rest) pulled chain session =
      ⟨emitted chain', some (e, []), session'.fail options e⟩ := by
  simp only [course, pushAll, h]

theorem course_of_more
    (h : pushRow options width row pulled chain session = (.ok .more, now, chain', session')) :
    course options width (.ok row :: rest) pulled chain session =
      course options width rest now chain' session' := by
  simp only [course, pushAll, h]

theorem course_of_stop
    (h : pushRow options width row pulled chain session = (.ok .stop, now, chain', session')) :
    course options width (.ok row :: rest) pulled chain session =
      course options width [] now chain' session' := by
  simp only [course, pushAll, h]

end

end RowIterator

/-! ## A chain ahead of another -/

/-- Two outboxes in one session, of which the first also holds rows that were fetched from the
    second. -/
def Ahead (given : List Row) (t : Guarded (Metered Outbox)) (w : Session α)
    (t' : Guarded (Metered Outbox)) (w' : Session α) : Prop :=
  w = w' ∧ ∃ held, t = outboxEnd (given ++ held) ∧ t' = outboxEnd held

theorem lockstep_ahead (P : Row → Prop) (given : List Row) :
    Lockstep P (Ahead (α := α) given) := by
  rintro row _ w _ _ _ ⟨rfl, held, rfl, rfl⟩
  -- both outboxes take the row and answer alike
  rw [consume_outboxEnd, consume_outboxEnd]
  exact ⟨rfl, rfl, held ++ [row], by rw [List.append_assoc], rfl⟩

theorem steady_ahead (options : Options α) (given : List Row) :
    Steady options options (Ahead given) where
  count _ h := ⟨congrArg _ h.1, h.2⟩
  report _ h := ⟨congrArg _ h.1, h.2⟩

/-- Outboxes do not fail. -/
theorem terminal_of_consume_outbox_error {row : Row} {t t' : Guarded (Metered Outbox)}
    {w w' : Session α} {e : Error} (h : Consumer.consume row t w = (.error e, t', w')) :
    t' = t := by
  obtain ⟨⟨⟨held⟩⟩, closed⟩ := t
  cases closed with
  | true => exact (Prod.mk.inj (Prod.mk.inj h).2).1.symm
  | false => cases h

/-! ## What a reader yields -/

namespace RowIterator

variable {n width output pulled : Nat} {options : Options α} {chain chain' : FetchedChain Stage n}
  {session : Session α} {given : List Row}

theorem emitted_of_ahead
    (h : Chain.Alike (Ahead given) output n width chain session chain' session) :
    emitted chain = given ++ emitted chain' := by
  obtain ⟨-, held, hterminal, hterminal'⟩ := h.terminal
  simp only [emitted, hterminal, hterminal', Guarded.start]

/-- Fetching rows moves them to those that the other chain is ahead by. -/
theorem ahead_fetched
    (h : Chain.Alike (Ahead given) output n width chain session chain' session) :
    Chain.Alike (Ahead (given ++ emitted chain')) output n width chain session (fetched chain')
      session := by
  -- only the outboxes differ
  refine h.mapTerminal ?_
  obtain ⟨-, held, hterminal, hterminal'⟩ := h.terminal
  refine ⟨rfl, [], ?_, ?_⟩
  · rw [hterminal, emitted, hterminal', List.append_nil]
    rfl
  · rw [hterminal']
    rfl

/-- A row that a run fails on does not come out. -/
theorem emitted_of_pushRow_error {row : Row} {now : Nat} {session' : Session α} {e : Error}
    (h : pushRow options width row pulled chain session = (.error e, now, chain', session')) :
    emitted chain' = emitted chain := by
  simp only [pushRow] at h
  -- a row of another width fails before it reaches the chain
  split at h
  · obtain ⟨-, -, rfl, -⟩ := h
    rfl
  · generalize session.count _ = counted at h
    rcases hconsume : Consumer.consume row chain counted with ⟨e' | _ | _, chain₁, session₁⟩
    · rw [hconsume] at h
      obtain ⟨-, -, rfl, -⟩ := h
      exact congrArg (fun t => t.inner.inner.rows)
        (Chain.terminal_of_consume_error terminal_of_consume_outbox_error hconsume)
    · rw [hconsume] at h
      cases h
    · rw [hconsume] at h
      cases h

/-- With the source at its end the chain is closed. -/
theorem next_closing :
    (RowIterator.mk options width [] (some chain) pulled []).next session =
      match Chain.closing n chain session with
      | (.error e, terminal, session) =>
        (some (.error e), RowIterator.mk options width [] none pulled terminal.inner.inner.rows,
          session.fail options e)
      | (.ok _, terminal, session) =>
        (RowIterator.mk options width [] none pulled terminal.inner.inner.rows).next
          (session.succeed options) := by
  change RowIterator.finish chain _ session = _
  unfold finish Chain.closing
  rcases Consumer.close chain session with ⟨e | _, closed, after⟩
  · rfl
  · dsimp only [emitted, next]
    -- with or without a row that is waiting, the chain is gone
    cases (Chain.terminal n closed).inner.inner.rows <;> rfl

/-- Once the source has ended, a reader gives the rows that were held back, or the error. -/
theorem yields_closing (options : Options α)
    (h : Chain.Alike (Ahead given) output n width chain session chain' session)
    (hfetched : emitted chain' = []) (pulled : Nat) :
    ∃ out, (course options width [] pulled chain session).rows = given ++ out ∧
      (RowIterator.mk options width [] (some chain') pulled []).Yields session
        (out.map .ok ++ (course options width [] pulled chain session).ending)
        (course options width [] pulled chain session).session := by
  have hgiven := emitted_of_ahead h
  rw [hfetched, List.append_nil] at hgiven
  have hnext : (RowIterator.mk options width [] (some chain') pulled []).next session = _ :=
    next_closing
  have hclosing := h.closing (lockstep_ahead _ given)
  simp only [course, pushAll]
  generalize Chain.closing n chain session = closed at hclosing ⊢
  generalize Chain.closing n chain' session = closed' at hclosing hnext
  -- the two chains fail to close together, or both are closed
  cases hclosing with
  | failed e ht =>
    obtain ⟨rfl, held, rfl, rfl⟩ := ht
    refine ⟨[], ?_, .answer hnext ?_⟩
    · rw [hgiven, List.append_nil, closedCourse]
    · -- what has come out since the close began is what the reader's outbox holds
      have hstranded : (given ++ held).drop (emitted chain).length = held := by
        rw [hgiven, List.drop_left]
      dsimp only [closedCourse, Course.ending, outboxEnd_rows]
      rw [hstranded]
      exact yields_waiting rfl _
  | closed ht =>
    obtain ⟨rfl, held, rfl, rfl⟩ := ht
    rw [close_outboxEnd] at hnext ⊢
    refine ⟨held, rfl, ?_⟩
    dsimp only [closedCourse, Course.ending]
    rw [List.append_nil]
    exact (yields_waiting rfl _).of_next_eq hnext

/-- A reader gives what comes out of the run beyond what it has given before, in the order of the
    course of the run. -/
theorem yields_course (options : Options α) (items : List (Except Error Row))
    (h : Chain.Alike (Ahead given) output n width chain session chain' session)
    (hfetched : emitted chain' = []) (pulled : Nat) :
    ∃ out, (course options width items pulled chain session).rows = given ++ out ∧
      (RowIterator.mk options width items (some chain') pulled []).Yields session
        (out.map .ok ++ (course options width items pulled chain session).ending)
        (course options width items pulled chain session).session := by
  induction items generalizing chain chain' session given pulled with
  | nil => exact yields_closing options h hfetched pulled
  | cons item rest ih =>
    have hgiven := emitted_of_ahead h
    rw [hfetched, List.append_nil] at hgiven
    -- an error of the source ends both, with nothing more to give
    cases item with
    | error e =>
      refine ⟨[], ?_, .answer rfl (yields_waiting rfl _)⟩
      rw [List.append_nil]
      exact hgiven
    | ok row =>
      obtain ⟨answer, now, chain₁, session₁, chain₁', session₁', hpush, hpush', h₁⟩ :=
        pushRow_lockstep (Chain.lockstep_alike (lockstep_ahead _ given) n width)
          (Chain.steady_alike (steady_ahead options given) output n width) row pulled h
      obtain rfl : session₁ = session₁' := h₁.terminal.1
      rcases answer with e | _ | _
      · -- the run ends with the row: it has not come out in either chain
        have hnone := (emitted_of_pushRow_error hpush').trans hfetched
        have hnext := next_of_error rest hpush'
        rw [hnone] at hnext
        rw [course_of_error hpush]
        refine ⟨[], ?_, .answer hnext (yields_waiting rfl _)⟩
        rw [emitted_of_pushRow_error hpush, List.append_nil]
        exact hgiven
      · -- the rows that this one brings out are fetched and given first, then the rest of the run
        obtain ⟨out, hrows, hyields⟩ := ih (ahead_fetched h₁) (emitted_fetched chain₁') now
        rw [course_of_more hpush]
        refine ⟨emitted chain₁' ++ out, ?_, ?_⟩
        · rw [hrows, List.append_assoc]
        · rw [List.map_append, List.append_assoc]
          exact (hyields.prepend (emitted chain₁')).of_next_eq (next_of_more rest hpush')
      · obtain ⟨out, hrows, hyields⟩ :=
          yields_closing options (ahead_fetched h₁) (emitted_fetched chain₁') now
        rw [course_of_stop hpush]
        refine ⟨emitted chain₁' ++ out, ?_, ?_⟩
        · rw [hrows, List.append_assoc]
        · rw [List.map_append, List.append_assoc]
          exact (hyields.prepend (emitted chain₁')).of_next_eq (next_of_stop rest hpush')

end RowIterator

/-! ## Launched pipelines -/

namespace Launch

/-- The course of a run of a launched pipeline in front of a reader. -/
def course (launch : Launch) (options : Options α) (session : Session α) : Course α :=
  RowIterator.course options launch.width launch.items 0 launch.fetching session

theorem emitted_fetching (launch : Launch) : RowIterator.emitted launch.fetching = [] :=
  RowIterator.emitted_connect launch.stages

/-- The answers of a reader are those of the course of the run. -/
theorem yields_course {launch : Launch}
    (h : Stage.FitAll launch.stages launch.width launch.schema.width) (options : Options α)
    (session : Session α) :
    (launch.iterator options).Yields session (launch.course options session).answers
      (launch.course options session).session := by
  have hstart : Ahead [] (outboxEnd []) session (outboxEnd []) session := ⟨rfl, [], rfl, rfl⟩
  obtain ⟨out, hrows, hyields⟩ :=
    RowIterator.yields_course options launch.items (Chain.alike_connect h hstart)
      launch.emitted_fetching 0
  rw [← List.nil_append out, ← hrows] at hyields
  exact hyields

end Launch

end RowFlow
