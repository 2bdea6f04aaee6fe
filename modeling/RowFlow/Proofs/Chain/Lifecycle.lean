import RowFlow.Proofs.Chain.Calls
import RowFlow.Step.Stage

/-!
# Lifecycles Along a Chain

A link lets through no misuse, whatever its producer forwards and whatever is called on it: the
consumer behind it gets no row after it has asked to stop or has been closed, and it is closed once
at most, by a close of the link whose drain did not fail. A closed link refuses all calls and passes
none on. So it is for every link of a chain (`Chain.lifecycles_kept`), since what is called on a
link by the one in front of it is a sequence of calls as any other.
-/

namespace RowFlow

/-! ## Orderly histories -/

/-- One call may come before another: nothing comes after a close, and after a request to stop only
    a close does. -/
def Call.MayPrecede (earlier later : Call) : Prop :=
  ¬ earlier.IsClose ∧ (earlier.IsStop → later.IsClose)

/-- A history of calls on a link in which the link used the consumer behind it properly. -/
structure Orderly (visits : List Visit) : Prop where
  /-- no row after a request to stop or a close, and no second close -/
  passed : (visits.flatMap Visit.passed).Pairwise Call.MayPrecede
  /-- the consumer is closed when the link is, and only if no drain failed then -/
  closes : ∀ visit ∈ visits, ∀ call ∈ visit.passed, call.IsClose →
    visit.call.IsClose ∧ ∀ outcome ∈ visit.drains, outcome = .ok ()
  /-- after a close all calls are refused and nothing is done -/
  refusals : visits.Pairwise fun earlier later => earlier.call.IsClose →
    later.call.IsRefused ∧ later.passed = [] ∧ later.drains = []

/-- One more call keeps a history orderly if it is orderly itself and fits those before it. -/
theorem Orderly.append {visits : List Visit} (h : Orderly visits) {visit : Visit}
    (hpassed : visit.passed.Pairwise Call.MayPrecede)
    (hbetween : ∀ earlier ∈ visits.flatMap Visit.passed, ∀ later ∈ visit.passed,
      earlier.MayPrecede later)
    (hcloses : ∀ call ∈ visit.passed, call.IsClose →
      visit.call.IsClose ∧ ∀ outcome ∈ visit.drains, outcome = .ok ())
    (hrefused : ∀ earlier ∈ visits, earlier.call.IsClose →
      visit.call.IsRefused ∧ visit.passed = [] ∧ visit.drains = []) :
    Orderly (visits ++ [visit]) where
  passed := by
    rw [List.flatMap_append, List.flatMap_singleton, List.pairwise_append]
    exact ⟨h.passed, hpassed, hbetween⟩
  closes := by
    intro v hv
    rcases List.mem_append.1 hv with hv | hv
    · exact h.closes v hv
    · exact List.mem_singleton.1 hv ▸ hcloses
  refusals := by
    rw [List.pairwise_append]
    refine ⟨h.refusals, List.pairwise_singleton _ _, fun earlier hearlier later hlater => ?_⟩
    exact List.mem_singleton.1 hlater ▸ hrefused earlier hearlier

/-! ## Rows passed on -/

/-- Calls that hand over rows until the consumer asks to stop; `stopped` tells whether it does. -/
structure Passes (stopped : Bool) (calls : List Call) : Prop where
  rows : ∀ call ∈ calls, call.IsRow
  ordered : calls.Pairwise Call.MayPrecede
  welcome : stopped = false → ∀ call ∈ calls, ¬ call.IsStop

/-- To hand over nothing is orderly. -/
theorem Passes.nothing (stopped : Bool) : Passes stopped [] :=
  ⟨List.forall_mem_nil _, .nil, fun _ => List.forall_mem_nil _⟩

/-- A row is no close. -/
theorem not_isClose_of_isRow {call : Call} (h : call.IsRow) : ¬ call.IsClose := by
  cases call with
  | consume row answer => exact id
  | close result => exact h.elim

section
variable {ω σ : Type} [Consumer ω σ]

/-- A feed in front of a consumer that has asked to stop makes no call. -/
theorem Feed.run_stopped {α : Type} (feed : Feed α) (s : σ) (w : ω) :
    (feed.run true s w).2 = (true, s, w) := by
  induction feed with
  | done result => rfl
  | forward row next ih => exact ih _

/-- A feed hands over rows, and none after one that is answered with `stop`. -/
theorem Feed.run_recorded {α : Type} (feed : Feed α) (s : Recorded σ) (w : ω) :
    ∃ calls, (feed.run false s w).2.2.1.calls = s.calls ++ calls ∧
      Passes (feed.run false s w).2.1 calls := by
  -- a feed is followed answer by answer, and the record grows by one call each time
  induction feed generalizing s w with
  | done result => exact ⟨[], (List.append_nil _).symm, Passes.nothing _⟩
  | forward row next ih =>
    simp only [run, Bool.false_eq_true, if_false]
    have hcalls := Recorded.calls_consume row s w
    generalize Consumer.consume row s w = step at hcalls ⊢
    obtain ⟨answer, s', w'⟩ := step
    have hcalls : s'.calls = s.calls ++ [.consume row answer] := hcalls
    -- the feed goes on if the answer does not ask to stop
    have hgoes (hanswer : answer ≠ .ok .stop) :
        ∃ calls, ((next answer).run false s' w').2.2.1.calls = s.calls ++ calls ∧
          Passes ((next answer).run false s' w').2.1 calls := by
      obtain ⟨calls, hrecord, hpasses⟩ := ih answer s' w'
      have hwelcome : ¬ (Call.consume row answer).IsStop := by
        rcases answer with _ | _ | _
        · exact id
        · exact id
        · exact absurd rfl hanswer
      refine ⟨.consume row answer :: calls, ?_, ?_, ?_, ?_⟩
      · rw [hrecord, hcalls, List.append_assoc, List.singleton_append]
      · exact List.forall_mem_cons.2 ⟨trivial, hpasses.rows⟩
      · exact List.pairwise_cons.2 ⟨fun _ _ => ⟨id, fun h => absurd h hwelcome⟩, hpasses.ordered⟩
      · intro hstopped
        exact List.forall_mem_cons.2 ⟨hwelcome, hpasses.welcome hstopped⟩
    rcases answer with e | _ | _
    · -- an error and a request for more let the feed go on
      exact hgoes fun h => by cases h
    · exact hgoes fun h => by cases h
    · dsimp only
      -- after a stop the feed makes no more calls
      rw [Feed.run_stopped]
      refine ⟨_, hcalls, ?_, List.pairwise_singleton _ _, fun h => by cases h⟩
      exact List.forall_mem_singleton.2 trivial

end

/-! ## Watched links -/

namespace Watched

variable {ω π σ : Type}

/-- What is known of a link from the calls on it. -/
structure Consistent (watched : Watched π σ) : Prop where
  orderly : Orderly watched.visits
  recorded : watched.visits.flatMap Visit.passed = watched.link.downstream.calls
  unclosed : watched.link.closed = false → ∀ visit ∈ watched.visits, ¬ visit.call.IsClose
  welcome : watched.link.closed = false → watched.link.stopped = false →
    ∀ call ∈ watched.link.downstream.calls, ¬ call.IsStop

namespace Consistent

variable {watched : Watched π σ}

/-- Nothing has been called on a new link. -/
theorem start (producer : π) (downstream : σ) :
    (Watched.start producer downstream).Consistent :=
  ⟨⟨.nil, nofun, .nil⟩, rfl, nofun, nofun⟩

/-- A link that is open has not closed the consumer behind it. -/
theorem not_isClose (h : watched.Consistent) (hopen : watched.link.closed = false) :
    ∀ call ∈ watched.link.downstream.calls, ¬ call.IsClose := by
  rw [← h.recorded]
  intro call hcall hclose
  obtain ⟨visit, hvisit, hcall⟩ := List.mem_flatMap.1 hcall
  -- the consumer is closed by a close of the link only, and there was none
  exact h.unclosed hopen visit hvisit (h.orderly.closes visit hvisit call hcall hclose).1

/-- A closed link refuses a call and passes none on. -/
theorem after_refused (h : watched.Consistent) (hclosed : watched.link.closed = true) {call : Call}
    (hrefused : call.IsRefused) : (watched.after call watched.link).Consistent := by
  -- nothing is new on record, neither calls nor drains
  have hpassed : watched.link.downstream.calls.drop watched.link.downstream.calls.length = [] :=
    List.drop_length
  have hdrains : watched.link.producer.drains.drop watched.link.producer.drains.length = [] :=
    List.drop_length
  constructor
  · apply h.orderly.append
    · simp only [hpassed, List.Pairwise.nil]
    · simp only [hpassed, List.not_mem_nil, false_implies, implies_true]
    · simp only [hpassed, List.not_mem_nil, false_implies, implies_true]
    · intro _ _ _
      exact ⟨hrefused, hpassed, hdrains⟩
  · simp only [after, List.flatMap_append, List.flatMap_singleton, hpassed, List.append_nil]
    exact h.recorded
  · -- what is known of open links is not needed here
    intro hopen
    cases hclosed.symm.trans hopen
  · intro hopen
    cases hclosed.symm.trans hopen

/-- An open link may hand over rows, unless its consumer has asked to stop, and then close it, if it
    is closed itself. -/
theorem after_passing (h : watched.Consistent) (hopen : watched.link.closed = false) {call : Call}
    {link : Link (Noted π) (Recorded σ)} {calls closing : List Call}
    (hcalls : link.downstream.calls = watched.link.downstream.calls ++ (calls ++ closing))
    (hpasses : Passes link.stopped calls)
    (hskips : watched.link.stopped = true → calls = [] ∧ link.stopped = true)
    (hclosing : closing = [] ∨ ∃ result, closing = [.close result] ∧ call.IsClose ∧
      ∀ outcome ∈ link.producer.drains.drop watched.link.producer.drains.length, outcome = .ok ())
    (hclosed : link.closed = false → ¬ call.IsClose) :
    (watched.after call link).Consistent := by
  -- what is new on record is what has been passed on in this call
  have hpassed : link.downstream.calls.drop watched.link.downstream.calls.length =
      calls ++ closing := by
    rw [hcalls, List.drop_left]
  -- the only call that may follow the rows is a close
  have hcloses : ∀ later ∈ closing, later.IsClose := by
    rcases hclosing with rfl | ⟨result, rfl, -⟩
    · exact nofun
    · exact List.forall_mem_singleton.2 trivial
  have hrows : ∀ call ∈ calls, ¬ call.IsClose :=
    fun call hcall => not_isClose_of_isRow (hpasses.rows call hcall)
  constructor
  · -- the new visit is orderly in itself, fits those before it, closes properly, and comes before
    -- any close
    apply h.orderly.append
    · -- the rows come before the close
      simp only [hpassed, List.pairwise_append]
      refine ⟨hpasses.ordered, ?_,
        fun c hc later hlater => ⟨hrows c hc, fun _ => hcloses later hlater⟩⟩
      rcases hclosing with rfl | ⟨result, rfl, -⟩
      · exact .nil
      · exact List.pairwise_singleton _ _
    -- an earlier call is no close, and if it was a stop nothing but a close is passed on now
    · simp only [hpassed, h.recorded]
      intro earlier hearlier later hlater
      refine ⟨h.not_isClose hopen earlier hearlier, fun hstop => ?_⟩
      -- a stop on record means that the link knows of it
      have hstopped : watched.link.stopped = true := by
        refine Bool.not_eq_false _ ▸ fun hstopped => ?_
        exact h.welcome hopen hstopped earlier hearlier hstop
      rw [(hskips hstopped).1, List.nil_append] at hlater
      exact hcloses later hlater
    · simp only [hpassed]
      intro later hlater hclose
      rcases List.mem_append.1 hlater with hlater | hlater
      · -- a close that is passed on is not among the rows, so the link is being closed
        exact absurd hclose (hrows later hlater)
      · rcases hclosing with rfl | ⟨result, -, hcall⟩
        · cases hlater
        · exact hcall
    · -- an open link has not been closed, so there is nothing to refuse
      intro earlier hearlier hclose
      exact absurd hclose (h.unclosed hopen earlier hearlier)
  · -- the record of the consumer is the record of the visits
    simp only [after, List.flatMap_append, List.flatMap_singleton, h.recorded]
    rw [hpassed, hcalls]
  · -- a link that is still open has not been closed in this visit either
    intro hlink visit hvisit
    rcases List.mem_append.1 hvisit with hvisit | hvisit
    · exact h.unclosed hopen visit hvisit
    · exact List.mem_singleton.1 hvisit ▸ hclosed hlink
  · -- no stop is on record if the link knows of none: not before, not among the new rows, and a
    -- close is none
    intro hlink hstopped
    simp only [after] at hlink hstopped ⊢
    rw [hcalls]
    intro c hc
    rcases List.mem_append.1 hc with hc | hc
    · refine h.welcome hopen ?_ c hc
      refine Bool.not_eq_true _ ▸ fun hbefore => ?_
      rw [(hskips hbefore).2] at hstopped
      cases hstopped
    · rcases List.mem_append.1 hc with hc | hc
      · exact hpasses.welcome hstopped c hc
      · have hclose := hcloses c hc
        cases c with
        | consume row answer => exact hclose.elim
        | close result => exact id

section
variable [Producer π] [Consumer ω σ]

/-- A row leaves what is known of a link true. -/
theorem consume (h : watched.Consistent) (row : Row) (w : ω) :
    (Consumer.consume row watched w).2.1.Consistent := by
  obtain ⟨⟨producer, down, closed, stopped⟩, visits⟩ := watched
  cases closed with
  | true => exact h.after_refused rfl rfl
  | false =>
    cases stopped with
    | true =>
      -- a link that has stopped passes nothing on
      have hnone := Passes.nothing true
      have hcalls : down.calls = down.calls ++ ([] ++ []) := (List.append_nil _).symm
      exact h.after_passing rfl hcalls hnone (fun _ => ⟨rfl, rfl⟩) (.inl rfl) fun _ => id
    | false =>
      -- otherwise it passes on what the producer forwards for the row
      obtain ⟨calls, hcalls, hpasses⟩ := Feed.run_recorded (Producer.handle row producer) down w
      rw [← List.append_nil calls] at hcalls
      exact h.after_passing rfl hcalls hpasses (fun h => by cases h) (.inl rfl)
        fun _ => id

/-- So does a close. -/
theorem close (h : watched.Consistent) (w : ω) : (Consumer.close watched w).2.1.Consistent := by
  obtain ⟨⟨producer, down, closed, stopped⟩, visits⟩ := watched
  cases closed with
  | true => exact h.after_refused rfl rfl
  | false =>
    cases stopped with
    | true =>
      -- without a drain only the close is passed on
      have hnone := Passes.nothing true
      have hdrains : ∀ outcome ∈ producer.drains.drop producer.drains.length, outcome = .ok () := by
        rw [List.drop_length]
        exact List.forall_mem_nil _
      have hcalls : (Consumer.close down w).2.1.calls =
          down.calls ++ ([] ++ [.close (Consumer.close down w).1]) := Recorded.calls_close down w
      exact h.after_passing rfl hcalls hnone (fun _ => ⟨rfl, rfl⟩)
        (.inr ⟨_, rfl, trivial, hdrains⟩) fun h => by cases h
    | false =>
      obtain ⟨calls, hcalls, hpasses⟩ := Feed.run_recorded (Producer.drain producer) down w
      -- the drain is noted with its outcome, whatever that is
      have hdrains : ((Producer.drain producer).run false down w).1.2.drains =
          producer.drains ++ [((Producer.drain producer).run false down w).1.1] := by
        simp only [Producer.drain, Feed.run_map]
      change ((Watched.mk _ visits).after (.close (Link.close _ w).1)
        (Link.close _ w).2.1).Consistent
      have hopen {calls : List Call} {stopped : Bool} (h : false = true) :
          calls = [] ∧ stopped = true := by cases h
      simp only [Link.close, Bool.false_eq_true, if_false]
      generalize (Producer.drain producer).run false down w = run at hcalls hpasses hdrains ⊢
      obtain ⟨⟨e | _, p⟩, stopped, d, v⟩ := run
      · -- the drain failed, so the consumer stays open
        rw [← List.append_nil calls] at hcalls
        exact h.after_passing rfl hcalls hpasses hopen (.inl rfl) fun h => by cases h
      · -- the drain went well, so the close is passed on behind its rows
        have hcloses : (Consumer.close d v).2.1.calls =
            down.calls ++ (calls ++ [.close (Consumer.close d v).1]) := by
          rw [Recorded.calls_close, show d.calls = down.calls ++ calls from hcalls,
            List.append_assoc]
        have hdrained : ∀ outcome ∈ p.drains.drop producer.drains.length, outcome = .ok () := by
          rw [show p.drains = producer.drains ++ [.ok ()] from hdrains, List.drop_left]
          exact List.forall_mem_singleton.2 rfl
        exact h.after_passing rfl hcloses hpasses hopen (.inr ⟨_, rfl, trivial, hdrained⟩)
          fun h => by cases h

end

end Consistent

end Watched

/-! ## Watched chains -/

/-- A property of the states of a consumer that no call breaks. -/
structure Kept (ω : Type) {σ : Type} [Consumer ω σ] (I : σ → Prop) : Prop where
  consume : ∀ (row : Row) (s : σ) (w : ω), I s → I (Consumer.consume row s w).2.1
  close : ∀ (s : σ) (w : ω), I s → I (Consumer.close s w).2.1

namespace Kept

variable {ω σ : Type} [Consumer ω σ] {I : σ → Prop}

/-- A feed in front of a consumer breaks nothing that no call breaks. -/
theorem run {α : Type} (h : Kept ω I) (feed : Feed α) (stopped : Bool) {s : σ} (hs : I s) (w : ω) :
    I (feed.run stopped s w).2.2.1 := by
  induction feed generalizing stopped s w with
  | done result => exact hs
  | forward row next ih =>
    cases stopped with
    | true => exact ih _ true hs w
    | false => exact ih _ _ (h.consume row s w hs) _

/-- Recording calls breaks nothing of the consumer. -/
theorem recorded (h : Kept ω I) : Kept ω fun s : Recorded σ => I s.inner :=
  ⟨fun row s w => h.consume row s.inner w, fun s w => h.close s.inner w⟩

/-- A link changes the consumer behind it by calls only. -/
theorem downstream {π : Type} [Producer π] (h : Kept ω I) :
    Kept ω fun link : Link π σ => I link.downstream where
  consume row link w hdown := by
    obtain ⟨producer, down, closed, stopped⟩ := link
    cases closed with
    | true => exact hdown
    | false =>
      cases stopped with
      | true => exact hdown
      | false => exact h.run _ _ hdown w
  close link w hdown := by
    obtain ⟨producer, down, closed, stopped⟩ := link
    cases closed with
    | true => exact hdown
    | false =>
      -- draining is one feed or none, and a close may follow it
      have hrun (feed : Feed (Except Error Unit × π)) : I (feed.run stopped down w).2.2.1 :=
        h.run feed stopped hdown w
      simp only [Consumer.close, Link.close, Bool.false_eq_true, if_false]
      generalize (if stopped = true then _ else _) = feed
      have hafter := hrun feed
      generalize feed.run stopped down w = run at hafter ⊢
      obtain ⟨⟨e | _, p⟩, stopped, d, v⟩ := run
      · exact hafter
      · exact h.close d v hafter

/-- Any number of requests break nothing. -/
theorem serve (h : Kept ω I) (requests : List (Request ω)) {s : σ} (hs : I s) :
    I (RowFlow.serve requests s).2 := by
  induction requests generalizing s with
  | nil => exact hs
  | cons request rest ih =>
    cases request with
    | consume row world => exact ih (h.consume row s world hs)
    | close world => exact ih (h.close s world hs)

end Kept

namespace WatchedChain

variable {ω π τ : Type}

/-- Every link of a chain has an orderly history. -/
def Orderly : (n : Nat) → WatchedChain π τ n → Prop
  | 0, _ => True
  | n + 1, watched =>
    RowFlow.Orderly (Watched.visits watched) ∧ Orderly n (Watched.link watched).downstream.inner

/-- What is known of the links of a chain from the calls on them. -/
def Consistent : (n : Nat) → WatchedChain π τ n → Prop
  | 0, _ => True
  | n + 1, watched =>
    Watched.Consistent watched ∧ Consistent n (Watched.link watched).downstream.inner

/-- A consistent chain is orderly at every link. -/
theorem Consistent.orderly {n : Nat} {c : WatchedChain π τ n} (h : Consistent n c) :
    Orderly n c := by
  induction n with
  | zero => trivial
  | succ n ih => exact ⟨h.1.orderly, ih h.2⟩

/-- A chain that has not been called is consistent. -/
theorem consistent_connect (producers : List π) (terminal : τ) :
    Consistent producers.length (connect producers terminal) := by
  induction producers with
  | nil => trivial
  | cons producer rest ih => exact ⟨.start producer _, ih⟩

/-- No call breaks what is known, since a link calls the one behind it in no other way than the link
    itself is called. -/
theorem kept_consistent [Producer π] [Consumer ω τ] (n : Nat) :
    Kept ω (Consistent n : WatchedChain π τ n → Prop) := by
  induction n with
  | zero => exact ⟨fun _ _ _ => id, fun _ _ => id⟩
  | succ n ih =>
    -- the rest of the chain is a consumer behind a link, which calls it and does nothing else to it
    have hdown := ih.recorded.downstream (π := Noted π)
    constructor
    · intro row watched w h
      exact ⟨Watched.Consistent.consume h.1 row w, hdown.consume row _ w h.2⟩
    · intro watched w h
      exact ⟨Watched.Consistent.close h.1 w, hdown.close _ w h.2⟩

end WatchedChain

/-- The calls on a link are its visits. -/
theorem Watched.visits_serve {ω π σ : Type} [Producer π] [Consumer ω σ]
    (requests : List (Request ω)) (watched : Watched π σ) :
    (serve requests watched).2.visits.map Visit.call =
      watched.visits.map Visit.call ++ (serve requests watched).1 := by
  induction requests generalizing watched with
  | nil => exact (List.append_nil _).symm
  | cons request rest ih =>
    -- each request is one visit
    have hput : (request.put watched).2.visits.map Visit.call =
        watched.visits.map Visit.call ++ [(request.put watched).1] := by
      cases request with
      | consume row world => exact List.map_append
      | close world => exact List.map_append
    simp only [serve, ih, hput, List.append_assoc, List.singleton_append]

/-! ## Chains that have asked to stop -/

namespace Link

variable {ω σ : Type} [Consumer ω σ] {link : Link Stage σ}

/-- The link answers `stop` by itself: the consumer behind it has done so, or its stage is a limit
    that has been reached. -/
def Exhausted (link : Link Stage σ) : Prop :=
  link.stopped = true ∨ ∃ rows seen, link.producer = .limit rows seen ∧ rows ≤ seen

/-- A stage that answers `stop` has had that answer from the consumer behind it, or is a limit that
    has been reached. -/
theorem exhausted_of_stop {row : Row} {w : ω}
    (h : (Consumer.consume row link w).1 = .ok .stop) :
    (Consumer.consume row link w).2.1.closed = false ∧
      (Consumer.consume row link w).2.1.Exhausted := by
  obtain ⟨producer, down, closed, stopped⟩ := link
  cases closed with
  | true => cases h
  | false =>
    refine ⟨by cases stopped <;> rfl, ?_⟩
    cases stopped with
    | true => exact .inl rfl
    | false =>
      change ((Stage.handle row producer).run false down w).1.1 = .ok .stop at h
      change ((Stage.handle row producer).run false down w).2.1 = true ∨ ∃ rows seen,
        ((Stage.handle row producer).run false down w).1.2 = .limit rows seen ∧ rows ≤ seen
      -- a rule, a sample and a sort do not ask to stop by themselves
      cases producer with
      | each rule =>
        simp only [Stage.handle] at h ⊢
        split at h
        · cases h
        · cases h
        · -- a rule passes the answer back, so the stop has come from behind
          simp only [Feed.run, Bool.false_eq_true, if_false] at h ⊢
          exact .inl (by rw [h])
      | limit rows seen =>
        simp only [Stage.handle] at h ⊢
        split
        · rename_i hfull
          exact .inr ⟨rows, seen, rfl, hfull⟩
        · rename_i hfull
          rw [if_neg hfull] at h
          simp only [Feed.run, Bool.false_eq_true, if_false] at h ⊢
          -- with its last row the limit is reached; before that it passes the answer back
          by_cases hlast : seen + 1 = rows
          · exact .inr ⟨rows, seen + 1, rfl, Nat.le_of_eq hlast.symm⟩
          · rw [if_neg hlast] at h
            exact .inl (by rw [h])
      | sample reservoir => cases h
      | sort width keys descending held =>
        simp only [Stage.handle] at h
        split at h <;> cases h

/-- An open link that answers `stop` by itself goes on to do so. -/
theorem consume_of_exhausted (hopen : link.closed = false) (h : link.Exhausted) (row : Row)
    (w : ω) :
    Consumer.consume row link w = (.ok .stop, link, w) := by
  obtain ⟨producer, down, closed, stopped⟩ := link
  obtain rfl : closed = false := hopen
  rcases h with h | ⟨rows, seen, h, hfull⟩
  · obtain rfl : stopped = true := h
    rfl
  · obtain rfl : producer = .limit rows seen := h
    cases stopped with
    | true => rfl
    | false =>
      -- a limit that has been reached forwards nothing
      have hhandle : Producer.handle row (Stage.limit rows seen) =
          .done (.ok .stop, .limit rows seen) := if_pos hfull
      simp only [Consumer.consume, Link.consume, Bool.false_eq_true, if_false, hhandle, Feed.run]

/-- A closed link stays as it is. -/
theorem serve_of_closed (h : link.closed = true) (requests : List (Request ω)) :
    (serve requests link).2 = link := by
  induction requests with
  | nil => rfl
  | cons request rest ih =>
    have hput : (request.put link).2 = link := by
      cases request with
      | consume row world => simp only [Request.put, Consumer.consume, Link.consume, h, if_true]
      | close world => simp only [Request.put, Consumer.close, Link.close, h, if_true]
    simp only [serve, hput, ih]

/-- A link that has been closed is closed. -/
theorem closed_put_close (link : Link Stage σ) (world : ω) :
    ((Request.close world).put link).2.closed = true := by
  obtain ⟨producer, down, closed, stopped⟩ := link
  cases closed with
  | true => rfl
  | false =>
    simp only [Request.put, Consumer.close, Link.close, Bool.false_eq_true, if_false]
    split <;> rfl

/-- However often it is called, a link that answers `stop` by itself stays as it is until it is
    closed. -/
theorem serve_of_exhausted (hopen : link.closed = false) (h : link.Exhausted)
    (requests : List (Request ω)) :
    if requests.any Request.isClose then (serve requests link).2.closed = true
    else (serve requests link).2 = link := by
  induction requests with
  | nil => rfl
  | cons request rest ih =>
    cases request with
    -- rows leave the link as it is
    | consume row world =>
      have hput : ((Request.consume row world).put link).2 = link := by
        simp only [Request.put, consume_of_exhausted hopen h]
      simpa only [serve, hput, List.any_cons, Request.isClose, Bool.false_or] using ih
    -- after the close nothing changes any more
    | close world =>
      have hclosed := closed_put_close link world
      simp only [serve, List.any_cons, Request.isClose, Bool.true_or, if_true,
        serve_of_closed hclosed, hclosed]

end Link

/-! ## Chains of calls -/

namespace Chain

variable {ω π τ : Type} [Producer π] [Consumer ω τ]

/-- **Lifecycles are kept.** Whatever its producers forward and whatever is called on its head, also
    after failures, every link of a chain has an orderly history: the consumer behind it gets no row
    after it has asked to stop or has been closed, it is closed once at most, by a close of the link
    whose drain did not fail, and once the link has been closed it refuses calls and passes none on.
    A chain of stages whose head has answered `stop` goes on to do so, until it is closed, and does
    nothing more. -/
theorem lifecycles_kept :
    (∀ (producer : π) (rest : List π) (terminal : τ) (requests : List (Request ω)),
      let chain := serve requests (connect (producer :: rest) terminal)
      let watched := serve requests (WatchedChain.connect (producer :: rest) terminal)
      chain = (watched.1, WatchedChain.forget _ watched.2) ∧
      (Watched.visits watched.2).map Visit.call = watched.1 ∧
      WatchedChain.Orderly _ watched.2) ∧
    ∀ (n : Nat) (c : Chain Stage τ (n + 1)) (row : Row) (w : ω),
      (Consumer.consume row c w).1 = .ok .stop →
      ∀ (requests : List (Request ω)) (later : Row) (v : ω),
        let c' := (serve requests (Consumer.consume row c w).2.1).2
        Consumer.consume later c' v =
          (if requests.any Request.isClose then .error (.consumerState .consumeAfterClose)
            else .ok .stop, c', v) := by
  refine ⟨fun producer rest terminal requests => ⟨?_, ?_, ?_⟩, ?_⟩
  · -- watching a chain does not change what it answers
    exact WatchedChain.serve_connect (producer :: rest) terminal requests
  · exact Watched.visits_serve requests (Watched.start producer _)
  · have hconsistent := (WatchedChain.kept_consistent (rest.length + 1)).serve requests
      (WatchedChain.consistent_connect (producer :: rest) terminal)
    exact hconsistent.orderly
  · intro n c row w hstop requests later v
    obtain ⟨hopen, hexhausted⟩ := Link.exhausted_of_stop hstop
    have hafter := Link.serve_of_exhausted hopen hexhausted requests
    dsimp only
    split
    · rename_i hclose
      rw [if_pos hclose] at hafter
      exact if_pos hafter
    · rename_i hclose
      rw [if_neg hclose] at hafter
      rw [show (serve requests (Consumer.consume row c w).2.1).2 = _ from hafter]
      exact Link.consume_of_exhausted hopen hexhausted later v

end Chain

end RowFlow
