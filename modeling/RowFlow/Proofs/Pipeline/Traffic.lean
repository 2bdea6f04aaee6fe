import RowFlow.Proofs.Pipeline.Answers
import RowFlow.Proofs.Pipeline.Footprint

/-!
# Traffic

The rows that go in at the head of a chain and those that come out at its end, while a run pushes
rows or a reader is asked for one. They are read off records of the calls at both places, not off
the counters of the session; what the counters and the observer learn of them is said by
`pushUntil_pushed` and `pushUntil_kept`.
-/

namespace RowFlow

variable {α σ π κ : Type}

/-! ## What pushing does to a session -/

/-- What is told of a request to stop, if there has been one. -/
def Notice.ofStop (stopped : Bool) (pulled : Nat) : List Notice :=
  if stopped then [.event (.earlyStop pulled)] else []

/-- A number of rows has been pushed, the last of which may have been answered with a request to
    stop when the run had pulled `pulled` rows in all. -/
structure Session.Pushed (options : Options α) (rows pulled : Nat) (stopped : Bool)
    (before after : Session α) : Prop where
  spent : after.spent = before.spent
  log : after.log = options.hear (Notice.ofStop stopped pulled) before.log
  counters : ∃ collected, after.counters =
    before.counters + ⟨0, 0, rows, collected, if stopped then 1 else 0⟩

namespace Session.Pushed

variable {options : Options α} {rows pulled : Nat} {stopped : Bool} {w w₁ w' : Session α}

theorem none (pulled : Nat) (w : Session α) : Session.Pushed options 0 pulled false w w :=
  ⟨rfl, (options.hear_nil w.log).symm, 0, rfl⟩

theorem stop (pulled : Nat) (w : Session α) :
    Session.Pushed options 0 pulled true w (w.stopped options pulled) := by
  refine ⟨?_, ?_, 0, ?_⟩
  · rw [Session.stopped, spent_report]
    rfl
  · rw [Session.stopped, report_eq]
    rfl
  · rw [Session.stopped, counters_report]
    rfl

/-- The end of the chain may be touched afterwards. -/
theorem close (h : Session.Pushed options rows pulled stopped w w₁)
    (hcollecting : w₁.Collecting w') : Session.Pushed options rows pulled stopped w w' := by
  obtain ⟨spent, log, collected, hcounters⟩ := h
  obtain ⟨spent', log', collected', hcounters'⟩ := hcollecting
  refine ⟨spent'.trans spent, log'.trans log, collected + collected', ?_⟩
  rw [hcounters', hcounters, Counters.add_assoc, Counters.mk_add_mk]
  rfl

/-- The counters are known if it is known how many rows have been collected. -/
theorem counters_eq (h : Session.Pushed options rows pulled stopped w w') {handed : Nat}
    (hhanded : w'.counters.rowsCollected = w.counters.rowsCollected + handed) :
    w'.counters = w.counters + ⟨0, 0, rows, handed, if stopped then 1 else 0⟩ := by
  obtain ⟨collected, hcounters⟩ := h.counters
  rw [hcounters] at hhanded ⊢
  obtain rfl : collected = handed := Nat.add_left_cancel hhanded
  rfl

/-- A row is counted, and goes through the chain. -/
theorem counted (hcollecting : w.pulled.Collecting w₁) (pulled : Nat) :
    Session.Pushed options 1 pulled false w w₁ := by
  obtain ⟨spent, log, collected, hcounters⟩ := hcollecting
  refine ⟨spent, log.trans (options.hear_nil w.log).symm, collected, ?_⟩
  rw [hcounters, show w.pulled.counters = w.counters + ⟨0, 0, 1, 0, 0⟩ from rfl,
    Counters.add_assoc]
  exact congrArg (w.counters + Counters.mk 0 0 1 · 0) (Nat.zero_add collected)

/-- Only the last row can have been answered with a request to stop. -/
theorem trans {more before : Nat} (h : Session.Pushed options rows before false w w₁)
    (h' : Session.Pushed options more pulled stopped w₁ w') :
    Session.Pushed options (rows + more) pulled stopped w w' := by
  obtain ⟨spent, log, collected, hcounters⟩ := h
  obtain ⟨spent', log', collected', hcounters'⟩ := h'
  refine ⟨spent'.trans spent, ?_, collected + collected', ?_⟩
  · rw [log', log]
    exact congrArg (options.hear _) (options.hear_nil w.log)
  · rw [hcounters', hcounters, Counters.add_assoc]
    exact congrArg (w.counters + Counters.mk 0 0 (rows + more) (collected + collected') ·)
      (Nat.zero_add _)

end Session.Pushed

section
variable [Consumer (Session α) σ] (options : Options α) (width : Nat)

/-- A row goes in if it has the width of the source; it is counted, and a request to stop is
    reported. -/
theorem pushRow_pushed (htouch : TouchesEnd α σ) (row : Row) (pulled : Nat) (s : Recorded σ)
    (w : Session α) :
    ∃ answer rows s' w',
      pushRow options width row pulled s w = (answer, pulled + rows.length, s', w') ∧
      s'.rows = s.rows ++ rows ∧
      ((rows = [] ∧ ∃ e, answer = .error e) ∨ (rows = [row] ∧ row.length = width)) ∧
      Session.Pushed options rows.length (pulled + rows.length) (asksToStop answer) w w' := by
  cases hwidth : expectWidth row.values width with
  | error e =>
    rw [pushRow_of_mismatch hwidth]
    exact ⟨.error e, [], s, w, rfl, (List.append_nil _).symm, .inl ⟨rfl, e, rfl⟩, .none _ w⟩
  | ok _ =>
    have hrow : row.length = width := expectWidth_eq_ok_iff.1 hwidth
    -- the record at the head shows the row, and the chain counts what it collects
    have hrecord := Recorded.rows_consume s w.pulled row
    have hcollecting := htouch.consume row s.inner w.pulled
    change w.pulled.Collecting (Consumer.consume row s w.pulled).2.2 at hcollecting
    rcases hconsume : Consumer.consume row s w.pulled with ⟨answer, s', w'⟩
    rw [hconsume] at hrecord hcollecting
    have hcounted : Session.Pushed options 1 (pulled + 1) false w w' := .counted hcollecting _
    rcases answer with e | _ | _
    · rw [pushRow_of_error hrow hconsume]
      exact ⟨.error e, [row], s', w', rfl, hrecord, .inr ⟨rfl, hrow⟩, hcounted⟩
    · rw [pushRow_of_more hrow hconsume]
      exact ⟨.ok .more, [row], s', w', rfl, hrecord, .inr ⟨rfl, hrow⟩, hcounted⟩
    · rw [pushRow_of_stop hrow hconsume]
      exact ⟨.ok .stop, [row], s', _, rfl, hrecord, .inr ⟨rfl, hrow⟩, hcounted.trans (.stop _ w')⟩

/-- The rows that are pushed are the first ones of the source and have its width; they are counted,
    and a request to stop is reported with their number. -/
theorem pushUntil_pushed (out : σ → Bool) (htouch : TouchesEnd α σ)
    (items : List (Except Error Row)) (pulled : Nat) (s : Recorded σ) (w : Session α) :
    ∃ halt rows s' w',
      pushUntil options width (out ∘ Recorded.inner) items pulled s w =
        (halt, pulled + rows.length, s', w') ∧
      s'.rows = s.rows ++ rows ∧
      rows.map Except.ok <+: items ∧ (∀ row ∈ rows, row.length = width) ∧
      Session.Pushed options rows.length (pulled + rows.length) halt.isStop w w' := by
  induction items generalizing pulled s w with
  | nil =>
    exact ⟨.ended, [], s, w, rfl, (List.append_nil _).symm, List.nil_prefix, nofun, .none _ w⟩
  | cons item rest ih =>
    cases item with
    | error e =>
      exact ⟨.failed e, [], s, w, rfl, (List.append_nil _).symm, List.nil_prefix, nofun,
        .none _ w⟩
    | ok row =>
      obtain ⟨answer, first, s₁, w₁, hpush, hrows, hfirst, hpushed⟩ :=
        pushRow_pushed options width htouch row pulled s w
      -- the row was the first of the source, or has not gone in at all
      have htaken : first.map Except.ok <+: (.ok row :: rest : List (Except Error Row)) := by
        rcases hfirst with ⟨rfl, -⟩ | ⟨rfl, -⟩
        · exact List.nil_prefix
        · exact List.prefix_append [_] rest
      have hwidths : ∀ r ∈ first, r.length = width := by
        rcases hfirst with ⟨rfl, -⟩ | ⟨rfl, hrow⟩
        · exact nofun
        · exact List.forall_mem_singleton.2 hrow
      simp only [pushUntil, hpush]
      rcases answer with e | _ | _
      · exact ⟨.failed e, first, s₁, w₁, rfl, hrows, htaken, hwidths, hpushed⟩
      · dsimp only
        split
        · exact ⟨.ready rest, first, s₁, w₁, rfl, hrows, htaken, hwidths, hpushed⟩
        · -- a chain that asks for more has taken the row
          obtain ⟨-, _, hfailed⟩ | ⟨rfl, hrow⟩ := hfirst
          · cases hfailed
          obtain ⟨halt, rows, s', w', hpush', hrows', htaken', hwidths', hpushed'⟩ :=
            ih (pulled + 1) s₁ w₁
          -- the number that is reported counts rows from the first of the run
          have hnumber : pulled + 1 + rows.length = pulled + (row :: rows).length :=
            Nat.succ_add_eq_add_succ ..
          have hlength : 1 + rows.length = (row :: rows).length := Nat.add_comm _ _
          have hall := hpushed.trans hpushed'
          rw [List.length_singleton, hnumber, hlength] at hall
          rw [hnumber] at hpush'
          refine ⟨halt, row :: rows, s', w', hpush', ?_, ?_, ?_, hall⟩
          · rw [hrows', hrows, List.append_assoc, List.singleton_append]
          · exact List.cons_prefix_cons.2 ⟨rfl, htaken'⟩
          · exact List.forall_mem_cons.2 ⟨hrow, hwidths'⟩
      · exact ⟨.stopped, first, s₁, w₁, rfl, hrows, htaken, hwidths, hpushed⟩

section
variable {I : σ → Session α → Prop}
  (hconsume : ∀ (row : Row) {s w}, I s w →
    I (Consumer.consume row s w.pulled).2.1 (Consumer.consume row s w.pulled).2.2)
  (hstopped : ∀ {s w} (pulled : Nat), I s w → I s (w.stopped options pulled))
include hconsume hstopped

theorem pushRow_kept (row : Row) (pulled : Nat) {s : σ} {w : Session α} (h : I s w) :
    I (pushRow options width row pulled s w).2.2.1
      (pushRow options width row pulled s w).2.2.2 := by
  cases hwidth : expectWidth row.values width with
  | error e =>
    rw [pushRow_of_mismatch hwidth]
    exact h
  | ok _ =>
    have hrow : row.length = width := expectWidth_eq_ok_iff.1 hwidth
    -- the row is counted, and then the chain has it
    have hafter := hconsume row h
    rcases hstep : Consumer.consume row s w.pulled with ⟨e | _ | _, s', w'⟩
    all_goals rw [hstep] at hafter
    · rw [pushRow_of_error hrow hstep]
      exact hafter
    · rw [pushRow_of_more hrow hstep]
      exact hafter
    · rw [pushRow_of_stop hrow hstep]
      exact hstopped _ hafter

/-- What no row breaks that is counted and goes in, and no request to stop, pushing does not
    break. -/
theorem pushUntil_kept (out : σ → Bool) (items : List (Except Error Row)) (pulled : Nat) {s : σ}
    {w : Session α} (h : I s w) :
    I (pushUntil options width out items pulled s w).2.2.1
      (pushUntil options width out items pulled s w).2.2.2 := by
  -- one row after another, as long as none comes out and nobody asks to stop
  induction items generalizing pulled s w with
  | nil => exact h
  | cons item rest ih =>
    cases item with
    | error e => exact h
    | ok row =>
      have hafter := pushRow_kept options width hconsume hstopped row pulled h
      simp only [pushUntil]
      rcases hpush : pushRow options width row pulled s w with ⟨e | _ | _, now, s', w'⟩
      all_goals rw [hpush] at hafter
      · exact hafter
      · dsimp only
        split
        · exact hafter
        · exact ih now hafter
      · exact hafter

end

end

/-! ## Records at both ends -/

/-- The rows that go in at the head of a chain, and those that are handed to its end. -/
structure Traffic where
  pushed : List Row
  handed : List Row

/-- No rows at all. -/
def Traffic.none : Traffic := ⟨[], []⟩

/-- A recorded consumer, and the consumer itself in the same session. -/
def Unrecorded (s : σ) (w : Session α) (s' : Recorded σ) (w' : Session α) : Prop :=
  s = s'.inner ∧ w = w'

/-- Counting and reporting do not look at records. -/
theorem steady_unrecorded (options : Options α) :
    Steady options options (Unrecorded (α := α) (σ := σ)) where
  count _ h := ⟨h.1, congrArg _ h.2⟩
  report _ h := ⟨h.1, congrArg _ h.2⟩

section
variable [Consumer (Session α) σ] (options : Options α) (width : Nat) (out : σ → Bool)

/-- A recorded consumer answers as the consumer does. -/
theorem lockstep_unrecorded (P : Row → Prop) :
    Lockstep P (Unrecorded (α := α) (σ := σ)) := by
  rintro row _ w s _ - ⟨rfl, rfl⟩
  exact ⟨rfl, rfl, rfl⟩

/-- A record changes nothing. -/
theorem pushUntil_recorded (items : List (Except Error Row)) (pulled : Nat) (s : Recorded σ)
    (w : Session α) :
    ∃ halt now s' w',
      pushUntil options width (out ∘ Recorded.inner) items pulled s w = (halt, now, s', w') ∧
      pushUntil options width out items pulled s.inner w = (halt, now, s'.inner, w') := by
  -- the two consumers go in lockstep, and look the same to the test for rows
  have hstart : Unrecorded s.inner w s w := ⟨rfl, rfl⟩
  obtain ⟨halt, now, s₁, w₁, s', w', hpush, hrecorded, rfl, rfl⟩ :=
    pushUntil_lockstep (lockstep_unrecorded (·.length = width)) (steady_unrecorded options) out
      (out ∘ Recorded.inner) (fun h => congrArg out h.1) items pulled hstart
  exact ⟨halt, now, s', w₁, hrecorded, hpush⟩

end

/-- Pushes rows and closes the chain, and keeps the chain. -/
def pushAndKeep [Consumer (Session α) σ] (options : Options α) (width : Nat)
    (items : List (Except Error Row)) (head : σ) (session : Session α) :
    Except Error (Option Output) × σ × Session α :=
  match pushAll options width items 0 head session with
  | (.error e, head, session) => (.error e, head, session)
  | (.ok (), head, session) => Consumer.close head session

/-- A collector at the end of a chain, and the same collector with a record of the calls on it. -/
def EndUnrecorded (t : Guarded (Metered κ)) (w : Session α) (t' : Guarded (Metered (Recorded κ)))
    (w' : Session α) : Prop :=
  t.closed = t'.closed ∧ t.inner.inner = t'.inner.inner.inner ∧ w = w'

/-- Counting and reporting do not look at the end of a chain. -/
theorem steady_endUnrecorded (options : Options α) :
    Steady options options (EndUnrecorded (α := α) (κ := κ)) where
  count _ h := ⟨h.1, h.2.1, congrArg _ h.2.2⟩
  report _ h := ⟨h.1, h.2.1, congrArg _ h.2.2⟩

/-- A recorded collector answers as the collector does. -/
theorem parallel_endUnrecorded [Consumer Files κ] :
    Parallel (EndUnrecorded (α := α) (κ := κ)) where
  consume := by
    rintro row ⟨⟨collector⟩, closed⟩ w ⟨⟨⟨collector', calls⟩⟩, closed'⟩ _ - ⟨hclosed, hinner, rfl⟩
    obtain rfl : closed = closed' := hclosed
    obtain rfl : collector = collector' := hinner
    cases closed <;> exact ⟨rfl, rfl, rfl, rfl⟩
  close := by
    rintro ⟨⟨collector⟩, closed⟩ w ⟨⟨⟨collector', calls⟩⟩, closed'⟩ _ ⟨hclosed, hinner, rfl⟩
    obtain rfl : closed = closed' := hclosed
    obtain rfl : collector = collector' := hinner
    cases closed <;> exact ⟨rfl, rfl, rfl, rfl⟩

section
variable [Producer π] [Consumer Files κ] (options : Options α) (width : Nat)
  (items : List (Except Error Row)) {n : Nat}

/-- Records at both ends of a chain change nothing. -/
theorem pushAndClose_eq_pushAndKeep {c : Chain π (Guarded (Metered κ)) n}
    {c' : Chain π (Guarded (Metered (Recorded κ))) n} {w : Session α}
    (h : Chain.Coupled EndUnrecorded n c w c' w) :
    pushAndClose options width items c w =
      ((pushAndKeep options width items (Recorded.start c') w).1,
        (pushAndKeep options width items (Recorded.start c') w).2.2) := by
  -- the chains are coupled link by link, down to the recorded collector
  have hcoupled := Chain.parallel_coupled (π := π) (parallel_endUnrecorded (α := α) (κ := κ)) n
  have hsteady := Chain.steady_coupled (π := π) (steady_endUnrecorded (κ := κ) options) n
  -- the record at the head is put in front of the coupled chains
  have hlockstep : Lockstep (·.length = width)
      fun (c : Chain π (Guarded (Metered κ)) n) (w : Session α)
        (s : Recorded (Chain π (Guarded (Metered (Recorded κ))) n)) w' =>
          Chain.Coupled EndUnrecorded n c w s.inner w' :=
    fun row c w s w' _ hcw => hcoupled.consume row c w s.inner w' trivial hcw
  obtain ⟨result, c₁, w₁, s₁, w₁', hpush, hpush', h₁⟩ :
      ∃ result c₁ w₁ s₁ w₁', pushAll options width items 0 c w = (result, c₁, w₁) ∧
        pushAll options width items 0 (Recorded.start c') w = (result, s₁, w₁') ∧
        Chain.Coupled EndUnrecorded n c₁ w₁ s₁.inner w₁' :=
    pushAll_lockstep hlockstep ⟨hsteady.count, hsteady.report⟩ items 0 h
  simp only [pushAndClose, pushAndKeep, hpush, hpush']
  cases result with
  | error e => exact Prod.ext rfl h₁.terminal.2.2
  | ok _ =>
    obtain ⟨hresult, hclosed⟩ := hcoupled.close h₁
    exact Prod.ext hresult hclosed.terminal.2.2

theorem Unbroken.recorded [Consumer (Session α) σ] {I : σ → Session α → Prop} (h : Unbroken I) :
    Unbroken fun (s : Recorded σ) w => I s.inner w :=
  ⟨fun row _ _ hI => h.consume row hI, fun hI => h.close hI⟩

/-- What a run has done to the session when it has pushed its rows and closed the chain: the rows
    that went in are counted as pulled, and those that were handed to the collector as collected. -/
theorem pushAndKeep_pushed {held : κ → List Row} (hheld : Holds held)
    (c : Chain π (Guarded (Metered κ)) n) (hstart : held (Chain.terminal n c).inner.inner = [])
    (w : Session α) :
    ∃ stopped result s' w',
      pushAndKeep options width items (Recorded.start c) w = (result, s', w') ∧
      s'.rows.map Except.ok <+: items ∧ (∀ row ∈ s'.rows, row.length = width) ∧
      Session.Pushed options s'.rows.length s'.rows.length stopped w w' ∧
      w'.counters.rowsCollected = w.counters.rowsCollected +
        (held (Chain.terminal n s'.inner).inner.inner).length := by
  have htouch : TouchesEnd α (Chain π (Guarded (Metered κ)) n) := Chain.touchesEnd n
  have hkept := (Chain.unbroken_tallied (α := α) (π := π) hheld w.counters.rowsCollected n).recorded
  -- the collector has nothing yet, so its rows are counted from here on
  have htallied : Tallied held w.counters.rowsCollected
      (Chain.terminal n (Recorded.start c).inner) w := by
    change w.counters.rowsCollected =
      w.counters.rowsCollected + (held (Chain.terminal n c).inner.inner).length
    rw [hstart]
    rfl
  obtain ⟨halt, rows, s₁, w₁, hpush, hrows, htaken, hwidths, hpushed⟩ :=
    pushUntil_pushed options width (fun _ => false) htouch items 0 (Recorded.start c) w
  -- and while rows are pushed, the count keeps pace with what it holds
  have hall := pushUntil_kept options width
    (I := fun (s : Recorded (Chain π (Guarded (Metered κ)) n)) v =>
      Tallied held w.counters.rowsCollected (Chain.terminal n s.inner) v)
    (fun row _ _ h => hkept.consume row h) (tallied_stopped options) (fun _ => false) items 0
    htallied
  rw [show ((fun _ => false) ∘ Recorded.inner : Recorded (Chain π (Guarded (Metered κ)) n) → Bool) =
    fun _ => false from rfl] at hpush
  rw [hpush] at hall
  have hrows : s₁.rows = rows := hrows
  rw [Nat.zero_add] at hpushed
  simp only [pushAndKeep, pushAll_eq, hpush]
  cases hresult : halt.result with
  | error e => exact ⟨_, _, _, _, rfl, hrows ▸ htaken, hrows ▸ hwidths, hrows ▸ hpushed, hall⟩
  | ok _ =>
    -- no row goes in when the chain is closed
    have hclosed : (Consumer.close s₁ w₁).2.1.rows = rows := (s₁.rows_close w₁).trans hrows
    have hend := hpushed.close (htouch.close s₁.inner w₁)
    refine ⟨halt.isStop, _, (Consumer.close s₁ w₁).2.1, (Consumer.close s₁ w₁).2.2, rfl, ?_, ?_, ?_,
      hkept.close hall⟩
    · rwa [hclosed]
    · rwa [hclosed]
    · rw [hclosed]
      exact hend

end

/-! ## Questions to a reader -/

namespace RowIterator

variable {n : Nat}

/-- Whether a row has come out of a chain. -/
def hasEmitted (chain : FetchedChain π n) : Bool := !(emitted chain).isEmpty

variable [Producer π]

/-- How a question goes on when the run has halted: the chain is closed, unless the run has failed
    or a row has come out. -/
def resume (options : Options α) (width : Nat) :
    Halt × Nat × FetchedChain π n × Session α →
      Option (Except Error Row) × RowIterator π α n × Session α
  | (.failed e, pulled, chain, session) =>
    giveError e ⟨options, width, [], none, pulled, emitted chain⟩ session
  | (.ready rest, pulled, chain, session) =>
    giveWaiting ⟨options, width, rest, some (fetched chain), pulled, emitted chain⟩ session
  | (.ended, pulled, chain, session) => finish chain ⟨options, width, [], none, pulled, []⟩ session
  | (.stopped, pulled, chain, session) =>
    if hasEmitted chain then
      giveWaiting ⟨options, width, [], some (fetched chain), pulled, emitted chain⟩ session
    else finish chain ⟨options, width, [], none, pulled, []⟩ session

/-- Pulling rows is pushing them until one comes out. -/
theorem pull_eq (it : RowIterator π α n) (chain : FetchedChain π n) (session : Session α)
    (items : List (Except Error Row)) (hwaiting : it.waiting = emitted chain) :
    it.pull chain session items =
      resume it.options it.width
        (pushUntil it.options it.width hasEmitted items it.pulled chain session) := by
  -- the reader keeps its state in fields, which pushing has in its arguments
  induction items generalizing it chain session with
  | nil => rfl
  | cons item rest ih =>
    obtain ⟨options, width, left, chain?, pulled, waiting⟩ := it
    obtain rfl : waiting = emitted chain := hwaiting
    cases item with
    | error e => rfl
    | ok row =>
      simp only [pull, pushUntil]
      rcases pushRow options width row pulled chain session with ⟨e | _ | _, now, chain', session'⟩
      · rfl
      · dsimp only
        by_cases hout : (emitted chain').isEmpty = true
        -- no row has come out, and the reader goes on with what is left of the source
        · simp only [hasEmitted, hout, if_true, Bool.not_true, Bool.false_eq_true, if_false]
          exact ih ⟨_, _, _, _, _, _⟩ chain' session' rfl
        · simp only [hasEmitted, hout, Bool.not_false, if_true, Bool.false_eq_true, if_false]
          rfl
      · dsimp only
        by_cases hout : (emitted chain').isEmpty = true
        · simp only [resume, hasEmitted, hout, if_true, Bool.not_true, Bool.false_eq_true, if_false]
          rfl
        · simp only [resume, hasEmitted, hout, Bool.not_false, if_true, Bool.false_eq_true,
            if_false]

/-- A reader between two questions: all rows that have come out of its chain have been fetched. -/
def Fetched (it : RowIterator π α n) : Prop := ∀ chain ∈ it.chain, emitted chain = []

theorem next_eq (it : RowIterator π α n) (hfetched : it.Fetched) (session : Session α) :
    it.next session =
      match it.waiting, it.chain with
      | [], some chain => resume it.options it.width
          (pushUntil it.options it.width hasEmitted it.items it.pulled chain session)
      | _, _ => it.giveWaiting session := by
  obtain ⟨options, width, items, chain, pulled, waiting⟩ := it
  cases waiting with
  | cons row waiting => rfl
  | nil =>
    cases chain with
    | none => rfl
    | some chain => exact pull_eq _ chain session items (hfetched chain rfl).symm

end RowIterator

end RowFlow
