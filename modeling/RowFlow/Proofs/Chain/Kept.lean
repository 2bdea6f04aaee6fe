import RowFlow.Proofs.Chain.Calls
import RowFlow.Step.Stage

/-!
# What Rows Leave True

Properties of the consumer at the end of a chain, and of its world, that hold whatever rows are
handed over, and properties that hold unless a row is answered with an error. Both go along a chain:
the first past any producers (`Chain.kept_by_rows`), the second past producers that relay the errors
they are answered with (`Chain.kept_by_success`). When a chain is closed its terminal consumer is
closed last, or a producer fails before that (`Chain.close_cases`).
-/

namespace RowFlow

/-! ## Properties that rows do not break -/

section
variable {ω σ : Type} [Consumer ω σ]

/-- No row breaks the property. -/
def KeptByRows (K : σ → ω → Prop) : Prop :=
  ∀ (row : Row) {s : σ} {w : ω}, K s w →
    K (Consumer.consume row s w).2.1 (Consumer.consume row s w).2.2

/-- Only a row that is answered with an error breaks the property. -/
def KeptBySuccess (K : σ → ω → Prop) : Prop :=
  ∀ (row : Row) {s : σ} {w : ω} {flow : Flow}, K s w → (Consumer.consume row s w).1 = .ok flow →
    K (Consumer.consume row s w).2.1 (Consumer.consume row s w).2.2

end

/-! ## Feeds -/

namespace Feed

variable {α β ω σ : Type} [Consumer ω σ] {K : σ → ω → Prop}

theorem run_kept (hK : KeptByRows K) (feed : Feed α) (stopped : Bool) {s : σ} {w : ω}
    (h : K s w) : K (feed.run stopped s w).2.2.1 (feed.run stopped s w).2.2.2 := by
  induction feed generalizing stopped s w with
  | done result => exact h
  | forward row next ih =>
    cases stopped with
    -- a consumer that has asked to stop is handed no row
    | true => exact ih _ true h
    | false => exact ih _ _ (hK row h)

/-- Once a row has been answered with an error, the feed fails, whatever the other answers are. -/
def Relays (failed : α → Prop) : Feed α → Prop
  | .done _ => True
  | .forward _ next =>
    (∀ e, (next (.error e)).Sends (fun _ => True) failed) ∧
      ∀ answer, (next answer).Relays failed

theorem Relays.map {failed : β → Prop} {f : α → β} {feed : Feed α}
    (h : feed.Relays fun a => failed (f a)) : (feed.map f).Relays failed := by
  induction feed with
  | done result => trivial
  | forward row next ih => exact ⟨fun e => (h.1 e).map, fun answer => ih answer (h.2 answer)⟩

theorem relays_ofRows (rows : List Row) :
    (ofRows rows).Relays fun result => ∃ e, result = .error e := by
  induction rows with
  | nil => trivial
  | cons row rows ih =>
    refine ⟨fun e => ⟨e, rfl⟩, fun answer => ?_⟩
    rcases answer with e | _ | _
    · trivial
    · exact ih
    · trivial

theorem Sends.run {Q : α → Prop} {feed : Feed α} (h : feed.Sends (fun _ => True) Q)
    (stopped : Bool) (s : σ) (w : ω) : Q (feed.run stopped s w).1 := by
  induction feed generalizing stopped s w with
  | done result => exact h
  | forward row next ih =>
    cases stopped with
    | true => exact ih _ (h.2 _) true s w
    | false => exact ih _ (h.2 _) _ _ _

/-- A feed that does not fail has not been answered with an error. -/
theorem run_kept_of_relays (hK : KeptBySuccess K) {failed : α → Prop} {feed : Feed α}
    (hfeed : feed.Relays failed) (stopped : Bool) {s : σ} {w : ω} (h : K s w)
    (hresult : ¬ failed (feed.run stopped s w).1) :
    K (feed.run stopped s w).2.2.1 (feed.run stopped s w).2.2.2 := by
  induction feed generalizing stopped s w with
  | done result => exact h
  | forward row next ih =>
    cases stopped with
    | true => exact ih _ (hfeed.2 _) true h hresult
    | false =>
      simp only [run, Bool.false_eq_true, if_false] at hresult ⊢
      rcases hanswer : (Consumer.consume row s w).1 with e | flow
      all_goals rw [hanswer] at hresult
      -- behind an error every answer leads to a failure
      · exact absurd ((hfeed.1 e).run _ _ _) hresult
      · exact ih _ (hfeed.2 _) _ (hK row h hanswer) hresult

end Feed

/-- Producers that fail if a row that they forward is answered with an error. -/
structure Relaying (π : Type) [Producer π] : Prop where
  handle (row : Row) (producer : π) :
    (Producer.handle row producer).Relays fun result => ∃ e, result.1 = .error e
  drain (producer : π) : (Producer.drain producer).Relays fun result => ∃ e, result.1 = .error e

/-- Stages answer a row as it has been answered by the consumer behind them, if that fails. -/
theorem Stage.relaying : Relaying Stage where
  handle row stage := by
    change (stage.handle row).Relays _
    cases stage with
    | each rule =>
      simp only [handle]
      split
      · trivial
      · trivial
      · exact ⟨fun e => ⟨e, rfl⟩, fun _ => trivial⟩
    | limit rows seen =>
      simp only [handle]
      split
      · trivial
      -- the last row is answered with a request to stop, unless it has failed
      · refine ⟨fun e => ⟨e, ?_⟩, fun _ => trivial⟩
        split <;> rfl
    | sample reservoir => trivial
    | sort width keys descending held =>
      simp only [handle]
      split <;> trivial
  drain stage := by
    change stage.drain.Relays _
    cases stage with
    | each rule => trivial
    | limit rows seen => trivial
    | sample reservoir =>
      refine Feed.Relays.map ?_
      exact Feed.relays_ofRows _
    | sort width keys descending held =>
      refine Feed.Relays.map ?_
      exact Feed.relays_ofRows _

/-! ## Chains -/

namespace Chain

variable {π ω τ : Type} [Producer π] [Consumer ω τ] {K : τ → ω → Prop}

/-- Rows that go into a chain do not break what no row breaks at its end. -/
theorem kept_by_rows (hK : KeptByRows K) (n : Nat) :
    KeptByRows fun (c : Chain π τ n) w => K (terminal n c) w := by
  induction n with
  | zero => exact hK
  | succ n ih =>
    rintro row ⟨producer, down, closed, stopped⟩ w h
    cases closed with
    | true => exact h
    | false =>
      cases stopped with
      | true => exact h
      | false => exact Feed.run_kept ih (Producer.handle row producer) false h

theorem kept_by_success (hπ : Relaying π) (hK : KeptBySuccess K) (n : Nat) :
    KeptBySuccess fun (c : Chain π τ n) w => K (terminal n c) w := by
  induction n with
  | zero => exact hK
  | succ n ih =>
    rintro row ⟨producer, down, closed, stopped⟩ w flow h hanswer
    cases closed with
    | true => exact h
    | false =>
      cases stopped with
      | true => exact h
      | false =>
        -- the producer has not failed, so the rows that it forwards have not failed either
        refine Feed.run_kept_of_relays ih (hπ.handle row producer) false h ?_
        rintro ⟨e, he⟩
        cases he.symm.trans hanswer

/-- A chain that is closed fails before its terminal consumer is closed, or gives the result of
    closing it. -/
theorem close_cases (hK : KeptByRows K) {n : Nat} (c : Chain π τ n) {w : ω}
    (h : K (terminal n c) w) :
    (∃ e, (Consumer.close c w).1 = .error e ∧
      K (terminal n (Consumer.close c w).2.1) (Consumer.close c w).2.2) ∨
    ∃ t v, K t v ∧ Consumer.close t v =
      ((Consumer.close c w).1, terminal n (Consumer.close c w).2.1, (Consumer.close c w).2.2) := by
  induction n generalizing w with
  | zero => exact .inr ⟨c, w, h, rfl⟩
  | succ n ih =>
    obtain ⟨producer, down, closed, stopped⟩ := c
    cases closed with
    | true => exact .inl ⟨_, rfl, h⟩
    | false =>
      change (∃ e, (Link.close _ w).1 = .error e ∧
        K (terminal n (Link.close _ w).2.1.downstream) (Link.close _ w).2.2) ∨
        ∃ t v, K t v ∧ Consumer.close t v =
          ((Link.close _ w).1, terminal n (Link.close _ w).2.1.downstream, (Link.close _ w).2.2)
      simp only [Link.close, Bool.false_eq_true, if_false]
      -- what is held back goes on as rows, and breaks nothing at the end
      have hdrained := Feed.run_kept (kept_by_rows (π := π) hK n)
        (if stopped then .done (.ok (), producer) else Producer.drain producer) stopped h
      generalize Feed.run _ stopped down w = run at hdrained ⊢
      obtain ⟨⟨drained, after⟩, stop, d, v⟩ := run
      cases drained with
      | error e => exact .inl ⟨e, rfl, hdrained⟩
      | ok _ => exact ih d hdrained

/-- A chain that is closed without a failure has closed its terminal consumer, and no row that was
    held back has been answered with an error. -/
theorem close_of_ok (hπ : Relaying π) (hK : KeptBySuccess K) {n : Nat} (c : Chain π τ n) {w : ω}
    (h : K (terminal n c) w) {result : Option Output}
    (hclose : (Consumer.close c w).1 = .ok result) :
    ∃ t v, K t v ∧ Consumer.close t v =
      ((Consumer.close c w).1, terminal n (Consumer.close c w).2.1, (Consumer.close c w).2.2) := by
  induction n generalizing w with
  | zero => exact ⟨c, w, h, rfl⟩
  | succ n ih =>
    obtain ⟨producer, down, closed, stopped⟩ := c
    cases closed with
    | true => cases hclose
    | false =>
      change (Link.close _ w).1 = _ at hclose
      change ∃ t v, K t v ∧ Consumer.close t v =
        ((Link.close _ w).1, terminal n (Link.close _ w).2.1.downstream, (Link.close _ w).2.2)
      -- nothing is let out behind a consumer that has asked to stop
      have hfeed : (if stopped then .done (.ok (), producer) else Producer.drain producer :
          Feed (Except Error Unit × π)).Relays fun result => ∃ e, result.1 = .error e := by
        cases stopped with
        | true => trivial
        | false => exact hπ.drain producer
      have hdrained := Feed.run_kept_of_relays (kept_by_success hπ hK n) hfeed stopped h
      simp only [Link.close, Bool.false_eq_true, if_false] at hclose ⊢
      generalize Feed.run _ stopped down w = run at hclose hdrained ⊢
      obtain ⟨⟨drained, after⟩, stop, d, v⟩ := run
      cases drained with
      | error e => cases hclose
      | ok _ =>
        refine ih d (hdrained ?_) hclose
        rintro ⟨e, he⟩
        cases he

end Chain

end RowFlow
