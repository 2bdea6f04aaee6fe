import RowFlow.Proofs.Chain.Contract
import RowFlow.Proofs.Pipeline.Notices

/-!
# What Chains Touch

A chain touches the session at its end only: rows are counted there and files are written
(`Chain.touchesEnd`), and each row that is counted is handed to the collector
(`Chain.unbroken_tallied`). The rest is left to the run around the chain.
-/

namespace RowFlow

variable {α π σ κ : Type}

/-! ## What no call breaks -/

/-- A property of a consumer and its session that no call on the consumer breaks. -/
structure Unbroken [Consumer (Session α) σ] (I : σ → Session α → Prop) : Prop where
  consume (row : Row) {s : σ} {w : Session α} : I s w →
    I (Consumer.consume row s w).2.1 (Consumer.consume row s w).2.2
  close {s : σ} {w : Session α} : I s w → I (Consumer.close s w).2.1 (Consumer.close s w).2.2

/-- What no call on the terminal consumer breaks, none on the chain does. -/
theorem Chain.unbroken [Producer π] [Consumer (Session α) σ] {I : σ → Session α → Prop}
    (h : Unbroken I) (n : Nat) : Unbroken fun (c : Chain π σ n) w => I (terminal n c) w := by
  -- as a relation of a consumer to itself, the property goes along a chain by coupling
  have hcoupled : Parallel (Chain.Coupled (π := π)
      (fun (t : σ) (w : Session α) t' w' => t = t' ∧ w = w' ∧ I t w) n) := by
    refine parallel_coupled ⟨?_, ?_⟩ n
    · rintro row t w _ _ - ⟨rfl, rfl, hI⟩
      exact ⟨rfl, rfl, rfl, h.consume row hI⟩
    · rintro t w _ _ ⟨rfl, rfl, hI⟩
      exact ⟨rfl, rfl, rfl, h.close hI⟩
  constructor
  · intro row c w hI
    exact (hcoupled.consume row c w c w trivial (coupled_self c ⟨rfl, rfl, hI⟩)).2.terminal.2.2
  · intro c w hI
    exact (hcoupled.close (coupled_self c ⟨rfl, rfl, hI⟩)).2.terminal.2.2

/-! ## The end of a chain -/

/-- Nothing has happened in a session but that rows were collected and files were written. -/
structure Session.Collecting (before after : Session α) : Prop where
  spent : after.spent = before.spent
  log : after.log = before.log
  counters : ∃ rows, after.counters = before.counters + ⟨0, 0, 0, rows, 0⟩

theorem Session.Collecting.refl (session : Session α) : session.Collecting session :=
  ⟨rfl, rfl, 0, rfl⟩

theorem Session.Collecting.rowsPulled {before after : Session α} (h : before.Collecting after) :
    after.counters.rowsPulled = before.counters.rowsPulled := by
  obtain ⟨rows, hcounters⟩ := h.counters
  rw [hcounters]
  rfl

/-- Calls on a consumer touch a session at its end only. -/
structure TouchesEnd (α σ : Type) [Consumer (Session α) σ] : Prop where
  consume (row : Row) (s : σ) (w : Session α) : w.Collecting (Consumer.consume row s w).2.2
  close (s : σ) (w : Session α) : w.Collecting (Consumer.close s w).2.2

theorem unbroken_collecting [Consumer Files κ] (before : Session α) :
    Unbroken fun (_ : Guarded (Metered κ)) w => before.Collecting w where
  consume row := by
    rintro ⟨⟨inner⟩, closed⟩ w h
    cases closed with
    | true => exact h
    | false =>
      obtain ⟨rows, hcounters⟩ := h.counters
      refine ⟨h.spent, h.log, rows + 1, ?_⟩
      change { w.counters with rowsCollected := w.counters.rowsCollected + 1 } = _
      rw [hcounters]
      rfl
  close := by
    rintro ⟨⟨inner⟩, closed⟩ w h
    cases closed with
    | true => exact h
    | false => exact ⟨h.spent, h.log, h.counters⟩

/-- A chain in front of a collector touches the session at its end only. -/
theorem Chain.touchesEnd [Producer π] [Consumer Files κ] (n : Nat) :
    TouchesEnd α (Chain π (Guarded (Metered κ)) n) where
  consume row c w := (Chain.unbroken (unbroken_collecting w) n).consume row (s := c) (.refl w)
  close c w := (Chain.unbroken (unbroken_collecting w) n).close (s := c) (.refl w)

/-! ## Rows that reach the end -/

/-- Collectors that keep the rows that they are handed where `held` shows them. -/
structure Holds [Consumer Files κ] (held : κ → List Row) : Prop where
  consume (row : Row) (collector : κ) (files : Files) :
    held (Consumer.consume row collector files).2.1 = held collector ++ [row]
  close (collector : κ) (files : Files) :
    held (Consumer.close collector files).2.1 = held collector

theorem Recorded.holds [Consumer Files κ] : Holds (Recorded.rows (σ := κ)) where
  consume row s files := rows_consume s files row
  close s files := rows_close s files

theorem Outbox.holds : Holds Outbox.rows where
  consume _ _ _ := rfl
  close _ _ := rfl

/-- As many rows have been counted since there were `start` as the collector has been handed. -/
def Tallied (held : κ → List Row) (start : Nat) (collector : Guarded (Metered κ))
    (session : Session α) : Prop :=
  session.counters.rowsCollected = start + (held collector.inner.inner).length

theorem tallied_stopped (options : Options α) {held : κ → List Row} {start : Nat}
    {collector : Guarded (Metered κ)} {session : Session α} (pulled : Nat)
    (h : Tallied held start collector session) :
    Tallied held start collector (session.stopped options pulled) := by
  rw [Tallied, Session.stopped, Session.counters_report]
  exact h

/-- Each row that is counted at the end of a chain is handed to the collector. -/
theorem Chain.unbroken_tallied [Producer π] [Consumer Files κ] {held : κ → List Row}
    (h : Holds held) (start n : Nat) :
    Unbroken fun (c : Chain π (Guarded (Metered κ)) n) (w : Session α) =>
      Tallied held start (terminal n c) w := by
  refine Chain.unbroken ⟨?_, ?_⟩ n
  · rintro row ⟨⟨inner⟩, closed⟩ w hw
    cases closed with
    -- a closed collector neither takes the row nor counts it
    | true => exact hw
    | false =>
      have hheld := congrArg List.length (h.consume row inner w.files)
      rw [List.length_append, List.length_singleton] at hheld
      change w.counters.rowsCollected + 1 =
        start + (held (Consumer.consume row inner w.files).2.1).length
      rw [hheld, ← Nat.add_assoc]
      exact congrArg (· + 1) hw
  · rintro ⟨⟨inner⟩, closed⟩ w hw
    cases closed with
    | true => exact hw
    | false =>
      change w.counters.rowsCollected = start + (held (Consumer.close inner w.files).2.1).length
      rw [h.close inner w.files]
      exact hw

end RowFlow
