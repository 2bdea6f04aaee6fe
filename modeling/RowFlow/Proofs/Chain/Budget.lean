import RowFlow.Proofs.Chain.Feed
import RowFlow.Proofs.Random.Reservoir
import RowFlow.Step.Stage

/-!
# Budgets

How many rows can come out of a chain. Each row that goes in pays for one that comes out, now or
later: a producer passes on a row only if it has just been handed one or holds one back
(`Frugal`, `Stage.frugal`). What is held back along a chain is its load, and the rows that have come
out of the chain and its load together grow by at most one with each row that goes in
(`Chain.budgeted`).
-/

namespace RowFlow

/-! ## Rows paid for -/

namespace Feed

variable {α β : Type}

/-- A feed forwards no more rows than its budget allows, whatever the answers are, and what it ends
    with may be left of it. -/
def Spends (left : α → Nat) : Feed α → Nat → Prop
  | .done result, budget => left result ≤ budget
  | .forward _ _, 0 => False
  | .forward _ next, budget + 1 => ∀ answer, (next answer).Spends left budget

theorem Spends.map {left : β → Nat} {f : α → β} {feed : Feed α} {budget : Nat}
    (h : feed.Spends (fun a => left (f a)) budget) : (feed.map f).Spends left budget := by
  induction feed generalizing budget with
  | done result => exact h
  | forward row next ih =>
    cases budget with
    | zero => exact h
    | succ budget => exact fun answer => ih answer (h answer)

/-- Forwarding some rows costs as many. -/
theorem spends_ofRows (rows : List Row) : (ofRows rows).Spends (fun _ => 0) rows.length := by
  induction rows with
  | nil => exact Nat.le_refl 0
  | cons row rest ih =>
    intro answer
    match answer with
    | .error _ | .ok .stop => exact Nat.zero_le _
    | .ok .more => exact ih

end Feed

/-! ## Budgeted consumers -/

/-- What is spent on a consumer grows by at most one with each row, and not when it is closed. -/
structure Budgeted {ω σ : Type} [Consumer ω σ] (spent : σ → ω → Nat) : Prop where
  consume (row : Row) (s : σ) (w : ω) :
    spent (Consumer.consume row s w).2.1 (Consumer.consume row s w).2.2 ≤ spent s w + 1
  close (s : σ) (w : ω) :
    spent (Consumer.close s w).2.1 (Consumer.close s w).2.2 ≤ spent s w

/-- Producers that pass on a row only for one that they have been handed, now or before; `held`
    tells how many they hold back. -/
structure Frugal {π : Type} [Producer π] (held : π → Nat) : Prop where
  handle (row : Row) (p : π) :
    (Producer.handle row p).Spends (fun result => held result.2) (held p + 1)
  drain (p : π) : (Producer.drain p).Spends (fun _ => 0) (held p)

section
variable {ω σ π : Type} [Consumer ω σ] {spent : σ → ω → Nat}

theorem Budgeted.congr {spent' : σ → ω → Nat} (h : Budgeted spent)
    (hspent : ∀ s w, spent' s w = spent s w) : Budgeted spent' := by
  obtain rfl : spent' = spent := funext fun s => funext (hspent s)
  exact h

theorem Feed.run_spent (h : Budgeted spent) {α : Type} {left : α → Nat} {feed : Feed α}
    {budget : Nat} (hfeed : feed.Spends left budget) (stopped : Bool) (s : σ) (w : ω) :
    left (feed.run stopped s w).1 +
        spent (feed.run stopped s w).2.2.1 (feed.run stopped s w).2.2.2 ≤ budget + spent s w := by
  induction feed generalizing budget stopped s w with
  | done result => exact Nat.add_le_add_right hfeed _
  | forward row next ih =>
    cases budget with
    | zero => exact hfeed.elim
    | succ budget =>
      cases stopped with
      | true =>
        -- the row is dropped, and what it would have cost stays unspent
        have hrest := ih _ (hfeed (.ok .stop)) true s w
        simp only [run, if_true]
        omega
      | false =>
        -- the row costs what the consumer spends on it at most
        have hrow := h.consume row s w
        simp only [run, Bool.false_eq_true, if_false]
        generalize Consumer.consume row s w = step at hrow ⊢
        obtain ⟨answer, s', w'⟩ := step
        refine Nat.le_trans (ih answer (hfeed answer) _ s' w') ?_
        rw [Nat.add_right_comm, Nat.add_assoc budget]
        exact Nat.add_le_add_left hrow budget

/-- What a link holds back; a closed one never passes on anything again. -/
def Link.held (held : π → Nat) (link : Link π σ) : Nat :=
  if link.closed then 0 else held link.producer

/-- A frugal producer in front of a budgeted consumer. -/
theorem Budgeted.link [Producer π] {held : π → Nat} (hheld : Frugal held) (h : Budgeted spent) :
    Budgeted (ω := ω) fun (link : Link π σ) w => link.held held + spent link.downstream w where
  consume := by
    rintro row ⟨producer, down, closed, stopped⟩ w
    cases closed with
    | true => exact Nat.le_succ _
    | false =>
      cases stopped with
      | true => exact Nat.le_succ _
      | false =>
        -- the budget of the handler is what is held back and the row that has come in
        have hrun := Feed.run_spent h (hheld.handle row producer) false down w
        rw [Nat.add_right_comm] at hrun
        exact hrun
  close := by
    rintro ⟨producer, down, closed, stopped⟩ w
    cases closed with
    | true => exact Nat.le_refl _
    | false =>
      change Link.held held (Link.close _ w).2.1 + spent (Link.downstream (Link.close _ w).2.1)
        (Link.close _ w).2.2 ≤ held producer + spent down w
      simp only [Link.close, Bool.false_eq_true, if_false]
      -- whatever the drain leaves of its budget is lost with the link
      have hfeed : (if stopped = true then .done (.ok (), producer) else Producer.drain producer :
          Feed (Except Error Unit × π)).Spends (fun _ => 0) (held producer) := by
        split
        · exact Nat.zero_le _
        · exact hheld.drain producer
      have hrun := Feed.run_spent h hfeed stopped down w
      generalize Feed.run _ stopped down w = run at hrun ⊢
      obtain ⟨⟨drained, after⟩, stop, d, v⟩ := run
      cases drained with
      | error e => exact hrun
      | ok _ =>
        exact Nat.le_trans (Nat.add_le_add_left (h.close d v) 0) hrun

end

/-! ## Chains -/

namespace Chain

variable {π τ ω : Type}

/-- What the producers of a chain hold back. -/
def load (held : π → Nat) : (n : Nat) → Chain π τ n → Nat
  | 0, _ => 0
  | n + 1, link => Link.held held link + load held n (Link.downstream link)

theorem load_connect {held : π → Nat} {producers : List π} (h : ∀ p ∈ producers, held p = 0)
    (t : τ) : load held producers.length (connect producers t) = 0 := by
  induction producers with
  | nil => rfl
  | cons producer rest ih =>
    obtain ⟨hproducer, hrest⟩ := List.forall_mem_cons.1 h
    change held producer + load held rest.length (connect rest t) = 0
    rw [hproducer, ih hrest]

theorem load_mapTerminal (held : π → Nat) (f : τ → τ) (n : Nat) (c : Chain π τ n) :
    load held n (mapTerminal f n c) = load held n c := by
  induction n with
  | zero => rfl
  | succ n ih => exact congrArg (Link.held held c + ·) (ih (Link.downstream c))

/-- The rows that have come out of a chain of frugal producers and those that it holds back grow
    together by at most one with each row that goes in. -/
theorem budgeted [Producer π] [Consumer ω τ] {held : π → Nat} (hheld : Frugal held)
    {spent : τ → ω → Nat} (h : Budgeted spent) (n : Nat) :
    Budgeted fun (c : Chain π τ n) (w : ω) => load held n c + spent (terminal n c) w := by
  induction n with
  | zero => exact h.congr fun t w => Nat.zero_add (spent t w)
  | succ n ih => exact (ih.link hheld).congr fun c w => Nat.add_assoc _ _ _

end Chain

/-! ## Stages -/

namespace Stage

/-- The number of rows that a stage holds back. -/
def held : Stage → Nat
  | .sample reservoir => reservoir.held.length
  | .sort _ _ _ held => held.length
  | _ => 0

theorem held_offer_le (reservoir : Reservoir KeyStream) (row : Row) :
    (reservoir.offer row).held.length ≤ reservoir.held.length + 1 := by
  rw [Reservoir.length_held_offer]
  split
  · exact Nat.le_refl _
  · exact Nat.le_succ _

/-- The stages of this library pass on rows only for rows. -/
theorem frugal : Frugal Stage.held where
  handle row stage := by
    change (Stage.handle row stage).Spends _ _
    cases stage with
    -- rules and limits spend the unit of the row at once, the others put it by
    | each rule =>
      simp only [Stage.handle]
      split
      · exact Nat.zero_le _
      · exact Nat.zero_le _
      · exact fun _ => Nat.le_refl 0
    | limit rows seen =>
      simp only [Stage.handle]
      split
      · exact Nat.zero_le _
      · exact fun _ => Nat.le_refl 0
    | sample reservoir => exact held_offer_le reservoir row
    | sort width keys descending held =>
      simp only [Stage.handle]
      split
      · exact Nat.le_succ _
      · exact Nat.le_of_eq (List.length_append)
  drain stage := by
    change (Stage.drain stage).Spends _ _
    cases stage with
    | each rule => exact Nat.le_refl 0
    | limit rows seen => exact Nat.le_refl 0
    | sample reservoir =>
      have hlength : reservoir.rows.length = Stage.held (.sample reservoir) := by
        rw [Reservoir.rows, List.length_map, List.length_mergeSort]
        rfl
      refine Feed.Spends.map ?_
      exact hlength ▸ Feed.spends_ofRows reservoir.rows
    | sort width keys descending held =>
      have hlength : (sortRows keys descending held).length =
          Stage.held (.sort width keys descending held) := List.length_mergeSort _
      refine Feed.Spends.map ?_
      exact hlength ▸ Feed.spends_ofRows (sortRows keys descending held)

end Stage

end RowFlow
