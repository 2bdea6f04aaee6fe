import RowFlow.Proofs.Chain.Coupled
import RowFlow.Proofs.Chain.Terminal

/-!
# Interchangeable Producers

Two rows of producers are interchangeable if the chains that they make, in front of terminal
consumers that no call can tell apart, cannot be told apart by any call either, even if they differ
in length. Producers in front of both rows do not change this (`Interchangeable.append_left`).
-/

namespace RowFlow

/-! ## Bisimulations -/

namespace Chain

variable {π ω τ ω' τ' : Type} [Producer π] [Consumer ω τ] [Consumer ω' τ']
  {R : τ → ω → τ' → ω' → Prop} {n m : Nat}

/-- A relation between chains that no call breaks. It depends on the ends of the chains and on the
    worlds through the relation `R` only. -/
structure Bisimulation (R : τ → ω → τ' → ω' → Prop)
    (D : Chain π τ n → ω → Chain π τ' m → ω' → Prop) : Prop where
  parallel : Parallel D
  terminal {c : Chain π τ n} {w : ω} {c' : Chain π τ' m} {w' : ω'} : D c w c' w' →
    R (Chain.terminal n c) w (Chain.terminal m c') w'
  retie {c : Chain π τ n} {w v : ω} {c' : Chain π τ' m} {w' v' : ω'} (f : τ → τ) (f' : τ' → τ') :
    D c w c' w' → R (f (Chain.terminal n c)) v (f' (Chain.terminal m c')) v' →
      D (mapTerminal f n c) v (mapTerminal f' m c') v'

namespace Bisimulation

variable {D : Chain π τ n → ω → Chain π τ' m → ω' → Prop}

/-- The worlds may change. -/
theorem move (h : Bisimulation R D) {c : Chain π τ n} {w v : ω} {c' : Chain π τ' m} {w' v' : ω'}
    (hD : D c w c' w') (hR : R (Chain.terminal n c) v (Chain.terminal m c') v') :
    D c v c' v' := by
  have hsame := h.retie id id hD hR
  rwa [mapTerminal_eq_self id rfl, mapTerminal_eq_self id rfl] at hsame

theorem coupled (hR : Parallel R) (n : Nat) : Bisimulation (π := π) R (Coupled R n) where
  parallel := parallel_coupled hR n
  terminal h := h.terminal
  retie f f' h hv := by
    induction n with
    | zero => exact hv
    | succ n ih => exact ⟨h.1, h.2.1, h.2.2.1, ih h.2.2.2 hv⟩

/-- A producer in front of both chains. -/
theorem linked (h : Bisimulation R D) :
    Bisimulation (n := n + 1) (m := m + 1) R (Linked D) where
  parallel := ⟨(parallel_linked h.parallel).consume, (parallel_linked h.parallel).close⟩
  terminal hD := h.terminal hD.2.2.2
  retie f f' hD hv := ⟨hD.1, hD.2.1, hD.2.2.1, h.retie f f' hD.2.2.2 hv⟩

end Bisimulation

end Chain

/-! ## Interchangeable rows of producers -/

/-- No call tells the chains of the producers apart, unless it tells their ends apart. -/
structure Interchangeable {π : Type} [Producer π] (producers producers' : List π) : Prop where
  exists_bisimulation {ω τ ω' τ' : Type} [Consumer ω τ] [Consumer ω' τ']
    {R : τ → ω → τ' → ω' → Prop} : Parallel R →
      ∃ D : Chain π τ producers.length → ω → Chain π τ' producers'.length → ω' → Prop,
        Chain.Bisimulation R D ∧ ∀ {t w t' w'}, R t w t' w' →
          D (Chain.connect producers t) w (Chain.connect producers' t') w'

namespace Interchangeable

variable {π : Type} [Producer π] {producers producers' : List π}

theorem refl (producers : List π) : Interchangeable producers producers :=
  ⟨fun hR => ⟨_, .coupled hR producers.length, Chain.coupled_connect producers⟩⟩

theorem cons (producer : π) (h : Interchangeable producers producers') :
    Interchangeable (producer :: producers) (producer :: producers') where
  exists_bisimulation hR := by
    obtain ⟨D, hD, hconnect⟩ := h.exists_bisimulation hR
    exact ⟨_, hD.linked, fun hstart => ⟨rfl, rfl, rfl, hconnect hstart⟩⟩

theorem append_left (h : Interchangeable producers producers') (front : List π) :
    Interchangeable (front ++ producers) (front ++ producers') := by
  induction front with
  | nil => exact h
  | cons producer front ih => exact ih.cons producer

end Interchangeable

end RowFlow
