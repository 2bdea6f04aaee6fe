import RowFlow.Proofs.Chain.Feed

/-!
# Coupled Chains

Two chains of the same producers, in the same states, in front of terminal consumers that a relation
ties together. If no call breaks the relation between the terminal consumers, none breaks the one
between the chains (`Chain.parallel_coupled`). Nothing is known about the producers here, so the
terminal consumers must stay related whatever rows reach them; alike chains of stages
(`Chain.Alike`) ask this for rows of one width only.
-/

namespace RowFlow

/-! ## Parallel consumers -/

section
variable {ω σ ω' σ' : Type} [Consumer ω σ] [Consumer ω' σ']

/-- A relation between two consumers and the worlds they act on that no call can break: both give
    the same answer and are related again afterwards. -/
structure Parallel (D : σ → ω → σ' → ω' → Prop) : Prop where
  consume : Lockstep (fun _ => True) D
  close {s : σ} {w : ω} {s' : σ'} {w' : ω'} : D s w s' w' →
    (Consumer.close s w).1 = (Consumer.close s' w').1 ∧
      D (Consumer.close s w).2.1 (Consumer.close s w).2.2
        (Consumer.close s' w').2.1 (Consumer.close s' w').2.2

theorem Lockstep.mono {D : σ → ω → σ' → ω' → Prop} {P Q : Row → Prop} (h : Lockstep P D)
    (hQ : ∀ row, Q row → P row) : Lockstep Q D :=
  fun row s w s' w' hrow => h row s w s' w' (hQ row hrow)

end

/-- The same consumer in two related worlds. -/
def InBoth {τ ω ω' : Type} (S : ω → ω' → Prop) (t : τ) (w : ω) (t' : τ) (w' : ω') : Prop :=
  t = t' ∧ S w w'

theorem Feed.sends_anything {α : Type} (feed : Feed α) :
    feed.Sends (fun _ => True) fun _ => True := by
  induction feed with
  | done result => trivial
  | forward row next ih => exact ⟨trivial, ih⟩

/-! ## Coupled links -/

section
variable {π ω σ ω' σ' : Type}

/-- Links in the same states in front of consumers related by `D`. -/
def Linked (D : σ → ω → σ' → ω' → Prop) (l : Link π σ) (w : ω) (l' : Link π σ') (w' : ω') : Prop :=
  l.producer = l'.producer ∧ l.closed = l'.closed ∧ l.stopped = l'.stopped ∧
    D l.downstream w l'.downstream w'

theorem linked_mk {D : σ → ω → σ' → ω' → Prop} {p p' : π} {d : σ} {d' : σ'}
    {closed closed' stopped stopped' : Bool} {w : ω} {w' : ω'} :
    Linked D (Link.mk p d closed stopped) w (Link.mk p' d' closed' stopped') w' ↔
      p = p' ∧ closed = closed' ∧ stopped = stopped' ∧ D d w d' w' :=
  Iff.rfl

/-- Links keep a relation that no call on the consumers behind them can break. -/
theorem parallel_linked [Producer π] [Consumer ω σ] [Consumer ω' σ']
    {D : σ → ω → σ' → ω' → Prop} (h : Parallel D) : Parallel (Linked (π := π) D) := by
  -- The flags agree, so both links leave the call alone or both pass it to their producers.
  constructor
  · rintro row ⟨producer, down, closed, stopped⟩ w ⟨producer', down', closed', stopped'⟩ w' - hl
    obtain ⟨rfl, rfl, rfl, hdown⟩ := linked_mk.1 hl
    cases closed with
    | true => exact ⟨rfl, hl⟩
    | false =>
      cases stopped with
      | true => exact ⟨rfl, hl⟩
      | false =>
        obtain ⟨hsame, -, hstopped, hafter⟩ := Feed.run_lockstep h.consume
          (Producer.handle row producer) (Feed.sends_anything _) false hdown
        exact ⟨congrArg Prod.fst hsame, congrArg Prod.snd hsame, rfl, hstopped, hafter⟩
  · rintro ⟨producer, down, closed, stopped⟩ w ⟨producer', down', closed', stopped'⟩ w' hl
    obtain ⟨rfl, rfl, rfl, hdown⟩ := linked_mk.1 hl
    cases closed with
    | true => exact ⟨rfl, hl⟩
    | false =>
      change (Link.close _ w).1 = (Link.close _ w').1 ∧
        Linked D (Link.close _ w).2.1 (Link.close _ w).2.2 (Link.close _ w').2.1
          (Link.close _ w').2.2
      simp only [Link.close, Bool.false_eq_true, if_false]
      -- both links drain, or neither does since it has been asked to stop
      obtain ⟨hsame, -, hstopped, hafter⟩ := Feed.run_lockstep h.consume
        (if stopped = true then .done (.ok (), producer) else Producer.drain producer)
        (Feed.sends_anything _) stopped hdown
      generalize Feed.run _ stopped down w = run at hsame hstopped hafter ⊢
      generalize Feed.run _ stopped down' w' = run' at hsame hstopped hafter ⊢
      obtain ⟨⟨drained, after⟩, stop, d, v⟩ := run
      obtain ⟨⟨drained', after'⟩, stop', d', v'⟩ := run'
      obtain ⟨rfl, rfl⟩ := Prod.mk.inj hsame
      obtain rfl : stop = stop' := hstopped
      cases drained with
      -- a drain that fails keeps the call from the consumers behind
      | error e => exact ⟨rfl, rfl, rfl, rfl, hafter⟩
      | ok _ =>
        obtain ⟨hresult, hclosed⟩ := h.close hafter
        exact ⟨hresult, rfl, rfl, rfl, hclosed⟩

end

/-! ## Coupled chains -/

namespace Chain

variable {π τ ω τ' ω' : Type}

/-- Chains whose links are in the same states and end in terminal consumers related by `R`. -/
def Coupled (R : τ → ω → τ' → ω' → Prop) :
    (n : Nat) → Chain π τ n → ω → Chain π τ' n → ω' → Prop
  | 0, t, w, t', w' => R t w t' w'
  | n + 1, c, w, c', w' =>
    Link.producer c = Link.producer c' ∧ Link.closed c = Link.closed c' ∧
      Link.stopped c = Link.stopped c' ∧
        Coupled R n (Link.downstream c) w (Link.downstream c') w'

variable {R : τ → ω → τ' → ω' → Prop}

theorem coupled_link {n : Nat} {p p' : π} {d : Chain π τ n} {d' : Chain π τ' n}
    {closed closed' stopped stopped' : Bool} {w : ω} {w' : ω'} :
    Coupled R (n + 1) (Link.mk p d closed stopped) w (Link.mk p' d' closed' stopped') w' ↔
      p = p' ∧ closed = closed' ∧ stopped = stopped' ∧ Coupled R n d w d' w' :=
  Iff.rfl

theorem coupled_connect (producers : List π) {t : τ} {w : ω} {t' : τ'} {w' : ω'}
    (h : R t w t' w') :
    Coupled R producers.length (connect producers t) w (connect producers t') w' := by
  induction producers with
  | nil => exact h
  | cons producer rest ih => exact ⟨rfl, rfl, rfl, ih⟩

theorem coupled_self {R : τ → ω → τ → ω' → Prop} {n : Nat} (c : Chain π τ n) {w : ω} {w' : ω'}
    (h : R (terminal n c) w (terminal n c) w') : Coupled R n c w c w' := by
  induction n with
  | zero => exact h
  | succ n ih => exact ⟨rfl, rfl, rfl, ih (Link.downstream c) h⟩

namespace Coupled

variable {n : Nat} {c : Chain π τ n} {w : ω} {c' : Chain π τ' n} {w' : ω'}

theorem terminal (h : Coupled R n c w c' w') :
    R (Chain.terminal n c) w (Chain.terminal n c') w' := by
  induction n with
  | zero => exact h
  | succ n ih => exact ih h.2.2.2

/-- The worlds may change, and what ties the terminal consumers together. -/
theorem retie {R' : τ → ω → τ' → ω' → Prop} {v : ω} {v' : ω'} (h : Coupled R n c w c' w')
    (hR : R' (Chain.terminal n c) v (Chain.terminal n c') v') : Coupled R' n c v c' v' := by
  induction n with
  | zero => exact hR
  | succ n ih => exact ⟨h.1, h.2.1, h.2.2.1, ih h.2.2.2 hR⟩

end Coupled

theorem eq_of_coupled {R : τ → ω → τ → ω' → Prop} {n : Nat} {c c' : Chain π τ n} {w : ω}
    {w' : ω'} (hR : ∀ {t w t' w'}, R t w t' w' → t = t') (h : Coupled R n c w c' w') :
    c = c' := by
  induction n with
  | zero => exact hR h
  | succ n ih =>
    obtain ⟨producer, down, closed, stopped⟩ := c
    obtain ⟨producer', down', closed', stopped'⟩ := c'
    obtain ⟨rfl, rfl, rfl, hdown⟩ := coupled_link.1 h
    exact congrArg (Link.mk producer · closed stopped) (ih hdown)

/-- No call breaks the relation between coupled chains. -/
theorem parallel_coupled [Producer π] [Consumer ω τ] [Consumer ω' τ'] (hR : Parallel R) (n : Nat) :
    Parallel (Coupled (π := π) R n) := by
  induction n with
  | zero => exact ⟨fun row t w t' w' _ h => hR.consume row t w t' w' trivial h, hR.close⟩
  | succ n ih => exact ⟨(parallel_linked ih).consume, (parallel_linked ih).close⟩

/-- If the terminal consumer keeps two worlds related, a chain in front of it does. -/
theorem parallel_inBoth [Producer π] [Consumer ω τ] [Consumer ω' τ] {S : ω → ω' → Prop}
    (hS : Parallel (InBoth (τ := τ) S)) (n : Nat) : Parallel (InBoth (τ := Chain π τ n) S) where
  consume := by
    rintro row c w _ w' - ⟨rfl, h⟩
    obtain ⟨hanswer, hafter⟩ :=
      (parallel_coupled hS n).consume row c w c w' trivial (coupled_self c ⟨rfl, h⟩)
    exact ⟨hanswer, eq_of_coupled And.left hafter, hafter.terminal.2⟩
  close := by
    rintro c w _ w' ⟨rfl, h⟩
    obtain ⟨hresult, hafter⟩ := (parallel_coupled hS n).close (coupled_self c ⟨rfl, h⟩)
    exact ⟨hresult, eq_of_coupled And.left hafter, hafter.terminal.2⟩

end Chain

end RowFlow
