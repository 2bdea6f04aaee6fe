import RowFlow.Proofs.Step.Width

/-!
# Chains in Lockstep

Two chains of the same stages, in the same states, in front of terminal consumers that a relation
ties together. As long as the terminal consumers answer alike to rows of the right width, the chains
do: stage by stage they hold the same rows and answer the same (`Chain.lockstep_alike`). Closing
them either fails in the same drain or comes down to closing the terminal consumers
(`Chain.Alike.closing`).
-/

namespace RowFlow

namespace Chain

variable {ω τ ω' τ' : Type}

/-! ## Alike chains -/

/-- Chains whose stages are in the same states, fit rows of width `input` to rows of width `output`,
    and end in terminal consumers related by `R`. -/
def Alike (R : τ → ω → τ' → ω' → Prop) (output : Nat) :
    (n input : Nat) → Chain Stage τ n → ω → Chain Stage τ' n → ω' → Prop
  | 0, input, t, w, t', w' => input = output ∧ R t w t' w'
  | n + 1, input, c, w, c', w' =>
    Link.producer c = Link.producer c' ∧ Link.closed c = Link.closed c' ∧
      Link.stopped c = Link.stopped c' ∧
        ∃ between, (Link.producer c).Fits input between ∧
          Alike R output n between (Link.downstream c) w (Link.downstream c') w'

variable {R : τ → ω → τ' → ω' → Prop} {output : Nat}

theorem alike_link {n input : Nat} {p p' : Stage} {d : Chain Stage τ n} {d' : Chain Stage τ' n}
    {closed closed' stopped stopped' : Bool} {w : ω} {w' : ω'} :
    Alike R output (n + 1) input (Link.mk p d closed stopped) w (Link.mk p' d' closed' stopped')
        w' ↔
      p = p' ∧ closed = closed' ∧ stopped = stopped' ∧
        ∃ between, p.Fits input between ∧ Alike R output n between d w d' w' :=
  Iff.rfl

theorem alike_connect {stages : List Stage} {input : Nat} (h : Stage.FitAll stages input output)
    {t : τ} {w : ω} {t' : τ'} {w' : ω'} (hR : R t w t' w') :
    Alike R output stages.length input (connect stages t) w (connect stages t') w' := by
  induction stages generalizing input with
  | nil => exact ⟨h, hR⟩
  | cons stage rest ih =>
    obtain ⟨between, hstage, hrest⟩ := h
    exact ⟨rfl, rfl, rfl, between, hstage, ih hrest⟩

namespace Alike

variable {n input : Nat} {c : Chain Stage τ n} {w : ω} {c' : Chain Stage τ' n} {w' : ω'}

theorem terminal (h : Alike R output n input c w c' w') :
    R (Chain.terminal n c) w (Chain.terminal n c') w' := by
  induction n generalizing input with
  | zero => exact h.2
  | succ n ih =>
    obtain ⟨-, -, -, between, -, hdown⟩ := h
    exact ih hdown

/-- The worlds may change, and what ties the terminal consumers together. -/
theorem retie {R' : τ → ω → τ' → ω' → Prop} {v : ω} {v' : ω'}
    (h : Alike R output n input c w c' w')
    (hR : R' (Chain.terminal n c) v (Chain.terminal n c') v') :
    Alike R' output n input c v c' v' := by
  induction n generalizing input with
  | zero => exact ⟨h.1, hR⟩
  | succ n ih =>
    obtain ⟨hproducer, hclosed, hstopped, between, hfits, hdown⟩ := h
    exact ⟨hproducer, hclosed, hstopped, between, hfits, ih hdown hR⟩

/-- The second terminal consumer may be exchanged. -/
theorem mapTerminal {R' : τ → ω → τ' → ω' → Prop} {f : τ' → τ'}
    (h : Alike R output n input c w c' w')
    (hR : R' (Chain.terminal n c) w (f (Chain.terminal n c')) w') :
    Alike R' output n input c w (Chain.mapTerminal f n c') w' := by
  induction n generalizing input with
  | zero => exact ⟨h.1, hR⟩
  | succ n ih =>
    obtain ⟨hproducer, hclosed, hstopped, between, hfits, hdown⟩ := h
    exact ⟨hproducer, hclosed, hstopped, between, hfits, ih hdown hR⟩

end Alike

/-! ## Rows -/

variable [Consumer ω τ] [Consumer ω' τ']

/-- Alike chains answer a row alike and stay alike. -/
theorem lockstep_alike (hR : Lockstep (·.length = output) R) (n input : Nat) :
    Lockstep (·.length = input) (Alike R output n input) := by
  induction n generalizing input with
  | zero =>
    rintro row t w t' w' hrow ⟨rfl, h⟩
    obtain ⟨hanswer, hafter⟩ := hR row t w t' w' hrow h
    exact ⟨hanswer, rfl, hafter⟩
  | succ n ih =>
    -- The flags agree, so both links leave the row alone or both handle it.
    rintro row ⟨producer, down, closed, stopped⟩ w ⟨producer', down', closed', stopped'⟩ w' hrow h
    obtain ⟨rfl, rfl, rfl, between, hfits, hdown⟩ := alike_link.1 h
    cases closed with
    | true => exact ⟨rfl, rfl, rfl, rfl, between, hfits, hdown⟩
    | false =>
      cases stopped with
      | true => exact ⟨rfl, rfl, rfl, rfl, between, hfits, hdown⟩
      | false =>
        -- what the stage passes on fits the next stage, which keeps the rest in lockstep
        obtain ⟨hsame, hfits', hstopped, hafter⟩ := Feed.run_lockstep (ih between)
          (Stage.handle row producer) (Stage.handle_sends hfits hrow) false hdown
        exact ⟨congrArg Prod.fst hsame, congrArg Prod.snd hsame, rfl, hstopped, between, hfits',
          hafter⟩

/-! ## The end -/

/-- What closing a chain gives, and the terminal consumer and the world afterwards. -/
def closing (n : Nat) (c : Chain Stage τ n) (w : ω) : Except Error (Option Output) × τ × ω :=
  ((Consumer.close c w).1, Chain.terminal n (Consumer.close c w).2.1, (Consumer.close c w).2.2)

theorem closing_link {n : Nat} (producer : Stage) (down : Chain Stage τ n) (w : ω) :
    closing (n + 1) (Link.mk producer down false false) w =
      match (Stage.drain producer).run false down w with
      | ((.error e, _), _, down, w) => (.error e, Chain.terminal n down, w)
      | ((.ok (), _), _, down, w) => closing n down w := by
  change ((Link.close (Link.mk producer down false false) w).1,
    Chain.terminal n (Link.close (Link.mk producer down false false) w).2.1.downstream,
    (Link.close (Link.mk producer down false false) w).2.2) = _
  simp only [Link.close, Producer.drain, Bool.false_eq_true, if_false]
  rcases (Stage.drain producer).run false down w with ⟨⟨_ | _, _⟩, _, _, _⟩ <;> rfl

/-- Two chains have failed alike before their terminal consumers were closed, or these have been
    closed. -/
inductive ClosedAlike (R : τ → ω → τ' → ω' → Prop) :
    Except Error (Option Output) × τ × ω → Except Error (Option Output) × τ' × ω' → Prop
  | failed (e : Error) {t : τ} {w : ω} {t' : τ'} {w' : ω'} (h : R t w t' w') :
    ClosedAlike R (.error e, t, w) (.error e, t', w')
  | closed {t : τ} {w : ω} {t' : τ'} {w' : ω'} (h : R t w t' w') :
    ClosedAlike R (Consumer.close t w) (Consumer.close t' w')

theorem Alike.closing (hR : Lockstep (·.length = output) R) {n input : Nat} {c : Chain Stage τ n}
    {w : ω} {c' : Chain Stage τ' n} {w' : ω'} (h : Alike R output n input c w c' w') :
    ClosedAlike R (Chain.closing n c w) (Chain.closing n c' w') := by
  induction n generalizing input w w' with
  | zero => exact .closed h.2
  | succ n ih =>
    obtain ⟨producer, down, closed, stopped⟩ := c
    obtain ⟨producer', down', closed', stopped'⟩ := c'
    obtain ⟨rfl, rfl, rfl, between, hfits, hdown⟩ := alike_link.1 h
    cases closed with
    -- a link that is closed twice fails before anything behind it is closed
    | true => exact .failed _ hdown.terminal
    | false =>
      cases stopped with
      -- a link whose consumer has stopped drains nothing
      | true => exact ih hdown
      | false =>
        obtain ⟨hsame, -, -, hafter⟩ := Feed.run_lockstep (lockstep_alike hR n between)
          (Stage.drain producer) (Stage.drain_sends hfits) false hdown
        rw [closing_link, closing_link]
        generalize (Stage.drain producer).run false down w = run at hsame hafter ⊢
        generalize (Stage.drain producer).run false down' w' = run' at hsame hafter ⊢
        obtain ⟨⟨drained, after⟩, stopped, d, v⟩ := run
        obtain ⟨⟨drained', after'⟩, stopped', d', v'⟩ := run'
        obtain rfl : drained = drained' := congrArg Prod.fst hsame
        cases drained with
        | error e => exact .failed e hafter.terminal
        | ok _ => exact ih hafter

end Chain

end RowFlow
