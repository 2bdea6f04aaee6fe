import RowFlow.Proofs.Chain.Interchange
import RowFlow.Proofs.Step.Hosts

/-!
# Fused Stages

Stages that do together what one stage does. Two rules behind each other are their composition
(`Hosts.interchangeable_rules`), rules that put the same in place of every row are the same
(`Hosts.interchangeable_rule`), and two limits are the smaller one
(`Hosts.interchangeable_limits`), whatever stands before and behind them.
-/

namespace RowFlow

/-! ## One stage in front of a consumer -/

namespace Hosts

variable {ι π κ : Type} [StepKind ι π κ] [Producer π] [Consumer Files κ] {stage : Stage → π}
  (h : Hosts ι stage) {ω σ : Type} [Consumer ω σ] (row : Row) (d : σ) (w : ω)
include h

/-- A rule answers as the consumer behind it, unless it fails or drops the row. -/
theorem consume_each (rule : RowRule) :
    Consumer.consume row (Link.mk (stage (.each rule)) d false false) w =
      match rule.apply row with
      | .error e => (.error e, Link.mk (stage (.each rule)) d false false, w)
      | .ok none => (.ok .more, Link.mk (stage (.each rule)) d false false, w)
      | .ok (some image) =>
        let (answer, d, w) := Consumer.consume image d w
        (answer, Link.mk (stage (.each rule)) d false (asksToStop answer), w) := by
  change Link.consume row _ w = _
  simp only [Link.consume, Bool.false_eq_true, if_false, h.handle, Feed.run_map, Stage.handle]
  rcases rule.apply row with e | _ | image <;> rfl

/-- A limit lets its first rows through, and asks to stop with the last one of them. -/
theorem consume_limit (rows seen : Nat) :
    Consumer.consume row (Link.mk (stage (.limit rows seen)) d false false) w =
      if rows ≤ seen then (.ok .stop, Link.mk (stage (.limit rows seen)) d false false, w)
      else
        let (answer, d, w) := Consumer.consume row d w
        (if seen + 1 = rows then answer.map fun _ => .stop else answer,
          Link.mk (stage (.limit rows (seen + 1))) d false (asksToStop answer), w) := by
  change Link.consume row _ w = _
  simp only [Link.consume, Bool.false_eq_true, if_false, h.handle, Feed.run_map, Stage.handle]
  split <;> rfl

/-- A stage that holds nothing back only hands the end of the stream on. -/
theorem close_of_drain {s : Stage} (hs : s.drain = .done (.ok (), s)) (stopped : Bool) :
    Consumer.close (Link.mk (stage s) d false stopped) w =
      let (result, d, w) := Consumer.close d w
      (result, Link.mk (stage s) d true stopped, w) := by
  have hdrain : Producer.drain (stage s) = .done (.ok (), stage s) := by
    rw [h.drain, hs]
    rfl
  change Link.close _ w = _
  simp only [Link.close, Bool.false_eq_true, if_false, hdrain, ite_self]
  rfl

end Hosts

/-! ## Rules -/

/-- Two rules, one behind the other, put the same in place of every row as a single one. -/
def RowRule.Compose (first second rule : RowRule) : Prop :=
  ∀ row, rule.apply row = do
    match ← first.apply row with
    | none => return none
    | some image => second.apply image

section
variable {π ω σ ω' σ' : Type}

/-- A link for a link, in the same condition. -/
def OneForOne (p p' : π) (D : σ → ω → σ' → ω' → Prop) (l : Link π σ) (w : ω) (l' : Link π σ')
    (w' : ω') : Prop :=
  ∃ d d' closed stopped, l = ⟨p, d, closed, stopped⟩ ∧ l' = ⟨p', d', closed, stopped⟩ ∧
    D d w d' w'

/-- Two links in the same condition, and one for both. -/
def OneForTwo (p q p' : π) (D : σ → ω → σ' → ω' → Prop) (l : Link π (Link π σ)) (w : ω)
    (l' : Link π σ') (w' : ω') : Prop :=
  ∃ d d' closed stopped, l = ⟨p, ⟨q, d, closed, stopped⟩, closed, stopped⟩ ∧
    l' = ⟨p', d', closed, stopped⟩ ∧ D d w d' w'

end

namespace Hosts

variable {ι π κ : Type} [StepKind ι π κ] [Producer π] [Consumer Files κ] {stage : Stage → π}
  (h : Hosts ι stage)
include h

section
variable {ω σ ω' σ' : Type} [Consumer ω σ] [Consumer ω' σ'] {D : σ → ω → σ' → ω' → Prop}

/-- Rules that do the same to rows go in parallel. -/
theorem parallel_rule {rule rule' : RowRule} (hrule : ∀ row, rule.apply row = rule'.apply row)
    (hD : Parallel D) :
    Parallel (OneForOne (stage (.each rule)) (stage (.each rule')) D) where
  consume := by
    rintro row _ w _ w' - ⟨d, d', closed, stopped, rfl, rfl, hd⟩
    -- a link that is closed or has stopped does not ask its rule
    cases closed with
    | true => exact ⟨rfl, d, d', true, stopped, rfl, rfl, hd⟩
    | false =>
      cases stopped with
      | true => exact ⟨rfl, d, d', false, true, rfl, rfl, hd⟩
      | false =>
        rw [h.consume_each, h.consume_each, hrule row]
        rcases rule'.apply row with e | _ | image
        · exact ⟨rfl, d, d', false, false, rfl, rfl, hd⟩
        · exact ⟨rfl, d, d', false, false, rfl, rfl, hd⟩
        · obtain ⟨hanswer, hafter⟩ := hD.consume image d w d' w' trivial hd
          refine ⟨hanswer, _, _, false, _, ?_, rfl, hafter⟩
          rw [← hanswer]
  close := by
    rintro _ w _ w' ⟨d, d', closed, stopped, rfl, rfl, hd⟩
    cases closed with
    | true => exact ⟨rfl, d, d', true, stopped, rfl, rfl, hd⟩
    | false =>
      rw [h.close_of_drain d w rfl, h.close_of_drain d' w' rfl]
      obtain ⟨hresult, hafter⟩ := hD.close hd
      exact ⟨hresult, _, _, true, stopped, rfl, rfl, hafter⟩

/-- Two rules and their composition go in parallel. -/
theorem parallel_rules {first second rule : RowRule} (hrule : first.Compose second rule)
    (hD : Parallel D) :
    Parallel (OneForTwo (stage (.each first)) (stage (.each second)) (stage (.each rule)) D) where
  consume := by
    rintro row _ w _ w' - ⟨d, d', closed, stopped, rfl, rfl, hd⟩
    cases closed with
    | true => exact ⟨rfl, d, d', true, stopped, rfl, rfl, hd⟩
    | false =>
      cases stopped with
      | true => exact ⟨rfl, d, d', false, true, rfl, rfl, hd⟩
      | false =>
        have hrow := hrule row
        rcases hfirst : first.apply row with e | _ | between
        -- an error or a dropped row does not come to the second rule
        all_goals
          rw [hfirst] at hrow
          rw [h.consume_each, h.consume_each, hfirst, hrow]
        · exact ⟨rfl, d, d', false, false, rfl, rfl, hd⟩
        · exact ⟨rfl, d, d', false, false, rfl, rfl, hd⟩
        · -- the second rule sees what the first one has put in place of the row
          dsimp only [bind, Except.bind]
          rw [h.consume_each]
          rcases second.apply between with e | _ | image
          · exact ⟨rfl, d, d', false, false, rfl, rfl, hd⟩
          · exact ⟨rfl, d, d', false, false, rfl, rfl, hd⟩
          · obtain ⟨hanswer, hafter⟩ := hD.consume image d w d' w' trivial hd
            refine ⟨hanswer, _, _, false, _, rfl, ?_, hafter⟩
            rw [hanswer]
  close := by
    rintro _ w _ w' ⟨d, d', closed, stopped, rfl, rfl, hd⟩
    cases closed with
    | true => exact ⟨rfl, d, d', true, stopped, rfl, rfl, hd⟩
    | false =>
      -- both links hand the end on, and the single one does so at once
      rw [h.close_of_drain _ w rfl, h.close_of_drain d w rfl, h.close_of_drain d' w' rfl]
      obtain ⟨hresult, hafter⟩ := hD.close hd
      exact ⟨hresult, _, _, true, stopped, rfl, rfl, hafter⟩

end

end Hosts

/-! ## Limits -/

/-- Two limits, one behind the other, and the smaller one. As long as rows go through, all of them
    have let the same number through; afterwards both sides ask to stop at every row. -/
inductive SmallerLimit {π ω σ ω' σ' : Type} (stage : Stage → π) (m n : Nat)
    (D : σ → ω → σ' → ω' → Prop) : Link π (Link π σ) → ω → Link π σ' → ω' → Prop
  | through {d : σ} {w : ω} {d' : σ'} {w' : ω'} (seen : Nat) (closed : Bool) :
    seen < m → seen < n → D d w d' w' →
      SmallerLimit stage m n D
        ⟨stage (.limit m seen), ⟨stage (.limit n seen), d, closed, false⟩, closed, false⟩ w
        ⟨stage (.limit (min m n) seen), d', closed, false⟩ w'
  | ended {d : σ} {w : ω} {d' : σ'} {w' : ω'} {seen seen₂ seen' : Nat}
    {stopped stopped₂ stopped' : Bool} (closed : Bool) :
    stopped = true ∨ m ≤ seen ∨ stopped₂ = true ∨ n ≤ seen₂ → stopped' = true ∨ min m n ≤ seen' →
      D d w d' w' → SmallerLimit stage m n D
        ⟨stage (.limit m seen), ⟨stage (.limit n seen₂), d, closed, stopped₂⟩, closed, stopped⟩ w
        ⟨stage (.limit (min m n) seen'), d', closed, stopped'⟩ w'

namespace Hosts

variable {ι π κ : Type} [StepKind ι π κ] [Producer π] [Consumer Files κ] {stage : Stage → π}
  (h : Hosts ι stage)
include h

section
variable {ω σ : Type} [Consumer ω σ] (row : Row) (d : σ) (w : ω)

/-- A limit that is over, or whose consumer has asked to stop, asks to stop. -/
theorem consume_limit_of_over {rows seen : Nat} {stopped : Bool}
    (hover : stopped = true ∨ rows ≤ seen) :
    Consumer.consume row (Link.mk (stage (.limit rows seen)) d false stopped) w =
      (.ok .stop, Link.mk (stage (.limit rows seen)) d false stopped, w) := by
  cases stopped with
  | true => rfl
  | false => rw [h.consume_limit, if_pos (hover.resolve_left Bool.false_ne_true)]

/-- Two limits, of which one is over, ask to stop; the second one may have to tell the first. -/
theorem consume_limits_of_over {m n seen seen₂ : Nat} {stopped stopped₂ : Bool}
    (hover : stopped = true ∨ m ≤ seen ∨ stopped₂ = true ∨ n ≤ seen₂) :
    ∃ next stopped', Consumer.consume row (Link.mk (stage (.limit m seen))
        (Link.mk (stage (.limit n seen₂)) d false stopped₂) false stopped) w =
      (.ok .stop, Link.mk (stage (.limit m next))
        (Link.mk (stage (.limit n seen₂)) d false stopped₂) false stopped', w) ∧
      (stopped' = true ∨ m ≤ next) := by
  by_cases hfirst : stopped = true ∨ m ≤ seen
  · exact ⟨seen, stopped, h.consume_limit_of_over row _ w hfirst, hfirst⟩
  · -- the first limit still counts the row that the second one refuses
    rw [not_or] at hfirst
    obtain rfl : stopped = false := Bool.of_not_eq_true hfirst.1
    have hsecond : stopped₂ = true ∨ n ≤ seen₂ :=
      (hover.resolve_left hfirst.1).resolve_left hfirst.2
    rw [h.consume_limit, if_neg hfirst.2, h.consume_limit_of_over row d w hsecond]
    refine ⟨seen + 1, true, ?_, .inl rfl⟩
    dsimp only
    split <;> rfl

end

variable {ω σ ω' σ' : Type} [Consumer ω σ] [Consumer ω' σ'] {D : σ → ω → σ' → ω' → Prop}

/-- A row that neither limit refuses is let through on both sides. The last one lets one of the two
    limits ask to stop, and so does the smaller one. -/
theorem consume_limits_through {m n seen : Nat} (hD : Parallel D) (hm : seen < m) (hn : seen < n)
    {d : σ} {w : ω} {d' : σ'} {w' : ω'} (hd : D d w d' w') (row : Row) :
    let step := Consumer.consume row (Link.mk (stage (.limit m seen))
      (Link.mk (stage (.limit n seen)) d false false) false false) w
    let step' := Consumer.consume row (Link.mk (stage (.limit (min m n) seen)) d' false false) w'
    step.1 = step'.1 ∧ SmallerLimit stage m n D step.2.1 step.2.2 step'.2.1 step'.2.2 := by
  intro step step'
  simp only [step, step']
  rw [h.consume_limit, if_neg (Nat.not_le.2 hm), h.consume_limit, if_neg (Nat.not_le.2 hn),
    h.consume_limit, if_neg (by omega)]
  -- the row reaches the consumers behind on both sides
  obtain ⟨hanswer, hafter⟩ := hD.consume row d w d' w' trivial hd
  generalize Consumer.consume row d w = behind at hanswer hafter ⊢
  generalize Consumer.consume row d' w' = behind' at hanswer hafter ⊢
  obtain ⟨answer, d₁, w₁⟩ := behind
  obtain ⟨answer', d₁', w₁'⟩ := behind'
  obtain rfl : answer = answer' := hanswer
  by_cases hlast : seen + 1 = m ∨ seen + 1 = n
  · -- the last row
    have hsmaller : seen + 1 = min m n := by omega
    refine ⟨?_, .ended false (by omega) (.inr (by omega)) hafter⟩
    simp only [if_pos hsmaller]
    rcases answer with e | flow <;> split <;> split <;> first | rfl | omega
  · rw [not_or] at hlast
    have hsmaller : seen + 1 ≠ min m n := by omega
    simp only [if_neg hlast.1, if_neg hlast.2, if_neg hsmaller]
    refine ⟨trivial, ?_⟩
    -- the consumer behind may ask to stop by itself
    cases asksToStop answer with
    | true => exact .ended false (.inl rfl) (.inl rfl) hafter
    | false => exact .through (seen + 1) false (by omega) (by omega) hafter

/-- Two limits and the smaller one go in parallel. -/
theorem parallel_limits (m n : Nat) (hD : Parallel D) :
    Parallel (SmallerLimit stage m n D) where
  consume := by
    rintro row l w l' w' - hl
    cases hl with
    -- rows still go through on both sides
    | through seen closed hm hn hd =>
      cases closed with
      | true => exact ⟨rfl, .through seen true hm hn hd⟩
      | false => exact h.consume_limits_through hD hm hn hd row
    | @ended d _ d' _ _ _ _ _ _ _ closed hover hover' hd =>
      cases closed with
      | true => exact ⟨rfl, .ended true hover hover' hd⟩
      | false =>
        obtain ⟨next, stopped, hconsume, hnext⟩ := h.consume_limits_of_over row d w hover
        rw [hconsume, h.consume_limit_of_over row d' w' hover']
        exact ⟨rfl, .ended false (hnext.imp_right .inl) hover' hd⟩
  close := by
    rintro l w l' w' hl
    cases hl with
    | through seen closed hm hn hd =>
      cases closed with
      | true => exact ⟨rfl, .through seen true hm hn hd⟩
      | false =>
        rw [h.close_of_drain _ w rfl, h.close_of_drain _ w rfl, h.close_of_drain _ w' rfl]
        obtain ⟨hresult, hafter⟩ := hD.close hd
        exact ⟨hresult, .through seen true hm hn hafter⟩
    -- both sides have ended, and ending is handed on
    | ended closed hover hover' hd =>
      cases closed with
      | true => exact ⟨rfl, .ended true hover hover' hd⟩
      | false =>
        rw [h.close_of_drain _ w rfl, h.close_of_drain _ w rfl, h.close_of_drain _ w' rfl]
        obtain ⟨hresult, hafter⟩ := hD.close hd
        exact ⟨hresult, .ended true hover hover' hafter⟩

end Hosts

/-! ## Rows of producers -/

namespace Hosts

variable {ι π κ : Type} [StepKind ι π κ] [Producer π] [Consumer Files κ] {stage : Stage → π}
  (h : Hosts ι stage) (behind : List π)
include h

/-- Rules that put the same in place of every row are interchangeable. -/
theorem interchangeable_rule {rule rule' : RowRule}
    (hrule : ∀ row, rule.apply row = rule'.apply row) :
    Interchangeable (stage (.each rule) :: behind) (stage (.each rule') :: behind) where
  exists_bisimulation hR := by
    have hD := Chain.Bisimulation.coupled (π := π) hR behind.length
    have hparallel := h.parallel_rule hrule hD.parallel
    refine ⟨_, ⟨⟨hparallel.consume, hparallel.close⟩, ?_, ?_⟩, fun hstart =>
      ⟨_, _, false, false, rfl, rfl, Chain.coupled_connect behind hstart⟩⟩
    -- the coupled links are in the same condition, whatever becomes of them
    · rintro _ w _ w' ⟨d, d', closed, stopped, rfl, rfl, hd⟩
      exact hD.terminal hd
    · rintro _ w v _ w' v' f f' ⟨d, d', closed, stopped, rfl, rfl, hd⟩ hv
      exact ⟨_, _, closed, stopped, rfl, rfl, hD.retie f f' hd hv⟩

/-- Two rules are interchangeable with their composition. -/
theorem interchangeable_rules {first second rule : RowRule} (hrule : first.Compose second rule) :
    Interchangeable (stage (.each first) :: stage (.each second) :: behind)
      (stage (.each rule) :: behind) where
  exists_bisimulation hR := by
    have hD := Chain.Bisimulation.coupled (π := π) hR behind.length
    have hparallel := h.parallel_rules hrule hD.parallel
    refine ⟨_, ⟨⟨hparallel.consume, hparallel.close⟩, ?_, ?_⟩, fun hstart =>
      ⟨_, _, false, false, rfl, rfl, Chain.coupled_connect behind hstart⟩⟩
    · rintro _ w _ w' ⟨d, d', closed, stopped, rfl, rfl, hd⟩
      exact hD.terminal hd
    · rintro _ w v _ w' v' f f' ⟨d, d', closed, stopped, rfl, rfl, hd⟩ hv
      exact ⟨_, _, closed, stopped, rfl, rfl, hD.retie f f' hd hv⟩

/-- Two limits are interchangeable with the smaller one. -/
theorem interchangeable_limits (m n : Nat) :
    Interchangeable (stage (.limit m 0) :: stage (.limit n 0) :: behind)
      (stage (.limit (min m n) 0) :: behind) where
  exists_bisimulation hR := by
    have hD := Chain.Bisimulation.coupled (π := π) hR behind.length
    have hparallel := h.parallel_limits m n hD.parallel
    refine ⟨_, ⟨⟨hparallel.consume, hparallel.close⟩, ?_, ?_⟩, fun hstart => ?_⟩
    · rintro _ w _ w' (⟨seen, closed, hm, hn, hd⟩ | ⟨closed, hover, hover', hd⟩)
      · exact hD.terminal hd
      · exact hD.terminal hd
    · rintro _ w v _ w' v' f f' (⟨seen, closed, hm, hn, hd⟩ | ⟨closed, hover, hover', hd⟩) hv
      · exact .through seen closed hm hn (hD.retie f f' hd hv)
      · exact .ended closed hover hover' (hD.retie f f' hd hv)
    · have hbehind := Chain.coupled_connect (π := π) behind hstart
      -- a limit of nothing is over before the first row
      by_cases hnone : 0 < m ∧ 0 < n
      · exact .through 0 false hnone.1 hnone.2 hbehind
      · exact .ended false (by omega) (by omega) hbehind

end Hosts

/-! ## Rules of predicates -/

namespace Evaluator

variable {first second whole : Evaluator}

theorem evalTruth_of_mismatch {evaluator : Evaluator} {values : List Value} {e : Error}
    (h : expectWidth values evaluator.width = .error e) :
    evaluator.evalTruth values = .error e := by
  rw [evalTruth, eval, h]
  rfl

/-- An evaluator that gives truths has the truth that it gives. -/
theorem evalTruth_of_run {evaluator : Evaluator} {values : List Value} {truth : Except Error Bool}
    (h : expectWidth values evaluator.width = .ok ())
    (hrun : evaluator.run values = truth.map .bool) : evaluator.evalTruth values = truth := by
  rw [evalTruth, eval, h]
  change (evaluator.run values >>= Value.truth) = truth
  rw [hrun]
  cases truth <;> rfl

/-- The evaluator of a conjunction looks at the second operand if the first one is true. -/
theorem evalTruth_conjunction (hwidth : first.width = whole.width)
    (hrun : ∀ values, whole.run values =
      ((decides false values [first, second]).map not).map .bool) (values : List Value) :
    whole.evalTruth values = do
      if ← first.evalTruth values then second.evalTruth values else return false := by
  cases hvalues : expectWidth values whole.width with
  | error e =>
    rw [evalTruth_of_mismatch hvalues, evalTruth_of_mismatch (hwidth ▸ hvalues)]
    rfl
  | ok _ =>
    rw [evalTruth_of_run hvalues (hrun values)]
    simp only [decides]
    rcases first.evalTruth values with e | _ | _
    · rfl
    · rfl
    · rcases second.evalTruth values with e | _ | _ <;> rfl

theorem evalTruth_negation (hwidth : first.width = whole.width)
    (hrun : ∀ values, whole.run values = ((first.evalTruth values).map not).map .bool)
    (values : List Value) : whole.evalTruth values = (first.evalTruth values).map not := by
  cases hvalues : expectWidth values whole.width with
  | error e =>
    rw [evalTruth_of_mismatch hvalues, evalTruth_of_mismatch (hwidth ▸ hvalues)]
    rfl
  | ok _ => exact evalTruth_of_run hvalues (hrun values)

end Evaluator

/-- Two filters keep the rows that the filter of the conjunction keeps. -/
theorem RowRule.compose_filter {first second whole : Evaluator}
    (h : ∀ values, whole.evalTruth values = do
      if ← first.evalTruth values then second.evalTruth values else return false) :
    RowRule.Compose (.filter first false) (.filter second false) (.filter whole false) := by
  intro row
  simp only [apply, h]
  rcases first.evalTruth row.values with e | _ | _ <;> rfl

/-- A filter of the negation drops the rows on which the predicate is true. -/
theorem RowRule.apply_filter_negation {first whole : Evaluator}
    (h : ∀ values, whole.evalTruth values = (first.evalTruth values).map not) (row : Row) :
    (RowRule.filter first true).apply row = (RowRule.filter whole false).apply row := by
  simp only [apply, h]
  rcases first.evalTruth row.values with e | _ | _ <;> rfl

end RowFlow
