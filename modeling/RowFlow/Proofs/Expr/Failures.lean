import RowFlow.Proofs.Expr.Agreement

/-!
# Failures of Expressions

What can go wrong when a prepared expression meets a row of the width that it has been prepared for:
its evaluation, and nothing else (`Expr.reliable_of_prepare`). In particular none of the width
checks inside an expression fails, however deep it is nested.
-/

namespace RowFlow

/-- Errors of evaluation. -/
def Error.IsEvaluation : Error → Prop
  | .evaluation _ => True
  | _ => False

/-! ## Values -/

/-- Taking a value for a truth fails as an evaluation. -/
theorem Value.failsWith_truth (v : Value) : FailsWith Error.IsEvaluation v.truth := by
  unfold truth
  split
  · exact .ok _
  · exact .ok _
  · exact .error trivial

/-- A callback of one's own fails as an evaluation. -/
theorem Callback.failsWith_run (callback : Callback) (v : Value) :
    FailsWith Error.IsEvaluation (callback.run v) := by
  unfold run
  split
  · exact .ok _
  · exact .error trivial

namespace Operator

variable (op : Operator) (left right : Value)

/-- Arithmetic of numbers fails as an evaluation, when it divides by zero or meets no number. -/
theorem failsWith_arithmeticAsNumbers :
    FailsWith Error.IsEvaluation (arithmeticAsNumbers op left right) := by
  unfold arithmeticAsNumbers
  split
  · split
    · exact .error trivial
    · exact .ok _
  · exact .error trivial

/-- Arithmetic of any values does, too. -/
theorem failsWith_arithmetic : FailsWith Error.IsEvaluation (arithmetic op left right) := by
  unfold arithmetic
  split
  · exact .ok _
  · exact .ok _
  · -- integers are added in any size, and the result may not fit
    split
    · exact .ok _
    · exact .error trivial
  · split
    · exact failsWith_arithmeticAsNumbers op _ _
    · split
      · exact .ok _
      · exact .error trivial
  · exact failsWith_arithmeticAsNumbers op _ _

/-- Comparisons never fail, and arithmetic fails as such. -/
theorem failsWith_apply : FailsWith Error.IsEvaluation (op.apply left right) := by
  cases op with
  | add | sub | mul | div => exact failsWith_arithmetic _ left right
  | _ => exact .ok _

end Operator

/-! ## Evaluators -/

/-- On rows of a width an evaluator fails with errors of evaluation only. -/
def Evaluator.Reliable (width : Nat) (evaluator : Evaluator) : Prop :=
  ∀ row : List Value, row.length = width → FailsWith Error.IsEvaluation (evaluator.eval row)

namespace Evaluator

variable {width : Nat}

/-- An evaluator is reliable if its run is, since the width has been checked by then. -/
theorem reliable_mk {run : List Value → Except Error Value}
    (h : ∀ row : List Value, row.length = width → FailsWith Error.IsEvaluation (run row)) :
    (Evaluator.mk width run).Reliable width := by
  intro row hrow
  rw [eval_of_width hrow]
  exact h row hrow

/-- A reliable evaluator gives truths as reliably. -/
theorem Reliable.evalTruth {evaluator : Evaluator} (h : evaluator.Reliable width) {row : List Value}
    (hrow : row.length = width) : FailsWith Error.IsEvaluation (evaluator.evalTruth row) :=
  (h row hrow).bind fun v _ => v.failsWith_truth

/-- Connectives fail as their operands do. -/
theorem failsWith_decides (decisive : Bool) {evaluators : List Evaluator}
    (h : ∀ evaluator ∈ evaluators, evaluator.Reliable width) {row : List Value}
    (hrow : row.length = width) :
    FailsWith Error.IsEvaluation (decides decisive row evaluators) := by
  induction evaluators with
  | nil => exact .ok _
  | cons evaluator rest ih =>
    obtain ⟨hevaluator, hrest⟩ := List.forall_mem_cons.1 h
    refine (hevaluator.evalTruth hrow).bind fun truth _ => ?_
    split
    · exact .ok _
    · exact ih hrest

end Evaluator

/-! ## Prepared expressions -/

namespace Expr

variable {schema : Schema}

mutual

/-- A prepared expression is reliable on rows of the schema. -/
theorem reliable_of_prepare : (e : Expr) → {evaluator : Evaluator} →
    e.prepare schema = .ok evaluator → evaluator.Reliable schema.width
  | .column _, _, h => by
    obtain ⟨position, _, h⟩ := bind_eq_ok_iff.1 h
    obtain rfl := Except.ok.inj h
    exact Evaluator.reliable_mk fun row _ => .ok _
  | .columns _, _, h => by
    obtain ⟨positions, _, h⟩ := bind_eq_ok_iff.1 h
    obtain rfl := Except.ok.inj h
    exact Evaluator.reliable_mk fun row _ => .ok _
  | .literal _, _, h => by
    obtain rfl := Except.ok.inj h
    exact Evaluator.reliable_mk fun row _ => .ok _
  | .all operands, _, h => by
    obtain ⟨evaluators, hoperands, h⟩ := bind_eq_ok_iff.1 h
    obtain rfl := Except.ok.inj h
    have hreliable := reliable_of_prepareAll operands hoperands
    exact Evaluator.reliable_mk fun row hrow =>
      (Evaluator.failsWith_decides false hreliable hrow).bind fun _ _ => .ok _
  | .any operands, _, h => by
    obtain ⟨evaluators, hoperands, h⟩ := bind_eq_ok_iff.1 h
    obtain rfl := Except.ok.inj h
    have hreliable := reliable_of_prepareAll operands hoperands
    exact Evaluator.reliable_mk fun row hrow =>
      (Evaluator.failsWith_decides true hreliable hrow).bind fun _ _ => .ok _
  | .not operand, _, h => by
    obtain ⟨inner, hoperand, h⟩ := bind_eq_ok_iff.1 h
    obtain rfl := Except.ok.inj h
    have hreliable := reliable_of_prepare operand hoperand
    exact Evaluator.reliable_mk fun row hrow =>
      (hreliable.evalTruth hrow).bind fun _ _ => .ok _
  | .binary op left right, _, h => by
    obtain ⟨l, hl, h⟩ := bind_eq_ok_iff.1 h
    obtain ⟨r, hr, h⟩ := bind_eq_ok_iff.1 h
    obtain rfl := Except.ok.inj h
    have hleft := reliable_of_prepare left hl
    have hright := reliable_of_prepare right hr
    -- the operands are evaluated first, from left to right, and then the operator
    exact Evaluator.reliable_mk fun row hrow => (hleft row hrow).bind fun v _ =>
      (hright row hrow).bind fun w _ => op.failsWith_apply v w
  | .apply callback operand, _, h => by
    obtain ⟨inner, hoperand, h⟩ := bind_eq_ok_iff.1 h
    obtain rfl := Except.ok.inj h
    have hreliable := reliable_of_prepare operand hoperand
    exact Evaluator.reliable_mk fun row hrow =>
      (hreliable row hrow).bind fun v _ => callback.failsWith_run v
  | .aggregate _ _, _, h => nomatch h

/-- Prepared operands are reliable, each of them. -/
theorem reliable_of_prepareAll : (es : List Expr) → {evaluators : List Evaluator} →
    prepareAll schema es = .ok evaluators →
      ∀ evaluator ∈ evaluators, evaluator.Reliable schema.width
  | [], _, h => Except.ok.inj h ▸ nofun
  | e :: es, _, h => by
    obtain ⟨evaluator, he, h⟩ := bind_eq_ok_iff.1 h
    obtain ⟨rest, hes, h⟩ := bind_eq_ok_iff.1 h
    obtain rfl := Except.ok.inj h
    exact List.forall_mem_cons.2 ⟨reliable_of_prepare e he, reliable_of_prepareAll es hes⟩

end

end Expr

end RowFlow
