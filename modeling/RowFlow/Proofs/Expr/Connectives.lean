import RowFlow.Proofs.Expr.Agreement

/-!
# Laws of Connectives

A connective asks its operands from left to right until one of them decides, so it matters which
operands come to be evaluated: those behind the decisive one may fail. The laws of logic hold all
the same, because both sides of each law ask the same operands in the same order
(`Expr.connective_laws`). They hold for values and for errors, of preparation as of evaluation, and
for connectives without operands.
-/

namespace RowFlow

/-! ## Operands -/

namespace Evaluator

variable {width : Nat} {row : List Value}

/-- The first operands are asked first, the others only if none of those decides. -/
theorem decides_append (decisive : Bool) (row : List Value) (operands others : List Evaluator) :
    decides decisive row (operands ++ others) = (do
      if ← decides decisive row operands then return true
      decides decisive row others) := by
  induction operands with
  | nil => rfl
  | cons evaluator rest ih =>
    simp only [List.cons_append, decides, ih, bind_assoc]
    refine congrArg _ (funext fun truth => ?_)
    -- an operand that decides leaves the others unasked, on both sides
    split
    · rfl
    · rfl

/-- Evaluators of a width agree on a row if they do so when it has this width. -/
theorem eval_congr {evaluator other : Evaluator} (hwidth : evaluator.width = width)
    (hother : other.width = width)
    (h : row.length = width → evaluator.run row = other.run row) :
    evaluator.eval row = other.eval row := by
  simp only [eval, hwidth, hother]
  cases hrow : expectWidth row width with
  -- both refuse a row of another width
  | error e => rfl
  | ok _ => exact h (expectWidth_eq_ok_iff.1 hrow)

/-! ## Connectives and negations -/

/-- Whether all operands, or some of them, are true: `decisive` is the truth that decides. -/
def connective (decisive : Bool) (width : Nat) (operands : List Evaluator) : Evaluator :=
  ⟨width, fun row => do return .bool ((← decides decisive row operands) == decisive)⟩

/-- Whether an operand is not true. -/
def negation (width : Nat) (operand : Evaluator) : Evaluator :=
  ⟨width, fun row => do return .bool (!(← operand.evalTruth row))⟩

/-- A connective has the truth that its operands decide. -/
theorem evalTruth_connective_of_width (hrow : row.length = width) (decisive : Bool)
    (operands : List Evaluator) :
    (connective decisive width operands).evalTruth row = do
      return (← decides decisive row operands) == decisive := by
  rw [evalTruth, eval_of_width hrow, connective, bind_assoc]
  rfl

/-- A negation has the other truth than its operand. -/
theorem evalTruth_negation_of_width (hrow : row.length = width) (operand : Evaluator) :
    (negation width operand).evalTruth row = do return !(← operand.evalTruth row) := by
  rw [evalTruth, eval_of_width hrow, negation, bind_assoc]
  rfl

/-- Negated operands decide where the operands do, by the other truth. -/
theorem decides_negation (hrow : row.length = width) (decisive : Bool)
    (operands : List Evaluator) :
    decides (!decisive) row (operands.map (negation width)) = decides decisive row operands := by
  induction operands with
  | nil => rfl
  | cons operand rest ih =>
    -- a negated operand decides by the negated truth, which is the same question
    simp only [List.map_cons, decides, evalTruth_negation_of_width hrow, ih, bind_assoc, pure_bind,
      Bool.not_inj_iff]

/-- A connective among the operands of another one of its kind decides as its own operands do. -/
theorem decides_connective (hrow : row.length = width) (decisive : Bool)
    (operands : List Evaluator) :
    decides decisive row [connective decisive width operands] = decides decisive row operands := by
  simp only [decides, evalTruth_connective_of_width hrow, bind_assoc, pure_bind]
  cases decides decisive row operands with
  | error e => rfl
  -- whether it decides is a matter of two truths
  | ok decided => cases decided <;> cases decisive <;> rfl

/-- Operands of operands may be asked in their place. -/
theorem decides_nested (hrow : row.length = width) (decisive : Bool)
    (before inner behind : List Evaluator) :
    decides decisive row (before ++ [connective decisive width inner] ++ behind) =
      decides decisive row (before ++ inner ++ behind) := by
  rw [decides_append, decides_append, decides_connective hrow, decides_append _ _ (before ++ inner),
    decides_append]

/-! ## Laws of evaluators -/

section
variable (width : Nat) (row : List Value) (decisive : Bool)

/-- A negated connective is the other one of the negated operands. -/
theorem eval_negation_connective (operands : List Evaluator) :
    (negation width (connective decisive width operands)).eval row =
      (connective (!decisive) width (operands.map (negation width))).eval row := by
  refine eval_congr rfl rfl fun (hrow : row.length = width) => ?_
  show (do return Value.bool (!(← (connective decisive width operands).evalTruth row))) = do
    return Value.bool
      ((← decides (!decisive) row (operands.map (negation width))) == !decisive)
  rw [evalTruth_connective_of_width hrow, decides_negation hrow]
  cases decides decisive row operands with
  | error e => rfl
  -- both sides have asked the same operands, so one truth table remains
  | ok decided => cases decided <;> cases decisive <;> rfl

/-- Negating twice leaves the truth, which is what a connective of one operand gives. -/
theorem eval_negation_negation (operand : Evaluator) :
    (negation width (negation width operand)).eval row =
      (connective decisive width [operand]).eval row := by
  refine eval_congr rfl rfl fun (hrow : row.length = width) => ?_
  show (do return Value.bool (!(← (negation width operand).evalTruth row))) = do
    return Value.bool ((← decides decisive row [operand]) == decisive)
  rw [evalTruth_negation_of_width hrow, decides]
  cases operand.evalTruth row with
  | error e => rfl
  -- a truth negated twice, and a truth compared with the decisive one
  | ok truth => cases truth <;> cases decisive <;> rfl

/-- A connective among the operands of its own kind gives place to its operands. -/
theorem eval_connective_nested (before inner behind : List Evaluator) :
    (connective decisive width (before ++ [connective decisive width inner] ++ behind)).eval row =
      (connective decisive width (before ++ inner ++ behind)).eval row := by
  refine eval_congr rfl rfl fun (hrow : row.length = width) => ?_
  exact congrArg (fun decided : Except Error Bool => do return Value.bool ((← decided) == decisive))
    (decides_nested hrow decisive before inner behind)

/-- Connectives and negations have truths as values. -/
theorem exists_bool_of_eval {f : Bool → Bool} {truth : List Value → Except Error Bool} {v : Value}
    (h : (Evaluator.mk width fun row => do return .bool (f (← truth row))).eval row = .ok v) :
    ∃ b, v = .bool b := by
  obtain ⟨_, -, h⟩ := bind_eq_ok_iff.1 h
  obtain ⟨b, -, h⟩ := bind_eq_ok_iff.1 h
  exact ⟨f b, (Except.ok.inj h).symm⟩

end

end Evaluator

/-! ## Prepared connectives -/

namespace Expr

variable (schema : Schema)

/-- Operands are prepared one after another, the first error counts. -/
theorem prepareAll_append (es es' : List Expr) : prepareAll schema (es ++ es') = do
    return (← prepareAll schema es) ++ (← prepareAll schema es') := by
  induction es with
  | nil => exact (bind_pure (prepareAll schema es')).symm
  | cons e es ih => simp only [List.cons_append, prepareAll, ih, bind_assoc, pure_bind]

/-- A single operand is prepared by itself. -/
theorem prepareAll_singleton (e : Expr) : prepareAll schema [e] = do
    return [← e.prepare schema] := by
  rw [prepareAll, prepareAll]
  rfl

/-- A negation is prepared as one of its operand. -/
theorem prepare_not (e : Expr) : (not e).prepare schema = do
    return Evaluator.negation schema.width (← e.prepare schema) := by
  rw [prepare]
  rfl

/-- Negations are prepared as their operands are. -/
theorem prepareAll_map_not (es : List Expr) : prepareAll schema (es.map .not) = do
    return (← prepareAll schema es).map (Evaluator.negation schema.width) := by
  induction es with
  | nil => rfl
  | cons e es ih =>
    simp only [List.map_cons, prepareAll, prepare_not, ih, bind_assoc, pure_bind]

/-- The connective that one truth decides: a disjunction is decided by a true operand, a conjunction
    by one that is not. -/
def connective (decisive : Bool) (operands : List Expr) : Expr :=
  if decisive then .any operands else .all operands

/-- A connective is prepared from its operands. -/
theorem prepare_connective (decisive : Bool) (operands : List Expr) :
    (connective decisive operands).prepare schema = do
      return Evaluator.connective decisive schema.width (← prepareAll schema operands) := by
  cases decisive with
  | false =>
    show (all operands).prepare schema = _
    simp only [prepare, Evaluator.connective, beq_false]
  | true =>
    show (any operands).prepare schema = _
    simp only [prepare, Evaluator.connective, beq_true]

/-! ## Laws of expressions -/

/-- What an expression evaluates to on a row. The error that keeps it from being prepared stands
    outside, the error of its evaluation inside. -/
def onRow (schema : Schema) (row : List Value) (e : Expr) : Except Error (Except Error Value) := do
  return (← e.prepare schema).eval row

section
variable (row : List Value) (decisive : Bool)

/-- A negated connective is, on every row, the other one of the negated operands. -/
theorem onRow_not_connective (operands : List Expr) :
    (not (connective decisive operands)).onRow schema row =
      (connective (!decisive) (operands.map .not)).onRow schema row := by
  simp only [onRow, prepare_not, prepare_connective, prepareAll_map_not, bind_assoc, pure_bind,
    Evaluator.eval_negation_connective]

/-- A double negation is a connective of one operand. -/
theorem onRow_not_not (operand : Expr) :
    (not (not operand)).onRow schema row = (connective decisive [operand]).onRow schema row := by
  simp only [onRow, prepare_not, prepare_connective, prepareAll_singleton, bind_assoc, pure_bind,
    Evaluator.eval_negation_negation _ _ decisive]

/-- A connective of the same kind may be unfolded in place. -/
theorem onRow_nested (before inner behind : List Expr) :
    (connective decisive (before ++ [connective decisive inner] ++ behind)).onRow schema row =
      (connective decisive (before ++ inner ++ behind)).onRow schema row := by
  simp only [onRow, prepare_connective, prepareAll_append, prepareAll_singleton, bind_assoc,
    pure_bind, Evaluator.eval_connective_nested]

/-- A negation has a truth for a value. -/
theorem exists_bool_of_onRow_not {operand : Expr} {v : Value}
    (h : (not operand).onRow schema row = .ok (.ok v)) : ∃ b, v = .bool b := by
  rw [onRow, prepare_not, bind_assoc] at h
  obtain ⟨evaluator, -, h⟩ := bind_eq_ok_iff.1 h
  exact Evaluator.exists_bool_of_eval _ _ (Except.ok.inj h)

/-- So has a connective. -/
theorem exists_bool_of_onRow_connective {operands : List Expr} {v : Value}
    (h : (connective decisive operands).onRow schema row = .ok (.ok v)) : ∃ b, v = .bool b := by
  rw [onRow, prepare_connective, bind_assoc] at h
  obtain ⟨evaluators, -, h⟩ := bind_eq_ok_iff.1 h
  exact Evaluator.exists_bool_of_eval _ _ (Except.ok.inj h)

end

/-- **Connectives obey the laws of logic.** A negated conjunction is the disjunction of the negated
    operands and the other way round, a double negation is the conjunction of its operand alone,
    and a connective among the operands of its own kind gives place to its operands. On every row
    both sides give the same truth or fail with the same error, in evaluation or already in
    preparation. -/
theorem connective_laws (schema : Schema) (row : List Value) :
    (∀ es, (not (all es)).onRow schema row = (any (es.map not)).onRow schema row) ∧
    (∀ es, (not (any es)).onRow schema row = (all (es.map not)).onRow schema row) ∧
    (∀ e, (not (not e)).onRow schema row = (all [e]).onRow schema row) ∧
    (∀ xs ys zs, (all (xs ++ [all ys] ++ zs)).onRow schema row =
      (all (xs ++ ys ++ zs)).onRow schema row) ∧
    (∀ xs ys zs, (any (xs ++ [any ys] ++ zs)).onRow schema row =
      (any (xs ++ ys ++ zs)).onRow schema row) ∧
    (∀ e v, (not e).onRow schema row = .ok (.ok v) → ∃ b, v = .bool b) ∧
    (∀ es v, (all es).onRow schema row = .ok (.ok v) → ∃ b, v = .bool b) ∧
    ∀ es v, (any es).onRow schema row = .ok (.ok v) → ∃ b, v = .bool b :=
  ⟨onRow_not_connective schema row false, onRow_not_connective schema row true,
    onRow_not_not schema row false, onRow_nested schema row false, onRow_nested schema row true,
    fun _ _ => exists_bool_of_onRow_not schema row,
    fun _ _ => exists_bool_of_onRow_connective schema row false,
    fun _ _ => exists_bool_of_onRow_connective schema row true⟩

end Expr

end RowFlow
