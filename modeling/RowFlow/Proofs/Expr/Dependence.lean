import RowFlow.Proofs.Expr.References

/-!
# Expressions Depend on Their References

An evaluator reads a row at the positions where the references of its expression resolve, and
nowhere else. So two evaluators of one expression, bound to two schemas, give the same value or the
same error on two rows that hold the same values at the positions of the references
(`Expr.eval_eq_of_sharesAt`), wherever these are and whatever else is in the rows.
-/

namespace RowFlow

/-! ## Shared values -/

section
variable {schema schema' : Schema} {row row' : List Value}

/-- Two rows, of two schemas, hold the same value where a reference resolves. -/
def SharesAt (schema schema' : Schema) (row row' : List Value) (column : Column) : Prop :=
  ∃ position position', schema.resolve column = .ok position ∧
    schema'.resolve column = .ok position' ∧ row[position]? = row'[position']?

theorem SharesAt.getElem?_eq {column : Column} (h : SharesAt schema schema' row row' column)
    {p p' : Nat} (hp : schema.resolve column = .ok p) (hp' : schema'.resolve column = .ok p') :
    row[p]? = row'[p']? := by
  obtain ⟨position, position', hposition, hposition', hvalue⟩ := h
  rw [hp] at hposition
  rw [hp'] at hposition'
  rw [Except.ok.inj hposition, Except.ok.inj hposition', hvalue]

theorem forall₂_of_resolveEach {columns : List Column} {positions positions' : List Nat}
    (hshares : ∀ c ∈ columns, SharesAt schema schema' row row' c)
    (h : schema.resolveEach columns = .ok positions)
    (h' : schema'.resolveEach columns = .ok positions') :
    List.Forall₂ (fun p p' => row[p]? = row'[p']?) positions positions' := by
  have hresolved := mapM_eq_ok_iff.1 h
  have hresolved' := mapM_eq_ok_iff.1 h'
  clear h h'
  induction hresolved generalizing positions' with
  | nil =>
    rw [List.forall₂_nil_left_iff.1 hresolved']
    exact .nil
  | cons hp _ ih =>
    obtain ⟨p', rest', hp', hrest', rfl⟩ := List.forall₂_cons_left_iff.1 hresolved'
    obtain ⟨hhead, htail⟩ := List.forall_mem_cons.1 hshares
    exact .cons (hhead.getElem?_eq hp hp') (ih htail hrest')

end

/-- Values at positions that hold the same in two rows are gathered alike. -/
theorem gather_congr {row row' : List Value} {positions positions' : List Nat}
    (h : List.Forall₂ (fun p p' => row[p]? = row'[p']?) positions positions') :
    gather positions row = gather positions' row' := by
  have hpick : pick positions row = pick positions' row' := by
    induction h with
    | nil => rfl
    | cons hposition _ ih =>
      simp only [pick, List.filterMap_cons, hposition] at ih ⊢
      rw [ih]
  cases h with
  | nil => rfl
  | cons hposition hrest =>
    -- a single value is not wrapped into a tuple
    cases hrest with
    | nil => simp only [gather, List.getD_eq_getElem?_getD, hposition]
    | cons _ _ => exact congrArg Value.tuple hpick

/-- Operands that agree one by one decide alike. -/
theorem Evaluator.decides_congr {row row' : List Value} {operands operands' : List Evaluator}
    (h : List.Forall₂ (fun operand operand' => operand.eval row = operand'.eval row')
      operands operands') (decisive : Bool) :
    decides decisive row operands = decides decisive row' operands' := by
  induction h with
  | nil => rfl
  | cons hoperand _ ih => simp only [decides, evalTruth, hoperand, ih]

/-! ## Evaluators of one expression -/

namespace Expr

variable {schema schema' : Schema} {row row' : List Value}

/-- An evaluator bound to each schema, and each on a row of its width. -/
theorem eval_eq_of_run_eq (hrow : row.length = schema.width) (hrow' : row'.length = schema'.width)
    {run run' : List Value → Except Error Value} (h : run row = run' row') :
    (Evaluator.mk schema.width run).eval row = (Evaluator.mk schema'.width run').eval row' := by
  rw [Evaluator.eval_of_width hrow, Evaluator.eval_of_width hrow']
  exact h

mutual

/-- What an expression evaluates to depends on nothing but the columns that it refers to. -/
theorem eval_eq_of_sharesAt (hrow : row.length = schema.width)
    (hrow' : row'.length = schema'.width) : (e : Expr) →
    (∀ c ∈ e.references, SharesAt schema schema' row row' c) → {evaluator evaluator' : Evaluator} →
    e.prepare schema = .ok evaluator → e.prepare schema' = .ok evaluator' →
      evaluator.eval row = evaluator'.eval row'
  | .column target, hshares, _, _, h, h' => by
    obtain ⟨p, hp, h⟩ := bind_eq_ok_iff.1 h
    obtain ⟨p', hp', h'⟩ := bind_eq_ok_iff.1 h'
    obtain rfl := Except.ok.inj h
    obtain rfl := Except.ok.inj h'
    have hvalue := (hshares target List.mem_cons_self).getElem?_eq hp hp'
    refine eval_eq_of_run_eq hrow hrow' ?_
    simp only [List.getD_eq_getElem?_getD, hvalue]
  | .columns targets, hshares, _, _, h, h' => by
    obtain ⟨positions, hpositions, h⟩ := bind_eq_ok_iff.1 h
    obtain ⟨positions', hpositions', h'⟩ := bind_eq_ok_iff.1 h'
    obtain rfl := Except.ok.inj h
    obtain rfl := Except.ok.inj h'
    have hvalues := forall₂_of_resolveEach hshares hpositions hpositions'
    refine eval_eq_of_run_eq hrow hrow' ?_
    simp only [gather_congr hvalues]
  | .literal value, _, _, _, h, h' => by
    obtain rfl := Except.ok.inj h
    obtain rfl := Except.ok.inj h'
    exact eval_eq_of_run_eq hrow hrow' rfl
  | .all operands, hshares, _, _, h, h' => by
    obtain ⟨evaluators, hops, h⟩ := bind_eq_ok_iff.1 h
    obtain ⟨evaluators', hops', h'⟩ := bind_eq_ok_iff.1 h'
    obtain rfl := Except.ok.inj h
    obtain rfl := Except.ok.inj h'
    have ih := forall₂_eval_of_sharesAt hrow hrow' operands hshares hops hops'
    refine eval_eq_of_run_eq hrow hrow' ?_
    -- both connectives stop at the same operand, since the operands agree up to there
    simp only [Evaluator.decides_congr ih]
  | .any operands, hshares, _, _, h, h' => by
    obtain ⟨evaluators, hops, h⟩ := bind_eq_ok_iff.1 h
    obtain ⟨evaluators', hops', h'⟩ := bind_eq_ok_iff.1 h'
    obtain rfl := Except.ok.inj h
    obtain rfl := Except.ok.inj h'
    have ih := forall₂_eval_of_sharesAt hrow hrow' operands hshares hops hops'
    refine eval_eq_of_run_eq hrow hrow' ?_
    simp only [Evaluator.decides_congr ih]
  | .not operand, hshares, _, _, h, h' => by
    obtain ⟨inner, hop, h⟩ := bind_eq_ok_iff.1 h
    obtain ⟨inner', hop', h'⟩ := bind_eq_ok_iff.1 h'
    obtain rfl := Except.ok.inj h
    obtain rfl := Except.ok.inj h'
    have ih := eval_eq_of_sharesAt hrow hrow' operand hshares hop hop'
    refine eval_eq_of_run_eq hrow hrow' ?_
    simp only [Evaluator.evalTruth, ih]
  | .binary op left right, hshares, _, _, h, h' => by
    obtain ⟨l, hl, h⟩ := bind_eq_ok_iff.1 h
    obtain ⟨r, hr, h⟩ := bind_eq_ok_iff.1 h
    obtain ⟨l', hl', h'⟩ := bind_eq_ok_iff.1 h'
    obtain ⟨r', hr', h'⟩ := bind_eq_ok_iff.1 h'
    obtain rfl := Except.ok.inj h
    obtain rfl := Except.ok.inj h'
    obtain ⟨hleft, hright⟩ := List.forall_mem_append.1 hshares
    have ihl := eval_eq_of_sharesAt hrow hrow' left hleft hl hl'
    have ihr := eval_eq_of_sharesAt hrow hrow' right hright hr hr'
    refine eval_eq_of_run_eq hrow hrow' ?_
    simp only [ihl, ihr]
  | .apply callback operand, hshares, _, _, h, h' => by
    obtain ⟨inner, hop, h⟩ := bind_eq_ok_iff.1 h
    obtain ⟨inner', hop', h'⟩ := bind_eq_ok_iff.1 h'
    obtain rfl := Except.ok.inj h
    obtain rfl := Except.ok.inj h'
    have ih := eval_eq_of_sharesAt hrow hrow' operand hshares hop hop'
    refine eval_eq_of_run_eq hrow hrow' ?_
    simp only [ih]
  | .aggregate _ _, _, _, _, h, _ => nomatch h

theorem forall₂_eval_of_sharesAt (hrow : row.length = schema.width)
    (hrow' : row'.length = schema'.width) : (es : List Expr) →
    (∀ c ∈ referencesAll es, SharesAt schema schema' row row' c) →
    {evaluators evaluators' : List Evaluator} →
    prepareAll schema es = .ok evaluators → prepareAll schema' es = .ok evaluators' →
      List.Forall₂ (fun evaluator evaluator' => evaluator.eval row = evaluator'.eval row')
        evaluators evaluators'
  | [], _, _, _, h, h' => by
    obtain rfl := Except.ok.inj h
    obtain rfl := Except.ok.inj h'
    exact .nil
  | e :: es, hshares, _, _, h, h' => by
    obtain ⟨evaluator, he, h⟩ := bind_eq_ok_iff.1 h
    obtain ⟨rest, hes, h⟩ := bind_eq_ok_iff.1 h
    obtain ⟨evaluator', he', h'⟩ := bind_eq_ok_iff.1 h'
    obtain ⟨rest', hes', h'⟩ := bind_eq_ok_iff.1 h'
    obtain rfl := Except.ok.inj h
    obtain rfl := Except.ok.inj h'
    obtain ⟨hhead, htail⟩ := List.forall_mem_append.1 hshares
    exact .cons (eval_eq_of_sharesAt hrow hrow' e hhead he he')
      (forall₂_eval_of_sharesAt hrow hrow' es htail hes hes')

end

/-- An expression without aggregates can be prepared where all its references resolve, and then it
    has the same value, or the same error, on rows that share the values there. -/
theorem exists_eval_eq_of_sharesAt (e : Expr) (hstreamable : e.streamable = true)
    (hrow : row.length = schema.width) (hrow' : row'.length = schema'.width)
    (hshares : ∀ c ∈ e.references, SharesAt schema schema' row row' c) :
    ∃ evaluator evaluator', e.prepare schema = .ok evaluator ∧
      e.prepare schema' = .ok evaluator' ∧ evaluator.eval row = evaluator'.eval row' := by
  have hhas : ∀ c ∈ e.references, schema.Has c := by
    intro c hc
    obtain ⟨position, _, hposition, -⟩ := hshares c hc
    exact ⟨position, hposition⟩
  have hhas' : ∀ c ∈ e.references, schema'.Has c := by
    intro c hc
    obtain ⟨_, position', -, hposition', -⟩ := hshares c hc
    exact ⟨position', hposition'⟩
  obtain ⟨evaluator, h⟩ := e.exists_prepare_iff.2 ⟨hstreamable, hhas⟩
  obtain ⟨evaluator', h'⟩ := e.exists_prepare_iff.2 ⟨hstreamable, hhas'⟩
  exact ⟨evaluator, evaluator', h, h', eval_eq_of_sharesAt hrow hrow' e hshares h h'⟩

end Expr

end RowFlow
