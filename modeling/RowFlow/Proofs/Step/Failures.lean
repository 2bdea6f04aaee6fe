import RowFlow.Proofs.Expr.Failures
import RowFlow.Proofs.Step.Width

/-!
# Failures of Stages

A freshly opened stage fails on a row of the width of its input schema only when it evaluates
something (`Transform.reliable_of_openOn`): the positions that it has resolved lie within the row,
and so do the rows that it hands to its expressions. None of its width checks fails.
-/

namespace RowFlow

/-! ## Resolved positions -/

namespace Schema

variable {schema : Schema}

theorem lt_width_of_resolve {column : Column} {position : Nat}
    (h : schema.resolve column = .ok position) : position < schema.width := by
  have hposition : schema.position? column = some position := by
    unfold resolve at h
    split at h
    · rename_i p hp
      rw [hp, Except.ok.inj h]
    · cases h
  cases column with
  | name label => exact (List.findIdx?_eq_some_iff_findIdx_eq.1 hposition).1
  | index i =>
    simp only [position?] at hposition
    split at hposition
    · rename_i hlt
      exact Option.some.inj hposition ▸ hlt
    · cases hposition

theorem lt_width_of_resolveEach {columns : List Column} {positions : List Nat}
    (h : schema.resolveEach columns = .ok positions) : ∀ p ∈ positions, p < schema.width := by
  have hall := mapM_eq_ok_iff.1 h
  clear h
  induction hall with
  | nil => exact nofun
  | cons hposition _ ih => exact List.forall_mem_cons.2 ⟨lt_width_of_resolve hposition, ih⟩

end Schema

/-! ## Assignment -/

/-- Replacing a value that a row has does not fail. -/
theorem failsWith_assignAt {P : Error → Prop} {values : List Value} {position : Nat}
    (h : position < values.length) (value : Value) :
    FailsWith P (assignAt values position value) := by
  rw [assignAt, if_pos h]
  exact .ok _

theorem failsWith_assignEach {P : Error → Prop} {values : List Value}
    {assignments : List (Nat × Value)} (h : ∀ a ∈ assignments, a.1 < values.length) :
    FailsWith P (assignEach values assignments) := by
  induction assignments generalizing values with
  | nil => exact .ok _
  | cons assignment rest ih =>
    obtain ⟨hfirst, hrest⟩ := List.forall_mem_cons.1 h
    refine (failsWith_assignAt hfirst assignment.2).bind fun next hnext => ih ?_
    rw [length_assignAt hnext]
    exact hrest

/-- Assigning a result at positions that a row has fails only if the result is of another shape. -/
theorem failsWith_assign {values : List Value} {positions : List Nat}
    (h : ∀ p ∈ positions, p < values.length) (result : Value) :
    FailsWith Error.IsEvaluation (assign values positions result) := by
  unfold assign
  split
  · exact failsWith_assignAt (h _ List.mem_cons_self) _
  · split
    · split
      · exact failsWith_assignEach fun a ha => h a.1 (List.of_mem_zip ha).1
      · exact .error trivial
    · exact .error trivial

theorem failsWith_castEach (id : Nat) (names : List String) (values : List Value)
    (casts : List (Nat × ColumnType)) :
    FailsWith Error.IsEvaluation (castEach id names values casts) := by
  induction casts generalizing values with
  | nil => exact .ok _
  | cons cast rest ih =>
    unfold castEach
    split
    · exact ih _
    · exact .error trivial

/-- The cells of inserted columns fail only when they are evaluated. -/
theorem Cells.failsWith_values {schema : Schema} {count : Nat} {exprs : List Expr} {cells : Cells}
    (hcells : prepareCells schema count exprs = .ok cells) {row : List Value}
    (hrow : row.length = schema.width) : FailsWith Error.IsEvaluation (cells.values row) := by
  unfold prepareCells at hcells
  split at hcells
  · obtain rfl := Except.ok.inj hcells
    exact .ok _
  · split at hcells
    · obtain ⟨evaluator, hprep, rfl⟩ := map_eq_ok_iff.1 hcells
      refine (Expr.reliable_of_prepare _ hprep row hrow).bind fun result _ => ?_
      apply failsWith_assign
      -- the blanks are as many as the positions
      intro p hp
      rw [List.length_replicate]
      exact List.mem_range.1 hp
    · split at hcells
      · obtain ⟨evaluators, hprep, rfl⟩ := map_eq_ok_iff.1 hcells
        have hreliable := Expr.reliable_of_prepareAll _ hprep
        exact .mapM fun evaluator hevaluator => hreliable evaluator hevaluator row hrow
      · cases hcells

/-! ## Stages -/

/-- On rows of a width a rule fails with errors of evaluation only. -/
def RowRule.Reliable (width : Nat) (rule : RowRule) : Prop :=
  ∀ row : Row, row.length = width → FailsWith Error.IsEvaluation (rule.apply row)

/-- A stage that applies a rule is as reliable as the rule. -/
def Stage.Reliable (width : Nat) : Stage → Prop
  | .each rule => rule.Reliable width
  | _ => True

/-- A rule checks the width of a row first, and then does the rest. -/
theorem failsWith_checked {α : Type} {values : List Value} {width : Nat}
    (h : values.length = width) {x : Unit → Except Error α}
    (hx : FailsWith Error.IsEvaluation (x ())) :
    FailsWith Error.IsEvaluation (expectWidth values width >>= x) := by
  rw [expectWidth_eq_ok_iff.2 h]
  exact hx

/-- A freshly opened stage is reliable on rows of its input schema. -/
theorem Transform.reliable_of_openOn {entropy : Entropy} {schema output : Schema} {t : Transform}
    {stage : Stage} (h : t.openOn entropy schema = .ok (stage, output)) :
    stage.Reliable schema.width := by
  cases opens_of_openOn h with
  | filter hprep =>
    intro row hrow
    exact ((Expr.reliable_of_prepare _ hprep).evalTruth hrow).bind fun _ _ => .ok _
  | select _ _ _ => exact fun row hrow => failsWith_checked hrow (.ok _)
  | rename _ _ _ => exact fun row _ => .ok _
  | move _ => exact fun row hrow => failsWith_checked hrow (.ok _)
  | insert hcells _ =>
    intro row hrow
    refine failsWith_checked hrow ?_
    exact (Cells.failsWith_values hcells hrow).bind fun _ _ => .ok _
  | @update _ _ positions _ hpositions hprep =>
    intro row hrow
    have hwithin : ∀ p ∈ positions, p < row.values.length := fun p hp =>
      Nat.lt_of_lt_of_eq (Schema.lt_width_of_resolveEach hpositions p hp) hrow.symm
    refine (Expr.reliable_of_prepare _ hprep row.values hrow).bind fun result _ => ?_
    exact (failsWith_assign hwithin result).bind fun _ _ => .ok _
  | typecast _ _ =>
    intro row hrow
    refine failsWith_checked hrow ?_
    exact (failsWith_castEach row.id schema.names row.values _).bind fun _ _ => .ok _
  | limit _ | sample _ _ | sort _ => trivial

end RowFlow
