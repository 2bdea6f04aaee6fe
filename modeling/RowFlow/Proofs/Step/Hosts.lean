import RowFlow.Proofs.Chain.Calls
import RowFlow.Step.Opening

/-!
# Hosts

Kinds of steps that have the steps of this library among them. A kind is a host if these steps open
to stages and collectors that work there as they do by themselves (`Hosts`); whatever else there is
among its steps is left open.
-/

namespace RowFlow

/-! ## Feeds and opened steps -/

theorem Feed.map_eq_self {β : Type} {f : β → β} (hf : ∀ b, f b = b) (feed : Feed β) :
    feed.map f = feed := by
  induction feed with
  | done result => exact congrArg Feed.done (hf result)
  | forward row next ih => exact congrArg (Feed.forward row) (funext ih)

/-- An opened step with its state as another kind has it. -/
def Opened.map {π κ π' κ' : Type} (f : π → π') (g : κ → κ') : Opened π κ → Opened π' κ'
  | .producer state schema => .producer (f state) schema
  | .collector state => .collector (g state)

theorem Opened.map_id {π κ : Type} (opened : Opened π κ) : opened.map id id = opened := by
  cases opened <;> rfl

/-! ## Hosts -/

/-- The steps of this library are among the steps `ι`, with their stages among the producers and
    their collectors among the collectors. -/
structure Hosts (ι : Type) {π κ : Type} [StepKind ι π κ] [Producer π] [Consumer Files κ]
    (stage : Stage → π) : Prop where
  openOn (entropy : Entropy) (schema : Schema) (step : Step) :
    StepKind.openOn entropy schema (StepKind.ofStep step : ι) =
      (step.openOn entropy schema).map (Opened.map stage (StepKind.ofCollector ι))
  draws (step : Step) : StepKind.draws (StepKind.ofStep step : ι) = step.draws
  handle (row : Row) (s : Stage) :
    Producer.handle row (stage s) = (s.handle row).map fun (answer, s) => (answer, stage s)
  drain (s : Stage) :
    Producer.drain (stage s) = s.drain.map fun (result, s) => (result, stage s)
  collects : ActsAs Files (StepKind.ofCollector ι : Collector → κ)

/-- The library is a host of its own steps. -/
theorem Hosts.self : Hosts Step id where
  openOn entropy schema step := by
    change step.openOn entropy schema = _
    cases step.openOn entropy schema with
    | error e => rfl
    | ok opened => exact congrArg Except.ok opened.map_id.symm
  draws _ := rfl
  handle row s := (Feed.map_eq_self (fun _ => rfl) _).symm
  drain s := (Feed.map_eq_self (fun _ => rfl) _).symm
  collects := ⟨fun _ _ _ => rfl, fun _ _ => rfl⟩

end RowFlow
