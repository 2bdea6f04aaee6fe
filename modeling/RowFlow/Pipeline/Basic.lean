import RowFlow.Pipeline.Observer
import RowFlow.Source
import RowFlow.Step.Opening

/-!
# Pipelines

A pipeline is a source and the steps that its rows go through. It is a plain value: adding a step
makes another pipeline. Before a run its steps are opened in order, each against the schema that the
one before it passes on.
-/

namespace RowFlow

/-! ## Open steps -/

/-- Steps opened one behind another. -/
structure Assembly (π κ : Type) where
  producers : List π
  /-- the collector at the end, if the last step is one -/
  collector : Option κ
  /-- the schema of the rows that reach the end -/
  schema : Schema

section
variable {ι π κ : Type} [StepKind ι π κ]

/-- Opens steps, the first of which has a position in the pipeline. Each reads its generators from
    the tape behind those of the steps before it. Nothing may follow a collector. -/
def assemble (entropy : Entropy) (position : Nat) (schema : Schema) :
    List ι → Except Error (Assembly π κ)
  | [] => .ok ⟨[], none, schema⟩
  | step :: rest => do
    match ← StepKind.openOn entropy schema step with
    | .producer state output =>
      let behind ← assemble (entropy.drop (StepKind.draws step)) (position + 1) output rest
      return { behind with producers := state :: behind.producers }
    | .collector state =>
      match rest with
      | [] => return ⟨[], some state, schema⟩
      | next :: _ =>
        throw (.schemaMismatch (.afterCollector (position + 1) (StepKind.outline next)))

end

/-! ## Pipelines -/

/-- A source, the steps that its rows go through, and how runs are observed. -/
structure Pipeline (ι α : Type) where
  source : Source
  steps : List ι
  options : Options α

namespace Pipeline

variable {ι π κ α : Type} [StepKind ι π κ]

/-- A pipeline without steps. -/
def ofSource (source : Source) : Pipeline ι α := ⟨source, [], .unobserved⟩

/-- The number of steps. -/
def length (pipeline : Pipeline ι α) : Nat := pipeline.steps.length

def isEmpty (pipeline : Pipeline ι α) : Bool := pipeline.steps.isEmpty

/-- The pipeline with a step more. -/
def append (pipeline : Pipeline ι α) (step : ι) : Pipeline ι α :=
  { pipeline with steps := pipeline.steps ++ [step] }

/-- The pipeline with a transform more. -/
def transform (pipeline : Pipeline ι α) (t : Transform) : Pipeline ι α :=
  pipeline.append (StepKind.ofStep (.transform t))

/-- The first rows. -/
def limit (pipeline : Pipeline ι α) (rows : Nat) : Pipeline ι α := pipeline.transform (.limit rows)

/-- The rows on which a predicate is true. -/
def filter (pipeline : Pipeline ι α) (predicate : Expr) : Pipeline ι α :=
  pipeline.transform (.filter predicate false)

/-- The first rows on which a predicate is true. -/
def filterLimit (pipeline : Pipeline ι α) (predicate : Expr) (rows : Nat) : Pipeline ι α :=
  (pipeline.filter predicate).limit rows

/-- The open steps, and the width of the rows of the source. -/
def assembly (pipeline : Pipeline ι α) (entropy : Entropy) (files : Files) :
    Except Error (Nat × Assembly π κ) := do
  let schema ← pipeline.source.schema files
  return (schema.width, ← assemble entropy 0 schema pipeline.steps)

/-- The schema of the rows that reach the end. No row is read for it. -/
def outputSchema (pipeline : Pipeline ι α) (entropy : Entropy) (files : Files) :
    Except Error Schema := do
  return (← pipeline.assembly entropy files).2.schema

/-- The outline of a pipeline; `spent` tells whether its one-shot source has been read. -/
def outline (pipeline : Pipeline ι α) (spent : Bool) : String :=
  Outline.openRecord "Pipeline"
    [("source", pipeline.source.outline spent),
     ("steps", Outline.list (pipeline.steps.map StepKind.outline)),
     ("options", pipeline.options.outline)]

end Pipeline

end RowFlow
