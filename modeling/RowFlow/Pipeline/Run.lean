import RowFlow.Chain.Link
import RowFlow.Pipeline.Basic
import RowFlow.Pipeline.Session

/-!
# Running Pipelines

A run pulls rows from the source one at a time and pushes each through the chain, until the source
ends or a step asks to stop; then it closes the chain, which gives the result. The first error ends
the run and leaves the chain open.
-/

namespace RowFlow

/-! ## Pushing rows -/

section
variable {α σ : Type} [Consumer (Session α) σ]

/-- Pushes a row of the source, of which `pulled` have been pulled before, into the head of a
    chain. -/
def pushRow (options : Options α) (width : Nat) (row : Row) (pulled : Nat) (head : σ)
    (session : Session α) : Except Error Flow × Nat × σ × Session α :=
  match expectWidth row.values width with
  | .error e => (.error e, pulled, head, session)
  | .ok () =>
    -- a row of another width has not been counted
    let session := session.count fun c => { c with rowsPulled := c.rowsPulled + 1 }
    match Consumer.consume row head session with
    | (.ok .stop, head, session) =>
      let session := session.count fun c => { c with earlyStops := c.earlyStops + 1 }
      (.ok .stop, pulled + 1, head, session.report options (.earlyStop (pulled + 1)))
    | (answer, head, session) => (answer, pulled + 1, head, session)

/-- Pushes rows until they end or the chain asks to stop. -/
def pushAll (options : Options α) (width : Nat) : List (Except Error Row) → Nat → σ → Session α →
    Except Error Unit × σ × Session α
  | [], _, head, session => (.ok (), head, session)
  | .error e :: _, _, head, session => (.error e, head, session)
  | .ok row :: rest, pulled, head, session =>
    match pushRow options width row pulled head session with
    | (.error e, _, head, session) => (.error e, head, session)
    | (.ok .stop, _, head, session) => (.ok (), head, session)
    | (.ok .more, pulled, head, session) => pushAll options width rest pulled head session

/-- Pushes rows and closes the chain. -/
def pushAndClose (options : Options α) (width : Nat) (items : List (Except Error Row)) (head : σ)
    (session : Session α) : Except Error (Option Output) × Session α :=
  match pushAll options width items 0 head session with
  | (.error e, _, session) => (.error e, session)
  | (.ok (), head, session) =>
    let (result, _, session) := Consumer.close head session
    (result, session)

end

/-! ## Runs -/

/-- Opens the source in a session. -/
def Source.openIn {α : Type} (source : Source) (session : Session α) :
    Except Error (List (Except Error Row)) × Session α :=
  let (items, spent) := source.openOn session.files session.spent
  (items, { session with spent })

namespace Pipeline

variable {ι π κ α : Type} [StepKind ι π κ] [Producer π] [Consumer Files κ]

/-- Opens the steps, then the source, and pushes all rows. -/
def execute (pipeline : Pipeline ι α) (entropy : Entropy) (session : Session α) :
    Except Error (Option Output) × Session α :=
  match pipeline.assembly entropy session.files with
  | .error e => (.error e, session)
  | .ok (width, assembly) =>
    let session := session.report pipeline.options (.opened pipeline.length assembly.schema)
    match pipeline.source.openIn session with
    | (.error e, session) => (.error e, session)
    | (.ok items, session) =>
      let collector := assembly.collector.getD
        (StepKind.ofCollector ι (.table assembly.schema []))
      let head := Chain.connect assembly.producers (Guarded.start (Metered.mk collector))
      pushAndClose pipeline.options width items head session

/-- Runs a pipeline. Rows that reach the end without a collector become a table. -/
def run (pipeline : Pipeline ι α) (session : Session α) :
    Except Error (Option Output) × Session α :=
  let (result, session) := pipeline.execute session.fresh (session.startRun pipeline.options)
  (result, session.closeRun pipeline.options result)

/-- Runs a pipeline with a collector at its end. -/
def runWith (pipeline : Pipeline ι α) (terminal : ι) (session : Session α) :
    Except Error (Option Output) × Session α :=
  (pipeline.append terminal).run session

end Pipeline

end RowFlow
