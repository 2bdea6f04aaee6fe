import RowFlow.Pipeline.Run

/-!
# Iterating over Rows

A run under the control of its reader, who asks for one row at a time. Rows of the source are pulled
only when no row is waiting. The chain is closed when the source ends or a step asks to stop, and
rows that were held back follow then.
-/

namespace RowFlow

/-- The states of a chain of `n` producers whose rows are fetched by a reader. -/
abbrev FetchedChain (π : Type) (n : Nat) : Type := Chain π (Guarded (Metered Outbox)) n

/-- A run in progress. -/
structure RowIterator (π α : Type) (n : Nat) where
  options : Options α
  /-- the width of the rows of the source -/
  width : Nat
  /-- what is left of the source; nothing after a step has asked to stop -/
  items : List (Except Error Row)
  /-- the chain, unless it has been closed or has failed -/
  chain : Option (FetchedChain π n)
  pulled : Nat
  /-- rows that have come out of the chain -/
  waiting : List Row

namespace RowIterator

variable {π α : Type} {n : Nat} [Producer π]

/-- The rows that have come out of a chain. -/
def emitted (chain : FetchedChain π n) : List Row := (Chain.terminal n chain).inner.inner.rows

/-- The chain after its rows have been fetched. -/
def fetched (chain : FetchedChain π n) : FetchedChain π n :=
  Chain.mapTerminal (fun guarded => { guarded with inner := ⟨⟨[]⟩⟩ }) n chain

/-- Gives the first waiting row. -/
def giveWaiting (it : RowIterator π α n) (session : Session α) :
    Option (Except Error Row) × RowIterator π α n × Session α :=
  match it.waiting with
  | row :: waiting => (some (.ok row), { it with waiting }, session)
  | [] => (none, it, session)

/-- Ends a run by an error. Rows that came out of the chain before it are still waiting. -/
def giveError (error : Error) (it : RowIterator π α n) (session : Session α) :
    Option (Except Error Row) × RowIterator π α n × Session α :=
  (some (.error error), { it with items := [], chain := none },
    session.fail it.options error)

/-- Closes the chain and gives the first row that was held back, if there is one. -/
def finish (chain : FetchedChain π n) (it : RowIterator π α n) (session : Session α) :
    Option (Except Error Row) × RowIterator π α n × Session α :=
  let (result, chain, session) := Consumer.close chain session
  let it := { it with items := [], chain := none, waiting := emitted chain }
  match result with
  | .error e => it.giveError e session
  | .ok _ => it.giveWaiting (session.succeed it.options)

/-- Pulls rows of the source until a row comes out of the chain or the run ends. -/
def pull (it : RowIterator π α n) (chain : FetchedChain π n) (session : Session α) :
    List (Except Error Row) → Option (Except Error Row) × RowIterator π α n × Session α
  | [] => it.finish chain session
  | .error e :: _ => it.giveError e session
  | .ok row :: rest =>
    match pushRow it.options it.width row it.pulled chain session with
    | (.error e, pulled, chain, session) =>
      { it with pulled, waiting := emitted chain }.giveError e session
    | (.ok .stop, pulled, chain, session) =>
      let it := { it with pulled, items := [], waiting := emitted chain }
      if it.waiting.isEmpty then it.finish chain session
      else { it with chain := some (fetched chain) }.giveWaiting session
    | (.ok .more, pulled, chain, session) =>
      let it := { it with pulled, items := rest, waiting := emitted chain }
      -- the row has brought nothing out: go on with the next one
      if it.waiting.isEmpty then it.pull chain session rest
      else { it with chain := some (fetched chain) }.giveWaiting session

/-- Gives the next row, or the error that ends the run. -/
def next (it : RowIterator π α n) (session : Session α) :
    Option (Except Error Row) × RowIterator π α n × Session α :=
  match it.waiting, it.chain with
  | [], some chain => it.pull chain session it.items
  | _, _ => it.giveWaiting session

def outline (it : RowIterator π α n) : String :=
  Outline.openRecord "RowIter"
    [("open", Outline.bool it.chain.isSome), ("pulled", toString it.pulled)]

end RowIterator

/-! ## Starting -/

/-- The outline of the reader, when it stands behind another collector. -/
def readerOutline : String := Outline.call "Tail" [Outline.openRecord "Sender" []]

namespace Pipeline

variable {ι π κ α : Type} [StepKind ι π κ] [Producer π]

/-- The producers of a pipeline whose rows go to a reader instead of a collector, with the width of
    the source and the schema of the rows. -/
def openForReader (pipeline : Pipeline ι α) (entropy : Entropy) (files : Files) :
    Except Error (Nat × List π × Schema) := do
  let (width, assembly) ← (pipeline.assembly entropy files : Except Error (Nat × Assembly π κ))
  match assembly.collector with
  | none => return (width, assembly.producers, assembly.schema)
  | some _ => throw (.schemaMismatch (.afterCollector pipeline.length readerOutline))

/-- Opens the steps and the source for a reader. -/
def openIterator (pipeline : Pipeline ι α) (entropy : Entropy) (session : Session α) :
    Except Error (Sigma (RowIterator π α)) × Session α :=
  match pipeline.openForReader entropy session.files with
  | .error e => (.error e, session)
  | .ok (width, producers, schema) =>
    let session := session.report pipeline.options (.opened (pipeline.length + 1) schema)
    match pipeline.source.openIn session with
    | (.error e, session) => (.error e, session)
    | (.ok items, session) =>
      let chain := Chain.connect producers (Guarded.start (Metered.mk (Outbox.mk [])))
      (.ok ⟨_, pipeline.options, width, items, some chain, 0, []⟩, session)

/-- Starts a run under the control of a reader. A run that cannot be opened has failed; one that the
    reader gives up is never reported as finished. -/
def iterate (pipeline : Pipeline ι α) (session : Session α) :
    Except Error (Sigma (RowIterator π α)) × Session α :=
  match pipeline.openIterator session.fresh (session.startRun pipeline.options) with
  | (.error e, session) => (.error e, session.fail pipeline.options e)
  | (.ok it, session) => (.ok it, session)

end Pipeline

end RowFlow
