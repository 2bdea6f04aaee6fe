import RowFlow.Chain.Consumer
import RowFlow.Chain.Feed
import RowFlow.Chain.Link
import RowFlow.Csv.Cell
import RowFlow.Csv.Dialect
import RowFlow.Csv.Record
import RowFlow.Csv.Rows
import RowFlow.Csv.Writer
import RowFlow.Error
import RowFlow.Expr.Basic
import RowFlow.Expr.Eager
import RowFlow.Expr.Prepared
import RowFlow.Files
import RowFlow.Json.Basic
import RowFlow.Json.Reader
import RowFlow.Json.Rows
import RowFlow.Json.Scanner
import RowFlow.Json.Table
import RowFlow.Number.Arithmetic
import RowFlow.Number.Binary64
import RowFlow.Number.Integer
import RowFlow.Number.Layout
import RowFlow.Number.Numeral
import RowFlow.Number.Rounding
import RowFlow.Number.Shortest
import RowFlow.Operator.Apply
import RowFlow.Operator.Basic
import RowFlow.Pipeline.Basic
import RowFlow.Pipeline.Iterator
import RowFlow.Pipeline.Observer
import RowFlow.Pipeline.Results
import RowFlow.Pipeline.Run
import RowFlow.Pipeline.Session
import RowFlow.Proofs.Success
import RowFlow.Random.Entropy
import RowFlow.Random.KeyStream
import RowFlow.Random.Reservoir
import RowFlow.Reduction.Accumulator
import RowFlow.Reduction.Basic
import RowFlow.Schema.Basic
import RowFlow.Schema.Resolve
import RowFlow.Source
import RowFlow.Step.Basic
import RowFlow.Step.Collector
import RowFlow.Step.Opening
import RowFlow.Step.Rule
import RowFlow.Step.Stage
import RowFlow.Table.Basic
import RowFlow.Table.Edit
import RowFlow.Text.Blank
import RowFlow.Text.Case
import RowFlow.Text.CaseContext
import RowFlow.Text.CaseMapping
import RowFlow.Text.Outline
import RowFlow.Text.Quoted
import RowFlow.Text.Unseen
import RowFlow.Text.Utf8
import RowFlow.Value.Basic
import RowFlow.Value.Order
import RowFlow.Value.Text
import RowFlow.Proofs.Expr.Agreement
import RowFlow.Proofs.Chain.Feed
import RowFlow.Proofs.Step.Width
import RowFlow.Proofs.Stream.Basic
import RowFlow.Proofs.Stream.Delivery
import RowFlow.Proofs.Pipeline.Opening
import RowFlow.Proofs.Chain.Lockstep
import RowFlow.Proofs.Pipeline.Ends
import RowFlow.Proofs.Stream.Refinement
import RowFlow.Proofs.Pipeline.Sessions
import RowFlow.Proofs.Pipeline.Pushing
import RowFlow.Proofs.Chain.Terminal
import RowFlow.Proofs.Pipeline.Answers
import RowFlow.Proofs.Pipeline.Course
import RowFlow.Proofs.Pipeline.Finished
import RowFlow.Proofs.Pipeline.Demand
import RowFlow.Proofs.Pipeline.Equivalence
import RowFlow.Proofs.Number.Binary64
import RowFlow.Proofs.Number.Integer
import RowFlow.Proofs.Number.Real
import RowFlow.Proofs.Value.Order
import RowFlow.Proofs.Number.Rounding
import RowFlow.Proofs.Operator.Integers
import RowFlow.Proofs.Pipeline.Filtering
import RowFlow.Proofs.Chain.Calls
import RowFlow.Proofs.Chain.Lifecycle
import RowFlow.Proofs.Expr.Failures
import RowFlow.Proofs.Step.Failures
import RowFlow.Proofs.Step.Names
import RowFlow.Proofs.Chain.Contract
import RowFlow.Proofs.Pipeline.Contract
import RowFlow.Proofs.Pipeline.Widths
import RowFlow.Proofs.Expr.References
import RowFlow.Proofs.Expr.Aggregates
import RowFlow.Proofs.Expr.Validation
import RowFlow.Proofs.Pipeline.Editing
import RowFlow.Proofs.Random.Reservoir
import RowFlow.Proofs.Step.Lineage
import RowFlow.Proofs.Pipeline.Lineage
import RowFlow.Proofs.Chain.Coupled
import RowFlow.Proofs.Pipeline.Execution
import RowFlow.Proofs.Pipeline.Notices
import RowFlow.Proofs.Pipeline.Footprint
import RowFlow.Proofs.Pipeline.Pulls
import RowFlow.Proofs.Pipeline.Faults
import RowFlow.Proofs.Pipeline.Outcomes
import RowFlow.Proofs.Chain.Budget
import RowFlow.Proofs.Pipeline.Instantiation
import RowFlow.Proofs.Step.Refusals
import RowFlow.Proofs.Csv.Record
import RowFlow.Proofs.Csv.Cell
import RowFlow.Proofs.Csv.Rows
import RowFlow.Proofs.Step.Writer
import RowFlow.Proofs.Pipeline.Written
import RowFlow.Proofs.Csv.Typing
import RowFlow.Proofs.Stream.Congruence
import RowFlow.Proofs.Pipeline.Typing
import RowFlow.Proofs.Pipeline.Reduction
import RowFlow.Proofs.Step.Admission
import RowFlow.Proofs.Pipeline.Admission
import RowFlow.Proofs.Json.Table
import RowFlow.Proofs.Pipeline.Listeners
import RowFlow.Proofs.Step.Hosts
import RowFlow.Proofs.Chain.Interchange
import RowFlow.Proofs.Step.Fusion
import RowFlow.Proofs.Pipeline.Interchange
import RowFlow.Proofs.Pipeline.Fusion
import RowFlow.Proofs.Chain.Kept
import RowFlow.Proofs.Pipeline.Remains
import RowFlow.Proofs.Json.Longer
import RowFlow.Proofs.Json.Nesting
import RowFlow.Proofs.Json.Forms
import RowFlow.Proofs.Random.Script
import RowFlow.Proofs.Random.Uniform
import RowFlow.Proofs.Chain.Release
import RowFlow.Proofs.Random.Sample
import RowFlow.Proofs.Step.Sorting
import RowFlow.Proofs.Stream.Sorting
import RowFlow.Proofs.Pipeline.Effects
import RowFlow.Proofs.Pipeline.Sorting
import RowFlow.Proofs.Expr.Preparation
import RowFlow.Proofs.Expr.Connectives
import RowFlow.Proofs.Operator.Coherence
import RowFlow.Proofs.Expr.Dependence
import RowFlow.Proofs.Step.Rearranging
import RowFlow.Proofs.Pipeline.Rearranging
import RowFlow.Proofs.Operator.Tuples
import RowFlow.Proofs.Pipeline.Matching
import RowFlow.Proofs.Reduction.Sum
import RowFlow.Proofs.Reduction.Extremum
import RowFlow.Proofs.Pipeline.Frequencies
import RowFlow.Proofs.Stream.Mapping
import RowFlow.Proofs.Step.Moving
import RowFlow.Proofs.Pipeline.Moving
import RowFlow.Proofs.Csv.Conversion
import RowFlow.Proofs.Step.Recasting
import RowFlow.Proofs.Pipeline.Recasting
