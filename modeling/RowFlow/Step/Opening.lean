import RowFlow.Random.Entropy
import RowFlow.Step.Basic
import RowFlow.Step.Collector
import RowFlow.Step.Stage

/-!
# Opening Steps

A step is opened against the schema of the rows that will reach it. All references are resolved
then, before any row is read, and a transform tells the schema of the rows that it passes on. A
sample without a seed asks the operating system for a generator each time it is opened.
-/

namespace RowFlow

/-! ## Names -/

/-- New names for fields, one each. -/
def renameFields (fields : List Field) (names : List String) : Except Error (List Field) :=
  if fields.length = names.length then
    .ok (fields.zipWith (fun field name => { field with name }) names)
  else .error (.schemaMismatch (.nameCount fields.length names.length))

/-- New names for the fields at positions, one after another. -/
def renameAt (fields : List Field) (positions : List Nat) (names : List String) :
    Except Error (List Field) :=
  if positions.length = names.length then
    .ok ((positions.zip names).foldl (fun fields (position, name) =>
      fields.modify position fun field => { field with name }) fields)
  else .error (.schemaMismatch (.nameCount positions.length names.length))

/-- New types for the columns that casts refer to, with the resolved casts. -/
def resolveCasts (schema : Schema) (fields : List Field) : List (Column × ColumnType) →
    Except Error (List Field × List (Nat × ColumnType))
  | [] => .ok (fields, [])
  | (column, type) :: rest => do
    let position ← schema.resolve column
    let retyped := fields.modify position fun field => { field with type }
    let (fields, casts) ← resolveCasts schema retyped rest
    return (fields, (position, type) :: casts)

/-! ## Positions -/

/-- All positions of a schema with the moved ones together at a place among the others. -/
def moveOrder (width : Nat) (moved : List Nat) (place : Nat) : List Nat :=
  let others := (List.range width).filter (!moved.contains ·)
  others.take place ++ moved ++ others.drop place

/-- Where inserted values come from: nowhere, one expression each, or a single expression for
    all. -/
def prepareCells (schema : Schema) (count : Nat) (values : List Expr) : Except Error Cells :=
  match values with
  | [] => .ok (.nulls count)
  | value :: rest =>
    if rest.isEmpty && 1 < count then .unpack count <$> value.prepare schema
    else if values.length = count then .each <$> Expr.prepareAll schema values
    else .error (.schemaMismatch (.functionCount count values.length))

/-! ## Transforms -/

/-- Opens a transform against the schema of its input. Generators that it asks for are read from a
    tape. -/
def Transform.openOn (entropy : Entropy) (schema : Schema) :
    Transform → Except Error (Stage × Schema)
  | .filter predicate negated => do
    return (.each (.filter (← predicate.prepare schema) negated), schema)
  | .limit rows => .ok (.limit rows 0, schema)
  | .select columns names => do
    let positions ← schema.resolveEach columns
    let picked := pick positions schema.fields
    let fields ← match names with
      | none => pure picked
      | some names => renameFields picked names
    return (.each (.project schema.width positions), ← Schema.ofFields fields)
  | .rename columns names => do
    let fields ← renameAt schema.fields (← schema.resolveEach columns) names
    return (.each .keep, ← Schema.ofFields fields)
  | .move columns position => do
    if schema.width < position then
      throw (.schemaMismatch (.movePosition position schema.width))
    -- the same order rearranges the columns here and the values of each row later
    let order := moveOrder schema.width (← schema.resolveEach columns) position
    return (.each (.project schema.width order), ← Schema.ofFields (pick order schema.fields))
  | .insert names position values => do
    let place := position.getD schema.width
    if schema.width < place then
      throw (.schemaMismatch (.insertPosition place schema.width))
    let cells ← prepareCells schema names.length values
    let inserted : List Field := names.map fun name => ⟨name, .utf8⟩
    let fields := schema.fields.take place ++ inserted ++ schema.fields.drop place
    return (.each (.insert schema.width place cells), ← Schema.ofFields fields)
  | .update columns value => do
    let positions ← schema.resolveEach columns
    return (.each (.update positions (← value.prepare schema)), schema)
  | .sample size seed => .ok (.sample (.start size (entropy.generatorOf seed)), schema)
  | .sort keys descending => do
    return (.sort schema.width (← schema.resolveEach keys) descending [], schema)
  | .typecast casts => do
    let (fields, resolved) ← resolveCasts schema schema.fields casts
    return (.each (.cast schema.width schema.names resolved), ← Schema.ofFields fields)

/-! ## Collections -/

/-- Opens a collection against the schema of its input. -/
def Collection.openOn (schema : Schema) : Collection → Except Error Collector
  | .table => .ok (.table schema [])
  | .count => .ok (.count 0)
  | .distinct columns => do
    let positions ←
      if columns.isEmpty then pure (List.range schema.width) else schema.resolveEach columns
    return .distinct schema.width positions []
  | .rows => .ok (.rows schema.width [])
  | .reduce column reduction => do
    let position ← schema.resolve column
    return .reduce schema.width position (.start reduction (schema.typeAt position))
  | .csvFile path dialect =>
    let header := if dialect.hasHeaders then some schema.names else none
    .ok (.csvFile ⟨schema.width, path, dialect, header, false⟩)

/-! ## Steps -/

/-- A step bound to the schema of its input. -/
inductive Opened (π κ : Type) where
  /-- passes on rows of a schema -/
  | producer (state : π) (schema : Schema)
  | collector (state : κ)

/-- The outline of an opened step. -/
def Opened.outline {π κ : Type} : Opened π κ → String
  | .producer _ schema =>
    Outline.openRecord "Producer" [("columns", Outline.list (schema.names.map Text.quoted))]
  | .collector _ => "Collector"

/-- Kinds of steps `ι`, which open to producers with states `π` or collectors with states `κ`. The
    steps of this library are among them. -/
class StepKind (ι : Type) (π κ : outParam Type) where
  openOn : Entropy → Schema → ι → Except Error (Opened π κ)
  /-- the number of generators that a step reads from the tape -/
  draws : ι → Nat
  outline : ι → String
  /-- a step of this library -/
  ofStep : Step → ι
  /-- a collector of this library -/
  ofCollector : Collector → κ

/-- Opens a step against the schema of its input. -/
def Step.openOn (entropy : Entropy) (schema : Schema) :
    Step → Except Error (Opened Stage Collector)
  | .transform t => do
    let (stage, output) ← t.openOn entropy schema
    return .producer stage output
  | .collect c => return .collector (← c.openOn schema)

instance : StepKind Step Stage Collector where
  openOn := Step.openOn
  draws := Step.draws
  outline := Step.outline
  ofStep := id
  ofCollector := id

end RowFlow
