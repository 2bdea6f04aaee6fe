import RowFlow.Step.Opening
import RowFlow.Proofs.Success

/-!
# Opened Transforms

What a transform has become when it has been opened without failure: one case for each transform,
with everything that was resolved and checked on the way (`Transform.opens_of_openOn`). Properties
of freshly opened stages are read off these cases.
-/

namespace RowFlow

/-- The first cast is resolved, then the others, which find its column retyped. -/
theorem resolveCasts_cons_eq_ok_iff {schema : Schema} {fields out : List Field}
    {cast : Column × ColumnType} {rest : List (Column × ColumnType)}
    {resolved : List (Nat × ColumnType)} :
    resolveCasts schema fields (cast :: rest) = .ok (out, resolved) ↔
      ∃ position behind, schema.resolve cast.1 = .ok position ∧
        resolveCasts schema (fields.modify position fun field => { field with type := cast.2 })
          rest = .ok (out, behind) ∧
        resolved = (position, cast.2) :: behind := by
  constructor
  · intro h
    obtain ⟨position, hposition, h⟩ := bind_eq_ok_iff.1 h
    obtain ⟨⟨final, behind⟩, hbehind, h⟩ := bind_eq_ok_iff.1 h
    obtain ⟨rfl, rfl⟩ := Prod.mk.inj (Except.ok.inj h)
    exact ⟨position, behind, hposition, hbehind, rfl⟩
  · rintro ⟨position, behind, hposition, hbehind, rfl⟩
    exact bind_eq_ok_iff.2 ⟨position, hposition, bind_eq_ok_iff.2 ⟨_, hbehind, rfl⟩⟩

/-- A transform opens against a schema to a stage that passes on rows of an output schema. -/
inductive Transform.Opens (entropy : Entropy) (schema : Schema) : Transform → Stage → Schema → Prop
  | filter {predicate : Expr} {negated : Bool} {evaluator : Evaluator}
    (hprep : predicate.prepare schema = .ok evaluator) :
    Opens entropy schema (.filter predicate negated) (.each (.filter evaluator negated)) schema
  | limit (rows : Nat) : Opens entropy schema (.limit rows) (.limit rows 0) schema
  /-- new names or none, there are as many fields as positions -/
  | select {columns : List Column} {names : Option (List String)} {positions : List Nat}
    {fields : List Field} {output : Schema}
    (hpositions : schema.resolveEach columns = .ok positions)
    (hfields : fields = pick positions schema.fields ∨
      ∃ names, renameFields (pick positions schema.fields) names = .ok fields)
    (houtput : Schema.ofFields fields = .ok output) :
    Opens entropy schema (.select columns names) (.each (.project schema.width positions)) output
  | rename {columns : List Column} {names : List String} {positions : List Nat}
    {fields : List Field} {output : Schema}
    (hpositions : schema.resolveEach columns = .ok positions)
    (hfields : renameAt schema.fields positions names = .ok fields)
    (houtput : Schema.ofFields fields = .ok output) :
    Opens entropy schema (.rename columns names) (.each .keep) output
  | move {columns : List Column} {position : Nat} {order : List Nat} {output : Schema}
    (houtput : Schema.ofFields (pick order schema.fields) = .ok output)
    (horder : ∃ moved, schema.resolveEach columns = .ok moved ∧
      order = moveOrder schema.width moved position) :
    Opens entropy schema (.move columns position) (.each (.project schema.width order)) output
  | insert {names : List String} {position : Option Nat} {values : List Expr} {place : Nat}
    {cells : Cells} {output : Schema} (hcells : prepareCells schema names.length values = .ok cells)
    (houtput : Schema.ofFields (schema.fields.take place ++
      (names.map fun name => ⟨name, .utf8⟩) ++ schema.fields.drop place) = .ok output)
    (hplace : place = position.getD schema.width ∧ place ≤ schema.width) :
    Opens entropy schema (.insert names position values)
      (.each (.insert schema.width place cells)) output
  | update {columns : List Column} {value : Expr} {positions : List Nat} {evaluator : Evaluator}
    (hpositions : schema.resolveEach columns = .ok positions)
    (hprep : value.prepare schema = .ok evaluator) :
    Opens entropy schema (.update columns value) (.each (.update positions evaluator)) schema
  | sample (size : Nat) (seed : Option UInt64) :
    Opens entropy schema (.sample size seed)
      (.sample (.start size (entropy.generatorOf seed))) schema
  | sort {keys : List Column} {descending : Bool} {positions : List Nat}
    (hpositions : schema.resolveEach keys = .ok positions) :
    Opens entropy schema (.sort keys descending) (.sort schema.width positions descending []) schema
  | typecast {casts : List (Column × ColumnType)} {fields : List Field}
    {resolved : List (Nat × ColumnType)} {output : Schema}
    (hcasts : resolveCasts schema schema.fields casts = .ok (fields, resolved))
    (houtput : Schema.ofFields fields = .ok output) :
    Opens entropy schema (.typecast casts) (.each (.cast schema.width schema.names resolved)) output

theorem Transform.opens_of_openOn {entropy : Entropy} {schema output : Schema} {t : Transform}
    {stage : Stage} (h : t.openOn entropy schema = .ok (stage, output)) :
    t.Opens entropy schema stage output := by
  -- the last step of an opening gives the stage and the output schema
  have houtput {x : Except Error Schema} {s : Stage}
      (h : (do return (s, ← x)) = Except.ok (stage, output)) : s = stage ∧ x = .ok output := by
    obtain ⟨schema', hx, h⟩ := bind_eq_ok_iff.1 h
    obtain ⟨rfl, rfl⟩ := Prod.mk.inj (Except.ok.inj h)
    exact ⟨rfl, hx⟩
  cases t with
  | filter predicate negated =>
    obtain ⟨evaluator, hprep, h⟩ := bind_eq_ok_iff.1 h
    obtain ⟨rfl, rfl⟩ := Prod.mk.inj (Except.ok.inj h)
    exact .filter hprep
  | limit rows =>
    obtain ⟨rfl, rfl⟩ := Prod.mk.inj (Except.ok.inj h)
    exact .limit rows
  | select columns names =>
    obtain ⟨positions, hpositions, h⟩ := bind_eq_ok_iff.1 h
    cases names with
    | none =>
      obtain ⟨rfl, hschema⟩ := houtput h
      exact .select hpositions (.inl rfl) hschema
    | some names =>
      obtain ⟨fields, hfields, h⟩ := bind_eq_ok_iff.1 h
      obtain ⟨rfl, hschema⟩ := houtput h
      exact .select hpositions (.inr ⟨names, hfields⟩) hschema
  | rename columns names =>
    obtain ⟨positions, hpositions, h⟩ := bind_eq_ok_iff.1 h
    obtain ⟨fields, hfields, h⟩ := bind_eq_ok_iff.1 h
    obtain ⟨rfl, hschema⟩ := houtput h
    exact .rename hpositions hfields hschema
  | move columns position =>
    by_cases hposition : schema.width < position
    · simp only [openOn, if_pos hposition] at h
      cases h
    · simp only [openOn, if_neg hposition] at h
      obtain ⟨moved, hmoved, h⟩ := bind_eq_ok_iff.1 h
      obtain ⟨rfl, hschema⟩ := houtput h
      exact .move hschema ⟨moved, hmoved, rfl⟩
  | insert names position values =>
    by_cases hposition : schema.width < position.getD schema.width
    · simp only [openOn, if_pos hposition] at h
      cases h
    · simp only [openOn, if_neg hposition] at h
      obtain ⟨cells, hcells, h⟩ := bind_eq_ok_iff.1 h
      obtain ⟨rfl, hschema⟩ := houtput h
      exact .insert hcells hschema ⟨rfl, Nat.le_of_not_lt hposition⟩
  | update columns value =>
    obtain ⟨positions, hpositions, h⟩ := bind_eq_ok_iff.1 h
    obtain ⟨evaluator, hprep, h⟩ := bind_eq_ok_iff.1 h
    obtain ⟨rfl, rfl⟩ := Prod.mk.inj (Except.ok.inj h)
    exact .update hpositions hprep
  | sample size seed =>
    obtain ⟨rfl, rfl⟩ := Prod.mk.inj (Except.ok.inj h)
    exact .sample size seed
  | sort keys descending =>
    obtain ⟨positions, hpositions, h⟩ := bind_eq_ok_iff.1 h
    obtain ⟨rfl, rfl⟩ := Prod.mk.inj (Except.ok.inj h)
    exact .sort hpositions
  | typecast casts =>
    obtain ⟨⟨fields, resolved⟩, hcasts, h⟩ := bind_eq_ok_iff.1 h
    obtain ⟨rfl, hschema⟩ := houtput h
    exact .typecast hcasts hschema

end RowFlow
