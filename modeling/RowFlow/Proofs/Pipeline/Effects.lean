import RowFlow.Proofs.Pipeline.Collections

/-!
# Effects of Transforms

Transforms that are opened one behind another make another stream of a stream, and rows of another
schema (`Transform.effect`). The effect of a list of transforms is composed of the effects of its
parts (`Transform.effect_append`), and it is all that a run collects from them
(`Pipeline.collectRows_eq_effect`). So transforms with the same effect can stand for each other
wherever they are in a pipeline (`Pipeline.collectRows_congr`).
-/

namespace RowFlow

/-! ## Effects -/

namespace Transform

/-- The schema that transforms lead to, and what they make of a stream, or the error that keeps them
    from opening. -/
def effect (entropy : Entropy) (schema : Schema) (ts : List Transform) :
    Except Error (Schema × (RowStream → RowStream)) := do
  let assembly ← (assemble entropy 0 schema (ts.map Step.transform) :
    Except Error (Assembly Stage Collector))
  return (assembly.schema, (·.through assembly.producers))

variable {entropy : Entropy} (schema : Schema)

theorem effect_nil : effect entropy schema [] = pure (schema, id) := rfl

theorem effect_cons (t : Transform) (ts : List Transform) :
    effect entropy schema (t :: ts) = (do
      let (stage, between) ← t.openOn entropy schema
      let (output, f) ← effect (entropy.drop t.draws) between ts
      return (output, fun s => f (stage.onStream s))) := by
  simp only [effect, List.map_cons, assemble_transform, bind_assoc, pure_bind,
    assemble_congr_position 0]
  rfl

/-- The transforms behind others draw from what is left of the tape. -/
theorem effect_append (ts ts' : List Transform) :
    effect entropy schema (ts ++ ts') = (do
      let (between, f) ← effect entropy schema ts
      let (output, g) ← effect (entropy.drop (drawn ts)) between ts'
      return (output, fun s => g (f s))) := by
  -- the first transform takes its draws, and the rest is the same claim about a shorter tape
  induction ts generalizing entropy schema with
  | nil => exact (bind_pure (effect entropy schema ts')).symm
  | cons t ts ih =>
    simp only [List.cons_append, effect_cons, ih, bind_assoc, pure_bind, Entropy.drop_drop,
      drawn_cons]

/-- A sort rearranges the stream. -/
theorem effect_sort (keys : List Column) (descending : Bool) (ts : List Transform) :
    effect entropy schema (.sort keys descending :: ts) = (do
      let positions ← schema.resolveEach keys
      let (output, f) ← effect entropy schema ts
      return (output, fun s => f (s.rearrange (sortRows positions descending)))) := by
  simp only [effect_cons, openOn, bind_assoc, pure_bind, Stage.onStream_sort, List.nil_append]
  rfl

/-- A filter puts each row through a sieve. -/
theorem effect_filter (predicate : Expr) (negated : Bool) (ts : List Transform) :
    effect entropy schema (.filter predicate negated :: ts) = (do
      let evaluator ← predicate.prepare schema
      let (output, f) ← effect entropy schema ts
      return (output, fun s => f (s.mapRows (RowRule.filter evaluator negated).apply))) := by
  simp only [effect_cons, openOn, bind_assoc, pure_bind]
  rfl

variable {schema}

/-- A transform that opens to a rule, whatever the tape, applies it to each row. -/
theorem effect_of_rule {other : Entropy} {output : Schema} {t : Transform} {rule : RowRule}
    (h : t.openOn other schema = .ok (.each rule, output)) (ts : List Transform) :
    effect entropy schema (t :: ts) = (do
      let (last, f) ← effect entropy output ts
      return (last, fun s => f (s.mapRows rule.apply))) := by
  -- a rule takes no draws, so the tape is passed on whole
  rw [effect_cons, draws_of_openOn_each h, openOn_each_congr h]
  rfl

/-- The effect of transforms makes rows of their output schema of rows of their input schema. -/
theorem hasWidth_of_effect {output : Schema} {ts : List Transform} {f : RowStream → RowStream}
    (h : effect entropy schema ts = .ok (output, f)) {s : RowStream}
    (hs : s.HasWidth schema.width) : (f s).HasWidth output.width := by
  obtain ⟨assembly, hassembly, h⟩ := bind_eq_ok_iff.1 h
  obtain ⟨rfl, rfl⟩ := Prod.mk.inj (Except.ok.inj h)
  exact (Stage.fitAll_of_assemble hassembly).through hs

end Transform

/-! ## Runs by effects -/

namespace Pipeline

open Transform (effect effect_append)

variable {α : Type} (source : Source) (options : Options α) (session : Session α)

/-- A run collects what the effect of the transforms makes of the items of the source. -/
theorem collectRows_eq_effect (ts : List Transform) :
    ((ofTransforms source ts options).collectRows session).1 = (do
      let schema ← source.schema session.files
      let (_, f) ← effect session.fresh schema ts
      let items ← (source.openOn session.files session.spent).1
      (f (.ofItems schema.width items)).result) := by
  have hstream : (do
      let schema ← source.schema session.files
      let (_, f) ← effect session.fresh schema ts
      let items ← (source.openOn session.files session.spent).1
      (f (.ofItems schema.width items)).result) = (do
      let launch ← (ofTransforms source ts options).opening session.fresh session.files
        session.spent
      launch.stream.result) := by
    simp only [opening, assembly, ofTransforms, effect, Launch.stream, bind_assoc, pure_bind]
  rw [hstream]
  cases hopening : (ofTransforms source ts options).opening session.fresh session.files
      session.spent with
  | error e => exact collect_of_not_opening hopening (fun _ => rfl) _ _
  | ok launch => exact collectRows_of_opening hopening

/-- The output schema is the one that the transforms lead to. -/
theorem outputSchema_eq_effect (ts : List Transform) :
    (ofTransforms source ts options).outputSchema session.fresh session.files = (do
      let schema ← source.schema session.files
      return (← effect session.fresh schema ts).1) := by
  simp only [outputSchema, assembly, ofTransforms, effect, bind_assoc, pure_bind]

section
variable {source options session}

/-- Where there is an output schema, the transforms have opened. -/
theorem exists_effect_of_outputSchema {ts : List Transform} {schema : Schema}
    (h : (ofTransforms source ts options).outputSchema session.fresh session.files = .ok schema) :
    ∃ input f, source.schema session.files = .ok input ∧
      effect session.fresh input ts = .ok (schema, f) := by
  rw [outputSchema_eq_effect] at h
  obtain ⟨input, hinput, h⟩ := bind_eq_ok_iff.1 h
  obtain ⟨⟨_, f⟩, hts, h⟩ := bind_eq_ok_iff.1 h
  obtain rfl := Except.ok.inj h
  exact ⟨input, f, hinput, hts⟩

theorem outputSchema_behind {before : List Transform} {schema : Schema}
    (h : (ofTransforms source before options).outputSchema session.fresh session.files = .ok schema)
    (ts : List Transform) :
    (ofTransforms source (before ++ ts) options).outputSchema session.fresh session.files = (do
      return (← effect (session.fresh.drop (Transform.drawn before)) schema ts).1) := by
  obtain ⟨input, f, hinput, hbefore⟩ := exists_effect_of_outputSchema h
  simp only [outputSchema_eq_effect, hinput, effect_append, hbefore, ok_bind, bind_assoc, pure_bind]

/-- Transforms with the same effect on what they get stand for each other, if as much of the tape is
    left for those behind them. -/
theorem collectRows_congr_behind {before ts ts' : List Transform}
    (hdrawn : Transform.drawn ts = Transform.drawn ts')
    (h : ∀ schema,
      (ofTransforms source before options).outputSchema session.fresh session.files = .ok schema →
        ∀ entropy, effect entropy schema ts = effect entropy schema ts') (after : List Transform) :
    ((ofTransforms source (before ++ ts ++ after) options).collectRows session).1 =
      ((ofTransforms source (before ++ ts' ++ after) options).collectRows session).1 := by
  simp only [collectRows_eq_effect, effect_append, Transform.drawn_append, hdrawn, bind_assoc,
    pure_bind]
  rw [outputSchema_eq_effect] at h
  -- with an error in front of them, the transforms do not come into it
  cases hinput : source.schema session.files with
  | error e => rfl
  | ok input =>
    rw [hinput, ok_bind] at h
    simp only [ok_bind]
    cases hbefore : effect session.fresh input before with
    | error e => rfl
    | ok reached =>
      rw [hbefore] at h
      simp only [ok_bind, h reached.1 rfl]

/-- Behind transforms that have opened, rows come as a stream, and other transforms collect what
    their effect makes of it. -/
theorem exists_stream_behind {before : List Transform} {schema : Schema}
    (h : (ofTransforms source before options).outputSchema session.fresh session.files =
      .ok schema) :
    ∃ stream : Except Error RowStream, (∀ s, stream = .ok s → s.HasWidth schema.width) ∧
      ∀ ts, ((ofTransforms source (before ++ ts) options).collectRows session).1 = (do
        let (_, g) ← effect (session.fresh.drop (Transform.drawn before)) schema ts
        let s ← stream
        (g s).result) := by
  obtain ⟨input, f, hinput, hbefore⟩ := exists_effect_of_outputSchema h
  refine ⟨do return f (.ofItems input.width (← (source.openOn session.files session.spent).1)),
    fun s hs => ?_, fun ts => ?_⟩
  · obtain ⟨items, -, hs⟩ := bind_eq_ok_iff.1 hs
    obtain rfl := Except.ok.inj hs
    exact Transform.hasWidth_of_effect hbefore (RowStream.hasWidth_ofItems _ _)
  · simp only [collectRows_eq_effect, hinput, effect_append, hbefore, ok_bind, bind_assoc,
      pure_bind]

end

/-- Transforms with the same effect stand for each other. -/
theorem collectRows_congr {ts ts' : List Transform}
    (hdrawn : Transform.drawn ts = Transform.drawn ts')
    (h : ∀ entropy schema, effect entropy schema ts = effect entropy schema ts')
    (before after : List Transform) :
    ((ofTransforms source (before ++ ts ++ after) options).collectRows session).1 =
      ((ofTransforms source (before ++ ts' ++ after) options).collectRows session).1 :=
  collectRows_congr_behind hdrawn (fun schema _ entropy => h entropy schema) after

/-- Transforms with the same effect where they open stand for each other up to errors. -/
theorem collectRows_agree {ts ts' : List Transform}
    (hdrawn : Transform.drawn ts = Transform.drawn ts')
    (h : ∀ entropy schema, Agree (effect entropy schema ts) (effect entropy schema ts'))
    (before after : List Transform) :
    Agree ((ofTransforms source (before ++ ts ++ after) options).collectRows session).1
      ((ofTransforms source (before ++ ts' ++ after) options).collectRows session).1 := by
  simp only [collectRows_eq_effect, effect_append, Transform.drawn_append, hdrawn]
  refine .bind (.refl _) fun schema _ => .bind ?_ fun _ _ => .refl _
  refine .bind (.bind (.refl _) fun effect _ => ?_) fun _ _ => .refl _
  exact (h _ effect.1).bind fun _ _ => .refl _

end Pipeline

end RowFlow
