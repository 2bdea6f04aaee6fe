import RowFlow.Proofs.Pipeline.Collections
import RowFlow.Proofs.Pipeline.Effects
import RowFlow.Proofs.Step.Rearranging
import RowFlow.Proofs.Stream.Lineage
import RowFlow.Proofs.Stream.Sorting

/-!
# Filters and Rearranged Columns

A filter reads the columns that its predicate names, wherever they are. So it keeps the same rows
before columns are moved, selected or inserted and afterwards, as the numbers of the rows show
(`Pipeline.depends_on_named_columns`). Only an insertion can come between: its values are computed
for every row that arrives, and where this fails for a row that a filter in front of it would have
dropped, the pipeline fails (`Pipeline.insertion_overflows_in_front`).
-/

namespace RowFlow

/-! ## Numbers of rows -/

namespace RowStream

/-- The numbers of the rows of a stream, or the error that ends it. -/
def ids (s : RowStream) : Except Error (List Nat) := List.map Row.id <$> s.result

theorem ids_row (r : Row) (rest : RowStream) :
    (RowStream.row r rest).ids = (r.id :: ·) <$> rest.ids := by
  simp only [ids, result]
  cases rest.result <;> rfl

section
variable {s : RowStream} {f : Row → Except Error (Option Row)}

/-- A function that changes rows without renumbering them leaves the numbers of a stream. -/
theorem ids_mapRows (h : ∀ row ∈ s.rows, ∃ image, f row = .ok (some image) ∧ image.id = row.id) :
    (s.mapRows f).ids = s.ids := by
  induction s with
  | ended | failed e => rfl
  | row r rest ih =>
    obtain ⟨⟨image, himage, hid⟩, hrest⟩ := List.forall_mem_cons.1 h
    rw [mapRows, himage, ids_row, ids_row, hid, ih hrest]

/-- A filter keeps the same rows behind such a function as in front of it, if it finds the same
    truths. -/
theorem ids_filter_mapRows {evaluator evaluator' : Evaluator} (negated : Bool)
    (h : ∀ row ∈ s.rows, ∃ image, f row = .ok (some image) ∧ image.id = row.id ∧
      evaluator'.evalTruth image.values = evaluator.evalTruth row.values) :
    ((s.mapRows f).mapRows (RowRule.filter evaluator' negated).apply).ids =
      (s.mapRows (RowRule.filter evaluator negated).apply).ids := by
  induction s with
  | ended | failed e => rfl
  | row r rest ih =>
    obtain ⟨⟨image, himage, hid, htruth⟩, hrest⟩ := List.forall_mem_cons.1 h
    have ih := ih hrest
    rw [mapRows, himage]
    simp only [mapRows, RowRule.apply, htruth] at ih ⊢
    cases evaluator.evalTruth r.values with
    | error e => rfl
    | ok truth =>
      -- the row and its image are dropped together, or they are kept and have the same number
      by_cases hdropped : truth = negated
      · simpa [hdropped, bind, Except.bind, pure, Except.pure] using ih
      · simpa [hdropped, bind, Except.bind, pure, Except.pure, ids_row, hid] using
          congrArg ((r.id :: ·) <$> ·) ih

/-- The function may come before the filter or behind it, if it fails on no row that the filter does
    not keep: on a row that is kept it fails in either place. -/
theorem ids_mapRows_swap {evaluator evaluator' : Evaluator} (negated : Bool)
    (himage : ∀ row ∈ s.rows, ∀ passed, f row = .ok passed → ∃ image, passed = some image ∧
      image.id = row.id ∧ evaluator'.evalTruth image.values = evaluator.evalTruth row.values)
    (h : ∀ row ∈ s.rows, (RowRule.filter evaluator negated).apply row = .ok (some row) ∨
      ∃ passed, f row = .ok passed) :
    ((s.mapRows f).mapRows (RowRule.filter evaluator' negated).apply).ids =
      ((s.mapRows (RowRule.filter evaluator negated).apply).mapRows f).ids := by
  induction s with
  | ended | failed e => rfl
  | row r rest ih =>
    obtain ⟨himage, hrest⟩ := List.forall_mem_cons.1 himage
    obtain ⟨hr, h⟩ := List.forall_mem_cons.1 h
    have ih := ih hrest h
    cases hf : f r with
    | error e =>
      -- the function fails here, so the filter keeps the row and the error comes either way
      have hkept := hr.resolve_right (by simp [hf])
      simp only [mapRows, hf, hkept]
    | ok passed =>
      obtain ⟨image, rfl, hid, htruth⟩ := himage passed hf
      simp only [mapRows, hf, RowRule.apply, htruth] at ih ⊢
      cases evaluator.evalTruth r.values with
      | error e => rfl
      | ok truth =>
        -- a row that is dropped has an image to drop behind the function
        by_cases hdropped : truth = negated
        · simpa [hdropped, bind, Except.bind, pure, Except.pure] using ih
        · simpa [hdropped, hf, bind, Except.bind, pure, Except.pure, mapRows, ids_row, hid] using
            congrArg ((r.id :: ·) <$> ·) ih

/-- A sieve lets rows of the stream through, as they are. -/
theorem mem_rows_of_isSieve (hf : IsSieve f) {row : Row} (h : row ∈ (s.mapRows f).rows) :
    row ∈ s.rows := by
  obtain ⟨kept, hkept, himages⟩ := exists_kept_mapRows f s
  obtain ⟨origin, horigin, himage⟩ := exists_mem_of_forall₂ himages h
  rw [hf origin row himage]
  exact hkept.mem horigin

/-- A function that gets through a whole stream fails on none of its rows. -/
theorem exists_passed_of_ids {ids : List Nat} (h : (s.mapRows f).ids = .ok ids) :
    ∀ row ∈ s.rows, ∃ passed, f row = .ok passed := by
  induction s generalizing ids with
  | ended | failed e => exact nofun
  | row r rest ih =>
    rw [mapRows] at h
    cases hr : f r with
    | error e =>
      rw [hr] at h
      cases h
    | ok passed =>
      rw [hr] at h
      refine List.forall_mem_cons.2 ⟨⟨passed, hr⟩, ?_⟩
      -- a row that is passed over leaves the numbers to the rest
      cases passed with
      | none => exact ih h
      | some image =>
        obtain ⟨ids, hids, -⟩ := map_eq_ok_iff.1 ((ids_row image _).symm.trans h)
        exact ih hids

/-- A stream that ends normally behind a function does so in front of it. -/
theorem exists_ids_of_mapRows {ids : List Nat} (h : (s.mapRows f).ids = .ok ids) :
    ∃ ids, s.ids = .ok ids := by
  obtain ⟨out, hout, -⟩ := map_eq_ok_iff.1 h
  obtain ⟨rows, hrows, -⟩ := bind_eq_ok_iff.1 ((result_mapRows f s out).1 hout)
  exact ⟨rows.map Row.id, map_eq_ok_iff.2 ⟨rows, hrows, rfl⟩⟩

end

end RowStream

/-! ## Filters and transforms that rearrange columns -/

section
variable {entropy : Entropy} {schema output : Schema} {e : Expr} {t : Transform} {rule : RowRule}
  (ht : t.Rearranges schema e.references) (h : t.openOn entropy schema = .ok (.each rule, output))
  (hnamed : ∀ c ∈ e.references, ∃ name, c = .name name) {evaluator evaluator' : Evaluator}
  (hprep : e.prepare schema = .ok evaluator) (hprep' : e.prepare output = .ok evaluator')
  {s : RowStream} (hs : s.HasWidth schema.width)
include ht h hnamed hprep hprep' hs

/-- What is passed on has the number of its row, and a filter finds the same truth for both. -/
theorem Transform.same_truth_of_rearranges :
    ∀ row ∈ s.rows, ∀ passed, rule.apply row = .ok passed → ∃ image, passed = some image ∧
      image.id = row.id ∧ evaluator'.evalTruth image.values = evaluator.evalTruth row.values := by
  intro row hrow passed hpassed
  obtain ⟨image, rfl⟩ := t.exists_image_of_rearranges ht h hpassed
  exact ⟨image, rfl, (t.descends_of_openOn h hpassed).id,
    t.evalTruth_eq_of_rearranges ht hnamed hprep h hprep' (hs.length_of_mem row hrow) hpassed⟩

/-- A filter keeps the same rows with the transform in front of it, behind it or without it, if the
    transform fails on no row. -/
theorem RowStream.ids_filter_of_rearranges (negated : Bool)
    (himages : ∀ row ∈ s.rows, ∃ passed, rule.apply row = .ok passed) :
    ((s.mapRows rule.apply).mapRows (RowRule.filter evaluator' negated).apply).ids =
        (s.mapRows (RowRule.filter evaluator negated).apply).ids ∧
      ((s.mapRows (RowRule.filter evaluator negated).apply).mapRows rule.apply).ids =
        (s.mapRows (RowRule.filter evaluator negated).apply).ids := by
  have himages : ∀ row ∈ s.rows, ∃ image, rule.apply row = .ok (some image) ∧
      image.id = row.id ∧ evaluator'.evalTruth image.values = evaluator.evalTruth row.values := by
    intro row hrow
    obtain ⟨passed, hpassed⟩ := himages row hrow
    obtain ⟨image, rfl, himage⟩ :=
      t.same_truth_of_rearranges ht h hnamed hprep hprep' hs row hrow passed hpassed
    exact ⟨image, hpassed, himage⟩
  refine ⟨ids_filter_mapRows negated himages, ids_mapRows fun row hrow => ?_⟩
  -- behind the filter there are only rows that have been in front of it
  obtain ⟨image, himage, hid, -⟩ :=
    himages row (mem_rows_of_isSieve (isSieve_filter evaluator negated) hrow)
  exact ⟨image, himage, hid⟩

/-- The numbers of rows come out behind the transform and a filter just if the transform fails on no
    row and the filter alone lets these numbers out. -/
theorem RowStream.ids_filter_of_rearranges_eq_ok_iff (negated : Bool) (ids : List Nat) :
    ((s.mapRows rule.apply).mapRows (RowRule.filter evaluator' negated).apply).ids = .ok ids ↔
      (s.mapRows (RowRule.filter evaluator negated).apply).ids = .ok ids ∧
        ∀ row ∈ s.rows, ∃ passed, rule.apply row = .ok passed := by
  have hfilter := ids_filter_of_rearranges ht h hnamed hprep hprep' hs negated
  constructor
  · intro hids
    -- what comes through the filter has come through the transform
    obtain ⟨between, hbetween⟩ := exists_ids_of_mapRows hids
    have himages := exists_passed_of_ids hbetween
    exact ⟨(hfilter himages).1.symm.trans hids, himages⟩
  · rintro ⟨hids, himages⟩
    exact (hfilter himages).1.trans hids

end

namespace Transform

variable (entropy : Entropy) {schema : Schema}

theorem openOn_filter {e : Expr} {evaluator : Evaluator} (hprep : e.prepare schema = .ok evaluator)
    (negated : Bool) :
    (filter e negated).openOn entropy schema = .ok (.each (.filter evaluator negated), schema) := by
  rw [openOn, hprep]
  rfl

/-- Where columns are rearranged nothing is drawn, so what cannot be opened on one tape cannot be
    opened on any. -/
theorem effect_of_rearranges_error {other : Entropy} {references : List Column} {t : Transform}
    (ht : t.Rearranges schema references) {error : Error}
    (h : t.openOn other schema = .error error) (ts : List Transform) :
    effect entropy schema (t :: ts) = .error error := by
  -- no transform of this kind is a sample
  have hdraws : t.draws = 0 := by cases ht <;> rfl
  have hagree : Entropy.AgreeUpTo t.draws entropy other := by
    rw [hdraws]
    exact Entropy.agreeUpTo_zero entropy other
  rw [effect_cons, openOn_congr hagree, h]
  rfl

end Transform

namespace Pipeline

open Transform (effect effect_append effect_nil effect_of_rule effect_of_rearranges_error)

variable {α : Type}

/-- The rows that come out of the transforms of a pipeline, and none if they do not open. -/
def arrivals (pipeline : Pipeline Step α) (session : Session α) : List Row :=
  match pipeline.opening session.fresh session.files session.spent with
  | .ok launch => launch.stream.rows
  | .error _ => []

section
variable {source : Source} {before : List Transform} (options : Options α) {session : Session α}
  {schema input : Schema} {f : RowStream → RowStream}
  (hinput : source.schema session.files = .ok input)
  (hbefore : effect session.fresh input before = .ok (schema, f))
include hinput hbefore

/-- The numbers of the rows that are collected behind transforms that have opened. -/
theorem ids_collectRows (ts : List Transform) :
    List.map Row.id <$> ((ofTransforms source (before ++ ts) options).collectRows session).1 = (do
      let (_, g) ← effect (session.fresh.drop (Transform.drawn before)) schema ts
      let items ← (source.openOn session.files session.spent).1
      (g (f (.ofItems input.width items))).ids) := by
  simp only [collectRows_eq_effect, hinput, effect_append, hbefore, ok_bind, bind_assoc, pure_bind,
    map_bind, RowStream.ids]

/-- The effect of transforms on the items of the source is what arrives behind them. -/
theorem arrivals_of_effect :
    (ofTransforms source before options).arrivals session =
      match (source.openOn session.files session.spent).1 with
      | .ok items => (f (.ofItems input.width items)).rows
      | .error _ => [] := by
  obtain ⟨assembly, hassembly, heffect⟩ := bind_eq_ok_iff.1 hbefore
  obtain ⟨-, rfl⟩ := Prod.mk.inj (Except.ok.inj heffect)
  simp only [arrivals, opening, Pipeline.assembly, ofTransforms, hinput, hassembly, ok_bind,
    pure_bind]
  cases (source.openOn session.files session.spent).1 <;> rfl

end

/-- **Expressions depend on the columns they name.** Evaluators of an expression without aggregates,
    all of whose references are by name, give the same value or the same error on two rows of two
    schemas that hold the same values under these names.

    So a filter keeps the same rows, by their numbers, before and behind a transform that moves
    columns, selects columns among which are those of the predicate, or inserts new ones: the same
    as if there were no such transform, or with the same error. If values are computed for
    insertion, this is so if they can be computed for all rows that arrive, and the order does not
    matter if they can be computed for those that the filter does not keep. Rows come through the
    insertion and the filter behind it only if the values can be computed for all rows; then they
    are those that the filter keeps. Where the transform does not open, all fail with its error. -/
theorem depends_on_named_columns (e : Expr) (hstreamable : e.streamable = true)
    (hnamed : ∀ c ∈ e.references, ∃ name, c = .name name) :
    (∀ (schema schema' : Schema) (row row' : List Value),
      row.length = schema.width → row'.length = schema'.width →
      (∀ name, .name name ∈ e.references → ∃ position position',
        schema.resolve (.name name) = .ok position ∧
          schema'.resolve (.name name) = .ok position' ∧ row[position]? = row'[position']?) →
      ∃ evaluator evaluator', e.prepare schema = .ok evaluator ∧
        e.prepare schema' = .ok evaluator' ∧ evaluator.eval row = evaluator'.eval row') ∧
    ∀ {α : Type} (source : Source) (before : List Transform) (t : Transform) (negated : Bool)
      (options : Options α) (session : Session α) (entropy : Entropy) (schema : Schema),
      (ofTransforms source before options).outputSchema session.fresh session.files = .ok schema →
      (∀ c ∈ e.references, schema.Has c) → t.Rearranges schema e.references →
      let arrivals := (ofTransforms source before options).arrivals session
      let survivors (ts : List Transform) : Except Error (List Nat) :=
        List.map Row.id <$> ((ofTransforms source (before ++ ts) options).collectRows session).1
      (∀ error, t.openOn entropy schema = .error error →
        survivors [t, .filter e negated] = .error error ∧
          survivors [.filter e negated, t] = .error error) ∧
      ∀ stage output, t.openOn entropy schema = .ok (stage, output) →
        ∃ rule evaluator, stage = .each rule ∧ e.prepare schema = .ok evaluator ∧
          let kept (row : Row) := (RowRule.filter evaluator negated).apply row = .ok (some row)
          let computed (row : Row) := ∃ passed, rule.apply row = .ok passed
          (¬ t.Computes → ∀ row ∈ arrivals, computed row) ∧
          ((∀ row ∈ arrivals, computed row) →
            survivors [t, .filter e negated] = survivors [.filter e negated] ∧
              survivors [.filter e negated, t] = survivors [.filter e negated]) ∧
          ((∀ row ∈ arrivals, kept row ∨ computed row) →
            survivors [t, .filter e negated] = survivors [.filter e negated, t]) ∧
          ∀ ids, survivors [t, .filter e negated] = .ok ids ↔
            survivors [.filter e negated] = .ok ids ∧ ∀ row ∈ arrivals, computed row := by
  refine ⟨fun schema schema' row row' hrow hrow' hshares => ?_, ?_⟩
  · have hshares : ∀ c ∈ e.references, SharesAt schema schema' row row' c := by
      intro c hc
      obtain ⟨name, rfl⟩ := hnamed c hc
      exact hshares name hc
    exact e.exists_eval_eq_of_sharesAt hstreamable hrow hrow' hshares
  intro α source before t negated options session entropy schema hschema hhas ht arrivals survivors
  obtain ⟨input, f, hinput, hbefore⟩ := exists_effect_of_outputSchema hschema
  obtain ⟨evaluator, hprep⟩ := e.exists_prepare_iff.2 ⟨hstreamable, hhas⟩
  have hfilter := Transform.openOn_filter entropy hprep negated
  have hsurvivors := ids_collectRows options hinput hbefore
  refine ⟨fun error h => ?_, fun stage output h => ?_⟩
  · simp only [survivors, hsurvivors, effect_of_rule hfilter, effect_of_rearranges_error _ ht h]
    exact ⟨rfl, rfl⟩
  obtain ⟨rule, rfl⟩ := t.exists_rule_of_rearranges ht h
  obtain ⟨evaluator', hprep'⟩ := t.exists_prepare_of_rearranges ht hnamed hprep h
  have hfilter' := Transform.openOn_filter entropy hprep' negated
  refine ⟨rule, evaluator, rfl, hprep, ?_⟩
  -- all pipelines read the same items, and the transforms open to these rules
  simp only [survivors, hsurvivors, effect_of_rule h, effect_of_rule hfilter,
    effect_of_rule hfilter', effect_nil, pure_bind, id_eq]
  have harrivals := arrivals_of_effect options hinput hbefore
  simp only [arrivals, harrivals]
  cases (source.openOn session.files session.spent).1 with
  | error error =>
    exact ⟨fun _ => nofun, fun _ => ⟨rfl, rfl⟩, fun _ => rfl, fun ids => ⟨nofun, nofun⟩⟩
  | ok items =>
    have hs : (f (.ofItems input.width items)).HasWidth schema.width :=
      Transform.hasWidth_of_effect hbefore (RowStream.hasWidth_ofItems _ _)
    refine ⟨fun hcomputes row hrow => ?_, ?_, ?_, ?_⟩
    · obtain ⟨image, himage⟩ :=
        t.exists_image_of_not_computes ht h hcomputes (hs.length_of_mem row hrow)
      exact ⟨some image, himage⟩
    · exact RowStream.ids_filter_of_rearranges ht h hnamed hprep hprep' hs negated
    · exact RowStream.ids_mapRows_swap negated
        (t.same_truth_of_rearranges ht h hnamed hprep hprep' hs)
    · exact RowStream.ids_filter_of_rearranges_eq_ok_iff ht h hnamed hprep hprep' hs negated

/-- Three guests with their ages. -/
def guests : Table :=
  ⟨⟨[⟨"name", .utf8⟩, ⟨"age", .int64⟩]⟩,
    [[.utf8 "ann", .int64 17], [.utf8 "bob", .int64 30], [.utf8 "cyd", .int64 18]]⟩

/-- Whether a guest is of age. -/
def ofAge : Expr := .binary .ge (.column (.name "age")) (.literal (.int64 18))

/-- The age in one year, in front of the other columns. -/
def nextAge : Transform :=
  .insert ["next"] (some 0) [.binary .add (.column (.name "age")) (.literal (.int64 1))]

/-- The guests of age are the same when another age stands where the first column was, since all
    ages have a successor. -/
theorem guests_of_age :
    ofAge.streamable = true ∧ (∀ c ∈ ofAge.references, ∃ name, c = .name name) ∧
      (∀ c ∈ ofAge.references, guests.schema.Has c) ∧
      nextAge.Rearranges guests.schema ofAge.references ∧
      let pipeline (ts : List Transform) : Pipeline Step Unit :=
        ofTransforms (.table guests) ts .unobserved
      let survivors (ts : List Transform) : Except Error (List Nat) :=
        List.map Row.id <$> ((pipeline ts).collectRows (.start .empty ())).1
      (pipeline []).outputSchema (.seeded 0) .empty = .ok guests.schema ∧
        survivors [nextAge, .filter ofAge false] = survivors [.filter ofAge false, nextAge] ∧
        survivors [nextAge, .filter ofAge false] = .ok [1, 2] := by
  have hnamed : ∀ c ∈ ofAge.references, ∃ name, c = .name name := by
    intro c hc
    obtain rfl := List.mem_singleton.1 hc
    exact ⟨"age", rfl⟩
  have hhas : ∀ c ∈ ofAge.references, guests.schema.Has c := by
    intro c hc
    obtain rfl := List.mem_singleton.1 hc
    exact ⟨1, rfl⟩
  have hrearranges : nextAge.Rearranges guests.schema ofAge.references := .insert _ _ _
  have harrivals : (ofTransforms (.table guests) [] (.unobserved : Options Unit)).arrivals
      (.start .empty ()) = guests.numberedRows := rfl
  have hofAge : List.map Row.id <$> ((ofTransforms (.table guests) [.filter ofAge false]
      (.unobserved : Options Unit)).collectRows (.start .empty ())).1 = .ok [1, 2] := by
    decide +kernel
  obtain ⟨-, hfilters⟩ := depends_on_named_columns ofAge rfl hnamed
  obtain ⟨-, hfilters⟩ := hfilters (.table guests) [] nextAge false (.unobserved : Options Unit)
    (.start .empty ()) (.seeded 0) guests.schema rfl hhas hrearranges
  obtain ⟨rule, output, hopen, hcomputed⟩ : ∃ rule output,
      nextAge.openOn (.seeded 0) guests.schema = .ok (.each rule, output) ∧
        ∀ row ∈ guests.numberedRows, ∃ passed, rule.apply row = .ok passed :=
    ⟨_, _, rfl, List.forall_mem_cons.2 ⟨⟨_, rfl⟩, List.forall_mem_cons.2 ⟨⟨_, rfl⟩,
      List.forall_mem_cons.2 ⟨⟨_, rfl⟩, nofun⟩⟩⟩⟩
  obtain ⟨_, _, hrule, -, -, -, hswap, hids⟩ := hfilters _ _ hopen
  obtain rfl := Stage.each.inj hrule
  rw [harrivals] at hswap hids
  exact ⟨rfl, hnamed, hhas, hrearranges, rfl, hswap fun row hrow => .inr (hcomputed row hrow),
    (hids _).2 ⟨hofAge, hcomputed⟩⟩

/-- Two numbers, the greatest of all and a small one. -/
def extremes : Table := ⟨⟨[⟨"n", .int64⟩]⟩, [[.int64 Int64.maxValue], [.int64 1]]⟩

/-- Whether a number has one digit. -/
def oneDigit : Expr := .binary .lt (.column (.name "n")) (.literal (.int64 10))

def successor : Transform :=
  .insert ["m"] none [.binary .add (.column (.name "n")) (.literal (.int64 1))]

/-- The values that are inserted are computed for every row, so a row that the filter would have
    dropped makes the pipeline fail when the insertion comes first. -/
theorem insertion_overflows_in_front :
    let survivors (ts : List Transform) : Except Error (List Nat) :=
      List.map Row.id <$>
        ((ofTransforms (.table extremes) ts (.unobserved : Options Unit)).collectRows
          (.start .empty ())).1
    oneDigit.streamable = true ∧ oneDigit.references = [.name "n"] ∧
      extremes.schema.Has (.name "n") ∧
      successor.Rearranges extremes.schema oneDigit.references ∧
      survivors [.filter oneDigit false, successor] = .ok [1] ∧
      survivors [successor, .filter oneDigit false] =
        .error (.evaluation (.integerOverflow .add Int64.maxValue 1)) := by
  intro survivors
  exact ⟨rfl, rfl, ⟨0, rfl⟩, .insert _ _ _, by decide +kernel, by decide +kernel⟩

end Pipeline

end RowFlow
