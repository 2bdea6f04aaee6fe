import RowFlow.Proofs.Pipeline.Effects
import RowFlow.Proofs.Step.Recasting
import RowFlow.Proofs.Stream.Mapping

/-!
# Casts Made Again in a Pipeline

A typecast whose casts are of different columns does nothing when it comes once more, on whatever
stream, and a column of whole numbers, or one of truth values, that is cast to text and back holds
what it held (`Pipeline.recasts_settle`).
-/

namespace RowFlow

/-! ## Effects -/

namespace Transform

variable {schema : Schema}

theorem effect_typecast_again {casts : List (Column × ColumnType)}
    (hdistinct : schema.CastsOnce casts) (entropy : Entropy) :
    effect entropy schema [.typecast casts, .typecast casts] =
      effect entropy schema [.typecast casts] := by
  cases h : (typecast casts).openOn entropy schema with
  | error e =>
    rw [effect_cons, effect_cons, h]
    rfl
  | ok opened =>
    obtain ⟨stage, output⟩ := opened
    -- the second typecast is opened behind the first one, and becomes the same rule
    have hagain := openOn_typecast_again hdistinct h entropy
    obtain ⟨resolved, rfl, honce, hrange⟩ := exists_rule_of_typecast hdistinct h
    have hkeeps : ∀ row image,
        (RowRule.cast schema.width schema.names resolved).apply row = .ok (some image) →
          (RowRule.cast schema.width schema.names resolved).apply image = .ok (some image) :=
      fun _ _ => RowRule.apply_cast_again honce hrange
    have hrule := RowStream.mapRows_again hkeeps
    simp only [effect_of_rule h, effect_of_rule hagain, effect_nil, pure_bind, id_eq, hrule]

/-- Casts of one column to text and back to a type open to two rules. -/
theorem exists_effect_cast_back (hnames : schema.names.Nodup) {column : Column} {position : Nat}
    (hposition : schema.resolve column = .ok position) (type : ColumnType) (entropy : Entropy) :
    let rule (type : ColumnType) : RowRule :=
      .cast schema.width schema.names [(position, type)]
    ∃ output, effect entropy schema [.typecast [(column, .utf8)], .typecast [(column, type)]] =
      .ok (output, fun s => (s.mapRows (rule .utf8).apply).mapRows (rule type).apply) := by
  intro rule
  obtain ⟨between, htext, hsame⟩ := exists_openOn_typecast entropy hnames hposition .utf8
  have hposition' : between.resolve column = .ok position := by
    rwa [Schema.resolve_eq_ok_iff, Schema.position?_congr hsame, ← Schema.resolve_eq_ok_iff]
  obtain ⟨output, hback, -⟩ := exists_openOn_typecast entropy (hsame ▸ hnames) hposition' type
  rw [hsame, Schema.width_congr hsame] at hback
  exact ⟨output, by simp only [effect_of_rule htext, effect_of_rule hback, effect_nil]; rfl⟩

end Transform

/-- A column that holds only values of a type gets them back from their texts. -/
theorem RowStream.mapRows_cast_back {s : RowStream} {width position : Nat} (hs : s.HasWidth width)
    (hposition : position < width) {type : ColumnType} (hfloat : type ≠ .float64)
    (hvalues : ∀ row ∈ s.rows, ∀ v, row.values[position]? = some v → v.Fits type ∧ v.Tidy)
    (names : List String) :
    (s.mapRows (RowRule.cast width names [(position, .utf8)]).apply).mapRows
      (RowRule.cast width names [(position, type)]).apply = s :=
  mapRows_restored fun row hrow =>
    RowRule.apply_cast_back hposition hfloat (hs.length_of_mem row hrow) (hvalues row hrow)

namespace Pipeline

open Transform (effect effect_nil effect_typecast_again exists_effect_cast_back)

/-- **Casts settle.** A typecast whose casts are of different columns has the same effect twice as
    once: it opens to the same schema or with the same error, and makes the same of every stream. So
    it can come once more wherever it is in a pipeline, and the same rows are collected, or the
    same error. Where the schema has distinct names, as all schemas do that are built from fields,
    and a column holds only whole numbers and nulls, or only truth values and nulls, a cast to text
    and a cast back give exactly the rows that would be collected without them. The runs that are
    compared draw from the same tape. -/
theorem recasts_settle :
    (∀ (entropy : Entropy) (schema : Schema) (casts : List (Column × ColumnType)),
      schema.CastsOnce casts →
      effect entropy schema [.typecast casts, .typecast casts] =
        effect entropy schema [.typecast casts]) ∧
    ∀ {α : Type} (source : Source) (before : List Transform) (options : Options α)
      (session : Session α),
      let collected (ts : List Transform) : Except Error (List Row) :=
        ((ofTransforms source (before ++ ts) options).collectRows session).1
      (∀ casts after,
        (∀ schema,
          (ofTransforms source before options).outputSchema session.fresh session.files =
            .ok schema → schema.CastsOnce casts) →
        collected (.typecast casts :: .typecast casts :: after) =
          collected (.typecast casts :: after)) ∧
      ∀ schema column position type rows,
        (ofTransforms source before options).outputSchema session.fresh session.files =
          .ok schema →
        schema.names.Nodup → schema.resolve column = .ok position →
        type = .int64 ∨ type = .bool → collected [] = .ok rows →
        (∀ row ∈ rows, ∀ v, row.values[position]? = some v → v.Fits type) →
        collected [.typecast [(column, .utf8)], .typecast [(column, type)]] = .ok rows := by
  refine ⟨fun entropy schema casts hdistinct => effect_typecast_again hdistinct entropy, ?_⟩
  intro α source before options session collected
  refine ⟨fun casts after hdistinct => ?_, ?_⟩
  · have hdrawn : Transform.drawn [.typecast casts, .typecast casts] =
        Transform.drawn [.typecast casts] := rfl
    have hcongr := collectRows_congr_behind hdrawn
      (fun schema hschema => effect_typecast_again (hdistinct schema hschema)) after
    simpa [collected] using hcongr
  · intro schema column position type rows hschema hnames hposition htype hrows hfits
    have hlt := Schema.lt_width_of_resolve hposition
    obtain ⟨stream, hwidth, hcollected⟩ := exists_stream_behind hschema
    obtain ⟨output, hback⟩ := exists_effect_cast_back hnames hposition type
      (session.fresh.drop (Transform.drawn before))
    simp only [collected, hcollected, effect_nil, hback, pure_bind, ok_bind, id_eq] at hrows ⊢
    obtain ⟨s, hs, hresult⟩ := bind_eq_ok_iff.1 hrows
    -- a stream that ends normally has just the rows that are collected
    have hvalues : ∀ row ∈ s.rows, ∀ v, row.values[position]? = some v → v.Fits type ∧ v.Tidy := by
      rw [RowStream.rows_of_result hresult]
      intro row hrow v hv
      have hv := hfits row hrow v hv
      exact ⟨hv, Value.tidy_of_fits hv (by rcases htype with rfl | rfl <;> nofun)⟩
    have hfloat : type ≠ .float64 := by rcases htype with rfl | rfl <;> nofun
    rw [hs, ok_bind, RowStream.mapRows_cast_back (hwidth s hs) hlt hfloat hvalues, hresult]

/-- Amounts, with notes of various kinds. -/
def ledger : Table :=
  ⟨⟨[⟨"note", .utf8⟩, ⟨"amount", .int64⟩]⟩,
    [[.utf8 "\u2003late ", .int64 (-9223372036854775808)], [.tuple [.bool true, .utf8 " "], .null],
     [.utf8 "\t", .int64 7]]⟩

/-- All cells are cast to text, twice or once, and amounts are cast to text and back. -/
theorem ledger_recast :
    let texts : List (Column × ColumnType) := [(.name "note", .utf8), (.index 1, .utf8)]
    let collected (ts : List Transform) : Except Error (List Row) :=
      ((ofTransforms (.table ledger) ts .unobserved).collectRows (.start .empty ())).1
    ledger.schema.CastsOnce texts ∧
      collected [.typecast texts, .typecast texts] =
        .ok [⟨0, [.utf8 "late", .utf8 "-9223372036854775808"]⟩, ⟨1, [.utf8 "(true,  )", .null]⟩,
          ⟨2, [.null, .utf8 "7"]⟩] ∧
      collected [.typecast [(.index 1, .utf8)], .typecast [(.index 1, .int64)]] =
        .ok (ledger.numberedRows) := by
  intro texts collected
  have honce : ledger.schema.CastsOnce texts := by decide
  have hschema : (ofTransforms (.table ledger) [] (.unobserved : Options Unit)).outputSchema
      (Session.start .empty ()).fresh .empty = .ok ledger.schema := rfl
  obtain ⟨htwice, hback⟩ := recasts_settle.2 (.table ledger) [] .unobserved (.start .empty ())
  simp only [List.nil_append] at htwice hback
  have htexts : collected [.typecast texts] =
      .ok [⟨0, [.utf8 "late", .utf8 "-9223372036854775808"]⟩, ⟨1, [.utf8 "(true,  )", .null]⟩,
        ⟨2, [.null, .utf8 "7"]⟩] := by cbv
  refine ⟨honce, ?_, ?_⟩
  · rw [← htexts]
    refine htwice texts [] fun schema h => ?_
    obtain rfl := Except.ok.inj (hschema.symm.trans h)
    exact honce
  · have hrows : collected [] = .ok ledger.numberedRows := by cbv
    exact hback ledger.schema (.index 1) 1 .int64 _ hschema (by decide) rfl (.inl rfl) hrows
      (by decide)

end Pipeline

end RowFlow
