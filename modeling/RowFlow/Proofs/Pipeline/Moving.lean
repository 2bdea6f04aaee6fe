import RowFlow.Proofs.Pipeline.Effects
import RowFlow.Proofs.Step.Moving
import RowFlow.Proofs.Stream.Mapping

/-!
# Moved Columns in a Pipeline

A move puts the columns of a schema and the values of all rows in one new order, in which no column
is lost or repeated, and a selection of the old names behind it puts them back, wherever the two are
in a pipeline (`Pipeline.moved_columns_are_permuted`).
-/

namespace RowFlow

/-! ## Rows in a new order -/

namespace RowStream

variable {s : RowStream} {width : Nat} {order : List Nat}

theorem result_mapRows_project (hs : s.HasWidth width) (positions : List Nat) :
    (s.mapRows (RowRule.project width positions).apply).result =
      List.map (fun row => row.withValues (pick positions row.values)) <$> s.result :=
  result_mapRows_of_images fun row hrow =>
    RowRule.apply_project positions (hs.length_of_mem row hrow)

/-- Values that come in a new order go back to their places. -/
theorem mapRows_project_idxOf (hs : s.HasWidth width) (horder : order.Perm (List.range width)) :
    (s.mapRows (RowRule.project width order).apply).mapRows
      (RowRule.project width ((List.range width).map (order.idxOf ·))).apply = s := by
  refine mapRows_restored fun row hrow => ?_
  obtain rfl : row.values.length = width := hs.length_of_mem row hrow
  have hpicked : (row.withValues (pick order row.values)).length = row.values.length :=
    (perm_pick horder).length_eq
  refine ⟨_, RowRule.apply_project order rfl, ?_⟩
  rw [RowRule.apply_project _ hpicked]
  simp only [Row.withValues, pick_idxOf_pick horder]

end RowStream

namespace Pipeline

open Transform (effect effect_nil effect_of_rule)

section
variable {α : Type} {source : Source} {before : List Transform} {options : Options α}
  {session : Session α} {entropy : Entropy} {schema output : Schema} {t t' : Transform}
  {order : List Nat}
  (hschema : (ofTransforms source before options).outputSchema session.fresh session.files =
    .ok schema)
include hschema

/-- A transform that projects rows does so with all rows that are collected in front of it. -/
theorem collectRows_project {positions : List Nat}
    (h : t.openOn entropy schema = .ok (.each (.project schema.width positions), output)) :
    ((ofTransforms source (before ++ [t]) options).collectRows session).1 =
      List.map (fun row => row.withValues (pick positions row.values)) <$>
        ((ofTransforms source (before ++ []) options).collectRows session).1 := by
  obtain ⟨stream, hwidth, hcollected⟩ := exists_stream_behind hschema
  simp only [hcollected, effect_of_rule h, effect_nil, pure_bind, map_bind, id_eq]
  cases hstream : stream with
  | error e => rfl
  | ok s => exact RowStream.result_mapRows_project (hwidth s hstream) positions

variable (horder : order.Perm (List.range schema.width))
  (h : t.openOn entropy schema = .ok (.each (.project schema.width order), output))
  (h' : t'.openOn entropy output = .ok
    (.each (.project schema.width ((List.range schema.width).map (order.idxOf ·))), schema))
include horder h h'

/-- Two transforms, of which the second one puts values back in order, can be left out. -/
theorem collectRows_project_idxOf (after : List Transform) :
    ((ofTransforms source (before ++ t :: t' :: after) options).collectRows session).1 =
      ((ofTransforms source (before ++ after) options).collectRows session).1 := by
  obtain ⟨stream, hwidth, hcollected⟩ := exists_stream_behind hschema
  simp only [hcollected, effect_of_rule h, effect_of_rule h', bind_assoc, pure_bind]
  cases hstream : stream with
  | error e => rfl
  | ok s => simp only [ok_bind, RowStream.mapRows_project_idxOf (hwidth s hstream) horder]

end

/-- **Moved columns are permuted.** On a schema with different names, a move opens exactly if its
    position is at most the width and its references resolve, all to different columns. Then the
    moved fields stand together, as they are given, behind as many of the others as the position
    says, or behind all of them, and the others stay in order. So the fields come in a new order of
    all positions, each row has its values in the same order, and a selection of the old names
    behind the move gives schema and rows as they were, for whatever comes next. The runs that are
    compared draw from the same tape. -/
theorem moved_columns_are_permuted (entropy : Entropy) (schema : Schema)
    (hnames : schema.names.Nodup) (columns : List Column) (position : Nat) :
    ((∃ stage output,
        (Transform.move columns position).openOn entropy schema = .ok (stage, output)) ↔
      position ≤ schema.width ∧ (∀ c ∈ columns, schema.Has c) ∧
        columns.Pairwise fun c c' => schema.resolve c ≠ schema.resolve c') ∧
    ∀ stage output, (Transform.move columns position).openOn entropy schema = .ok (stage, output) →
      ∃ moved order rule, schema.resolveEach columns = .ok moved ∧
        (let others := schema.fields.filter (· ∉ pick moved schema.fields)
         let place := min position others.length
         output.fields = others.take place ++ pick moved schema.fields ++ others.drop place) ∧
        order.Perm (List.range schema.width) ∧ output.fields = pick order schema.fields ∧
        output.fields.Perm schema.fields ∧ stage = .each rule ∧
        (∀ row : Row, row.length = schema.width →
          rule.apply row = .ok (some (row.withValues (pick order row.values)))) ∧
        ∀ {α : Type} (source : Source) (before after : List Transform) (options : Options α)
          (session : Session α),
          (ofTransforms source before options).outputSchema session.fresh session.files =
            .ok schema →
          let collected (ts : List Transform) : Except Error (List Row) :=
            ((ofTransforms source (before ++ ts) options).collectRows session).1
          let move := Transform.move columns position
          let old := Transform.select (schema.names.map .name) none
          collected [move] =
              List.map (fun row => row.withValues (pick order row.values)) <$> collected [] ∧
            (ofTransforms source (before ++ [move, old]) options).outputSchema session.fresh
              session.files = .ok schema ∧
            collected (move :: old :: after) = collected after := by
  refine ⟨Transform.exists_openOn_move_iff hnames, fun stage output h => ?_⟩
  obtain ⟨-, moved, hmoved, hnodup, rfl, rfl⟩ := (Transform.openOn_move_eq_ok_iff hnames).1 h
  have hfields : schema.fields.Nodup := List.Nodup.of_map Field.name hnames
  have horder : (moveOrder schema.width moved position).Perm (List.range schema.width) :=
    moveOrder_perm_range (Schema.lt_width_of_resolveEach hmoved) hnodup
  refine ⟨moved, moveOrder schema.width moved position, _, hmoved, pick_moveOrder hfields position,
    horder, rfl, perm_pick horder, rfl, fun row hrow => RowRule.apply_project _ hrow, ?_⟩
  intro α source before after options session hschema collected move old
  -- the old names select from the places that undo the order
  have hold := Transform.openOn_select_names entropy hnames horder
  refine ⟨collectRows_project hschema h, ?_, collectRows_project_idxOf hschema horder h hold after⟩
  rw [outputSchema_behind hschema, effect_of_rule h, effect_of_rule hold]
  rfl

/-- Measurements of two days at three places. -/
def stations : Table :=
  ⟨⟨[⟨"day", .int64⟩, ⟨"north", .int64⟩, ⟨"east", .int64⟩, ⟨"south", .int64⟩]⟩,
    [[.int64 1, .int64 10, .int64 20, .int64 30], [.int64 2, .int64 11, .null, .int64 31]]⟩

/-- There are only two other columns to move columns behind, and the day comes last. -/
theorem stations_moved :
    stations.schema.names.Nodup ∧
      let move := Transform.move [.name "south", .index 0] 3
      let old := Transform.select (stations.schema.names.map .name) none
      let collected (ts : List Transform) : Except Error (List Row) :=
        ((ofTransforms (.table stations) ts .unobserved).collectRows (.start .empty ())).1
      collected [move] = .ok [⟨0, [.int64 10, .int64 20, .int64 30, .int64 1]⟩,
          ⟨1, [.int64 11, .null, .int64 31, .int64 2]⟩] ∧
        collected [move, old] = .ok [⟨0, [.int64 1, .int64 10, .int64 20, .int64 30]⟩,
          ⟨1, [.int64 2, .int64 11, .null, .int64 31]⟩] := by
  have hnames : stations.schema.names.Nodup := by decide
  obtain ⟨hopens, hmoved⟩ :=
    moved_columns_are_permuted (.seeded 0) stations.schema hnames [.name "south", .index 0] 3
  have hcolumns : ∀ c ∈ [Column.name "south", .index 0], stations.schema.Has c := by
    simp only [List.forall_mem_cons]
    exact ⟨⟨3, rfl⟩, ⟨0, rfl⟩, nofun⟩
  obtain ⟨stage, output, h⟩ := hopens.2 ⟨by decide, hcolumns, by decide +kernel⟩
  obtain ⟨moved, order, rule, -, -, -, -, -, -, -, hruns⟩ := hmoved stage output h
  obtain ⟨-, -, hback⟩ := hruns (.table stations) [] [] .unobserved (.start .empty ()) rfl
  exact ⟨hnames, rfl, hback.trans rfl⟩

end Pipeline

end RowFlow
