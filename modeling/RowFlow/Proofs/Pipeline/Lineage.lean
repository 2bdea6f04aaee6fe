import Mathlib
import RowFlow.Proofs.Pipeline.Collections
import RowFlow.Proofs.Stream.Lineage

/-!
# Where Collected Rows Come From

The rows that are collected from a table keep the numbers that the table gave them, and the values
of all columns that can be followed back to it (`Pipeline.collected_rows_descend`): transforms may
repeat, rename and move columns and put others between them, and drop, choose and sort rows, but a
value stays with its row and its column.
-/

namespace RowFlow

variable {α : Type}

/-! ## Lineage -/

/-- The column of the source that a column behind some transforms is taken over from, step by step
    and without a change on the way. -/
def Transform.lineage? (entropy : Entropy) (schema : Schema) : List Transform → Nat → Option Nat
  | [], p => if p < schema.width then some p else none
  | t :: rest, p => match t.openOn entropy schema with
    | .ok (_, output) => (lineage? (entropy.drop t.draws) output rest p).bind (t.origin? schema)
    | .error _ => none

/-- Samples do not touch columns, whatever they draw. -/
theorem Transform.lineage?_congr_tape (entropy other : Entropy) (schema : Schema)
    (ts : List Transform) (p : Nat) :
    Transform.lineage? entropy schema ts p = Transform.lineage? other schema ts p := by
  induction ts generalizing entropy other schema with
  | nil => rfl
  | cons t rest ih =>
    have houtput := t.output_openOn entropy other schema
    rw [lineage?, lineage?]
    cases hopen : t.openOn entropy schema with
    | error e =>
      cases hother : t.openOn other schema with
      | error e' => rfl
      | ok opened =>
        rw [hopen, hother] at houtput
        cases houtput
    | ok opened =>
      obtain ⟨stage, output⟩ := opened
      obtain ⟨stage', hother⟩ := exists_openOn_of_openOn hopen other
      rw [hother]
      exact congrArg (Option.bind · _) (ih _ _ _)

theorem Transform.lineage?_cons {entropy : Entropy} {schema output : Schema} {t : Transform}
    {stage : Stage} (h : t.openOn entropy schema = .ok (stage, output)) (rest : List Transform)
    (p : Nat) :
    Transform.lineage? entropy schema (t :: rest) p =
      (Transform.lineage? (entropy.drop t.draws) output rest p).bind (t.origin? schema) := by
  rw [lineage?, h]

/-- What can be followed back is a column of the output. -/
theorem Transform.lt_width_of_lineage? {entropy : Entropy} {ts : List Transform} {position : Nat}
    {schema : Schema} {assembly : Assembly Stage Collector}
    (h : assemble entropy position schema (ts.map Step.transform) = .ok assembly) {p q : Nat}
    (hpq : Transform.lineage? entropy schema ts p = some q) : p < assembly.schema.width := by
  induction ts generalizing entropy position schema assembly q with
  | nil =>
    obtain rfl := Except.ok.inj h
    exact (Option.ite_none_right_eq_some.1 hpq).1
  | cons t rest ih =>
    obtain ⟨stage, output, behind, hopen, hbehind, rfl⟩ := assemble_cons_eq_ok h
    rw [lineage?_cons hopen] at hpq
    obtain ⟨m, hpm, _⟩ := Option.bind_eq_some_iff.1 hpq
    have hlt : p < behind.schema.width := ih hbehind hpm
    exact hlt

/-- What comes out behind transforms follows what goes in. -/
theorem Transform.follows_of_assemble {entropy : Entropy} {ts : List Transform} {position : Nat}
    {schema : Schema} {assembly : Assembly Stage Collector}
    (h : assemble entropy position schema (ts.map Step.transform) = .ok assembly) (s : RowStream) :
    Follows (Transform.lineage? entropy schema ts) (∀ t ∈ ts, t.KeepsOrder)
      (s.through assembly.producers).rows s.rows := by
  induction ts generalizing entropy position schema assembly s with
  | nil =>
    obtain rfl := Except.ok.inj h
    refine (Follows.of_sublist (List.Sublist.refl s.rows)).mono fun p q hpq => ?_
    exact (Option.ite_none_right_eq_some.1 hpq).2
  | cons t rest ih =>
    obtain ⟨stage, output, behind, hopen, hbehind, rfl⟩ := assemble_cons_eq_ok h
    have hrest := ih hbehind (stage.onStream s)
    have hall := hrest.trans (Transform.follows_of_openOn hopen s)
    rw [← List.forall_mem_cons] at hall
    -- a column is followed back through the transforms behind, then through this one
    exact hall.mono fun p q hpq => lineage?_cons hopen rest p ▸ hpq

/-! ## Collected rows -/

namespace Pipeline

/-- **Values stay with their rows and columns.** Rows that are collected from a table behind
    transforms have numbers of rows of the table, none of them twice, and in increasing order unless
    there is a sort. A column that can be followed back to a column of the table has in each row the
    value that the table has there, in the row of this number. -/
theorem collected_rows_descend (table : Table) (ts : List Transform) (options : Options α)
    (session : Session α) {rows : List Row}
    (h : ((ofTransforms (.table table) ts options).collectRows session).1 = .ok rows) :
    (rows.map Row.id).Nodup ∧
      ((∀ t ∈ ts, t.KeepsOrder) → (rows.map Row.id).Pairwise (· < ·)) ∧
      ∀ row ∈ rows, ∃ source, table.rows[row.id]? = some source ∧
        ∀ entropy p q, Transform.lineage? entropy table.schema ts p = some q →
          ∃ value, source[q]? = some value ∧ row.get? p = some value := by
  obtain ⟨launch, hopening, hresult⟩ := exists_stream_of_collectRows h
  rw [opening_table] at hopening
  obtain ⟨assembly, hassemble, hlaunch⟩ := bind_eq_ok_iff.1 hopening
  obtain rfl := Except.ok.inj hlaunch
  have hwidth := RowStream.hasWidth_ofItems table.schema.width (table.numberedRows.map .ok)
  have hout := (Stage.fitAll_of_assemble hassemble).through hwidth
  rw [← RowStream.rows_of_result hresult, Launch.stream]
  -- the rows follow the numbered rows of the table, up to the first one of another width
  have hsource := RowStream.rows_ofItems_sublist table.schema.width table.numberedRows
  generalize (RowStream.ofItems table.schema.width (table.numberedRows.map .ok)) = s
    at hout hsource ⊢
  have hfollows := Transform.follows_of_assemble hassemble s
  have hids : (s.rows.map Row.id).Sublist (List.range table.rows.length) :=
    map_id_numbered table.rows ▸ hsource.map Row.id
  refine ⟨?_, fun hordered => ?_, fun row hrow => ?_⟩
  · obtain ⟨ids, hperm, hsub⟩ := hfollows.ids
    exact hperm.nodup_iff.1 (List.nodup_range.sublist (hsub.trans hids))
  · exact List.pairwise_lt_range.sublist ((hfollows.order hordered).trans hids)
  · obtain ⟨source, hmem, hdescends⟩ := hfollows.descent row hrow
    refine ⟨source.values, ?_, fun entropy p q hpq => ?_⟩
    · rw [hdescends.id]
      exact getElem?_of_mem_numbered (hsource.subset hmem)
    · rw [Transform.lineage?_congr_tape entropy session.fresh] at hpq
      -- the column is there in the collected row, and so it is in the row of the table
      have hlength : row.values.length = assembly.schema.width := hout.length_of_mem row hrow
      have hlt : p < row.values.length := hlength ▸ Transform.lt_width_of_lineage? hassemble hpq
      have hvalue : row.values[p]? = some row.values[p] := List.getElem?_eq_getElem hlt
      exact ⟨row.values[p], (hdescends.values hpq).symm.trans hvalue, hvalue⟩

/-- People with their ages. -/
def people : Table :=
  ⟨⟨[⟨"id", .int64⟩, ⟨"name", .utf8⟩, ⟨"age", .int64⟩]⟩,
    [[.int64 7, .utf8 "b", .int64 30], [.int64 3, .utf8 "a", .int64 20],
     [.int64 5, .utf8 "c", .int64 40]]⟩

/-- The two youngest people, with a key twice and a note on the name. -/
def badges : List Transform :=
  [.sort [.name "age"] false, .insert ["note"] (some 1) [], .move [.name "age"] 0,
   .rename [.name "id"] ["key"], .update [.name "note"] (.column (.name "name")),
   .select [.name "key", .name "note", .name "age", .name "key"]
     (some ["key", "note", "age", "copy"]),
   .limit 2]

/-- The note has no origin, and the second key is the identifier of the person. -/
theorem badges_of_people :
    ((ofTransforms (.table people) badges .unobserved).collectRows (.start .empty ())).1 =
        .ok [⟨1, [.int64 3, .utf8 "a", .int64 20, .int64 3]⟩,
          ⟨0, [.int64 7, .utf8 "b", .int64 30, .int64 7]⟩] ∧
      (List.range 4).map (Transform.lineage? (.seeded 0) people.schema badges) =
        [some 0, none, some 2, some 0] ∧
      [1, 0].Nodup ∧
      ∃ source, people.rows[1]? = some source ∧
        ∃ value, source[0]? = some value ∧ value = .int64 3 := by
  have hrows : ((ofTransforms (.table people) badges .unobserved).collectRows
      (.start .empty ())).1 =
        .ok [⟨1, [.int64 3, .utf8 "a", .int64 20, .int64 3]⟩,
          ⟨0, [.int64 7, .utf8 "b", .int64 30, .int64 7]⟩] := by cbv
  have hlineage : (List.range 4).map (Transform.lineage? (.seeded 0) people.schema badges) =
      [some 0, none, some 2, some 0] := by decide +kernel
  obtain ⟨hnodup, -, hdescend⟩ :=
    collected_rows_descend people badges .unobserved (.start .empty ()) hrows
  obtain ⟨source, hsource, hvalues⟩ := hdescend _ List.mem_cons_self
  obtain ⟨value, hvalue, hcopy⟩ := hvalues (.seeded 0) 3 0 (by decide +kernel)
  exact ⟨hrows, hlineage, hnodup, source, hsource, value, hvalue, (Option.some.inj hcopy).symm⟩

end Pipeline

end RowFlow
