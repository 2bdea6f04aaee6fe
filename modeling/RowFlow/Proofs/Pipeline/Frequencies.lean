import RowFlow.Proofs.Pipeline.Outcomes
import RowFlow.Proofs.Step.Failures

/-!
# Frequencies

Rows are counted by a key, which is the value at a single position or the tuple of the values at
several. However rows come, the counts are what the list of all keys tells: each key stands once,
where it has first occurred, with the number of its occurrences (`Tallies.frequencies`). Two keys
are counted as one if and only if they are the same value.
-/

namespace RowFlow

variable {α : Type}

/-! ## Keys -/

/-- What a row with some values is counted by: the value at a single position, or else the tuple of
    the values at all of them. -/
inductive KeyOf (values : List Value) : List Nat → Value → Prop where
  | plain {position : Nat} {key : Value} (at_position : values[position]? = some key) :
      KeyOf values [position] key
  | tuple {positions : List Nat} {items : List Value} (not_single : positions.length ≠ 1)
      (at_positions :
        List.Forall₂ (fun position item => values[position]? = some item) positions items) :
      KeyOf values positions (.tuple items)

theorem forall₂_pick_of_lt {positions : List Nat} {values : List Value}
    (h : ∀ position ∈ positions, position < values.length) :
    List.Forall₂ (fun position item => values[position]? = some item) positions
      (pick positions values) := by
  induction positions with
  | nil => exact .nil
  | cons position rest ih =>
    obtain ⟨hposition, hrest⟩ := List.forall_mem_cons.1 h
    have hitem : values[position]? = some values[position] := List.getElem?_eq_getElem hposition
    rw [pick, List.filterMap_cons_some hitem]
    exact .cons hitem (ih hrest)

/-- Values are gathered to their key. -/
theorem keyOf_gather {positions : List Nat} {values : List Value}
    (h : ∀ position ∈ positions, position < values.length) :
    KeyOf values positions (gather positions values) := by
  -- only a single position gives a plain value
  match positions with
  | [position] =>
    have hposition : position < values.length := h position (List.mem_singleton_self _)
    refine .plain ?_
    rw [gather, List.getD_eq_getElem _ _ hposition]
    exact List.getElem?_eq_getElem hposition
  | [] => exact .tuple (by decide) (forall₂_pick_of_lt h)
  | _ :: _ :: _ => exact .tuple (by simp) (forall₂_pick_of_lt h)

/-! ## Counts -/

/-- Counts of keys: each key has an entry, the entries stand in the order in which their keys have
    first occurred, and each has the number of occurrences. -/
structure Tallies (keys : List Value) (counts : List (Value × Nat)) : Prop where
  mem_iff : ∀ key, key ∈ counts.map Prod.fst ↔ key ∈ keys
  ordered : (counts.map Prod.fst).Pairwise fun k l => keys.idxOf k < keys.idxOf l
  count : ∀ entry ∈ counts, entry.2 = keys.count entry.1

theorem map_fst_tally (key : Value) (counts : List (Value × Nat)) :
    (tally key counts).map Prod.fst =
      if key ∈ counts.map Prod.fst then counts.map Prod.fst
      else counts.map Prod.fst ++ [key] := by
  induction counts with
  | nil => rfl
  | cons entry rest ih =>
    obtain ⟨other, n⟩ := entry
    rw [tally]
    -- the key is looked for from the front, and appended when the end is reached
    by_cases hkey : other = key
    · simp [hkey]
    · simp only [if_neg hkey, List.map_cons, ih, List.mem_cons, Ne.symm hkey, false_or]
      split <;> rfl

/-- The entry of the key counts one more, or one if there was none. -/
theorem snd_of_mem_tally {key : Value} {counts : List (Value × Nat)} (number : Value → Nat)
    (hnodup : (counts.map Prod.fst).Nodup) (hcount : ∀ entry ∈ counts, entry.2 = number entry.1)
    (hnew : key ∉ counts.map Prod.fst → number key = 0) :
    ∀ entry ∈ tally key counts, entry.2 = number entry.1 + if key = entry.1 then 1 else 0 := by
  induction counts with
  | nil =>
    intro entry hentry
    obtain rfl : entry = (key, 1) := List.mem_singleton.1 hentry
    simp [hnew]
  | cons first rest ih =>
    obtain ⟨other, n⟩ := first
    obtain ⟨hother, hrest⟩ := List.nodup_cons.1 hnodup
    obtain ⟨hn, hcount⟩ := List.forall_mem_cons.1 hcount
    rw [tally]
    by_cases hkey : other = key
    · subst hkey
      rw [if_pos rfl]
      refine List.forall_mem_cons.2 ⟨by simp [← hn], fun entry hentry => ?_⟩
      -- the key occurs in no other entry
      have hne : other ≠ entry.1 := by
        rintro rfl
        exact hother (List.mem_map.2 ⟨entry, hentry, rfl⟩)
      rw [if_neg hne, hcount entry hentry, Nat.add_zero]
    · rw [if_neg hkey]
      refine List.forall_mem_cons.2 ⟨by simp [← hn, Ne.symm hkey], ih hrest hcount fun h => ?_⟩
      exact hnew (by simpa [Ne.symm hkey] using h)

namespace Tallies

variable {keys : List Value} {counts : List (Value × Nat)}

theorem nodup (h : Tallies keys counts) : (counts.map Prod.fst).Nodup :=
  h.ordered.imp fun hlt heq => Nat.ne_of_lt hlt (congrArg keys.idxOf heq)

/-- One more key. -/
theorem tally (h : Tallies keys counts) (key : Value) :
    Tallies (keys ++ [key]) (tally key counts) where
  mem_iff other := by
    rw [map_fst_tally]
    -- a key that has an entry has occurred before
    by_cases hkey : key ∈ counts.map Prod.fst
    · rw [if_pos hkey, h.mem_iff, List.mem_append, List.mem_singleton]
      refine ⟨.inl, ?_⟩
      rintro (hother | rfl)
      · exact hother
      · exact (h.mem_iff _).1 hkey
    · rw [if_neg hkey, List.mem_append, List.mem_append, h.mem_iff]
  ordered := by
    -- the first occurrences of the keys so far stay where they are
    have hstay : (counts.map Prod.fst).Pairwise
        fun k l => (keys ++ [key]).idxOf k < (keys ++ [key]).idxOf l := by
      refine h.ordered.imp_of_mem fun {k l} hk hl hlt => ?_
      rwa [List.idxOf_append_of_mem ((h.mem_iff k).1 hk),
        List.idxOf_append_of_mem ((h.mem_iff l).1 hl)]
    rw [map_fst_tally]
    by_cases hkey : key ∈ counts.map Prod.fst
    · rwa [if_pos hkey]
    · rw [if_neg hkey, List.pairwise_append]
      refine ⟨hstay, List.pairwise_singleton _ _, fun k hk l hl => ?_⟩
      obtain rfl := List.mem_singleton.1 hl
      rw [List.idxOf_append_of_mem ((h.mem_iff k).1 hk),
        List.idxOf_append_of_notMem fun hl => hkey ((h.mem_iff l).2 hl)]
      exact Nat.lt_add_right _ (List.idxOf_lt_length_iff.2 ((h.mem_iff k).1 hk))
  count entry hentry := by
    have hnew (hkey : key ∉ counts.map Prod.fst) : keys.count key = 0 :=
      List.count_eq_zero.2 fun hmem => hkey ((h.mem_iff key).2 hmem)
    rw [snd_of_mem_tally keys.count h.nodup h.count hnew entry hentry, List.count_append,
      List.count_singleton]
    simp only [beq_iff_eq]

/-- The frequencies of rows are the counts of their keys. -/
theorem frequencies (positions : List Nat) (rows : List Row) :
    Tallies (rows.map (gather positions ·.values)) (frequencies positions rows) := by
  -- rows are counted from the front, so the last one is split off
  induction rows using List.reverseRecOn with
  | nil => exact ⟨fun _ => Iff.rfl, .nil, nofun⟩
  | append_singleton rows row ih =>
    rw [List.map_append, RowFlow.frequencies, List.foldl_append]
    exact ih.tally (gather positions row.values)

end Tallies

/-! ## Collections of frequencies -/

theorem Schema.Locates.lt_width {schema : Schema} {columns : List Column} {positions : List Nat}
    (h : schema.Locates columns positions) : ∀ p ∈ positions, p < schema.width := by
  rw [Locates] at h
  split at h
  · rw [h]
    exact fun p hp => List.mem_range.1 hp
  · exact lt_width_of_resolveEach h

namespace Pipeline

theorem distinctValues_eq (pipeline : Pipeline Step α) (column : Column) (session : Session α) :
    (pipeline.distinctValues column session).1 =
      (pipeline.distinct [column] session).1.map (List.map Prod.fst) :=
  rfl

/-- **Frequencies are exact.** Each of some rows of the width of a schema has one key, and the
    collection of the frequencies of columns takes in all rows and gives these counts: each key that
    occurs has an entry, no key has two, entries stand in the order of first occurrence, and each
    has the number of rows that have the key, so that the numbers add up to that of rows. Floating
    numbers are the same key if they have the same bits, and no integer is the same as one. If they
    are the rows of a pipeline, these are its frequencies, and the distinct values of a column are
    their keys; the runs that are compared draw from the same tape. -/
theorem frequencies_exact {schema : Schema} {columns : List Column} {positions : List Nat}
    (hpositions : schema.Locates columns positions) {rows : List Row}
    (hrows : ∀ row ∈ rows, row.length = schema.width) :
    ∃ keys counts collector,
      List.Forall₂ (fun row key => KeyOf row.values positions key) rows keys ∧
      Tallies keys counts ∧ (counts.map Prod.fst).Nodup ∧
      (counts.map Prod.snd).sum = rows.length ∧
      (∀ x y : Binary64, Value.float64 x = .float64 y ↔ x.bits = y.bits) ∧
      (∀ (n : Int64) (x : Binary64), Value.int64 n ≠ .float64 x) ∧
      (Collection.distinct columns).openOn schema = .ok collector ∧
      (∀ files, (∀ before row, before ++ [row] <+: rows →
          ((collector.afterRows before files).1.consume row files).1 = .ok .more) ∧
        ((collector.afterRows rows files).1.close files).1 = .ok (some (.distinct counts))) ∧
      ∀ (source : Source) (ts : List Transform) (options : Options α) (session : Session α),
        let pipeline := ofTransforms source ts options
        pipeline.outputSchema session.fresh session.files = .ok schema →
        (pipeline.collectRows session).1 = .ok rows →
          (pipeline.distinct columns session).1 = .ok counts ∧
          ∀ column, columns = [column] →
            (pipeline.distinctValues column session).1 = .ok (counts.map Prod.fst) := by
  have hgathers := gathers_distinct schema.width positions
  have hkeys : List.Forall₂ (fun row key => KeyOf row.values positions key) rows
      (rows.map (gather positions ·.values)) := by
    refine List.forall₂_map_right_iff.2 (List.forall₂_same.2 fun row hrow => keyOf_gather ?_)
    exact fun p hp => Nat.lt_of_lt_of_eq (hpositions.lt_width p hp) (hrows row hrow).symm
  have htallies := Tallies.frequencies positions rows
  refine ⟨_, frequencies positions rows, _, hkeys, htallies, htallies.nodup,
    sum_frequencies positions rows, fun x y => ?_, nofun, hpositions.openOn_distinct,
    fun files => ⟨fun before row hbegins => ?_, ?_⟩,
    fun source ts options session hschema hcollect => ?_⟩
  · rw [Value.float64.injEq, Binary64.mk.injEq]
  · have hwidth : ∀ r ∈ before ++ [row], r.length = schema.width :=
      fun r hr => hrows r (hbegins.subset hr)
    obtain ⟨hbefore, hrow⟩ := List.forall_mem_append.1 hwidth
    rw [show Collector.distinct schema.width positions [] =
        .distinct schema.width positions (frequencies positions []) from rfl,
      hgathers.afterRows [] hbefore, hgathers.consume _ _ (hrow row (List.mem_singleton_self row))]
  · rw [show Collector.distinct schema.width positions [] =
        .distinct schema.width positions (frequencies positions []) from rfl,
      hgathers.afterRows [] hrows]
    exact hgathers.close rows files
  · obtain ⟨launch, hopening, hresult⟩ := exists_stream_of_collectRows hcollect
    obtain rfl : launch.schema = schema :=
      Except.ok.inj ((outputSchema_of_opening hopening).symm.trans hschema)
    have hcounts := distinct_eq_frequencies hopening hresult hpositions
    refine ⟨hcounts, ?_⟩
    rintro column rfl
    rw [distinctValues_eq, hcounts]
    rfl

/-- Readings of a meter: the two zeros, an integer and nothing are four different readings. -/
def readings : Table :=
  ⟨⟨[⟨"reading", .float64⟩, ⟨"at", .utf8⟩]⟩,
    [[.float64 ⟨0⟩, .utf8 "dawn"], [.float64 ⟨0x8000000000000000⟩, .utf8 "noon"],
      [.int64 0, .utf8 "noon"], [.float64 ⟨0⟩, .utf8 "dusk"], [.null, .utf8 "dusk"],
      [.float64 ⟨0⟩, .utf8 "dawn"]]⟩

theorem readings_counted :
    readings.schema.Locates [.name "reading"] [0] ∧
      (∀ row ∈ readings.numberedRows, row.length = readings.schema.width) ∧
      ((ofTransforms (.table readings) [] .unobserved).distinct [.name "reading"]
          (.start .empty ())).1 =
        .ok [(.float64 ⟨0⟩, 3), (.float64 ⟨0x8000000000000000⟩, 1), (.int64 0, 1), (.null, 1)] ∧
      ((ofTransforms (.table readings) [] .unobserved).distinctValues (.name "reading")
          (.start .empty ())).1 =
        .ok [.float64 ⟨0⟩, .float64 ⟨0x8000000000000000⟩, .int64 0, .null] ∧
      ∃ keys, List.Forall₂ (fun row key => KeyOf row.values [0] key) readings.numberedRows keys ∧
        Tallies keys
          [(.float64 ⟨0⟩, 3), (.float64 ⟨0x8000000000000000⟩, 1), (.int64 0, 1), (.null, 1)] := by
  have hpositions : readings.schema.Locates [.name "reading"] [0] := rfl
  have hrows : ∀ row ∈ readings.numberedRows, row.length = readings.schema.width := by decide
  have hdistinct : ((ofTransforms (.table readings) [] .unobserved).distinct [.name "reading"]
      (.start .empty ())).1 =
        .ok [(.float64 ⟨0⟩, 3), (.float64 ⟨0x8000000000000000⟩, 1), (.int64 0, 1), (.null, 1)] := by
    decide +kernel
  have hcollect : ((ofTransforms (.table readings) [] .unobserved).collectRows
      (.start .empty ())).1 = .ok readings.numberedRows := by decide +kernel
  obtain ⟨keys, counts, -, hkeys, htallies, -, -, -, -, -, -, hpipeline⟩ :=
    frequencies_exact hpositions hrows
  obtain ⟨hcounts, hvalues⟩ := hpipeline (.table readings) [] .unobserved (.start .empty ()) rfl
    hcollect
  obtain rfl := Except.ok.inj (hcounts.symm.trans hdistinct)
  exact ⟨hpositions, hrows, hdistinct, hvalues _ rfl, keys, hkeys, htallies⟩

end Pipeline

end RowFlow
