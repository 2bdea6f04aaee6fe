import Mathlib.Data.Finset.Sort
import Mathlib.Data.List.Nodup
import Mathlib.Data.List.Sort
import RowFlow.Random.Reservoir

/-!
# Reservoirs Hold Rows of Their Stream

Whatever positions are drawn, a reservoir holds rows of the stream so far, each with its place and
no place twice (`Reservoir.Holds`). In the order of their places they are the stream with some rows
left out (`Reservoir.Holds.rows_sublist`).
-/

namespace RowFlow

namespace Reservoir

variable {γ : Type} {reservoir : Reservoir γ} {rows : List Row}

/-! ## Rows on offer -/

section
variable [Draws γ] (reservoir) (row : Row)

/-- A row is held besides the others while there is room, and then at a slot of the reservoir. A
    slot beyond the reservoir leaves the others as they are. -/
theorem offer_cases :
    reservoir.held.length < reservoir.size ∧
        reservoir.offer row = { reservoir with
          seen := reservoir.seen + 1
          held := reservoir.held ++ [(reservoir.seen, row)] } ∨
      reservoir.size ≤ reservoir.held.length ∧ ∃ slot generator,
        reservoir.offer row = { reservoir with
          seen := reservoir.seen + 1
          held := reservoir.held.set slot (reservoir.seen, row)
          generator } := by
  have hkept : reservoir.held.set reservoir.held.length (reservoir.seen, row) = reservoir.held :=
    List.set_eq_of_length_le (Nat.le_refl _)
  simp only [offer]
  split
  · rename_i hroom
    exact .inl ⟨hroom, rfl⟩
  · rename_i hfull
    refine .inr ⟨Nat.not_lt.1 hfull, ?_⟩
    split
    · exact ⟨_, reservoir.generator, by rw [hkept]⟩
    · split
      · exact ⟨_, _, rfl⟩
      · exact ⟨_, _, by rw [hkept]⟩

@[simp]
theorem size_offer : (reservoir.offer row).size = reservoir.size := by
  obtain ⟨-, h⟩ | ⟨-, slot, generator, h⟩ := offer_cases reservoir row
  · rw [h]
  · rw [h]

/-- A row fills the reservoir up, or takes the place of another row, if any. -/
theorem length_held_offer :
    (reservoir.offer row).held.length =
      if reservoir.held.length < reservoir.size then reservoir.held.length + 1
      else reservoir.held.length := by
  obtain ⟨hroom, h⟩ | ⟨hfull, slot, generator, h⟩ := offer_cases reservoir row
  · rw [h, if_pos hroom]
    exact List.length_append
  · rw [h, if_neg (Nat.not_lt.2 hfull)]
    exact List.length_set

variable {reservoir} in
/-- Once it is full, a reservoir draws a position at each row, among the places of all rows so
    far. -/
theorem offer_of_full (hfull : reservoir.held.length = reservoir.size)
    (hsize : 0 < reservoir.size) : reservoir.offer row =
      { size := reservoir.size
        seen := reservoir.seen + 1
        held := reservoir.held.set (Draws.draw reservoir.generator reservoir.seen).1
          (reservoir.seen, row)
        generator := (Draws.draw reservoir.generator reservoir.seen).2 } := by
  simp only [offer]
  rw [if_neg (by omega), if_neg hsize.ne']
  split
  · rfl
  · rw [List.set_eq_of_length_le (by omega)]

end

/-- The first rows fill a reservoir, and no position is drawn. -/
theorem foldl_offer_of_le [Draws γ] {size : Nat} {rows : List Row} (h : rows.length ≤ size)
    (generator : γ) : rows.foldl offer (start size generator) =
      ⟨size, rows.length, rows.zipIdx.map Prod.swap, generator⟩ := by
  induction rows using List.reverseRecOn with
  | nil => rfl
  | append_singleton rows row ih =>
    rw [List.length_append, List.length_singleton] at h
    have hroom : (rows.zipIdx.map Prod.swap).length < size := by simpa using Nat.lt_of_succ_le h
    rw [List.foldl_concat, ih (Nat.le_of_succ_le h), offer, if_pos hroom]
    simp [List.zipIdx_append]

/-- A reservoir holds all rows until it is full, and then as many as it has places for. -/
theorem length_held_offers [Draws γ] (h : reservoir.held.length ≤ reservoir.size)
    (rows : List Row) : (rows.foldl offer reservoir).held.length =
      min reservoir.size (reservoir.held.length + rows.length) := by
  induction rows generalizing reservoir with
  | nil => exact (Nat.min_eq_right h).symm
  | cons row rows ih =>
    have hlength := length_held_offer reservoir row
    rw [List.foldl_cons, ih (by rw [hlength, size_offer]; split <;> omega), hlength, size_offer,
      List.length_cons]
    split <;> omega

/-! ## Properties of rows -/

section
variable {P : Row → Prop}

/-- What holds of the rows in a reservoir and of the row on offer holds of the rows in it
    afterwards. -/
theorem forall_held_offer [Draws γ] (h : ∀ entry ∈ reservoir.held, P entry.2) {row : Row}
    (hrow : P row) : ∀ entry ∈ (reservoir.offer row).held, P entry.2 := by
  obtain ⟨-, hoffer⟩ | ⟨-, slot, generator, hoffer⟩ := offer_cases reservoir row
  · rw [hoffer]
    exact List.forall_mem_append.2 ⟨h, List.forall_mem_singleton.2 hrow⟩
  · rw [hoffer]
    intro entry hentry
    rcases List.mem_or_eq_of_mem_set hentry with hentry | rfl
    · exact h entry hentry
    · exact hrow

theorem forall_held_offers [Draws γ] (h : ∀ entry ∈ reservoir.held, P entry.2) {rows : List Row}
    (hrows : ∀ row ∈ rows, P row) : ∀ entry ∈ (rows.foldl offer reservoir).held, P entry.2 := by
  induction rows generalizing reservoir with
  | nil => exact h
  | cons row rest ih =>
    obtain ⟨hrow, hrest⟩ := List.forall_mem_cons.1 hrows
    exact ih (forall_held_offer h hrow) hrest

theorem forall_rows (h : ∀ entry ∈ reservoir.held, P entry.2) : ∀ row ∈ reservoir.rows, P row := by
  intro row hrow
  obtain ⟨entry, hentry, rfl⟩ := List.mem_map.1 hrow
  exact h entry (List.mem_mergeSort.1 hentry)

end

/-! ## Places in the stream -/

/-- A reservoir has been offered some rows, and holds some of them at their places. -/
structure Holds (reservoir : Reservoir γ) (rows : List Row) : Prop where
  seen : reservoir.seen = rows.length
  entries : ∀ e ∈ reservoir.held, rows[e.1]? = some e.2
  places : (reservoir.held.map Prod.fst).Nodup

theorem holds_start (size : Nat) (generator : γ) : (start size generator).Holds [] :=
  ⟨rfl, nofun, .nil⟩

namespace Holds

theorem lt_length (h : reservoir.Holds rows) :
    ∀ place ∈ reservoir.held.map Prod.fst, place < rows.length := by
  intro place hplace
  obtain ⟨e, he, rfl⟩ := List.mem_map.1 hplace
  exact (List.getElem?_eq_some_iff.1 (h.entries e he)).1

/-- Entries stay entries when another row comes. -/
theorem entries_append (h : reservoir.Holds rows) (row : Row) :
    ∀ e ∈ reservoir.held, (rows ++ [row])[e.1]? = some e.2 := by
  intro e he
  rw [List.getElem?_append_left (h.lt_length _ (List.mem_map_of_mem he))]
  exact h.entries e he

theorem offer [Draws γ] (h : reservoir.Holds rows) (row : Row) :
    (reservoir.offer row).Holds (rows ++ [row]) := by
  have hseen : reservoir.seen + 1 = (rows ++ [row]).length := by
    rw [h.seen, List.length_append, List.length_singleton]
  have hnew : (rows ++ [row])[reservoir.seen]? = some row := by
    rw [h.seen, List.getElem?_concat_length]
  -- the place of the row on offer is behind all places so far
  have hfresh : reservoir.seen ∉ reservoir.held.map Prod.fst := fun hmem =>
    absurd (h.lt_length _ hmem) (by rw [h.seen]; exact Nat.lt_irrefl _)
  obtain ⟨-, hoffer⟩ | ⟨-, slot, generator, hoffer⟩ := offer_cases reservoir row
  · rw [hoffer]
    refine ⟨hseen, fun e he => ?_, ?_⟩
    · rcases List.mem_append.1 he with he | he
      · exact h.entries_append row e he
      · rw [List.mem_singleton.1 he]
        exact hnew
    · rw [List.map_append]
      exact List.nodup_append_comm.1 (List.nodup_cons.2 ⟨hfresh, h.places⟩)
  · rw [hoffer]
    refine ⟨hseen, fun e he => ?_, ?_⟩
    · rcases List.mem_or_eq_of_mem_set he with he | rfl
      · exact h.entries_append row e he
      · exact hnew
    · rw [List.map_set]
      exact h.places.set hfresh

theorem offers [Draws γ] (h : reservoir.Holds rows) (more : List Row) :
    (more.foldl Reservoir.offer reservoir).Holds (rows ++ more) := by
  induction more generalizing reservoir rows with
  | nil => simpa using h
  | cons row more ih => simpa using ih (h.offer row)

/-! ## Rows in order -/

/-- The rows let out are the rows of the stream at the places held, in order. -/
theorem rows_eq_pick (h : reservoir.Holds rows) :
    reservoir.rows = pick (reservoir.held.map Prod.fst).toFinset.sort rows := by
  have hperm := List.mergeSort_perm reservoir.held fun a b => a.1 ≤ b.1
  have hordered : (reservoir.held.mergeSort fun a b => a.1 ≤ b.1).Pairwise fun a b =>
      decide (a.1 ≤ b.1) = true :=
    List.pairwise_mergeSort (by simpa using fun _ _ _ => Nat.le_trans)
      (by simpa using Nat.le_total) _
  unfold Reservoir.rows
  generalize reservoir.held.mergeSort (fun a b => a.1 ≤ b.1) = sorted at hperm hordered
  have hnodup : (sorted.map Prod.fst).Nodup := (hperm.map Prod.fst).nodup_iff.2 h.places
  have hplaces : (reservoir.held.map Prod.fst).toFinset.sort = sorted.map Prod.fst := by
    rw [← List.toFinset_eq_of_perm _ _ (hperm.map Prod.fst)]
    exact (List.toFinset_sort _ hnodup).2
      (List.pairwise_map.2 (hordered.imp of_decide_eq_true))
  rw [hplaces, pick, List.filterMap_map, ← List.filterMap_eq_map]
  exact List.filterMap_congr fun e he => (h.entries e (hperm.mem_iff.1 he)).symm

theorem rows_sublist (h : reservoir.Holds rows) : reservoir.rows.Sublist rows := by
  -- the places are in order among all places, and the rows are looked up there
  have hsubset : (reservoir.held.map Prod.fst).toFinset.sort ⊆ List.range rows.length :=
    fun place hplace => List.mem_range.2
      (h.lt_length place (List.mem_toFinset.1 ((Finset.mem_sort _).1 hplace)))
  have hplaces : (reservoir.held.map Prod.fst).toFinset.sort.Sublist (List.range rows.length) :=
    List.sublist_of_subperm_of_pairwise
      (List.subperm_of_subset (Finset.sort_nodup _ _) hsubset)
      (Finset.pairwise_sort _ _) List.pairwise_le_range
  rw [h.rows_eq_pick]
  conv => rhs; rw [← pick_range rows]
  exact hplaces.filterMap _

end Holds

end Reservoir

end RowFlow
