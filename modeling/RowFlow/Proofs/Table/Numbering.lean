import RowFlow.Table.Basic

/-!
# Numbered Rows

Numbering rows changes nothing about them, and rows whose numbers are their positions are what
numbering makes of their values.
-/

namespace RowFlow

theorem map_values_numbered (rows : List (List Value)) : (numbered rows).map Row.values = rows := by
  simp only [numbered, List.map_map]
  exact List.zipIdx_map_fst 0 rows

theorem map_id_numbered (rows : List (List Value)) :
    (numbered rows).map Row.id = List.range rows.length := by
  simp only [numbered, List.map_map]
  rw [List.range_eq_range']
  exact List.zipIdx_map_snd 0 rows

theorem getElem?_of_mem_numbered {rows : List (List Value)} {row : Row}
    (h : row ∈ numbered rows) : rows[row.id]? = some row.values := by
  obtain ⟨⟨values, id⟩, hmem, rfl⟩ := List.mem_map.1 h
  exact List.mem_zipIdx_iff_getElem?.1 hmem

/-- What holds of the values of all numbered rows holds of all rows, and the other way round. -/
theorem Table.forall_mem_numberedRows {table : Table} {P : List Value → Prop} :
    (∀ row ∈ table.numberedRows, P row.values) ↔ ∀ values ∈ table.rows, P values := by
  rw [numberedRows]
  conv => rhs; rw [← map_values_numbered table.rows]
  exact List.forall_mem_map.symm

/-- Rows whose numbers are their positions are numbered from zero. -/
theorem numbered_map_values {rows : List Row}
    (h : ∀ (i : Nat) (row : Row), rows[i]? = some row → row.id = i) :
    numbered (rows.map Row.values) = rows := by
  apply List.ext_getElem?
  intro i
  rw [numbered, List.getElem?_map, List.getElem?_zipIdx, List.getElem?_map]
  cases hrow : rows[i]? with
  | none => rfl
  | some row =>
    have hid := h i row hrow
    simp only [Option.map_some, Nat.zero_add, ← hid]

end RowFlow
