import RowFlow.Proofs.Stream.Lineage

/-!
# Functions on Rows, One Behind the Other

A stream goes through two functions row by row, and an error ends it in the one or the other. If the
second function undoes the first one on all rows, the stream is as it was
(`RowStream.mapRows_restored`); if a function puts nothing else in place of what it has made, it has
no effect behind itself (`RowStream.mapRows_again`).
-/

namespace RowFlow

namespace RowStream

variable {f g : Row → Except Error (Option Row)}

/-- The second function gives back what the first one has changed. -/
theorem mapRows_restored {s : RowStream}
    (h : ∀ row ∈ s.rows, ∃ image, f row = .ok (some image) ∧ g image = .ok (some row)) :
    (s.mapRows f).mapRows g = s := by
  induction s with
  | ended | failed e => rfl
  | row r rest ih =>
    obtain ⟨⟨image, himage, hback⟩, hrest⟩ := List.forall_mem_cons.1 h
    simp only [mapRows, himage, hback, ih hrest]

/-- The function comes once more and finds only rows that it leaves as they are. -/
theorem mapRows_again (h : ∀ row image, f row = .ok (some image) → f image = .ok (some image))
    (s : RowStream) : (s.mapRows f).mapRows f = s.mapRows f := by
  induction s with
  | ended | failed e => rfl
  | row r rest ih =>
    rcases hrow : f r with e | _ | image
    · simp only [mapRows, hrow]
    · simp only [mapRows, hrow, ih]
    · simp only [mapRows, hrow, h r image hrow, ih]

/-- A function that puts a row in place of every row leaves the end of the stream. -/
theorem result_mapRows_of_images {s : RowStream} {image : Row → Row}
    (h : ∀ row ∈ s.rows, f row = .ok (some (image row))) :
    (s.mapRows f).result = List.map image <$> s.result := by
  induction s with
  | ended | failed e => rfl
  | row r rest ih =>
    obtain ⟨hrow, hrest⟩ := List.forall_mem_cons.1 h
    simp only [mapRows, hrow, result, ih hrest]
    cases rest.result <;> rfl

end RowStream

end RowFlow
