import RowFlow.Proofs.Step.Sorting
import RowFlow.Proofs.Stream.Basic

/-!
# Sorted Streams

Sorting a stream sorts its rows, if it ends normally at all. A sieve, such as a filter, drops rows
or keeps them as they are, and fails or not on each row for itself; so it may be put before or
behind a sort (`RowStream.sieve_sorted_agree`). Only the error of a stream that fails may differ:
the rows come to the sieve in another order.
-/

namespace RowFlow

namespace RowStream

/-! ## Sieves -/

/-- A function on rows that drops rows or keeps them as they are. -/
def IsSieve (f : Row → Except Error (Option Row)) : Prop :=
  ∀ row image, f row = .ok (some image) → image = row

/-- Whether a row is kept. -/
def keeps (f : Row → Except Error (Option Row)) (row : Row) : Bool :=
  match f row with
  | .ok (some _) => true
  | _ => false

theorem isSieve_filter (evaluator : Evaluator) (negated : Bool) :
    IsSieve (RowRule.filter evaluator negated).apply := by
  intro row image h
  obtain ⟨truth, -, h⟩ := bind_eq_ok_iff.1 h
  have h := Except.ok.inj h
  split at h
  · cases h
  · exact (Option.some.inj h).symm

/-- A sieve leaves the rows that it keeps, if it fails on no row. -/
theorem filterMapM_of_isSieve {f : Row → Except Error (Option Row)} (hf : IsSieve f)
    (rows : List Row) : rows.filterMapM f = (fun _ => rows.filter (keeps f)) <$> rows.mapM f := by
  induction rows with
  | nil => rfl
  | cons row rows ih =>
    rw [List.filterMapM_cons, List.mapM_cons, ih]
    cases himage : f row with
    | error e => rfl
    | ok image =>
      cases image with
      | none =>
        have hdropped : ¬ keeps f row = true := by simp [keeps, himage]
        rw [List.filter_cons_of_neg hdropped]
        cases rows.mapM f <;> rfl
      | some image =>
        obtain rfl := hf row image himage
        have hkept : keeps f image = true := by simp only [keeps, himage]
        rw [List.filter_cons_of_pos hkept]
        cases rows.mapM f <;> rfl

theorem filterMapM_eq_ok_iff {f : Row → Except Error (Option Row)} (hf : IsSieve f)
    {rows out : List Row} : rows.filterMapM f = .ok out ↔
      (∀ row ∈ rows, ∃ image, f row = .ok image) ∧ rows.filter (keeps f) = out := by
  rw [filterMapM_of_isSieve hf, map_eq_ok_iff, ← exists_mapM_eq_ok_iff, exists_and_right]

/-- A sieve may be put before or behind a sort. -/
theorem sieve_sorted_agree {f : Row → Except Error (Option Row)} (hf : IsSieve f)
    (keys : List Nat) (descending : Bool) (s : RowStream) :
    Agree ((s.rearrange (sortRows keys descending)).mapRows f).result
      ((s.mapRows f).rearrange (sortRows keys descending)).result := by
  -- both wait for the rows, and then the one sorts before it sifts, and the other afterwards
  have hsorted := result_mapRows f (s.rearrange (sortRows keys descending))
  have hsifted := (result_mapRows f s).map (sortRows keys descending)
  rw [result_rearrange, bind_map_left] at hsorted
  rw [map_bind, ← result_rearrange] at hsifted
  refine hsorted.trans (.trans (.bind (.refl _) fun rows _ => ?_) hsifted.symm)
  intro out
  rw [filterMapM_eq_ok_iff hf, map_eq_ok_iff]
  simp only [filterMapM_eq_ok_iff hf, filter_sortRows, mem_sortRows]
  constructor
  · rintro ⟨himages, rfl⟩
    exact ⟨_, ⟨himages, rfl⟩, rfl⟩
  · rintro ⟨_, ⟨himages, rfl⟩, rfl⟩
    exact ⟨himages, rfl⟩

end RowStream

end RowFlow
