import RowFlow.Proofs.Chain.Release
import RowFlow.Proofs.Random.Reservoir
import RowFlow.Step.Opening

/-!
# Samples Let Out at the Close

A sample step holds back the rows that its reservoir holds, and lets them out in the order of the
stream. Whatever positions the reservoir draws, these are rows of the stream, none of them twice, as
many as the reservoir has places for or all there are (`Reservoir.releases_sample`).
-/

namespace RowFlow

/-- Some rows of a stream in their order, `size` of them, or all if there are no more. -/
structure IsSample (size : Nat) (rows sample : List Row) : Prop where
  sublist : sample.Sublist rows
  length : sample.length = min size rows.length
  whole : rows.length ≤ size → sample = rows

namespace Reservoir

variable {γ : Type} [Draws γ]

/-! ## Samples -/

/-- A reservoir holds a sample of the rows that it has been offered. -/
theorem isSample_rows (size : Nat) (generator : γ) (rows : List Row) :
    IsSample size rows (rows.foldl offer (start size generator)).rows := by
  have hsublist := ((holds_start size generator).offers rows).rows_sublist
  have hlength : (rows.foldl offer (start size generator)).rows.length = min size rows.length := by
    rw [Reservoir.rows, List.length_map, List.length_mergeSort, length_held_offers (Nat.zero_le _)]
    exact congrArg (min size) (Nat.zero_add _)
  refine ⟨hsublist, hlength, fun hfits => ?_⟩
  rw [Nat.min_eq_right hfits] at hlength
  exact hsublist.eq_of_length hlength

/-! ## Reservoirs as producers -/

/-- A reservoir by itself as a producer, wherever its positions are drawn from. -/
instance : Producer (Reservoir γ) where
  handle row reservoir := .done (.ok .more, reservoir.offer row)
  drain reservoir := (Feed.ofRows reservoir.rows).map (·, { reservoir with held := [] })

/-- Producers that offer rows to the reservoirs in them and let out the rows there at the end. -/
structure Hosted {π : Type} [Producer π] (host : Reservoir γ → π) : Prop where
  handle : ∀ row reservoir,
    Producer.handle row (host reservoir) = .done (.ok .more, host (reservoir.offer row))
  drain : ∀ reservoir, Producer.drain (host reservoir) =
    (Feed.ofRows reservoir.rows).map (·, host { reservoir with held := [] })

namespace Hosted

variable {π : Type} [Producer π] {host : Reservoir γ → π} (h : Hosted host)
include h

theorem holdsBack (reservoir : Reservoir γ) (rows : List Row) :
    HoldsBack (host reservoir) rows (host (rows.foldl offer reservoir)) := by
  induction rows generalizing reservoir with
  | nil => exact .nil _
  | cons row rows ih => exact .cons (h.handle row reservoir) (ih (reservoir.offer row))

/-- The rows in a reservoir are let out. -/
theorem releases (reservoir : Reservoir γ) (rows : List Row) :
    Releases (host reservoir) rows (rows.foldl offer reservoir).rows :=
  (h.holdsBack reservoir rows).releases (h.drain _)

end Hosted

/-- **Samples are let out.** Whatever positions are drawn and wherever they are drawn from, and so
    in a sample step with any seed or none, a reservoir welcomes all rows of a stream and lets out a
    sample of them at the close: rows of the stream in their order, none of them twice, as many as
    it has places for, or the whole stream. If the consumer behind fails or asks to stop, it has
    been handed the first rows of the sample. -/
theorem releases_sample (size : Nat) (rows : List Row) :
    (∀ {γ : Type} [Draws γ] (generator : γ), ∃ sample,
      Releases (start size generator) rows sample ∧ IsSample size rows sample) ∧
    ∀ (entropy : Entropy) (schema : Schema) (seed : Option UInt64), ∃ stage sample,
      Transform.openOn entropy schema (.sample size seed) = .ok (stage, schema) ∧
      Releases stage rows sample ∧ IsSample size rows sample := by
  refine ⟨fun {γ} _ generator => ?_, fun entropy schema seed => ?_⟩
  · have hself : Hosted (id : Reservoir γ → Reservoir γ) := ⟨fun _ _ => rfl, fun _ => rfl⟩
    exact ⟨_, hself.releases (start size generator) rows, isSample_rows size generator rows⟩
  · have hstage : Hosted Stage.sample := ⟨fun _ _ => rfl, fun _ => rfl⟩
    exact ⟨_, _, rfl, hstage.releases _ rows, isSample_rows size _ rows⟩

end Reservoir

end RowFlow
