import RowFlow.Random.KeyStream
import RowFlow.Table.Basic

/-!
# Reservoir Sampling

A sample of a stream of unknown length. The first rows fill the reservoir; each later row draws a
position among all rows so far and takes the place of the row there, if the reservoir has it. Where
positions are drawn from is a parameter.
-/

namespace RowFlow

/-- Sources of positions. -/
class Draws (γ : Type) where
  /-- A position from zero to `last`. -/
  draw : γ → (last : Nat) → Nat × γ

instance : Draws KeyStream where
  draw := KeyStream.position

/-- A sample of the rows seen so far. -/
structure Reservoir (γ : Type) where
  size : Nat
  seen : Nat
  /-- the rows held, each with its place in the stream -/
  held : List (Nat × Row)
  generator : γ

namespace Reservoir

variable {γ : Type} [Draws γ]

def start (size : Nat) (generator : γ) : Reservoir γ := ⟨size, 0, [], generator⟩

/-- Offers the next row. Nothing is drawn while the reservoir fills, or if it holds nothing at
    all. -/
def offer (reservoir : Reservoir γ) (row : Row) : Reservoir γ :=
  let place := reservoir.seen
  let reservoir := { reservoir with seen := place + 1 }
  if reservoir.held.length < reservoir.size then
    { reservoir with held := reservoir.held ++ [(place, row)] }
  else if reservoir.size = 0 then reservoir
  else
    -- a place beyond the reservoir leaves it as it is
    let (slot, generator) := Draws.draw reservoir.generator place
    if slot < reservoir.size then
      { reservoir with held := reservoir.held.set slot (place, row), generator }
    else { reservoir with generator }

/-- The sampled rows, in the order of their arrival. -/
def rows (reservoir : Reservoir γ) : List Row :=
  (reservoir.held.mergeSort fun a b => a.1 ≤ b.1).map Prod.snd

end Reservoir

end RowFlow
