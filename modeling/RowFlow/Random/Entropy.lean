import RowFlow.Random.KeyStream

/-!
# Entropy

Generators that nobody has chosen the seed of come from the operating system, a fresh one each time
that it is asked. What it hands out is kept on a tape: nothing is known of the tape, and whoever
asks reads it from the front.
-/

namespace RowFlow

/-- Fresh generators, in the order in which they are asked for. -/
structure Entropy where
  generator : Nat → KeyStream

namespace Entropy

/-- The next generator. -/
def first (entropy : Entropy) : KeyStream := entropy.generator 0

/-- The generator of a seed, or the next one if there is no seed. -/
def generatorOf (entropy : Entropy) : Option UInt64 → KeyStream
  | some seed => .seeded seed
  | none => entropy.first

/-- What is left behind the first `n` generators. -/
def drop (n : Nat) (entropy : Entropy) : Entropy := ⟨fun i => entropy.generator (i + n)⟩

/-- A tape of the generators of a seed and those that follow it. -/
def seeded (seed : Nat) : Entropy := ⟨fun i => .seeded (UInt64.ofNat (seed + i))⟩

end Entropy

end RowFlow
