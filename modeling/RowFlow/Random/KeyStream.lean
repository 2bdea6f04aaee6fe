/-!
# Key Stream

A deterministic stream of 32-bit words from a 64-bit seed: the key stream of a cipher with twelve
rounds over a state of sixteen words, under a key that the seed is expanded to.
-/

namespace RowFlow

/-- A position in the stream of a key. -/
structure KeyStream where
  key : List UInt32
  /-- number of the next block -/
  block : UInt64
  /-- words of the current block that are still to come -/
  pending : List UInt32
  deriving DecidableEq

namespace KeyStream

/-! ## Words -/

/-- Rotation to the left by `0 < n < 32` bits. -/
def rotateLeft (x : UInt32) (n : UInt32) : UInt32 := (x <<< n) ||| (x >>> (32 - n))

/-- Rotation to the right by `n < 32` bits. -/
def rotateRight (x : UInt32) (n : UInt32) : UInt32 := if n = 0 then x else rotateLeft x (32 - n)

/-! ## Seeding -/

/-- One step of the seed and the word that it yields. -/
def seedWord (state : UInt64) : UInt32 × UInt64 :=
  let state := state * 6364136223846793005 + 11634580027462260723
  (rotateRight (((state >>> 18) ^^^ state) >>> 27).toUInt32 (state >>> 59).toUInt32, state)

/-- The next `n` words of a seed. -/
def seedWords : Nat → UInt64 → List UInt32
  | 0, _ => []
  | n + 1, state =>
    let (word, state) := seedWord state
    word :: seedWords n state

/-- The start of the stream of a seed. -/
def seeded (seed : UInt64) : KeyStream := ⟨seedWords 8 seed, 0, []⟩

/-! ## Blocks -/

/-- Mixes the words at four positions of a state. -/
def quarter (a b c d : Nat) (s : Array UInt32) : Array UInt32 :=
  let w (i : Nat) (s : Array UInt32) : UInt32 := s.getD i 0
  -- a sum that wraps around, then an exclusive or that is rotated
  let mix (i j k : Nat) (n : UInt32) (s : Array UInt32) : Array UInt32 :=
    let s := s.setIfInBounds i (w i s + w j s)
    s.setIfInBounds k (rotateLeft (w k s ^^^ w i s) n)
  mix c d b 7 (mix a b d 8 (mix c d b 12 (mix a b d 16 s)))

/-- Two rounds: the columns, then the diagonals. -/
def doubleRound (s : Array UInt32) : Array UInt32 :=
  let s := quarter 3 7 11 15 (quarter 2 6 10 14 (quarter 1 5 9 13 (quarter 0 4 8 12 s)))
  quarter 3 4 9 14 (quarter 2 7 8 13 (quarter 1 6 11 12 (quarter 0 5 10 15 s)))

/-- The state before a block: four constant words, the key, the block number and two zero words. -/
def initial (key : List UInt32) (block : UInt64) : Array UInt32 :=
  let constants : List UInt32 := [0x61707865, 0x3320646e, 0x79622d32, 0x6b206574]
  (constants ++ key ++ [block.toUInt32, (block >>> 32).toUInt32, 0, 0]).toArray

/-- The words of a block. -/
def words (key : List UInt32) (block : UInt64) : List UInt32 :=
  let start := initial key block
  ((Nat.repeat doubleRound 6 start).zipWith (· + ·) start).toList

/-- The next word. -/
def next (stream : KeyStream) : UInt32 × KeyStream :=
  match stream.pending with
  | word :: rest => (word, { stream with pending := rest })
  | [] =>
    let fresh := { stream with block := stream.block + 1 }
    match words stream.key stream.block with
    | word :: rest => (word, { fresh with pending := rest })
    | [] => (0, fresh)

/-! ## Ranges -/

/-- A position from zero to `last`, nearly uniform: the next word is scaled to the range, and a
    second word settles whether its lower half carries. -/
def position (stream : KeyStream) (last : Nat) : Nat × KeyStream :=
  let range := last + 1
  let (word, stream) := stream.next
  let product := word.toNat * range
  let high := product / UInt32.size
  let low := product % UInt32.size
  -- only then can the next word carry into the position
  if UInt32.size - range < low then
    let (word, stream) := stream.next
    let carry := word.toNat * range / UInt32.size
    (if UInt32.size ≤ low + carry then high + 1 else high, stream)
  else (high, stream)

end KeyStream

end RowFlow
