/-!
# UTF-8

Characters as bytes and back. Decoding reports where the first ill-formed sequence starts, because
readers name that position.
-/

namespace RowFlow

namespace Utf8

/-! ## Encoding -/

/-- The bytes of a character. -/
def encodeChar (c : Char) : List UInt8 :=
  let n := c.toNat
  if n < 0x80 then [UInt8.ofNat n]
  else if n < 0x800 then [UInt8.ofNat (0xC0 + n / 0x40), UInt8.ofNat (0x80 + n % 0x40)]
  else if n < 0x10000 then
    [UInt8.ofNat (0xE0 + n / 0x1000), UInt8.ofNat (0x80 + n / 0x40 % 0x40),
     UInt8.ofNat (0x80 + n % 0x40)]
  else
    [UInt8.ofNat (0xF0 + n / 0x40000), UInt8.ofNat (0x80 + n / 0x1000 % 0x40),
     UInt8.ofNat (0x80 + n / 0x40 % 0x40), UInt8.ofNat (0x80 + n % 0x40)]

def encode (text : String) : List UInt8 := text.toList.flatMap encodeChar

/-! ## Decoding -/

/-- The six bits of a continuation byte. -/
def tail? (b : UInt8) : Option Nat :=
  if 0x80 ≤ b.toNat && b.toNat < 0xC0 then some (b.toNat - 0x80) else none

/-- The character with code point `n`, unless it should have been written with fewer bytes than a
    code point of at least `least` needs, or there is none. -/
def char? (least n : Nat) : Option Char :=
  if h : n.isValidChar then if least ≤ n then some (Char.ofNatAux n h) else none else none

/-- Adds the bits of `n` continuation bytes to a number. -/
def withTails : Nat → Nat → List UInt8 → Option Nat
  | 0, value, _ => some value
  | _ + 1, _, [] => none
  | n + 1, value, b :: rest => do withTails n (value * 0x40 + (← tail? b)) rest

/-- The character that bytes start with and the number of its bytes, unless they are ill-formed. -/
def head? : List UInt8 → Option (Char × Nat)
  | [] => none
  | b :: rest => do
    let first := b.toNat
    if first < 0x80 then return (Char.ofNat first, 1)
    -- a continuation byte starts no character
    else if first < 0xC0 then none
    else if first < 0xE0 then return (← char? 0x80 (← withTails 1 (first - 0xC0) rest), 2)
    else if first < 0xF0 then return (← char? 0x800 (← withTails 2 (first - 0xE0) rest), 3)
    else return (← char? 0x10000 (← withTails 3 (first - 0xF0) rest), 4)

/-- Decodes bytes that start at an offset, after some bytes that have been decoded already. The
    error is the offset of the first ill-formed sequence. -/
def decodeFrom (offset : Nat) : Nat → List UInt8 → Except Nat (List Char)
  | _, [] => .ok []
  | decoded + 1, _ :: rest => decodeFrom (offset + 1) decoded rest
  | 0, b :: rest =>
    match head? (b :: rest) with
    | none => .error offset
    | some (c, length) => (c :: ·) <$> decodeFrom (offset + 1) (length - 1) rest

/-- Decodes bytes as text. The error is the number of well-formed bytes before the first ill-formed
    sequence. -/
def decode (bytes : List UInt8) : Except Nat String := String.ofList <$> decodeFrom 0 0 bytes

end Utf8

end RowFlow
