import RowFlow.Text.Utf8
import RowFlow.Proofs.Success

/-!
# Encoded Texts

What has been encoded can be decoded (`Utf8.decode_encode`). The bytes of a character are read as
this character whatever follows them, so no encoded text starts with a continuation byte, and one
that starts with a byte order mark is a text with this mark in front.
-/

namespace RowFlow

namespace Utf8

/-! ## Bytes -/

theorem toNat_ofNat {n : Nat} (h : n < 0x100) : (UInt8.ofNat n).toNat = n := by
  rw [UInt8.toNat_ofNat', Nat.mod_eq_of_lt h]

theorem withTails_cons (count value : Nat) {n : Nat} (h : n < 0x40) (rest : List UInt8) :
    withTails (count + 1) value (UInt8.ofNat (0x80 + n) :: rest) =
      withTails count (value * 0x40 + n) rest := by
  have hbyte : (UInt8.ofNat (0x80 + n)).toNat = 0x80 + n := toNat_ofNat (by omega)
  have htail : tail? (UInt8.ofNat (0x80 + n)) = some n := by
    have hrange : (0x80 ≤ 0x80 + n && 0x80 + n < 0xC0) = true := by
      simp only [Bool.and_eq_true, decide_eq_true_eq]
      omega
    rw [tail?, hbyte, if_pos hrange, Nat.add_sub_cancel_left]
  rw [withTails, htail]
  rfl

/-! ## Characters -/

theorem char?_toNat (c : Char) {least : Nat} (h : least ≤ c.toNat) :
    char? least c.toNat = some c := by
  have hvalid : c.toNat.isValidChar := c.valid
  rw [char?, dif_pos hvalid, if_pos h]
  rfl

theorem toNat_lt (c : Char) : c.toNat < 0x110000 := by
  have hvalid : c.toNat.isValidChar := c.valid
  simp only [Nat.isValidChar] at hvalid
  omega

/-- The bytes of a character are read as this character, whatever follows them. -/
theorem head?_encodeChar (c : Char) (rest : List UInt8) :
    head? (encodeChar c ++ rest) = some (c, (encodeChar c).length) := by
  have hmax := toNat_lt c
  have hmod (n : Nat) : n % 0x40 < 0x40 := Nat.mod_lt n (by decide)
  -- one case for each number of bytes; the bits in the bytes make up the code point again
  unfold encodeChar
  dsimp only
  split_ifs with h1 h2 h3
  · have hlead : (UInt8.ofNat c.toNat).toNat = c.toNat := toNat_ofNat (by omega)
    simp only [List.cons_append, head?, hlead, if_pos h1, Char.ofNat_toNat]
    rfl
  · have hlead : (UInt8.ofNat (0xC0 + c.toNat / 0x40)).toNat = 0xC0 + c.toNat / 0x40 :=
      toNat_ofNat (by omega)
    have hvalue : c.toNat / 0x40 * 0x40 + c.toNat % 0x40 = c.toNat := by omega
    simp only [List.cons_append, head?, hlead, Nat.add_sub_cancel_left]
    rw [if_neg (by omega), if_neg (by omega), if_pos (by omega), withTails_cons _ _ (hmod _),
      withTails, hvalue]
    simp only [Option.bind_eq_bind, Option.bind_some, char?_toNat c (Nat.not_lt.1 h1)]
    rfl
  · have hlead : (UInt8.ofNat (0xE0 + c.toNat / 0x1000)).toNat = 0xE0 + c.toNat / 0x1000 :=
      toNat_ofNat (by omega)
    have hvalue : (c.toNat / 0x1000 * 0x40 + c.toNat / 0x40 % 0x40) * 0x40 + c.toNat % 0x40 =
        c.toNat := by omega
    simp only [List.cons_append, head?, hlead, Nat.add_sub_cancel_left]
    rw [if_neg (by omega), if_neg (by omega), if_neg (by omega), if_pos (by omega),
      withTails_cons _ _ (hmod _), withTails_cons _ _ (hmod _), withTails, hvalue]
    simp only [Option.bind_eq_bind, Option.bind_some, char?_toNat c (Nat.not_lt.1 h2)]
    rfl
  · have hlead : (UInt8.ofNat (0xF0 + c.toNat / 0x40000)).toNat = 0xF0 + c.toNat / 0x40000 :=
      toNat_ofNat (by omega)
    have hvalue : ((c.toNat / 0x40000 * 0x40 + c.toNat / 0x1000 % 0x40) * 0x40 +
        c.toNat / 0x40 % 0x40) * 0x40 + c.toNat % 0x40 = c.toNat := by omega
    simp only [List.cons_append, head?, hlead, Nat.add_sub_cancel_left]
    rw [if_neg (by omega), if_neg (by omega), if_neg (by omega), if_neg (by omega),
      withTails_cons _ _ (hmod _), withTails_cons _ _ (hmod _), withTails_cons _ _ (hmod _),
      withTails, hvalue]
    simp only [Option.bind_eq_bind, Option.bind_some, char?_toNat c (Nat.not_lt.1 h3)]
    rfl

theorem encodeChar_ne_nil (c : Char) : encodeChar c ≠ [] := by
  intro h
  have hread := head?_encodeChar c []
  rw [h] at hread
  cases hread

/-! ## Texts -/

/-- Bytes that belong to a character that has been decoded are passed over. -/
theorem decodeFrom_append (offset : Nat) (decoded rest : List UInt8) :
    decodeFrom offset decoded.length (decoded ++ rest) =
      decodeFrom (offset + decoded.length) 0 rest := by
  induction decoded generalizing offset with
  | nil => rfl
  | cons b bytes ih =>
    rw [List.length_cons, List.cons_append, decodeFrom, ih, Nat.add_right_comm, Nat.add_assoc]

/-- A character is decoded in front of anything. -/
theorem decodeFrom_encodeChar (offset : Nat) (c : Char) (rest : List UInt8) :
    decodeFrom offset 0 (encodeChar c ++ rest) =
      (c :: ·) <$> decodeFrom (offset + (encodeChar c).length) 0 rest := by
  have hread := head?_encodeChar c rest
  cases hbytes : encodeChar c with
  | nil => exact absurd hbytes (encodeChar_ne_nil c)
  | cons b bytes =>
    rw [hbytes, List.cons_append, List.length_cons] at hread
    rw [List.cons_append, decodeFrom, hread]
    dsimp only
    rw [Nat.add_sub_cancel, decodeFrom_append, List.length_cons, Nat.add_right_comm,
      Nat.add_assoc]

theorem decodeFrom_flatMap (offset : Nat) (chars : List Char) :
    decodeFrom offset 0 (chars.flatMap encodeChar) = .ok chars := by
  induction chars generalizing offset with
  | nil => rfl
  | cons c chars ih =>
    rw [List.flatMap_cons, decodeFrom_encodeChar, ih]
    rfl

/-- Encoded text is decoded to itself. -/
theorem decode_encode (text : String) : decode (encode text) = .ok text := by
  rw [decode, encode, decodeFrom_flatMap]
  exact congrArg Except.ok String.ofList_toList

/-! ## The byte order mark -/

/-- The mark at the start of a text, as bytes. -/
def byteOrderMark : List UInt8 := [0xEF, 0xBB, 0xBF]

/-- The only character that starts with the bytes of the mark is the mark. -/
theorem eq_of_encodeChar_mark {c : Char} {rest rest' : List UInt8}
    (h : encodeChar c ++ rest = byteOrderMark ++ rest') : c = '\uFEFF' := by
  have hmark : encodeChar '\uFEFF' = byteOrderMark := rfl
  have hread := head?_encodeChar c rest
  rw [h, ← hmark, head?_encodeChar] at hread
  exact (Prod.mk.inj (Option.some.inj hread)).1.symm

/-- No character starts with the second byte of the mark. -/
theorem encodeChar_ne_cons (c : Char) (rest rest' : List UInt8) :
    encodeChar c ++ rest ≠ 0xBB :: rest' := by
  intro h
  have hread := head?_encodeChar c rest
  rw [h] at hread
  cases hread

end Utf8

end RowFlow
