import RowFlow.Json.Scanner
import RowFlow.Proofs.Text.Utf8

/-!
# Strings Read Back

The JSON string of a text is read as the text, whatever follows it (`Json.stringBody_quotedBody`). The
reader works on bytes and the writer on characters: a character is written as its own bytes, none of
which looks like a quote or a backslash, or as an escape that stands for it.
-/

namespace RowFlow

/-! ## Bytes of characters -/

namespace Utf8

/-- The bytes of two texts behind each other. -/
theorem encode_append (s t : String) : encode (s ++ t) = encode s ++ encode t := by
  rw [encode, String.toList_append, List.flatMap_append]
  rfl

/-- A character below `0x80` is its own byte. -/
theorem encodeChar_of_lt {c : Char} (h : c.toNat < 0x80) : encodeChar c = [c.toUInt8] := by
  have hbyte : encodeChar c = [UInt8.ofNat c.toNat] := if_pos h
  rw [hbyte]
  rfl

theorem toNat_toUInt8 {c : Char} (h : c.toNat < 0x80) : c.toUInt8.toNat = c.toNat := by
  have hbyte : c.toUInt8.toNat = c.toNat % 256 := UInt32.toNat_toUInt8 c.val
  rw [hbyte, Nat.mod_eq_of_lt (by omega)]

/-- Such characters have different bytes. -/
theorem toUInt8_inj {c d : Char} (hc : c.toNat < 0x80) (hd : d.toNat < 0x80)
    (h : c.toUInt8 = d.toUInt8) : c = d := by
  have hvalue := congrArg UInt8.toNat h
  rw [toNat_toUInt8 hc, toNat_toUInt8 hd] at hvalue
  exact Char.toNat_inj.1 hvalue

/-- Only characters of one byte have bytes below `0x80`. -/
theorem le_toNat_of_mem_encodeChar {c : Char} (h : 0x80 ≤ c.toNat) {b : UInt8}
    (hb : b ∈ encodeChar c) : 0x80 ≤ b.toNat := by
  have hmax := toNat_lt c
  -- every byte is a number of at least `0x80`, whatever bits it holds
  have hbyte {n : Nat} (hlow : 0x80 ≤ n) (hhigh : n < 0x100) : 0x80 ≤ (UInt8.ofNat n).toNat :=
    (toNat_ofNat hhigh).symm ▸ hlow
  unfold encodeChar at hb
  dsimp only at hb
  rw [if_neg (Nat.not_lt.2 h)] at hb
  split_ifs at hb <;> simp only [List.mem_cons, List.not_mem_nil, or_false] at hb
  · rcases hb with rfl | rfl <;> exact hbyte (by omega) (by omega)
  · rcases hb with rfl | rfl | rfl <;> exact hbyte (by omega) (by omega)
  · rcases hb with rfl | rfl | rfl | rfl <;> exact hbyte (by omega) (by omega)

end Utf8

namespace Json

/-! ## Bytes of strings -/

/-- A byte that stands for itself inside a string. -/
def IsPlain (b : UInt8) : Prop := b ≠ '"'.toUInt8 ∧ b ≠ '\\'.toUInt8 ∧ 0x20 ≤ b.toNat

/-- The bytes of a character stand for themselves if the character does. -/
theorem isPlain_of_mem_encodeChar {c : Char} (hquote : c ≠ '"') (hslash : c ≠ '\\')
    (hcontrol : 0x20 ≤ c.toNat) {b : UInt8} (hb : b ∈ Utf8.encodeChar c) : IsPlain b := by
  by_cases hascii : c.toNat < 0x80
  · rw [Utf8.encodeChar_of_lt hascii] at hb
    obtain rfl := List.mem_singleton.1 hb
    refine ⟨mt (Utf8.toUInt8_inj hascii (by decide)) hquote,
      mt (Utf8.toUInt8_inj hascii (by decide)) hslash, ?_⟩
    rwa [Utf8.toNat_toUInt8 hascii]
  -- a byte of a larger character is larger than a quote and a backslash
  · have hlarge := Utf8.le_toNat_of_mem_encodeChar (Nat.not_lt.1 hascii) hb
    refine ⟨?_, ?_, by omega⟩
    · rintro rfl
      exact absurd hlarge (by decide)
    · rintro rfl
      exact absurd hlarge (by decide)

/-- Bytes that stand for themselves are put in front of what has been read, the last one first. -/
theorem stringBytes_plain {bytes : List UInt8} (h : ∀ b ∈ bytes, IsPlain b)
    (before rest : List UInt8) :
    stringBytes before 0 (bytes ++ rest) = stringBytes (bytes.reverse ++ before) 0 rest := by
  induction bytes generalizing before with
  | nil => rfl
  | cons b bytes ih =>
    obtain ⟨⟨hquote, hslash, hcontrol⟩, hbytes⟩ := List.forall_mem_cons.1 h
    rw [List.cons_append, stringBytes, if_neg hquote, if_neg hslash,
      if_neg (Nat.not_lt.2 hcontrol), ih hbytes, List.reverse_cons, List.append_assoc]
    rfl

/-- Bytes of an escape that has been resolved are passed over. -/
theorem stringBytes_resolved (before code rest : List UInt8) :
    stringBytes before code.length (code ++ rest) = stringBytes before 0 rest := by
  induction code with
  | nil => rfl
  | cons b code ih => rw [List.length_cons, List.cons_append, stringBytes, ih]

/-- An escape stands for its content, and its bytes are passed over. -/
theorem stringBytes_escape {code rest content : List UInt8}
    (h : escape (code ++ rest) = .ok (content, code.length)) (before : List UInt8) :
    stringBytes before 0 ('\\'.toUInt8 :: code ++ rest) =
      stringBytes (content.reverse ++ before) 0 rest := by
  have hquote : '\\'.toUInt8 ≠ '"'.toUInt8 := by decide
  rw [List.cons_append, stringBytes, if_neg hquote, if_pos rfl, h]
  exact stringBytes_resolved _ _ _

/-! ## Escapes -/

/-- A digit to the base sixteen is read as its value. -/
theorem hexDigit?_digitChar : ∀ d < 16, hexDigit? (Nat.digitChar d).toUInt8 = some d := by
  decide

theorem digitChar_lt : ∀ d < 16, (Nat.digitChar d).toNat < 0x80 := by
  decide

/-- The digits behind the backslash that stand for a control character. -/
def controlCode (c : Char) : List UInt8 :=
  ['u'.toUInt8, '0'.toUInt8, '0'.toUInt8, (Nat.digitChar (c.toNat / 16)).toUInt8,
    (Nat.digitChar (c.toNat % 16)).toUInt8]

/-- A control character is read back from its four digits. -/
theorem escape_controlCode {c : Char} (h : c.toNat < 0x20) (rest : List UInt8) :
    escape (controlCode c ++ rest) = .ok (Utf8.encodeChar c, 5) := by
  have hzero : hexDigit? '0'.toUInt8 = some 0 := by decide
  -- two of the digits are zeros, and the other two make up the character
  have hvalue : ((0 * 16 + 0) * 16 + c.toNat / 16) * 16 + c.toNat % 16 = c.toNat := by omega
  have hunit : hexUnit '0'.toUInt8 '0'.toUInt8 (Nat.digitChar (c.toNat / 16)).toUInt8
      (Nat.digitChar (c.toNat % 16)).toUInt8 = .ok c.toNat := by
    simp only [hexUnit, hzero, hexDigit?_digitChar (c.toNat / 16) (by omega),
      hexDigit?_digitChar (c.toNat % 16) (by omega), hvalue]
  -- no control character is a surrogate
  have htrailing : ¬ (0xDC00 ≤ c.toNat && c.toNat < 0xE000) = true := by simp; omega
  have hleading : ¬ (0xD800 ≤ c.toNat && c.toNat < 0xDC00) = true := by simp; omega
  have hunicode : unicodeEscape ((controlCode c).tail ++ rest) = .ok (c, 5) := by
    simp only [controlCode, List.tail_cons, List.cons_append, unicodeEscape, leadingUnit, hunit,
      bind, Except.bind, if_neg htrailing, if_neg hleading, Char.ofNat_toNat]
    rfl
  have hletter : escapeLetter? 'u'.toUInt8 = none := by decide
  simp only [controlCode, List.tail_cons, List.cons_append] at hunicode
  simp only [controlCode, List.cons_append, escape, hletter, if_true, hunicode]
  rfl

/-- What is written for a character is read as the character. -/
theorem stringBytes_escapeChar (before : List UInt8) (c : Char) (rest : List UInt8) :
    stringBytes before 0 ((escapeChar c).flatMap Utf8.encodeChar ++ rest) =
      stringBytes ((Utf8.encodeChar c).reverse ++ before) 0 rest := by
  unfold escapeChar
  split
  -- the last case is that of the characters without a letter for them
  case h_8 hquote hslash _ _ _ _ _ =>
    split
    · rename_i hcontrol
      have hhigh := digitChar_lt (c.toNat / 16) (by omega)
      have hlow := digitChar_lt (c.toNat % 16) (by omega)
      simp only [List.flatMap_cons, List.flatMap_nil, Utf8.encodeChar_of_lt hhigh,
        Utf8.encodeChar_of_lt hlow]
      exact stringBytes_escape (escape_controlCode hcontrol rest) before
    · rename_i hcontrol
      rw [List.flatMap_singleton]
      exact stringBytes_plain (fun _ => isPlain_of_mem_encodeChar hquote hslash
        (Nat.not_lt.1 hcontrol)) before rest
  all_goals exact stringBytes_escape rfl before

/-- What is written for characters is read as their bytes, up to the closing quote. -/
theorem stringBytes_escaped (before : List UInt8) (chars : List Char) (rest : List UInt8) :
    stringBytes before 0
        ((chars.flatMap escapeChar).flatMap Utf8.encodeChar ++ '"'.toUInt8 :: rest) =
      .ok (before.reverse ++ chars.flatMap Utf8.encodeChar, rest) := by
  -- one character at a time; what has been read is kept with the last byte in front
  induction chars generalizing before with
  | nil =>
    rw [List.flatMap_nil, List.flatMap_nil, List.nil_append, List.append_nil, stringBytes,
      if_pos rfl]
  | cons c chars ih =>
    rw [List.flatMap_cons, List.flatMap_append, List.append_assoc, stringBytes_escapeChar, ih,
      List.reverse_append, List.reverse_reverse, List.append_assoc, List.flatMap_cons]

/-! ## Texts -/

/-- What is written for a text behind the opening quote. -/
def quotedBody (text : String) : List UInt8 :=
  (text.toList.flatMap escapeChar).flatMap Utf8.encodeChar ++ ['"'.toUInt8]

/-- A string starts with its quote. -/
theorem encode_stringText (text : String) :
    Utf8.encode (stringText text) = '"'.toUInt8 :: quotedBody text := by
  rw [stringText, Utf8.encode, String.toList_ofList, List.cons_append, List.flatMap_cons,
    List.flatMap_append]
  rfl

/-- A text is read behind its opening quote. -/
theorem stringBody_quotedBody (text : String) (rest : List UInt8) :
    stringBody (quotedBody text ++ rest) = .ok (text, rest) := by
  have hbytes : stringBytes [] 0 (quotedBody text ++ rest) = .ok (Utf8.encode text, rest) := by
    rw [quotedBody, List.append_assoc]
    exact stringBytes_escaped [] text.toList rest
  rw [stringBody, hbytes]
  simp only [bind, Except.bind, Utf8.decode_encode]
  rfl

end Json

end RowFlow
