import RowFlow.Json.Table
import RowFlow.Proofs.Json.Strings
import RowFlow.Proofs.Number.Numeral

/-!
# Scalars Read Back

What it means that a reader takes a text for a value (`Json.Reads`), and that it holds of the JSON
texts of strings, truths and 64-bit integers. A number has no closing mark, so what follows the text
counts: inside of a document that is another item or the end of a container.
-/

namespace RowFlow

namespace Json

/-! ## What starts and what follows a value -/

/-- A text that starts like a value: not with a blank, and not with the end of an array. -/
def Starts (text : String) : Prop :=
  ∃ b bytes, Utf8.encode text = b :: bytes ∧ isBlank b = false ∧ b ≠ ']'.toUInt8

/-- What may follow a value: another item, the end of a container or nothing. -/
def Delimited (rest : List UInt8) : Prop :=
  ∀ b ∈ rest.head?, b = ','.toUInt8 ∨ b = ']'.toUInt8 ∨ b = '\x7d'.toUInt8

theorem delimited_cons {b : UInt8} (h : b = ','.toUInt8 ∨ b = ']'.toUInt8 ∨ b = '\x7d'.toUInt8)
    (rest : List UInt8) : Delimited (b :: rest) := by
  intro c hc
  obtain rfl := Option.some.inj hc
  exact h

/-- A reader takes a text for a value, whatever follows it inside of a document. -/
structure Reads {α : Type} (reader : Reader α) (text : String) (value : α) : Prop where
  starts : Starts text
  reads : ∀ rest, Delimited rest → reader (Utf8.encode text ++ rest) = .ok (value, rest)

/-- Nothing is skipped in front of a byte that is no blank. -/
theorem skipBlanks_cons {b : UInt8} (h : isBlank b = false) (bytes : List UInt8) :
    skipBlanks (b :: bytes) = b :: bytes := by
  rw [skipBlanks, List.dropWhile_cons, h, if_neg Bool.false_ne_true]

/-- A reader that may start with a byte is tried on it. -/
theorem startingWith_cons {α : Type} {accepts : UInt8 → Bool} {b : UInt8}
    (hblank : isBlank b = false) (h : accepts b = true) (reader : Reader α) (bytes : List UInt8) :
    startingWith accepts reader (b :: bytes) = reader (b :: bytes) := by
  rw [startingWith, skipBlanks_cons hblank]
  exact if_pos h

/-- What is read may be mapped. -/
theorem Reads.map {α β : Type} {reader : Reader α} {text : String} {value : α}
    (h : Reads reader text value) (f : α → β) : Reads (mapReader f reader) text (f value) where
  starts := h.starts
  reads rest hrest := by
    rw [mapReader, h.reads rest hrest]
    rfl

/-! ## Strings and truths -/

theorem starts_stringText (text : String) : Starts (stringText text) :=
  ⟨'"'.toUInt8, quotedBody text, encode_stringText text, rfl, by decide⟩

/-- The JSON string of a text is read as the text. -/
theorem reads_stringText (text : String) : Reads stringValue (stringText text) text where
  starts := starts_stringText text
  reads rest _ := by
    rw [encode_stringText, List.cons_append, stringValue, startingWith_cons rfl rfl]
    exact stringBody_quotedBody text rest

/-- Truths are read back from their words. -/
theorem reads_truth (b : Bool) : Reads boolValue (if b then "true" else "false") b where
  starts := by
    cases b with
    | true => exact ⟨'t'.toUInt8, Utf8.encode "rue", by decide, rfl, by decide⟩
    | false => exact ⟨'f'.toUInt8, Utf8.encode "alse", by decide, rfl, by decide⟩
  reads rest _ := by
    cases b with
    | true => rfl
    | false => rfl

/-! ## Digits -/

/-- Digits that a delimiter follows are all of the number. -/
theorem Delimited.afterWhole {rest : List UInt8} (h : Delimited rest) (negative : Bool)
    (significand : Nat) :
    afterWhole negative significand rest = .ok (wholeNumber negative significand, rest) := by
  cases rest with
  | nil => rfl
  | cons b rest => rcases h b rfl with rfl | rfl | rfl <;> rfl

/-- No delimiter is a digit. -/
theorem Delimited.isDigit {b : UInt8} {rest : List UInt8} (h : Delimited (b :: rest)) :
    isDigit b = false := by
  rcases h b rfl with rfl | rfl | rfl <;> rfl

theorem toNat_lt_of_isDigit {c : Char} (h : c.isDigit = true) : c.toNat < 0x80 :=
  Nat.lt_of_le_of_lt (Char.isDigit_iff_toNat.1 h).2 (by decide)

/-- The byte of a digit is a digit. -/
theorem isDigit_toUInt8 {c : Char} (h : c.isDigit = true) : isDigit c.toUInt8 = true := by
  obtain ⟨hlow, hhigh⟩ := Char.isDigit_iff_toNat.1 h
  simp only [Char.reduceToNat] at hlow hhigh
  simp only [isDigit, Utf8.toNat_toUInt8 (toNat_lt_of_isDigit h), Bool.and_eq_true,
    decide_eq_true_eq]
  exact ⟨hlow, hhigh⟩

/-- It has the value of the digit. -/
theorem digitValue_toUInt8 {c : Char} (h : c.isDigit = true) :
    digitValue c.toUInt8 = c.toNat - '0'.toNat := by
  rw [digitValue, Utf8.toNat_toUInt8 (toNat_lt_of_isDigit h)]
  rfl

/-- Digits have one byte each. -/
theorem encode_digits {digits : List Char} (h : ∀ c ∈ digits, c.isDigit = true) :
    digits.flatMap Utf8.encodeChar = digits.map Char.toUInt8 := by
  rw [List.map_eq_flatMap]
  exact List.flatMap_congr fun c hc => Utf8.encodeChar_of_lt (toNat_lt_of_isDigit (h c hc))

/-- Digits that make up a number within the limit are read as this number. -/
theorem wholeDigits_of_le {digits : List Char} {rest : List UInt8} {n : Nat}
    (hdigits : ∀ c ∈ digits, c.isDigit = true)
    (hlimit : Nat.ofDigitChars 10 digits n ≤ significandLimit) (hrest : Delimited rest)
    (negative : Bool) :
    wholeDigits negative n (digits.map Char.toUInt8 ++ rest) =
      .ok (wholeNumber negative (Nat.ofDigitChars 10 digits n), rest) := by
  induction digits generalizing n with
  | nil =>
    rw [List.map_nil, List.nil_append, Nat.ofDigitChars_nil, ← hrest.afterWhole]
    cases rest with
    | nil => rfl
    | cons b rest => rw [wholeDigits, hrest.isDigit, if_neg Bool.false_ne_true]
  | cons c digits ih =>
    obtain ⟨hc, hdigits⟩ := List.forall_mem_cons.1 hdigits
    rw [Nat.ofDigitChars_cons] at hlimit ⊢
    -- further digits only make the number larger, so the limit is not passed on the way
    have hle : 10 * n + (c.toNat - '0'.toNat) ≤ significandLimit :=
      Nat.le_trans (Numeral.le_ofDigitChars digits _) hlimit
    rw [List.map_cons, List.cons_append, wholeDigits, if_pos (isDigit_toUInt8 hc)]
    dsimp only
    rw [digitValue_toUInt8 hc, if_neg (Nat.not_lt.2 hle), ih hdigits hlimit]

/-- The digits of a number within the limit are read as this number. -/
theorem numeral_decimal {n : Nat} {rest : List UInt8} (hlimit : n ≤ significandLimit)
    (hrest : Delimited rest) (negative : Bool) :
    numeral negative ((Nat.toDigits 10 n).map Char.toUInt8 ++ rest) =
      .ok (wholeNumber negative n, rest) := by
  -- a zero stands alone, and no other number starts with a zero
  rcases Nat.eq_zero_or_pos n with rfl | hpos
  · have hdigit : ¬ rest.head?.any Json.isDigit = true := by
      cases rest with
      | nil => exact Bool.false_ne_true
      | cons b rest =>
        rw [List.head?_cons, Option.any_some, hrest.isDigit]
        exact Bool.false_ne_true
    have hzero : (Nat.toDigits 10 0).map Char.toUInt8 = ['0'.toUInt8] := by decide
    rw [hzero, List.cons_append, List.nil_append, numeral, if_pos rfl, if_neg hdigit,
      hrest.afterWhole]
    rfl
  · have hvalue : Nat.ofDigitChars 10 (Nat.toDigits 10 n) 0 = n := Nat.ofDigitChars_ten_toDigits
    have hdigits : ∀ c ∈ Nat.toDigits 10 n, c.isDigit = true :=
      fun _ => Numeral.isDigit_of_mem_decimal
    have hhead := Numeral.head?_decimal_ne hpos
    cases h : Nat.toDigits 10 n with
    | nil => exact absurd h Nat.toDigits_ne_nil
    | cons c digits =>
      rw [h] at hvalue hdigits hhead
      obtain ⟨hc, hdigits⟩ := List.forall_mem_cons.1 hdigits
      -- the first digit is not a zero, so digits may follow it
      have hzero : c.toUInt8 ≠ '0'.toUInt8 := fun heq => hhead (congrArg some
        (Utf8.toUInt8_inj (toNat_lt_of_isDigit hc) (by decide) heq))
      have hdigit : ¬ (!isDigit c.toUInt8) = true := by
        rw [isDigit_toUInt8 hc]
        exact Bool.false_ne_true
      rw [Nat.ofDigitChars_cons, Nat.mul_zero, Nat.zero_add] at hvalue
      rw [List.map_cons, List.cons_append, numeral, if_neg hdigit, if_neg hzero,
        digitValue_toUInt8 hc, wholeDigits_of_le hdigits (by rwa [hvalue]) hrest, hvalue]

/-! ## Integers -/

theorem ne_of_isDigit {b d : UInt8} (h : isDigit b = true) (hd : isDigit d = false) : b ≠ d := by
  rintro rfl
  rw [h] at hd
  cases hd

/-- No digit is a blank. -/
theorem isBlank_of_isDigit {b : UInt8} (h : isDigit b = true) : isBlank b = false := by
  have hspace : b ≠ ' '.toUInt8 := ne_of_isDigit h rfl
  have hnewline : b ≠ '\n'.toUInt8 := ne_of_isDigit h rfl
  have htab : b ≠ '\t'.toUInt8 := ne_of_isDigit h rfl
  have hreturn : b ≠ '\r'.toUInt8 := ne_of_isDigit h rfl
  simp only [isBlank, Bool.or_eq_false_iff, beq_eq_false_iff_ne]
  exact ⟨⟨⟨hspace, hnewline⟩, htab⟩, hreturn⟩

/-- A document that starts with a digit is a number. -/
theorem valueWith_of_isDigit {b : UInt8} (h : isDigit b = true) (inner : Option (Reader Json))
    (bytes : List UInt8) : valueWith inner (b :: bytes) = numeral false (b :: bytes) := by
  -- none of the other documents starts with a digit
  have hnull : b ≠ 'n'.toUInt8 := ne_of_isDigit h rfl
  have htrue : b ≠ 't'.toUInt8 := ne_of_isDigit h rfl
  have hfalse : b ≠ 'f'.toUInt8 := ne_of_isDigit h rfl
  have hminus : b ≠ '-'.toUInt8 := ne_of_isDigit h rfl
  rw [valueWith, skipBlanks_cons (isBlank_of_isDigit h)]
  dsimp only
  rw [if_neg hnull, if_neg htrue, if_neg hfalse, if_neg hminus, if_pos h]

/-- An integer of 64 bits fits into 64 bits. -/
theorem fit?_toInt (n : Int64) : Operator.fit? n.toInt = some n := by
  have hrange : (-(2 ^ 63) ≤ n.toInt && n.toInt < 2 ^ 63) = true := by
    rw [Bool.and_eq_true, decide_eq_true_eq, decide_eq_true_eq]
    exact ⟨n.le_toInt, n.toInt_lt⟩
  rw [Operator.fit?, if_pos hrange, Int64.ofInt_toInt]

/-- An integer is its sign and its absolute value. -/
theorem wholeNumber_natAbs (n : Int64) :
    wholeNumber (n.toInt < 0) n.toInt.natAbs = .int n.toInt := by
  have hlow := n.le_toInt
  by_cases hneg : n.toInt < 0
  · -- the least integer is its own bound
    have hint : ¬ (n.toInt.natAbs = 0 || 2 ^ 63 < n.toInt.natAbs) = true := by
      rw [Bool.or_eq_true, decide_eq_true_eq, decide_eq_true_eq]
      omega
    have hvalue : -(n.toInt.natAbs : Int) = n.toInt := by omega
    rw [decide_eq_true hneg, wholeNumber, if_neg (by decide), if_neg hint, hvalue]
  · have hvalue : (n.toInt.natAbs : Int) = n.toInt := by omega
    rw [decide_eq_false hneg, wholeNumber, if_pos (by decide), hvalue]

/-- The text of an integer starts with a sign or a digit, and is the integer as a document. -/
theorem valueWith_toString (n : Int64) :
    ∃ b bytes, Utf8.encode (toString n.toInt) = b :: bytes ∧
      (b = '-'.toUInt8 ∨ isDigit b = true) ∧
      ∀ rest, Delimited rest →
        valueWith none (b :: (bytes ++ rest)) = .ok (.int n.toInt, rest) := by
  have hlow := n.le_toInt
  have hhigh := n.toInt_lt
  have hlimit : n.toInt.natAbs ≤ significandLimit := by
    rw [significandLimit]
    omega
  have hread {rest : List UInt8} (hrest : Delimited rest) :=
    numeral_decimal hlimit hrest (n.toInt < 0)
  rw [wholeNumber_natAbs] at hread
  have hdigits : ∀ c ∈ Nat.toDigits 10 n.toInt.natAbs, c.isDigit = true :=
    fun _ => Numeral.isDigit_of_mem_decimal
  -- the text has a minus in front of its digits, or it has nothing but digits
  rw [Utf8.encode, Numeral.toList_toString]
  split
  · rename_i hneg
    rw [decide_eq_true hneg] at hread
    rw [List.flatMap_cons, encode_digits hdigits]
    exact ⟨_, _, rfl, .inl rfl, fun _ => hread⟩
  · rename_i hneg
    rw [decide_eq_false hneg] at hread
    rw [encode_digits hdigits]
    cases h : Nat.toDigits 10 n.toInt.natAbs with
    | nil => exact absurd h Nat.toDigits_ne_nil
    | cons c digits =>
      rw [h] at hdigits hread
      have hdigit := isDigit_toUInt8 (hdigits c List.mem_cons_self)
      refine ⟨_, _, rfl, .inr hdigit, fun rest hrest => ?_⟩
      rw [valueWith_of_isDigit hdigit]
      exact hread hrest

/-- The text of an integer is read as the integer. -/
theorem reads_toString (n : Int64) : Reads int64Value (toString n.toInt) n := by
  obtain ⟨b, bytes, htext, hstart, hread⟩ := valueWith_toString n
  have hblank : isBlank b = false := by
    rcases hstart with rfl | hdigit
    · rfl
    · exact isBlank_of_isDigit hdigit
  have hend : b ≠ ']'.toUInt8 := by
    rcases hstart with rfl | hdigit
    · decide
    · exact ne_of_isDigit hdigit rfl
  -- a number starts with a minus or with a digit
  have haccepts : (b == '-'.toUInt8 || isDigit b) = true := by
    rwa [Bool.or_eq_true, beq_iff_eq]
  refine ⟨⟨b, bytes, htext, hblank, hend⟩, fun rest hrest => ?_⟩
  rw [htext, List.cons_append, int64Value, numberValue, startingWith_cons hblank haccepts,
    hread rest hrest]
  simp only [bind, Except.bind, fit?_toInt]
  rfl

end Json

end RowFlow
