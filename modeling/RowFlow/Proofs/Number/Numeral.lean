import RowFlow.Number.Numeral
import RowFlow.Proofs.Success

/-!
# Integers as Numerals

The decimal digits of an integer are read as the integer (`Numeral.readInt64_toString`). The bounds
of 64 bits are never passed on the way, because reading on only makes a number larger.
-/

namespace RowFlow

namespace Numeral

/-! ## Digits -/

theorem digit?_of_isDigit {c : Char} (h : c.isDigit = true) :
    digit? c = some (c.toNat - '0'.toNat) :=
  if_pos h

theorem le_ofDigitChars (digits : List Char) (n : Nat) : n ≤ Nat.ofDigitChars 10 digits n := by
  rw [Nat.ofDigitChars_eq_ofDigitChars_zero]
  have hpow : 0 < 10 ^ digits.length := Nat.pow_pos (by decide)
  exact Nat.le_add_right_of_le (Nat.le_mul_of_pos_left n hpow)

/-- Digits that make up a number within the limit are read as this number. -/
theorem readBounded_of_le {limit : Nat} (beyond : NumeralFault) {digits : List Char} {n : Nat}
    (hdigits : ∀ c ∈ digits, c.isDigit = true) (hlimit : Nat.ofDigitChars 10 digits n ≤ limit) :
    readBounded limit beyond n digits = .ok (Nat.ofDigitChars 10 digits n) := by
  induction digits generalizing n with
  | nil => rfl
  | cons c rest ih =>
    obtain ⟨hc, hrest⟩ := List.forall_mem_cons.1 hdigits
    rw [Nat.ofDigitChars_cons] at hlimit ⊢
    have hle : 10 * n + (c.toNat - '0'.toNat) ≤ limit :=
      Nat.le_trans (le_ofDigitChars rest _) hlimit
    rw [readBounded, digit?_of_isDigit hc]
    dsimp only
    rw [if_neg (Nat.not_lt.2 hle), ih hrest hlimit]

theorem isDigit_of_mem_decimal {n : Nat} {c : Char} (h : c ∈ Nat.toDigits 10 n) :
    c.isDigit = true :=
  Nat.isDigit_of_mem_toDigits (by decide) (by decide) h

/-- Only zero is written with a leading zero. -/
theorem head?_decimal_ne {n : Nat} (h : 0 < n) : (Nat.toDigits 10 n).head? ≠ some '0' := by
  induction n using Nat.strongRecOn with
  | ind n ih =>
    by_cases hsmall : n < 10
    · have hdigit : ∀ d < 10, 0 < d → Nat.digitChar d ≠ '0' := by decide
      rw [Nat.toDigits_of_lt_base hsmall, List.head?_cons]
      exact mt Option.some.inj (hdigit n hsmall h)
    · rw [Nat.toDigits_of_base_le (by decide) (Nat.not_lt.1 hsmall),
        List.head?_append_of_ne_nil _ Nat.toDigits_ne_nil]
      exact ih (n / 10) (by omega) (by omega)

/-- The decimal digits of a number within the limit are read as this number. -/
theorem readBounded_decimal {limit n : Nat} (beyond : NumeralFault) (h : n ≤ limit) :
    readBounded limit beyond 0 (Nat.toDigits 10 n) = .ok n := by
  have hvalue : Nat.ofDigitChars 10 (Nat.toDigits 10 n) 0 = n := Nat.ofDigitChars_ten_toDigits
  have hlimit : Nat.ofDigitChars 10 (Nat.toDigits 10 n) 0 ≤ limit := by rwa [hvalue]
  rw [readBounded_of_le beyond (fun _ => isDigit_of_mem_decimal) hlimit, hvalue]

/-! ## Signs -/

theorem splitSign_decimal (n : Nat) :
    splitSign (Nat.toDigits 10 n) = (false, Nat.toDigits 10 n) := by
  cases hdigits : Nat.toDigits 10 n with
  | nil => rfl
  | cons c rest =>
    have hdigit : c.isDigit = true := isDigit_of_mem_decimal (n := n) (by simp [hdigits])
    have hminus : c ≠ '-' := by
      rintro rfl
      cases hdigit
    have hplus : c ≠ '+' := by
      rintro rfl
      cases hdigit
    simp [splitSign, hminus, hplus]

/-- The characters of an integer: the digits of its magnitude, behind the sign if there is one. -/
theorem toList_toString (n : Int) :
    (toString n).toList =
      if n < 0 then '-' :: Nat.toDigits 10 n.natAbs else Nat.toDigits 10 n.natAbs := by
  cases n with
  | ofNat m => simp [toString, Int.repr]
  | negSucc m => simp [toString, Int.repr]

/-! ## Integers -/

theorem readInt64_decimal {n : Nat} (h : n ≤ 2 ^ 63 - 1) :
    readInt64 (Nat.toDigits 10 n) = .ok (Int64.ofInt n) := by
  have hread := readBounded_decimal .tooLarge h
  rw [readInt64, splitSign_decimal]
  cases hdigits : Nat.toDigits 10 n with
  | nil => exact absurd hdigits Nat.toDigits_ne_nil
  | cons c rest =>
    rw [hdigits] at hread
    dsimp only
    rw [hread]
    rfl

theorem readInt64_minus_decimal {n : Nat} (h : n ≤ 2 ^ 63) :
    readInt64 ('-' :: Nat.toDigits 10 n) = .ok (Int64.ofInt (-n)) := by
  have hread := readBounded_decimal .tooSmall h
  rw [readInt64, splitSign]
  cases hdigits : Nat.toDigits 10 n with
  | nil => exact absurd hdigits Nat.toDigits_ne_nil
  | cons c rest =>
    rw [hdigits] at hread
    dsimp only
    rw [hread]
    rfl

/-- The text of an integer is read as the integer. -/
theorem readInt64_toString (n : Int64) : readInt64 (toString n.toInt).toList = .ok n := by
  have hlow := n.le_toInt
  have hhigh := n.toInt_lt
  rw [toList_toString]
  split
  · have hvalue : -(n.toInt.natAbs : Int) = n.toInt := by omega
    rw [readInt64_minus_decimal (by omega), hvalue, Int64.ofInt_toInt]
  · have hvalue : (n.toInt.natAbs : Int) = n.toInt := by omega
    rw [readInt64_decimal (by omega), hvalue, Int64.ofInt_toInt]

end Numeral

end RowFlow
