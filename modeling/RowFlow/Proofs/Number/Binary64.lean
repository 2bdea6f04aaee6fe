import RowFlow.Number.Binary64

/-!
# Patterns as Numbers

A pattern is a sign and a magnitude, and magnitudes grow with the absolute values that they stand
for. So comparing patterns amounts to comparing whole multiples of the least positive number, with
the sign deciding between the two zeros (`Binary64.totalCompare_eq`).
-/

namespace RowFlow

/-- Pairs of integers that are ordered alike compare alike. -/
theorem compare_eq_compare {a b c d : Int} (hlt : a < b ↔ c < d) (hgt : b < a ↔ d < c) :
    compare a b = compare c d := by
  rcases h : compare c d with _ | _ | _
  · exact Int.compare_eq_lt.2 (hlt.2 (Int.compare_eq_lt.1 h))
  · have heq : c = d := Int.compare_eq_eq.1 h
    have hab : a = b := by omega
    exact Int.compare_eq_eq.2 hab
  · exact Int.compare_eq_gt.2 (hgt.2 (Int.compare_eq_gt.1 h))

namespace Binary64

variable {x y : Binary64}

/-! ## Signs and magnitudes -/

theorem magnitude_lt (x : Binary64) : x.magnitude < 2 ^ 63 :=
  Nat.mod_lt _ (Nat.two_pow_pos 63)

theorem isNegative_eq_true_iff : x.isNegative = true ↔ 2 ^ 63 ≤ x.bits.toNat := by
  simp only [isNegative, decide_eq_true_eq]

theorem isNegative_eq_false_iff : x.isNegative = false ↔ x.bits.toNat < 2 ^ 63 := by
  simp only [isNegative, decide_eq_false_iff_not, Nat.not_le]

/-- The sign and the magnitude make up a pattern. -/
theorem eq_of_magnitude_eq (hsign : x.isNegative = y.isNegative)
    (hmagnitude : x.magnitude = y.magnitude) : x = y := by
  have hx := x.bits.toNat_lt
  have hy := y.bits.toNat_lt
  simp only [magnitude] at hmagnitude
  have hbits : x.bits.toNat = y.bits.toNat := by
    cases h : x.isNegative with
    | true =>
      have hx' := isNegative_eq_true_iff.1 h
      have hy' := isNegative_eq_true_iff.1 (hsign.symm.trans h)
      omega
    | false =>
      have hx' := isNegative_eq_false_iff.1 h
      have hy' := isNegative_eq_false_iff.1 (hsign.symm.trans h)
      omega
  cases x
  cases y
  exact congrArg mk (UInt64.toNat.inj hbits)

section
variable {m : Nat} (negative : Bool) (hm : m < 2 ^ 63)
include hm

theorem toNat_bits_ofMagnitude :
    (ofMagnitude negative m).bits.toNat = (if negative then 2 ^ 63 else 0) + m := by
  simp only [ofMagnitude, UInt64.toNat_ofNat']
  apply Nat.mod_eq_of_lt
  split <;> omega

@[simp]
theorem isNegative_ofMagnitude : (ofMagnitude negative m).isNegative = negative := by
  have hbits := toNat_bits_ofMagnitude negative hm
  cases negative with
  | true =>
    simp only [if_true] at hbits
    exact isNegative_eq_true_iff.2 (by omega)
  | false =>
    simp only [Bool.false_eq_true, if_false] at hbits
    exact isNegative_eq_false_iff.2 (by omega)

@[simp]
theorem magnitude_ofMagnitude : (ofMagnitude negative m).magnitude = m := by
  have hbits := toNat_bits_ofMagnitude negative hm
  rw [magnitude, hbits]
  split <;> omega

end

theorem isNaN_eq_true_iff : x.isNaN = true ↔ infiniteMagnitude < x.magnitude := by
  simp only [isNaN, decide_eq_true_eq]

theorem isNaN_eq_false_iff : x.isNaN = false ↔ x.magnitude ≤ infiniteMagnitude := by
  simp only [isNaN, decide_eq_false_iff_not, Nat.not_lt]

/-! ## Absolute values -/

/-- The significand of a normal number has its leading bit at 52, that of any other number lies
    below. -/
theorem significand_lt (x : Binary64) : x.significand < 2 ^ 53 := by
  unfold significand
  split
  · omega
  · have hfraction : x.magnitude % 2 ^ 52 < 2 ^ 52 := Nat.mod_lt _ (Nat.two_pow_pos 52)
    omega

/-- Absolute values grow strictly with magnitudes, for the patterns of NaNs too. -/
theorem units_lt_units (h : x.magnitude < y.magnitude) : x.units < y.units := by
  have hsplit (z : Binary64) := Nat.div_add_mod z.magnitude (2 ^ 52)
  have hx := hsplit x
  have hy := hsplit y
  have hfx : x.magnitude % 2 ^ 52 < 2 ^ 52 := Nat.mod_lt _ (Nat.two_pow_pos 52)
  have hfy : y.magnitude % 2 ^ 52 < 2 ^ 52 := Nat.mod_lt _ (Nat.two_pow_pos 52)
  -- the exponents are equal or grow by one at least, which doubles the scale
  have hexponents : x.scale = y.scale ∧ x.significand < y.significand ∨
      x.scale + 1 ≤ y.scale ∧ 2 ^ 52 ≤ y.significand := by
    simp only [scale, significand]
    split <;> split <;> omega
  unfold units
  rcases hexponents with ⟨hscale, hlt⟩ | ⟨hscale, hlow⟩
  · rw [hscale]
    exact Nat.mul_lt_mul_of_pos_right hlt (Nat.two_pow_pos _)
  · calc x.significand * 2 ^ x.scale
        < 2 ^ 53 * 2 ^ x.scale := Nat.mul_lt_mul_of_pos_right x.significand_lt (Nat.two_pow_pos _)
      _ = 2 ^ 52 * 2 ^ (x.scale + 1) := by rw [Nat.pow_succ 2 x.scale]; omega
      _ ≤ 2 ^ 52 * 2 ^ y.scale :=
        Nat.mul_le_mul_left _ (Nat.pow_le_pow_right (by decide) hscale)
      _ ≤ y.significand * 2 ^ y.scale := Nat.mul_le_mul_right _ hlow

theorem units_congr (h : x.magnitude = y.magnitude) : x.units = y.units := by
  simp only [units, significand, scale, h]

theorem units_lt_units_iff : x.units < y.units ↔ x.magnitude < y.magnitude := by
  refine ⟨fun h => ?_, units_lt_units⟩
  rcases Nat.lt_trichotomy x.magnitude y.magnitude with hlt | heq | hgt
  · exact hlt
  · exact absurd (units_congr heq) (Nat.ne_of_lt h)
  · exact absurd (units_lt_units hgt) (Nat.lt_asymm h)

theorem units_le_units_iff : x.units ≤ y.units ↔ x.magnitude ≤ y.magnitude := by
  rw [← Nat.not_lt, ← Nat.not_lt, units_lt_units_iff]

theorem units_eq_units_iff : x.units = y.units ↔ x.magnitude = y.magnitude := by
  rw [Nat.le_antisymm_iff, Nat.le_antisymm_iff, units_le_units_iff, units_le_units_iff]

/-! ## Order -/

/-- The place of a number among the numbers of equal value: `-0` stands before `0`. -/
def side (x : Binary64) : Nat := if x.isNegative then 1 else 2

/-- Patterns compare as the values that they stand for, and then by their signs. -/
theorem totalCompare_eq (x y : Binary64) :
    x.totalCompare y = (compare x.signedUnits y.signedUnits).then (compare x.side y.side) := by
  have hlt := @units_lt_units_iff x y
  have hgt := @units_lt_units_iff y x
  simp only [totalCompare, totalKey, signedUnits, side]
  cases x.isNegative <;> cases y.isNegative <;> simp only [Bool.false_eq_true, if_true, if_false]
  · rw [show compare 2 2 = Ordering.eq from rfl, Ordering.then_eq]
    exact compare_eq_compare (by omega) (by omega)
  · -- of two zeros the one without sign is the greater one, as of any two other numbers
    have hkeys : compare (x.magnitude : Int) (-(y.magnitude : Int) - 1) = .gt :=
      Int.compare_eq_gt.2 (by omega)
    rw [hkeys, show compare 2 1 = Ordering.gt from rfl]
    rcases h : compare (x.units : Int) (-(y.units : Int)) with _ | _ | _
    · have hneg := Int.compare_eq_lt.1 h
      omega
    · rfl
    · rfl
  · have hkeys : compare (-(x.magnitude : Int) - 1) (y.magnitude : Int) = .lt :=
      Int.compare_eq_lt.2 (by omega)
    rw [hkeys, show compare 1 2 = Ordering.lt from rfl]
    rcases h : compare (-(x.units : Int)) (y.units : Int) with _ | _ | _
    · rfl
    · rfl
    · have hneg := Int.compare_eq_gt.1 h
      omega
  · rw [show compare 1 1 = Ordering.eq from rfl, Ordering.then_eq]
    exact compare_eq_compare (by omega) (by omega)

end Binary64

end RowFlow
