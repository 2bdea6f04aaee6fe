import Mathlib.Data.EReal.Basic
import Mathlib.Tactic.FieldSimp
import Mathlib.Tactic.Ring
import RowFlow.Proofs.Number.Integer

/-!
# The Real Numbers of Patterns

What a pattern stands for by the binary64 format, and the comparison of integers with numbers in
terms of it: with the ties given to the integer, the comparison with a number that is not NaN is that
of two extended reals (`Binary64.compareInt_then_lt`).
-/

namespace RowFlow

namespace Binary64

/-! ## Values -/

/-- The value of a finite number: a sign, a significand between one and two, and a power of two. The
    least exponent belongs to numbers below all others, whose significand lies between zero and
    one. -/
noncomputable def toReal (x : Binary64) : ℝ :=
  let exponent : ℕ := x.magnitude / 2 ^ 52
  let fraction : ℝ := (x.magnitude % 2 ^ 52 : ℕ) / 2 ^ 52
  let sign : ℝ := if x.isNegative then -1 else 1
  if exponent = 0 then sign * fraction * 2 ^ (-1022 : ℤ)
  else sign * (1 + fraction) * 2 ^ ((exponent : ℤ) - 1023)

/-- The value of a number that is not NaN. -/
noncomputable def toEReal (x : Binary64) : EReal :=
  if x.isInfinite then if x.isNegative then ⊥ else ⊤ else x.toReal

/-- The value counts the multiples of the least positive number. -/
theorem toReal_mul_unitsPerOne (x : Binary64) : x.toReal * unitsPerOne = x.signedUnits := by
  obtain ⟨point, hpoint, hone⟩ := exists_unitsPerOne_eq
  have hone' : (unitsPerOne : ℝ) = 2 ^ point := by rw [hone, Nat.cast_pow, Nat.cast_ofNat]
  have hsplit := Nat.div_add_mod x.magnitude (2 ^ 52)
  have hsign : (x.signedUnits : ℝ) = (if x.isNegative then -1 else 1) * x.units := by
    rw [signedUnits]
    split
    · rw [Int.cast_neg, Int.cast_natCast, neg_one_mul]
    · rw [Int.cast_natCast, one_mul]
  rw [hsign, hone', toReal]
  split
  · -- the significand is the fraction, and all its bits count
    rename_i hexponent
    have hunits : x.units = x.magnitude % 2 ^ 52 := by
      have hsmall : x.magnitude < 2 ^ 52 := by omega
      have hscale : x.scale = 0 := by rw [scale, hexponent]
      rw [units, hscale, significand, if_pos hsmall, Nat.pow_zero, Nat.mul_one,
        Nat.mod_eq_of_lt hsmall]
    have hpower : (2 : ℝ) ^ (-1022 : ℤ) * 2 ^ point = 2 ^ 52 := by
      rw [← zpow_natCast, ← zpow_add₀ two_ne_zero, hpoint]
      rfl
    rw [mul_assoc, hpower, hunits]
    field_simp
  · rename_i hexponent
    obtain ⟨scale, hscale⟩ := Nat.exists_eq_succ_of_ne_zero hexponent
    have hunits : (x.units : ℝ) = (2 ^ 52 + (x.magnitude % 2 ^ 52 : ℕ)) * 2 ^ scale := by
      have hnormal : ¬ x.magnitude < 2 ^ 52 := by omega
      rw [units, Binary64.scale, hscale, significand, if_neg hnormal, Nat.succ_sub_one,
        Nat.cast_mul, Nat.cast_add, Nat.cast_pow, Nat.cast_pow, Nat.cast_ofNat]
    have hpower : (2 : ℝ) ^ ((x.magnitude / 2 ^ 52 : ℕ) - 1023 : ℤ) * 2 ^ point =
        2 ^ 52 * 2 ^ scale := by
      rw [← zpow_natCast, ← zpow_add₀ two_ne_zero, ← pow_add, ← zpow_natCast, hscale, hpoint]
      congr 1
      omega
    rw [mul_assoc, hpower, hunits]
    field_simp

/-! ## Integers and numbers -/

/-- An integer and a finite number are in order as the multiples of the least positive number that
    they stand for. -/
theorem intCast_le_toReal_iff (n : Int) (x : Binary64) :
    (n : ℝ) ≤ x.toReal ↔ n * unitsPerOne ≤ x.signedUnits := by
  have hpos : (0 : ℝ) < unitsPerOne := Nat.cast_pos.2 unitsPerOne_pos
  rw [← mul_le_mul_iff_left₀ hpos, toReal_mul_unitsPerOne]
  norm_cast

theorem intCast_le_toEReal_iff (n : Int64) (x : Binary64) :
    ((n.toInt : ℝ) : EReal) ≤ x.toEReal ↔ n.toInt * unitsPerOne ≤ x.signedUnits := by
  have hbeyond : int64Limit.magnitude < infiniteMagnitude := by decide
  rw [toEReal]
  cases hinfinite : x.isInfinite with
  | false => exact EReal.coe_le_coe_iff.trans (intCast_le_toReal_iff n.toInt x)
  | true =>
    rw [if_pos rfl]
    rw [isInfinite, beq_iff_eq] at hinfinite
    cases hsign : x.isNegative with
    | true =>
      have hgt := compare_of_limit_lt n hsign (hinfinite ▸ hbeyond)
      have hbot : ¬ ((n.toInt : ℝ) : EReal) ≤ ⊥ := not_le_of_gt (EReal.bot_lt_coe _)
      exact ⟨fun h => absurd h hbot, fun h => absurd h (Int.not_le.2 (Int.compare_eq_gt.1 hgt))⟩
    | false =>
      have hlt := compare_of_limit_le n hsign (hinfinite ▸ Nat.le_of_lt hbeyond)
      exact ⟨fun _ => Int.le_of_lt (Int.compare_eq_lt.1 hlt), fun _ => le_top⟩

/-- Against a NaN an integer is placed by the sign of the NaN, against any other number by value. A
    tie goes to the integer, as the lesser one. -/
theorem compareInt_then_lt (n : Int64) (x : Binary64) :
    (compareInt n x).then .lt =
      if x.isNaN then (if x.isNegative then .gt else .lt)
      else if ((n.toInt : ℝ) : EReal) ≤ x.toEReal then .lt else .gt := by
  cases hnan : x.isNaN with
  | true =>
    rw [compareInt, hnan, if_pos rfl, if_pos rfl]
    cases x.isNegative <;> rfl
  | false =>
    rw [if_neg (by decide), compareInt_eq]
    split
    · rename_i hle
      rw [intCast_le_toEReal_iff] at hle
      rcases hcompare : compare (n.toInt * unitsPerOne) x.signedUnits with _ | _ | _
      · rfl
      · rfl
      · exact absurd hle (Int.not_le.2 (Int.compare_eq_gt.1 hcompare))
    · rename_i hgt
      rw [intCast_le_toEReal_iff, Int.not_le] at hgt
      rw [Int.compare_eq_gt.2 hgt]
      rfl

end Binary64

end RowFlow
