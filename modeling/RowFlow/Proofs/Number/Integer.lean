import RowFlow.Number.Integer
import RowFlow.Proofs.Number.Binary64

/-!
# Comparing Integers with Numbers

The comparison of an integer with a number cuts the number to its integer part and looks at the
fraction last. No step of it rounds: it is the comparison of two whole multiples of the least
positive number (`Binary64.compareInt_eq`).
-/

namespace RowFlow

/-- An integer and a multiple of a unit with a remainder: the remainder decides between equal
    multiples only. -/
theorem compare_mul_add {n whole rest unit : Int} (hlow : -unit < rest) (hhigh : rest < unit) :
    compare (n * unit) (whole * unit + rest) = (compare n whole).then (compare 0 rest) := by
  have hunit : 0 ≤ unit := by omega
  -- different multiples are a whole unit apart, which no remainder makes up for
  rcases h : compare n whole with _ | _ | _
  · have hle : (n + 1) * unit ≤ whole * unit :=
      Int.mul_le_mul_of_nonneg_right (Int.compare_eq_lt.1 h) hunit
    rw [Int.add_mul, Int.one_mul] at hle
    exact Int.compare_eq_lt.2 (by omega)
  · obtain rfl := Int.compare_eq_eq.1 h
    exact compare_eq_compare (by omega) (by omega)
  · have hle : (whole + 1) * unit ≤ n * unit :=
      Int.mul_le_mul_of_nonneg_right (Int.compare_eq_gt.1 h) hunit
    rw [Int.add_mul, Int.one_mul] at hle
    exact Int.compare_eq_gt.2 (by omega)

namespace Binary64

variable {x y : Binary64}

/-! ## Rounded differences -/

theorem nearest_one (k : Nat) : nearest k 1 = k := by
  simp only [nearest, Nat.div_one, Nat.mod_one, Nat.mul_zero, Nat.zero_lt_one, if_true]

theorem nearestMagnitude_le (num den : Nat) : nearestMagnitude num den ≤ infiniteMagnitude :=
  Nat.min_le_left _ _

theorem nearestMagnitude_lt (num den : Nat) : nearestMagnitude num den < 2 ^ 63 :=
  Nat.lt_of_le_of_lt (nearestMagnitude_le num den) (by decide)

/-- Rounding whole multiples of the least positive number keeps them apart from zero. -/
theorem nearestMagnitude_pos {k : Nat} (h : 0 < k) : 0 < nearestMagnitude k 1 := by
  simp only [nearestMagnitude, Nat.div_one, Nat.one_mul]
  refine Nat.lt_min.2 ⟨by decide, ?_⟩
  -- small multiples are kept exactly; large ones have an exponent above zero
  rcases Nat.eq_zero_or_pos (k.log2 - 52) with hshift | hshift
  · rw [hshift, Nat.pow_zero, nearest_one]
    omega
  · have hscale : 1 * 2 ^ 52 ≤ (k.log2 - 52) * 2 ^ 52 := Nat.mul_le_mul_right _ hshift
    omega

theorem nearestMagnitude_zero : nearestMagnitude 0 1 = 0 := by decide

theorem isNaN_ofUnits (i : Int) (negativeZero : Bool) : (ofUnits i negativeZero).isNaN = false := by
  rw [isNaN_eq_false_iff, ofUnits, magnitude_ofMagnitude _ (nearestMagnitude_lt _ _)]
  exact nearestMagnitude_le _ _

/-- A rounded multiple of the least positive number has the sign of the multiple. -/
theorem compare_zero_ofUnits (i : Int) (negativeZero : Bool) :
    compare 0 (ofUnits i negativeZero).key = compare 0 i := by
  have hsmall := nearestMagnitude_lt i.natAbs 1
  simp only [key, ofUnits, isNegative_ofMagnitude _ hsmall, magnitude_ofMagnitude _ hsmall]
  -- the sign bit is set for negative multiples, and for some zeros, which are equal to zero
  rcases Int.lt_trichotomy i 0 with hneg | rfl | hpos
  · have hmagnitude := nearestMagnitude_pos (k := i.natAbs) (by omega)
    rw [decide_eq_true hneg, Bool.true_or, if_pos rfl]
    exact compare_eq_compare (by omega) (by omega)
  · rw [Int.natAbs_zero, nearestMagnitude_zero]
    split <;> rfl
  · have hmagnitude := nearestMagnitude_pos (k := i.natAbs) (by omega)
    have hsign : (i < 0 || (i == 0 && negativeZero)) = false := by
      rw [decide_eq_false (by omega), beq_eq_false_iff_ne.2 (by omega)]
      rfl
    rw [hsign, if_neg (by decide)]
    exact compare_eq_compare (by omega) (by omega)

theorem magnitude_neg (x : Binary64) : x.neg.magnitude = x.magnitude :=
  magnitude_ofMagnitude _ x.magnitude_lt

theorem signedUnits_neg (x : Binary64) : x.neg.signedUnits = -x.signedUnits := by
  have hsign : x.neg.isNegative = !x.isNegative := isNegative_ofMagnitude _ x.magnitude_lt
  have hunits : x.neg.units = x.units := units_congr x.magnitude_neg
  rw [signedUnits, signedUnits, hsign, hunits]
  cases x.isNegative
  · rfl
  · exact (Int.neg_neg _).symm

/-- Finite numbers are subtracted exactly, and the difference is rounded once. -/
theorem sub_eq_ofUnits (hx : x.magnitude < infiniteMagnitude)
    (hy : y.magnitude < infiniteMagnitude) :
    ∃ negativeZero, x.sub y = ofUnits (x.signedUnits - y.signedUnits) negativeZero := by
  have hfinite {z : Binary64} (hz : z.magnitude < infiniteMagnitude) :
      z.isNaN = false ∧ z.isInfinite = false := by
    refine ⟨isNaN_eq_false_iff.2 (Nat.le_of_lt hz), ?_⟩
    rw [isInfinite, beq_eq_false_iff_ne]
    omega
  have hneg := hfinite (z := y.neg) (y.magnitude_neg ▸ hy)
  refine ⟨x.isNegative && y.neg.isNegative, ?_⟩
  rw [sub, unlessNaN, (hfinite hx).1, (hfinite hy).1, sum, (hfinite hx).2, hneg.2, signedUnits_neg]
  rfl

/-! ## Integer parts -/

theorem wholeMagnitude_le (m : Nat) : wholeMagnitude m ≤ m := by
  unfold wholeMagnitude
  split
  · exact Nat.zero_le _
  · split
    · exact Nat.le_refl _
    · exact Nat.div_mul_le_self _ _

theorem magnitude_trunc (x : Binary64) : x.trunc.magnitude = wholeMagnitude x.magnitude :=
  magnitude_ofMagnitude _ (Nat.lt_of_le_of_lt (wholeMagnitude_le _) x.magnitude_lt)

theorem isNegative_trunc (x : Binary64) : x.trunc.isNegative = x.isNegative :=
  isNegative_ofMagnitude _ (Nat.lt_of_le_of_lt (wholeMagnitude_le _) x.magnitude_lt)

/-- Clearing bits of the fraction leaves the exponent. -/
theorem clear_low_bits (m : Nat) {k : Nat} (h : k ≤ 52) :
    m / 2 ^ k * 2 ^ k / 2 ^ 52 = m / 2 ^ 52 ∧
      m / 2 ^ k * 2 ^ k % 2 ^ 52 = m % 2 ^ 52 / 2 ^ k * 2 ^ k := by
  have hsplit : 2 ^ 52 = 2 ^ k * 2 ^ (52 - k) := by
    rw [← Nat.pow_add]
    congr 1
    omega
  rw [hsplit, Nat.mul_comm (m / 2 ^ k)]
  refine ⟨?_, ?_⟩
  · rw [Nat.mul_div_mul_left _ _ (Nat.two_pow_pos k), Nat.div_div_eq_div_mul]
  · rw [Nat.mul_mod_mul_left, Nat.mod_mul_right_div_self, Nat.mul_comm]

/-- The power of two that one is, with an exponent that is no numeral. -/
theorem exists_unitsPerOne_eq : ∃ point, point = 1074 ∧ unitsPerOne = 2 ^ point := by
  unfold unitsPerOne
  exact ⟨_, rfl, rfl⟩

theorem unitsPerOne_pos : 0 < unitsPerOne := by
  obtain ⟨point, -, hunits⟩ := exists_unitsPerOne_eq
  exact hunits ▸ Nat.two_pow_pos point

/-- What a number loses with its fraction are the units that do not make up a whole one. -/
theorem units_trunc (x : Binary64) : x.trunc.units = x.units / unitsPerOne * unitsPerOne := by
  have hsplit := Nat.div_add_mod x.magnitude (2 ^ 52)
  have hfraction : x.magnitude % 2 ^ 52 < 2 ^ 52 := Nat.mod_lt _ (Nat.two_pow_pos 52)
  obtain ⟨point, hpoint, hone⟩ := exists_unitsPerOne_eq
  have hmagnitude := x.magnitude_trunc
  simp only [wholeMagnitude] at hmagnitude
  split at hmagnitude
  · -- the number lies below one
    rename_i hsmall
    have hscale : x.scale ≤ 1021 := by
      unfold scale
      omega
    have hlt : x.units < unitsPerOne := by
      calc x.significand * 2 ^ x.scale
          < 2 ^ 53 * 2 ^ x.scale := Nat.mul_lt_mul_of_pos_right x.significand_lt (Nat.two_pow_pos _)
        _ = 2 ^ (53 + x.scale) := (Nat.pow_add ..).symm
        _ ≤ 2 ^ point := Nat.pow_le_pow_right (by decide) (by omega)
        _ = unitsPerOne := hone.symm
    have hzero : zero.units = 0 := by decide
    have hcut : x.trunc.units = zero.units := units_congr hmagnitude
    rw [hcut, hzero, Nat.div_eq_of_lt hlt, Nat.zero_mul]
  · split at hmagnitude
    · -- all bits of the number are worth one at least
      rename_i hlarge
      have hdvd : 2 ^ point ∣ x.units :=
        Nat.dvd_mul_left_of_dvd (Nat.pow_dvd_pow 2 (by unfold scale; omega)) _
      rw [units_congr hmagnitude, hone, Nat.div_mul_cancel hdvd]
    · rename_i hlow hhigh
      -- `k` bits of the fraction lie behind the point
      obtain ⟨k, hk⟩ : ∃ k, k = 1075 - x.magnitude / 2 ^ 52 := ⟨_, rfl⟩
      rw [← hk] at hmagnitude
      obtain ⟨hexponent, hcleared⟩ := clear_low_bits x.magnitude (k := k) (by omega)
      rw [← hmagnitude] at hexponent hcleared
      have hscale : x.trunc.scale = x.scale := by rw [scale, scale, hexponent]
      have hunits : unitsPerOne = 2 ^ k * 2 ^ x.scale := by
        have hbits : point = k + x.scale := by
          unfold scale
          omega
        rw [hone, hbits, Nat.pow_add]
      have hsignificand : x.trunc.significand = x.significand / 2 ^ k * 2 ^ k := by
        have hnormal := Nat.div_add_mod x.trunc.magnitude (2 ^ 52)
        -- the leading bit of a normal number lies above the `k` bits that are cleared
        have hleading : 2 ^ 52 = 2 ^ (52 - k) * 2 ^ k := by
          rw [← Nat.pow_add]
          congr 1
          omega
        rw [significand, if_neg (by omega), significand, if_neg (by omega), hcleared]
        conv => rhs; rw [hleading, Nat.add_comm, Nat.add_mul_div_right _ _ (Nat.two_pow_pos k)]
        rw [Nat.add_mul, ← hleading, Nat.add_comm]
      rw [units, units, hscale, hsignificand, hunits, Nat.mul_div_mul_right _ _ (Nat.two_pow_pos _),
        Nat.mul_assoc]

theorem signedUnits_trunc (x : Binary64) :
    x.trunc.signedUnits = x.signedUnits.tdiv unitsPerOne * unitsPerOne := by
  rw [signedUnits, signedUnits, x.isNegative_trunc, x.units_trunc]
  -- truncation cuts towards zero on both sides
  cases x.isNegative
  · simp only [Bool.false_eq_true, if_false, Int.natCast_mul, Int.ofNat_tdiv]
  · simp only [if_true, Int.neg_tdiv, Int.neg_mul, Int.natCast_mul, Int.ofNat_tdiv]

/-- The integer part of a number within the 64-bit integers is one of them. -/
theorem toInt_toInt64_trunc (hnan : x.isNaN = false)
    (hlow : -(2 ^ 63) ≤ x.signedUnits.tdiv unitsPerOne)
    (hhigh : x.signedUnits.tdiv unitsPerOne < 2 ^ 63) :
    x.trunc.toInt64.toInt = x.signedUnits.tdiv unitsPerOne := by
  have hpos := unitsPerOne_pos
  have hwhole : x.trunc.isNaN = false := by
    rw [isNaN_eq_false_iff, x.magnitude_trunc]
    exact Nat.le_trans (wholeMagnitude_le _) (isNaN_eq_false_iff.1 hnan)
  -- cutting twice is cutting once
  have hcut : x.trunc.signedUnits.tdiv unitsPerOne = x.signedUnits.tdiv unitsPerOne := by
    rw [signedUnits_trunc]
    exact Int.mul_tdiv_cancel _ (by omega)
  simp only [toInt64, hwhole, hcut, Bool.false_eq_true, if_false]
  rw [if_neg (Int.not_lt.2 hlow), if_neg (Int.not_le.2 hhigh)]
  exact Int64.toInt_ofInt_of_le hlow hhigh

/-! ## The limits of the integers -/

theorem magnitude_int64Limit : int64Limit.magnitude = 1086 * 2 ^ 52 := by decide

theorem units_int64Limit : int64Limit.units = 2 ^ 63 * unitsPerOne := by
  have hsignificand : int64Limit.significand = 2 ^ 52 := by decide
  obtain ⟨point, hpoint, hone⟩ := exists_unitsPerOne_eq
  have hscale : int64Limit.scale = 11 + point := hpoint ▸ by decide
  rw [units, hsignificand, hscale, hone, Nat.pow_add, ← Nat.mul_assoc]

/-- Numbers that are not NaN compare by their keys. -/
theorem compare?_of_not_isNaN (hx : x.isNaN = false) (hy : y.isNaN = false) :
    x.compare? y = some (compare x.key y.key) := by
  rw [compare?, hx, hy]
  rfl

/-- A number reaches the limit if it has no sign and its magnitude does. -/
theorem limit_le_iff (hx : x.isNaN = false) :
    (x.compare? int64Limit).any Ordering.isGE = true ↔
      x.isNegative = false ∧ int64Limit.magnitude ≤ x.magnitude := by
  have hkey : int64Limit.key = 1086 * 2 ^ 52 := by decide
  rw [compare?_of_not_isNaN hx (by decide), Option.any_some, hkey, magnitude_int64Limit,
    Std.isGE_compare, key]
  cases x.isNegative with
  | true => exact ⟨fun h => absurd h (by rw [if_pos rfl]; omega), nofun⟩
  | false =>
    rw [if_neg (by decide)]
    exact ⟨fun h => ⟨rfl, by omega⟩, fun h => by omega⟩

/-- A number passes the negated limit if it has a sign and its magnitude passes the limit. -/
theorem lt_neg_limit_iff (hx : x.isNaN = false) :
    (x.compare? int64Limit.neg).any Ordering.isLT = true ↔
      x.isNegative = true ∧ int64Limit.magnitude < x.magnitude := by
  have hkey : int64Limit.neg.key = -(1086 * 2 ^ 52) := by decide
  rw [compare?_of_not_isNaN hx (by decide), Option.any_some, hkey, magnitude_int64Limit,
    Ordering.isLT_iff_eq_lt, Int.compare_eq_lt, key]
  cases x.isNegative with
  | true =>
    rw [if_pos rfl]
    exact ⟨fun h => ⟨rfl, by omega⟩, fun h => by omega⟩
  | false => exact ⟨fun h => absurd h (by rw [if_neg (by decide)]; omega), nofun⟩

/-- A number without sign whose magnitude reaches the limit lies above all integers. -/
theorem compare_of_limit_le (n : Int64) (hsign : x.isNegative = false)
    (h : int64Limit.magnitude ≤ x.magnitude) :
    compare (n.toInt * unitsPerOne) x.signedUnits = .lt := by
  have hunits := units_le_units_iff.2 h
  rw [units_int64Limit] at hunits
  have hn : n.toInt * unitsPerOne < 2 ^ 63 * unitsPerOne :=
    Int.mul_lt_mul_of_pos_right n.toInt_lt (Int.natCast_pos.2 unitsPerOne_pos)
  apply Int.compare_eq_lt.2
  rw [signedUnits, hsign, if_neg (by decide)]
  omega

/-- A number with a sign whose magnitude passes the limit lies below all integers. -/
theorem compare_of_limit_lt (n : Int64) (hsign : x.isNegative = true)
    (h : int64Limit.magnitude < x.magnitude) :
    compare (n.toInt * unitsPerOne) x.signedUnits = .gt := by
  have hunits := units_lt_units_iff.2 h
  rw [units_int64Limit] at hunits
  have hn : -(2 ^ 63) * unitsPerOne ≤ n.toInt * unitsPerOne :=
    Int.mul_le_mul_of_nonneg_right n.le_toInt (Int.natCast_nonneg _)
  apply Int.compare_eq_gt.2
  rw [signedUnits, hsign, if_pos rfl]
  omega

/-- Any other number has an integer part within the 64-bit integers. -/
theorem tdiv_signedUnits_bounds
    (hhigh : ¬ (x.isNegative = false ∧ int64Limit.magnitude ≤ x.magnitude))
    (hlow : ¬ (x.isNegative = true ∧ int64Limit.magnitude < x.magnitude)) :
    -(2 ^ 63) ≤ x.signedUnits.tdiv unitsPerOne ∧ x.signedUnits.tdiv unitsPerOne < 2 ^ 63 := by
  rw [signedUnits]
  -- the limits differ by sign: the least integer is reached, the limit above is not
  cases hsign : x.isNegative with
  | true =>
    have hunits : x.units ≤ int64Limit.units :=
      units_le_units_iff.2 (Nat.not_lt.1 fun h => hlow ⟨hsign, h⟩)
    rw [units_int64Limit] at hunits
    have hwhole : x.units / unitsPerOne ≤ 2 ^ 63 := Nat.div_le_of_le_mul (by rwa [Nat.mul_comm])
    rw [if_pos rfl, Int.neg_tdiv, ← Int.ofNat_tdiv]
    generalize x.units / unitsPerOne = whole at hwhole ⊢
    omega
  | false =>
    have hunits : x.units < int64Limit.units :=
      units_lt_units_iff.2 (Nat.not_le.1 fun h => hhigh ⟨hsign, h⟩)
    rw [units_int64Limit] at hunits
    have hwhole : x.units / unitsPerOne < 2 ^ 63 :=
      (Nat.div_lt_iff_lt_mul unitsPerOne_pos).2 hunits
    rw [if_neg (by decide), ← Int.ofNat_tdiv]
    generalize x.units / unitsPerOne = whole at hwhole ⊢
    omega

/-! ## The comparison -/

/-- An integer compares with a number as exact multiples of the least positive number do. The
    patterns of NaNs count as the multiples that their bits would stand for, which lie outside all
    integers. -/
theorem compareInt_eq (n : Int64) (x : Binary64) :
    compareInt n x = compare (n.toInt * unitsPerOne) x.signedUnits := by
  have hinfinite : int64Limit.magnitude < infiniteMagnitude := by decide
  unfold compareInt
  cases hnan : x.isNaN with
  | true =>
    have hbeyond : int64Limit.magnitude < x.magnitude :=
      Nat.lt_trans hinfinite (isNaN_eq_true_iff.1 hnan)
    cases hsign : x.isNegative with
    | true => exact (compare_of_limit_lt n hsign hbeyond).symm
    | false => exact (compare_of_limit_le n hsign (Nat.le_of_lt hbeyond)).symm
  | false =>
    rw [if_neg (by decide)]
    split
    · rename_i h
      obtain ⟨hsign, hmagnitude⟩ := (limit_le_iff hnan).1 h
      exact (compare_of_limit_le n hsign hmagnitude).symm
    · split
      · rename_i h
        obtain ⟨hsign, hmagnitude⟩ := (lt_neg_limit_iff hnan).1 h
        exact (compare_of_limit_lt n hsign hmagnitude).symm
      · rename_i hhigh hlow
        rw [limit_le_iff hnan] at hhigh
        rw [lt_neg_limit_iff hnan] at hlow
        obtain ⟨hmin, hmax⟩ := tdiv_signedUnits_bounds hhigh hlow
        -- the number is the sum of its integer part and its fraction
        have hfinite : x.magnitude < infiniteMagnitude := by
          cases hsign : x.isNegative with
          | true => exact Nat.lt_of_le_of_lt (Nat.not_lt.1 fun h => hlow ⟨hsign, h⟩) hinfinite
          | false => exact Nat.lt_trans (Nat.not_le.1 fun h => hhigh ⟨hsign, h⟩) hinfinite
        have hwhole : x.trunc.magnitude < infiniteMagnitude := by
          rw [x.magnitude_trunc]
          exact Nat.lt_of_le_of_lt (wholeMagnitude_le _) hfinite
        obtain ⟨negativeZero, hsub⟩ := sub_eq_ofUnits hfinite hwhole
        have hfraction : zero.compare? (x.sub x.trunc) =
            some (compare 0 (x.signedUnits.tmod unitsPerOne)) := by
          have hzero : zero.key = 0 := by decide
          rw [hsub, compare?_of_not_isNaN (by decide) (isNaN_ofUnits _ _), hzero,
            compare_zero_ofUnits, signedUnits_trunc, Int.tmod_def, Int.mul_comm]
        have hpos : (0 : Int) < unitsPerOne := Int.natCast_pos.2 unitsPerOne_pos
        dsimp only
        rw [toInt_toInt64_trunc hnan hmin hmax, hfraction, Option.getD_some,
          ← compare_mul_add (Int.lt_tmod_of_pos _ hpos) (Int.tmod_lt_of_pos _ hpos),
          Int.tdiv_mul_add_tmod]

end Binary64

end RowFlow
