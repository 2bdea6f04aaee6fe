import RowFlow.Proofs.Number.Integer

/-!
# Rounding Integers

An integer that is used as a number is rounded to 53 significant bits. Rounding keeps the order of
integers (`Binary64.key_ofInt_mono`), and an integer of at most 53 bits stays apart from all others
(`Binary64.ofInt_injective`); longer integers may fall together. Beside a floating number an integer
is never rounded to the other side of it (`Binary64.key_le_key_ofInt`, `Binary64.key_ofInt_le_key`).
-/

namespace RowFlow

namespace Binary64

/-! ## Nearest naturals -/

/-- A multiple of the unit is not rounded. -/
theorem nearest_mul (k : Nat) {unit : Nat} (h : 0 < unit) : nearest (k * unit) unit = k := by
  simp only [nearest, Nat.mul_div_cancel _ h, Nat.mul_mod_left, Nat.mul_zero, if_pos h]

/-- Rounding does not go below the quotient, -/
theorem div_le_nearest (n unit : Nat) : n / unit ≤ nearest n unit := by
  simp only [nearest]
  repeat' split
  all_goals omega

/-- nor above the next number. -/
theorem nearest_le_div_succ (n unit : Nat) : nearest n unit ≤ n / unit + 1 := by
  simp only [nearest]
  repeat' split
  all_goals omega

/-- Rounding to one unit keeps the order of naturals. -/
theorem nearest_mono {m n : Nat} (unit : Nat) (h : m ≤ n) : nearest m unit ≤ nearest n unit := by
  have hquotient : m / unit ≤ n / unit := Nat.div_le_div_right h
  rcases Nat.lt_or_eq_of_le hquotient with hlt | heq
  · -- there is room for rounding up between the quotients
    exact Nat.le_trans (nearest_le_div_succ m unit) (Nat.le_trans hlt (div_le_nearest n unit))
  -- of one quotient, the remainders decide
  · have hrest : m % unit ≤ n % unit := by
      have hm := Nat.div_add_mod m unit
      have hn := Nat.div_add_mod n unit
      rw [heq] at hm
      omega
    simp only [nearest, heq]
    repeat' split
    all_goals omega

/-! ## Rounded integers -/

/-- The number of low bits that rounding to 53 bits takes away. -/
def spareBits (n : Nat) : Nat := n.log2 - 52

/-- The magnitude of a rounded natural number, were there no infinity. -/
def unboundedMagnitude (n : Nat) : Nat := spareBits n * 2 ^ 52 + nearest n (2 ^ spareBits n)

/-- An integer beyond all numbers is rounded to infinity, and the others as if there were none. -/
theorem nearestMagnitude_eq (n : Nat) :
    nearestMagnitude n 1 = Min.min infiniteMagnitude (unboundedMagnitude n) := by
  simp only [nearestMagnitude, Nat.div_one, Nat.one_mul, unboundedMagnitude, spareBits]

/-- The bits that are kept make up at most 53 of them. -/
theorem lt_two_pow_spareBits (n : Nat) : n < 2 ^ 53 * 2 ^ spareBits n := by
  rw [← Nat.pow_add]
  apply Nat.lt_of_lt_of_le Nat.lt_log2_self
  apply Nat.pow_le_pow_right (by decide)
  unfold spareBits
  omega

/-- If bits are taken away, 53 of them are kept. -/
theorem two_pow_spareBits_le {n : Nat} (h : 0 < spareBits n) : 2 ^ 52 * 2 ^ spareBits n ≤ n := by
  unfold spareBits at h
  have hbits : 52 + spareBits n = n.log2 := by
    unfold spareBits
    omega
  have hn : n ≠ 0 := by
    rintro rfl
    rw [Nat.log2_zero] at h
    omega
  rw [← Nat.pow_add, hbits]
  exact Nat.log2_self_le hn

/-- A greater number loses no fewer bits. -/
theorem spareBits_mono {m n : Nat} (h : m ≤ n) : spareBits m ≤ spareBits n := by
  refine Nat.le_of_not_lt fun hlt => ?_
  -- with fewer bits lost, the greater number would be too short
  have hm := two_pow_spareBits_le (Nat.zero_lt_of_lt hlt)
  have hn := lt_two_pow_spareBits n
  have hpow : 2 ^ (spareBits n + 1) ≤ 2 ^ spareBits m := Nat.pow_le_pow_right (by decide) hlt
  rw [Nat.pow_succ] at hpow
  omega

/-- What is kept is at most a carry out of the 53 bits. -/
theorem nearest_spareBits_le (n : Nat) : nearest n (2 ^ spareBits n) ≤ 2 ^ 53 := by
  have hle := nearest_mono (2 ^ spareBits n) (Nat.le_of_lt (lt_two_pow_spareBits n))
  rwa [nearest_mul _ (Nat.two_pow_pos _)] at hle

/-- If bits are lost, the bits that are kept start with a one. -/
theorem le_nearest_spareBits {n : Nat} (h : 0 < spareBits n) :
    2 ^ 52 ≤ nearest n (2 ^ spareBits n) := by
  have hle := nearest_mono (2 ^ spareBits n) (two_pow_spareBits_le h)
  rwa [nearest_mul _ (Nat.two_pow_pos _)] at hle

/-- Rounding to 53 bits keeps the order of naturals. -/
theorem unboundedMagnitude_mono {m n : Nat} (h : m ≤ n) :
    unboundedMagnitude m ≤ unboundedMagnitude n := by
  unfold unboundedMagnitude
  rcases Nat.lt_or_eq_of_le (spareBits_mono h) with hlt | heq
  · -- a carry out of the 53 bits does not go beyond the next exponent
    have hm := nearest_spareBits_le m
    have hn := le_nearest_spareBits (Nat.zero_lt_of_lt hlt)
    omega
  -- with as many bits lost, both are rounded to one unit
  · have hnearest := nearest_mono (2 ^ spareBits n) h
    rw [heq]
    omega

/-- Numbers that lie a unit of the last kept bit apart stay apart. -/
theorem unboundedMagnitude_lt {m n : Nat} (hdvd : 2 ^ spareBits m ∣ m)
    (h : m + 2 ^ spareBits m ≤ n) : unboundedMagnitude m < unboundedMagnitude n := by
  have hunit := Nat.two_pow_pos (spareBits m)
  obtain ⟨k, hk⟩ := hdvd
  rw [Nat.mul_comm] at hk
  -- the smaller number is a multiple of its unit, so it is not rounded
  have hexact : nearest m (2 ^ spareBits m) = k := by
    conv => lhs; arg 1; rw [hk]
    exact nearest_mul k hunit
  unfold unboundedMagnitude
  rcases Nat.lt_or_eq_of_le (spareBits_mono (Nat.le_trans (Nat.le_add_right _ _) h)) with hlt | heq
  -- the greater one may lose more bits, but then it is longer
  · have hkept : k < 2 ^ 53 := by
      have hlow := lt_two_pow_spareBits m
      conv at hlow => lhs; rw [hk]
      exact Nat.lt_of_mul_lt_mul_right hlow
    have hn := le_nearest_spareBits (Nat.zero_lt_of_lt hlt)
    omega
  -- or both are rounded to one unit, and lie one unit apart
  · have hnext : (k + 1) * 2 ^ spareBits m ≤ n := by
      rw [Nat.add_mul, Nat.one_mul, ← hk]
      exact h
    have hnearest := nearest_mono (2 ^ spareBits m) hnext
    rw [nearest_mul _ hunit] at hnearest
    rw [← heq, hexact]
    omega

/-! ## Integers as numbers -/

/-- An integer is a number with a sign and a rounded magnitude. -/
theorem ofInt_eq (i : Int) :
    ofInt i = ofMagnitude (i < 0) (nearestMagnitude (i.natAbs * unitsPerOne) 1) := by
  unfold unitsPerOne
  rfl

/-- Rounding keeps the sign. -/
theorem isNegative_ofInt (i : Int) : (ofInt i).isNegative = decide (i < 0) := by
  rw [ofInt_eq]
  exact isNegative_ofMagnitude _ (nearestMagnitude_lt _ _)

/-- The magnitude of an integer is its absolute value, rounded. -/
theorem magnitude_ofInt (i : Int) :
    (ofInt i).magnitude = nearestMagnitude (i.natAbs * unitsPerOne) 1 := by
  rw [ofInt_eq]
  exact magnitude_ofMagnitude _ (nearestMagnitude_lt _ _)

/-- No integer is rounded to NaN. -/
theorem isNaN_ofInt (i : Int) : (ofInt i).isNaN = false := by
  rw [isNaN_eq_false_iff, magnitude_ofInt]
  exact nearestMagnitude_le _ _

/-- Only zero is rounded to zero. -/
theorem magnitude_ofInt_pos {i : Int} (h : i ≠ 0) : 0 < (ofInt i).magnitude := by
  rw [magnitude_ofInt]
  apply nearestMagnitude_pos
  apply Nat.mul_pos _ unitsPerOne_pos
  omega

/-- A greater absolute value is rounded to no smaller magnitude. -/
theorem magnitude_ofInt_mono {i j : Int} (h : i.natAbs ≤ j.natAbs) :
    (ofInt i).magnitude ≤ (ofInt j).magnitude := by
  have hmono := unboundedMagnitude_mono (Nat.mul_le_mul_right unitsPerOne h)
  rw [magnitude_ofInt, magnitude_ofInt, nearestMagnitude_eq, nearestMagnitude_eq]
  omega

/-- An integer of at most 53 bits rounds to a smaller magnitude than all greater ones. -/
theorem magnitude_ofInt_lt {i j : Int} (hi : i.natAbs < 2 ^ 53) (h : i.natAbs < j.natAbs) :
    (ofInt i).magnitude < (ofInt j).magnitude := by
  obtain ⟨point, hpoint, hone⟩ := exists_unitsPerOne_eq
  -- no bit in front of the point is taken away
  have hspare : spareBits (i.natAbs * unitsPerOne) ≤ point := by
    have hlow : i.natAbs * unitsPerOne < 2 ^ 53 * 2 ^ point := by
      rw [hone]
      exact Nat.mul_lt_mul_of_pos_right hi (Nat.two_pow_pos point)
    refine Nat.le_of_not_lt fun hlt => ?_
    have hkept := two_pow_spareBits_le (Nat.zero_lt_of_lt hlt)
    have hpow : 2 ^ (point + 1) ≤ 2 ^ spareBits (i.natAbs * unitsPerOne) :=
      Nat.pow_le_pow_right (by decide) hlt
    rw [Nat.pow_succ] at hpow
    omega
  -- so both numbers are multiples of the unit, and one unit apart at least
  have hunit : 2 ^ spareBits (i.natAbs * unitsPerOne) ∣ unitsPerOne := by
    have hdvd := Nat.pow_dvd_pow 2 hspare
    rwa [← hone] at hdvd
  have hnext : i.natAbs * unitsPerOne + 2 ^ spareBits (i.natAbs * unitsPerOne) ≤
      j.natAbs * unitsPerOne := by
    have hstep : (i.natAbs + 1) * unitsPerOne ≤ j.natAbs * unitsPerOne :=
      Nat.mul_le_mul_right _ h
    have hle := Nat.le_of_dvd unitsPerOne_pos hunit
    rw [Nat.add_mul, Nat.one_mul] at hstep
    omega
  have hlt := unboundedMagnitude_lt (Nat.dvd_mul_left_of_dvd hunit _) hnext
  -- the smaller number is far from infinity, which would otherwise swallow the difference
  have hfinite : unboundedMagnitude (i.natAbs * unitsPerOne) < infiniteMagnitude := by
    have hnearest := nearest_spareBits_le (i.natAbs * unitsPerOne)
    have hinfinite : infiniteMagnitude = 2047 * 2 ^ 52 := by decide
    unfold unboundedMagnitude
    omega
  rw [magnitude_ofInt, magnitude_ofInt, nearestMagnitude_eq, nearestMagnitude_eq,
    Nat.min_eq_right (Nat.le_of_lt hfinite)]
  exact Nat.lt_min.2 ⟨hfinite, hlt⟩

/-- Rounding keeps the order of integers. -/
theorem key_ofInt_mono {i j : Int} (h : i ≤ j) : (ofInt i).key ≤ (ofInt j).key := by
  simp only [key, isNegative_ofInt, decide_eq_true_eq]
  split
  · split
    · -- both are negative: the smaller one has the greater magnitude
      have hmagnitude : (ofInt j).magnitude ≤ (ofInt i).magnitude :=
        magnitude_ofInt_mono (by omega)
      omega
    · omega
  · split
    · omega
    · have hmagnitude : (ofInt i).magnitude ≤ (ofInt j).magnitude :=
        magnitude_ofInt_mono (by omega)
      omega

/-- No integer rounds to the negative zero, so equal numbers have equal patterns. -/
theorem key_ofInt_inj {i j : Int} : (ofInt i).key = (ofInt j).key ↔ ofInt i = ofInt j := by
  refine ⟨fun h => ?_, fun h => congrArg key h⟩
  have hi := @magnitude_ofInt_pos i
  have hj := @magnitude_ofInt_pos j
  simp only [key, isNegative_ofInt, decide_eq_true_eq] at h
  -- keys of different signs could meet only at zero, which has one pattern
  have hsign : i < 0 ↔ j < 0 := by
    split at h <;> split at h <;> omega
  apply eq_of_magnitude_eq
  · rw [isNegative_ofInt, isNegative_ofInt, decide_eq_decide.2 hsign]
  · split at h <;> split at h <;> omega

/-- No integer rounds to the same number as another one of at most 53 bits. -/
theorem ofInt_injective {i j : Int} (hbits : i.natAbs < 2 ^ 53 ∨ j.natAbs < 2 ^ 53)
    (h : ofInt i = ofInt j) : i = j := by
  -- the sign comes back from the number, and the absolute value from its magnitude
  have hsign : i < 0 ↔ j < 0 := by
    have hnegative := congrArg isNegative h
    rwa [isNegative_ofInt, isNegative_ofInt, decide_eq_decide] at hnegative
  have hmagnitude := congrArg magnitude h
  rcases Nat.lt_trichotomy i.natAbs j.natAbs with hlt | heq | hgt
  · have hless := magnitude_ofInt_lt (i := i) (j := j) (by omega) hlt
    omega
  · omega
  · have hless := magnitude_ofInt_lt (i := j) (j := i) (by omega) hgt
    omega

/-! ## Integers beside numbers -/

section
variable {x : Binary64} {i : Int}

/-- Rounding takes away the bits by which the significand of a number is shifted. -/
theorem spareBits_units (x : Binary64) : spareBits x.units = x.scale := by
  unfold spareBits
  -- numbers below the first exponent are their own magnitude
  by_cases hsmall : x.magnitude < 2 ^ 52
  · have hscale : x.scale = 0 := by
      rw [scale, Nat.div_eq_of_lt hsmall]
    have hunits : x.units = x.magnitude := by
      rw [units, hscale, significand, if_pos hsmall, Nat.pow_zero, Nat.mul_one]
    rw [hunits, hscale]
    by_cases hzero : x.magnitude = 0
    · rw [hzero]
      rfl
    · have hlog := (Nat.log2_lt hzero).2 hsmall
      omega
  · -- the significand has 53 bits
    have hlow : 2 ^ 52 ≤ x.significand := by
      rw [significand, if_neg hsmall]
      exact Nat.le_add_right _ _
    have hunit := Nat.two_pow_pos x.scale
    have hlog : x.units.log2 = 52 + x.scale := by
      rw [units, Nat.log2_eq_iff (Nat.ne_of_gt (Nat.mul_pos (by omega) hunit))]
      constructor
      · rw [Nat.pow_add]
        exact Nat.mul_le_mul_right _ hlow
      · rw [Nat.add_right_comm, Nat.pow_add]
        exact Nat.mul_lt_mul_of_pos_right x.significand_lt hunit
    omega

/-- A number is nearest to itself. -/
theorem unboundedMagnitude_units (x : Binary64) : unboundedMagnitude x.units = x.magnitude := by
  have hnearest : nearest x.units (2 ^ x.scale) = x.significand :=
    nearest_mul _ (Nat.two_pow_pos x.scale)
  rw [unboundedMagnitude, spareBits_units, hnearest, scale, significand]
  split <;> omega

/-- An integer of at least the magnitude of a number is rounded to at least this magnitude. -/
theorem magnitude_le_magnitude_ofInt (hnan : x.isNaN = false)
    (h : x.units ≤ i.natAbs * unitsPerOne) : x.magnitude ≤ (ofInt i).magnitude := by
  have hmono := unboundedMagnitude_mono h
  rw [unboundedMagnitude_units] at hmono
  rw [magnitude_ofInt, nearestMagnitude_eq]
  exact Nat.le_min.2 ⟨isNaN_eq_false_iff.1 hnan, hmono⟩

/-- An integer of at most the magnitude of a number is rounded to at most this magnitude. -/
theorem magnitude_ofInt_le_magnitude (h : i.natAbs * unitsPerOne ≤ x.units) :
    (ofInt i).magnitude ≤ x.magnitude := by
  have hmono := unboundedMagnitude_mono h
  rw [unboundedMagnitude_units] at hmono
  rw [magnitude_ofInt, nearestMagnitude_eq]
  exact Nat.le_trans (Nat.min_le_right _ _) hmono

/-- A number of no units is zero. -/
theorem magnitude_eq_zero_of_units (h : x.units = 0) : x.magnitude = 0 := by
  rw [← unboundedMagnitude_units, h]
  decide

/-- The integer zero has the magnitude zero. -/
theorem magnitude_ofInt_eq_zero (h : i.natAbs * unitsPerOne = 0) : (ofInt i).magnitude = 0 := by
  rw [magnitude_ofInt, h, nearestMagnitude_zero]

/-- The multiple of the least positive number that an integer stands for, by its sign. -/
theorem mul_unitsPerOne_eq (i : Int) :
    i * unitsPerOne = if (ofInt i).isNegative then -((i.natAbs * unitsPerOne : Nat) : Int)
      else (i.natAbs * unitsPerOne : Nat) := by
  rw [isNegative_ofInt, Int.natCast_mul, ← Int.neg_mul]
  simp only [decide_eq_true_eq]
  split
  · have habs : -(i.natAbs : Int) = i := by omega
    rw [habs]
  · have habs : (i.natAbs : Int) = i := by omega
    rw [habs]

/-- Signed numbers are ordered as their magnitudes are, where zero has the magnitude zero. -/
theorem signed_le_signed {negative negative' : Bool} {m m' n n' : Nat} (hle : n ≤ n' → m ≤ m')
    (hge : n' ≤ n → m' ≤ m) (hzero : n = 0 → m = 0) (hzero' : n' = 0 → m' = 0)
    (h : (if negative then -(n : Int) else n) ≤ if negative' then -(n' : Int) else n') :
    (if negative then -(m : Int) else m) ≤ if negative' then -(m' : Int) else m' := by
  -- of different signs, the sides are apart unless both are zero
  cases negative <;> cases negative'
  all_goals
    simp only [Bool.false_eq_true, if_true, if_false] at h ⊢
    omega

/-- An integer at least as great as a number is not rounded below it. -/
theorem key_le_key_ofInt (hnan : x.isNaN = false) (h : x.signedUnits ≤ i * unitsPerOne) :
    x.key ≤ (ofInt i).key := by
  rw [mul_unitsPerOne_eq] at h
  exact signed_le_signed (magnitude_le_magnitude_ofInt hnan) magnitude_ofInt_le_magnitude
    magnitude_eq_zero_of_units magnitude_ofInt_eq_zero h

/-- An integer at most as great as a number is not rounded above it. -/
theorem key_ofInt_le_key (hnan : x.isNaN = false) (h : i * unitsPerOne ≤ x.signedUnits) :
    (ofInt i).key ≤ x.key := by
  rw [mul_unitsPerOne_eq] at h
  exact signed_le_signed magnitude_ofInt_le_magnitude (magnitude_le_magnitude_ofInt hnan)
    magnitude_ofInt_eq_zero magnitude_eq_zero_of_units h

end

end Binary64

end RowFlow
