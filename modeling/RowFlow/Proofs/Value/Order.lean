import RowFlow.Proofs.Number.Real
import RowFlow.Value.Order

/-!
# Values Are Totally Ordered

Values that are not tuples compare by keys: rank first, then number, side of a number and text.
Tuples compare by their first difference. So the comparison of values is a total order in which only
equal values tie.
-/

namespace RowFlow

namespace Value

/-! ## Keys -/

/-- The multiple of the least positive number that a number stands for; truths count as zero and
    one. -/
def units : Value → Int
  | .bool b => if b then 1 else 0
  | .int64 n => n.toInt * Binary64.unitsPerOne
  | .float64 x => x.signedUnits
  | _ => 0

/-- The place among numbers of equal value: an integer stands before the floating numbers. -/
def side : Value → Nat
  | .float64 x => x.side
  | _ => 0

/-- The text of a text value; other values have none. -/
def letters : Value → String
  | .utf8 text => text
  | _ => ""

/-- Compares values by rank, number, side and text. -/
def compareScalars : Value → Value → Ordering :=
  compareLex (compareOn rank) <| compareLex (compareOn units) <|
    compareLex (compareOn side) (compareOn letters)

instance : Std.TransCmp compareScalars :=
  inferInstanceAs (Std.TransCmp (compareLex (compareOn rank) _))

/-- No floating number stands where an integer stands. -/
theorem side_pos (x : Binary64) : 0 < x.side := by
  unfold Binary64.side
  split <;> decide

/-- Keys of different ranks compare as the ranks. -/
theorem compareScalars_of_rank_ne {v w : Value} (h : v.rank ≠ w.rank) :
    compareScalars v w = compare v.rank w.rank := by
  simp only [compareScalars, compareLex, compareOn]
  rcases hrank : compare v.rank w.rank with _ | _ | _
  · rfl
  · exact absurd (Nat.compare_eq_eq.1 hrank) h
  · rfl

/-- Keys of one rank compare by number, side and text. -/
theorem compareScalars_of_rank_eq {v w : Value} (h : v.rank = w.rank) :
    compareScalars v w = (compare v.units w.units).then
      ((compare v.side w.side).then (compare v.letters w.letters)) := by
  simp only [compareScalars, compareLex, compareOn, Nat.compare_eq_eq.2 h]
  rfl

/-! ## Comparison by keys -/

/-- Values of different ranks compare as the ranks. -/
theorem totalCompare_of_rank_ne {v w : Value} (h : v.rank ≠ w.rank) :
    totalCompare v w = compare v.rank w.rank := by
  cases v <;> cases w <;> first | rfl | exact absurd rfl h

/-- Integers compare by value. -/
theorem totalCompare_int64 (m n : Int64) :
    totalCompare (.int64 m) (.int64 n) = compareScalars (.int64 m) (.int64 n) := by
  have hpos : (0 : Int) < Binary64.unitsPerOne := Int.natCast_pos.2 Binary64.unitsPerOne_pos
  have hkeys : compareScalars (.int64 m) (.int64 n) =
      (compare (m.toInt * Binary64.unitsPerOne) (n.toInt * Binary64.unitsPerOne)).then .eq :=
    compareScalars_of_rank_eq rfl
  -- scaling both sides by the least positive number keeps the order
  have hscaled : compare (m.toInt * Binary64.unitsPerOne) (n.toInt * Binary64.unitsPerOne + 0) =
      (compare m.toInt n.toInt).then (compare (0 : Int) 0) := compare_mul_add (by omega) hpos
  rw [Int.add_zero] at hscaled
  have hself : compare (0 : Int) 0 = .eq := rfl
  rw [hkeys, hscaled, hself, totalCompare, Ordering.then_eq, Ordering.then_eq]

/-- An integer and a floating number compare by value, and are never equal. -/
theorem totalCompare_int64_float64 (n : Int64) (x : Binary64) :
    totalCompare (.int64 n) (.float64 x) = compareScalars (.int64 n) (.float64 x) := by
  -- the side decides when the values tie, always for the integer
  have hside : compare 0 x.side = .lt := Nat.compare_eq_lt.2 (side_pos x)
  have hkeys : compareScalars (.int64 n) (.float64 x) =
      (compare (n.toInt * Binary64.unitsPerOne) x.signedUnits).then
        ((compare 0 x.side).then .eq) :=
    compareScalars_of_rank_eq rfl
  rw [hkeys, hside, totalCompare, Binary64.compareInt_eq]
  rfl

/-- A floating number and an integer compare by value, too. -/
theorem totalCompare_float64_int64 (x : Binary64) (n : Int64) :
    totalCompare (.float64 x) (.int64 n) = compareScalars (.float64 x) (.int64 n) := by
  have hside : compare x.side 0 = .gt := Nat.compare_eq_gt.2 (side_pos x)
  have hkeys : compareScalars (.float64 x) (.int64 n) =
      (compare x.signedUnits (n.toInt * Binary64.unitsPerOne)).then
        ((compare x.side 0).then .eq) :=
    compareScalars_of_rank_eq rfl
  rw [hkeys, hside, totalCompare, Binary64.compareInt_eq, ← Std.OrientedCmp.eq_swap]
  rfl

/-- Floating numbers compare by value, zeros and NaNs by their sides. -/
theorem totalCompare_float64 (x y : Binary64) :
    totalCompare (.float64 x) (.float64 y) = compareScalars (.float64 x) (.float64 y) := by
  have hkeys : compareScalars (.float64 x) (.float64 y) =
      (compare x.signedUnits y.signedUnits).then ((compare x.side y.side).then .eq) :=
    compareScalars_of_rank_eq rfl
  rw [hkeys, totalCompare, Binary64.totalCompare_eq, Ordering.then_eq]

/-- Values that are not both tuples compare by their keys. -/
theorem totalCompare_eq_compareScalars {v w : Value} (h : v.rank ≠ 4 ∨ w.rank ≠ 4) :
    totalCompare v w = compareScalars v w := by
  by_cases hrank : v.rank = w.rank
  -- values of one rank are of one type, or both numbers
  · cases v with
    | null => cases w <;> rfl
    | bool a =>
      cases w with
      | bool b => cases a <;> cases b <;> rfl
      | _ => cases hrank
    | int64 m =>
      cases w with
      | int64 n => exact totalCompare_int64 m n
      | float64 x => exact totalCompare_int64_float64 m x
      | _ => cases hrank
    | float64 x =>
      cases w with
      | int64 n => exact totalCompare_float64_int64 x n
      | float64 y => exact totalCompare_float64 x y
      | _ => cases hrank
    | utf8 s =>
      cases w with
      | utf8 t => rfl
      | _ => cases hrank
    | tuple vs =>
      rcases h with h | h
      · exact absurd rfl h
      · exact absurd hrank.symm h
  · rw [totalCompare_of_rank_ne hrank, compareScalars_of_rank_ne hrank]

/-! ## Induction over tuples -/

/-- A value of the rank of tuples is one. -/
theorem exists_items_of_rank {v : Value} (h : v.rank = 4) : ∃ items, v = .tuple items := by
  cases v with
  | tuple items => exact ⟨items, rfl⟩
  | _ => cases h

/-- What holds of scalars, and of tuples if it holds of their items, holds of all values. -/
@[elab_as_elim]
theorem tuple_induction {motive : Value → Prop} (scalar : ∀ v, v.rank ≠ 4 → motive v)
    (tuple : ∀ items, (∀ v ∈ items, motive v) → motive (.tuple items)) (v : Value) : motive v := by
  cases v with
  | tuple items => exact tuple items fun v _ => tuple_induction scalar tuple v
  | _ => exact scalar _ nofun

/-! ## Orientation -/

/-- Lists compare the other way round if their items do. -/
theorem totalCompareList_swap {vs : List Value}
    (h : ∀ v ∈ vs, ∀ w, totalCompare w v = (totalCompare v w).swap) (ws : List Value) :
    totalCompareList ws vs = (totalCompareList vs ws).swap := by
  induction vs generalizing ws with
  | nil => cases ws <;> rfl
  | cons v vs ih =>
    cases ws with
    | nil => rfl
    | cons w ws =>
      obtain ⟨hv, hvs⟩ := List.forall_mem_cons.1 h
      rw [totalCompareList, totalCompareList, hv, ih hvs, Ordering.swap_then]

/-- Comparing the other way round reverses the answer. -/
theorem totalCompare_swap (v w : Value) : totalCompare w v = (totalCompare v w).swap := by
  induction v using tuple_induction generalizing w with
  | scalar v hv =>
    rw [totalCompare_eq_compareScalars (.inl hv), totalCompare_eq_compareScalars (.inr hv)]
    exact Std.OrientedCmp.eq_swap
  | tuple vs ih =>
    -- two tuples compare item by item, and a tuple with a scalar by rank
    by_cases hw : w.rank = 4
    · obtain ⟨ws, rfl⟩ := exists_items_of_rank hw
      exact totalCompareList_swap ih ws
    · rw [totalCompare_eq_compareScalars (.inl hw), totalCompare_eq_compareScalars (.inr hw)]
      exact Std.OrientedCmp.eq_swap

instance : Std.OrientedCmp totalCompare where
  eq_swap := totalCompare_swap _ _

/-! ## Ties -/

/-- A number is determined by its value and its side, which tells zeros and NaNs apart. -/
theorem signedUnits_side_inj {x y : Binary64} (hunits : x.signedUnits = y.signedUnits)
    (hside : x.side = y.side) : x = y := by
  simp only [Binary64.signedUnits, Binary64.side] at hunits hside
  -- of different signs the sides differ, so only equal signs are left
  cases hx : x.isNegative <;> cases hy : y.isNegative <;>
    simp only [hx, hy, Bool.false_eq_true, if_true, if_false] at hunits hside
  · have hmagnitude := Binary64.units_eq_units_iff.1 (Int.ofNat.inj hunits)
    exact Binary64.eq_of_magnitude_eq (hx.trans hy.symm) hmagnitude
  · cases hside
  · cases hside
  · have hmagnitude := Binary64.units_eq_units_iff.1 (Int.ofNat.inj (Int.neg_inj.1 hunits))
    exact Binary64.eq_of_magnitude_eq (hx.trans hy.symm) hmagnitude

/-- The keys of a scalar determine it. -/
theorem eq_of_compareScalars {v w : Value} (hv : v.rank ≠ 4) (h : compareScalars v w = .eq) :
    v = w := by
  -- of different ranks they would not tie
  have hrank : v.rank = w.rank := by
    refine Decidable.byContradiction fun hne => hne ?_
    rw [compareScalars_of_rank_ne hne] at h
    exact Nat.compare_eq_eq.1 h
  rw [compareScalars_of_rank_eq hrank, Ordering.then_eq_eq, Ordering.then_eq_eq,
    Int.compare_eq_eq, Nat.compare_eq_eq, Std.compare_eq_iff_eq] at h
  obtain ⟨hunits, hside, hletters⟩ := h
  cases v with
  | null => cases w <;> first | rfl | cases hrank
  | bool a =>
    cases w with
    | bool b => cases a <;> cases b <;> first | rfl | cases hunits
    | _ => cases hrank
  | int64 m =>
    cases w with
    | int64 n =>
      have hpos := Binary64.unitsPerOne_pos
      -- scaled by the same positive number, the integers are equal
      have hint : m.toInt = n.toInt := Int.eq_of_mul_eq_mul_right (by omega) hunits
      rw [Int64.toInt_inj.1 hint]
    -- an integer and a floating number are told apart by the side
    | float64 x => exact absurd hside (Nat.ne_of_lt (side_pos x))
    | _ => cases hrank
  | float64 x =>
    cases w with
    | int64 n => exact absurd hside (Nat.ne_of_gt (side_pos x))
    | float64 y => exact congrArg float64 (signedUnits_side_inj hunits hside)
    | _ => cases hrank
  | utf8 s =>
    cases w with
    | utf8 t => exact congrArg utf8 hletters
    | _ => cases hrank
  | tuple vs => exact absurd rfl hv

/-- Lists tie only with themselves if their items do. -/
theorem eq_of_totalCompareList {vs : List Value}
    (h : ∀ v ∈ vs, ∀ w, totalCompare v w = .eq → v = w) {ws : List Value}
    (hvs : totalCompareList vs ws = .eq) : vs = ws := by
  induction vs generalizing ws with
  | nil =>
    cases ws with
    | nil => rfl
    | cons w ws => cases hvs
  | cons v vs ih =>
    cases ws with
    | nil => cases hvs
    | cons w ws =>
      obtain ⟨hv, hrest⟩ := List.forall_mem_cons.1 h
      -- lists tie if the first items tie and the others do
      obtain ⟨hhead, htail⟩ := Ordering.then_eq_eq.1 hvs
      rw [hv w hhead, ih hrest htail]

/-- Only a value itself ties with it. -/
theorem eq_of_totalCompare {v w : Value} (h : totalCompare v w = .eq) : v = w := by
  induction v using tuple_induction generalizing w with
  | scalar v hv =>
    rw [totalCompare_eq_compareScalars (.inl hv)] at h
    exact eq_of_compareScalars hv h
  | tuple vs ih =>
    by_cases hw : w.rank = 4
    · obtain ⟨ws, rfl⟩ := exists_items_of_rank hw
      exact congrArg tuple (eq_of_totalCompareList (fun v hv w => ih v hv) h)
    · rw [totalCompare_swap, totalCompare_eq_compareScalars (.inl hw)] at h
      exact (eq_of_compareScalars hw (Ordering.swap_eq_eq.1 h)).symm

instance : Std.LawfulEqCmp totalCompare where
  eq_of_compare := eq_of_totalCompare

/-! ## Transitivity -/

/-- Lists compare transitively if their items do. -/
theorem totalCompareList_isLE_trans {us : List Value}
    (h : ∀ u ∈ us, ∀ v w, (totalCompare u v).isLE → (totalCompare v w).isLE →
      (totalCompare u w).isLE) {vs ws : List Value} (huv : (totalCompareList us vs).isLE)
    (hvw : (totalCompareList vs ws).isLE) : (totalCompareList us ws).isLE := by
  induction us generalizing vs ws with
  | nil => cases ws <;> rfl
  | cons u us ih =>
    cases vs with
    | nil => cases huv
    | cons v vs =>
      cases ws with
      | nil => cases hvw
      | cons w ws =>
        obtain ⟨hu, hus⟩ := List.forall_mem_cons.1 h
        simp only [totalCompareList, Ordering.isLE_then_iff_or] at huv hvw ⊢
        rcases huv with huv | ⟨huv, hrest⟩
        · -- the first items decide: they cannot tie, since then the middle one would be greater
          refine .inl ?_
          have hle : (totalCompare v w).isLE := by
            rcases hvw with hvw | ⟨hvw, -⟩
            · rw [hvw]
              rfl
            · rw [hvw]
              rfl
          have huw : (totalCompare u w).isLE := hu v w (by rw [huv]; rfl) hle
          rcases hcompare : totalCompare u w with _ | _ | _
          · rfl
          · obtain rfl := eq_of_totalCompare hcompare
            rw [totalCompare_swap, huv] at hle
            cases hle
          · rw [hcompare] at huw
            cases huw
        · -- the first items of the smaller two are equal, so either the third differs or the rest
          -- decides
          obtain rfl := eq_of_totalCompare huv
          rcases hvw with hvw | ⟨hvw, hrest'⟩
          · exact .inl hvw
          · exact .inr ⟨hvw, ih hus hrest hrest'⟩

/-- No tuple stands before a value that is none. -/
theorem rank_of_isLE {v w : Value} (h : (totalCompare v w).isLE) (hv : v.rank = 4) :
    w.rank = 4 := by
  obtain ⟨vs, rfl⟩ := exists_items_of_rank hv
  cases w with
  | tuple ws => rfl
  | _ => cases h

/-- A value at most as great as a second one is at most as great as all values above that one. -/
theorem totalCompare_isLE_trans {u v w : Value} (huv : (totalCompare u v).isLE)
    (hvw : (totalCompare v w).isLE) : (totalCompare u w).isLE := by
  induction u using tuple_induction generalizing v w with
  | scalar u hu =>
    rw [totalCompare_eq_compareScalars (.inl hu)] at huv ⊢
    by_cases hv : v.rank = 4
    · -- what stands above a tuple is a tuple, and tuples stand above all scalars
      obtain ⟨ws, rfl⟩ := exists_items_of_rank (rank_of_isLE hvw hv)
      cases u with
      | tuple us => exact absurd rfl hu
      | _ => rfl
    · rw [totalCompare_eq_compareScalars (.inl hv)] at hvw
      exact Std.TransCmp.isLE_trans huv hvw
  | tuple us ih =>
    obtain ⟨vs, rfl⟩ := exists_items_of_rank (rank_of_isLE huv rfl)
    obtain ⟨ws, rfl⟩ := exists_items_of_rank (rank_of_isLE hvw rfl)
    -- above a tuple there are tuples only
    exact totalCompareList_isLE_trans (fun u hu v w => ih u hu) huv hvw

instance : Std.TransCmp totalCompare where
  isLE_trans := totalCompare_isLE_trans

/-! ## The order of values -/

/-- The comparison of values is a total order in which equal values alone tie, tuples, zeros,
    infinities and NaNs included. Integers and numbers are ordered by their exact values, integers
    first, and NaNs lie beyond all integers on the side of their signs. -/
theorem totalCompare_total_order :
    (∀ v w : Value, totalCompare w v = (totalCompare v w).swap) ∧
    (∀ u v w : Value, (totalCompare u v).isLE → (totalCompare v w).isLE →
      (totalCompare u w).isLE) ∧
    (∀ v w : Value, totalCompare v w = .eq ↔ v = w) ∧
    ∀ (n : Int64) (x : Binary64), totalCompare (.int64 n) (.float64 x) =
      if x.isNaN then (if x.isNegative then .gt else .lt)
      else if ((n.toInt : ℝ) : EReal) ≤ x.toEReal then .lt else .gt := by
  refine ⟨totalCompare_swap, fun u v w => Std.TransCmp.isLE_trans,
    fun v w => Std.LawfulEqCmp.compare_eq_iff_eq, fun n x => ?_⟩
  rw [totalCompare]
  exact Binary64.compareInt_then_lt n x

/-- Rounding `2 ^ 53 + 1` gives `2 ^ 53`, and still the integer is the greater one. -/
example : Binary64.ofInt 9007199254740993 = Binary64.ofInt 9007199254740992 ∧
    totalCompare (.int64 9007199254740993) (.float64 (.ofInt 9007199254740992)) = .gt := by
  decide +kernel

end Value

end RowFlow
