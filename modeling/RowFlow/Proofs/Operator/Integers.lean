import RowFlow.Operator.Apply
import RowFlow.Proofs.Number.Rounding

/-!
# Comparing Integers by Operators

The order of values compares integers as they are, but the operators turn both into numbers first.
So two integers are compared exactly if and only if they are not rounded to the same number
(`Operator.comparesExactly_iff`), for which it is enough that one of them has at most 53 bits.
-/

namespace RowFlow

namespace Operator

variable {a b : Int64}

/-! ## Rounded operands -/

/-- Two integers that are not rounded to the same number, unless they are equal. -/
def RoundApart (a b : Int64) : Prop := Binary64.ofInt a.toInt = Binary64.ofInt b.toInt → a = b

instance : Decidable (RoundApart a b) := inferInstanceAs (Decidable (_ → _))

/-- An integer of at most 53 bits is rounded apart from all others. -/
theorem roundApart_of_natAbs_lt (h : a.toInt.natAbs < 2 ^ 53 ∨ b.toInt.natAbs < 2 ^ 53) :
    RoundApart a b := by
  intro hsame
  exact Int64.toInt_inj.1 (Binary64.ofInt_injective h hsame)

/-- How the operators compare two integers. -/
def compareRounded (a b : Int64) : Ordering :=
  compare (Binary64.ofInt a.toInt).key (Binary64.ofInt b.toInt).key

theorem compare?_ofInt (i j : Int) :
    (Binary64.ofInt i).compare? (Binary64.ofInt j) =
      some (compare (Binary64.ofInt i).key (Binary64.ofInt j).key) :=
  Binary64.compare?_of_not_isNaN (Binary64.isNaN_ofInt i) (Binary64.isNaN_ofInt j)

section
variable {v w : Value} {x y : Binary64}

/-- Numbers compare by what they stand for. The operands are variables here, so that nothing
    unfolds the powers of two that rounding an integer takes. -/
theorem order?_of_number? (hv : v.number? = some x) (hw : w.number? = some y) :
    order? v w = x.compare? y := by
  unfold order?
  split
  · cases hv
  · cases hw
  · cases hv
  · cases hv
  · cases hv
  · rw [hv, hw]
    rfl

theorem equal?_of_number? (hv : v.number? = some x) (hw : w.number? = some y) :
    equal? v w = some (x.compare? y == some .eq) := by
  have hnull {u : Value} {z : Binary64} (hu : u.number? = some z) : u.isNull = false := by
    cases u with
    | null => cases hu
    | _ => rfl
  simp only [equal?, hnull hv, hnull hw, hv, hw, Bool.or_self, Bool.false_eq_true, if_false]

end

theorem order?_int64 (a b : Int64) :
    order? (.int64 a) (.int64 b) = some (compareRounded a b) :=
  (order?_of_number? rfl rfl).trans (compare?_ofInt a.toInt b.toInt)

theorem equal?_int64 (a b : Int64) :
    equal? (.int64 a) (.int64 b) = some (compareRounded a b == .eq) := by
  rw [equal?_of_number? rfl rfl, compare?_ofInt, Option.some_beq_some, compareRounded]

theorem compareRounded_eq_iff :
    compareRounded a b = .eq ↔ Binary64.ofInt a.toInt = Binary64.ofInt b.toInt := by
  rw [compareRounded, Int.compare_eq_eq, Binary64.key_ofInt_inj]

theorem RoundApart.symm (h : RoundApart a b) : RoundApart b a := fun hsame => (h hsame.symm).symm

theorem RoundApart.key_lt_key_iff (h : RoundApart a b) :
    (Binary64.ofInt a.toInt).key < (Binary64.ofInt b.toInt).key ↔ a.toInt < b.toInt := by
  constructor
  · intro hkey
    refine Int.not_le.1 fun hle => ?_
    have hmono := Binary64.key_ofInt_mono hle
    omega
  · intro hlt
    have hmono := Binary64.key_ofInt_mono (Int.le_of_lt hlt)
    have hne : (Binary64.ofInt a.toInt).key ≠ (Binary64.ofInt b.toInt).key := by
      intro hkey
      rw [h (Binary64.key_ofInt_inj.1 hkey)] at hlt
      exact Int.lt_irrefl _ hlt
    omega

/-- Integers that are rounded apart keep their order. -/
theorem RoundApart.compareRounded_eq (h : RoundApart a b) :
    compareRounded a b = compare a.toInt b.toInt :=
  compare_eq_compare h.key_lt_key_iff h.symm.key_lt_key_iff

/-! ## Exact comparisons -/

/-- The comparisons of two integers answer as the integers themselves compare, and as the order of
    values has them. -/
structure ComparesExactly (a b : Int64) : Prop where
  eq : apply .eq (.int64 a) (.int64 b) = .ok (.bool (decide (a = b)))
  ne : apply .ne (.int64 a) (.int64 b) = .ok (.bool (decide (a ≠ b)))
  lt : apply .lt (.int64 a) (.int64 b) = .ok (.bool (decide (a.toInt < b.toInt)))
  le : apply .le (.int64 a) (.int64 b) = .ok (.bool (decide (a.toInt ≤ b.toInt)))
  gt : apply .gt (.int64 a) (.int64 b) = .ok (.bool (decide (a.toInt > b.toInt)))
  ge : apply .ge (.int64 a) (.int64 b) = .ok (.bool (decide (a.toInt ≥ b.toInt)))
  order : order? (.int64 a) (.int64 b) = some (Value.totalCompare (.int64 a) (.int64 b))

theorem RoundApart.comparesExactly (h : RoundApart a b) : ComparesExactly a b := by
  have horder : order? (.int64 a) (.int64 b) = some (compare a.toInt b.toInt) := by
    rw [order?_int64, h.compareRounded_eq]
  have hequal : equal? (.int64 a) (.int64 b) = some (decide (a = b)) := by
    rw [equal?_int64, h.compareRounded_eq, Option.some_inj, Bool.eq_iff_iff, beq_iff_eq,
      decide_eq_true_eq, Int.compare_eq_eq, Int64.toInt_inj]
  have hanswer {x y : Bool} (hiff : x = true ↔ y = true) :
      (Except.ok (.bool x) : Except Error Value) = .ok (.bool y) := by
    rw [Bool.eq_iff_iff.2 hiff]
  constructor
  · simp [apply, hequal]
  · simp [apply, hequal]
  · simp only [apply, horder, Option.any_some]
    apply hanswer
    rw [Ordering.isLT_iff_eq_lt, Int.compare_eq_lt, decide_eq_true_eq]
  · simp only [apply, horder, Option.any_some]
    apply hanswer
    rw [Std.isLE_compare, decide_eq_true_eq]
  · simp only [apply, horder, Option.any_some]
    apply hanswer
    rw [Ordering.isGT_iff_eq_gt, Int.compare_eq_gt, decide_eq_true_eq]
  · simp only [apply, horder, Option.any_some]
    apply hanswer
    rw [Std.isGE_compare, decide_eq_true_eq]
  · rw [horder, Value.totalCompare]

/-- Two integers compare exactly if and only if they are rounded apart. -/
theorem comparesExactly_iff : ComparesExactly a b ↔ RoundApart a b := by
  refine ⟨fun h hsame => ?_, RoundApart.comparesExactly⟩
  have heq := h.eq
  rw [apply, equal?_int64, compareRounded_eq_iff.2 hsame] at heq
  injection heq with heq
  injection heq with heq
  exact of_decide_eq_true heq.symm

end Operator

end RowFlow
