import RowFlow.Proofs.Operator.Integers
import RowFlow.Proofs.Value.Order

/-!
# Comparisons Agree with Each Other

Equality and order are two functions that look at the types of their operands in different ways, and
sorting uses a third one. They are brought together by one relation (`Operator.Compares`): texts,
truths and tuples compare among themselves as the order of values has them, and numbers that are not
NaN compare as rounded numbers, by their keys. `order?` answers exactly what this relation holds of,
and two values are equal exactly when they tie in it. So the six comparisons are readings of one
relation, from which the laws between them follow (`Operator.comparisons_coherent`).

Comparing rounded numbers loses differences, but does not turn them around: an integer is not
rounded beyond a floating number, so what is less for an operator is less in the order of values.
-/

namespace RowFlow

namespace Operator

/-! ## Comparable values -/

/-- Neither null nor a number. -/
def Plain (v : Value) : Prop := v.isNull = false ∧ v.number? = none

/-- How two values compare, if the operators order them. -/
inductive Compares (v w : Value) (o : Ordering) : Prop where
  | alike (hplain : Plain v) (hrank : v.rank = w.rank) (h : Value.totalCompare v w = o)
  | numbers {x y : Binary64} (hv : v.number? = some x) (hw : w.number? = some y)
      (hx : x.isNaN = false) (hy : y.isNaN = false) (h : compare x.key y.key = o)

/-- A value is null, a number or plain, which is how the operators tell values apart. -/
theorem isNull_or_number_or_plain (v : Value) :
    v.isNull = true ∨ (∃ x, v.number? = some x) ∨ Plain v := by
  cases hnull : v.isNull with
  | true => exact .inl rfl
  | false =>
    cases hv : v.number? with
    | none => exact .inr (.inr ⟨hnull, hv⟩)
    | some x => exact .inr (.inl ⟨x, rfl⟩)

/-- Plain values compare with values of their own rank, which are plain as well. -/
theorem Plain.of_rank_eq {v w : Value} (h : Plain v) (hrank : v.rank = w.rank) : Plain w := by
  obtain ⟨hnull, hnumber⟩ := h
  cases v with
  | null => cases hnull
  | int64 n => cases hnumber
  | float64 x => cases hnumber
  | _ => cases w <;> first | exact ⟨rfl, rfl⟩ | cases hrank

/-- A plain value is no number. -/
theorem Plain.number?_ne {v : Value} (h : Plain v) {x : Binary64} : v.number? ≠ some x := by
  rw [h.2]
  exact nofun

/-- Numbers compare by their keys unless one is NaN. -/
theorem compare?_eq_some_iff {x y : Binary64} {o : Ordering} :
    x.compare? y = some o ↔ x.isNaN = false ∧ y.isNaN = false ∧ compare x.key y.key = o := by
  cases hx : x.isNaN <;> cases hy : y.isNaN <;> simp [Binary64.compare?, hx, hy]

/-! ## Order and equality as one relation -/

section
variable {u v w : Value} {o : Ordering}

/-- A plain value is ordered among the values of its rank. -/
theorem order?_of_plain (hplain : Plain v) :
    order? v w = if v.rank = w.rank then some (Value.totalCompare v w) else none := by
  obtain ⟨hnull, hnumber⟩ := hplain
  cases v with
  | null => cases hnull
  | int64 n => cases hnumber
  | float64 x => cases hnumber
  | _ => cases w <;> rfl

/-- Null is not ordered. -/
theorem order?_of_isNull (hv : v.isNull = true) : order? v w = none := by
  cases v with
  | null => rfl
  | _ => cases hv

/-- A number is ordered among numbers only. -/
theorem order?_of_number?_none {x : Binary64} (hv : v.number? = some x) (hw : w.number? = none) :
    order? v w = none := by
  unfold order?
  split
  · rfl
  · rfl
  · cases hv
  · cases hv
  · cases hv
  · rw [hv, hw]
    rfl

/-- Ordered values are comparable. -/
theorem compares_of_order? (h : order? v w = some o) : Compares v w o := by
  rcases isNull_or_number_or_plain v with hnull | ⟨x, hv⟩ | hplain
  · -- null has no order, so nothing is left to show
    rw [order?_of_isNull hnull] at h
    cases h
  · cases hw : w.number? with
    | none =>
      rw [order?_of_number?_none hv hw] at h
      cases h
    | some y =>
      rw [order?_of_number? hv hw] at h
      obtain ⟨hx, hy, hkeys⟩ := compare?_eq_some_iff.1 h
      exact .numbers hv hw hx hy hkeys
  · rw [order?_of_plain hplain] at h
    split at h
    · exact .alike hplain ‹_› (Option.some_inj.1 h)
    · cases h

/-- The order of the operators is the relation of comparable values. -/
theorem order?_eq_some_iff : order? v w = some o ↔ Compares v w o := by
  refine ⟨compares_of_order?, ?_⟩
  rintro (⟨hplain, hrank, h⟩ | ⟨hv, hw, hx, hy, h⟩)
  · rw [order?_of_plain hplain, if_pos hrank, h]
  · rw [order?_of_number? hv hw]
    exact compare?_eq_some_iff.2 ⟨hx, hy, h⟩

/-- A plain value is compared with others than null by identity. -/
theorem equal?_of_plain (hplain : Plain v) (hw : w.isNull = false) :
    equal? v w = some (v == w) := by
  simp only [equal?, hplain.1, hw, hplain.2, Bool.or_self, Bool.false_eq_true, if_false]

/-- Equal values are those that tie. -/
theorem equal?_eq_true_iff : equal? v w = some true ↔ Compares v w .eq := by
  constructor
  · intro h
    unfold equal? at h
    split at h
    · cases h
    · rename_i hnull
      rw [Bool.or_eq_true, not_or, Bool.not_eq_true, Bool.not_eq_true] at hnull
      split at h
      · rename_i x y hv hw
        obtain ⟨hx, hy, hkeys⟩ := compare?_eq_some_iff.1 (beq_iff_eq.1 (Option.some_inj.1 h))
        exact .numbers hv hw hx hy hkeys
      · -- values that are not both numbers are equal only if they are the same
        rename_i hnumbers
        obtain rfl : v = w := beq_iff_eq.1 (Option.some_inj.1 h)
        have hnumber : v.number? = none :=
          Option.eq_none_iff_forall_ne_some.2 fun x hv => hnumbers x x hv hv
        exact .alike ⟨hnull.1, hnumber⟩ rfl Std.ReflCmp.compare_self
  · rintro (⟨hplain, hrank, h⟩ | ⟨hv, hw, hx, hy, h⟩)
    -- the order of values ties only equal values
    · rw [equal?_of_plain hplain (hplain.of_rank_eq hrank).1, Value.eq_of_totalCompare h,
        beq_self_eq_true]
    · rw [equal?_of_number? hv hw, Binary64.compare?_of_not_isNaN hx hy, h]
      rfl

/-! ## Laws of comparable values -/

/-- Values compare in one way at most. -/
theorem Compares.unique {o' : Ordering} (h : Compares v w o) (h' : Compares v w o') : o = o' := by
  have horder := order?_eq_some_iff.2 h
  rw [order?_eq_some_iff.2 h'] at horder
  exact (Option.some_inj.1 horder).symm

/-- A comparison read backwards is the comparison of the swapped values. -/
theorem Compares.swap (h : Compares v w o) : Compares w v o.swap := by
  obtain ⟨hplain, hrank, rfl⟩ | ⟨hv, hw, hx, hy, rfl⟩ := h
  · exact .alike (hplain.of_rank_eq hrank) hrank.symm (Value.totalCompare_swap v w)
  · exact .numbers hw hv hy hx Std.OrientedCmp.eq_swap

/-- In a transitive comparison two equal answers in a row are the answer for both steps. -/
theorem compare_trans {α : Type} {cmp : α → α → Ordering} [Std.TransCmp cmp] {a b c : α}
    (hab : cmp a b = o) (hbc : cmp b c = o) : cmp a c = o := by
  cases o with
  | lt => exact Std.TransCmp.lt_trans hab hbc
  | eq => exact Std.TransCmp.eq_trans hab hbc
  | gt => exact Std.TransCmp.gt_trans hab hbc

/-- Comparisons of the same outcome chain. -/
theorem Compares.trans (huv : Compares u v o) (hvw : Compares v w o) : Compares u w o := by
  -- the value in the middle is either plain or a number, so both comparisons are of one kind
  obtain ⟨hplain, hrank, huv⟩ | ⟨hu, hv, hx, hy, huv⟩ := huv
  · obtain ⟨-, hrank', hvw⟩ | ⟨hv, -, -, -, -⟩ := hvw
    · exact .alike hplain (hrank.trans hrank') (compare_trans huv hvw)
    · exact absurd hv (hplain.of_rank_eq hrank).number?_ne
  · obtain ⟨hplain, -, -⟩ | ⟨hv', hw, -, hz, hvw⟩ := hvw
    · exact absurd hv hplain.number?_ne
    · rw [hv, Option.some_inj] at hv'
      subst hv'
      exact .numbers hu hw hx hz (compare_trans huv hvw)

/-! ## Rounded and exact order -/

/-- The keys that tell zeros and NaNs apart refine those that do not. -/
theorem totalKey_lt_totalKey {x y : Binary64} (h : x.key < y.key) : x.totalKey < y.totalKey := by
  simp only [Binary64.key, Binary64.totalKey] at h ⊢
  -- the two keys differ in what they make of a sign
  cases hx : x.isNegative <;> cases hy : y.isNegative
  all_goals
    simp only [hx, hy, Bool.false_eq_true, if_true, if_false] at h ⊢
    omega

/-- What is less as a number is less in the order of values, which compares exactly. -/
theorem totalCompare_of_key_lt {x y : Binary64} (hv : v.number? = some x)
    (hw : w.number? = some y) (hx : x.isNaN = false) (hy : y.isNaN = false) (h : x.key < y.key) :
    Value.totalCompare v w = .lt := by
  -- the four kinds of pairs: only integers are rounded, and only mixed pairs compare exactly
  cases v with
  | int64 m =>
    obtain rfl := Option.some_inj.1 hv
    cases w with
    | int64 n =>
      obtain rfl := Option.some_inj.1 hw
      -- rounding keeps the order, so the greater of two integers is not rounded below the other
      refine Int.compare_eq_lt.2 (Int.not_le.1 fun hle => ?_)
      exact Int.not_lt.2 (Binary64.key_ofInt_mono hle) h
    | float64 y =>
      obtain rfl := Option.some_inj.1 hw
      -- the order of values does not round, and rounding does not carry an integer past a number
      have hlt : m.toInt * Binary64.unitsPerOne < y.signedUnits :=
        Int.not_le.1 fun hle => Int.not_lt.2 (Binary64.key_le_key_ofInt hy hle) h
      rw [Value.totalCompare, Binary64.compareInt_eq, Int.compare_eq_lt.2 hlt]
      rfl
    | _ => cases hw
  | float64 x =>
    obtain rfl := Option.some_inj.1 hv
    cases w with
    | int64 n =>
      obtain rfl := Option.some_inj.1 hw
      have hlt : x.signedUnits < n.toInt * Binary64.unitsPerOne :=
        Int.not_le.1 fun hle => Int.not_lt.2 (Binary64.key_ofInt_le_key hx hle) h
      rw [Value.totalCompare, Binary64.compareInt_eq, Int.compare_eq_gt.2 hlt]
      rfl
    | float64 y =>
      obtain rfl := Option.some_inj.1 hw
      exact Int.compare_eq_lt.2 (totalKey_lt_totalKey h)
    | _ => cases hw
  | _ => cases hv

/-- What is less for an operator is less in the order of values. -/
theorem Compares.totalCompare_lt (h : Compares v w .lt) : Value.totalCompare v w = .lt := by
  obtain ⟨-, -, h⟩ | ⟨hv, hw, hx, hy, h⟩ := h
  · exact h
  · exact totalCompare_of_key_lt hv hw hx hy (Int.compare_eq_lt.1 h)

/-- What is greater for an operator is greater in the order of values. -/
theorem Compares.totalCompare_gt (h : Compares v w .gt) : Value.totalCompare v w = .gt := by
  rw [Value.totalCompare_swap, h.swap.totalCompare_lt]
  rfl

end

/-! ## Laws of comparisons -/

/-- The operators that compare. -/
def comparisons : List Operator := [.eq, .ne, .lt, .le, .gt, .ge]

/-- An operator answers that it holds of two values. -/
def Holds (op : Operator) (v w : Value) : Prop := op.apply v w = .ok (.bool true)

instance (op : Operator) (v w : Value) : Decidable (Holds op v w) :=
  inferInstanceAs (Decidable (_ = _))

/-- The laws between the comparisons of values, and with the order of values. -/
structure Coherent (a b c : Value) : Prop where
  answered : ∀ op ∈ comparisons, ∃ answer, op.apply a b = .ok (.bool answer)
  null : a = .null ∨ b = .null → ∀ op ∈ comparisons, op.apply a b = .ok (.bool false)
  lt_iff_gt : Holds .lt a b ↔ Holds .gt b a
  le_iff : Holds .le a b ↔ Holds .lt a b ∨ Holds .eq a b
  ge_iff : Holds .ge a b ↔ Holds .gt a b ∨ Holds .eq a b
  ne_iff : a ≠ .null → b ≠ .null → (Holds .ne a b ↔ ¬ Holds .eq a b)
  not_lt_and_eq : ¬ (Holds .lt a b ∧ Holds .eq a b)
  not_gt_and_eq : ¬ (Holds .gt a b ∧ Holds .eq a b)
  not_lt_and_gt : ¬ (Holds .lt a b ∧ Holds .gt a b)
  eq_symm : Holds .eq a b ↔ Holds .eq b a
  eq_trans : Holds .eq a b → Holds .eq b c → Holds .eq a c
  lt_trans : Holds .lt a b → Holds .lt b c → Holds .lt a c
  totalCompare_lt : Holds .lt a b → Value.totalCompare a b = .lt
  totalCompare_gt : Holds .gt a b → Value.totalCompare a b = .gt

/-- Nothing compares with null. -/
theorem apply_of_null {op : Operator} (hop : op ∈ comparisons) {v w : Value}
    (h : v = .null ∨ w = .null) : op.apply v w = .ok (.bool false) := by
  have horder : order? v w = none := by
    rcases h with rfl | rfl
    · cases w <;> rfl
    · cases v <;> rfl
  have hequal : equal? v w = none := by
    rcases h with rfl | rfl
    · rfl
    · cases v <;> rfl
  simp only [comparisons, List.mem_cons, List.not_mem_nil, or_false] at hop
  rcases hop with rfl | rfl | rfl | rfl | rfl | rfl <;> simp only [apply, horder, hequal] <;> rfl

section
variable {v w : Value}

/-- An ordering operator holds of values that compare in one of the ways that it accepts. -/
theorem holds_ordered {accepted : Ordering → Bool} :
    (Except.ok (.bool ((order? v w).any accepted)) : Except Error Value) = .ok (.bool true) ↔
      (accepted .lt = true ∧ Compares v w .lt) ∨ (accepted .eq = true ∧ Compares v w .eq) ∨
        (accepted .gt = true ∧ Compares v w .gt) := by
  simp only [Except.ok.injEq, Value.bool.injEq, Option.any_eq_true, order?_eq_some_iff]
  constructor
  · rintro ⟨_ | _ | _, h, haccepted⟩
    · exact .inl ⟨haccepted, h⟩
    · exact .inr (.inl ⟨haccepted, h⟩)
    · exact .inr (.inr ⟨haccepted, h⟩)
  · rintro (⟨haccepted, h⟩ | ⟨haccepted, h⟩ | ⟨haccepted, h⟩) <;> exact ⟨_, h, haccepted⟩

/-- Less-than holds of values that compare as less. -/
theorem holds_lt_iff : Holds .lt v w ↔ Compares v w .lt :=
  holds_ordered.trans (by simp [Ordering.isLT])

/-- At-most holds of values that are less or tie. -/
theorem holds_le_iff : Holds .le v w ↔ Compares v w .lt ∨ Compares v w .eq :=
  holds_ordered.trans (by simp [Ordering.isLE])

/-- Greater-than holds of values that compare as greater. -/
theorem holds_gt_iff : Holds .gt v w ↔ Compares v w .gt :=
  holds_ordered.trans (by simp [Ordering.isGT])

/-- At-least holds of values that are greater or tie. -/
theorem holds_ge_iff : Holds .ge v w ↔ Compares v w .gt ∨ Compares v w .eq :=
  holds_ordered.trans (by simp [Ordering.isGE, or_comm])

/-- Equality holds of values that tie. -/
theorem holds_eq_iff : Holds .eq v w ↔ Compares v w .eq := by
  rw [← equal?_eq_true_iff]
  simp only [Holds, apply, Except.ok.injEq, Value.bool.injEq, beq_iff_eq]

/-- Equality decides all values but null. -/
theorem equal?_isSome_iff : (equal? v w).isSome = true ↔ v ≠ .null ∧ w ≠ .null := by
  have hnull {u : Value} : u.isNull = false ↔ u ≠ .null := by
    cases u <;> simp [Value.isNull]
  rw [← hnull, ← hnull]
  unfold equal?
  split
  -- one of the two is null
  · rename_i h
    rw [Bool.or_eq_true] at h
    rcases h with h | h <;> simp [h]
  · rename_i h
    rw [Bool.or_eq_true, not_or, Bool.not_eq_true, Bool.not_eq_true] at h
    split <;> simp [h]

/-- Unequal values are those that are not equal, unless one is null. -/
theorem holds_ne_iff : Holds .ne v w ↔ v ≠ .null ∧ w ≠ .null ∧ ¬ Compares v w .eq := by
  rw [← equal?_eq_true_iff, ← and_assoc, ← equal?_isSome_iff]
  simp only [Holds, apply, Except.ok.injEq, Value.bool.injEq, beq_iff_eq]
  rcases equal? v w with _ | _ | _ <;> simp

end

/-- The comparisons of any three values are coherent: nulls, numbers of both kinds with NaNs and
    zeros, texts and nested tuples. -/
theorem comparisons_coherent (a b c : Value) : Coherent a b c where
  answered := by
    intro op hop
    -- each of the six operators answers with a truth by its definition
    simp only [comparisons, List.mem_cons, List.not_mem_nil, or_false] at hop
    rcases hop with rfl | rfl | rfl | rfl | rfl | rfl <;> exact ⟨_, rfl⟩
  null := fun h op hop => apply_of_null hop h
  lt_iff_gt := by
    -- read backwards, less is greater
    rw [holds_lt_iff, holds_gt_iff]
    exact ⟨Compares.swap, Compares.swap⟩
  le_iff := by rw [holds_le_iff, holds_lt_iff, holds_eq_iff]
  ge_iff := by rw [holds_ge_iff, holds_gt_iff, holds_eq_iff]
  ne_iff := fun ha hb => by
    rw [holds_ne_iff, holds_eq_iff]
    exact ⟨fun h => h.2.2, fun h => ⟨ha, hb, h⟩⟩
  not_lt_and_eq := by
    rw [holds_lt_iff, holds_eq_iff]
    -- one pair cannot compare in two ways
    exact fun h => nomatch h.1.unique h.2
  not_gt_and_eq := by
    rw [holds_gt_iff, holds_eq_iff]
    exact fun h => nomatch h.1.unique h.2
  not_lt_and_gt := by
    rw [holds_lt_iff, holds_gt_iff]
    exact fun h => nomatch h.1.unique h.2
  eq_symm := by
    rw [holds_eq_iff, holds_eq_iff]
    exact ⟨Compares.swap, Compares.swap⟩
  eq_trans := by
    rw [holds_eq_iff, holds_eq_iff, holds_eq_iff]
    exact Compares.trans
  lt_trans := by
    rw [holds_lt_iff, holds_lt_iff, holds_lt_iff]
    exact Compares.trans
  totalCompare_lt := fun h => (holds_lt_iff.1 h).totalCompare_lt
  totalCompare_gt := fun h => (holds_gt_iff.1 h).totalCompare_gt

/-- Equality of numbers rounds, equality inside tuples does not. -/
example : Holds .eq (.int64 9007199254740993) (.int64 9007199254740992) ∧
    ¬ Holds .eq (.tuple [.int64 9007199254740993]) (.tuple [.int64 9007199254740992]) := by
  decide +kernel

end Operator

end RowFlow
