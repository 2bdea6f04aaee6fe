import RowFlow.Proofs.Operator.Coherence

/-!
# Equality of Tuples

The operators take two tuples for equal if and only if they are the same, item by item, as values
(`Operator.holds_eq_tuple_iff`). The items themselves would be compared in another way: a null or a
NaN is not equal to itself, and different values are equal if they stand for the same number. So the
equality of two tuples is the equality of their items, place by place, unless they are the same
tuple and hold a null or a NaN, or differ only in values that stand for the same numbers
(`Operator.holds_eq_tuple_iff_forall₂_iff`).
-/

namespace RowFlow

namespace Operator

variable {v w : Value}

/-! ## Equal values -/

/-- Neither null nor NaN. A tuple is definite whatever its items are. -/
structure Definite (v : Value) : Prop where
  ne_null : v ≠ .null
  not_isNaN : ∀ x, v = .float64 x → x.isNaN = false

/-- Different values that stand for the same number: an integer and a floating number, the two
    zeros, or two integers that are rounded to the same number. -/
structure Twins (v w : Value) : Prop where
  ne : v ≠ w
  same : ∃ x y, v.number? = some x ∧ w.number? = some y ∧ x.compare? y = some .eq

theorem Plain.definite (h : Plain v) : Definite v where
  ne_null := by
    rintro rfl
    cases h.1
  not_isNaN := by
    rintro x rfl
    cases h.2

theorem definite_tuple (vs : List Value) : Definite (.tuple vs) where
  ne_null := by
    intro h
    cases h
  not_isNaN := by
    intro x h
    cases h

/-- What stands for a number that is not NaN is definite. -/
theorem definite_of_number? {x : Binary64} (hv : v.number? = some x) (hx : x.isNaN = false) :
    Definite v where
  ne_null := by
    rintro rfl
    cases hv
  not_isNaN := by
    rintro y rfl
    rwa [Option.some_inj.1 hv]

/-- A value ties with itself if and only if it is definite. -/
theorem compares_self_iff : Compares v v .eq ↔ Definite v := by
  constructor
  · rintro (⟨hplain, -, -⟩ | ⟨hv, -, hx, -, -⟩)
    · exact hplain.definite
    · exact definite_of_number? hv hx
  · intro h
    rcases isNull_or_number_or_plain v with hnull | ⟨x, hv⟩ | hplain
    · cases v with
      | null => exact absurd rfl h.ne_null
      | _ => cases hnull
    · have hx : x.isNaN = false := by
        cases v with
        | int64 n =>
          rw [← Option.some_inj.1 hv]
          exact Binary64.isNaN_ofInt n.toInt
        | float64 y =>
          rw [← Option.some_inj.1 hv]
          exact h.not_isNaN y rfl
        | _ => cases hv
      exact .numbers hv hv hx hx (Int.compare_eq_eq.2 rfl)
    · exact .alike hplain rfl Std.ReflCmp.compare_self

/-- The same definite value, or twins. -/
def Tied (v w : Value) : Prop := (v = w ∧ Definite v) ∨ Twins v w

/-- Values are equal to the operators if and only if they are tied. -/
theorem holds_eq_iff_tied : Holds .eq v w ↔ Tied v w := by
  rw [holds_eq_iff]
  constructor
  · intro h
    by_cases hvw : v = w
    · subst hvw
      exact .inl ⟨rfl, compares_self_iff.1 h⟩
    · refine .inr ⟨hvw, ?_⟩
      obtain ⟨-, -, h⟩ | ⟨hv, hw, hx, hy, h⟩ := h
      · exact absurd (Value.eq_of_totalCompare h) hvw
      · exact ⟨_, _, hv, hw, compare?_eq_some_iff.2 ⟨hx, hy, h⟩⟩
  · rintro (⟨rfl, h⟩ | ⟨-, x, y, hv, hw, h⟩)
    · exact compares_self_iff.2 h
    · obtain ⟨hx, hy, hkeys⟩ := compare?_eq_some_iff.1 h
      exact .numbers hv hw hx hy hkeys

/-- The operator for equality answers whether it holds. -/
theorem apply_eq (v w : Value) : apply .eq v w = .ok (.bool (decide (Holds .eq v w))) := by
  have happly : apply .eq v w = .ok (.bool (equal? v w == some true)) := rfl
  have hholds : (equal? v w == some true) = decide (Holds .eq v w) := by
    rw [Bool.eq_iff_iff]
    simp [Holds, happly]
  rw [happly, hholds]

/-! ## Equal tuples -/

/-- Tuples are equal to the operators if and only if they are the same. -/
theorem holds_eq_tuple_iff {vs ws : List Value} : Holds .eq (.tuple vs) (.tuple ws) ↔ vs = ws := by
  rw [holds_eq_iff_tied]
  constructor
  · rintro (⟨h, -⟩ | ⟨-, x, y, hx, -, -⟩)
    · exact Value.tuple.inj h
    · cases hx
  · rintro rfl
    exact .inl ⟨rfl, definite_tuple vs⟩

/-- Comparing the items place by place tells the same of two lists as comparing the lists: they are
    not equal through a null or a NaN, and do not differ in nothing but twins. -/
structure ToldAlike (vs ws : List Value) : Prop where
  definite : vs = ws → ∀ v ∈ vs, Definite v
  not_tied : vs ≠ ws → ¬ List.Forall₂ Tied vs ws

/-- Two tuples are equal when their items are, place by place, if and only if both comparisons tell
    the same of their items. -/
theorem holds_eq_tuple_iff_forall₂_iff {vs ws : List Value} :
    (Holds .eq (.tuple vs) (.tuple ws) ↔ List.Forall₂ (Holds .eq) vs ws) ↔ ToldAlike vs ws := by
  have hitems : List.Forall₂ (Holds .eq) vs ws ↔ List.Forall₂ Tied vs ws :=
    ⟨fun h => h.imp fun _ _ => holds_eq_iff_tied.1, fun h => h.imp fun _ _ => holds_eq_iff_tied.2⟩
  rw [holds_eq_tuple_iff, hitems]
  by_cases hsame : vs = ws
  · subst hsame
    -- an item is no twin of itself
    have htwin (v : Value) : ¬ Twins v v := fun h => h.ne rfl
    simp only [List.forall₂_same, Tied, htwin, or_false, true_and, true_iff]
    exact ⟨fun h => ⟨fun _ => h, fun hne => absurd rfl hne⟩, fun h => h.definite rfl⟩
  · simp only [hsame, false_iff]
    exact ⟨fun h => ⟨fun heq => absurd heq hsame, fun _ => h⟩, fun h => h.not_tied hsame⟩

instance (vs ws : List Value) : Decidable (ToldAlike vs ws) :=
  decidable_of_iff _ holds_eq_tuple_iff_forall₂_iff

end Operator

end RowFlow
