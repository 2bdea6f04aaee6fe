import RowFlow.Proofs.Reduction.Accumulator
import RowFlow.Proofs.Success
import RowFlow.Proofs.Value.Order
import RowFlow.Reduction.Accumulator

/-!
# Least and Greatest Values

Where a column does not declare floating numbers, its minimum and its maximum are taken in the total
order of values, in which equal values alone tie. So there is one best value among those that are
considered, wherever it stands (`BestOf.unique`), an accumulator that goes from value to value holds
it (`ExtremumOf.exists_foldlM_pushed`), and the best of all is the best of the best of any two parts
(`BestOf.merge`).
-/

namespace RowFlow

variable {greatest : Bool} {reduction : Reduction} {type : ColumnType} {u v w : Value}
  {vs ws : List Value}

/-! ## The better of two values -/

/-- A value is not outdone by another one as the least value, or as the greatest. -/
def AsGood (greatest : Bool) (v w : Value) : Prop :=
  if greatest then (w.totalCompare v).isLE else (v.totalCompare w).isLE

namespace AsGood

theorem refl (greatest : Bool) (v : Value) : AsGood greatest v v := by
  have hself : v.totalCompare v = .eq := Std.ReflCmp.compare_self
  cases greatest <;> simp [AsGood, hself]

theorem trans (huv : AsGood greatest u v) (hvw : AsGood greatest v w) : AsGood greatest u w := by
  cases greatest with
  | false => exact Value.totalCompare_isLE_trans huv hvw
  | true => exact Value.totalCompare_isLE_trans hvw huv

/-- Of different values one outdoes the other. -/
theorem antisymm (hvw : AsGood greatest v w) (hwv : AsGood greatest w v) : v = w := by
  have hboth : (v.totalCompare w).isLE ∧ (w.totalCompare v).isLE := by
    cases greatest with
    | false => exact ⟨hvw, hwv⟩
    | true => exact ⟨hwv, hvw⟩
  -- an order that is at most equal in both directions is equality
  rw [Value.totalCompare_swap v w] at hboth
  apply Value.eq_of_totalCompare
  rcases hcompare : v.totalCompare w with _ | _ | _ <;> simp_all

end AsGood

namespace Accumulator

/-- The better of two values is one of them, and the other one does not outdo it. -/
theorem better_spec (greatest : Bool) (held v : Value) :
    (better greatest held v = held ∧ AsGood greatest held v) ∨
      (better greatest held v = v ∧ AsGood greatest v held) := by
  rw [better]
  -- the newcomer has to be strictly better, so the one that is held wins a tie
  by_cases h : v.totalCompare held = if greatest then .gt else .lt
  · refine .inr ⟨if_pos h, ?_⟩
    cases greatest with
    | false => simp_all [AsGood]
    | true => simp_all [AsGood, Value.totalCompare_swap v held]
  · refine .inl ⟨if_neg h, ?_⟩
    cases greatest with
    | false =>
      rw [AsGood, if_neg (by decide), Value.totalCompare_swap v held]
      rcases hcompare : v.totalCompare held with _ | _ | _ <;> simp_all
    | true =>
      rw [AsGood, if_pos rfl]
      rcases hcompare : v.totalCompare held with _ | _ | _ <;> simp_all

end Accumulator

/-! ## The best of several values -/

/-- The value among others that none of them outdoes, if there are any. -/
structure BestOf (greatest : Bool) (vs : List Value) (result : Option Value) : Prop where
  mem : ∀ b ∈ result, b ∈ vs
  asGood : ∀ w ∈ vs, ∃ b ∈ result, AsGood greatest b w

namespace BestOf

variable {left right result : Option Value}

theorem nothing : BestOf greatest [] none := ⟨nofun, nofun⟩

theorem eq_none_iff (h : BestOf greatest vs result) : result = none ↔ vs = [] := by
  constructor
  · rintro rfl
    refine List.eq_nil_iff_forall_not_mem.2 fun w hw => ?_
    obtain ⟨b, hb, -⟩ := h.asGood w hw
    cases hb
  · rintro rfl
    -- the best one would be one of no values
    refine Option.eq_none_iff_forall_not_mem.2 fun b hb => ?_
    cases h.mem b hb

theorem mem_of_mem (hleft : BestOf greatest vs left) (hright : BestOf greatest ws right)
    (hmem : ∀ v, v ∈ vs ↔ v ∈ ws) {b : Value} (hb : b ∈ left) : b ∈ right := by
  obtain ⟨c, hc, hcb⟩ := hright.asGood b ((hmem b).1 (hleft.mem b hb))
  obtain ⟨d, hd, hdc⟩ := hleft.asGood c ((hmem c).2 (hright.mem c hc))
  -- neither outdoes the other, so both are the same
  obtain rfl := Option.mem_unique hd hb
  exact hdc.antisymm hcb ▸ hc

/-- The best value depends on what values there are, not on their order. -/
theorem unique (hleft : BestOf greatest vs left) (hright : BestOf greatest ws right)
    (hmem : ∀ v, v ∈ vs ↔ v ∈ ws) : left = right :=
  Option.ext fun _ => ⟨hleft.mem_of_mem hright hmem, hright.mem_of_mem hleft fun v => (hmem v).symm⟩

/-- The best of all values is the best of the best ones of two parts. -/
theorem merge (hleft : BestOf greatest vs left) (hright : BestOf greatest ws right)
    (h : BestOf greatest (left.toList ++ right.toList) result) :
    BestOf greatest (vs ++ ws) result where
  mem b hb := by
    rcases List.mem_append.1 (h.mem b hb) with hb | hb
    · exact List.mem_append_left _ (hleft.mem b (Option.mem_toList.1 hb))
    · exact List.mem_append_right _ (hright.mem b (Option.mem_toList.1 hb))
  asGood w hw := by
    -- some best value of a part is as good as `w`, and the best of both is as good as that one
    have hpart : ∃ c ∈ left.toList ++ right.toList, AsGood greatest c w := by
      rcases List.mem_append.1 hw with hw | hw
      · obtain ⟨c, hc, hcw⟩ := hleft.asGood w hw
        exact ⟨c, List.mem_append_left _ (Option.mem_toList.2 hc), hcw⟩
      · obtain ⟨c, hc, hcw⟩ := hright.asGood w hw
        exact ⟨c, List.mem_append_right _ (Option.mem_toList.2 hc), hcw⟩
    obtain ⟨c, hc, hcw⟩ := hpart
    obtain ⟨b, hb, hbc⟩ := h.asGood c hc
    exact ⟨b, hb, hbc.trans hcw⟩

theorem singleton (v : Value) : BestOf greatest [v] (some v) where
  mem b hb := by simpa using hb.symm
  asGood w hw := ⟨v, rfl, List.mem_singleton.1 hw ▸ .refl greatest w⟩

/-- The better of two values is the best of them. -/
theorem pair (held v : Value) :
    BestOf greatest [held, v] (some (Accumulator.better greatest held v)) := by
  rcases Accumulator.better_spec greatest held v with ⟨heq, hgood⟩ | ⟨heq, hgood⟩
  · rw [heq]
    exact ⟨by simp, by simp [hgood, AsGood.refl]⟩
  · rw [heq]
    exact ⟨by simp, by simp [hgood, AsGood.refl]⟩

/-- The next value replaces the best one if it is better. -/
theorem concat (h : BestOf greatest vs result) (v : Value) :
    BestOf greatest (vs ++ [v])
      (some ((result.map (Accumulator.better greatest · v)).getD v)) := by
  cases result with
  | none =>
    obtain rfl := h.eq_none_iff.1 rfl
    exact singleton v
  | some held => exact h.merge (singleton v) (pair held v)

end BestOf

/-! ## Accumulators of extrema -/

/-- Whether the extrema of a column take a value into account: integers only if the column declares
    them, and otherwise whatever is not null. -/
def ColumnType.considers : ColumnType → Value → Bool
  | .int64, .int64 _ => true
  | .int64, _ => false
  | _, v => !v.isNull

/-- The values of a column that its extrema take into account. -/
def considered (type : ColumnType) (values : List Value) : List Value :=
  values.filter type.considers

namespace Accumulator

/-- A minimum or a maximum that holds the best of some values. -/
inductive ExtremumOf (reduction : Reduction) : ColumnType → List Value → Accumulator → Prop where
  | integers {vs : List Value} {result : Option Int64}
      (best : BestOf (reduction == .max) vs (result.map .int64)) :
      ExtremumOf reduction .int64 vs (.integers reduction result)
  | values {type : ColumnType} {vs : List Value} {result : Option Value} (ne : type ≠ .int64)
      (best : BestOf (reduction == .max) vs result) :
      ExtremumOf reduction type vs (.extremum (reduction == .max) result)

/-- The better of two integers is their combination. -/
theorem exists_combineIntegers (hreduction : reduction = .min ∨ reduction = .max) (m n : Int64) :
    ∃ k, combineIntegers reduction m n = .ok k ∧
      .int64 k = better (reduction == .max) (.int64 m) (.int64 n) := by
  rcases hreduction with rfl | rfl
  · refine ⟨_, rfl, ?_⟩
    rw [better, apply_ite Value.int64]
    exact if_congr Int.compare_eq_lt.symm rfl rfl
  · refine ⟨_, rfl, ?_⟩
    rw [better, apply_ite Value.int64]
    exact if_congr Int.compare_eq_gt.symm rfl rfl

namespace ExtremumOf

variable {acc next : Accumulator}

theorem start (hreduction : reduction = .min ∨ reduction = .max) (htype : type ≠ .float64) :
    ExtremumOf reduction type [] (.start reduction type) := by
  cases type with
  | float64 => exact absurd rfl htype
  | int64 => rcases hreduction with rfl | rfl <;> exact .integers .nothing
  | bool | utf8 => rcases hreduction with rfl | rfl <;> exact .values (by decide) .nothing

/-- The result is null or the best of the values. -/
theorem exists_finish (h : ExtremumOf reduction type vs acc) :
    ∃ result, acc.finish = result.getD .null ∧ BestOf (reduction == .max) vs result := by
  cases h with
  | integers hbest => exact ⟨_, rfl, hbest⟩
  | values _ hbest => exact ⟨_, rfl, hbest⟩

/-- Every value can be pushed, and counts if it is considered. -/
theorem exists_pushed (hreduction : reduction = .min ∨ reduction = .max)
    (h : ExtremumOf reduction type vs acc) (v : Value) :
    ∃ next, acc.pushed v = .ok next ∧
      ExtremumOf reduction type (vs ++ considered type [v]) next := by
  -- the state of a column of integers knows integers only, the other one any values
  cases h with
  | @integers _ result hbest =>
    cases v with
    | int64 n =>
      have hconcat := hbest.concat (.int64 n)
      cases result with
      | none => exact ⟨_, rfl, .integers hconcat⟩
      | some m =>
        obtain ⟨k, hk, hbetter⟩ := exists_combineIntegers hreduction m n
        refine ⟨.integers reduction (some k), ?_, .integers ?_⟩
        · rw [Accumulator.pushed_integers_some, hk]
          rfl
        · rw [Option.map_some, hbetter]
          exact hconcat
    | null | float64 | bool | utf8 | tuple =>
      exact ⟨_, rfl, .integers ((List.append_nil vs).symm ▸ hbest)⟩
  | @values _ _ result htype hbest =>
    -- the branch of the match that the declared type decides
    have hconsiders : type.considers v = !v.isNull := by
      cases type with
      | int64 => exact absurd rfl htype
      | float64 | bool | utf8 => rfl
    cases hv : v.isNull with
    | true =>
      refine ⟨_, Accumulator.pushed_eq_ok_iff.2 (by rw [push, if_pos hv]), .values htype ?_⟩
      simpa [considered, hconsiders, hv] using hbest
    | false =>
      refine ⟨_, Accumulator.pushed_eq_ok_iff.2 (by rw [push, if_neg (by simp [hv])]),
        .values htype ?_⟩
      simpa [considered, hconsiders, hv] using hbest.concat v

theorem exists_foldlM_pushed (hreduction : reduction = .min ∨ reduction = .max)
    (h : ExtremumOf reduction type vs acc) (values : List Value) :
    ∃ next, values.foldlM pushed acc = .ok next ∧
      ExtremumOf reduction type (vs ++ considered type values) next := by
  -- the values that have been held so far grow with each push
  induction values generalizing vs acc with
  | nil => exact ⟨acc, rfl, (List.append_nil vs).symm ▸ h⟩
  | cons v values ih =>
    obtain ⟨between, hv, hbetween⟩ := h.exists_pushed hreduction v
    obtain ⟨next, hvalues, hnext⟩ := ih hbetween
    refine ⟨next, ?_, ?_⟩
    · rw [List.foldlM_cons, hv]
      exact hvalues
    · rwa [List.append_assoc, considered, considered, ← List.filter_append] at hnext

end ExtremumOf

/-- The result of a reduction of values. -/
def resultOf (reduction : Reduction) (type : ColumnType) (values : List Value) :
    Except Error Value :=
  finish <$> values.foldlM pushed (start reduction type)

theorem considers_null (type : ColumnType) : type.considers .null = false := by
  cases type <;> rfl

theorem null_notMem_considered (type : ColumnType) (values : List Value) :
    .null ∉ considered type values := by
  simp [considered, considers_null]

/-- A result is considered in its turn, unless it is null. -/
theorem considered_getD {values : List Value} {best : Option Value}
    (h : BestOf greatest (considered type values) best) :
    considered type [best.getD .null] = best.toList := by
  cases best with
  | none => simp [considered, considers_null]
  | some b =>
    have hb : type.considers b := (List.mem_filter.1 (h.mem b rfl)).2
    simp [considered, hb]

/-- The minimum and the maximum of values are null or the best of those that are considered. -/
theorem exists_resultOf (hreduction : reduction = .min ∨ reduction = .max) (htype : type ≠ .float64)
    (values : List Value) :
    ∃ best, resultOf reduction type values = .ok (best.getD .null) ∧
      BestOf (reduction == .max) (considered type values) best := by
  obtain ⟨acc, hacc, hbest⟩ :=
    (ExtremumOf.start hreduction htype).exists_foldlM_pushed hreduction values
  obtain ⟨best, hfinish, hbest⟩ := hbest.exists_finish
  refine ⟨best, ?_, hbest⟩
  rw [resultOf, hacc, ← hfinish]
  rfl

/-- **Extrema do not depend on the order of values.** The minimum and the maximum of a column that
    does not declare floating numbers never fail. They are null if and only if no value is
    considered, and otherwise one that is considered and that none outdoes. They are the same for
    any permutation of the values, and for the results of any two parts of them. -/
theorem extrema_of_considered (hreduction : reduction = .min ∨ reduction = .max)
    (htype : type ≠ .float64) (values : List Value) :
    ∃ result, resultOf reduction type values = .ok result ∧
      (result = .null ↔ considered type values = []) ∧
      (considered type values ≠ [] → result ∈ considered type values ∧
        ∀ v ∈ considered type values, (reduction = .min → (result.totalCompare v).isLE) ∧
          (reduction = .max → (v.totalCompare result).isLE)) ∧
      (∀ other, values.Perm other → resultOf reduction type other = .ok result) ∧
      ∀ left right, values.Perm (left ++ right) →
        ∃ l r, resultOf reduction type left = .ok l ∧ resultOf reduction type right = .ok r ∧
          resultOf reduction type [l, r] = .ok result := by
  obtain ⟨best, hhere, hbest⟩ := exists_resultOf hreduction htype values
  have hnull : best.getD .null = .null ↔ considered type values = [] := by
    rw [← hbest.eq_none_iff]
    cases best with
    | none => simp
    | some b =>
      have hb : b ≠ .null := fun h => null_notMem_considered type values (h ▸ hbest.mem b rfl)
      simpa using hb
  -- other values of which the same are considered have the same result
  have hsame {other : List Value}
      (hmem : ∀ v, v ∈ considered type values ↔ v ∈ considered type other) :
      resultOf reduction type other = .ok (best.getD .null) := by
    obtain ⟨best', hhere', hbest'⟩ := exists_resultOf hreduction htype other
    rw [hhere', hbest.unique hbest' hmem]
  refine ⟨best.getD .null, hhere, hnull, fun hne => ?_, fun other hperm => ?_,
    fun left right hperm => ?_⟩
  · obtain ⟨b, rfl⟩ := Option.ne_none_iff_exists'.1 fun h => hne (hbest.eq_none_iff.1 h)
    refine ⟨hbest.mem b rfl, fun v hv => ?_⟩
    obtain ⟨c, hc, hcv⟩ := hbest.asGood v hv
    obtain rfl : b = c := Option.some.inj hc
    constructor
    · rintro rfl
      exact hcv
    · rintro rfl
      exact hcv
  · exact hsame fun v => (hperm.filter _).mem_iff
  · obtain ⟨l, hl, hlbest⟩ := exists_resultOf hreduction htype left
    obtain ⟨r, hr, hrbest⟩ := exists_resultOf hreduction htype right
    obtain ⟨both, hboth, hbothbest⟩ := exists_resultOf hreduction htype [l.getD .null, r.getD .null]
    have hparts : considered type [l.getD .null, r.getD .null] = l.toList ++ r.toList := by
      rw [← considered_getD hlbest, ← considered_getD hrbest]
      exact List.filter_append [l.getD .null] [r.getD .null]
    -- the best of the two results is the best of all, by the lemma on parts
    have hmerged : BestOf (reduction == .max) (considered type (left ++ right)) both := by
      rw [considered, List.filter_append]
      exact hlbest.merge hrbest (hparts ▸ hbothbest)
    refine ⟨_, _, hl, hr, ?_⟩
    rw [hboth, hbest.unique hmerged fun v => (hperm.filter _).mem_iff]

/-- Answers of all kinds to a question for a name. -/
def namesGiven : List Value :=
  [.utf8 "mira", .null, .int64 7, .tuple [.utf8 "zoe", .null], .float64 ⟨0x401C000000000000⟩,
    .tuple [.utf8 "zoe"], .bool true]

/-- The greatest answer is the longer tuple, and it is the greater one of two parts' results. -/
theorem namesGiven_greatest :
    resultOf .max .utf8 namesGiven = .ok (.tuple [.utf8 "zoe", .null]) ∧
      considered .utf8 namesGiven ≠ [] ∧
      (.tuple [.utf8 "zoe", .null]) ∈ considered .utf8 namesGiven ∧
      resultOf .max .utf8 namesGiven.reverse = .ok (.tuple [.utf8 "zoe", .null]) ∧
      ∃ l r, resultOf .max .utf8 (namesGiven.take 3) = .ok l ∧
        resultOf .max .utf8 (namesGiven.drop 3) = .ok r ∧
        resultOf .max .utf8 [l, r] = .ok (.tuple [.utf8 "zoe", .null]) := by
  have hhere : resultOf .max .utf8 namesGiven = .ok (.tuple [.utf8 "zoe", .null]) := by
    decide +kernel
  have hne : considered .utf8 namesGiven ≠ [] := by decide +kernel
  obtain ⟨result, hresult, -, hbest, hperm, hparts⟩ :=
    extrema_of_considered (.inr rfl) (by decide : ColumnType.utf8 ≠ .float64) namesGiven
  obtain rfl := Except.ok.inj (hresult.symm.trans hhere)
  exact ⟨hhere, hne, (hbest hne).1, hperm _ (List.reverse_perm _).symm,
    hparts _ _ (.of_eq (List.take_append_drop 3 _).symm)⟩

end Accumulator

end RowFlow
