import RowFlow.Proofs.Value.Order
import RowFlow.Step.Stage

/-!
# Stable Sorting

Sorted items are in order, and items that tie stay as they were (`StablySorts`). Only one
arrangement is like that (`StablySorts.unique`), so whatever has these two properties is what a sort
gives. Rows compare by the tuples of their values at key positions (`compareKeys_eq`), which makes
of each law about sorted rows a law about arrangements: sorting what is sorted, sorting by the last
keys first, and leaving rows out before or after sorting.
-/

namespace RowFlow

/-! ## Arrangements -/

section
variable {α : Type} {cmp cmp₁ cmp₂ : α → α → Ordering} {a b : α} {items : List α}

/-- The items that tie with one, in their order. -/
def ties (cmp : α → α → Ordering) (a : α) (items : List α) : List α :=
  items.filter (cmp a · == .eq)

theorem mem_ties : b ∈ ties cmp a items ↔ b ∈ items ∧ cmp a b = .eq := by
  rw [ties, List.mem_filter, beq_iff_eq]

theorem ties_cons (cmp : α → α → Ordering) (a b : α) (items : List α) :
    ties cmp a (b :: items) = if cmp a b = .eq then b :: ties cmp a items else ties cmp a items := by
  simp only [ties, List.filter_cons, beq_iff_eq]

theorem ties_filter (cmp : α → α → Ordering) (a : α) (p : α → Bool) (items : List α) :
    ties cmp a (items.filter p) = (ties cmp a items).filter p := by
  simp only [ties, List.filter_filter, Bool.and_comm]

theorem ties_compareLex (a : α) (items : List α) :
    ties (compareLex cmp₁ cmp₂) a items = ties cmp₁ a (ties cmp₂ a items) := by
  rw [ties, ties, ties, List.filter_filter]
  refine List.filter_congr fun b _ => ?_
  rw [Bool.eq_iff_iff, Bool.and_eq_true, beq_iff_eq, beq_iff_eq, beq_iff_eq, compareLex,
    Ordering.then_eq_eq]

theorem ties_comm (a b : α) (items : List α) :
    ties cmp₁ a (ties cmp₂ b items) = ties cmp₂ b (ties cmp₁ a items) :=
  ties_filter cmp₁ a _ items

/-- Lists with the same ties have the same items. -/
theorem mem_iff_of_ties [Std.ReflCmp cmp] {xs ys : List α}
    (h : ∀ a, ties cmp a xs = ties cmp a ys) : a ∈ xs ↔ a ∈ ys := by
  have hself : cmp a a = .eq := Std.ReflCmp.compare_self
  have hties := congrArg (a ∈ ·) (h a)
  simpa only [mem_ties, hself, and_true, eq_iff_iff] using hties

/-- Ordered lists with the same ties are the same. -/
theorem eq_of_ties [Std.TransCmp cmp] {xs ys : List α}
    (hxs : xs.Pairwise fun a b => (cmp a b).isLE) (hys : ys.Pairwise fun a b => (cmp a b).isLE)
    (hties : ∀ a, ties cmp a xs = ties cmp a ys) : xs = ys := by
  induction xs generalizing ys with
  | nil =>
    cases ys with
    | nil => rfl
    | cons y ys => exact absurd ((mem_iff_of_ties hties).2 List.mem_cons_self) List.not_mem_nil
  | cons x xs ih =>
    cases ys with
    | nil => exact absurd ((mem_iff_of_ties hties).1 List.mem_cons_self) List.not_mem_nil
    | cons y ys =>
      have hself (a : α) : cmp a a = .eq := Std.ReflCmp.compare_self
      obtain ⟨hx, hxs'⟩ := List.pairwise_cons.1 hxs
      obtain ⟨hy, hys'⟩ := List.pairwise_cons.1 hys
      -- each head is in the other list, so neither is greater than the other
      have hle : (cmp x y).isLE := by
        rcases List.mem_cons.1 ((mem_iff_of_ties hties).2 List.mem_cons_self) with rfl | hmem
        · rw [hself]
          rfl
        · exact hx y hmem
      have hge : (cmp y x).isLE := by
        rcases List.mem_cons.1 ((mem_iff_of_ties hties).1 List.mem_cons_self) with rfl | hmem
        · rw [hself]
          rfl
        · exact hy x hmem
      have htie : cmp x y = .eq := Std.OrientedCmp.isLE_antisymm hle hge
      have hheads := hties x
      rw [ties_cons, ties_cons, if_pos (hself x), if_pos htie] at hheads
      obtain ⟨rfl, -⟩ := List.cons.inj hheads
      -- without the common head the ties are still the same
      refine congrArg (x :: ·) (ih hxs' hys' fun a => ?_)
      have hcons := hties a
      rw [ties_cons, ties_cons] at hcons
      split at hcons
      · exact (List.cons.inj hcons).2
      · exact hcons

/-- Items are in the order of two comparisons if they are in the order of the first one, and those
    that tie in the order of the second one. -/
theorem pairwise_compareLex [Std.ReflCmp cmp₁]
    (h : items.Pairwise fun a b => (cmp₁ a b).isLE)
    (hties : ∀ a, (ties cmp₁ a items).Pairwise fun b c => (cmp₂ b c).isLE) :
    items.Pairwise fun a b => (compareLex cmp₁ cmp₂ a b).isLE := by
  induction items with
  | nil => exact .nil
  | cons a items ih =>
    obtain ⟨ha, hrest⟩ := List.pairwise_cons.1 h
    refine List.pairwise_cons.2 ⟨fun b hb => ?_, ih hrest fun c => ?_⟩
    · have hself := hties a
      rw [ties_cons, if_pos Std.ReflCmp.compare_self] at hself
      rw [compareLex, Ordering.isLE_then_iff_or]
      -- the first comparison decides, or else the items are ties and the second one does
      rcases hcmp : cmp₁ a b with _ | _ | _
      · exact .inl rfl
      · exact .inr ⟨rfl, (List.pairwise_cons.1 hself).1 b (mem_ties.2 ⟨hb, hcmp⟩)⟩
      · exact absurd (hcmp ▸ ha b hb) nofun
    · have hc := hties c
      rw [ties_cons] at hc
      split at hc
      · exact (List.pairwise_cons.1 hc).2
      · exact hc

/-- The second list arranges the items of the first one in order, and items that tie as they were
    there. -/
structure StablySorts (cmp : α → α → Ordering) (items sorted : List α) : Prop where
  ordered : sorted.Pairwise fun a b => (cmp a b).isLE
  ties_eq : ∀ a, ties cmp a sorted = ties cmp a items

namespace StablySorts

variable {between sorted sorted' : List α}

/-- There is only one such arrangement. -/
theorem unique [Std.TransCmp cmp] (h : StablySorts cmp items sorted)
    (h' : StablySorts cmp items sorted') : sorted = sorted' :=
  eq_of_ties h.ordered h'.ordered fun a => (h.ties_eq a).trans (h'.ties_eq a).symm

protected theorem mergeSort [Std.TransCmp cmp] (items : List α) :
    StablySorts cmp items (items.mergeSort fun a b => (cmp a b).isLE) := by
  have htrans (a b c : α) (hab : (cmp a b).isLE) (hbc : (cmp b c).isLE) : (cmp a c).isLE :=
    Std.TransCmp.isLE_trans hab hbc
  -- of any two items one may stand in front of the other
  have htotal (a b : α) : ((cmp a b).isLE || (cmp b a).isLE) = true := by
    have hswap : cmp b a = (cmp a b).swap := Std.OrientedCmp.eq_swap
    rw [hswap]
    cases cmp a b <;> rfl
  refine ⟨List.pairwise_mergeSort htrans htotal items, fun a => ?_⟩
  -- the ties are in order already, so they stay a sublist, and none is lost
  have hordered : (ties cmp a items).Pairwise fun b c => (cmp b c).isLE := by
    refine List.pairwise_of_forall_mem_list fun b hb c hc => ?_
    have hba : cmp b a = .eq := Std.OrientedCmp.eq_comm.1 (mem_ties.1 hb).2
    rw [Std.TransCmp.congr_left hba, (mem_ties.1 hc).2]
    rfl
  have hsublist := (List.sublist_mergeSort htrans htotal hordered List.filter_sublist).filter
    (cmp a · == .eq)
  rw [ties, List.filter_filter] at hsublist
  simp only [Bool.and_self] at hsublist
  refine (hsublist.eq_of_length ?_).symm
  exact ((List.mergeSort_perm items _).filter _).length_eq.symm

/-- Items may be left out before or after they are arranged. -/
protected theorem filter (h : StablySorts cmp items sorted) (p : α → Bool) :
    StablySorts cmp (items.filter p) (sorted.filter p) where
  ordered := h.ordered.filter p
  ties_eq a := by rw [ties_filter, ties_filter, h.ties_eq]

/-- Arranging by one comparison what has been arranged by another one arranges by both of them, the
    last one first. -/
protected theorem compareLex [Std.ReflCmp cmp₁] (h : StablySorts cmp₂ items between)
    (h' : StablySorts cmp₁ between sorted) : StablySorts (compareLex cmp₁ cmp₂) items sorted where
  ordered := by
    refine pairwise_compareLex h'.ordered fun a => ?_
    rw [h'.ties_eq]
    exact h.ordered.filter _
  ties_eq a := by
    rw [ties_compareLex, ties_compareLex, ties_comm, h'.ties_eq, ties_comm, h.ties_eq]

end StablySorts

end

/-! ## Comparison by keys -/

/-- The values of a row at key positions, as a tuple. -/
def Row.keyAt (keys : List Nat) (row : Row) : Value :=
  .tuple (keys.map fun key => row.values.getD key .null)

theorem foldl_then {β : Type} (difference : β → Ordering) (xs : List β) (order : Ordering) :
    xs.foldl (fun order x => order.then (difference x)) order =
      order.then (xs.foldl (fun order x => order.then (difference x)) .eq) := by
  induction xs generalizing order with
  | nil => exact Ordering.then_eq.symm
  | cons x xs ih =>
    rw [List.foldl_cons, List.foldl_cons, ih, ih (Ordering.eq.then _), Ordering.then_assoc,
      Ordering.eq_then]

theorem compareKeys_cons (key : Nat) (keys : List Nat) (descending : Bool) (a b : Row) :
    compareKeys (key :: keys) descending a b =
      (compareKeys [key] descending a b).then (compareKeys keys descending a b) := by
  simp only [compareKeys, List.foldl_cons, List.foldl_nil]
  exact foldl_then _ keys _

/-- Comparing by keys is comparing the tuples at these keys. -/
theorem compareKeys_eq (keys : List Nat) (descending : Bool) (a b : Row) :
    compareKeys keys descending a b =
      if descending then ((a.keyAt keys).totalCompare (b.keyAt keys)).swap
      else (a.keyAt keys).totalCompare (b.keyAt keys) := by
  induction keys with
  | nil => cases descending <;> rfl
  | cons key keys ih =>
    rw [compareKeys_cons, ih]
    -- the direction turns the comparison at each key, and so that of the tuples
    cases descending with
    | true =>
      exact (Ordering.swap_then _ _).symm
    | false => rfl

/-- Comparing by some keys and then by others. -/
theorem compareKeys_append (keys keys' : List Nat) (descending : Bool) :
    compareKeys (keys ++ keys') descending =
      compareLex (compareKeys keys descending) (compareKeys keys' descending) := by
  funext a b
  rw [compareLex]
  simp only [compareKeys, List.foldl_append]
  exact foldl_then _ keys' _

instance (keys : List Nat) (descending : Bool) : Std.TransCmp (compareKeys keys descending) where
  eq_swap {a b} := by
    rw [compareKeys_eq, compareKeys_eq, Value.totalCompare_swap (a.keyAt keys)]
    cases descending <;> simp
  isLE_trans {a b c} hab hbc := by
    rw [compareKeys_eq] at hab hbc ⊢
    cases descending with
    | true =>
      simp only [if_true, ← Value.totalCompare_swap] at hab hbc ⊢
      exact Std.TransCmp.isLE_trans hbc hab
    | false =>
      simp only [Bool.false_eq_true, if_false] at hab hbc ⊢
      exact Std.TransCmp.isLE_trans hab hbc

theorem compareKeys_eq_eq_iff {keys : List Nat} {descending : Bool} {a b : Row} :
    compareKeys keys descending a b = .eq ↔ a.keyAt keys = b.keyAt keys := by
  rw [compareKeys_eq]
  cases descending <;> simp

/-! ## Sorted rows -/

section
variable (keys keys' : List Nat) (descending : Bool) (rows : List Row)

theorem stablySorts_sortRows :
    StablySorts (compareKeys keys descending) rows (sortRows keys descending rows) := by
  -- not to be greater is to be at most equal
  have hle : (fun a b => compareKeys keys descending a b != .gt) =
      fun a b => (compareKeys keys descending a b).isLE := by
    funext a b
    cases compareKeys keys descending a b <;> rfl
  rw [sortRows, hle]
  exact .mergeSort rows

variable {keys descending rows} in
/-- Rows that are in order stay as they are. -/
theorem sortRows_of_pairwise (h : rows.Pairwise fun a b => (compareKeys keys descending a b).isLE) :
    sortRows keys descending rows = rows :=
  (stablySorts_sortRows keys descending rows).unique ⟨h, fun _ => rfl⟩

theorem sortRows_sortRows :
    sortRows keys descending (sortRows keys descending rows) = sortRows keys descending rows :=
  sortRows_of_pairwise (stablySorts_sortRows keys descending rows).ordered

/-- Rows are sorted by some keys and then by others if they are sorted by these others first. -/
theorem sortRows_append :
    sortRows (keys ++ keys') descending rows =
      sortRows keys descending (sortRows keys' descending rows) := by
  have h := (stablySorts_sortRows keys' descending rows).compareLex
    (stablySorts_sortRows keys descending _)
  rw [← compareKeys_append] at h
  exact (stablySorts_sortRows _ descending rows).unique h

/-- Rows may be left out before or after they are sorted. -/
theorem filter_sortRows (p : Row → Bool) :
    (sortRows keys descending rows).filter p = sortRows keys descending (rows.filter p) :=
  ((stablySorts_sortRows keys descending rows).filter p).unique
    (stablySorts_sortRows keys descending _)

/-- Sorted rows are in the order of their keys. -/
theorem pairwise_sortRows : (sortRows keys descending rows).Pairwise fun a b =>
    (if descending then ((a.keyAt keys).totalCompare (b.keyAt keys)).swap
      else (a.keyAt keys).totalCompare (b.keyAt keys)).isLE :=
  (stablySorts_sortRows keys descending rows).ordered.imp fun h => by rwa [compareKeys_eq] at h

/-- Rows with the same keys stay in the order in which they were. -/
theorem filter_keyAt_sortRows (key : Value) :
    (sortRows keys descending rows).filter (·.keyAt keys = key) =
      rows.filter (·.keyAt keys = key) := by
  -- rows with one key are in order as they are
  rw [filter_sortRows]
  refine sortRows_of_pairwise (List.pairwise_of_forall_mem_list fun a ha b hb => ?_)
  have hkeys : a.keyAt keys = b.keyAt keys := by
    rw [of_decide_eq_true (List.mem_filter.1 ha).2, of_decide_eq_true (List.mem_filter.1 hb).2]
  rw [compareKeys_eq_eq_iff.2 hkeys]
  rfl

end

end RowFlow
