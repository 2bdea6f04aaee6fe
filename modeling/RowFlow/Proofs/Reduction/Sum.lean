import RowFlow.Proofs.Expr.Validation
import RowFlow.Proofs.Pipeline.Reduction

/-!
# Sums of Integers

The sum of a column that declares integers is exact, or there is none. An integer is refused if and
only if the exact sum with all that have been accepted before it leaves the range of 64 bits, and
then it leaves no trace, so the accumulator can go on and holds the exact sum of what it has
accepted at any time (`SumOf.afterAll`). A table has a sum if and only if no prefix of the integers
of its column leaves that range (`SumOf.exists_foldlM_pushed_iff`).
-/

namespace RowFlow

variable {ns : List Int64} {acc next : Accumulator} {v : Value}

/-! ## Exact sums -/

/-- Whether an integer of any size is one of 64 bits. -/
def Representable (i : Int) : Prop := -2 ^ 63 ≤ i ∧ i < 2 ^ 63

instance (i : Int) : Decidable (Representable i) := inferInstanceAs (Decidable (_ ∧ _))

/-- Integers of 64 bits are. -/
theorem representable_toInt (n : Int64) : Representable n.toInt := ⟨n.le_toInt, n.toInt_lt⟩

/-- An integer in range fits, as the integer of 64 bits that it is. -/
theorem fit?_of_representable {i : Int} (h : Representable i) :
    ∃ n, Operator.fit? i = some n ∧ n.toInt = i := by
  refine ⟨Int64.ofInt i, ?_, Int64.toInt_ofInt_of_le h.1 h.2⟩
  simpa [Operator.fit?, Representable] using h

/-- An integer out of range does not fit. -/
theorem fit?_of_not_representable {i : Int} (h : ¬ Representable i) : Operator.fit? i = none := by
  simpa [Operator.fit?, Representable] using h

/-- The sum of integers as an integer of any size. -/
def exactSum : List Int64 → Int
  | [] => 0
  | n :: ns => n.toInt + exactSum ns

@[simp] theorem exactSum_nil : exactSum [] = 0 := rfl

@[simp] theorem exactSum_singleton (n : Int64) : exactSum [n] = n.toInt := Int.add_zero _

@[simp] theorem exactSum_append (ms ns : List Int64) :
    exactSum (ms ++ ns) = exactSum ms + exactSum ns := by
  induction ms with
  | nil => simp
  | cons m ms ih => simp only [List.cons_append, exactSum, ih, Int.add_assoc]

/-- The total of integers is their exact sum, or null if there are none. -/
inductive IsTotal : List Int64 → Value → Prop where
  | nothing : IsTotal [] .null
  | sum {ns : List Int64} {s : Int64} (ne_nil : ns ≠ []) (exact : s.toInt = exactSum ns) :
      IsTotal ns (.int64 s)

/-- The integer that a value is, if it is one. -/
def Value.integer? : Value → Option Int64
  | .int64 n => some n
  | _ => none

/-- The integers among values. -/
def integersOf (values : List Value) : List Int64 := values.filterMap Value.integer?

/-- The integers come in the order of the values. -/
theorem integersOf_cons (v : Value) (values : List Value) :
    integersOf (v :: values) = integersOf [v] ++ integersOf values :=
  List.filterMap_append (l := [v])

/-- A prefix of the integers is empty or starts with the first value, if this is one. -/
theorem forall_prefix_integersOf_cons {P : List Int64 → Prop} {values : List Value} :
    (∀ before, before <+: integersOf (v :: values) → P before) ↔
      P [] ∧ ∀ before, before <+: integersOf values → P (integersOf [v] ++ before) := by
  -- a value that is no integer does not lengthen any prefix
  cases hv : v.integer? with
  | none =>
    have hnone : integersOf [v] = [] := by simp [integersOf, hv]
    rw [integersOf_cons, hnone, List.nil_append]
    exact ⟨fun h => ⟨h _ List.nil_prefix, h⟩, fun h => h.2⟩
  | some n =>
    have hsome : integersOf [v] = [n] := by simp [integersOf, hv]
    rw [integersOf_cons, hsome]
    constructor
    · intro h
      exact ⟨h _ List.nil_prefix,
        fun before hbefore => h _ ((List.prefix_append_right_inj _).2 hbefore)⟩
    · rintro ⟨hnil, hcons⟩ before hbefore
      rcases List.prefix_cons_iff.1 hbefore with rfl | ⟨rest, rfl, hrest⟩
      · exact hnil
      · exact hcons rest hrest

/-! ## One value -/

/-- The accumulator holds the sum of integers. -/
inductive SumOf : List Int64 → Accumulator → Prop where
  | nothing : SumOf [] (.integers .sum none)
  | sum {ns : List Int64} {s : Int64} (ne_nil : ns ≠ []) (exact : s.toInt = exactSum ns) :
      SumOf ns (.integers .sum (some s))

namespace SumOf

/-- The accumulator ends with the total. -/
theorem isTotal (h : SumOf ns acc) : IsTotal ns acc.finish := by
  cases h with
  | nothing => exact .nothing
  | sum hns hs => exact .sum hns hs

/-- What the accumulator holds is in range. -/
theorem representable (h : SumOf ns acc) : Representable (exactSum ns) := by
  cases h with
  | nothing => decide
  | sum _ hs => exact hs ▸ representable_toInt _

/-- What is no integer is passed over. -/
theorem pushed_of_integers_eq_nil (h : SumOf ns acc) (hv : integersOf [v] = []) :
    acc.pushed v = .ok acc := by
  refine Accumulator.pushed_of_not_takes ?_
  -- neither state takes such a value
  cases h <;> rintro ⟨n, rfl⟩ <;> cases hv

/-- A value is pushed as long as the exact sum is one of 64 bits. -/
theorem exists_pushed (h : SumOf ns acc) (hfits : Representable (exactSum (ns ++ integersOf [v]))) :
    ∃ next, acc.pushed v = .ok next ∧ SumOf (ns ++ integersOf [v]) next := by
  cases v with
  | int64 n =>
    cases h with
    | nothing =>
      exact ⟨_, rfl, .sum (by simp [integersOf, Value.integer?]) (exactSum_singleton n).symm⟩
    | @sum _ s hns hs =>
      rw [exactSum_append, ← hs] at hfits
      obtain ⟨t, ht, hsum⟩ := fit?_of_representable hfits
      -- the accumulator adds in any size and then asks whether the sum fits
      have hpush : Operator.fit? (s.toInt + n.toInt) = some t := by
        rw [← exactSum_singleton n]
        exact ht
      refine ⟨.integers .sum (some t), ?_, .sum (by simp [hns]) ?_⟩
      · simp only [Accumulator.pushed_integers_some, Accumulator.combineIntegers, hpush]
        rfl
      · rw [hsum, exactSum_append, ← hs]
  | null | float64 | bool | utf8 | tuple =>
    rw [h.pushed_of_integers_eq_nil rfl]
    refine ⟨acc, rfl, ?_⟩
    exact (List.append_nil ns).symm ▸ h

/-- A value is refused if the exact sum is none of 64 bits. This is so of an integer only, and if
    something has been accepted before. -/
theorem pushed_of_not_representable (h : SumOf ns acc)
    (hfits : ¬ Representable (exactSum (ns ++ integersOf [v]))) :
    ∃ n s, v = .int64 n ∧ acc.finish = .int64 s ∧
      acc.pushed v = .error (.evaluation (.sumOverflow s n)) := by
  cases v with
  | int64 n =>
    cases h with
    | nothing => exact absurd (exactSum_singleton n ▸ representable_toInt n) hfits
    | @sum _ s hns hs =>
      refine ⟨n, s, rfl, rfl, ?_⟩
      rw [exactSum_append, ← hs] at hfits
      have hpush : Operator.fit? (s.toInt + n.toInt) = none := by
        rw [← exactSum_singleton n]
        exact fit?_of_not_representable hfits
      simp only [Accumulator.pushed_integers_some, Accumulator.combineIntegers, hpush]
      rfl
  | null | float64 | bool | utf8 | tuple =>
    exact absurd ((List.append_nil ns).symm ▸ h.representable) hfits

/-- What is pushed is added. -/
theorem of_pushed (h : SumOf ns acc) (hpush : acc.pushed v = .ok next) :
    SumOf (ns ++ integersOf [v]) next := by
  by_cases hfits : Representable (exactSum (ns ++ integersOf [v]))
  · obtain ⟨other, hother, hsum⟩ := h.exists_pushed hfits
    exact Except.ok.inj (hother.symm.trans hpush) ▸ hsum
  · obtain ⟨n, s, -, -, herror⟩ := h.pushed_of_not_representable hfits
    cases herror.symm.trans hpush

/-- A value is refused if and only if it is an integer that takes the exact sum out of range. -/
theorem pushed_eq_error_iff (h : SumOf ns acc) {e : Error} :
    acc.pushed v = .error e ↔ ∃ n s, v = .int64 n ∧ acc.finish = .int64 s ∧
      ¬ Representable (exactSum ns + n.toInt) ∧ e = .evaluation (.sumOverflow s n) := by
  have hsum (n : Int64) : exactSum (ns ++ integersOf [.int64 n]) = exactSum ns + n.toInt := by
    simp [integersOf, Value.integer?]
  constructor
  · intro herror
    -- a value that fits would have been pushed
    have hfits : ¬ Representable (exactSum (ns ++ integersOf [v])) := by
      intro hfits
      obtain ⟨next, hnext, -⟩ := h.exists_pushed hfits
      cases hnext.symm.trans herror
    obtain ⟨n, s, rfl, hs, hpush⟩ := h.pushed_of_not_representable hfits
    exact ⟨n, s, rfl, hs, hsum n ▸ hfits, Except.error.inj (herror.symm.trans hpush)⟩
  · rintro ⟨n, s, rfl, hs, hfits, rfl⟩
    obtain ⟨m, t, hm, ht, hpush⟩ := h.pushed_of_not_representable (v := .int64 n) (hsum n ▸ hfits)
    obtain rfl := Value.int64.inj hm
    obtain rfl := Value.int64.inj (hs.symm.trans ht)
    exact hpush

/-- A value is refused if and only if it takes the exact sum out of range. -/
theorem exists_pushed_error_iff (h : SumOf ns acc) :
    (∃ e, acc.pushed v = .error e) ↔
      ∃ n, v = .int64 n ∧ ¬ Representable (exactSum ns + n.toInt) := by
  simp only [h.pushed_eq_error_iff]
  constructor
  · rintro ⟨e, n, s, hv, -, hfits, -⟩
    exact ⟨n, hv, hfits⟩
  · rintro ⟨n, hv, hfits⟩
    -- a single integer is one of 64 bits, so there is a sum already
    cases h with
    | nothing => exact absurd ((Int.zero_add n.toInt).symm ▸ representable_toInt n) hfits
    | @sum _ s _ _ => exact ⟨_, n, s, hv, rfl, hfits, rfl⟩

end SumOf

/-! ## All values, up to the first failure -/

namespace SumOf

/-- The sum of all values that are pushed is the exact sum of their integers. -/
theorem of_foldlM_pushed {values : List Value} (h : SumOf ns acc)
    (hpush : values.foldlM Accumulator.pushed acc = .ok next) :
    SumOf (ns ++ integersOf values) next := by
  induction values generalizing ns acc with
  | nil =>
    obtain rfl : acc = next := Except.ok.inj hpush
    exact (List.append_nil ns).symm ▸ h
  | cons v values ih =>
    rw [List.foldlM_cons] at hpush
    obtain ⟨between, hv, hvalues⟩ := bind_eq_ok_iff.1 hpush
    rw [integersOf_cons, ← List.append_assoc]
    exact ih (h.of_pushed hv) hvalues

/-- All values are pushed if and only if the exact sum is one of 64 bits after each integer. -/
theorem exists_foldlM_pushed_iff {values : List Value} (h : SumOf ns acc) :
    (∃ next, values.foldlM Accumulator.pushed acc = .ok next) ↔
      ∀ before, before <+: integersOf values → Representable (exactSum (ns ++ before)) := by
  induction values generalizing ns acc with
  | nil =>
    refine ⟨fun _ before hbefore => ?_, fun _ => ⟨acc, rfl⟩⟩
    obtain rfl : before = [] := List.prefix_nil.1 hbefore
    exact (List.append_nil ns).symm ▸ h.representable
  | cons v values ih =>
    -- the first value is pushed and the others go on from there, just as prefixes do
    rw [List.foldlM_cons, exists_bind_eq_ok_iff, forall_prefix_integersOf_cons,
      and_iff_right (by simpa using h.representable)]
    constructor
    · rintro ⟨between, hpush, hvalues⟩ rest hrest
      rw [← List.append_assoc]
      exact (ih (h.of_pushed hpush)).1 hvalues rest hrest
    · intro hfits
      have hv : Representable (exactSum (ns ++ integersOf [v])) := by
        simpa using hfits [] List.nil_prefix
      obtain ⟨between, hpush, hsum⟩ := h.exists_pushed hv
      refine ⟨between, hpush, (ih hsum).2 fun rest hrest => ?_⟩
      rw [List.append_assoc]
      exact hfits rest hrest

end SumOf

/-! ## All values, failures left behind -/

namespace Accumulator

/-- The state that a push leaves behind, whether it has failed or not. -/
def after (acc : Accumulator) (v : Value) : Accumulator := (acc.push v).2

/-- The integers that have been pushed when values are offered one after another. -/
def accepted (acc : Accumulator) : List Value → List Int64
  | [] => []
  | v :: values =>
    match acc.push v with
    | (.ok (), next) => integersOf [v] ++ next.accepted values
    | (.error _, next) => next.accepted values

/-- A push that succeeds leaves the next state. -/
theorem after_of_pushed (h : acc.pushed v = .ok next) : acc.after v = next := by
  rw [after, pushed_eq_ok_iff.1 h]

/-- What is refused leaves no trace. -/
theorem after_of_refused {e : Error} (h : acc.pushed v = .error e) : acc.after v = acc :=
  push_snd_of_error (pushed_eq_error_iff.1 h)

/-- What is pushed counts among the accepted integers. -/
theorem accepted_cons_of_pushed (h : acc.pushed v = .ok next) (values : List Value) :
    acc.accepted (v :: values) = integersOf [v] ++ next.accepted values := by
  rw [accepted, pushed_eq_ok_iff.1 h]

/-- What is refused does not. -/
theorem accepted_cons_of_refused {e : Error} (h : acc.pushed v = .error e) (values : List Value) :
    acc.accepted (v :: values) = acc.accepted values := by
  have hpush : acc.push v = (.error e, acc) :=
    Prod.ext (pushed_eq_error_iff.1 h) (push_snd_of_error (pushed_eq_error_iff.1 h))
  rw [accepted, hpush]

/-- Values that are offered later are accepted by the state that the earlier ones leave. -/
theorem accepted_append (acc : Accumulator) (values others : List Value) :
    acc.accepted (values ++ others) =
      acc.accepted values ++ (values.foldl after acc).accepted others := by
  induction values generalizing acc with
  | nil => rfl
  | cons v values ih =>
    rw [List.cons_append, List.foldl_cons]
    cases hpush : acc.pushed v with
    | ok next =>
      rw [accepted_cons_of_pushed hpush, accepted_cons_of_pushed hpush, after_of_pushed hpush,
        ih next, List.append_assoc]
    | error e =>
      rw [accepted_cons_of_refused hpush, accepted_cons_of_refused hpush, after_of_refused hpush,
        ih acc]

end Accumulator

namespace SumOf

/-- The accumulator holds the sum of the integers that it has accepted, whatever it has refused. -/
theorem afterAll (h : SumOf ns acc) (values : List Value) :
    SumOf (ns ++ acc.accepted values) (values.foldl Accumulator.after acc) := by
  induction values generalizing ns acc with
  | nil => exact (List.append_nil ns).symm ▸ h
  | cons v values ih =>
    rw [List.foldl_cons]
    cases hpush : acc.pushed v with
    | ok next =>
      rw [Accumulator.after_of_pushed hpush, Accumulator.accepted_cons_of_pushed hpush,
        ← List.append_assoc]
      exact ih (h.of_pushed hpush)
    | error e =>
      rw [Accumulator.after_of_refused hpush, Accumulator.accepted_cons_of_refused hpush]
      exact ih h

/-- An integer is accepted if and only if the exact sum with those before is one of 64 bits. -/
theorem accepted_concat (h : SumOf ns acc) (values : List Value) (v : Value) :
    acc.accepted (values ++ [v]) =
      if Representable (exactSum (ns ++ acc.accepted values ++ integersOf [v])) then
        acc.accepted values ++ integersOf [v]
      else acc.accepted values := by
  have hsum := h.afterAll values
  rw [Accumulator.accepted_append]
  -- the sum so far is exact, so the range decides about the last value
  split_ifs with hfits
  · obtain ⟨next, hnext, -⟩ := hsum.exists_pushed hfits
    rw [Accumulator.accepted_cons_of_pushed hnext, Accumulator.accepted, List.append_nil]
  · obtain ⟨n, s, -, -, herror⟩ := hsum.pushed_of_not_representable hfits
    rw [Accumulator.accepted_cons_of_refused herror, Accumulator.accepted, List.append_nil]

end SumOf

/-! ## Collectors and tables -/

namespace Collector

variable {width position : Nat} {row : Row}

/-- A reducing collector offers a value of the row to its accumulator. -/
theorem consume_reduce (hrow : row.values.length = width) (position : Nat) (acc : Accumulator)
    (files : Files) :
    (Collector.reduce width position acc).consume row files =
      ((acc.push (row.values.getD position .null)).1.map fun _ => .more,
        .reduce width position (acc.after (row.values.getD position .null)), files) := by
  have hwidth : expectWidth row.values width = .ok () := expectWidth_eq_ok_iff.2 hrow
  simp only [consume, width?, Option.map_some, Option.getD_some, hwidth, take, Accumulator.after]

/-- A reducing collector offers the values of all rows, whatever it has refused. -/
theorem afterRows_reduce {rows : List Row} (hrows : ∀ row ∈ rows, row.values.length = width)
    (acc : Accumulator) (files : Files) :
    (Collector.reduce width position acc).afterRows rows files =
      (.reduce width position
        ((rows.map (·.values.getD position .null)).foldl Accumulator.after acc), files) := by
  induction rows generalizing acc with
  | nil => rfl
  | cons row rows ih =>
    obtain ⟨hrow, hrows⟩ := List.forall_mem_cons.1 hrows
    rw [List.map_cons, List.foldl_cons, ← ih hrows, afterRows, List.foldl_cons,
      consume_reduce hrow]
    rfl

end Collector

namespace Table

variable {table : Table} {column : Column} {position : Nat}

/-- A reduction that has a result has looked at every row. -/
theorem width_of_reduce {reduction : Reduction}
    (h : table.reduce column reduction = .ok v) :
    ∀ values ∈ table.rows, values.length = table.schema.width := by
  obtain ⟨position, -, h⟩ := bind_eq_ok_iff.1 h
  obtain ⟨acc, hacc, -⟩ := bind_eq_ok_iff.1 h
  exact Expr.fits_of_accumulate hacc

/-- A table has a sum if and only if its rows have the width of its schema and no prefix of the
    column leaves the range. -/
theorem exists_reduce_sum_iff (hcolumn : table.schema.resolve column = .ok position)
    (htype : table.schema.typeAt position = .int64) :
    (∃ v, table.reduce column .sum = .ok v) ↔
      (∀ values ∈ table.rows, values.length = table.schema.width) ∧
        ∀ before, before <+: integersOf (table.valuesAt position) →
          Representable (exactSum before) := by
  constructor
  · rintro ⟨v, hv⟩
    have hrows := width_of_reduce hv
    rw [reduce_eq_foldlM hrows hcolumn, htype] at hv
    exact ⟨hrows, SumOf.nothing.exists_foldlM_pushed_iff.1 (exists_map_eq_ok_iff.1 ⟨v, hv⟩)⟩
  · rintro ⟨hrows, hfits⟩
    rw [reduce_eq_foldlM hrows hcolumn, htype]
    exact exists_map_eq_ok_iff.2 (SumOf.nothing.exists_foldlM_pushed_iff.2 hfits)

theorem isTotal_of_reduce_sum (hcolumn : table.schema.resolve column = .ok position)
    (htype : table.schema.typeAt position = .int64) (h : table.reduce column .sum = .ok v) :
    IsTotal (integersOf (table.valuesAt position)) v := by
  rw [reduce_eq_foldlM (width_of_reduce h) hcolumn, htype] at h
  obtain ⟨acc, hacc, rfl⟩ := map_eq_ok_iff.1 h
  exact (SumOf.nothing.of_foldlM_pushed hacc).isTotal

end Table

namespace Accumulator

/-- **Sums of integers are exact.** Whatever values have been offered to the sum of a column that
    declares integers, the result is the exact sum of the integers that have been accepted, and null
    if there are none. The next integer is accepted if and only if its exact sum with them is one of
    64 bits. Otherwise it is refused, which is the only failure and names the sum and the integer,
    and the state that comes back with the failure is the one from before. A collector that has
    refused a row is what it was as well, and rows that are handed to it one after another leave
    just this accumulator. A table has a sum if and only if its rows have the width of the schema
    and no prefix of the integers of the column leaves the range, and then it is their exact
    sum. -/
theorem sums_exactly (values : List Value) :
    let acc := values.foldl after (start .sum .int64)
    let ns := accepted (start .sum .int64) values
    IsTotal ns acc.finish ∧
    (∀ v, accepted (start .sum .int64) (values ++ [v]) =
      if Representable (exactSum (ns ++ integersOf [v])) then ns ++ integersOf [v] else ns) ∧
    (∀ v, (∃ e, (acc.push v).1 = .error e) ↔
      ∃ n, v = .int64 n ∧ ¬ Representable (exactSum ns + n.toInt)) ∧
    (∀ v e, (acc.push v).1 = .error e → (acc.push v).2 = acc ∧
      ∃ n s, v = .int64 n ∧ acc.finish = .int64 s ∧ e = .evaluation (.sumOverflow s n)) ∧
    (∀ (width position : Nat) (rows : List Row) (files : Files),
      (∀ row ∈ rows, row.values.length = width) →
      rows.map (·.values.getD position .null) = values →
        (Collector.reduce width position (start .sum .int64)).afterRows rows files =
          (.reduce width position acc, files) ∧
        ∀ (row : Row) (e : Error), row.values.length = width →
          (acc.push (row.values.getD position .null)).1 = .error e →
            (Collector.reduce width position acc).consume row files =
              (.error e, .reduce width position acc, files)) ∧
    ∀ (table : Table) (column : Column) (position : Nat),
      table.schema.resolve column = .ok position → table.schema.typeAt position = .int64 →
        ((∃ v, table.reduce column .sum = .ok v) ↔
          (∀ values ∈ table.rows, values.length = table.schema.width) ∧
            ∀ before, before <+: integersOf (table.valuesAt position) →
              Representable (exactSum before)) ∧
        ∀ v, table.reduce column .sum = .ok v →
          IsTotal (integersOf (table.valuesAt position)) v := by
  intro acc ns
  have hsum : SumOf ns acc := SumOf.nothing.afterAll values
  refine ⟨hsum.isTotal, SumOf.nothing.accepted_concat values,
    fun v => by simp only [← pushed_eq_error_iff, hsum.exists_pushed_error_iff], fun v e he => ?_,
    fun width position rows files hrows hvalues => ⟨?_, fun row e hrow he => ?_⟩,
    fun table column position hcolumn htype => ⟨Table.exists_reduce_sum_iff hcolumn htype,
      fun v => Table.isTotal_of_reduce_sum hcolumn htype⟩⟩
  · obtain ⟨n, s, hv, hs, -, herror⟩ := hsum.pushed_eq_error_iff.1 (pushed_eq_error_iff.2 he)
    exact ⟨push_snd_of_error he, n, s, hv, hs, herror⟩
  · rw [Collector.afterRows_reduce hrows, hvalues]
  · rw [Collector.consume_reduce hrow, after, push_snd_of_error he, he]
    rfl

/-- Bookings on an account, the second of which would take the first one out of range. -/
def bookings : List Value :=
  [.int64 Int64.maxValue, .int64 1, .null, .utf8 "7", .int64 (-3), .float64 ⟨0x3FF0000000000000⟩,
    .int64 2]

/-- A table of bookings that stay in range. -/
def account : Table :=
  ⟨⟨[⟨"booking", .int64⟩]⟩, [[.int64 Int64.maxValue], [.null], [.int64 (-7)], [.int64 7]]⟩

/-- The booking that does not fit is left out, those after it are not. -/
theorem bookings_summed :
    accepted (start .sum .int64) bookings = [Int64.maxValue, -3, 2] ∧
      (bookings.foldl after (start .sum .int64)).finish = .int64 (Int64.maxValue - 1) ∧
      IsTotal [Int64.maxValue, -3, 2] (.int64 (Int64.maxValue - 1)) ∧
      (∃ e, ((bookings.foldl after (start .sum .int64)).push (.int64 2)).1 = .error e) ∧
      (∃ v, account.reduce (.name "booking") .sum = .ok v) ∧
      account.reduce (.name "booking") .sum = .ok (.int64 Int64.maxValue) ∧
      IsTotal [Int64.maxValue, -7, 7] (.int64 Int64.maxValue) := by
  have haccepted : accepted (start .sum .int64) bookings = [Int64.maxValue, -3, 2] := by
    decide +kernel
  have hfinish : (bookings.foldl after (start .sum .int64)).finish =
      .int64 (Int64.maxValue - 1) := by
    decide +kernel
  have hreduce : account.reduce (.name "booking") .sum = .ok (.int64 Int64.maxValue) := by
    decide +kernel
  have hprefixes : ∀ before ∈ [Int64.maxValue, -7, 7].inits, Representable (exactSum before) := by
    decide +kernel
  obtain ⟨htotal, -, hpush, -, -, htable⟩ := sums_exactly bookings
  rw [haccepted] at htotal hpush
  rw [hfinish] at htotal
  obtain ⟨hiff, hexact⟩ := htable account (.name "booking") 0 rfl rfl
  exact ⟨haccepted, hfinish, htotal, (hpush _).2 ⟨2, rfl, by decide +kernel⟩,
    hiff.2 ⟨by decide, fun before h => hprefixes before ((List.mem_inits before _).2 h)⟩,
    hreduce, hexact _ hreduce⟩

end Accumulator

end RowFlow
