import RowFlow.Proofs.Success
import RowFlow.Reduction.Accumulator

/-!
# What Accumulators Take In

An accumulator goes through states of one kind, which is known from the start. The kind decides
which values are taken in and which are passed over, and the result is null if and only if nothing
has been taken in (`Accumulator.finish_eq_null_iff`, `Accumulator.fed_foldlM_pushed_iff`). For a
column of numbers this shows what a reduction considers: the sums and extrema of a column that
declares integers pass over floating numbers, its means do not (`Reduction.passesOver_iff`).
-/

namespace RowFlow

namespace Accumulator

variable {acc next : Accumulator} {v : Value}

/-! ## Kinds of states -/

/-- The state of the same kind before the first value. -/
def initial : Accumulator → Accumulator
  | .rows _ => .rows 0
  | .integers reduction _ => .integers reduction none
  | .numbers reduction _ => .numbers reduction none
  | .mean _ _ => .mean .zero 0
  | .extremum greatest _ => .extremum greatest none
  | .nothing => .nothing

/-- Whether a value is taken in. -/
def Takes : Accumulator → Value → Prop
  | .rows _, _ => True
  | .integers _ _, v => ∃ n, v = .int64 n
  | .numbers _ _, v | .mean _ _, v => v.number?.isSome
  | .extremum _ _, v => v.isNull = false
  | .nothing, _ => False

/-- Something has been taken in. -/
def Fed : Accumulator → Prop
  | .rows count | .mean _ count => count ≠ 0
  | .integers _ result => result.isSome
  | .numbers _ result => result.isSome
  | .extremum _ result => result.isSome
  | .nothing => False

/-- No null is held as an extremum. -/
def Proper (acc : Accumulator) : Prop := ∀ greatest, acc ≠ .extremum greatest (some .null)

theorem takes_initial (acc : Accumulator) : acc.initial.Takes = acc.Takes := by
  cases acc <;> rfl

theorem initial_start (reduction : Reduction) (type : ColumnType) :
    (start reduction type).initial = start reduction type := by
  cases reduction <;> cases type <;> rfl

theorem proper_initial (acc : Accumulator) : acc.initial.Proper := by
  cases acc <;> exact nofun

theorem not_fed_initial (acc : Accumulator) : ¬ acc.initial.Fed := by
  cases acc <;> simp [initial, Fed]

/-- The result is null as long as nothing has been taken in, unless it is a count. -/
theorem finish_eq_null_iff (hcount : acc.initial ≠ .rows 0) (hproper : acc.Proper) :
    acc.finish = .null ↔ ¬ acc.Fed := by
  cases acc with
  | rows count => exact absurd rfl hcount
  | integers reduction result => cases result <;> simp [finish, Fed]
  | numbers reduction result => cases result <;> simp [finish, Fed]
  | mean sum count => cases count <;> simp [finish, Fed]
  | extremum greatest result =>
    cases result with
    | none => simp [finish, Fed]
    | some v =>
      have hv : v ≠ .null := fun h => hproper greatest (h ▸ rfl)
      simpa [finish, Fed] using hv
  | nothing => simp [finish, Fed]

/-! ## One value -/

theorem pushed_eq_ok_iff : acc.pushed v = .ok next ↔ acc.push v = (.ok (), next) := by
  rw [pushed]
  rcases acc.push v with ⟨⟨⟩ | ⟨⟩, after⟩ <;> simp [Except.map]

theorem pushed_eq_error_iff {e : Error} :
    acc.pushed v = .error e ↔ (acc.push v).1 = .error e := by
  rw [pushed]
  rcases acc.push v with ⟨⟨⟩ | ⟨⟩, after⟩ <;> simp [Except.map]

/-- Of two integers the combined one is held, if there is one. -/
theorem pushed_integers_some {reduction : Reduction} {m n : Int64} :
    (integers reduction (some m)).pushed (.int64 n) =
      (fun combined => integers reduction (some combined)) <$>
        combineIntegers reduction m n := by
  simp only [pushed, push]
  cases combineIntegers reduction m n <;> rfl

/-- A failing push leaves the state as it is. -/
theorem push_snd_of_error {e : Error} (h : (acc.push v).1 = .error e) : (acc.push v).2 = acc := by
  -- only a state of integers can fail, and it does so before it is replaced
  cases acc with
  | integers reduction result =>
    cases v with
    | int64 n =>
      cases result with
      | none => cases h
      | some m =>
        simp only [push] at h ⊢
        cases hcombined : combineIntegers reduction m n with
        | ok combined =>
          rw [hcombined] at h
          cases h
        | error e => rfl
    | null | float64 | bool | utf8 | tuple => rfl
  | numbers reduction result | mean sum count | extremum greatest result =>
    simp only [push] at h
    split at h <;> cases h
  | rows | nothing => cases h

theorem pushed_of_not_takes (h : ¬ acc.Takes v) : acc.pushed v = .ok acc := by
  -- each kind of state passes over a value in a branch of its own
  cases acc with
  | rows count => exact absurd trivial h
  | integers reduction result =>
    cases v with
    | int64 n => exact absurd ⟨n, rfl⟩ h
    | null | float64 | bool | utf8 | tuple => rfl
  | numbers reduction result | mean sum count =>
    have hv : v.number? = none := by simpa [Takes] using h
    simp only [pushed, push, hv, Except.map]
  | extremum greatest result =>
    have hv : v.isNull = true := by simpa [Takes] using h
    simp only [pushed, push, hv, if_true, Except.map]
  | nothing => rfl

theorem fed_of_pushed (hv : acc.Takes v) (h : acc.pushed v = .ok next) : next.Fed := by
  -- a value that is taken in leaves a count above zero or a result
  cases acc with
  | rows count => exact Except.ok.inj h ▸ Nat.succ_ne_zero count
  | integers reduction result =>
    obtain ⟨n, rfl⟩ := hv
    cases result with
    | none => exact Except.ok.inj h ▸ rfl
    | some m =>
      obtain ⟨combined, -, rfl⟩ := map_eq_ok_iff.1 (pushed_integers_some ▸ h)
      rfl
  | numbers reduction result =>
    obtain ⟨x, hx⟩ := Option.isSome_iff_exists.1 hv
    cases result <;> simp only [pushed, push, hx] at h <;> exact Except.ok.inj h ▸ rfl
  | mean sum count =>
    obtain ⟨x, hx⟩ := Option.isSome_iff_exists.1 hv
    simp only [pushed, push, hx] at h
    exact Except.ok.inj h ▸ Nat.succ_ne_zero count
  | extremum greatest result =>
    have hnull : v.isNull = false := hv
    simp only [pushed, push, hnull, Bool.false_eq_true, if_false] at h
    exact Except.ok.inj h ▸ rfl
  | nothing => exact hv.elim

theorem initial_of_pushed (h : acc.pushed v = .ok next) : next.initial = acc.initial := by
  -- a push replaces what a state holds, never the kind of the state
  cases acc with
  | integers reduction result =>
    cases v with
    | int64 n =>
      cases result with
      | none => exact Except.ok.inj h ▸ rfl
      | some m =>
        obtain ⟨combined, -, rfl⟩ := map_eq_ok_iff.1 (pushed_integers_some ▸ h)
        rfl
    | null | float64 | bool | utf8 | tuple => exact Except.ok.inj h ▸ rfl
  | numbers reduction result | mean sum count | extremum greatest result =>
    simp only [pushed, push] at h
    split at h <;> exact Except.ok.inj h ▸ rfl
  | rows count | nothing => exact Except.ok.inj h ▸ rfl

/-- The better of two values that are no nulls is none. -/
theorem better_ne_null {result : Value} (greatest : Bool) (hresult : result ≠ .null)
    (hv : v ≠ .null) : better greatest result v ≠ .null := by
  rw [better]
  by_cases h : v.totalCompare result = if greatest then .gt else .lt
  · rwa [if_pos h]
  · rwa [if_neg h]

theorem Proper.of_pushed (hacc : acc.Proper) (h : acc.pushed v = .ok next) : next.Proper := by
  have hkind := initial_of_pushed h
  -- extrema alone could hold a null, and nulls are passed over
  cases acc with
  | extremum greatest result =>
    intro other hnext
    rw [pushed_eq_ok_iff, push] at h
    split at h
    · exact hacc other ((Prod.mk.inj h).2 ▸ hnext)
    · rename_i hv
      have hv : v ≠ .null := fun hnull => hv (hnull ▸ rfl)
      obtain ⟨-, hresult⟩ := Accumulator.extremum.inj ((Prod.mk.inj h).2.trans hnext)
      cases result with
      | none => exact hv (Option.some.inj hresult)
      | some held =>
        have hheld : held ≠ .null := fun hnull => hacc greatest (hnull ▸ rfl)
        exact better_ne_null greatest hheld hv (Option.some.inj hresult)
  | rows | integers | numbers | mean | nothing =>
    -- the state has stayed of its kind, which is no extremum
    rintro greatest rfl
    cases hkind

/-- A push fails only when the sum of integers leaves the range of 64 bits. -/
theorem pushed_eq_error {e : Error} (h : acc.pushed v = .error e) :
    acc.initial = .integers .sum none ∧ ∃ sum n, e = .evaluation (.sumOverflow sum n) := by
  cases acc with
  | integers reduction result =>
    cases v with
    | int64 n =>
      cases result with
      | none => cases h
      | some m =>
        cases reduction with
        | sum =>
          refine ⟨rfl, m, n, ?_⟩
          simp only [pushed, push, combineIntegers] at h
          -- the two integers are added exactly, and the sum has to fit
          cases hfit : Operator.fit? (m.toInt + n.toInt) with
          | none =>
            rw [hfit] at h
            exact (Except.error.inj h).symm
          | some sum =>
            rw [hfit] at h
            cases h
        | count | min | max | mean => cases h
    | null | float64 | bool | utf8 | tuple => cases h
  | numbers reduction result | mean sum count | extremum greatest result =>
    simp only [pushed, push] at h
    split at h <;> cases h
  | rows | nothing => cases h

/-! ## All values -/

theorem initial_of_foldlM_pushed {values : List Value} (h : values.foldlM pushed acc = .ok next) :
    next.initial = acc.initial := by
  induction values generalizing acc with
  | nil => exact Except.ok.inj h ▸ rfl
  | cons v values ih =>
    rw [List.foldlM_cons] at h
    obtain ⟨between, hpush, hrest⟩ := bind_eq_ok_iff.1 h
    exact (ih hrest).trans (initial_of_pushed hpush)

theorem Proper.of_foldlM_pushed {values : List Value} (hacc : acc.Proper)
    (h : values.foldlM pushed acc = .ok next) : next.Proper := by
  induction values generalizing acc with
  | nil => exact Except.ok.inj h ▸ hacc
  | cons v values ih =>
    rw [List.foldlM_cons] at h
    obtain ⟨between, hpush, hrest⟩ := bind_eq_ok_iff.1 h
    exact ih (hacc.of_pushed hpush) hrest

/-- Something has been taken in at the end if something had been before or one of the values is. -/
theorem fed_foldlM_pushed_iff {values : List Value} (h : values.foldlM pushed acc = .ok next) :
    next.Fed ↔ acc.Fed ∨ ∃ v ∈ values, acc.Takes v := by
  induction values generalizing acc with
  | nil =>
    obtain rfl : acc = next := Except.ok.inj h
    simp
  | cons v values ih =>
    rw [List.foldlM_cons] at h
    obtain ⟨between, hpush, hrest⟩ := bind_eq_ok_iff.1 h
    -- what is taken in depends on the kind of the state alone
    have htakes : between.Takes = acc.Takes := by
      rw [← takes_initial, initial_of_pushed hpush, takes_initial]
    rw [ih hrest, htakes]
    by_cases hv : acc.Takes v
    · have hfed : between.Fed := fed_of_pushed hv hpush
      simp [hfed, hv]
    · -- the value leaves no trace
      rw [pushed_of_not_takes hv] at hpush
      obtain rfl : acc = between := Except.ok.inj hpush
      simp [hv]

/-- Only sums of integers fail, and only because they leave the range of 64 bits. -/
theorem foldlM_pushed_eq_error {values : List Value} {e : Error}
    (h : values.foldlM pushed acc = .error e) :
    acc.initial = .integers .sum none ∧ ∃ sum n, e = .evaluation (.sumOverflow sum n) := by
  induction values generalizing acc with
  | nil => cases h
  | cons v values ih =>
    rw [List.foldlM_cons] at h
    rcases bind_eq_error_iff.1 h with hpush | ⟨between, hpush, hrest⟩
    · exact pushed_eq_error hpush
    · exact initial_of_pushed hpush ▸ ih hrest

/-- Values that are passed over leave no trace. -/
theorem foldlM_pushed_of_not_takes {values : List Value} (h : ∀ v ∈ values, ¬ acc.Takes v) :
    values.foldlM pushed acc = .ok acc := by
  induction values with
  | nil => rfl
  | cons v values ih =>
    obtain ⟨hv, hvalues⟩ := List.forall_mem_cons.1 h
    rw [List.foldlM_cons, pushed_of_not_takes hv]
    exact ih hvalues

/-- From the start, a reduction other than a count has a null result if and only if it has not
    failed and none of the values is taken in. -/
theorem finish_foldlM_start_eq_null_iff {reduction : Reduction} {type : ColumnType}
    (hcount : reduction ≠ .count) {values : List Value} :
    finish <$> values.foldlM pushed (start reduction type) = .ok .null ↔
      ∀ v ∈ values, ¬ (start reduction type).Takes v := by
  have hinitial := initial_start reduction type
  have hnotFed : ¬ (start reduction type).Fed := hinitial ▸ not_fed_initial _
  -- a count is a state of its own kind, which is never null
  have hkind : start reduction type ≠ .rows 0 := by
    cases reduction with
    | count => exact absurd rfl hcount
    | sum | min | max | mean => cases type <;> exact nofun
  constructor
  · intro h
    obtain ⟨acc, hacc, hfinish⟩ := map_eq_ok_iff.1 h
    have hproper : acc.Proper := (hinitial ▸ proper_initial _ : Proper _).of_foldlM_pushed hacc
    have hempty : ¬ acc.Fed :=
      (finish_eq_null_iff (by rwa [initial_of_foldlM_pushed hacc, hinitial]) hproper).1 hfinish
    exact fun v hv htakes => hempty ((fed_foldlM_pushed_iff hacc).2 (.inr ⟨v, hv, htakes⟩))
  · intro h
    rw [foldlM_pushed_of_not_takes h]
    exact congrArg Except.ok
      ((finish_eq_null_iff (hinitial.symm ▸ hkind) (hinitial ▸ proper_initial _)).2 hnotFed)

end Accumulator

/-! ## Columns of numbers -/

namespace Reduction

variable {reduction : Reduction} {type : ColumnType}

/-- Wherever a value stands in a column of a type, it does not change the result. -/
def PassesOver (reduction : Reduction) (type : ColumnType) (v : Value) : Prop :=
  ∀ (before : List Value) (acc : Accumulator),
    before.foldlM Accumulator.pushed (.start reduction type) = .ok acc → acc.pushed v = .ok acc

/-- What is passed over is not taken in, and the other way round. -/
theorem passesOver_iff_not_takes {v : Value} :
    reduction.PassesOver type v ↔ ¬ (Accumulator.start reduction type).Takes v := by
  have hinitial := Accumulator.initial_start reduction type
  constructor
  · intro h hv
    -- an accumulator that nothing has been pushed to would have been fed
    have hpush := h [] _ rfl
    have hfed := Accumulator.fed_of_pushed hv hpush
    rw [← hinitial] at hfed
    exact Accumulator.not_fed_initial _ hfed
  · intro h before acc hacc
    refine Accumulator.pushed_of_not_takes ?_
    rwa [← Accumulator.takes_initial, Accumulator.initial_of_foldlM_pushed hacc, hinitial]

/-- The numbers that a reduction of a column of numbers takes in: of a column that declares
    integers, sums and extrema take in the integers only. -/
theorem passesOver_iff (hcount : reduction ≠ .count) (htype : type = .int64 ∨ type = .float64)
    {v : Value} :
    reduction.PassesOver type v ↔
      v.number? = none ∨ (type = .int64 ∧ reduction ≠ .mean ∧ ∃ x, v = .float64 x) := by
  rw [passesOver_iff_not_takes]
  rcases htype with rfl | rfl
  · cases reduction <;> cases v <;> simp_all [Accumulator.start, Accumulator.Takes, Value.number?]
  · cases reduction <;> simp_all [Accumulator.start, Accumulator.Takes]

end Reduction

end RowFlow
