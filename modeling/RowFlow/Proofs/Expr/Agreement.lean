import RowFlow.Expr.Eager
import RowFlow.Proofs.Success

/-!
# Agreement of Eager and Prepared Evaluation

An expression that can be prepared has two meanings: eager evaluation computes whole columns of
values, a prepared evaluator computes one row at a time. Both succeed on the same tables and with
the same values.

The connectives carry the difficulty. Eager evaluation keeps marks for the rows that no operand has
decided yet and evaluates later operands on those only; a prepared connective returns at the first
decisive operand. The invariant is that the marks that are left say, row by row, what the remaining
operands still have to decide (`settle_agree`).
-/

namespace RowFlow

/-! ## Prepared expressions are streamable -/

namespace Expr

mutual

theorem streamable_of_prepare {schema : Schema} :
    (e : Expr) → {evaluator : Evaluator} → e.prepare schema = .ok evaluator → e.streamable = true
  | .column _, _, _ | .columns _, _, _ | .literal _, _, _ => rfl
  | .all operands, _, h => by
    obtain ⟨_, hops, _⟩ := bind_eq_ok_iff.1 h
    exact streamableAll_of_prepareAll operands hops
  | .any operands, _, h => by
    obtain ⟨_, hops, _⟩ := bind_eq_ok_iff.1 h
    exact streamableAll_of_prepareAll operands hops
  | .not operand, _, h => by
    obtain ⟨_, hop, _⟩ := bind_eq_ok_iff.1 h
    exact streamable_of_prepare operand hop
  | .binary _ left right, _, h => by
    obtain ⟨_, hl, h⟩ := bind_eq_ok_iff.1 h
    obtain ⟨_, hr, _⟩ := bind_eq_ok_iff.1 h
    simp only [streamable, streamable_of_prepare left hl, streamable_of_prepare right hr,
      Bool.and_self]
  | .apply _ operand, _, h => by
    obtain ⟨_, hop, _⟩ := bind_eq_ok_iff.1 h
    exact streamable_of_prepare operand hop
  | .aggregate _ _, _, h => nomatch h

theorem streamableAll_of_prepareAll {schema : Schema} :
    (es : List Expr) → {evaluators : List Evaluator} → prepareAll schema es = .ok evaluators →
      streamableAll es = true
  | [], _, _ => rfl
  | e :: es, _, h => by
    obtain ⟨_, he, h⟩ := bind_eq_ok_iff.1 h
    obtain ⟨_, hes, _⟩ := bind_eq_ok_iff.1 h
    simp only [streamableAll, streamable_of_prepare e he, streamableAll_of_prepareAll es hes,
      Bool.and_self]

end

end Expr

/-! ## Marked rows -/

@[simp] theorem marked_cons_true {α : Type} (marks : List Bool) (item : α) (items : List α) :
    marked (true :: marks) (item :: items) = item :: marked marks items := rfl

@[simp] theorem marked_cons_false {α : Type} (marks : List Bool) (item : α) (items : List α) :
    marked (false :: marks) (item :: items) = marked marks items := rfl

theorem marked_map {β : Type} (test : β → Bool) (items : List β) :
    marked (items.map test) items = items.filter test := by
  induction items with
  | nil => rfl
  | cons item items ih =>
    cases htest : test item with
    | true => simp [htest, ih]
    | false => simp [htest, ih]

theorem length_clearDecided (decisive : Bool) (marks truths : List Bool) :
    (clearDecided decisive marks truths).length = marks.length := by
  fun_induction clearDecided decisive marks truths with
  | case1 => rfl
  | case2 _ _ ih => simp only [List.length_cons, ih]
  | case3 => rfl
  | case4 _ _ _ ih => simp only [List.length_cons, ih]

/-- Reading off the mark of every item gives the marks back. -/
theorem mapM_marks {α ε : Type} {items : List α} {marks : List Bool}
    (hlen : marks.length = items.length) :
    ((items.zip marks).mapM fun p => (.ok p.2 : Except ε Bool)) = .ok marks := by
  have hpure : (fun p : α × Bool => (.ok p.2 : Except ε Bool)) = fun p => pure p.2 := rfl
  rw [hpure, List.mapM_pure, List.map_snd_zip (Nat.le_of_eq hlen)]
  rfl

/-- Testing the marked items and then running `g` on each item with its new mark is one pass: a
    marked item is tested first, an unmarked one keeps its mark. -/
theorem agree_mapM_clearDecided {α ε β : Type} (decisive : Bool) (test : α → Except ε Bool)
    (g : α → Bool → Except ε β) (marks : List Bool) (items : List α)
    (hlen : marks.length = items.length) :
    Agree
      (do
        let truths ← (marked marks items).mapM test
        (items.zip (clearDecided decisive marks truths)).mapM fun p => g p.1 p.2)
      ((items.zip marks).mapM fun p =>
        if p.2 then do g p.1 ((← test p.1) != decisive) else g p.1 false) := by
  induction marks generalizing items with
  | nil =>
    obtain rfl : items = [] := List.length_eq_zero_iff.1 hlen.symm
    exact Agree.refl _
  | cons mark marks ih =>
    obtain ⟨item, items, rfl⟩ := List.exists_cons_of_length_eq_add_one hlen.symm
    have ih := ih items (Nat.succ.inj hlen)
    cases mark with
    | false =>
      simp only [marked_cons_false, clearDecided, List.zip_cons_cons, List.mapM_cons]
      -- an unmarked row is not tested, so its result can be taken before the tests
      refine (Agree.swap _ _ _).trans (Agree.bind (Agree.refl _) fun b _ => ?_)
      simpa only [bind_assoc] using ih.bind fun bs _ => Agree.refl (pure (b :: bs))
    | true =>
      simp only [marked_cons_true, clearDecided, List.zip_cons_cons, List.mapM_cons, bind_assoc,
        pure_bind, if_true]
      refine Agree.bind (Agree.refl _) fun truth _ => ?_
      refine (Agree.swap _ _ _).trans (Agree.bind (Agree.refl _) fun b _ => ?_)
      simpa only [bind_assoc] using ih.bind fun bs _ => Agree.refl (pure (b :: bs))

/-! ## One row -/

namespace Evaluator

/-- What is left undecided of a row by the operands of a connective: a row that is decided already
    stays so, whatever the operands are. -/
def leaves (decisive : Bool) (evaluators : List Evaluator) (row : List Value) (mark : Bool) :
    Except Error Bool :=
  if mark then do return !(← decides decisive row evaluators) else .ok false

theorem leaves_nil (decisive : Bool) (row : List Value) (mark : Bool) :
    leaves decisive [] row mark = .ok mark := by
  cases mark <;> rfl

theorem leaves_cons (decisive : Bool) (evaluator : Evaluator) (rest : List Evaluator)
    (row : List Value) (mark : Bool) :
    leaves decisive (evaluator :: rest) row mark =
      if mark then do leaves decisive rest row ((← evaluator.evalTruth row) != decisive)
      else leaves decisive rest row false := by
  cases mark with
  | false => rfl
  | true =>
    simp only [leaves, decides, if_true, bind_assoc]
    refine congrArg _ (funext fun truth => ?_)
    -- a decisive truth ends the connective, any other one leaves the row to the rest
    by_cases h : truth = decisive
    · simp only [h, if_true, bne_self_eq_false, Bool.false_eq_true, if_false, pure_bind]
      rfl
    · simp only [if_neg h, bne_iff_ne.2 h, if_true]

/-- An evaluator on a row of its width. -/
theorem eval_of_width {evaluator : Evaluator} {row : List Value}
    (h : row.length = evaluator.width) : evaluator.eval row = evaluator.run row := by
  simp only [eval, expectWidth, h, if_true]
  rfl

end Evaluator

namespace Expr

/-! ## Whole columns -/

theorem evalRows_of_prepare {schema : Schema} {e : Expr} {evaluator : Evaluator}
    (h : e.prepare schema = .ok evaluator) (rows : List (List Value)) :
    e.evalRows schema rows = rows.mapM evaluator.eval := by
  rw [evalRows, h]
  rfl

/-- The loop of a connective: evaluating the operands one after another on the rows that are still
    marked leaves each row as all of them leave it. -/
theorem settle_agree (table : Table) (decisive : Bool) (es : List Expr)
    (evaluators : List Evaluator) (hprep : prepareAll table.schema es = .ok evaluators)
    (marks : List Bool) (hlen : marks.length = table.rows.length) :
    Agree (settle table decisive es marks)
      ((table.rows.zip marks).mapM fun p => Evaluator.leaves decisive evaluators p.1 p.2) := by
  -- by induction on the operands: the marks are what the ones before have left undecided
  induction es generalizing evaluators marks with
  | nil =>
    obtain rfl : [] = evaluators := Except.ok.inj hprep
    simp only [settle, Evaluator.leaves_nil]
    exact Agree.of_eq (mapM_marks hlen).symm
  | cons e es ih =>
    obtain ⟨evaluator, he, hprep⟩ := bind_eq_ok_iff.1 hprep
    obtain ⟨rest, hes, hprep⟩ := bind_eq_ok_iff.1 hprep
    obtain rfl : evaluator :: rest = evaluators := Except.ok.inj hprep
    simp only [settle, Evaluator.leaves_cons]
    by_cases hany : marks.any id = true
    · rw [if_pos hany, if_pos (streamable_of_prepare e he), evalRows_of_prepare he]
      -- truths are read while the column is computed, and the next operands see what is left
      have htest := (Agree.mapM_bind evaluator.eval Value.truth (marked marks table.rows)).bind
        fun truths _ => ih rest hes (clearDecided decisive marks truths)
          ((length_clearDecided ..).trans hlen)
      simp only [bind_assoc] at htest
      refine htest.trans ?_
      exact agree_mapM_clearDecided decisive evaluator.evalTruth
        (Evaluator.leaves decisive rest) marks table.rows hlen
    · -- every row is decided, so no operand is evaluated any more
      rw [if_neg hany]
      have hmark : ∀ p ∈ table.rows.zip marks, p.2 = false := fun p hp => by
        simpa using fun h : p.2 = true => hany (List.any_eq_true.2 ⟨_, (List.of_mem_zip hp).2, h⟩)
      refine (Agree.of_eq (mapM_marks hlen).symm).trans (Agree.mapM_congr fun p hp => ?_)
      simp only [hmark p hp, Bool.false_eq_true, if_false]
      exact Agree.refl _

/-- A connective whose rows are all undecided at first is settled row by row. -/
theorem connective_agree (table : Table) (decisive : Bool) (operands : List Expr)
    (evaluators : List Evaluator) (hprep : prepareAll table.schema operands = .ok evaluators)
    (value : Bool → Value) :
    Agree
      (do
        let undecided ← settle table decisive operands (table.rows.map fun _ => true)
        return undecided.map value)
      (table.rows.mapM fun row => do
        return value (!(← Evaluator.decides decisive row evaluators))) := by
  have hsettle := settle_agree table decisive operands evaluators hprep
    (table.rows.map fun _ => true) (List.length_map ..)
  have hzip : table.rows.zip (table.rows.map fun _ => true) =
      table.rows.map fun row => (row, true) := by
    simpa using List.zip_map' (f := id) (g := fun _ => true) (l := table.rows)
  rw [hzip, List.mapM_map] at hsettle
  have hvalues := hsettle.bind fun undecided _ =>
    Agree.of_eq (List.mapM_pure (l := undecided) (f := value)).symm
  refine (hvalues.trans (Agree.mapM_bind _ _ _)).trans (Agree.mapM_congr fun row _ => ?_)
  simp only [Function.comp_apply, Evaluator.leaves, if_true, bind_assoc, pure_bind]
  exact Agree.refl _

/-- On rows of its width an evaluator is its function. -/
theorem mapM_eval_of_width {width : Nat} {run : List Value → Except Error Value}
    {rows : List (List Value)} (hwidth : ∀ row ∈ rows, row.length = width) :
    Agree (rows.mapM (Evaluator.mk width run).eval) (rows.mapM run) :=
  Agree.mapM_congr fun row hrow => Agree.of_eq (Evaluator.eval_of_width (hwidth row hrow))

/-- Eager evaluation of a prepared expression agrees with its evaluator on every row. -/
theorem eval_agree (table : Table) (hwidth : ∀ row ∈ table.rows, row.length = table.schema.width) :
    (e : Expr) → (evaluator : Evaluator) → e.prepare table.schema = .ok evaluator →
      Agree (e.eval table) (table.rows.mapM evaluator.eval)
  | .column _, _, hprep | .columns _, _, hprep | .literal _, _, hprep =>
    Agree.of_eq (evalRows_of_prepare hprep _)
  | .all operands, _, hprep => by
    obtain ⟨evaluators, hops, h⟩ := bind_eq_ok_iff.1 hprep
    obtain rfl := Except.ok.inj h
    exact (connective_agree table false operands evaluators hops .bool).trans
      (mapM_eval_of_width hwidth).symm
  | .any operands, _, hprep => by
    obtain ⟨evaluators, hops, h⟩ := bind_eq_ok_iff.1 hprep
    obtain rfl := Except.ok.inj h
    have hany := connective_agree table true operands evaluators hops fun mark => .bool !mark
    simp only [Bool.not_not] at hany
    exact hany.trans (mapM_eval_of_width hwidth).symm
  | .not operand, _, hprep => by
    obtain ⟨inner, hop, h⟩ := bind_eq_ok_iff.1 hprep
    obtain rfl := Except.ok.inj h
    have ih := eval_agree table hwidth operand inner hop
    refine ((ih.bind fun _ _ => Agree.refl _).trans (Agree.mapM_bind _ _ _)).trans ?_
    refine Agree.trans ?_ (mapM_eval_of_width hwidth).symm
    exact Agree.mapM_congr fun row _ => Agree.of_eq (by simp only [Evaluator.evalTruth, bind_assoc])
  | .binary op left right, _, hprep => by
    obtain ⟨l, hl, h⟩ := bind_eq_ok_iff.1 hprep
    obtain ⟨r, hr, h⟩ := bind_eq_ok_iff.1 h
    obtain rfl := Except.ok.inj h
    have ihl := eval_agree table hwidth left l hl
    have ihr := eval_agree table hwidth right r hr
    refine (ihl.bind fun _ _ => ihr.bind fun _ _ => Agree.refl _).trans ?_
    exact (Agree.mapM_zip _ _ _ _).trans (mapM_eval_of_width hwidth).symm
  | .apply callback operand, _, hprep => by
    obtain ⟨inner, hop, h⟩ := bind_eq_ok_iff.1 hprep
    obtain rfl := Except.ok.inj h
    have ih := eval_agree table hwidth operand inner hop
    refine ((ih.bind fun _ _ => Agree.refl _).trans (Agree.mapM_bind _ _ _)).trans ?_
    exact (mapM_eval_of_width hwidth).symm
  | .aggregate _ _, _, hprep => nomatch hprep

/-- The truths of a column are the truths of its rows. -/
theorem truths_agree (table : Table) (hwidth : ∀ row ∈ table.rows, row.length = table.schema.width)
    {e : Expr} {evaluator : Evaluator} (hprep : e.prepare table.schema = .ok evaluator) :
    Agree (do (← e.eval table).mapM Value.truth) (table.rows.mapM evaluator.evalTruth) :=
  ((eval_agree table hwidth e evaluator hprep).bind fun _ _ => Agree.refl _).trans
    (Agree.mapM_bind evaluator.eval Value.truth table.rows)

/-- **Eager and prepared evaluation agree.** Over a table of well-formed rows, eager evaluation of
    an expression that can be prepared succeeds exactly if its evaluator succeeds on every row, and
    then it gives the evaluator's value of each row, in the order of the rows. -/
theorem eval_eq_evaluator_on_rows (e : Expr) (table : Table) (evaluator : Evaluator)
    (hprep : e.prepare table.schema = .ok evaluator)
    (hwidth : ∀ row ∈ table.rows, row.length = table.schema.width) :
    ((∃ values, e.eval table = .ok values) ↔
      ∀ row ∈ table.rows, ∃ value, evaluator.eval row = .ok value) ∧
    ∀ values, e.eval table = .ok values →
      List.Forall₂ (fun row value => evaluator.eval row = .ok value) table.rows values := by
  have hagree := eval_agree table hwidth e evaluator hprep
  constructor
  · rw [← exists_mapM_eq_ok_iff]
    exact exists_congr hagree
  · intro values hvalues
    exact mapM_eq_ok_iff.1 ((hagree values).1 hvalues)

/-- Whether `n` is not zero and `10 / n` exceeds one. -/
def guardedQuotient : Expr :=
  .all
    [.binary .ne (.column (.name "n")) (.literal (.int64 0)),
     .binary .gt (.binary .div (.literal (.int64 10)) (.column (.name "n"))) (.literal (.int64 1))]

/-- A column with a zero in front of another number. -/
def zeroFirst : Table := ⟨⟨[⟨"n", .int64⟩]⟩, [[.int64 0], [.int64 5]]⟩

/-- The zero is decided by the guard, so neither mode divides by it. -/
theorem guardedQuotient_on_zeroFirst :
    ∃ evaluator, guardedQuotient.prepare zeroFirst.schema = .ok evaluator ∧
      (∀ row ∈ zeroFirst.rows, row.length = zeroFirst.schema.width) ∧
      guardedQuotient.eval zeroFirst = .ok [.bool false, .bool true] ∧
      List.Forall₂ (fun row value => evaluator.eval row = .ok value) zeroFirst.rows
        [.bool false, .bool true] := by
  have heval : guardedQuotient.eval zeroFirst = .ok [.bool false, .bool true] := by
    decide +kernel
  have hwidth : ∀ row ∈ zeroFirst.rows, row.length = zeroFirst.schema.width := by decide
  refine ⟨_, rfl, hwidth, heval, ?_⟩
  exact (eval_eq_evaluator_on_rows guardedQuotient zeroFirst _ rfl hwidth).2 _ heval

end Expr

end RowFlow
