import Mathlib
import RowFlow.Proofs.Pipeline.Course

/-!
# The End of a Reader's Answers

A reader answers with rows, then with an error at most, and then with nothing, unless the chain
strands rows: it fails to close after it has let some out. These rows are given after the error
(`Course.endsAtError_iff`, `Launch.strands_iff`).
-/

namespace RowFlow

variable {α : Type}

/-! ## Ends of answers -/

/-- Rows, then an error at most, then nothing. -/
def EndsAtError : List (Option (Except Error Row)) → Prop
  | [] => True
  | some (.ok _) :: rest => EndsAtError rest
  | some (.error _) :: rest => ∀ answer ∈ rest, answer = none
  | none :: rest => ∀ answer ∈ rest, answer = none

namespace EndsAtError

theorem rows_append {rows : List Row} {rest : List (Option (Except Error Row))} :
    EndsAtError (rows.map (some ∘ .ok) ++ rest) ↔ EndsAtError rest := by
  induction rows with
  | nil => exact Iff.rfl
  | cons row rows ih => exact ih

theorem take {answers : List (Option (Except Error Row))} (h : EndsAtError answers) (k : Nat) :
    EndsAtError (answers.take k) := by
  induction answers generalizing k with
  | nil => rwa [List.take_nil]
  | cons answer rest ih =>
    cases k with
    | zero => trivial
    | succ k =>
      rw [List.take_succ_cons]
      rcases answer with _ | e | row
      · exact fun answer hanswer => h answer (List.mem_of_mem_take hanswer)
      · exact fun answer hanswer => h answer (List.mem_of_mem_take hanswer)
      · exact ih h k

theorem replicate_none (k : Nat) : EndsAtError (List.replicate k none) := by
  cases k with
  | zero => trivial
  | succ k => exact fun _ hanswer => List.eq_of_mem_replicate hanswer

end EndsAtError

/-- The answers of a course end at the error unless rows follow it. -/
theorem Course.endsAtError_iff (course : Course α) :
    (∀ k, EndsAtError ((course.answers.map some ++ List.replicate k none).take k)) ↔
      ∀ e stranded, course.failure = some (e, stranded) → stranded = [] := by
  have hanswers : course.answers.map some =
      course.rows.map (some ∘ .ok) ++ course.ending.map some := by
    rw [answers, List.map_append, List.map_map]
  constructor
  · intro h e stranded hfailure
    -- asked as often as there are answers, the reader has given the stranded rows
    have hall := h course.answers.length
    rw [List.take_left' (List.length_map _), hanswers, EndsAtError.rows_append, ending,
      hfailure] at hall
    cases stranded with
    | nil => rfl
    | cons row rest => exact nomatch hall (some (.ok row)) List.mem_cons_self
  · intro h k
    refine EndsAtError.take ?_ k
    rw [hanswers, List.append_assoc, EndsAtError.rows_append, ending]
    rcases hfailure : course.failure with _ | ⟨e, stranded⟩
    · exact EndsAtError.replicate_none k
    · obtain rfl := h e stranded hfailure
      exact fun _ hanswer => List.eq_of_mem_replicate hanswer

/-! ## Stranded rows -/

/-- Every row of the source can be pushed, but the chain fails to close after it has let out
    rows. -/
def RowIterator.Strands {n : Nat} (it : RowIterator Stage α n) (session : Session α) : Prop :=
  ∃ chain chain' session' e, it.chain = some chain ∧
    pushAll it.options it.width it.items it.pulled chain session = (.ok (), chain', session') ∧
    (Consumer.close chain' session').1 = .error e ∧
    (emitted chain').length < (emitted (Consumer.close chain' session').2.1).length

namespace Launch

/-- Stranded rows are those that the course of the run ends with. -/
theorem strands_iff (launch : Launch) (options : Options α) (session : Session α) :
    (launch.iterator options).Strands session ↔
      ∃ e stranded, (launch.course options session).failure = some (e, stranded) ∧
        stranded ≠ [] := by
  constructor
  · rintro ⟨start, chain, after, e, hstart, hpush, hclose, hmore⟩
    obtain rfl : launch.fetching = start := Option.some.inj hstart
    -- the run starts in the launched chain, before the first row of the source
    dsimp only [iterator] at hpush
    rcases hclosed : Consumer.close chain after with ⟨result, closed, final⟩
    rw [hclosed] at hclose hmore
    obtain rfl : result = .error e := hclose
    refine ⟨e, (RowIterator.emitted closed).drop (RowIterator.emitted chain).length, ?_, ?_⟩
    · simp only [course, RowIterator.course, hpush, Chain.closing, hclosed]
      rfl
    · exact fun hnil => absurd (List.drop_eq_nil_iff.1 hnil) (Nat.not_le_of_lt hmore)
  · rintro ⟨e, stranded, hfailure, hstranded⟩
    simp only [course, RowIterator.course] at hfailure
    rcases hpush : pushAll options launch.width launch.items 0 launch.fetching session with
      ⟨e' | _, chain, after⟩
    · rw [hpush] at hfailure
      obtain rfl := (Prod.mk.inj (Option.some.inj hfailure)).2
      exact absurd rfl hstranded
    · simp only [hpush, Chain.closing] at hfailure
      rcases hclosed : Consumer.close chain after with ⟨e' | _, closed, final⟩
      · rw [hclosed] at hfailure
        obtain ⟨rfl, rfl⟩ := Prod.mk.inj (Option.some.inj hfailure)
        refine ⟨_, chain, after, e', rfl, hpush, by rw [hclosed], ?_⟩
        rw [hclosed]
        exact Nat.lt_of_not_le fun hle => hstranded (List.drop_eq_nil_iff.2 hle)
      · rw [hclosed] at hfailure
        cases hfailure

end Launch

/-! ## Pipelines -/

namespace Pipeline

/-- The answers of a reader end at the first error, however often it is asked, exactly if the run
    strands no rows. -/
theorem answers_end_at_error_iff {source : Source} {ts : List Transform} {options : Options α}
    {session opened : Session α} {n : Nat} {it : RowIterator Stage α n}
    (h : (ofTransforms source ts options).iterate session = (.ok ⟨n, it⟩, opened)) :
    (∀ k, EndsAtError (it.ask k opened).1) ↔ ¬ it.Strands opened := by
  obtain ⟨launch, hfit, hit⟩ := exists_launch_of_iterate h
  cases hit
  simp only [(launch.yields_course hfit options opened).ask_fst, launch.strands_iff,
    Course.endsAtError_iff]
  constructor
  · rintro hends ⟨e, stranded, hfailure, hstranded⟩
    exact hstranded (hends e stranded hfailure)
  · intro hnone e stranded hfailure
    by_contra hstranded
    exact hnone ⟨e, stranded, hfailure, hstranded⟩

/-- Transforms of a column that starts with one and ends with the greatest integer, before one is
    added to it. -/
def successors (ts : List Transform) : Pipeline Step Unit :=
  .ofTransforms (.table ⟨⟨[⟨"n", .int64⟩]⟩, [[.int64 1], [.int64 9223372036854775807]]⟩)
    (ts ++ [.update [.name "n"] (.binary .add (.column (.name "n")) (.literal (.int64 1)))])
    .unobserved

/-- The overflow ends the run while rows flow, so nothing is stranded. -/
theorem successors_end_at_overflow :
    ∃ n it opened, (successors []).iterate (.start .empty ()) = (.ok ⟨n, it⟩, opened) ∧
      ¬ it.Strands opened ∧ ∀ k, EndsAtError (it.ask k opened).1 := by
  have hiterate : (successors []).iterate (.start .empty ()) = (.ok ⟨_, _⟩, _) := rfl
  have hiff := answers_end_at_error_iff hiterate
  refine ⟨_, _, _, hiterate, and_iff_left_of_imp hiff.2 |>.2 ?_⟩
  rintro ⟨chain, chain', session', e, hchain, hpush, -⟩
  obtain rfl := Option.some.inj hchain
  -- pushing all rows was to succeed, but the second one overflows
  have hfails := congrArg Prod.fst hpush
  cbv at hfails
  cases hfails

/-- Behind a sort the overflow comes while the chain is closed, after the successor of one has come
    out; this row is given after the error. -/
theorem sorted_successors_strand :
    ∃ n it opened, (successors [.sort [.name "n"] false]).iterate (.start .empty ()) =
        (.ok ⟨n, it⟩, opened) ∧
      (it.ask 3 opened).1 =
        [some (.error (.evaluation (.integerOverflow .add 9223372036854775807 1))),
         some (.ok ⟨0, [.int64 2]⟩), none] ∧
      ¬ ∀ k, EndsAtError (it.ask k opened).1 := by
  refine ⟨_, _, _, rfl, and_iff_left_of_imp ?_ |>.2 ?_⟩
  · intro hasked hends
    have hall := hends 3
    rw [hasked] at hall
    exact nomatch hall (some (.ok ⟨0, [.int64 2]⟩)) List.mem_cons_self
  · cbv

end Pipeline

end RowFlow
