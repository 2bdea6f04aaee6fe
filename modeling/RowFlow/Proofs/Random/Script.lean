import Mathlib.Data.Finset.NAry
import Mathlib.Probability.Distributions.Uniform
import RowFlow.Random.Reservoir

/-!
# Positions Drawn from a Script

A generator seen from outside: the positions that it answers are a list, and the ranges that it is
asked for are recorded (`Script`). For each list of requests there are finitely many lists of
answers (`answersTo`), and positions drawn one by one, independently and uniformly, are a uniform
choice among them (`drawn_eq_uniform`).
-/

namespace RowFlow

/-! ## Scripts -/

/-- A generator that answers from a list. -/
structure Script where
  answers : List Nat
  /-- the last positions of the ranges asked for so far -/
  requests : List Nat

instance : Draws Script where
  draw script last :=
    (script.answers.headD 0, ⟨script.answers.tail, script.requests ++ [last]⟩)

/-! ## Answers to requests -/

/-- The lists of answers to requests, each answer a position from zero to the last one of its
    range. -/
def answersTo : List Nat → Finset (List Nat)
  | [] => {[]}
  | last :: requests => Finset.image₂ List.cons (Finset.range (last + 1)) (answersTo requests)

/-- A list with one more entry behind determines the list and the entry. -/
theorem concat_injective2 {α : Type} : Function.Injective2 fun (l : List α) (x : α) => l ++ [x] :=
  fun _ _ _ _ h => by simpa using h

theorem mem_answersTo {answers requests : List Nat} :
    answers ∈ answersTo requests ↔ List.Forall₂ (· ≤ ·) answers requests := by
  induction requests generalizing answers with
  | nil => rw [answersTo, Finset.mem_singleton, List.forall₂_nil_right_iff]
  | cons last requests ih =>
    rw [answersTo, Finset.mem_image₂, List.forall₂_cons_right_iff]
    constructor
    · rintro ⟨answer, hanswer, rest, hrest, rfl⟩
      exact ⟨answer, rest, Nat.lt_succ_iff.1 (Finset.mem_range.1 hanswer), ih.1 hrest, rfl⟩
    · rintro ⟨answer, rest, hanswer, hrest, rfl⟩
      exact ⟨answer, Finset.mem_range.2 (Nat.lt_succ_iff.2 hanswer), rest, ih.2 hrest, rfl⟩

theorem answersTo_nonempty (requests : List Nat) : (answersTo requests).Nonempty := by
  induction requests with
  | nil => exact Finset.singleton_nonempty _
  | cons last requests ih => exact Finset.nonempty_range_add_one.image₂ ih

/-- The answer to a request that comes last does not depend on the answers before. -/
theorem answersTo_concat (requests : List Nat) (last : Nat) :
    answersTo (requests ++ [last]) =
      Finset.image₂ (fun answers answer => answers ++ [answer]) (answersTo requests)
        (Finset.range (last + 1)) := by
  induction requests with
  | nil => simp [answersTo]
  | cons first requests ih =>
    have hassoc (answer : Nat) (answers : List Nat) (answer' : Nat) :
        answer :: answers ++ [answer'] = answer :: (answers ++ [answer']) := rfl
    rw [List.cons_append, answersTo, ih, answersTo, Finset.image₂_assoc hassoc]

/-- Answers with a property are counted by the answers to the last request. -/
theorem card_filter_answersTo_concat (requests : List Nat) (last : Nat) (p : List Nat → Prop)
    [DecidablePred p] : ((answersTo (requests ++ [last])).filter p).card =
      ∑ answers ∈ answersTo requests,
        ((Finset.range (last + 1)).filter fun answer => p (answers ++ [answer])).card := by
  rw [answersTo_concat, Finset.image₂, Finset.filter_image,
    Finset.card_image_of_injective _ concat_injective2.uncurry, Finset.card_filter,
    Finset.sum_product]
  exact Finset.sum_congr rfl fun answers _ => (Finset.card_filter _ _).symm

/-! ## Answers by chance -/

/-- Two independent uniform choices are one uniform choice of a pair. -/
theorem uniformOfFinset_image₂ {α β δ : Type} [DecidableEq δ] {f : α → β → δ}
    (hf : Function.Injective2 f) {s : Finset α} {t : Finset β} (hs : s.Nonempty)
    (ht : t.Nonempty) :
    ((PMF.uniformOfFinset s hs).bind fun a => (PMF.uniformOfFinset t ht).map (f a)) =
      PMF.uniformOfFinset (Finset.image₂ f s t) (hs.image₂ ht) := by
  ext pair
  by_cases hpair : pair ∈ Finset.image₂ f s t
  · obtain ⟨a, ha, b, hb, rfl⟩ := Finset.mem_image₂.1 hpair
    have hsecond : (PMF.uniformOfFinset t ht).map (f a) (f a b) = (t.card : ENNReal)⁻¹ := by
      rw [PMF.map_apply, tsum_eq_single b, if_pos rfl, PMF.uniformOfFinset_apply_of_mem ht hb]
      exact fun b' hb' => if_neg fun h => hb' (hf h).2.symm
    have hother (a' : α) (ha' : a' ≠ a) : (PMF.uniformOfFinset t ht).map (f a') (f a b) = 0 := by
      rw [PMF.map_apply, ENNReal.tsum_eq_zero]
      exact fun b' => if_neg fun h => ha' (hf h).1.symm
    rw [PMF.bind_apply, tsum_eq_single a fun a' ha' => by rw [hother a' ha', mul_zero], hsecond,
      PMF.uniformOfFinset_apply_of_mem hs ha, PMF.uniformOfFinset_apply_of_mem _ hpair,
      Finset.card_image₂ hf, Nat.cast_mul,
      ENNReal.mul_inv (.inr (ENNReal.natCast_ne_top _)) (.inl (ENNReal.natCast_ne_top _))]
  · rw [PMF.uniformOfFinset_apply_of_notMem _ hpair, PMF.apply_eq_zero_iff]
    simpa using hpair

/-- Answers to requests, each drawn from its range uniformly and independently of the others. -/
noncomputable def drawn : List Nat → PMF (List Nat)
  | [] => pure []
  | last :: requests => do
    let answer ← PMF.uniformOfFinset (Finset.range (last + 1)) Finset.nonempty_range_add_one
    let answers ← drawn requests
    return answer :: answers

/-- Every list of answers is drawn with the same probability. -/
theorem drawn_eq_uniform (requests : List Nat) :
    drawn requests = PMF.uniformOfFinset (answersTo requests) (answersTo_nonempty requests) := by
  induction requests with
  | nil =>
    ext answers
    change PMF.pure [] answers = _
    simp [answersTo]
  | cons last requests ih =>
    rw [drawn, ih]
    exact uniformOfFinset_image₂ (fun _ _ _ _ h => List.cons.inj h) _ _

end RowFlow
