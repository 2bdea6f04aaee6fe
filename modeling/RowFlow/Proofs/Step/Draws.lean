import RowFlow.Proofs.Step.Opening

/-!
# Generators That Transforms Draw

A tape of generators is read from the front, one for each sample without a seed, so transforms see
no more of it than they draw. Tapes that give the same generators up to there open them alike
(`Transform.openOn_congr`); any other tape still opens them against the same schemas, and fails to
when the first one does (`Transform.output_openOn`).
-/

namespace RowFlow

/-! ## Tapes -/

namespace Entropy

variable {m n : Nat} {entropy other : Entropy}

/-- The first `n` generators of two tapes are the same. -/
def AgreeUpTo (n : Nat) (entropy other : Entropy) : Prop :=
  ∀ i < n, entropy.generator i = other.generator i

theorem AgreeUpTo.refl (n : Nat) (entropy : Entropy) : AgreeUpTo n entropy entropy :=
  fun _ _ => rfl

/-- No generator is asked for. -/
theorem agreeUpTo_zero (entropy other : Entropy) : AgreeUpTo 0 entropy other := nofun

theorem AgreeUpTo.mono (h : AgreeUpTo n entropy other) (hmn : m ≤ n) : AgreeUpTo m entropy other :=
  fun i hi => h i (Nat.lt_of_lt_of_le hi hmn)

/-- Tapes that agree still do when the same generators have been read from both. -/
theorem AgreeUpTo.drop (h : AgreeUpTo (m + n) entropy other) :
    AgreeUpTo n (entropy.drop m) (other.drop m) :=
  fun i hi => h (i + m) (by omega)

@[simp] theorem drop_zero (entropy : Entropy) : entropy.drop 0 = entropy := rfl

theorem drop_drop (m n : Nat) (entropy : Entropy) :
    (entropy.drop m).drop n = entropy.drop (m + n) := by
  simp only [drop, Nat.add_assoc, Nat.add_comm n m]

end Entropy

/-! ## Transforms -/

namespace Transform

variable {entropy other : Entropy}

/-- The number of generators that transforms draw together. -/
def drawn : List Transform → Nat
  | [] => 0
  | t :: ts => t.draws + drawn ts

@[simp] theorem drawn_nil : drawn [] = 0 := rfl

@[simp] theorem drawn_cons (t : Transform) (ts : List Transform) :
    drawn (t :: ts) = t.draws + drawn ts := rfl

@[simp] theorem drawn_append (ts ts' : List Transform) :
    drawn (ts ++ ts') = drawn ts + drawn ts' := by
  induction ts with
  | nil => exact (Nat.zero_add _).symm
  | cons t ts ih => rw [List.cons_append, drawn_cons, drawn_cons, ih, Nat.add_assoc]

/-- A transform is opened alike on tapes that agree on what it draws. -/
theorem openOn_congr {t : Transform} (h : Entropy.AgreeUpTo t.draws entropy other)
    (schema : Schema) : t.openOn entropy schema = t.openOn other schema := by
  cases t with
  | sample size seed =>
    have hgenerator : entropy.generatorOf seed = other.generatorOf seed := by
      cases seed with
      | none => exact h 0 Nat.zero_lt_one
      | some seed => rfl
    simp only [openOn, hgenerator]
  | _ => rfl

/-- What a transform passes on is of the same schema whatever it has drawn. -/
theorem output_openOn (t : Transform) (entropy other : Entropy) (schema : Schema) :
    Prod.snd <$> t.openOn entropy schema = Prod.snd <$> t.openOn other schema := by
  cases t <;> rfl

theorem exists_openOn_of_openOn {t : Transform} {schema output : Schema} {stage : Stage}
    (h : t.openOn entropy schema = .ok (stage, output)) (other : Entropy) :
    ∃ stage', t.openOn other schema = .ok (stage', output) := by
  have houtput := t.output_openOn other entropy schema
  rw [h] at houtput
  obtain ⟨⟨stage', _⟩, hopen, rfl⟩ := map_eq_ok_iff.1 houtput
  exact ⟨stage', hopen⟩

/-- What works on single rows draws nothing. -/
theorem draws_of_openOn_each {t : Transform} {schema output : Schema} {rule : RowRule}
    (h : t.openOn entropy schema = .ok (.each rule, output)) : t.draws = 0 := by
  cases opens_of_openOn h <;> rfl

theorem openOn_each_congr {t : Transform} {schema output : Schema} {rule : RowRule}
    (h : t.openOn entropy schema = .ok (.each rule, output)) (other : Entropy) :
    t.openOn other schema = .ok (.each rule, output) := by
  have hagree : Entropy.AgreeUpTo t.draws other entropy := by
    rw [draws_of_openOn_each h]
    exact Entropy.agreeUpTo_zero other entropy
  rw [openOn_congr hagree, h]

end Transform

end RowFlow
