import Mathlib.Data.List.Forall2

/-!
# Success of Computations

Computations that may fail, compared by their results only: two of them agree when they succeed
together and with the same result, whatever their errors are. Up to agreement steps may be swapped
and traversals of a list may be fused, which is how a computation column by column turns into one
row by row. The other way round, `FailsWith` tells what errors a computation can fail with.
-/

namespace RowFlow

variable {ε α β γ δ : Type}

/-! ## Results of sequences -/

theorem ok_bind (a : α) (f : α → Except ε β) : (.ok a >>= f) = f a := rfl

/-- A sequence succeeds when both of its parts do, the second one on the result of the first. -/
theorem bind_eq_ok_iff {x : Except ε α} {f : α → Except ε β} {b : β} :
    (x >>= f) = .ok b ↔ ∃ a, x = .ok a ∧ f a = .ok b := by
  cases x with
  | error e => exact ⟨nofun, fun ⟨_, h, _⟩ => nomatch h⟩
  | ok a => exact ⟨fun h => ⟨a, rfl, h⟩, fun ⟨_, rfl, h⟩ => h⟩

/-- A sequence fails in its first part, or in the second one after a success of the first. -/
theorem bind_eq_error_iff {x : Except ε α} {f : α → Except ε β} {e : ε} :
    (x >>= f) = .error e ↔ x = .error e ∨ ∃ a, x = .ok a ∧ f a = .error e := by
  cases x with
  | error e' =>
    refine ⟨fun h => .inl (congrArg _ (Except.error.inj h)), ?_⟩
    rintro (h | ⟨_, h, _⟩)
    · exact congrArg _ (Except.error.inj h)
    · cases h
  | ok a =>
    refine ⟨fun h => .inr ⟨a, rfl, h⟩, ?_⟩
    rintro (h | ⟨_, ha, h⟩)
    · cases h
    · cases ha
      exact h

/-- What does not fail has a result. -/
theorem exists_eq_ok {x : Except ε α} (h : ∀ e, x ≠ .error e) : ∃ a, x = .ok a := by
  cases x with
  | error e => exact absurd rfl (h e)
  | ok a => exact ⟨a, rfl⟩

/-- What fails with its first part fails there if that part has no result. -/
theorem fails_first_iff {first : Except ε α} {whole : Except ε β} {e : ε}
    (h : ∀ e, first = .error e → whole = .error e) :
    (whole = .error e ∧ ¬ ∃ a, first = .ok a) ↔ first = .error e := by
  constructor
  · rintro ⟨hwhole, hnot⟩
    cases hfirst : first with
    | error e' => exact congrArg _ (Except.error.inj ((h e' hfirst).symm.trans hwhole))
    -- a result of the first part is just what is ruled out
    | ok a => exact absurd ⟨a, hfirst⟩ hnot
  · intro hfirst
    refine ⟨h e hfirst, ?_⟩
    rintro ⟨a, ha⟩
    cases hfirst.symm.trans ha

theorem map_eq_ok_iff {x : Except ε α} {f : α → β} {b : β} :
    (f <$> x) = .ok b ↔ ∃ a, x = .ok a ∧ f a = b := by
  cases x with
  | error e => exact ⟨nofun, fun ⟨_, h, _⟩ => nomatch h⟩
  | ok a => exact ⟨fun h => ⟨a, rfl, Except.ok.inj h⟩, fun ⟨_, rfl, h⟩ => congrArg _ h⟩

/-- Whether a sequence succeeds, when the result does not matter. -/
theorem exists_bind_eq_ok_iff {x : Except ε α} {f : α → Except ε β} :
    (∃ b, (x >>= f) = .ok b) ↔ ∃ a, x = .ok a ∧ ∃ b, f a = .ok b := by
  simp only [bind_eq_ok_iff]
  constructor
  · rintro ⟨b, a, ha, hb⟩
    exact ⟨a, ha, b, hb⟩
  · rintro ⟨a, ha, b, hb⟩
    exact ⟨b, a, ha, hb⟩

theorem exists_map_eq_ok_iff {x : Except ε α} {f : α → β} :
    (∃ b, (f <$> x) = .ok b) ↔ ∃ a, x = .ok a := by
  simp [map_eq_ok_iff]

/-- A traversal succeeds when every step does, with the results in order. -/
theorem mapM_eq_ok_iff {f : α → Except ε β} {xs : List α} {ys : List β} :
    xs.mapM f = .ok ys ↔ List.Forall₂ (fun x y => f x = .ok y) xs ys := by
  induction xs generalizing ys with
  | nil =>
    rw [List.mapM_nil, List.forall₂_nil_left_iff]
    exact ⟨fun h => (Except.ok.inj h).symm, fun h => h ▸ rfl⟩
  | cons x xs ih =>
    -- the result of a traversal begins with the one of its first step
    rw [List.mapM_cons, List.forall₂_cons_left_iff, bind_eq_ok_iff]
    constructor
    · rintro ⟨y, hy, h⟩
      obtain ⟨rest, hrest, h⟩ := bind_eq_ok_iff.1 h
      exact ⟨y, rest, hy, ih.1 hrest, (Except.ok.inj h).symm⟩
    · rintro ⟨y, rest, hy, hrest, rfl⟩
      exact ⟨y, hy, bind_eq_ok_iff.2 ⟨rest, ih.2 hrest, rfl⟩⟩

/-- A traversal succeeds when every step does. -/
theorem exists_mapM_eq_ok_iff {f : α → Except ε β} {xs : List α} :
    (∃ ys, xs.mapM f = .ok ys) ↔ ∀ x ∈ xs, ∃ y, f x = .ok y := by
  induction xs with
  | nil => exact ⟨fun _ => nofun, fun _ => ⟨[], rfl⟩⟩
  | cons x xs ih =>
    simp only [mapM_eq_ok_iff, List.mem_cons, forall_eq_or_imp] at ih ⊢
    constructor
    · rintro ⟨_, h⟩
      obtain ⟨y, ys, hy, hys, rfl⟩ := List.forall₂_cons_left_iff.1 h
      exact ⟨⟨y, hy⟩, ih.1 ⟨ys, hys⟩⟩
    · rintro ⟨⟨y, hy⟩, h⟩
      obtain ⟨ys, hys⟩ := ih.2 h
      exact ⟨y :: ys, .cons hy hys⟩

/-- A traversal gives one result for each item. -/
theorem length_of_mapM_eq_ok {f : α → Except ε β} {xs : List α} {ys : List β}
    (h : xs.mapM f = .ok ys) : ys.length = xs.length :=
  (mapM_eq_ok_iff.1 h).length_eq.symm

/-! ## Agreement -/

/-- Two computations succeed together and with the same result. -/
def Agree (x y : Except ε α) : Prop := ∀ a, x = .ok a ↔ y = .ok a

namespace Agree

theorem refl (x : Except ε α) : Agree x x := fun _ => Iff.rfl

theorem of_eq {x y : Except ε α} (h : x = y) : Agree x y := h ▸ refl x

theorem symm {x y : Except ε α} (h : Agree x y) : Agree y x := fun a => (h a).symm

theorem trans {x y z : Except ε α} (h : Agree x y) (h' : Agree y z) : Agree x z :=
  fun a => (h a).trans (h' a)

/-- Agreement goes on along sequences, if the second parts agree on every result of the first. -/
theorem bind {x y : Except ε α} {f g : α → Except ε β} (h : Agree x y)
    (hfg : ∀ a, x = .ok a → Agree (f a) (g a)) : Agree (x >>= f) (y >>= g) := by
  intro b
  rw [bind_eq_ok_iff, bind_eq_ok_iff]
  constructor
  · rintro ⟨a, hx, hf⟩
    exact ⟨a, (h a).1 hx, (hfg a hx b).1 hf⟩
  · rintro ⟨a, hy, hg⟩
    have hx := (h a).2 hy
    exact ⟨a, hx, (hfg a hx b).2 hg⟩

theorem map {x y : Except ε α} (h : Agree x y) (f : α → β) : Agree (f <$> x) (f <$> y) := by
  intro b
  rw [map_eq_ok_iff, map_eq_ok_iff]
  exact exists_congr fun a => and_congr_left' (h a)

/-- Two computations that do not depend on each other may be swapped. -/
theorem swap (x : Except ε α) (y : Except ε β) (f : α → β → Except ε γ) :
    Agree (do let a ← x; let b ← y; f a b) (do let b ← y; let a ← x; f a b) := by
  intro c
  simp only [bind_eq_ok_iff]
  constructor
  · rintro ⟨a, ha, b, hb, h⟩
    exact ⟨b, hb, a, ha, h⟩
  · rintro ⟨b, hb, a, ha, h⟩
    exact ⟨a, ha, b, hb, h⟩

/-- Traversals agree whose steps agree on every item. -/
theorem mapM_congr {f g : α → Except ε β} {xs : List α} (h : ∀ x ∈ xs, Agree (f x) (g x)) :
    Agree (xs.mapM f) (xs.mapM g) := by
  induction xs with
  | nil => exact refl _
  | cons x xs ih =>
    rw [List.mapM_cons, List.mapM_cons]
    refine bind (h x List.mem_cons_self) fun y _ => bind (ih fun z hz => ?_) fun _ _ => refl _
    exact h z (List.mem_cons_of_mem _ hz)

/-- Two traversals, one over the results of the other, are one. -/
theorem mapM_bind (f : α → Except ε β) (g : β → Except ε γ) (xs : List α) :
    Agree (do let ys ← xs.mapM f; ys.mapM g) (xs.mapM fun x => f x >>= g) := by
  induction xs with
  | nil => exact refl _
  | cons x xs ih =>
    simp only [List.mapM_cons, bind_assoc, pure_bind]
    -- the head of the second traversal moves in front of the tail of the first
    refine bind (refl _) fun y _ => (swap _ _ _).trans (bind (refl _) fun z _ => ?_)
    have hfuse := bind ih fun zs _ => refl (pure (z :: zs))
    simpa only [bind_assoc] using hfuse

/-- Two traversals of the same list whose results are combined pairwise are one. -/
theorem mapM_zip (f : α → Except ε β) (g : α → Except ε γ) (k : β × γ → Except ε δ)
    (xs : List α) :
    Agree (do let ys ← xs.mapM f; let zs ← xs.mapM g; (ys.zip zs).mapM k)
      (xs.mapM fun x => do let y ← f x; let z ← g x; k (y, z)) := by
  induction xs with
  | nil => exact refl _
  | cons x xs ih =>
    simp only [List.mapM_cons, bind_assoc, pure_bind, List.zip_cons_cons]
    refine bind (refl _) fun y _ => (swap _ _ _).trans (bind (refl _) fun z _ => ?_)
    -- the two heads are combined before the tails are traversed
    intro ws
    simp only [Agree, bind_eq_ok_iff] at ih ⊢
    constructor
    · rintro ⟨ys, hys, zs, hzs, w, hw, rest, hrest, h⟩
      exact ⟨w, hw, rest, (ih rest).1 ⟨ys, hys, zs, hzs, hrest⟩, h⟩
    · rintro ⟨w, hw, rest, hrest, h⟩
      obtain ⟨ys, hys, zs, hzs, hrest⟩ := (ih rest).2 hrest
      exact ⟨ys, hys, zs, hzs, w, hw, rest, hrest, h⟩

/-- The results of a traversal are combined pairwise with what was traversed. -/
theorem mapM_zip_self (g : α → Except ε β) (k : α × β → Except ε γ) (xs : List α) :
    Agree (do let ys ← xs.mapM g; (xs.zip ys).mapM k) (xs.mapM fun x => do k (x, ← g x)) := by
  have hself : (xs.mapM fun x => (.ok (id x) : Except ε α)) = .ok xs := by
    refine (List.mapM_pure (l := xs) (f := id)).trans ?_
    rw [List.map_id]
    rfl
  -- the list itself is what a traversal gives that changes nothing
  have hzip := mapM_zip (fun x => .ok (id x)) g k xs
  rw [hself] at hzip
  exact hzip

end Agree

/-! ## Refinement -/

/-- Wherever one computation succeeds, another one does with the same result. -/
def Refines (x y : Except ε α) : Prop := ∀ a, x = .ok a → y = .ok a

namespace Refines

theorem refl (x : Except ε α) : Refines x x := fun _ => id

/-- A part of a sequence may be refined. -/
theorem bind {x y : Except ε α} {f g : α → Except ε β} (h : Refines x y)
    (hfg : ∀ a, Refines (f a) (g a)) : Refines (x >>= f) (y >>= g) := by
  intro b hb
  obtain ⟨a, ha, hb⟩ := bind_eq_ok_iff.1 hb
  exact bind_eq_ok_iff.2 ⟨a, h a ha, hfg a b hb⟩

end Refines

/-! ## Failures -/

/-- A computation fails with errors of one kind only. -/
def FailsWith (P : ε → Prop) (x : Except ε α) : Prop := ∀ e, x = .error e → P e

namespace FailsWith

variable {P : ε → Prop}

theorem ok (a : α) : FailsWith P (.ok a : Except ε α) := nofun

theorem error {e : ε} (h : P e) : FailsWith P (.error e : Except ε α) :=
  fun _ he => Except.error.inj he ▸ h

/-- A sequence fails as one of its parts does. -/
theorem bind {x : Except ε α} {f : α → Except ε β} (hx : FailsWith P x)
    (hf : ∀ a, x = .ok a → FailsWith P (f a)) : FailsWith P (x >>= f) := by
  cases x with
  | error e => exact error (hx e rfl)
  | ok a => exact hf a rfl

theorem map {x : Except ε α} (hx : FailsWith P x) (f : α → β) : FailsWith P (x.map f) := by
  cases x with
  | error e => exact error (hx e rfl)
  | ok a => exact ok (f a)

/-- A traversal fails as one of its steps does. -/
theorem mapM {f : α → Except ε β} {xs : List α} (h : ∀ x ∈ xs, FailsWith P (f x)) :
    FailsWith P (xs.mapM f) := by
  induction xs with
  | nil => exact ok []
  | cons x xs ih =>
    obtain ⟨hx, hxs⟩ := List.forall_mem_cons.1 h
    rw [List.mapM_cons]
    exact hx.bind fun y _ => (ih hxs).bind fun ys _ => ok (y :: ys)

end FailsWith

end RowFlow
