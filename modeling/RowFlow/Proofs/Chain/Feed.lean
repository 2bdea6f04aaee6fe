import RowFlow.Chain.Link

/-!
# What Feeds Forward

Facts about running a feed in front of a consumer. If every row that the feed may forward has a
property, then the consumer sees such rows only. And if two consumers answer such rows alike, the
feed cannot tell them apart: it runs the same way in front of both (`Feed.run_lockstep`).
-/

namespace RowFlow

/-! ## Rows and results of feeds -/

namespace Feed

variable {α β : Type}

/-- Every row that a feed forwards, whatever the answers are, has the property `P`, and every result
    that it ends with has the property `Q`. -/
def Sends (P : Row → Prop) (Q : α → Prop) : Feed α → Prop
  | .done result => Q result
  | .forward row next => P row ∧ ∀ answer, (next answer).Sends P Q

theorem Sends.map {P : Row → Prop} {Q : β → Prop} {f : α → β} {feed : Feed α}
    (h : feed.Sends P fun a => Q (f a)) : (feed.map f).Sends P Q := by
  induction feed with
  | done result => exact h
  | forward row next ih => exact ⟨h.1, fun answer => ih answer (h.2 answer)⟩

theorem Sends.imp {P : Row → Prop} {Q Q' : α → Prop} {feed : Feed α} (h : feed.Sends P Q)
    (hQ : ∀ a, Q a → Q' a) : feed.Sends P Q' := by
  induction feed with
  | done result => exact hQ result h
  | forward row next ih => exact ⟨h.1, fun answer => ih answer (h.2 answer)⟩

theorem sends_ofRows {P : Row → Prop} {Q : Except Error Unit → Prop} {rows : List Row}
    (h : ∀ row ∈ rows, P row) (hQ : ∀ result, Q result) : (ofRows rows).Sends P Q := by
  induction rows with
  | nil => exact hQ _
  | cons row rest ih =>
    refine ⟨h row List.mem_cons_self, fun answer => ?_⟩
    match answer with
    | .error _ | .ok .stop => exact hQ _
    | .ok .more => exact ih fun r hr => h r (List.mem_cons_of_mem _ hr)

theorem run_map {ω σ : Type} [Consumer ω σ] (f : α → β) (feed : Feed α) (stopped : Bool) (s : σ)
    (w : ω) :
    (feed.map f).run stopped s w = (f (feed.run stopped s w).1, (feed.run stopped s w).2) := by
  induction feed generalizing stopped s w with
  | done result => rfl
  | forward row next ih =>
    cases stopped with
    | true => exact ih _ true s w
    | false => exact ih _ _ _ _

end Feed

/-! ## Answers -/

/-- Whether a consumer asks to stop. -/
def asksToStop : Except Error Flow → Bool
  | .ok .stop => true
  | _ => false

/-! ## Consumers in lockstep -/

section
variable {ω σ ω' σ' : Type} [Consumer ω σ] [Consumer ω' σ']

/-- A relation between two consumers and the worlds they act on that rows with the property `P`
    cannot break: both give the same answer to such a row and are related again afterwards. -/
def Lockstep (P : Row → Prop) (D : σ → ω → σ' → ω' → Prop) : Prop :=
  ∀ row s w s' w', P row → D s w s' w' →
    (Consumer.consume row s w).1 = (Consumer.consume row s' w').1 ∧
      D (Consumer.consume row s w).2.1 (Consumer.consume row s w).2.2
        (Consumer.consume row s' w').2.1 (Consumer.consume row s' w').2.2

/-- A feed that forwards only rows with the property `P` runs alike in front of two consumers in
    lockstep. -/
theorem Feed.run_lockstep {α : Type} {P : Row → Prop} {Q : α → Prop}
    {D : σ → ω → σ' → ω' → Prop} (hstep : Lockstep P D) (feed : Feed α) (hfeed : feed.Sends P Q)
    (stopped : Bool) {s : σ} {w : ω} {s' : σ'} {w' : ω'} (h : D s w s' w') :
    (feed.run stopped s w).1 = (feed.run stopped s' w').1 ∧
      Q (feed.run stopped s w).1 ∧
      (feed.run stopped s w).2.1 = (feed.run stopped s' w').2.1 ∧
      D (feed.run stopped s w).2.2.1 (feed.run stopped s w).2.2.2
        (feed.run stopped s' w').2.2.1 (feed.run stopped s' w').2.2.2 := by
  -- the consumers change along the feed, so the induction is for all of them
  induction feed generalizing stopped s w s' w' with
  | done result => exact ⟨rfl, hfeed, rfl, h⟩
  | forward row next ih =>
    cases stopped with
    -- neither consumer sees the row
    | true => exact ih _ (hfeed.2 _) true h
    | false =>
      obtain ⟨hanswer, hnext⟩ := hstep row s w s' w' hfeed.1 h
      simp only [run, Bool.false_eq_true, if_false, hanswer]
      exact ih _ (hfeed.2 _) _ hnext

end

end RowFlow
