import RowFlow.Step.Stage

/-!
# Terminal Consumers of Chains

Exchanging the terminal consumer of a chain, and when it stays as it is: a stage forwards at most
one row when it handles one and fails only if that row fails, so a row that a chain fails on has
never reached the end (`Chain.terminal_of_consume_error`).
-/

namespace RowFlow

namespace Chain

variable {ω τ : Type}

/-! ## Exchange -/

section
variable {π : Type} (f : τ → τ)

theorem terminal_mapTerminal (n : Nat) (c : Chain π τ n) :
    terminal n (mapTerminal f n c) = f (terminal n c) := by
  induction n with
  | zero => rfl
  | succ n ih => exact ih (Link.downstream c)

theorem mapTerminal_eq_self {n : Nat} {c : Chain π τ n} (h : f (terminal n c) = terminal n c) :
    mapTerminal f n c = c := by
  induction n with
  | zero => exact h
  | succ n ih =>
    obtain ⟨producer, down, closed, stopped⟩ := c
    exact congrArg (fun d => Link.mk producer d closed stopped) (ih h)

theorem terminal_connect (producers : List π) (t : τ) :
    terminal producers.length (connect producers t) = t := by
  induction producers with
  | nil => rfl
  | cons producer rest ih => exact ih

end

/-! ## Rows that fail -/

/-- A stage answers a row itself, or forwards one row and answers with an error only if the consumer
    behind it does. -/
theorem handle_cases (row : Row) (stage : Stage) :
    (∃ answer next, stage.handle row = .done (answer, next)) ∨
      ∃ (image : Row) (respond : Except Error Flow → Except Error Flow) (next : Stage),
        stage.handle row = .forward image (fun answer => .done (respond answer, next)) ∧
          ∀ answer e, respond answer = .error e → answer = .error e := by
  cases stage with
  | each rule =>
    simp only [Stage.handle]
    split
    · exact .inl ⟨_, _, rfl⟩
    · exact .inl ⟨_, _, rfl⟩
    · exact .inr ⟨_, id, _, rfl, fun _ _ h => h⟩
  | limit rows seen =>
    simp only [Stage.handle]
    split
    · exact .inl ⟨_, _, rfl⟩
    · refine .inr ⟨row, fun answer => if seen + 1 = rows then answer.map fun _ => .stop else answer,
        _, rfl, fun answer e h => ?_⟩
      split at h
      · cases answer with
        | error e' => exact h
        | ok flow => cases h
      · exact h
  | sample reservoir => exact .inl ⟨_, _, rfl⟩
  | sort width keys descending held =>
    simp only [Stage.handle]
    split <;> exact .inl ⟨_, _, rfl⟩

/-- If the terminal consumer stays as it is when it fails on a row, it does so whenever the chain
    fails on one. -/
theorem terminal_of_consume_error [Consumer ω τ]
    (hτ : ∀ {row : Row} {t t' : τ} {w w' : ω} {e : Error},
      Consumer.consume row t w = (.error e, t', w') → t' = t)
    {n : Nat} {row : Row} {c c' : Chain Stage τ n} {w w' : ω} {e : Error}
    (h : Consumer.consume row c w = (.error e, c', w')) : terminal n c' = terminal n c := by
  induction n generalizing row w w' with
  | zero => exact hτ h
  | succ n ih =>
    obtain ⟨producer, down, closed, stopped⟩ := c
    -- Only the case in which the row is passed on reaches the links behind.
    change Link.consume row (Link.mk producer down closed stopped) w = _ at h
    cases closed with
    | true =>
      obtain ⟨-, rfl, -⟩ := h
      rfl
    | false =>
      cases stopped with
      | true => cases h
      | false =>
        simp only [Link.consume, Producer.handle, Bool.false_eq_true, if_false] at h
        rcases handle_cases row producer with ⟨answer, next, hhandle⟩ |
          ⟨image, respond, next, hhandle, hrespond⟩
        · rw [hhandle] at h
          obtain ⟨-, rfl, -⟩ := h
          rfl
        · rw [hhandle] at h
          simp only [Feed.run, Bool.false_eq_true, if_false] at h
          rcases hdown : Consumer.consume image down w with ⟨answer, down', v⟩
          rw [hdown] at h
          obtain ⟨herror, h⟩ := Prod.mk.inj h
          obtain ⟨rfl, rfl⟩ := Prod.mk.inj h
          -- the link fails only if the one behind it has failed on the image of the row
          obtain rfl := hrespond answer e herror
          exact ih hdown

end Chain

end RowFlow
