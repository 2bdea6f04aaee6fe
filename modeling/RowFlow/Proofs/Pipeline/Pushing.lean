import RowFlow.Proofs.Chain.Coupled
import RowFlow.Proofs.Chain.Lockstep
import RowFlow.Proofs.Pipeline.Sessions

/-!
# Pushing Rows

A run pushes rows until it has a reason to halt; one that has a reader also halts when a row has
come out (`pushUntil`). Between two rows a run counts and reports. A relation between two runs that
survives this, and rows themselves, survives all pushing (`pushUntil_lockstep`).
-/

namespace RowFlow

variable {α α' σ σ' τ τ' : Type} {options : Options α} {options' : Options α'}

/-! ## Rows that are pushed -/

/-- The session in which one more row of the source has been pulled. -/
def Session.pulled (session : Session α) : Session α :=
  session.count fun c => { c with rowsPulled := c.rowsPulled + 1 }

@[simp]
theorem Session.rowsPulled_pulled (session : Session α) :
    session.pulled.counters.rowsPulled = session.counters.rowsPulled + 1 :=
  rfl

/-- The session in which a run has been asked to stop after it had pulled some rows. -/
def Session.stopped (options : Options α) (pulled : Nat) (session : Session α) : Session α :=
  (session.count fun c => { c with earlyStops := c.earlyStops + 1 }).report options
    (.earlyStop pulled)

section
variable [Consumer (Session α) σ] {width pulled : Nat} {row : Row} {s s' : σ} {w w' : Session α}

theorem pushRow_of_mismatch {e : Error} (h : expectWidth row.values width = .error e) :
    pushRow options width row pulled s w = (.error e, pulled, s, w) := by
  simp only [pushRow, h]

variable (h : row.length = width)
include h

theorem pushRow_of_error {e : Error}
    (hconsume : Consumer.consume row s w.pulled = (.error e, s', w')) :
    pushRow options width row pulled s w = (.error e, pulled + 1, s', w') := by
  have hwidth : expectWidth row.values width = .ok () := expectWidth_eq_ok_iff.2 h
  simp only [pushRow, hwidth]
  rw [show w.count _ = w.pulled from rfl, hconsume]

theorem pushRow_of_more (hconsume : Consumer.consume row s w.pulled = (.ok .more, s', w')) :
    pushRow options width row pulled s w = (.ok .more, pulled + 1, s', w') := by
  have hwidth : expectWidth row.values width = .ok () := expectWidth_eq_ok_iff.2 h
  simp only [pushRow, hwidth]
  rw [show w.count _ = w.pulled from rfl, hconsume]

theorem pushRow_of_stop (hconsume : Consumer.consume row s w.pulled = (.ok .stop, s', w')) :
    pushRow options width row pulled s w =
      (.ok .stop, pulled + 1, s', w'.stopped options (pulled + 1)) := by
  have hwidth : expectWidth row.values width = .ok () := expectWidth_eq_ok_iff.2 h
  simp only [pushRow, hwidth]
  rw [show w.count _ = w.pulled from rfl, hconsume]
  rfl

end

/-! ## Reasons to halt -/

/-- Why a run has stopped pushing rows. -/
inductive Halt where
  /-- the source has ended -/
  | ended
  | failed (error : Error)
  /-- the chain has asked to stop -/
  | stopped
  /-- a row has come out, and the source goes on with some items -/
  | ready (rest : List (Except Error Row))

namespace Halt

/-- Only a failure keeps a run from closing the chain. -/
def result : Halt → Except Error Unit
  | .failed e => .error e
  | _ => .ok ()

/-- Whether the chain has asked to stop. -/
def isStop : Halt → Bool
  | .stopped => true
  | _ => false

end Halt

/-- Pushes rows until they end, the chain asks to stop or a row has come out: the reason, the number
    of rows that the run has pulled by then, the chain and the session. -/
def pushUntil [Consumer (Session α) σ] (options : Options α) (width : Nat) (out : σ → Bool) :
    List (Except Error Row) → Nat → σ → Session α → Halt × Nat × σ × Session α
  | [], pulled, head, session => (.ended, pulled, head, session)
  | .error e :: _, pulled, head, session => (.failed e, pulled, head, session)
  | .ok row :: rest, pulled, head, session =>
    match pushRow options width row pulled head session with
    | (.error e, pulled, head, session) => (.failed e, pulled, head, session)
    | (.ok .stop, pulled, head, session) => (.stopped, pulled, head, session)
    | (.ok .more, pulled, head, session) =>
      if out head then (.ready rest, pulled, head, session)
      else pushUntil options width out rest pulled head session

/-- A run without a reader never waits for a row to come out. -/
theorem pushAll_eq [Consumer (Session α) σ] (width : Nat) (items : List (Except Error Row))
    (pulled : Nat) (head : σ) (session : Session α) :
    pushAll options width items pulled head session =
      match pushUntil options width (fun _ => false) items pulled head session with
      | (halt, _, head, session) => (halt.result, head, session) := by
  induction items generalizing pulled head session with
  | nil => rfl
  | cons item rest ih =>
    cases item with
    | error e => rfl
    | ok row =>
      simp only [pushAll, pushUntil]
      -- nothing comes out, so `more` always goes on
      rcases pushRow options width row pulled head session with ⟨e | _ | _, now, head', session'⟩
      · rfl
      · exact ih now head' session'
      · rfl

/-- A run that waits has brought a row out. -/
theorem pushUntil_ready [Consumer (Session α) σ] {width pulled now : Nat} {out : σ → Bool}
    {items rest : List (Except Error Row)} {s s' : σ} {w w' : Session α}
    (h : pushUntil options width out items pulled s w = (.ready rest, now, s', w')) :
    out s' = true := by
  induction items generalizing pulled s w with
  | nil => cases h
  | cons item items ih =>
    cases item with
    | error e => cases h
    | ok row =>
      simp only [pushUntil] at h
      -- only a row that has been answered with `more` can make the run wait
      rcases hpush : pushRow options width row pulled s w with ⟨e | _ | _, next, s₁, w₁⟩
      all_goals rw [hpush] at h
      · cases h
      · dsimp only at h
        split at h
        · cases h
          assumption
        · exact ih h
      · cases h

/-! ## Runs in lockstep -/

/-- A relation between two consumers in two sessions that survives what a run counts and reports,
    each to its observer. -/
structure Steady (options : Options α) (options' : Options α')
    (D : σ → Session α → σ' → Session α' → Prop) : Prop where
  count {s : σ} {w : Session α} {s' : σ'} {w' : Session α'} {f : Counters → Counters} :
    Counters.Adds f → D s w s' w' → D s (w.count f) s' (w'.count f)
  report {s : σ} {w : Session α} {s' : σ'} {w' : Session α'} (event : Event) :
    D s w s' w' → D s (w.report options event) s' (w'.report options' event)

theorem Chain.steady_alike {R : τ → Session α → τ' → Session α' → Prop}
    (hR : Steady options options' R) (output n input : Nat) :
    Steady options options' (Chain.Alike R output n input) where
  count hf h := h.retie (hR.count hf h.terminal)
  report event h := h.retie (hR.report event h.terminal)

theorem Chain.steady_coupled {π : Type} {R : τ → Session α → τ' → Session α' → Prop}
    (hR : Steady options options' R) (n : Nat) :
    Steady options options' (Chain.Coupled (π := π) R n) where
  count hf h := h.retie (hR.count hf h.terminal)
  report event h := h.retie (hR.report event h.terminal)

section
variable [Consumer (Session α) σ] [Consumer (Session α') σ']
  {D : σ → Session α → σ' → Session α' → Prop} {width : Nat}

/-- A row is answered alike in both runs, and these are related again. -/
theorem pushRow_lockstep (hD : Lockstep (·.length = width) D) (hsteady : Steady options options' D)
    (row : Row) (pulled : Nat) {s : σ} {w : Session α} {s' : σ'} {w' : Session α'}
    (h : D s w s' w') :
    ∃ answer now s₁ w₁ s₁' w₁', pushRow options width row pulled s w = (answer, now, s₁, w₁) ∧
      pushRow options' width row pulled s' w' = (answer, now, s₁', w₁') ∧ D s₁ w₁ s₁' w₁' := by
  simp only [pushRow]
  cases hwidth : expectWidth row.values width with
  | error e => exact ⟨_, _, _, _, _, _, rfl, rfl, h⟩
  | ok _ =>
    -- the row is counted before the chain takes it
    have hcounted := hsteady.count (f := fun c => { c with rowsPulled := c.rowsPulled + 1 })
      ⟨⟨0, 0, 1, 0, 0⟩, fun _ => rfl⟩ h
    dsimp only
    generalize w.count _ = v at hcounted ⊢
    generalize w'.count _ = v' at hcounted ⊢
    obtain ⟨hanswer, hafter⟩ := hD row s v s' v' (expectWidth_eq_ok_iff.1 hwidth) hcounted
    generalize Consumer.consume row s v = step at hanswer hafter ⊢
    generalize Consumer.consume row s' v' = step' at hanswer hafter ⊢
    obtain ⟨answer, s₁, w₁⟩ := step
    obtain ⟨answer', s₁', w₁'⟩ := step'
    obtain rfl : answer = answer' := hanswer
    rcases answer with e | _ | _
    · exact ⟨_, _, _, _, _, _, rfl, rfl, hafter⟩
    · exact ⟨_, _, _, _, _, _, rfl, rfl, hafter⟩
    · -- only a row that stops the run is reported
      refine ⟨_, _, _, _, _, _, rfl, rfl, hsteady.report _ (hsteady.count ?_ hafter)⟩
      exact ⟨⟨0, 0, 0, 0, 1⟩, fun _ => rfl⟩

/-- Both runs push the same rows and halt for the same reason. -/
theorem pushUntil_lockstep (hD : Lockstep (·.length = width) D)
    (hsteady : Steady options options' D)
    (out : σ → Bool) (out' : σ' → Bool)
    (hout : ∀ {s w s' w'}, D s w s' w' → out s = out' s')
    (items : List (Except Error Row)) (pulled : Nat) {s : σ} {w : Session α} {s' : σ'}
    {w' : Session α'} (h : D s w s' w') :
    ∃ halt now s₁ w₁ s₁' w₁',
      pushUntil options width out items pulled s w = (halt, now, s₁, w₁) ∧
      pushUntil options' width out' items pulled s' w' = (halt, now, s₁', w₁') ∧
      D s₁ w₁ s₁' w₁' := by
  induction items generalizing pulled s w s' w' with
  | nil => exact ⟨_, _, _, _, _, _, rfl, rfl, h⟩
  | cons item items ih =>
    cases item with
    | error e => exact ⟨_, _, _, _, _, _, rfl, rfl, h⟩
    | ok row =>
      obtain ⟨answer, now, s₁, w₁, s₁', w₁', hpush, hpush', h₁⟩ :=
        pushRow_lockstep hD hsteady row pulled h
      simp only [pushUntil, hpush, hpush']
      rcases answer with e | _ | _
      · exact ⟨_, _, _, _, _, _, rfl, rfl, h₁⟩
      · dsimp only
        rw [hout h₁]
        split
        · exact ⟨_, _, _, _, _, _, rfl, rfl, h₁⟩
        · exact ih now h₁
      · exact ⟨_, _, _, _, _, _, rfl, rfl, h₁⟩

theorem pushAll_lockstep (hD : Lockstep (·.length = width) D) (hsteady : Steady options options' D)
    (items : List (Except Error Row)) (pulled : Nat) {s : σ} {w : Session α} {s' : σ'}
    {w' : Session α'} (h : D s w s' w') :
    ∃ result s₁ w₁ s₁' w₁', pushAll options width items pulled s w = (result, s₁, w₁) ∧
      pushAll options' width items pulled s' w' = (result, s₁', w₁') ∧ D s₁ w₁ s₁' w₁' := by
  obtain ⟨halt, now, s₁, w₁, s₁', w₁', hpush, hpush', h₁⟩ := pushUntil_lockstep hD hsteady
    (fun _ => false) (fun _ => false) (fun _ => rfl) items pulled h
  simp only [pushAll_eq, hpush, hpush']
  exact ⟨_, _, _, _, _, rfl, rfl, h₁⟩

end

/-! ## Files -/

/-- Two sessions with the same files. -/
def Session.SameFiles {β : Type} (session : Session α) (session' : Session β) : Prop :=
  session.files = session'.files

/-- Collectors look at the files of a session, and at nothing else. -/
theorem parallel_sameFiles (κ : Type) [Consumer Files κ] :
    Parallel (InBoth (τ := Guarded (Metered κ)) (Session.SameFiles (α := α) (β := α'))) where
  consume := by
    rintro row ⟨⟨inner⟩, closed⟩ ⟨files, _, _, _⟩ _ ⟨files', _, _, _⟩ - ⟨rfl, h⟩
    obtain rfl : files = files' := h
    cases closed <;> exact ⟨rfl, rfl, rfl⟩
  close := by
    rintro ⟨⟨inner⟩, closed⟩ ⟨files, _, _, _⟩ _ ⟨files', _, _, _⟩ ⟨rfl, h⟩
    obtain rfl : files = files' := h
    cases closed <;> exact ⟨rfl, rfl, rfl⟩

theorem Chain.parallel_sameFiles {π κ : Type} [Producer π] [Consumer Files κ] (n : Nat) :
    Parallel (InBoth (τ := Chain π (Guarded (Metered κ)) n)
      (Session.SameFiles (α := α) (β := α'))) :=
  parallel_inBoth (RowFlow.parallel_sameFiles κ) n

end RowFlow
