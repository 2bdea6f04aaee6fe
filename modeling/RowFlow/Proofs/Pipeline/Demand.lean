import RowFlow.Proofs.Pipeline.Course

/-!
# Rows on Demand

A reader lets the run go on only when it has given all rows that have come out so far
(`RowIterator.onDemand`). What has come out is measured by the run in front of which nobody fetches
anything, cut off after a number of rows of the source.
-/

namespace RowFlow

variable {α : Type}

/-! ## Numbers of pulled rows -/

section
variable {σ : Type} [Consumer (Session α) σ] {options : Options α} {width pulled now : Nat}
  {row : Row} {s s' : σ} {w w' : Session α}

theorem pulled_of_pushRow {answer : Except Error Flow}
    (h : pushRow options width row pulled s w = (answer, now, s', w')) :
    now = pulled ∨ now = pulled + 1 := by
  simp only [pushRow] at h
  split at h
  · exact .inl (Prod.mk.inj (Prod.mk.inj h).2).1.symm
  · split at h <;> exact .inr (Prod.mk.inj (Prod.mk.inj h).2).1.symm

theorem pulled_of_pushRow_ok {flow : Flow}
    (h : pushRow options width row pulled s w = (.ok flow, now, s', w')) : now = pulled + 1 := by
  simp only [pushRow] at h
  split at h
  · cases h
  · split at h <;> exact (Prod.mk.inj (Prod.mk.inj h).2).1.symm

end

namespace RowIterator

variable {n : Nat}

/-! ## The run behind a reader -/

/-- The rows that have come out of the run after some items of the source, if nothing is fetched. -/
def outAfter (it : RowIterator Stage α n) (chain : FetchedChain Stage n) (session : Session α)
    (items : Nat) : List Row :=
  emitted (pushAll it.options it.width (it.items.take items) 0 chain session).2.1

/-- A reader that has given some rows of the run that began with `start`: its chain has let out
    these rows and those that are waiting, and will go on like the chain of this run. -/
def Tracks (start : RowIterator Stage α n) (head : FetchedChain Stage n) (opened : Session α)
    (output : Nat) (it : RowIterator Stage α n) (session : Session α) (given : List Row) : Prop :=
  ∀ chain', it.chain = some chain' → it.options = start.options ∧ it.width = start.width ∧
    emitted chain' = [] ∧ ∃ chain,
      Chain.Alike (Ahead (given ++ it.waiting)) output n start.width chain session chain' session ∧
      ∀ more,
        pushAll start.options start.width (start.items.take (it.pulled + more)) 0 head opened =
          pushAll start.options start.width (it.items.take more) it.pulled chain session

/-- What one question to a reader that has given some rows may do: rows are pulled, and the chain is
    closed, only if nothing else has come out of the run. -/
structure Demanded (start : RowIterator Stage α n) (head : FetchedChain Stage n)
    (opened : Session α) (output : Nat) (it : RowIterator Stage α n) (session : Session α)
    (given : List Row) : Prop where
  pulls (items : Nat) : it.pulled ≤ items → items < (it.next session).2.1.pulled →
    start.outAfter head opened items = given
  closes : it.chain.isSome → (it.next session).2.1.chain = none →
    start.outAfter head opened (it.next session).2.1.pulled = given
  tracks (row : Row) : (it.next session).1 = some (.ok row) →
    Tracks start head opened output (it.next session).2.1 (it.next session).2.2 (given ++ [row])

section
variable {start it : RowIterator Stage α n} {head : FetchedChain Stage n}
  {opened session : Session α} {output : Nat} {given : List Row}

/-- As long as rows are waiting, nothing is pulled. -/
theorem demanded_of_waiting {row : Row} {rest : List Row} (hwaiting : it.waiting = row :: rest)
    (h : Tracks start head opened output it session given) :
    Demanded start head opened output it session given := by
  have hnext : it.next session = (some (.ok row), { it with waiting := rest }, session) := by
    simp only [next, giveWaiting, hwaiting]
  refine ⟨fun items hle hlt => ?_, fun hsome hnone => ?_, fun row' hrow => ?_⟩
  · rw [hnext] at hlt
    exact absurd hlt (Nat.not_lt_of_le hle)
  · rw [hnext] at hnone
    exact absurd hnone (Option.isSome_iff_ne_none.1 hsome)
  · rw [hnext] at hrow ⊢
    obtain rfl := Except.ok.inj (Option.some.inj hrow)
    intro chain' hsome
    obtain ⟨hoptions, hwidth, hfetched, chain, halike, hpush⟩ := h chain' hsome
    rw [hwaiting] at halike
    refine ⟨hoptions, hwidth, hfetched, chain, ?_, hpush⟩
    rwa [List.append_assoc]

/-- What has come out of the run up to now has been given, if nothing is waiting. -/
theorem Tracks.outAfter {chain' : FetchedChain Stage n} (hchain : it.chain = some chain')
    (hwaiting : it.waiting = []) (h : Tracks start head opened output it session given) :
    start.outAfter head opened it.pulled = given := by
  obtain ⟨-, -, hfetched, chain, halike, hpush⟩ := h chain' hchain
  have hgiven := emitted_of_ahead halike
  -- no items of the source beyond the pulled ones
  have hnow := hpush 0
  rw [Nat.add_zero, List.take_zero, pushAll] at hnow
  rw [RowIterator.outAfter, hnow, hgiven, hfetched, hwaiting, List.append_nil, List.append_nil]

theorem demanded_of_spent (hwaiting : it.waiting = []) (hchain : it.chain = none) :
    Demanded start head opened output it session given := by
  have hnext : it.next session = (none, it, session) := by
    simp only [next, giveWaiting, hwaiting, hchain]
  refine ⟨fun items hle hlt => ?_, fun hsome => ?_, fun row hrow => ?_⟩
  · rw [hnext] at hlt
    exact absurd hlt (Nat.not_lt_of_le hle)
  · rw [hchain] at hsome
    cases hsome
  · rw [hnext] at hrow
    cases hrow

/-- A question that ends the run. The rows pulled meanwhile, if any, have brought nothing out. -/
theorem demanded_of_end {answer : Option (Except Error Row)} {it' : RowIterator Stage α n}
    {session' : Session α} (hnext : it.next session = (answer, it', session'))
    (hchain : it'.chain = none)
    (hout : ∀ items, it.pulled ≤ items → items ≤ it'.pulled →
      start.outAfter head opened items = given)
    (hle : it.pulled ≤ it'.pulled) : Demanded start head opened output it session given := by
  refine ⟨fun items hitems hlt => ?_, fun _ _ => ?_, fun row hrow => ?_⟩
  · rw [hnext] at hlt
    exact hout items hitems (Nat.le_of_lt hlt)
  · rw [hnext]
    exact hout _ hle (Nat.le_refl _)
  · rw [hnext]
    intro chain' hsome
    rw [hchain] at hsome
    cases hsome

/-- A question that goes on behind a pushed row, which must have been demanded. -/
theorem demanded_of_step {next : RowIterator Stage α n} {after : Session α}
    (hnext : it.next session = next.next after) (hchain : next.chain.isSome)
    (hpulled : next.pulled = it.pulled + 1) (hout : start.outAfter head opened it.pulled = given)
    (h : Demanded start head opened output next after given) :
    Demanded start head opened output it session given := by
  refine ⟨fun items hle hlt => ?_, fun _ hnone => ?_, fun row hrow => ?_⟩
  · rw [hnext] at hlt
    -- the pushed row was demanded, and the next reader answers for the rows after it
    rcases Nat.eq_or_lt_of_le hle with rfl | hlt'
    · exact hout
    · exact h.pulls items (hpulled ▸ hlt') hlt
  · rw [hnext] at hnone ⊢
    exact h.closes hchain hnone
  · rw [hnext] at hrow ⊢
    exact h.tracks row hrow

end

section
variable {start : RowIterator Stage α n} {head : FetchedChain Stage n} {opened session : Session α}
  {output : Nat} {given : List Row} {options : Options α} {width pulled : Nat}

/-- Once the source has ended, a question closes the chain and pulls nothing. -/
theorem demanded_of_ended {chain? : Option (FetchedChain Stage n)} {waiting : List Row}
    (h : Tracks start head opened output (RowIterator.mk options width [] chain? pulled waiting)
      session given) :
    Demanded start head opened output (RowIterator.mk options width [] chain? pulled waiting)
      session given := by
  cases waiting with
  | cons row rest => exact demanded_of_waiting rfl h
  | nil =>
    cases chain? with
    | none => exact demanded_of_spent rfl rfl
    | some chain' =>
      have hnow := h.outAfter rfl rfl
      -- whatever closing the chain brings out, no chain is left afterwards
      obtain ⟨answer, rest, session', hnext⟩ :
          ∃ answer rest session', (RowIterator.mk options width [] (some chain') pulled []).next
            session = (answer, RowIterator.mk options width [] none pulled rest, session') := by
        rw [next_closing]
        rcases Chain.closing n chain' session with ⟨e | _, terminal, after⟩
        · exact ⟨_, _, _, rfl⟩
        · dsimp only
          cases terminal.inner.inner.rows with
          | nil => exact ⟨_, _, _, rfl⟩
          | cons row rest => exact ⟨_, _, _, rfl⟩
      refine demanded_of_end hnext rfl (fun items hle hle' => ?_) (Nat.le_refl _)
      rw [Nat.le_antisymm hle' hle]
      exact hnow

/-- A reader keeps track of the run when it fetches what a row has brought out. -/
theorem tracks_of_push {rest : List (Except Error Row)} {chain chain' : FetchedChain Stage n}
    (h : Chain.Alike (Ahead given) output n start.width chain session chain' session)
    (hpush : ∀ more, pushAll start.options start.width (start.items.take (pulled + (more + 1))) 0
        head opened =
      pushAll start.options start.width (rest.take more) (pulled + 1) chain session) :
    Tracks start head opened output
      (RowIterator.mk start.options start.width rest (some (fetched chain')) (pulled + 1)
        (emitted chain')) session given := by
  intro _ hsome
  obtain rfl := Option.some.inj hsome
  refine ⟨rfl, rfl, emitted_fetched chain', chain, ahead_fetched h, fun more => ?_⟩
  rw [Nat.add_assoc, Nat.add_comm 1 more]
  exact hpush more

/-- A question that pushes a row on which the run fails. Counted or not, the row has not come
    out. -/
theorem demanded_of_push_error {row : Row} {e : Error} {now : Nat} {session' : Session α}
    {chain chain' : FetchedChain Stage n} (items : List (Except Error Row))
    (h : pushRow options width row pulled chain session = (.error e, now, chain', session'))
    (hnow : start.outAfter head opened pulled = given)
    (hthen : start.outAfter head opened (pulled + 1) = given) :
    Demanded start head opened output
      (RowIterator.mk options width (.ok row :: items) (some chain) pulled []) session given := by
  refine demanded_of_end (next_of_error items h) rfl (fun count hle hle' => ?_) ?_
  · -- between the rows counted before and those counted now there is at most this one
    rcases pulled_of_pushRow h with rfl | rfl
    · rw [Nat.le_antisymm hle' hle]
      exact hnow
    · rcases Nat.eq_or_lt_of_le hle with rfl | hlt
      · exact hnow
      · rw [Nat.le_antisymm hle' hlt]
        exact hthen
  · rcases pulled_of_pushRow h with rfl | rfl
    · exact Nat.le_refl _
    · exact Nat.le_succ _

/-- Whatever a question to a reader does is demanded. -/
theorem demanded {items : List (Except Error Row)} {chain? : Option (FetchedChain Stage n)}
    {waiting : List Row}
    (h : Tracks start head opened output (RowIterator.mk options width items chain? pulled waiting)
      session given) :
    Demanded start head opened output (RowIterator.mk options width items chain? pulled waiting)
      session given := by
  induction items generalizing chain? pulled waiting session with
  | nil => exact demanded_of_ended h
  | cons item items ih =>
    cases waiting with
    | cons row rest => exact demanded_of_waiting rfl h
    | nil =>
      cases chain? with
      | none => exact demanded_of_spent rfl rfl
      | some chain' =>
        have hnow := h.outAfter rfl rfl
        obtain ⟨hoptions, hwidth, hfetched, chain, halike, hpush⟩ := h chain' rfl
        dsimp only at hoptions hwidth hnow hpush halike
        subst hoptions hwidth
        rw [List.append_nil] at halike
        cases item with
        | error e =>
          refine demanded_of_end rfl rfl (fun items hle hle' => ?_) (Nat.le_refl _)
          rw [Nat.le_antisymm hle' hle]
          exact hnow
        | ok row =>
          obtain ⟨answer, now, chain₁, session₁, chain₁', session₁', hrow, hrow', h₁⟩ :=
            pushRow_lockstep (Chain.lockstep_alike (lockstep_ahead _ _) n start.width)
              (Chain.steady_alike (steady_ahead start.options _) output n start.width) row pulled
              halike
          obtain rfl : session₁ = session₁' := h₁.terminal.1
          rcases answer with e | _ | _
          · have hafter := hpush 1
            rw [List.take_succ_cons, pushAll, hrow] at hafter
            have hsame : emitted chain₁ = given := by
              rw [emitted_of_pushRow_error hrow, emitted_of_ahead halike, hfetched, List.append_nil]
            refine demanded_of_push_error items hrow' hnow ?_
            rw [RowIterator.outAfter, hafter]
            exact hsame
          -- a row that brings nothing out only delays the question to the next one
          · obtain rfl := pulled_of_pushRow_ok hrow
            refine demanded_of_step (next_of_more items hrow') rfl rfl hnow (ih ?_)
            refine tracks_of_push h₁ fun more => ?_
            have hafter := hpush (more + 1)
            rw [List.take_succ_cons, pushAll, hrow] at hafter
            exact hafter
          -- after a request to stop the rest of the source does not matter
          · obtain rfl := pulled_of_pushRow_ok hrow
            refine demanded_of_step (next_of_stop items hrow') rfl rfl hnow (demanded_of_ended ?_)
            refine tracks_of_push h₁ fun more => ?_
            have hafter := hpush (more + 1)
            rw [List.take_succ_cons, pushAll, hrow] at hafter
            rw [List.take_nil]
            exact hafter

end

/-! ## All questions -/

/-- Any number of rows given by a reader are tracked. -/
theorem Tracks.ask {start it : RowIterator Stage α n} {head : FetchedChain Stage n}
    {opened session : Session α} {output : Nat} {given : List Row}
    (h : Tracks start head opened output it session given) {k : Nat} {returned : List Row}
    (hk : (it.ask k session).1 = returned.map (some ∘ .ok)) :
    Tracks start head opened output (it.ask k session).2.1 (it.ask k session).2.2
      (given ++ returned) := by
  induction k generalizing it session given returned with
  | zero =>
    obtain rfl := List.map_eq_nil_iff.1 hk.symm
    rwa [List.append_nil]
  | succ k ih =>
    rcases hnext : it.next session with ⟨answer, it', session'⟩
    rw [ask_succ hnext] at hk ⊢
    obtain ⟨row, rest, rfl, hanswer, hrest⟩ := List.map_eq_cons_iff.1 hk.symm
    -- each row given leaves a reader that tracks the run with this row
    have hrow := (demanded h).tracks row (by rw [hnext]; exact hanswer.symm)
    rw [hnext] at hrow
    have hall := ih hrow hrest.symm
    rwa [List.append_assoc] at hall

end RowIterator

end RowFlow
