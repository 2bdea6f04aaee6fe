import RowFlow.Proofs.Chain.Contract

/-!
# Rows Released at the Close

Some producers hold rows back until the stream ends: they welcome every row, pass none on, and let
rows out when they are closed. What comes out of them is told in front of an arbitrary consumer
(`Releases`): the rows that it is handed are the first ones of those let out, and all of them unless
it fails or asks to stop.
-/

namespace RowFlow

/-! ## Rows handed over -/

/-- A consumer welcomes what it is asked: it takes a row and wants more, or it is closed. -/
def Call.IsWelcome : Call → Prop
  | .consume _ answer => answer = .ok .more
  | .close _ => True

/-- Calls hand over rows one after another, all of them or those up to the first one that is not
    welcome. -/
structure HandsOver (rows : List Row) (calls : List Call) : Prop where
  isPrefix : calls.filterMap Call.row? <+: rows
  all : (∀ call ∈ calls, call.IsWelcome) → calls.filterMap Call.row? = rows

namespace HandsOver

variable {row : Row} {rows : List Row} {calls : List Call}

theorem nil : HandsOver [] [] := ⟨List.prefix_rfl, fun _ => rfl⟩

theorem more (h : HandsOver rows calls) :
    HandsOver (row :: rows) (.consume row (.ok .more) :: calls) where
  isPrefix := List.cons_prefix_cons.2 ⟨rfl, h.isPrefix⟩
  all hwelcome := congrArg (row :: ·) (h.all (List.forall_mem_cons.1 hwelcome).2)

theorem last {answer : Except Error Flow} (h : answer ≠ .ok .more) (rows : List Row) :
    HandsOver (row :: rows) [.consume row answer] where
  isPrefix := List.cons_prefix_cons.2 ⟨rfl, List.nil_prefix⟩
  all hwelcome := absurd (List.forall_mem_singleton.1 hwelcome) h

/-- A close hands no row over. -/
theorem close (h : HandsOver rows calls) (result : Except Error (Option Output)) :
    HandsOver rows (calls ++ [.close result]) := by
  have hrows : (calls ++ [Call.close result]).filterMap Call.row? = calls.filterMap Call.row? := by
    rw [List.filterMap_append]
    exact List.append_nil _
  refine ⟨hrows ▸ h.isPrefix, fun hwelcome => ?_⟩
  rw [hrows]
  exact h.all fun call hcall => hwelcome call (List.mem_append_left _ hcall)

end HandsOver

section
variable {ω σ : Type} [Consumer ω σ]

/-- A feed of rows hands them over. -/
theorem Feed.run_ofRows_recorded (rows : List Row) (s : Recorded σ) (w : ω) :
    ∃ calls, ((ofRows rows).run false s w).2.2.1.calls = s.calls ++ calls ∧
      HandsOver rows calls := by
  induction rows generalizing s w with
  | nil => exact ⟨[], (List.append_nil _).symm, .nil⟩
  | cons row rest ih =>
    have hcalls := Recorded.calls_consume row s w
    simp only [ofRows, run, Bool.false_eq_true, if_false]
    generalize Consumer.consume row s w = step at hcalls ⊢
    obtain ⟨answer, s', w'⟩ := step
    rcases answer with e | _ | _
    · exact ⟨_, hcalls, .last (by simp) rest⟩
    · obtain ⟨calls, hrest, hover⟩ := ih s' w'
      refine ⟨_, ?_, hover.more⟩
      rw [← List.singleton_append, ← List.append_assoc, ← hcalls]
      exact hrest
    · exact ⟨_, hcalls, .last (by simp) rest⟩

/-! ## Rows held back -/

variable {π : Type} [Producer π] {p p' after : π} {rows out : List Row}

/-- A producer welcomes rows one after another and passes none on, which brings it into another
    state. -/
inductive HoldsBack : π → List Row → π → Prop
  | nil (p : π) : HoldsBack p [] p
  | cons {p next p' : π} {row : Row} {rows : List Row} :
    Producer.handle row p = .done (.ok .more, next) → HoldsBack next rows p' →
    HoldsBack p (row :: rows) p'

/-- Whatever consumer stands behind it, a producer welcomes some rows and passes none on. When it is
    then closed, it hands over the rows `out`, all of them or those up to the first one that the
    consumer does not welcome. -/
def Releases (p : π) (rows out : List Row) : Prop :=
  ∀ {ω σ : Type} [Consumer ω σ] (d : σ) (arrivals : List (Row × ω)) (w : ω),
    arrivals.map Prod.fst = rows →
    let held := serve (arrivals.map fun arrival => .consume arrival.1 arrival.2)
      (Link.start p (Recorded.start d))
    let handed := (Consumer.close held.2 w).2.1.downstream
    (∀ call ∈ held.1, call.IsWelcome) ∧ held.2.downstream.calls = [] ∧
      handed.rows <+: out ∧ ((∀ call ∈ handed.calls, call.IsWelcome) → handed.rows = out)

/-- A link hands nothing on while its producer holds rows back. -/
theorem HoldsBack.serve {arrivals : List (Row × ω)}
    (h : HoldsBack p (arrivals.map Prod.fst) p') (d : σ) :
    RowFlow.serve (arrivals.map fun arrival => .consume arrival.1 arrival.2) (Link.start p d) =
      (arrivals.map fun arrival => .consume arrival.1 (.ok .more), Link.start p' d) := by
  induction arrivals generalizing p with
  | nil => cases h with | nil => rfl
  | cons arrival rest ih =>
    cases h with
    | @cons _ next _ _ _ hhandle hrest =>
      have hput : (Request.consume arrival.1 arrival.2).put (Link.start p d) =
          (.consume arrival.1 (.ok .more), Link.start next d) := by
        simp only [Request.put, Consumer.consume, Link.consume, Link.start, Bool.false_eq_true,
          if_false, hhandle, Feed.run]
      rw [List.map_cons, RowFlow.serve, hput]
      dsimp only
      rw [ih hrest]
      rfl

/-- A drain of rows and the close after it hand the rows over. -/
theorem Link.handsOver_of_drain (hdrain : Producer.drain p = (Feed.ofRows out).map (·, after))
    (d : σ) (w : ω) :
    HandsOver out (Consumer.close (Link.start p (Recorded.start d)) w).2.1.downstream.calls := by
  obtain ⟨calls, hcalls, hover⟩ := Feed.run_ofRows_recorded out (Recorded.start d) w
  simp only [Consumer.close, Link.close, Link.start, Bool.false_eq_true, if_false, hdrain,
    Feed.run_map]
  generalize (Feed.ofRows out).run false (Recorded.start d) w = run at hcalls ⊢
  obtain ⟨drained, stopped, recorded, v⟩ := run
  obtain rfl : recorded.calls = calls := hcalls
  cases drained with
  | error e => exact hover
  | ok _ => exact hover.close _

/-- Rows held back are let out by the drain. -/
theorem HoldsBack.releases (h : HoldsBack p rows p')
    (hdrain : Producer.drain p' = (Feed.ofRows out).map (·, after)) : Releases p rows out := by
  rintro ω σ _ d arrivals w rfl held handed
  have hheld : held = _ := h.serve (Recorded.start d)
  have hover : HandsOver out handed.calls := by
    simp only [handed, hheld]
    exact Link.handsOver_of_drain hdrain d w
  refine ⟨?_, ?_, hover.isPrefix, hover.all⟩
  · rw [hheld]
    intro call hcall
    obtain ⟨arrival, -, rfl⟩ := List.mem_map.1 hcall
    rfl
  · rw [hheld]
    rfl

end

end RowFlow
