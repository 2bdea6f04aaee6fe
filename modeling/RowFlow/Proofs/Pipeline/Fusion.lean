import RowFlow.Proofs.Expr.Validation
import RowFlow.Proofs.Pipeline.Instantiation
import RowFlow.Proofs.Pipeline.Interchange
import RowFlow.Proofs.Step.Fusion

/-!
# Fused Steps

Two filters are the filter of their conjunction, a deletion is the filter of its negation, and two
limits are the smaller one. In any pipeline the fused step gives the same result as its parts, with
the same counters and files (`Pipeline.fused_alike`). Only the failure of a step that stands behind
a collector differs, since it names the step with its position.
-/

namespace RowFlow

/-! ## Positions in failures -/

/-- Failures that are the same, but that a step behind a collector is named with its position from
    `start` on or from `start'` on. -/
inductive Moved (outlines : List String) (start start' : Nat) : Error → Error → Prop
  | same (e : Error) : Moved outlines start start' e e
  | following {i : Nat} {outline : String} : outlines[i]? = some outline →
    Moved outlines start start' (.schemaMismatch (.afterCollector (start + i) outline))
      (.schemaMismatch (.afterCollector (start' + i) outline))

theorem Moved.cons (outline : String) {outlines : List String} {start start' : Nat} {e e' : Error}
    (h : Moved outlines (start + 1) (start' + 1) e e') :
    Moved (outline :: outlines) start start' e e' := by
  cases h with
  | same => exact .same _
  | following h =>
    rw [Nat.add_right_comm, Nat.add_right_comm start']
    exact .following (i := _ + 1) h

theorem Moved.append {outlines : List String} {start start' : Nat} {e e' : Error}
    (h : Moved outlines start start' e e') (more : List String) :
    Moved (outlines ++ more) start start' e e' := by
  cases h with
  | same => exact .same _
  | following h =>
    obtain ⟨hlength, -⟩ := List.getElem?_eq_some_iff.1 h
    exact .following ((List.getElem?_append_left hlength).trans h)

theorem SameResult.map {β γ : Type} {F G : Error → Error → Prop} {result result' : Except Error β}
    (h : SameResult F result result') (hG : ∀ {e e'}, F e e' → G e e') (f : β → γ) :
    SameResult G (result >>= fun b => pure (f b)) (result' >>= fun b => pure (f b)) := by
  cases h with
  | same => exact .same _
  | failed h => exact .failed (hG h)

section
variable {ι π κ : Type} [StepKind ι π κ]

/-- Only what stands behind a collector fails with its position. -/
theorem assemble_moved (entropy : Entropy) (start start' : Nat) (schema : Schema)
    (steps : List ι) :
    SameResult (Moved (steps.map StepKind.outline) start start')
      (assemble entropy start schema steps : Except Error (Assembly π κ))
      (assemble entropy start' schema steps) := by
  induction steps generalizing entropy start start' schema with
  | nil => exact .same _
  | cons step rest ih =>
    rcases hopen : (StepKind.openOn entropy schema step : Except Error (Opened π κ)) with
      e | ⟨state, output⟩ | state
    · simp only [assemble, hopen]
      exact .same _
    · simp only [assemble, hopen]
      exact (ih _ (start + 1) (start' + 1) output).map (Moved.cons _) _
    · cases rest with
      | nil =>
        simp only [assemble, hopen]
        exact .same _
      | cons next rest =>
        simp only [assemble, hopen]
        exact .failed (.following (i := 1) rfl)

end

/-- What is at fault stays so if there are more steps. -/
theorem StepsFault.append {ι π κ : Type} [StepKind ι π κ] {entropy : Entropy} {position : Nat}
    {schema : Schema} {steps : List ι} {e : Error} (h : StepsFault entropy position schema steps e)
    (more : List ι) : StepsFault entropy position schema (steps ++ more) e := by
  cases h with
  | opening hleads hfail =>
    rw [List.append_assoc]
    exact .opening hleads hfail
  | following hleads hcollector =>
    rw [List.append_assoc]
    exact .following hleads hcollector

/-! ## Prepared predicates -/

namespace Expr

variable {schema : Schema} {p q : Expr} {first second : Evaluator}

theorem exists_prepare_not (hfirst : p.prepare schema = .ok first) :
    ∃ whole, (Expr.not p).prepare schema = .ok whole ∧
      ∀ row, (RowRule.filter first true).apply row = (RowRule.filter whole false).apply row := by
  refine ⟨_, bind_eq_ok_iff.2 ⟨first, hfirst, rfl⟩, RowRule.apply_filter_negation ?_⟩
  refine Evaluator.evalTruth_negation (width_of_prepare hfirst) fun values => ?_
  dsimp only
  cases first.evalTruth values <;> rfl

theorem exists_prepare_pair (hfirst : p.prepare schema = .ok first)
    (hsecond : q.prepare schema = .ok second) :
    ∃ whole, (Expr.all [p, q]).prepare schema = .ok whole ∧
      RowRule.Compose (.filter first false) (.filter second false) (.filter whole false) := by
  have hboth : prepareAll schema [p, q] = .ok [first, second] := by
    rw [prepareAll, prepareAll, hfirst, hsecond]
    rfl
  refine ⟨_, bind_eq_ok_iff.2 ⟨_, hboth, rfl⟩, RowRule.compose_filter ?_⟩
  refine Evaluator.evalTruth_conjunction (width_of_prepare hfirst) fun values => ?_
  dsimp only
  cases Evaluator.decides false values [first, second] <;> rfl

end Expr

/-! ## Fusions -/

/-- Steps that can be fused into one. -/
inductive Fusion where
  | filters (first second : Expr)
  | deletion (predicate : Expr)
  | limits (first second : Nat)

namespace Fusion

/-- The first of the steps. -/
def first : Fusion → Transform
  | .filters p _ => .filter p false
  | .deletion p => .filter p true
  | .limits m _ => .limit m

/-- The steps behind the first one. -/
def others : Fusion → List Transform
  | .filters _ q => [.filter q false]
  | .deletion _ => []
  | .limits _ n => [.limit n]

/-- The fused step. -/
def whole : Fusion → Transform
  | .filters p q => .filter (.all [p, q]) false
  | .deletion p => .filter (.not p) false
  | .limits m n => .limit (min m n)

/-- The steps before fusion. -/
def parts (fusion : Fusion) : List Transform := fusion.first :: fusion.others

section
variable {ι π κ : Type} [StepKind ι π κ]

/-- Failures of a pipeline before and after a fusion at some position. They are the same, but for a
    step that stands behind a collector, which is named with its position and its outline: steps
    behind the fused ones have moved, and the fused step has taken the place of the first one. -/
inductive SameFailure (fusion : Fusion) (position : Nat) (behind : List ι) : Error → Error → Prop
  | moved {e e' : Error} :
    Moved (behind.map StepKind.outline ++ [readerOutline]) (position + fusion.parts.length)
      (position + 1) e e' → SameFailure fusion position behind e e'
  | first : SameFailure fusion position behind
    (.schemaMismatch (.afterCollector position
      (StepKind.outline (StepKind.ofStep (.transform fusion.first) : ι))))
    (.schemaMismatch (.afterCollector position
      (StepKind.outline (StepKind.ofStep (.transform fusion.whole) : ι))))

theorem SameFailure.same {fusion : Fusion} {position : Nat} {behind : List ι} (e : Error) :
    fusion.SameFailure position behind e e :=
  .moved (.same e)

end

end Fusion

section
variable {ι π κ : Type} [StepKind ι π κ] [Producer π] {stage : Stage → π}

/-- A transform of this library is opened as the library opens it. -/
theorem Hosts.assemble_transform [Consumer Files κ] (h : Hosts ι stage) (entropy : Entropy)
    (position : Nat) (schema : Schema) (t : Transform) (rest : List ι) :
    (assemble entropy position schema (StepKind.ofStep (.transform t) :: rest) :
        Except Error (Assembly π κ)) = do
      let (opened, output) ← t.openOn entropy schema
      let behind ← assemble (entropy.drop t.draws) (position + 1) output rest
      return { behind with producers := stage opened :: behind.producers } := by
  simp only [assemble, h.openOn, h.draws, Step.openOn, Step.draws]
  rcases t.openOn entropy schema with e | ⟨opened, output⟩ <;> rfl

variable {F : Error → Error → Prop}

/-- Interchangeable producers in front of what opens alike. -/
theorem SameResult.assembled {G : Error → Error → Prop} (hF : ∀ e, F e e)
    {result result' : Except Error (Assembly π κ)} (h : SameResult G result result')
    (hG : ∀ {e e'}, G e e' → F e e') (front front' : List π)
    (hfront : ∀ behind, Interchangeable (front ++ behind) (front' ++ behind)) :
    AssembledAlike F
      (do
        let behind ← result
        return { behind with producers := front ++ behind.producers })
      (do
        let behind ← result'
        return { behind with producers := front' ++ behind.producers }) := by
  cases h with
  | failed h => exact .failed (hG h)
  | same =>
    cases result with
    | error e => exact .failed (hF e)
    | ok behind => exact .opened _ _ (hfront behind.producers)

theorem AssembledAlike.prepend {result result' : Except Error (Assembly π κ)}
    (h : AssembledAlike F result result') (front : List π) :
    AssembledAlike F
      (do
        let behind ← result
        return { behind with producers := front ++ behind.producers })
      (do
        let behind ← result'
        return { behind with producers := front ++ behind.producers }) := by
  cases h with
  | failed h => exact .failed h
  | opened collector schema h => exact .opened collector schema (h.append_left front)

/-- The parts of a fusion open as the fused step does. -/
theorem Fusion.assembledAlike [Consumer Files κ] (h : Hosts ι stage) (fusion : Fusion)
    (entropy : Entropy) (position : Nat) (schema : Schema) (behind : List ι) :
    AssembledAlike (fusion.SameFailure position behind)
      (assemble entropy position schema
        (fusion.parts.map (fun t => StepKind.ofStep (.transform t)) ++ behind) :
          Except Error (Assembly π κ))
      (assemble entropy position schema (StepKind.ofStep (.transform fusion.whole) :: behind)) := by
  -- the steps behind have moved, and open alike, since neither the parts nor the whole have drawn
  have hbehind : SameResult (Moved (behind.map StepKind.outline) (position + fusion.parts.length)
      (position + 1)) (assemble entropy (position + fusion.parts.length) schema behind :
        Except Error (Assembly π κ)) (assemble entropy (position + 1) schema behind) :=
    assemble_moved _ _ _ schema behind
  have halike := hbehind.assembled (F := fusion.SameFailure position behind) .same
    (fun hF => .moved (hF.append _))
  cases fusion with
  | limits m n =>
    have hopen := halike [stage (.limit m 0), stage (.limit n 0)] [stage (.limit (min m n) 0)]
      (h.interchangeable_limits · m n)
    simp only [Fusion.parts, Fusion.first, Fusion.others, Fusion.whole, List.map_cons, List.map_nil,
      List.cons_append, List.nil_append, h.assemble_transform, Transform.openOn, Transform.draws,
      Entropy.drop_zero, bind_assoc, pure_bind] at hopen ⊢
    exact hopen
  | deletion p =>
    simp only [Fusion.parts, Fusion.first, Fusion.others, Fusion.whole, List.map_cons, List.map_nil,
      List.cons_append, List.nil_append, h.assemble_transform, Transform.openOn, Transform.draws,
      Entropy.drop_zero, bind_assoc, pure_bind] at halike ⊢
    rcases hprep : p.prepare schema with e | evaluator
    -- a negation is prepared exactly if its operand is
    · rw [Expr.prepare, hprep]
      exact .failed (.same e)
    · obtain ⟨whole, hwhole, hrule⟩ := Expr.exists_prepare_not hprep
      rw [hwhole]
      exact halike [_] [_] (h.interchangeable_rule · hrule)
  | filters p q =>
    simp only [Fusion.parts, Fusion.first, Fusion.others, Fusion.whole, List.map_cons, List.map_nil,
      List.cons_append, List.nil_append, h.assemble_transform, Transform.openOn, Transform.draws,
      Entropy.drop_zero, bind_assoc, pure_bind] at halike ⊢
    -- the operands of the conjunction are prepared in the order of the filters
    rcases hfirst : p.prepare schema with e | first
    · rw [Expr.prepare, Expr.prepareAll, hfirst]
      exact .failed (.same e)
    · rcases hsecond : q.prepare schema with e | second
      · rw [Expr.prepare, Expr.prepareAll, Expr.prepareAll, hfirst, hsecond]
        exact .failed (.same e)
      · obtain ⟨whole, hwhole, hrule⟩ := Expr.exists_prepare_pair hfirst hsecond
        rw [hwhole]
        exact halike [stage (.each (.filter first false)), stage (.each (.filter second false))] [_]
          (h.interchangeable_rules · hrule)

/-- The parts of a fusion open as the fused step does, whatever steps stand before them. -/
theorem Fusion.assembledAlike_between [Consumer Files κ] (h : Hosts ι stage) (fusion : Fusion)
    (entropy : Entropy) (position : Nat) (schema : Schema) (before behind : List ι) :
    AssembledAlike (fusion.SameFailure (position + before.length) behind)
      (assemble entropy position schema (before ++
        (fusion.parts.map (fun t => StepKind.ofStep (.transform t)) ++ behind)) :
          Except Error (Assembly π κ))
      (assemble entropy position schema
        (before ++ StepKind.ofStep (.transform fusion.whole) :: behind)) := by
  rcases leads_or_fault entropy position schema before with ⟨reached, hleads⟩ | hends | ⟨e, hfault⟩
  · obtain ⟨states, hstates⟩ := hleads.assemble
    rw [hstates, hstates]
    exact (fusion.assembledAlike h _ (position + before.length) reached behind).prepend states
  · -- the steps stand behind a collector, and the first one of them is at fault
    obtain @⟨front, collector, reached, state, hleads, hcollector⟩ := hends
    have hfault (next : ι) (rest : List ι) :
        (assemble entropy position schema (front ++ collector :: next :: rest) :
          Except Error (Assembly π κ)) = .error (.schemaMismatch (.afterCollector
            (position + (front ++ [collector]).length) (StepKind.outline next))) := by
      rw [List.length_append, ← Nat.add_assoc]
      exact (StepsFault.following hleads hcollector).assemble_eq
    rw [List.append_assoc, List.append_assoc]
    simp only [Fusion.parts, List.map_cons, List.cons_append, List.nil_append, hfault]
    exact .failed .first
  · rw [(hfault.append _).assemble_eq, (hfault.append _).assemble_eq]
    exact .failed (.same e)

end

/-! ## Pipelines -/

namespace Pipeline

/-- **Fused steps are as good as their parts.** In a pipeline over any source, with any steps before
    and behind, a collector at the end or a reader, two filters are replaced by the filter of their
    conjunction, a deletion by the filter of its negation, or two limits by the smaller one. Where
    there are samples without a seed around them, both runs draw from the tape of the session, and
    so alike. Then the result, the answers of the reader, the counters and the files stay the same.
    If the run fails, its error does too, but for a step that stands behind a collector: the error
    names it with its position, which is another one behind the fused step, and with its
    outline. -/
theorem fused_alike {ι π κ α : Type} [StepKind ι π κ] [Producer π] [Consumer Files κ]
    {stage : Stage → π} (h : Hosts ι stage) (fusion : Fusion) (source : Source)
    (before behind : List ι) (options : Options α) (session : Session α) :
    let parts := fusion.parts.map fun t => (StepKind.ofStep (.transform t) : ι)
    let split : Pipeline ι α := ⟨source, before ++ (parts ++ behind), options⟩
    let fused : Pipeline ι α :=
      ⟨source, before ++ StepKind.ofStep (.transform fusion.whole) :: behind, options⟩
    let F := fusion.SameFailure before.length behind
    SameResult F (split.run session).1 (fused.run session).1 ∧
      (split.run session).2.SameButLog (fused.run session).2 ∧
      ReadAlike F (split.iterate session : Except Error (Sigma (RowIterator π α)) × Session α)
        (fused.iterate session) := by
  intro parts split fused F
  have hsteps (entropy : Entropy) (schema : Schema) : AssembledAlike F
      (assemble entropy 0 schema split.steps : Except Error (Assembly π κ))
      (assemble entropy 0 schema fused.steps) := by
    have halike := fusion.assembledAlike_between h entropy 0 schema before behind
    rwa [Nat.zero_add] at halike
  have hw : session.SameButLog session := .refl session
  -- a reader stands behind the last step of either pipeline
  have hreader : F (.schemaMismatch (.afterCollector split.length readerOutline))
      (.schemaMismatch (.afterCollector fused.length readerOutline)) := by
    have hlength : split.length = before.length + fusion.parts.length + behind.length := by
      simp only [length, split, parts, List.length_append, List.length_map, Nat.add_assoc]
    have hlength' : fused.length = before.length + 1 + behind.length := by
      simp only [length, fused, List.length_append, List.length_cons]
      omega
    rw [hlength, hlength']
    exact .moved (.following (by simp))
  have hsame (e : Error) : F e e := .same e
  have hsource : split.source = fused.source := rfl
  obtain ⟨hresult, hsessions⟩ := run_interchanged hsame hsource hsteps hw
  exact ⟨hresult, hsessions, iterate_interchanged hsame hsource hsteps hw hreader⟩

/-- The first two of three numbers are counted, with one limit or with two. -/
theorem two_of_three_counted :
    let numbers : Source := .table ⟨⟨[⟨"n", .int64⟩]⟩, [[.int64 5], [.int64 6], [.int64 7]]⟩
    let counted (limits : List Transform) : Pipeline Step Unit :=
      ⟨numbers, limits.map .transform ++ [.collect .count], .unobserved⟩
    let session : Session Unit := .start .empty ()
    Hosts Step id ∧ ((counted [.limit 3, .limit 2]).run session).1 = .ok (some (.count 2)) ∧
      SameResult ((Fusion.limits 3 2).SameFailure 0 [Step.collect .count])
        ((counted [.limit 3, .limit 2]).run session).1 ((counted [.limit 2]).run session).1 :=
  ⟨Hosts.self, rfl, (fused_alike Hosts.self (.limits 3 2) _ [] [.collect .count] .unobserved
    (.start .empty ())).1⟩

/-- A limit behind a counter fails with its position, which is another one if the limits before the
    counter are fused. -/
theorem misplaced_limit_moves :
    let numbers : Source := .table ⟨⟨[⟨"n", .int64⟩]⟩, [[.int64 5]]⟩
    let misplaced (limits : List Transform) : Pipeline Step Unit :=
      ⟨numbers, limits.map .transform ++ [.collect .count, .transform (.limit 5)], .unobserved⟩
    let outcome (limits : List Transform) := ((misplaced limits).run (.start .empty ())).1
    outcome [.limit 2, .limit 1] =
        .error (.schemaMismatch (.afterCollector 3 (Transform.limit 5).outline)) ∧
      outcome [.limit 1] =
        .error (.schemaMismatch (.afterCollector 2 (Transform.limit 5).outline)) :=
  ⟨rfl, rfl⟩

end Pipeline

end RowFlow
