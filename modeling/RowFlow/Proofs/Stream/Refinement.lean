import RowFlow.Proofs.Pipeline.Ends
import RowFlow.Proofs.Pipeline.Pushing
import RowFlow.Proofs.Stream.Delivery

/-!
# Collected Rows Are the Rows of the Stream

A run that collects rows pushes the items of the source into a chain of links, counts and reports on
the way, and closes the chain. It gives what the composition of the stages makes of the stream of
these items. Counting and reporting change nothing; a run is the delivery of a stream to a chain
(`pushAll_close_eq_deliver`); and a chain delivers what its stages make of the stream.
-/

namespace RowFlow

variable {α : Type}

section
variable {width : Nat} {state : List Row → Collector} {output : List Row → Output}

/-! ## Delivery to a collector -/

namespace RowStream

/-- A collector gives its output of the rows that it has taken in and the rows of the stream. -/
theorem deliver_gathering (h : Gathers width state output) {s : RowStream} (hs : s.HasWidth width)
    (held : List Row) (session : Session α) :
    (s.deliver (Guarded.start (Metered.mk (state held))) session).1 =
      s.result.map fun rows => some (output (held ++ rows)) := by
  induction s generalizing held session with
  | ended =>
    simp only [deliver, h.close_end, result, Except.map, List.append_nil]
  | failed e => rfl
  | row r rest ih =>
    rw [deliver_row_more (h.consume_end held hs.1 session), ih hs.2, result]
    cases rest.result with
    | error e => rfl
    | ok rows =>
      simp only [bind, Except.bind, pure, Except.pure, Except.map, List.append_assoc,
        List.singleton_append]

theorem deliver_rowsEnd {s : RowStream} (hs : s.HasWidth width) (held : List Row)
    (session : Session α) :
    (s.deliver (rowsEnd width held) session).1 =
      s.result.map fun rows => some (Output.rows (held ++ rows)) :=
  deliver_gathering (gathers_rows width) hs held session

end RowStream

/-! ## Runs -/

section
variable {σ : Type} [Consumer (Session α) σ]

/-- A run delivers the items of the source, as a stream, to a consumer that looks at the files
    only. -/
theorem pushAll_close_eq_deliver
    (hσ : Parallel (InBoth (τ := σ) (Session.SameFiles (α := α) (β := α)))) (options : Options α)
    (input : Nat) (items : List (Except Error Row)) (s : σ) {session session' : Session α}
    (hfiles : session.SameFiles session') (pulled : Nat) :
    let run : Except Error (Option Output) × Session α :=
      match pushAll options input items pulled s session with
      | (.error e, _, session) => (.error e, session)
      | (.ok (), s, session) => ((Consumer.close s session).1, (Consumer.close s session).2.2)
    let delivery := (RowStream.ofItems input items).deliver s session'
    run.1 = delivery.1 ∧ run.2.SameFiles delivery.2 := by
  induction items generalizing s session session' pulled with
  | nil =>
    obtain ⟨hresult, -, hafter⟩ := hσ.close ⟨rfl, hfiles⟩
    exact ⟨hresult, hafter⟩
  | cons item items ih =>
    cases item with
    | error e => exact ⟨rfl, hfiles⟩
    | ok r =>
      simp only [pushAll, RowStream.ofItems]
      cases hwidth : expectWidth r.values input with
      | error e =>
        rw [pushRow_of_mismatch hwidth, RowStream.deliver]
        exact ⟨rfl, hfiles⟩
      | ok _ =>
        have hrow : r.length = input := expectWidth_eq_ok_iff.1 hwidth
        -- the run has counted the row before the consumer takes it, and the files are the same
        obtain ⟨hanswer, hstate, hafter⟩ :=
          hσ.consume r s session.pulled s session' trivial ⟨rfl, hfiles⟩
        rcases hstep : Consumer.consume r s session.pulled with ⟨answer, d, w⟩
        rcases hstep' : Consumer.consume r s session' with ⟨answer', d', w'⟩
        rw [hstep, hstep'] at hanswer hstate hafter
        obtain rfl : answer = answer' := hanswer
        obtain rfl : d = d' := hstate
        rcases answer with e | _ | _
        · rw [pushRow_of_error hrow hstep, RowStream.deliver_row_error hstep']
          exact ⟨rfl, hafter⟩
        · rw [pushRow_of_more hrow hstep, RowStream.deliver_row_more hstep']
          exact ih d hafter (pulled + 1)
        · rw [pushRow_of_stop hrow hstep, RowStream.deliver_row_stop hstep']
          have hstopped : (Session.stopped options (pulled + 1) w).SameFiles w' := by
            rw [Session.SameFiles, Session.stopped, Session.files_report]
            exact hafter
          obtain ⟨hresult, -, hclosed⟩ := hσ.close ⟨rfl, hstopped⟩
          exact ⟨hresult, hclosed⟩

/-- Counting and reporting change neither what a chain in front of a collector gives nor the
    files. -/
theorem pushAndClose_deliver {π κ : Type} [Producer π] [Consumer Files κ] {n : Nat}
    (options : Options α) (input : Nat) (items : List (Except Error Row))
    (c : Chain π (Guarded (Metered κ)) n) {session session' : Session α}
    (hfiles : session.SameFiles session') :
    (pushAndClose options input items c session).1 =
        ((RowStream.ofItems input items).deliver c session').1 ∧
      (pushAndClose options input items c session).2.SameFiles
        ((RowStream.ofItems input items).deliver c session').2 := by
  have hrun := pushAll_close_eq_deliver (Chain.parallel_sameFiles n) options input items c hfiles 0
  rw [pushAndClose]
  rcases hpush : pushAll options input items 0 c session with ⟨e | _, c, w⟩
  · simpa only [hpush] using hrun
  · simpa only [hpush] using hrun

theorem pushAndClose_eq_deliver {π κ : Type} [Producer π] [Consumer Files κ] {n : Nat}
    (options : Options α) (input : Nat) (items : List (Except Error Row))
    (c : Chain π (Guarded (Metered κ)) n) {session session' : Session α}
    (hfiles : session.SameFiles session') :
    (pushAndClose options input items c session).1 =
      ((RowStream.ofItems input items).deliver c session').1 :=
  (pushAndClose_deliver options input items c hfiles).1

end

end

/-! ## Pipelines -/

namespace Pipeline

/-- Collecting the rows of a pipeline of transforms gives the rows of its stream, or the error that
    keeps it from opening or ends the stream. -/
theorem collectRows_eq_streamed (source : Source) (ts : List Transform) (options : Options α)
    (session : Session α) :
    ((ofTransforms source ts options).collectRows session).1 =
      (ofTransforms source ts options).streamed session := by
  rw [collectRows_eq, streamed]
  rcases hlaunch : (ofTransforms source ts options).launch session.fresh
    (session.startRun options) with ⟨e | launch, opened⟩
  · rw [opening_of_launch hlaunch]
    rfl
  · rw [opening_of_launch hlaunch]
    have hfit := fitAll_of_launch hlaunch
    have hrows := RowStream.hasWidth_ofItems launch.width launch.items
    dsimp only [bind, Except.bind]
    -- the run delivers the items to the chain, and the chain what its stages make of them
    rw [pushAndClose_eq_deliver _ _ _ _ rfl, Launch.collecting,
      RowStream.deliver_connect hfit hrows,
      RowStream.deliver_rowsEnd (Stage.FitAll.through hfit hrows)]
    cases ((RowStream.ofItems launch.width launch.items).through launch.stages).result <;> rfl

/-- Four jumps with their scores. -/
def jumps : Table :=
  ⟨⟨[⟨"score", .int64⟩]⟩, [[.int64 3], [.int64 9], [.int64 4], [.int64 9]]⟩

-- the third of the sorted jumps draws the first place, and the last one a place beyond the sample
example :
    let session : Session Unit :=
      { Session.start .empty () with entropy := fun _ => ⟨fun _ => ⟨[], 0, [0, 0x90000000]⟩⟩ }
    let pipeline : Pipeline Step Unit :=
      ofTransforms (.table jumps) [.sort [.name "score"] true, .sample 2 none] .unobserved
    let rows : List Row := [⟨3, [.int64 9]⟩, ⟨2, [.int64 4]⟩]
    ((pipeline.collectRows session).1, pipeline.streamed session) = (.ok rows, .ok rows) := by
  cbv

end Pipeline

end RowFlow
