import RowFlow.Proofs.Stream.Basic

/-!
# Delivering Streams

A stream is delivered to a consumer row by row, until it ends or the consumer asks to stop; then the
consumer is closed. Delivered to a link, a stream has the effect that the stream which its stage
makes of it has on the consumer behind (`RowStream.deliver_link`). The consumer behind is arbitrary:
it may fail, ask to stop and act on its world, so links compose to chains by themselves
(`RowStream.deliver_connect`).
-/

namespace RowFlow

/-! ## Delivery -/

namespace RowStream

variable {ω σ : Type} [Consumer ω σ]

/-- Delivers a stream to a consumer: the result, and the world afterwards. -/
def deliver : RowStream → σ → ω → Except Error (Option Output) × ω
  | .ended, s, w => ((Consumer.close s w).1, (Consumer.close s w).2.2)
  | .failed e, _, w => (.error e, w)
  | .row r rest, s, w => match Consumer.consume r s w with
    | (.error e, _, w) => (.error e, w)
    | (.ok .stop, s, w) => ((Consumer.close s w).1, (Consumer.close s w).2.2)
    | (.ok .more, s, w) => rest.deliver s w

theorem deliver_row_error {r : Row} {rest : RowStream} {s s' : σ} {w w' : ω} {e : Error}
    (h : Consumer.consume r s w = (.error e, s', w')) :
    (RowStream.row r rest).deliver s w = (.error e, w') := by
  simp only [deliver, h]

theorem deliver_row_stop {r : Row} {rest : RowStream} {s s' : σ} {w w' : ω}
    (h : Consumer.consume r s w = (.ok .stop, s', w')) :
    (RowStream.row r rest).deliver s w = RowStream.ended.deliver s' w' := by
  simp only [deliver, h]

theorem deliver_row_more {r : Row} {rest : RowStream} {s s' : σ} {w w' : ω}
    (h : Consumer.consume r s w = (.ok .more, s', w')) :
    (RowStream.row r rest).deliver s w = rest.deliver s' w' := by
  simp only [deliver, h]

/-- A feed of rows and the close after it deliver the stream of these rows. -/
theorem deliver_ofRows (rows : List Row) (s : σ) (w : ω) :
    (ofRows rows).deliver s w =
      match (Feed.ofRows rows).run false s w with
      | (.error e, _, _, w) => (.error e, w)
      | (.ok (), _, s, w) => RowStream.ended.deliver s w := by
  induction rows generalizing s w with
  | nil => rfl
  | cons r rest ih =>
    simp only [ofRows, Feed.ofRows, Feed.run, Bool.false_eq_true, if_false]
    rcases h : Consumer.consume r s w with ⟨_ | _ | _, s', w'⟩
    · exact deliver_row_error h
    · exact (deliver_row_more h).trans (ih s' w')
    · exact deliver_row_stop h

end RowStream

/-! ## Links -/

namespace Link

variable {ω σ : Type} [Consumer ω σ] {stage next : Stage} {row : Row} {answer : Except Error Flow}

theorem consume_of_done (h : stage.handle row = .done (answer, next)) (d : σ) (w : ω) :
    Consumer.consume row (Link.start stage d) w = (answer, Link.start next d, w) := by
  have hhandle : Producer.handle row stage = .done (answer, next) := h
  simp only [Consumer.consume, Link.consume, Link.start, Bool.false_eq_true, if_false, hhandle,
    Feed.run]

/-- A row is passed on, and the answer to it is passed back as it is or changed. -/
theorem consume_of_forward {image : Row} (respond : Except Error Flow → Except Error Flow)
    (h : stage.handle row = .forward image fun answer => .done (respond answer, next))
    {d d' : σ} {w w' : ω} (hd : Consumer.consume image d w = (answer, d', w')) :
    Consumer.consume row (Link.start stage d) w =
      (respond answer, ⟨next, d', false, asksToStop answer⟩, w') := by
  have hhandle : Producer.handle row stage = .forward image fun answer =>
    .done (respond answer, next) := h
  simp only [Consumer.consume, Link.consume, Link.start, Bool.false_eq_true, if_false, hhandle,
    Feed.run, hd]
  rfl

end Link

namespace RowStream

variable {ω σ : Type} [Consumer ω σ]

/-- Nothing is drained from a stage whose consumer has asked to stop. -/
theorem deliver_ended_stopped (stage : Stage) (d : σ) (w : ω) :
    RowStream.ended.deliver (Link.mk stage d false true) w = RowStream.ended.deliver d w :=
  rfl

/-- At the end of a stream the rows held back are delivered. -/
theorem deliver_ended_start {stage : Stage} (rows : List Row) (after : Stage)
    (h : stage.drain = (Feed.ofRows rows).map (·, after)) (d : σ) (w : ω) :
    RowStream.ended.deliver (Link.start stage d) w = (ofRows rows).deliver d w := by
  have hdrain : Producer.drain stage = (Feed.ofRows rows).map (·, after) := h
  rw [deliver_ofRows]
  simp only [deliver, Consumer.close, Link.close, Link.start, Bool.false_eq_true, if_false, hdrain,
    Feed.run_map]
  rcases (Feed.ofRows rows).run false d w with ⟨_ | _, stopped, d', w'⟩ <;> rfl

/-- A row that is passed on as another one, with the answer passed back as it is, is delivered as
    that one, if what follows it is. -/
theorem deliver_row_forward {stage next : Stage} {r image : Row} {rest rest' : RowStream}
    (h : stage.handle r = .forward image fun answer => .done (answer, next))
    (hrest : ∀ (d : σ) (w : ω), rest.deliver (Link.start next d) w = rest'.deliver d w)
    (d : σ) (w : ω) :
    (RowStream.row r rest).deliver (Link.start stage d) w =
      (RowStream.row image rest').deliver d w := by
  rcases hd : Consumer.consume image d w with ⟨e | _ | _, d', w'⟩
  · have hlink := Link.consume_of_forward id h hd
    rw [deliver_row_error hlink, deliver_row_error hd]
  · have hlink := Link.consume_of_forward id h hd
    rw [deliver_row_more hlink, deliver_row_more hd]
    -- `more` comes back through the link, so both go on with what follows
    exact hrest d' w'
  · have hlink := Link.consume_of_forward id h hd
    rw [deliver_row_stop hlink, deliver_row_stop hd]
    exact deliver_ended_stopped _ _ _

/-- A row that is passed on as the last one, whatever is answered to it, ends the stream. -/
theorem deliver_row_last {stage next : Stage} {r : Row} (rest : RowStream)
    (h : stage.handle r = .forward r fun answer => .done (answer.map fun _ => .stop, next))
    (hdrain : next.drain = (Feed.ofRows []).map (·, next)) (d : σ) (w : ω) :
    (RowStream.row r rest).deliver (Link.start stage d) w =
      (RowStream.row r .ended).deliver d w := by
  rcases hd : Consumer.consume r d w with ⟨e | _ | _, d', w'⟩
  · have hlink := Link.consume_of_forward (Except.map fun _ => .stop) h hd
    rw [deliver_row_error hlink, deliver_row_error hd]
  · have hlink := Link.consume_of_forward (Except.map fun _ => .stop) h hd
    rw [deliver_row_stop hlink, deliver_row_more hd]
    exact deliver_ended_start [] next hdrain d' w'
  · have hlink := Link.consume_of_forward (Except.map fun _ => .stop) h hd
    rw [deliver_row_stop hlink, deliver_row_stop hd]
    exact deliver_ended_stopped _ _ _

theorem deliver_each (rule : RowRule) (s : RowStream) (d : σ) (w : ω) :
    s.deliver (Link.start (Stage.each rule) d) w = (s.mapRows rule.apply).deliver d w := by
  induction s generalizing d w with
  | ended => exact deliver_ended_start [] (.each rule) rfl d w
  | failed e => rfl
  | row r rest ih =>
    cases hrule : rule.apply r with
    | error e =>
      have hhandle : (Stage.each rule).handle r = .done (.error e, .each rule) := by
        simp only [Stage.handle, hrule]
      rw [deliver_row_error (Link.consume_of_done hhandle d w), mapRows, hrule]
      rfl
    | ok image =>
      cases image with
      | none =>
        have hhandle : (Stage.each rule).handle r = .done (.ok .more, .each rule) := by
          simp only [Stage.handle, hrule]
        rw [deliver_row_more (Link.consume_of_done hhandle d w), ih, mapRows, hrule]
      | some image =>
        have hhandle : (Stage.each rule).handle r =
            .forward image fun answer => .done (answer, .each rule) := by
          simp only [Stage.handle, hrule]
        rw [mapRows, hrule]
        exact deliver_row_forward hhandle ih d w

theorem deliver_limit (rows seen : Nat) (s : RowStream) (d : σ) (w : ω) :
    s.deliver (Link.start (Stage.limit rows seen) d) w = (s.limit (rows - seen)).deliver d w := by
  -- by induction on the stream: `seen` counts up while the consumer behind goes on
  induction s generalizing seen d w with
  | ended =>
    rw [limit_ended]
    exact deliver_ended_start [] (.limit rows seen) rfl d w
  | failed e =>
    rw [limit_failed]
    rfl
  | row r rest ih =>
    by_cases hfull : rows ≤ seen
    · have hhandle : (Stage.limit rows seen).handle r = .done (.ok .stop, .limit rows seen) := by
        simp only [Stage.handle, if_pos hfull]
      rw [deliver_row_stop (Link.consume_of_done hhandle d w), Nat.sub_eq_zero_of_le hfull]
      exact deliver_ended_start [] (.limit rows seen) rfl d w
    · have hsub : rows - seen = rows - (seen + 1) + 1 := by omega
      rw [hsub, limit_succ_row]
      -- the row fits into the limit, as the last one or with others to follow
      by_cases hlast : seen + 1 = rows
      · have hhandle : (Stage.limit rows seen).handle r = .forward r fun answer =>
            .done (answer.map fun _ => .stop, .limit rows (seen + 1)) := by
          simp only [Stage.handle, if_neg hfull, if_pos hlast]
        rw [if_pos (Nat.sub_eq_zero_of_le (Nat.le_of_eq hlast.symm))]
        exact deliver_row_last rest hhandle rfl d w
      · have hhandle : (Stage.limit rows seen).handle r = .forward r fun answer =>
            .done (answer, .limit rows (seen + 1)) := by
          simp only [Stage.handle, if_neg hfull, if_neg hlast]
        have hmore : rows - (seen + 1) ≠ 0 := by omega
        rw [if_neg hmore]
        exact deliver_row_forward hhandle (ih (seen + 1)) d w

theorem deliver_sample (reservoir : Reservoir KeyStream) (s : RowStream) (d : σ) (w : ω) :
    s.deliver (Link.start (Stage.sample reservoir) d) w =
      (s.rearrange fun rows => (rows.foldl Reservoir.offer reservoir).rows).deliver d w := by
  induction s generalizing reservoir with
  | ended => exact deliver_ended_start _ _ rfl d w
  | failed e => rfl
  | row r rest ih =>
    have hhandle : (Stage.sample reservoir).handle r =
        .done (.ok .more, .sample (reservoir.offer r)) := rfl
    rw [deliver_row_more (Link.consume_of_done hhandle d w), ih, rearrange_row]
    rfl

theorem deliver_sort {width : Nat} (keys : List Nat) (descending : Bool) (held : List Row)
    {s : RowStream} (hs : s.HasWidth width) (d : σ) (w : ω) :
    s.deliver (Link.start (Stage.sort width keys descending held) d) w =
      (s.rearrange fun rows => sortRows keys descending (held ++ rows)).deliver d w := by
  induction s generalizing held with
  | ended =>
    rw [rearrange_ended, List.append_nil]
    exact deliver_ended_start _ _ rfl d w
  | failed e => rfl
  | row r rest ih =>
    have hwidth : expectWidth r.values width = .ok () := expectWidth_eq_ok_iff.2 hs.1
    have hhandle : (Stage.sort width keys descending held).handle r =
        .done (.ok .more, .sort width keys descending (held ++ [r])) := by
      simp only [Stage.handle, hwidth]
    rw [deliver_row_more (Link.consume_of_done hhandle d w), ih (held ++ [r]) hs.2, rearrange_row]
    simp only [List.append_assoc, List.singleton_append]

/-- A link delivers what its stage makes of a stream. -/
theorem deliver_link {input output : Nat} {stage : Stage} (h : stage.Fits input output)
    {s : RowStream} (hs : s.HasWidth input) (d : σ) (w : ω) :
    s.deliver (Link.start stage d) w = (stage.onStream s).deliver d w := by
  cases stage with
  | each rule => exact deliver_each rule s d w
  | limit rows seen => exact deliver_limit rows seen s d w
  | sample reservoir =>
    rw [Stage.onStream_sample]
    exact deliver_sample reservoir s d w
  | sort width keys descending held =>
    obtain ⟨_, rfl, _⟩ := h
    rw [Stage.onStream_sort]
    exact deliver_sort keys descending held hs d w

/-! ## Chains -/

/-- A chain delivers what its stages make of a stream, one after another. -/
theorem deliver_connect {stages : List Stage} {input output : Nat}
    (h : Stage.FitAll stages input output) {s : RowStream} (hs : s.HasWidth input) (terminal : σ)
    (w : ω) :
    s.deliver (Chain.connect stages terminal) w = (s.through stages).deliver terminal w := by
  induction stages generalizing s input with
  | nil => rfl
  | cons stage rest ih =>
    obtain ⟨between, hstage, hrest⟩ := h
    exact (deliver_link hstage hs _ w).trans (ih hrest (hstage.onStream hs))

end RowStream

end RowFlow
