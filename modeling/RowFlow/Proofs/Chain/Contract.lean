import RowFlow.Proofs.Chain.Calls
import RowFlow.Proofs.Step.Failures

/-!
# Contracts Along a Chain

A consumer honours a contract if, as long as it is handed rows of one kind, it fails with errors of
one kind and gives results of one kind only. A link honours the contract of the consumer behind it,
for rows that its producer makes acceptable there. So a chain of stages honours the contract of its
terminal consumer for rows of the width of its input schema (`Chain.honours`), and the rows that its
links hand on have the widths of the schemas between them (`WatchedChain.passedOn_serve`).
-/

namespace RowFlow

/-! ## Errors -/

/-- Something does not fit: columns, steps, or the width of a row. -/
def Error.IsMismatch : Error → Prop
  | .schemaMismatch _ => True
  | _ => False

/-- An error that, if it is a mismatch, is one of `F`. -/
def Error.Within (F : Error → Prop) (e : Error) : Prop := e.IsMismatch → F e

/-- An error of evaluation is no mismatch. -/
theorem Error.IsEvaluation.within {F : Error → Prop} {e : Error} (h : e.IsEvaluation) :
    e.Within F := by
  cases e with
  | evaluation cause => exact False.elim
  | _ => exact h.elim

/-! ## Feeds that run into errors -/

namespace Feed

variable {α β ω σ : Type} {E : Error → Prop}

/-- If rows are answered with errors of `E` only, a feed ends with results of `R` only. -/
def Ends (E : Error → Prop) (R : α → Prop) : Feed α → Prop
  | .done result => R result
  | .forward _ next => ∀ answer, FailsWith E answer → (next answer).Ends E R

/-- Mapping a result maps what a feed ends with. -/
theorem Ends.map {R : β → Prop} {f : α → β} {feed : Feed α} (h : feed.Ends E fun a => R (f a)) :
    (feed.map f).Ends E R := by
  induction feed with
  | done result => exact h
  | forward row next ih => exact fun answer hanswer => ih answer (h answer hanswer)

/-- Forwarding rows ends in the errors that they are answered with. -/
theorem ends_ofRows (rows : List Row) : (ofRows rows).Ends E (FailsWith E) := by
  induction rows with
  | nil => exact .ok ()
  | cons row rest ih =>
    intro answer hanswer
    -- an error is passed back, a request to stop ends the feed, and otherwise the next row follows
    match answer with
    | .error e => exact .error (hanswer e rfl)
    | .ok .stop => exact .ok ()
    | .ok .more => exact ih

/-- A feed that ends in one way ends in a wider one. -/
theorem Ends.imp {R R' : α → Prop} {feed : Feed α} (h : feed.Ends E R) (hR : ∀ a, R a → R' a) :
    feed.Ends E R' := by
  induction feed with
  | done result => exact hR result h
  | forward row next ih => exact fun answer hanswer => ih answer (h answer hanswer)

/-- A feed ends with what it ends with whatever the answers are. -/
theorem Ends.and_sends {P : Row → Prop} {Q R : α → Prop} {feed : Feed α} (h : feed.Ends E R)
    (hsends : feed.Sends P Q) : feed.Ends E fun a => R a ∧ Q a := by
  induction feed with
  | done result => exact ⟨h, hsends⟩
  | forward row next ih =>
    exact fun answer hanswer => ih answer (h answer hanswer) (hsends.2 answer)

/-- In front of a consumer that fails with errors of `E` only on the rows that a feed forwards, the
    feed ends as it should, and the consumer stays in its states. -/
theorem run_within [Consumer ω σ] {P : Row → Prop} {I : σ → Prop}
    (hstep : ∀ (row : Row) (s : σ) (w : ω), P row → I s →
      FailsWith E (Consumer.consume row s w).1 ∧ I (Consumer.consume row s w).2.1)
    {Q R : α → Prop} {feed : Feed α} (hsends : feed.Sends P Q) (hends : feed.Ends E R)
    (stopped : Bool) {s : σ} (w : ω) (h : I s) :
    R (feed.run stopped s w).1 ∧ I (feed.run stopped s w).2.2.1 := by
  -- the feed goes on with each answer, in front of a consumer in another state
  induction feed generalizing stopped s w with
  | done result => exact ⟨hends, h⟩
  | forward row next ih =>
    cases stopped with
    -- once the consumer has stopped, rows are answered in its place
    | true => exact ih _ (hsends.2 _) (hends _ (.ok _)) true w h
    | false =>
      obtain ⟨hanswer, hnext⟩ := hstep row s w hsends.1 h
      exact ih _ (hsends.2 _) (hends _ hanswer) _ _ hnext

end Feed

/-! ## Contracts -/

/-- Consumers in states `I`, if they are handed rows with `P` only, have no mismatches but those of
    `F`, give results with `O`, and stay in such states, whatever the world is. -/
structure Honours (ω : Type) {σ : Type} [Consumer ω σ] (P : Row → Prop) (F : Error → Prop)
    (O : Option Output → Prop) (I : σ → Prop) : Prop where
  consume : ∀ (row : Row) (s : σ) (w : ω), P row → I s →
    FailsWith (Error.Within F) (Consumer.consume row s w).1 ∧ I (Consumer.consume row s w).2.1
  close : ∀ (s : σ) (w : ω), I s →
    FailsWith (Error.Within F) (Consumer.close s w).1 ∧
      (∀ output, (Consumer.close s w).1 = .ok output → O output) ∧ I (Consumer.close s w).2.1

/-- Producers in states `J`, if they are handed rows with `P` only, pass on rows with `Q`, have no
    mismatches but those of `F` and those of the consumer behind them, and stay in such states. -/
structure Supplies {π : Type} [Producer π] (P Q : Row → Prop) (F : Error → Prop) (J : π → Prop) :
    Prop where
  handle : ∀ (row : Row) (p : π), P row → J p →
    (Producer.handle row p).Sends Q (fun _ => True) ∧
      (Producer.handle row p).Ends (Error.Within F) fun r =>
        FailsWith (Error.Within F) r.1 ∧ J r.2
  drain : ∀ p : π, J p →
    (Producer.drain p).Sends Q (fun _ => True) ∧
      (Producer.drain p).Ends (Error.Within F) fun r => FailsWith (Error.Within F) r.1 ∧ J r.2

section
variable {ω σ π : Type} [Consumer ω σ] [Producer π] {P Q : Row → Prop} {F : Error → Prop}
  {O : Option Output → Prop} {I : σ → Prop} {J : π → Prop}

/-- No consumer is in an impossible state. -/
theorem Honours.impossible : Honours ω P F O fun _ : σ => False :=
  ⟨fun _ _ _ _ h => h.elim, fun _ _ h => h.elim⟩

/-! ## Requests -/

/-- The row that a request hands over, if any, has the property `P`. -/
def Request.Hands (P : Row → Prop) : Request ω → Prop
  | .consume row _ => P row
  | .close _ => True

/-- A call that is answered with no mismatch but those of `F`. -/
def Call.Within (F : Error → Prop) : Call → Prop
  | .consume _ answer => FailsWith (Error.Within F) answer
  | .close result => FailsWith (Error.Within F) result

/-- A call that is answered with a mismatch. -/
def Call.IsMismatch : Call → Prop
  | .consume _ (.error e) | .close (.error e) => e.IsMismatch
  | _ => False

/-- A call within the contract without mismatches is none. -/
theorem Call.Within.not_isMismatch {call : Call} (h : call.Within fun _ => False) :
    ¬ call.IsMismatch := by
  match call with
  | .consume _ (.error e) | .close (.error e) => exact fun he => h e rfl he
  | .consume _ (.ok _) | .close (.ok _) => exact id

/-- One request is answered within the contract. -/
theorem Honours.put (h : Honours ω P F O I) {request : Request ω} (hrequest : request.Hands P)
    {s : σ} (hs : I s) : (request.put s).1.Within F ∧ I (request.put s).2 := by
  cases request with
  | consume row world => exact h.consume row s world hrequest hs
  | close world =>
    obtain ⟨hfails, -, hafter⟩ := h.close s world hs
    exact ⟨hfails, hafter⟩

/-- Any number of requests are answered within a contract. -/
theorem Honours.serve (h : Honours ω P F O I) {requests : List (Request ω)}
    (hrequests : ∀ request ∈ requests, request.Hands P) {s : σ} (hs : I s) :
    (∀ call ∈ (RowFlow.serve requests s).1, call.Within F) ∧ I (RowFlow.serve requests s).2 := by
  induction requests generalizing s with
  | nil => exact ⟨nofun, hs⟩
  | cons request rest ih =>
    obtain ⟨hrequest, hrest⟩ := List.forall_mem_cons.1 hrequests
    obtain ⟨hcall, hafter⟩ := h.put hrequest hs
    -- the consumer is still in its states, so the rest is answered alike
    obtain ⟨hcalls, hend⟩ := ih hrest hafter
    exact ⟨List.forall_mem_cons.2 ⟨hcall, hcalls⟩, hend⟩

/-! ## Links -/

/-- A link honours the contract of the consumer that its producer supplies. -/
theorem Honours.link (hπ : Supplies P Q F J) (h : Honours ω Q F O I) :
    Honours ω P F O fun link : Link π σ => J link.producer ∧ I link.downstream where
  consume row link w hrow hlink := by
    obtain ⟨producer, down, closed, stopped⟩ := link
    cases closed with
    -- a closed link refuses the row, which is a misuse but no mismatch
    | true => exact ⟨.error False.elim, hlink⟩
    | false =>
      cases stopped with
      -- a link that has stopped drops the row
      | true => exact ⟨.ok _, hlink⟩
      | false =>
        obtain ⟨hsends, hends⟩ := hπ.handle row producer hrow hlink.1
        obtain ⟨⟨hanswer, hproducer⟩, hdown⟩ :=
          Feed.run_within h.consume hsends hends false w hlink.2
        exact ⟨hanswer, hproducer, hdown⟩
  close link w hlink := by
    obtain ⟨producer, down, closed, stopped⟩ := link
    cases closed with
    | true =>
      refine ⟨.error False.elim, fun output houtput => ?_, hlink⟩
      cases houtput
    | false =>
      cases stopped with
      | true =>
        -- nothing is drained any more, but the consumer behind is still closed
        obtain ⟨hfails, houtput, hdown⟩ := h.close down w hlink.2
        exact ⟨hfails, houtput, hlink.1, hdown⟩
      | false =>
        obtain ⟨hsends, hends⟩ := hπ.drain producer hlink.1
        obtain ⟨⟨hdrained, hproducer⟩, hdown⟩ :=
          Feed.run_within h.consume hsends hends false w hlink.2
        simp only [Consumer.close, Link.close, Bool.false_eq_true, if_false]
        generalize (Producer.drain producer).run false down w = run at hdrained hproducer hdown ⊢
        obtain ⟨⟨drained, after⟩, stopped, d, v⟩ := run
        cases drained with
        -- a drain that fails leaves the consumer behind open
        | error e =>
          refine ⟨.error (hdrained e rfl), fun output houtput => ?_, hproducer, hdown⟩
          cases houtput
        | ok _ =>
          obtain ⟨hfails, houtput, hclosed⟩ := h.close d v hdown
          exact ⟨hfails, houtput, hproducer, hclosed⟩

/-- Noting the outcomes of drains changes nothing. -/
theorem Supplies.noted (h : Supplies P Q F J) :
    Supplies P Q F fun p : Noted π => J p.inner where
  handle row p hrow hp := by
    obtain ⟨hsends, hends⟩ := h.handle row p.inner hrow hp
    exact ⟨Feed.Sends.map hsends, Feed.Ends.map hends⟩
  drain p hp := by
    obtain ⟨hsends, hends⟩ := h.drain p.inner hp
    exact ⟨Feed.Sends.map hsends, Feed.Ends.map hends⟩

end

/-! ## Records -/

/-- The row that a call hands over. -/
def Call.row? : Call → Option Row
  | .consume row _ => some row
  | .close _ => none

/-- The rows that a consumer has been handed. -/
def Recorded.rows {σ : Type} (s : Recorded σ) : List Row := s.calls.filterMap Call.row?

section
variable {ω σ : Type} [Consumer ω σ] (s : Recorded σ) (w : ω)

/-- A row that is handed over is recorded. -/
@[simp]
theorem Recorded.rows_consume (row : Row) :
    (Consumer.consume row s w).2.1.rows = s.rows ++ [row] := by
  rw [rows, show (Consumer.consume row s w).2.1.calls = s.calls ++ [_] from rfl,
    List.filterMap_append]
  rfl

/-- A close hands no row over. -/
@[simp]
theorem Recorded.rows_close : (Consumer.close s w).2.1.rows = s.rows := by
  rw [rows, show (Consumer.close s w).2.1.calls = s.calls ++ [_] from rfl, List.filterMap_append]
  exact List.append_nil _

end

/-- Recording calls breaks no contract, and the rows on record are those of the contract. -/
theorem Honours.recorded {ω σ : Type} [Consumer ω σ] {P : Row → Prop} {F : Error → Prop}
    {O : Option Output → Prop} {I : σ → Prop} (h : Honours ω P F O I) :
    Honours ω P F O fun s : Recorded σ => I s.inner ∧ ∀ row ∈ s.rows, P row where
  consume row s w hrow hs := by
    obtain ⟨hanswer, hinner⟩ := h.consume row s.inner w hrow hs.1
    refine ⟨hanswer, hinner, fun r hr => ?_⟩
    rw [Recorded.rows_consume] at hr
    rcases List.mem_append.1 hr with hr | hr
    · exact hs.2 r hr
    · exact List.mem_singleton.1 hr ▸ hrow
  close s w hs := by
    obtain ⟨hfails, houtput, hinner⟩ := h.close s.inner w hs.1
    refine ⟨hfails, houtput, hinner, ?_⟩
    rw [Recorded.rows_close]
    exact hs.2

/-- The rows that have been handed on, by each link of a chain to the consumer behind it. -/
def WatchedChain.passedOn {π τ : Type} : (n : Nat) → WatchedChain π τ n → List (List Row)
  | 0, _ => []
  | n + 1, watched =>
    let behind := (Watched.link watched).downstream
    behind.rows :: passedOn n behind.inner

/-! ## Stages -/

/-- A stage in a state that it can be in after it has been opened. -/
structure Stage.Sound (input output : Nat) (stage : Stage) : Prop where
  fits : stage.Fits input output
  reliable : stage.Reliable input

namespace Stage

variable {F : Error → Prop} {input output : Nat} {stage : Stage}

/-- A stage fails on a row of the input width with errors of evaluation and those of the consumer
    behind it, and stays reliable. -/
theorem handle_ends (h : stage.Sound input output) {row : Row} (hrow : row.length = input) :
    (stage.handle row).Ends (Error.Within F) fun r =>
      FailsWith (Error.Within F) r.1 ∧ r.2.Reliable input := by
  cases stage with
  | each rule =>
    simp only [handle]
    split
    · rename_i e he
      -- the rule fails on the row itself, before anything is forwarded
      exact ⟨.error (h.reliable row hrow e he).within, h.reliable⟩
    · exact ⟨.ok _, h.reliable⟩
    · -- the image is forwarded and its answer passed back
      exact fun answer hanswer => ⟨hanswer, h.reliable⟩
  | limit rows seen =>
    simp only [handle]
    split
    · exact ⟨.ok _, trivial⟩
    · intro answer hanswer
      -- the last row is answered with `stop`, unless it fails
      refine ⟨?_, trivial⟩
      split
      · exact hanswer.map _
      · exact hanswer
  | sample reservoir => exact ⟨.ok _, trivial⟩
  | sort width keys descending held =>
    -- a sort checks the width that the row has anyway
    have hwidth : expectWidth row.values width = .ok () :=
      expectWidth_eq_ok_iff.2 (hrow.trans h.fits.2.1.symm)
    simp only [handle, hwidth]
    exact ⟨.ok _, trivial⟩

/-- A stage drains with no other errors than those of the consumer behind it. -/
theorem drain_ends (h : stage.Sound input output) :
    stage.drain.Ends (Error.Within F) fun r =>
      FailsWith (Error.Within F) r.1 ∧ r.2.Reliable input := by
  cases stage with
  | each rule => exact ⟨.ok _, h.reliable⟩
  | limit rows seen => exact ⟨.ok _, trivial⟩
  | sample reservoir =>
    exact Feed.Ends.map ((Feed.ends_ofRows reservoir.rows).imp fun _ hresult => ⟨hresult, trivial⟩)
  | sort width keys descending held =>
    -- the rows held back are forwarded in a new order
    exact Feed.Ends.map ((Feed.ends_ofRows _).imp fun _ hresult => ⟨hresult, trivial⟩)

/-- A stage supplies consumers of rows of its output width. -/
theorem supplies :
    Supplies (·.length = input) (·.length = output) F (Stage.Sound input output) where
  handle row stage hrow h := by
    have hsends := handle_sends h.fits hrow
    refine ⟨hsends.imp fun _ _ => trivial, ((handle_ends h hrow).and_sends hsends).imp ?_⟩
    exact fun _ ⟨⟨hanswer, hreliable⟩, hfits⟩ => ⟨hanswer, hfits, hreliable⟩
  drain stage h := by
    have hsends := drain_sends h.fits
    refine ⟨hsends.imp fun _ _ => trivial, ((drain_ends h).and_sends hsends).imp ?_⟩
    exact fun _ ⟨⟨hdrained, hreliable⟩, hfits⟩ => ⟨hdrained, hfits, hreliable⟩

end Stage

/-- Stages that lead from a schema through schemas: each fits the widths of the two around it. -/
inductive Stage.Along : Schema → List Stage → List Schema → Prop
  | nil (input : Schema) : Along input [] []
  | cons {input output : Schema} {stage : Stage} {stages : List Stage} {outputs : List Schema}
    (hstage : stage.Sound input.width output.width) (hrest : Along output stages outputs) :
    Along input (stage :: stages) (output :: outputs)

/-! ## Chains of stages -/

section
variable {ω τ : Type} [Consumer ω τ] {F : Error → Prop} {O : Option Output → Prop} {I : τ → Prop}

namespace Chain

/-- A chain whose stages lead from a schema through schemas to a terminal consumer in a state of
    `I`. -/
def Sound (I : τ → Prop) : (n : Nat) → Schema → List Schema → Chain Stage τ n → Prop
  | 0, _, [], terminal => I terminal
  | n + 1, input, output :: outputs, link =>
    (Link.producer link).Sound input.width output.width ∧
      Sound I n output outputs (Link.downstream link)
  | _, _, _, _ => False

theorem sound_connect {input : Schema} {stages : List Stage} {outputs : List Schema}
    (h : Stage.Along input stages outputs) {terminal : τ} (hterminal : I terminal) :
    Sound I stages.length input outputs (connect stages terminal) := by
  induction h with
  | nil => exact hterminal
  | cons hstage _ ih => exact ⟨hstage, ih⟩

/-- A chain of stages honours the contract of its terminal consumer for rows of the width of its
    input schema, if that consumer does so for rows of the width of the last schema. -/
theorem honours (n : Nat) {input : Schema} {outputs : List Schema}
    (h : Honours ω (·.length = (outputs.getLastD input).width) F O I) :
    Honours ω (·.length = input.width) F O (Sound I n input outputs) := by
  induction n generalizing input outputs with
  | zero =>
    cases outputs with
    | nil => exact h
    | cons output outputs => exact .impossible
  | succ n ih =>
    cases outputs with
    | nil => exact .impossible
    | cons output outputs =>
      rw [List.getLastD_cons] at h
      exact (ih h).link Stage.supplies

end Chain

namespace WatchedChain

/-- A watched chain whose stages lead from a schema through schemas, and which has handed on rows of
    the widths of these schemas only. -/
def Sound (I : τ → Prop) : (n : Nat) → Schema → List Schema → WatchedChain Stage τ n → Prop
  | 0, _, [], terminal => I terminal
  | n + 1, input, output :: outputs, watched =>
    let link := Watched.link watched
    link.producer.inner.Sound input.width output.width ∧
      Sound I n output outputs link.downstream.inner ∧
      ∀ row ∈ link.downstream.rows, row.length = output.width
  | _, _, _, _ => False

theorem sound_connect {input : Schema} {stages : List Stage} {outputs : List Schema}
    (h : Stage.Along input stages outputs) {terminal : τ} (hterminal : I terminal) :
    Sound I stages.length input outputs (connect stages terminal) := by
  induction h with
  | nil => exact hterminal
  | cons hstage _ ih => exact ⟨hstage, ih, nofun⟩

theorem Sound.passedOn {n : Nat} {input : Schema} {outputs : List Schema}
    {watched : WatchedChain Stage τ n} (h : Sound I n input outputs watched) :
    List.Forall₂ (fun output rows => ∀ row ∈ rows, row.length = output.width) outputs
      (passedOn n watched) := by
  induction n generalizing input outputs with
  | zero =>
    cases outputs with
    | nil => exact .nil
    | cons output outputs => exact h.elim
  | succ n ih =>
    cases outputs with
    | nil => exact h.elim
    | cons output outputs => exact .cons h.2.2 (ih h.2.1)

/-- A watched chain hands on rows of the widths of the schemas between its stages only. -/
theorem honours (n : Nat) {input : Schema} {outputs : List Schema}
    (h : Honours ω (·.length = (outputs.getLastD input).width) F O I) :
    Honours ω (·.length = input.width) F O (Sound I n input outputs) := by
  induction n generalizing input outputs with
  | zero =>
    cases outputs with
    | nil => exact h
    | cons output outputs => exact .impossible
  | succ n ih =>
    cases outputs with
    | nil => exact .impossible
    | cons output outputs =>
      rw [List.getLastD_cons] at h
      have hstage : Supplies (·.length = input.width) (·.length = output.width) F
          (Stage.Sound input.width output.width) := Stage.supplies
      have hlink := (ih h).recorded.link hstage.noted
      exact ⟨fun row watched => hlink.consume row watched.link,
        fun watched => hlink.close watched.link⟩

/-- Whatever is asked of a chain and whatever its terminal consumer is, rows of the width of its
    input schema make its links hand on rows of the widths of the schemas between them. -/
theorem passedOn_serve {input : Schema} {stages : List Stage} {outputs : List Schema}
    (h : Stage.Along input stages outputs) (terminal : τ) {requests : List (Request ω)}
    (hrequests : ∀ request ∈ requests, request.Hands (·.length = input.width)) :
    List.Forall₂ (fun output rows => ∀ row ∈ rows, row.length = output.width) outputs
      (passedOn _ (serve requests (connect stages terminal)).2) := by
  -- any consumer honours the contract that promises nothing
  have hterminal : Honours ω (·.length = (outputs.getLastD input).width) (fun _ => True)
      (fun _ => True) (fun _ : τ => True) :=
    ⟨fun _ _ _ _ _ => ⟨fun _ _ _ => trivial, trivial⟩,
      fun _ _ _ => ⟨fun _ _ _ => trivial, fun _ _ => trivial, trivial⟩⟩
  -- so the rows on record are within the contract, whatever has been answered
  exact ((honours _ hterminal).serve hrequests (sound_connect h trivial)).2.passedOn

end WatchedChain

end

end RowFlow
