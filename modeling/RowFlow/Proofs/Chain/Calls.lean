import RowFlow.Chain.Link
import RowFlow.Proofs.Chain.Feed

/-!
# Calls Along a Chain

Who calls whom in a chain, made visible. Recorded consumers keep the calls on them; watched links
keep, for every call on them, the calls that they made meanwhile on the consumer behind and the
outcome of the drain, if the producer was drained. Watching changes nothing: when the records are
forgotten, a watched chain acts as the chain does (`WatchedChain.actsAs_forget`).
-/

namespace RowFlow

/-! ## Calls -/

/-- A call on a consumer, with its answer. -/
inductive Call where
  | consume (row : Row) (answer : Except Error Flow)
  | close (result : Except Error (Option Output))

namespace Call

/-- The call hands over a row. -/
def IsRow : Call → Prop
  | .consume _ _ => True
  | .close _ => False

/-- The call hands over a row, and the consumer asks to stop. -/
def IsStop : Call → Prop
  | .consume _ (.ok .stop) => True
  | _ => False

def IsClose : Call → Prop
  | .consume _ _ => False
  | .close _ => True

/-- The call is refused since the consumer has been closed. -/
def IsRefused : Call → Prop
  | .consume _ answer => answer = .error (.consumerState .consumeAfterClose)
  | .close result => result = .error (.consumerState .closeAfterClose)

end Call

/-- A call to come, and the world at that time. -/
inductive Request (ω : Type) where
  | consume (row : Row) (world : ω)
  | close (world : ω)

/-- Whether a request is a close. -/
def Request.isClose {ω : Type} : Request ω → Bool
  | .consume _ _ => false
  | .close _ => true

section
variable {ω σ τ : Type} [Consumer ω σ] [Consumer ω τ]

/-- Puts a request to a consumer. -/
def Request.put (s : σ) : Request ω → Call × σ
  | .consume row world =>
    let (answer, s, _) := Consumer.consume row s world
    (.consume row answer, s)
  | .close world =>
    let (result, s, _) := Consumer.close s world
    (.close result, s)

/-- Puts requests to a consumer, one after another. The world may change in between. -/
def serve : List (Request ω) → σ → List Call × σ
  | [], s => ([], s)
  | request :: rest, s =>
    let (call, s) := request.put s
    let (calls, s) := serve rest s
    (call :: calls, s)

/-! ## Acting alike -/

/-- The state `f s` acts as `s` does: it answers the same, changes the world in the same way, and
    goes on to the image of the state to which `s` goes on. -/
structure ActsAs (ω : Type) {σ τ : Type} [Consumer ω σ] [Consumer ω τ] (f : σ → τ) : Prop where
  consume : ∀ (row : Row) (s : σ) (w : ω), Consumer.consume row (f s) w =
    ((Consumer.consume row s w).1, f (Consumer.consume row s w).2.1, (Consumer.consume row s w).2.2)
  close : ∀ (s : σ) (w : ω), Consumer.close (f s) w =
    ((Consumer.close s w).1, f (Consumer.close s w).2.1, (Consumer.close s w).2.2)

namespace ActsAs

variable {f : σ → τ}

theorem comp {υ : Type} [Consumer ω υ] {g : τ → υ} (hg : ActsAs ω g) (hf : ActsAs ω f) :
    ActsAs ω (g ∘ f) where
  consume row s w := by
    simp only [Function.comp_apply]
    rw [hg.consume, hf.consume]
  close s w := by
    simp only [Function.comp_apply]
    rw [hg.close, hf.close]

theorem serve (h : ActsAs ω f) (requests : List (Request ω)) (s : σ) :
    RowFlow.serve requests (f s) =
      ((RowFlow.serve requests s).1, f (RowFlow.serve requests s).2) := by
  induction requests generalizing s with
  | nil => rfl
  | cons request rest ih =>
    have hput : request.put (f s) = ((request.put s).1, f (request.put s).2) := by
      cases request with
      | consume row world =>
        simp only [Request.put]
        rw [h.consume]
      | close world =>
        simp only [Request.put]
        rw [h.close]
    simp only [RowFlow.serve, hput, ih]

/-- A feed runs in front of `f s` as it does in front of `s`. -/
theorem run {α : Type} (h : ActsAs ω f) (feed : Feed α) (stopped : Bool) (s : σ) (w : ω) :
    feed.run stopped (f s) w =
      ((feed.run stopped s w).1, (feed.run stopped s w).2.1, f (feed.run stopped s w).2.2.1,
        (feed.run stopped s w).2.2.2) := by
  -- the world and the flag of the feed change with every row that is forwarded
  induction feed generalizing stopped s w with
  | done result => rfl
  | forward row next ih =>
    cases stopped with
    | true => exact ih _ true s w
    | false =>
      simp only [Feed.run, Bool.false_eq_true, if_false]
      rw [h.consume]
      exact ih _ _ _ _

end ActsAs

end

/-! ## Records -/

/-- A consumer that records the calls on it. -/
structure Recorded (σ : Type) where
  inner : σ
  calls : List Call

/-- A consumer before its first call. -/
def Recorded.start {σ : Type} (inner : σ) : Recorded σ := ⟨inner, []⟩

instance {ω σ : Type} [Consumer ω σ] : Consumer ω (Recorded σ) where
  consume row s w :=
    let (answer, inner, w) := Consumer.consume row s.inner w
    (answer, ⟨inner, s.calls ++ [.consume row answer]⟩, w)
  close s w :=
    let (result, inner, w) := Consumer.close s.inner w
    (result, ⟨inner, s.calls ++ [.close result]⟩, w)

section
variable {ω σ : Type} [Consumer ω σ]

theorem Recorded.actsAs_inner : ActsAs ω (inner : Recorded σ → σ) :=
  ⟨fun _ _ _ => rfl, fun _ _ => rfl⟩

theorem Recorded.calls_consume (row : Row) (s : Recorded σ) (w : ω) :
    (Consumer.consume row s w).2.1.calls =
      s.calls ++ [.consume row (Consumer.consume row s w).1] := rfl

theorem Recorded.calls_close (s : Recorded σ) (w : ω) :
    (Consumer.close s w).2.1.calls = s.calls ++ [.close (Consumer.close s w).1] := rfl

end

/-- A producer that notes the outcomes of its drains. -/
structure Noted (π : Type) where
  inner : π
  drains : List (Except Error Unit)

/-- A producer before its first row. -/
def Noted.start {π : Type} (inner : π) : Noted π := ⟨inner, []⟩

instance {π : Type} [Producer π] : Producer (Noted π) where
  handle row p := (Producer.handle row p.inner).map fun (answer, inner) =>
    (answer, { p with inner })
  drain p := (Producer.drain p.inner).map fun (outcome, inner) =>
    (outcome, ⟨inner, p.drains ++ [outcome]⟩)

/-- A link without the notes of its producer, in front of the image of its consumer. -/
def Link.bare {π σ ρ : Type} (f : σ → ρ) (link : Link (Noted π) σ) : Link π ρ :=
  ⟨link.producer.inner, f link.downstream, link.closed, link.stopped⟩

/-- The producer feeds the image of its consumer as it feeds the consumer. -/
theorem Link.actsAs_bare {ω π σ ρ : Type} [Producer π] [Consumer ω σ] [Consumer ω ρ] {f : σ → ρ}
    (h : ActsAs ω f) : ActsAs ω (bare f : Link (Noted π) σ → Link π ρ) where
  consume row link w := by
    obtain ⟨producer, down, closed, stopped⟩ := link
    -- a closed link refuses both calls, and a stopped one forwards no row
    cases closed with
    | true => rfl
    | false =>
      cases stopped with
      | true => rfl
      | false =>
        simp only [Consumer.consume, Link.consume, bare, Bool.false_eq_true, if_false, h.run,
          Producer.handle, Feed.run_map]
  close link w := by
    obtain ⟨producer, down, closed, stopped⟩ := link
    cases closed with
    | true => rfl
    | false =>
      cases stopped with
      | true =>
        simp only [Consumer.close, Link.close, bare, Bool.false_eq_true, if_false, if_true,
          Feed.run]
        rw [h.close]
      | false =>
        simp only [Consumer.close, Link.close, bare, Bool.false_eq_true, if_false, h.run,
          Producer.drain, Feed.run_map]
        -- a drain that fails is reported, and the consumer behind is not closed
        rcases (Producer.drain producer.inner).run false down w with ⟨⟨e | _, p⟩, stopped, d, v⟩
        · rfl
        · dsimp only
          rw [h.close]

/-- A call on a link, with the calls that the link made meanwhile on the consumer behind it and the
    outcomes of the drains of its producer. -/
structure Visit where
  call : Call
  passed : List Call
  drains : List (Except Error Unit)

/-- A link with a history of the calls on it. -/
structure Watched (π σ : Type) where
  link : Link (Noted π) (Recorded σ)
  visits : List Visit

namespace Watched

variable {π σ : Type}

/-- A link before its first call. -/
def start (producer : π) (downstream : σ) : Watched π σ :=
  ⟨.start (.start producer) (.start downstream), []⟩

/-- The link after a call. What has been recorded since is what the link did meanwhile. -/
def after (watched : Watched π σ) (call : Call) (link : Link (Noted π) (Recorded σ)) :
    Watched π σ where
  link := link
  visits := watched.visits ++ [{
    call := call
    passed := link.downstream.calls.drop watched.link.downstream.calls.length
    drains := link.producer.drains.drop watched.link.producer.drains.length }]

/-- The link without records. -/
def forget {ρ : Type} (f : σ → ρ) (watched : Watched π σ) : Link π ρ :=
  watched.link.bare (f ∘ Recorded.inner)

instance {ω : Type} [Producer π] [Consumer ω σ] : Consumer ω (Watched π σ) where
  consume row watched w :=
    let (answer, link, w) := Consumer.consume row watched.link w
    (answer, watched.after (.consume row answer) link, w)
  close watched w :=
    let (result, link, w) := Consumer.close watched.link w
    (result, watched.after (.close result) link, w)

/-- A watched link acts as the link, if the consumer behind it does so. -/
theorem actsAs_forget {ω ρ : Type} [Producer π] [Consumer ω σ] [Consumer ω ρ] {f : σ → ρ}
    (h : ActsAs ω f) : ActsAs ω (forget f : Watched π σ → Link π ρ) := by
  -- the history is written beside the link, which does not read it
  have hlink : ActsAs ω (link : Watched π σ → Link (Noted π) (Recorded σ)) :=
    ⟨fun _ _ _ => rfl, fun _ _ => rfl⟩
  exact (Link.actsAs_bare (h.comp Recorded.actsAs_inner)).comp hlink

end Watched

/-! ## Watched chains -/

/-- The states of a chain in which every link is watched and the terminal consumer is recorded. -/
def WatchedChain (π τ : Type) : Nat → Type
  | 0 => τ
  | n + 1 => Watched π (WatchedChain π τ n)

namespace WatchedChain

variable {ω π τ : Type}

@[reducible]
def consumer [Producer π] [Consumer ω τ] : (n : Nat) → Consumer ω (WatchedChain π τ n)
  | 0 => inferInstanceAs (Consumer ω τ)
  | n + 1 =>
    have := consumer n
    inferInstanceAs (Consumer ω (Watched π (WatchedChain π τ n)))

instance [Producer π] [Consumer ω τ] (n : Nat) : Consumer ω (WatchedChain π τ n) := consumer n

/-- Connects producers to a terminal consumer and watches the chain from its first call on. -/
def connect : (producers : List π) → τ → WatchedChain π τ producers.length
  | [], terminal => terminal
  | producer :: rest, terminal => Watched.start producer (connect rest terminal)

/-- The chain without records. -/
def forget : (n : Nat) → WatchedChain π τ n → Chain π τ n
  | 0, terminal => terminal
  | n + 1, watched => Watched.forget (forget n) watched

theorem forget_connect (producers : List π) (terminal : τ) :
    forget producers.length (connect producers terminal) = Chain.connect producers terminal := by
  induction producers with
  | nil => rfl
  | cons producer rest ih => exact congrArg (Link.start producer) ih

/-- A watched chain acts as the chain. -/
theorem actsAs_forget [Producer π] [Consumer ω τ] (n : Nat) :
    ActsAs ω (forget n : WatchedChain π τ n → Chain π τ n) := by
  induction n with
  | zero => exact ⟨fun _ _ _ => rfl, fun _ _ => rfl⟩
  | succ n ih => exact Watched.actsAs_forget ih

/-- What is asked of a chain is answered as if it were watched. -/
theorem serve_connect [Producer π] [Consumer ω τ] (producers : List π) (terminal : τ)
    (requests : List (Request ω)) :
    serve requests (Chain.connect producers terminal) =
      ((serve requests (connect producers terminal)).1,
        forget _ (serve requests (connect producers terminal)).2) := by
  rw [← forget_connect producers terminal]
  exact (actsAs_forget producers.length).serve requests (connect producers terminal)

end WatchedChain

end RowFlow
