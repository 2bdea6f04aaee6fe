import RowFlow.Chain.Feed

/-!
# Links and Chains

A producer in front of a consumer is itself a consumer, a link. A chain is a row of links in front
of a terminal consumer.
-/

namespace RowFlow

/-! ## Producers -/

/-- States `π` of producers. -/
class Producer (π : Type) where
  /-- Handles a row: what is passed on, then the answer and the next state. -/
  handle : Row → π → Feed (Except Error Flow × π)
  /-- Passes on what is held back, at the end of the stream. -/
  drain : π → Feed (Except Error Unit × π)

instance {π ρ : Type} [Producer π] [Producer ρ] : Producer (π ⊕ ρ) where
  handle row state := match state with
    | .inl p => (Producer.handle row p).map fun (answer, p) => (answer, .inl p)
    | .inr r => (Producer.handle row r).map fun (answer, r) => (answer, .inr r)
  drain state := match state with
    | .inl p => (Producer.drain p).map fun (result, p) => (result, .inl p)
    | .inr r => (Producer.drain r).map fun (result, r) => (result, .inr r)

/-! ## Links -/

/-- A producer in front of a consumer. -/
structure Link (π σ : Type) where
  producer : π
  downstream : σ
  /-- the link itself has been closed -/
  closed : Bool
  /-- the consumer behind it has asked to stop -/
  stopped : Bool

namespace Link

variable {ω π σ : Type} [Producer π] [Consumer ω σ]

/-- A link before its first row. -/
def start (producer : π) (downstream : σ) : Link π σ := ⟨producer, downstream, false, false⟩

/-- Handles a row, unless the link is closed or its consumer has asked to stop. -/
def consume (row : Row) (link : Link π σ) (world : ω) : Except Error Flow × Link π σ × ω :=
  if link.closed then (.error (.consumerState .consumeAfterClose), link, world)
  else if link.stopped then (.ok .stop, link, world)
  else
    let ((answer, producer), stopped, downstream, world) :=
      (Producer.handle row link.producer).run link.stopped link.downstream world
    (answer, { link with producer, downstream, stopped }, world)

/-- Drains the producer, unless its consumer has asked to stop, and closes the consumer. A drain
    that fails leaves the consumer open. -/
def close (link : Link π σ) (world : ω) : Except Error (Option Output) × Link π σ × ω :=
  if link.closed then (.error (.consumerState .closeAfterClose), link, world)
  else
    let feed : Feed (Except Error Unit × π) :=
      if link.stopped then .done (.ok (), link.producer) else Producer.drain link.producer
    let ((drained, producer), stopped, downstream, world) :=
      feed.run link.stopped link.downstream world
    match drained with
    | .error e => (.error e, ⟨producer, downstream, true, stopped⟩, world)
    | .ok () =>
      let (result, downstream, world) := Consumer.close downstream world
      (result, ⟨producer, downstream, true, stopped⟩, world)

instance : Consumer ω (Link π σ) where
  consume := consume
  close := close

end Link

/-! ## Chains -/

/-- The states of a chain of `n` producers in front of a terminal consumer. -/
def Chain (π τ : Type) : Nat → Type
  | 0 => τ
  | n + 1 => Link π (Chain π τ n)

namespace Chain

variable {ω π τ : Type} [Producer π] [Consumer ω τ]

/-- Every chain is a consumer. -/
@[reducible]
def consumer : (n : Nat) → Consumer ω (Chain π τ n)
  | 0 => inferInstanceAs (Consumer ω τ)
  | n + 1 =>
    have := consumer n
    inferInstanceAs (Consumer ω (Link π (Chain π τ n)))

instance (n : Nat) : Consumer ω (Chain π τ n) := consumer n

/-- Connects producers to a terminal consumer. -/
def connect : (producers : List π) → τ → Chain π τ producers.length
  | [], terminal => terminal
  | producer :: rest, terminal => Link.start producer (connect rest terminal)

/-- The terminal consumer. -/
def terminal : (n : Nat) → Chain π τ n → τ
  | 0, terminal => terminal
  | n + 1, link => terminal n (Link.downstream link)

/-- Changes the terminal consumer. -/
def mapTerminal (f : τ → τ) : (n : Nat) → Chain π τ n → Chain π τ n
  | 0, terminal => f terminal
  | n + 1, link =>
    let l : Link π (Chain π τ n) := link
    ({ l with downstream := mapTerminal f n l.downstream } : Link π (Chain π τ n))

end Chain

end RowFlow
