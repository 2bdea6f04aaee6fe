import RowFlow.Chain.Consumer

/-!
# Feeds

What a producer passes on when it handles a row: a program that forwards rows to the consumer behind
it and may look at each answer before it goes on. Once that consumer has asked to stop, further rows
do not reach it; they are answered with `stop` at once.
-/

namespace RowFlow

/-- A program that forwards rows downstream and ends with a result. -/
inductive Feed (α : Type) where
  | done (result : α)
  | forward (row : Row) (next : Except Error Flow → Feed α)

namespace Feed

/-- Changes the result of a feed. -/
def map {α β : Type} (f : α → β) : Feed α → Feed β
  | .done result => .done (f result)
  | .forward row next => .forward row fun answer => (next answer).map f

/-- Forwards rows until one is answered with an error or with `stop`. -/
def ofRows : List Row → Feed (Except Error Unit)
  | [] => .done (.ok ())
  | row :: rows => .forward row fun
    | .error e => .done (.error e)
    | .ok .stop => .done (.ok ())
    | .ok .more => ofRows rows

/-- Runs a feed in front of a consumer. `stopped` tells whether the consumer has asked to stop. -/
def run {α ω σ : Type} [Consumer ω σ] : Feed α → Bool → σ → ω → α × Bool × σ × ω
  | .done result, stopped, state, world => (result, stopped, state, world)
  | .forward row next, stopped, state, world =>
    if stopped then (next (.ok .stop)).run stopped state world
    else
      let (answer, state, world) := Consumer.consume row state world
      (next answer).run (match answer with | .ok .stop => true | _ => false) state world

end Feed

end RowFlow
