import RowFlow.Table.Basic

/-!
# Consumers

A consumer takes rows until it is closed and then gives its result. It is a state machine: consuming
and closing answer and step to the next state, and a state survives an error. What a consumer does
to the world around it, such as writing files, is a step of the environment `ω`.
-/

namespace RowFlow

/-! ## Answers -/

/-- The answer of a consumer to a row. -/
inductive Flow where
  /-- more rows are welcome -/
  | more
  /-- no further rows are needed -/
  | stop
  deriving DecidableEq, Inhabited

/-- The result of a run. -/
inductive Output where
  | table (table : Table)
  | count (count : Nat)
  /-- each value with its frequency, in the order of first occurrence -/
  | distinct (counts : List (Value × Nat))
  | rows (rows : List Row)
  | value (value : Value)
  deriving DecidableEq

/-! ## The interface -/

/-- States `σ` of consumers that act on an environment `ω`. -/
class Consumer (ω : Type) (σ : Type) where
  /-- Takes a row. -/
  consume : Row → σ → ω → Except Error Flow × σ × ω
  /-- Ends the stream and gives the result, if the consumer has one. -/
  close : σ → ω → Except Error (Option Output) × σ × ω

instance {ω σ τ : Type} [Consumer ω σ] [Consumer ω τ] : Consumer ω (σ ⊕ τ) where
  consume row state world := match state with
    | .inl s => let (answer, s, world) := Consumer.consume row s world; (answer, .inl s, world)
    | .inr t => let (answer, t, world) := Consumer.consume row t world; (answer, .inr t, world)
  close state world := match state with
    | .inl s => let (result, s, world) := Consumer.close s world; (result, .inl s, world)
    | .inr t => let (result, t, world) := Consumer.close t world; (result, .inr t, world)

/-! ## Lifecycle -/

/-- A consumer that refuses rows after its end, and a second end. -/
structure Guarded (σ : Type) where
  inner : σ
  closed : Bool

/-- A guarded consumer before its first row. -/
def Guarded.start {σ : Type} (inner : σ) : Guarded σ := ⟨inner, false⟩

instance {ω σ : Type} [Consumer ω σ] : Consumer ω (Guarded σ) where
  consume row state world :=
    if state.closed then (.error (.consumerState .consumeAfterClose), state, world)
    else
      let (answer, inner, world) := Consumer.consume row state.inner world
      (answer, { state with inner }, world)
  close state world :=
    if state.closed then (.error (.consumerState .closeAfterClose), state, world)
    else
      let (result, inner, world) := Consumer.close state.inner world
      (result, ⟨inner, true⟩, world)

end RowFlow
