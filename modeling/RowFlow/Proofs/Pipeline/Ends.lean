import RowFlow.Proofs.Pipeline.Opening

/-!
# Ends of Chains

What the two consumers at the end of a chain do with a row and with the end of the stream: one
collects the rows, the other holds them until a reader fetches them. Both count each row.
-/

namespace RowFlow

variable {α : Type}

/-- The session in which one more row has reached the end of a chain. -/
def Session.collected (session : Session α) : Session α :=
  session.count fun c => { c with rowsCollected := c.rowsCollected + 1 }

/-! ## Collectors -/

/-- A collector and the files after rows have been handed to it, whether it has taken them in or
    not. -/
def Collector.afterRows (collector : Collector) (rows : List Row) (files : Files) :
    Collector × Files :=
  rows.foldl (fun state row => (state.1.consume row state.2).2) (collector, files)

/-- What a collector is after some rows of a width, and what it gives when it is closed then. It
    never fails on a row of this width. -/
structure Gathers (width : Nat) (state : List Row → Collector) (output : List Row → Output) :
    Prop where
  consume (held : List Row) {row : Row} (files : Files) : row.length = width →
    (state held).consume row files = (.ok .more, state (held ++ [row]), files)
  close (held : List Row) (files : Files) :
    ((state held).close files).1 = .ok (some (output held))

namespace Gathers

variable {width : Nat} {state : List Row → Collector} {output : List Row → Output}

/-- After rows of its width a collector holds them behind those that it has held. -/
theorem afterRows (h : Gathers width state output) (held : List Row) {rows : List Row}
    (hrows : ∀ row ∈ rows, row.length = width) (files : Files) :
    (state held).afterRows rows files = (state (held ++ rows), files) := by
  induction rows generalizing held with
  | nil => rw [List.append_nil]; rfl
  | cons row rows ih =>
    obtain ⟨hrow, hrows⟩ := List.forall_mem_cons.1 hrows
    rw [Collector.afterRows, List.foldl_cons, h.consume held files hrow]
    exact (ih (held ++ [row]) hrows).trans (by rw [List.append_assoc, List.singleton_append])

/-- At the end of a chain a collector takes in a row and counts it. -/
theorem consume_end (h : Gathers width state output) (held : List Row) {row : Row}
    (hrow : row.length = width) (session : Session α) :
    Consumer.consume row (Guarded.start (Metered.mk (state held))) session =
      (.ok .more, Guarded.start ⟨state (held ++ [row])⟩, session.collected) := by
  simp only [Consumer.consume, Guarded.start, Bool.false_eq_true, if_false, h.consume held _ hrow]
  rfl

/-- At the end of a chain a collector gives its output. -/
theorem close_end (h : Gathers width state output) (held : List Row) (session : Session α) :
    (Consumer.close (Guarded.start (Metered.mk (state held))) session).1 =
      .ok (some (output held)) := by
  simp only [Consumer.close, Guarded.start, Bool.false_eq_true, if_false, h.close held]

end Gathers

/-- Rows are held in the order in which they come. -/
theorem gathers_rows (width : Nat) : Gathers width (.rows width) .rows where
  consume held row files hrow := by
    have hwidth : expectWidth row.values width = .ok () := expectWidth_eq_ok_iff.2 hrow
    simp only [Collector.consume, Collector.width?, Option.map_some, Option.getD_some, hwidth,
      Collector.take]
    rfl
  close _ _ := rfl

/-- The table of the values of rows, without their numbers. -/
def Table.ofRows (schema : Schema) (rows : List Row) : Table := ⟨schema, rows.map Row.values⟩

/-- A table takes the values of rows, without their numbers. -/
theorem gathers_table (schema : Schema) :
    Gathers schema.width (fun held => .table schema (held.map Row.values))
      fun held => .table (.ofRows schema held) where
  consume held row files hrow := by
    -- the row has the width that the table checks
    have hwidth : expectWidth row.values schema.width = .ok () := expectWidth_eq_ok_iff.2 hrow
    simp only [Collector.consume, Collector.width?, Option.map_some, Option.getD_some, hwidth,
      Collector.take, List.map_append]
    rfl
  close _ _ := rfl

/-- All rows are counted, of whatever width. -/
theorem gathers_count (width : Nat) :
    Gathers width (fun held => .count held.length) fun held => .count held.length where
  consume held row files _ := by
    simp only [Collector.consume, Collector.width?, Option.map_none, Option.getD_none,
      Collector.take, List.length_append, List.length_singleton]
    rfl
  close _ _ := rfl

/-- The frequencies of the values that rows have at positions. -/
def frequencies (positions : List Nat) (rows : List Row) : List (Value × Nat) :=
  rows.foldl (fun counts row => tally (gather positions row.values) counts) []

/-- Distinct values are counted as they come. -/
theorem gathers_distinct (width : Nat) (positions : List Nat) :
    Gathers width (fun held => .distinct width positions (frequencies positions held))
      fun held => .distinct (frequencies positions held) where
  consume held row files hrow := by
    have hwidth : expectWidth row.values width = .ok () := expectWidth_eq_ok_iff.2 hrow
    simp only [Collector.consume, Collector.width?, Option.map_some, Option.getD_some, hwidth,
      Collector.take, frequencies, List.foldl_append, List.foldl_cons, List.foldl_nil]
    rfl
  close _ _ := rfl

/-- A collector that holds some rows of a width. -/
abbrev rowsEnd (width : Nat) (held : List Row) : Guarded (Metered Collector) :=
  Guarded.start ⟨.rows width held⟩

/-- Collected rows wait in order. -/
theorem consume_rowsEnd {width : Nat} (held : List Row) {row : Row} (h : row.length = width)
    (session : Session α) :
    Consumer.consume row (rowsEnd width held) session =
      (.ok .more, rowsEnd width (held ++ [row]), session.collected) :=
  (gathers_rows width).consume_end held h session

/-! ## The outbox of a reader -/

/-- An outbox that holds some rows. -/
abbrev outboxEnd (held : List Row) : Guarded (Metered Outbox) := Guarded.start ⟨⟨held⟩⟩

/-- An outbox shows what it holds. -/
@[simp]
theorem outboxEnd_rows (held : List Row) : (outboxEnd held).inner.inner.rows = held :=
  rfl

/-- A row in the outbox counts as collected. -/
theorem consume_outboxEnd (held : List Row) (row : Row) (session : Session α) :
    Consumer.consume row (outboxEnd held) session =
      (.ok .more, outboxEnd (held ++ [row]), session.collected) :=
  rfl

/-- A closed outbox gives no result, and keeps its rows. -/
theorem close_outboxEnd (held : List Row) (session : Session α) :
    Consumer.close (outboxEnd held) session = (.ok none, ⟨⟨⟨held⟩⟩, true⟩, session) :=
  rfl

end RowFlow
