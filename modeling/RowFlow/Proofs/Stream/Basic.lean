import RowFlow.Proofs.Pipeline.Opening
import RowFlow.Proofs.Step.Sorting

/-!
# Streams of Rows

What a pipeline computes, said without consumers: a stream is a list of rows that ends normally or
by an error, a stage is a function on streams, and a pipeline is the composition of its stages.

- a rule maps or drops rows up to the first one it fails on;
- a limit ends the stream normally together with its last row;
- a sort and a sample wait for the end of the stream, and pass on nothing of a stream that fails.

What a sort and a sample make of all rows at once is said by functions on lists, which know of no
state that goes from row to row. That the stages end up with the same rows is proved here
(`Stage.onStream_sort`, `Stage.onStream_sample`).
-/

namespace RowFlow

/-! ## Streams -/

/-- A finite stream of rows. -/
inductive RowStream where
  /-- the normal end -/
  | ended
  /-- the end by an error -/
  | failed (error : Error)
  | row (row : Row) (rest : RowStream)

namespace RowStream

/-- The stream of some rows that ends normally. -/
def ofRows : List Row → RowStream
  | [] => .ended
  | r :: rows => .row r (ofRows rows)

/-- The rows of a stream, or the error that ends it. -/
def result : RowStream → Except Error (List Row)
  | .ended => .ok []
  | .failed e => .error e
  | .row r rest => do return r :: (← rest.result)

/-- The stream of the items of a source. The first item that is a failure, or a row of another
    width, ends it. -/
def ofItems (width : Nat) : List (Except Error Row) → RowStream
  | [] => .ended
  | .error e :: _ => .failed e
  | .ok r :: items => match expectWidth r.values width with
    | .error e => .failed e
    | .ok () => .row r (ofItems width items)

/-! ## Functions on streams -/

/-- Puts other rows in the place of rows, or none, up to the first row that fails. -/
def mapRows (f : Row → Except Error (Option Row)) : RowStream → RowStream
  | .ended => .ended
  | .failed e => .failed e
  | .row r rest => match f r with
    | .error e => .failed e
    | .ok none => rest.mapRows f
    | .ok (some image) => .row image (rest.mapRows f)

/-- The first `n` rows. The stream ends normally with the last of them, whatever follows; of a
    stream that is cut to nothing the first row is awaited all the same. -/
def limit : Nat → RowStream → RowStream
  | 0, .row _ _ => .ended
  | 1, .row r _ => .row r .ended
  | n + 2, .row r rest => .row r (limit (n + 1) rest)
  | _, .ended => .ended
  | _, .failed e => .failed e

/-- Waits for the normal end of a stream and rearranges its rows. -/
def rearrange (f : List Row → List Row) (s : RowStream) : RowStream :=
  match s.result with
  | .ok rows => ofRows (f rows)
  | .error e => .failed e

end RowStream

/-! ## Functions on all rows -/

/-- Rows in the order of the tuples of their values at keys, or in the reverse order, and as they
    were where these are equal. -/
def sortedBy (keys : List Nat) (descending : Bool) (rows : List Row) : List Row :=
  rows.mergeSort fun a b =>
    if descending then ((b.keyAt keys).totalCompare (a.keyAt keys)).isLE
    else ((a.keyAt keys).totalCompare (b.keyAt keys)).isLE

/-- A sample of rows, each with its place in the stream, after the rows that still come from some
    place on. They fill the sample up. After that each of them draws one of all places so far, and
    replaces the row of the sample that stands there, if so many are in it. -/
def sampledAfter (size place : Nat) (sample : List (Nat × Row)) (generator : KeyStream) :
    List Row → List (Nat × Row)
  | [] => sample
  | row :: rows =>
    if sample.length < size then
      sampledAfter size (place + 1) (sample ++ [(place, row)]) generator rows
    else if size = 0 then sampledAfter size (place + 1) sample generator rows
    else
      let (drawn, generator) := generator.position place
      let sample := if drawn < size then sample.set drawn (place, row) else sample
      sampledAfter size (place + 1) sample generator rows

/-- The rows of a sample in the order in which they came. -/
def inOrder (sample : List (Nat × Row)) : List Row :=
  (sample.mergeSort fun a b => a.1 ≤ b.1).map Prod.snd

/-- What a stage makes of the stream of the rows that still come to it. -/
def Stage.onStream : Stage → RowStream → RowStream
  | .each rule, s => s.mapRows rule.apply
  | .limit rows seen, s => s.limit (rows - seen)
  | .sample ⟨size, seen, held, generator⟩, s =>
    s.rearrange fun rows => inOrder (sampledAfter size seen held generator rows)
  | .sort _ keys descending held, s =>
    s.rearrange fun rows => sortedBy keys descending (held ++ rows)

/-- The composition of stages, in the order of the steps. -/
def RowStream.through (s : RowStream) (stages : List Stage) : RowStream :=
  stages.foldl (fun s stage => stage.onStream s) s

/-! ## Pipelines -/

namespace Pipeline

variable {α : Type}

/-- The rows of a pipeline: the source as a stream, and the stages applied to it one after
    another. -/
def streamed (pipeline : Pipeline Step α) (session : Session α) : Except Error (List Row) := do
  let launch ← pipeline.opening session.fresh session.files session.spent
  ((RowStream.ofItems launch.width launch.items).through launch.stages).result

end Pipeline

/-! ## Sorts and samples -/

/-- Comparing key by key is comparing the tuples, so the stage sorts in the same way. -/
theorem sortedBy_eq_sortRows : sortedBy = sortRows := by
  funext keys descending rows
  -- the two tests of a merge agree: not greater on the keys is at most on the tuples
  have hle : (fun a b : Row =>
      if descending then ((b.keyAt keys).totalCompare (a.keyAt keys)).isLE
      else ((a.keyAt keys).totalCompare (b.keyAt keys)).isLE) =
        fun a b => compareKeys keys descending a b != .gt := by
    funext a b
    rw [compareKeys_eq, ← Value.totalCompare_swap (a.keyAt keys)]
    -- descending, the tuples change places, and a swapped order is turned around
    cases descending with
    | true => cases (b.keyAt keys).totalCompare (a.keyAt keys) <;> rfl
    | false => cases (a.keyAt keys).totalCompare (b.keyAt keys) <;> rfl
  rw [sortedBy, sortRows, hle]

/-- A reservoir that has been offered rows one after another holds the sample of all of them. -/
theorem held_offers (reservoir : Reservoir KeyStream) (rows : List Row) :
    (rows.foldl Reservoir.offer reservoir).held =
      sampledAfter reservoir.size reservoir.seen reservoir.held reservoir.generator rows := by
  -- a row is offered to the reservoir that the rows before it have left, so that varies
  induction rows generalizing reservoir with
  | nil => rfl
  | cons row rows ih =>
    rw [List.foldl_cons, ih, sampledAfter, Reservoir.offer]
    -- the reservoir has room, or it has no room at all, or it draws
    split_ifs with hroom hsize
    · rfl
    · rfl
    · dsimp only [Draws.draw]
      split_ifs <;> rfl

namespace Stage

/-- A sample stage ends with what its reservoir holds after all rows. -/
theorem onStream_sample (reservoir : Reservoir KeyStream) (s : RowStream) :
    (sample reservoir).onStream s =
      s.rearrange fun rows => (rows.foldl Reservoir.offer reservoir).rows := by
  simp only [Reservoir.rows, held_offers]
  rfl

/-- A sort stage ends with the rows that it has held, sorted. -/
theorem onStream_sort (width : Nat) (keys : List Nat) (descending : Bool) (held : List Row)
    (s : RowStream) :
    (sort width keys descending held).onStream s =
      s.rearrange fun rows => sortRows keys descending (held ++ rows) := by
  rw [← sortedBy_eq_sortRows]
  rfl

end Stage

/-! ## Equations -/

namespace RowStream

/-- There is nothing to cut of a stream without rows. -/
theorem limit_ended (n : Nat) : RowStream.ended.limit n = .ended := by
  rcases n with _ | _ | n <;> rfl

/-- An error comes through a limit that no row has reached. -/
theorem limit_failed (n : Nat) (e : Error) : (RowStream.failed e).limit n = .failed e := by
  rcases n with _ | _ | n <;> rfl

/-- A limit passes a row on and counts it, and ends with the last one. -/
theorem limit_succ_row (n : Nat) (r : Row) (rest : RowStream) :
    (RowStream.row r rest).limit (n + 1) = .row r (if n = 0 then .ended else rest.limit n) := by
  cases n <;> rfl

/-- A stream of rows has these rows. -/
theorem result_ofRows (rows : List Row) : (ofRows rows).result = .ok rows := by
  induction rows with
  | nil => rfl
  | cons row rows ih =>
    rw [ofRows, result, ih]
    rfl

/-- The first rows of a stream that ends normally. -/
theorem result_limit {s : RowStream} {rows : List Row} (h : s.result = .ok rows) (n : Nat) :
    (s.limit n).result = .ok (rows.take n) := by
  -- a row uses up one of the limit
  induction s generalizing n rows with
  | ended =>
    obtain rfl : [] = rows := Except.ok.inj h
    rw [limit_ended, List.take_nil, result]
  | failed e => cases h
  | row r rest ih =>
    obtain ⟨tail, htail, hrows⟩ := bind_eq_ok_iff.1 h
    obtain rfl : r :: tail = rows := Except.ok.inj hrows
    rcases n with _ | n
    · rfl
    · rw [limit_succ_row, List.take_succ_cons, result]
      split
      · -- the stream ends with its last row, though more may follow
        rename_i hlast
        rw [hlast, List.take_zero]
        rfl
      · rw [ih htail]
        rfl

/-- A rule on a stream, up to the error that ends it. -/
theorem result_mapRows (f : Row → Except Error (Option Row)) (s : RowStream) :
    Agree (s.mapRows f).result (do (← s.result).filterMapM f) := by
  induction s with
  | ended => exact Agree.refl _
  | failed e => exact Agree.refl _
  | row r rest ih =>
    -- a stream meets the failure of a row before the failures behind it, a table after them
    simp only [mapRows, result, bind_assoc, pure_bind, List.filterMapM_cons]
    refine Agree.trans ?_ (Agree.swap _ _ _)
    cases f r with
    | error e => exact Agree.refl _
    | ok image =>
      cases image with
      | none => exact ih
      | some image =>
        have hrest := ih.bind fun out _ => Agree.refl (pure (image :: out))
        rw [bind_assoc] at hrest
        exact hrest

/-- Rearranging a stream rearranges its rows, if it has any to give. -/
theorem result_rearrange (f : List Row → List Row) (s : RowStream) :
    (s.rearrange f).result = f <$> s.result := by
  unfold rearrange
  cases s.result with
  | error e => rfl
  | ok rows => exact result_ofRows (f rows)

/-- Two rearrangements are one. -/
theorem rearrange_rearrange (f g : List Row → List Row) (s : RowStream) :
    (s.rearrange f).rearrange g = s.rearrange fun rows => g (f rows) := by
  cases hs : s.result with
  | error e =>
    simp only [rearrange, hs]
    rfl
  | ok rows => simp only [rearrange, hs, result_ofRows]

/-- A stream without rows is rearranged from the empty list. -/
theorem rearrange_ended (f : List Row → List Row) : RowStream.ended.rearrange f = ofRows (f []) :=
  rfl

/-- A row of the stream comes in front of the others. -/
theorem rearrange_row (f : List Row → List Row) (r : Row) (rest : RowStream) :
    (RowStream.row r rest).rearrange f = rest.rearrange fun rows => f (r :: rows) := by
  simp only [rearrange, result]
  cases rest.result <;> rfl

/-! ## Widths -/

/-- All rows of a stream have a width. -/
def HasWidth (width : Nat) : RowStream → Prop
  | .ended | .failed _ => True
  | .row r rest => r.length = width ∧ rest.HasWidth width

/-- Rows of a width make a stream of that width. -/
theorem hasWidth_ofRows {width : Nat} {rows : List Row} (h : ∀ r ∈ rows, r.length = width) :
    (ofRows rows).HasWidth width := by
  induction rows with
  | nil => trivial
  | cons r rest ih =>
    obtain ⟨hr, hrest⟩ := List.forall_mem_cons.1 h
    exact ⟨hr, ih hrest⟩

/-- Rows of the width of a source come through as they are. -/
theorem ofItems_map_ok {width : Nat} {rows : List Row} (h : ∀ row ∈ rows, row.length = width) :
    ofItems width (rows.map .ok) = ofRows rows := by
  induction rows with
  | nil => rfl
  | cons row rows ih =>
    obtain ⟨hrow, hrows⟩ := List.forall_mem_cons.1 h
    have hwidth : expectWidth row.values width = .ok () := expectWidth_eq_ok_iff.2 hrow
    simp only [List.map_cons, ofItems, hwidth, ih hrows, ofRows]

/-- A source gives rows of its own width only. -/
theorem hasWidth_ofItems (width : Nat) (items : List (Except Error Row)) :
    (ofItems width items).HasWidth width := by
  induction items with
  | nil => trivial
  | cons item items ih =>
    cases item with
    | error e => trivial
    | ok r =>
      simp only [ofItems]
      split
      · -- a row of another width ends the stream
        trivial
      · rename_i hwidth
        exact ⟨expectWidth_eq_ok_iff.1 hwidth, ih⟩

/-- The rows that a stream ends with have its width. -/
theorem HasWidth.length_of_result {width : Nat} {s : RowStream} (h : s.HasWidth width)
    {rows : List Row} (hrows : s.result = .ok rows) : ∀ r ∈ rows, r.length = width := by
  induction s generalizing rows with
  | ended => exact Except.ok.inj hrows ▸ nofun
  | failed e => cases hrows
  | row r rest ih =>
    obtain ⟨tail, htail, hrows⟩ := bind_eq_ok_iff.1 hrows
    rw [← Except.ok.inj hrows]
    exact List.forall_mem_cons.2 ⟨h.1, ih h.2 htail⟩

/-- Rearranged rows have the width that the rearrangement gives them. -/
theorem HasWidth.rearrange {width : Nat} {s : RowStream} (h : s.HasWidth width)
    {f : List Row → List Row}
    (hf : ∀ rows, (∀ r ∈ rows, r.length = width) → ∀ r ∈ f rows, r.length = width) :
    (s.rearrange f).HasWidth width := by
  unfold RowStream.rearrange
  split
  · rename_i rows hrows
    exact hasWidth_ofRows (hf rows (h.length_of_result hrows))
  · trivial

/-- A limit does not change rows. -/
theorem HasWidth.limit {width n : Nat} {s : RowStream} (h : s.HasWidth width) :
    (s.limit n).HasWidth width := by
  -- the cases of the limit: cut to nothing, the last row, a row before it, the two ends
  fun_induction RowStream.limit n s with
  | case1 => trivial
  | case2 r rest => exact ⟨h.1, trivial⟩
  | case3 n r rest ih => exact ⟨h.1, ih h.2⟩
  | case4 => trivial
  | case5 => trivial

end RowStream

/-- A stage turns a stream of its input width into a stream of its output width. -/
theorem Stage.Fits.onStream {input output : Nat} {stage : Stage} (h : stage.Fits input output)
    {s : RowStream} (hs : s.HasWidth input) : (stage.onStream s).HasWidth output := by
  cases stage with
  | each rule =>
    -- a rule works row by row, and what it drops or fails on adds no row
    induction s with
    | ended | failed e => trivial
    | row r rest ih =>
      have ih := ih hs.2
      simp only [Stage.onStream, RowStream.mapRows] at ih ⊢
      split
      · trivial
      · exact ih
      · rename_i image himage
        exact ⟨h r image hs.1 himage, ih⟩
  | limit rows seen => exact (show input = output from h) ▸ hs.limit
  | sample reservoir =>
    obtain ⟨rfl, hheld⟩ := h
    rw [onStream_sample]
    -- a sample holds rows that were in it and rows of the stream, and nothing else
    refine hs.rearrange fun rows hrows => Reservoir.forall_rows (P := fun r => r.length = input) ?_
    exact Reservoir.forall_held_offers (P := fun r => r.length = input) hheld hrows
  | sort width keys descending held =>
    obtain ⟨rfl, rfl, hheld⟩ := h
    rw [onStream_sort]
    refine hs.rearrange fun rows hrows row hrow => ?_
    -- a sorted row was held or has come
    rcases List.mem_append.1 (mem_sortRows.1 hrow) with hrow | hrow
    · exact hheld row hrow
    · exact hrows row hrow

/-- Stages that fit each other turn a stream of the first width into one of the last. -/
theorem Stage.FitAll.through {stages : List Stage} {input output : Nat}
    (h : Stage.FitAll stages input output) {s : RowStream} (hs : s.HasWidth input) :
    (s.through stages).HasWidth output := by
  induction stages generalizing s input with
  | nil => exact (show input = output from h) ▸ hs
  | cons stage rest ih =>
    obtain ⟨between, hstage, hrest⟩ := h
    exact ih hrest (hstage.onStream hs)

end RowFlow
