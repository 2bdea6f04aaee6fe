import RowFlow.Proofs.Pipeline.Equivalence
import RowFlow.Proofs.Pipeline.Filtering
import RowFlow.Proofs.Pipeline.Protocol

/-!
# How Many Rows Are Pulled

A limit asks to stop together with its last row, so a run behind a filter pulls the rows up to and
including the last one that the limit takes, and no others. A limit of no rows asks to stop only
when a row reaches it: one row is pulled for it, and discarded.
-/

namespace RowFlow

variable {α : Type}

/-! ## Rows up to a match -/

/-- The first `k` rows are the rows up to and including the `n`-th on which `p` is true, or all rows
    if `p` is true on fewer. -/
structure UpToMatch {β : Type} (p : β → Bool) (n : Nat) (rows : List β) (k : Nat) : Prop where
  le : k ≤ rows.length
  enough : n ≤ (rows.take k).countP p ∨ k = rows.length
  needed : ∀ j < k, (rows.take j).countP p < n

namespace UpToMatch

variable {β γ : Type} {p : β → Bool} {n k k' : Nat} {row : β} {rows : List β}

theorem nil (p : β → Bool) (n : Nat) : UpToMatch p n [] 0 :=
  ⟨Nat.le_refl _, .inr rfl, fun _ h => absurd h (Nat.not_lt_zero _)⟩

/-- The first matching row is enough for one match. -/
theorem last (hrow : p row = true) (rows : List β) : UpToMatch p 1 (row :: rows) 1 where
  le := Nat.succ_le_succ (Nat.zero_le _)
  enough := .inl (by simp [hrow])
  needed j hj := by simp [Nat.lt_one_iff.1 hj]

/-- Behind a row, as many more matches are needed as the row leaves. -/
theorem cons (h : UpToMatch p (n + 1) rows k) :
    UpToMatch p (n + 1 + if p row then 1 else 0) (row :: rows) (k + 1) where
  le := Nat.succ_le_succ h.le
  enough := by
    rw [List.take_succ_cons, List.countP_cons, List.length_cons]
    rcases h.enough with h | h
    · exact .inl (Nat.add_le_add_right h _)
    · exact .inr (congrArg (· + 1) h)
  needed j hj := by
    rcases j with _ | j
    · rw [List.take_zero, List.countP_nil]
      omega
    · rw [List.take_succ_cons, List.countP_cons]
      exact Nat.add_lt_add_right (h.needed j (Nat.lt_of_succ_lt_succ hj)) _

theorem unique (h : UpToMatch p n rows k) (h' : UpToMatch p n rows k') : k = k' := by
  rcases Nat.lt_trichotomy k k' with hlt | heq | hlt
  · rcases h.enough with henough | hall
    · exact absurd (h'.needed k hlt) (Nat.not_lt_of_le henough)
    · exact absurd (hall ▸ h'.le) (Nat.not_le_of_lt hlt)
  · exact heq
  · rcases h'.enough with henough | hall
    · exact absurd (h.needed k' hlt) (Nat.not_lt_of_le henough)
    · exact absurd (hall ▸ h.le) (Nat.not_le_of_lt hlt)

theorem exists_succ (p : β → Bool) (n : Nat) (rows : List β) :
    ∃ k, UpToMatch p (n + 1) rows k := by
  induction rows generalizing n with
  | nil => exact ⟨0, nil p _⟩
  | cons row rows ih =>
    have hmore (m : Nat) : ∃ k, UpToMatch p (m + 1 + if p row then 1 else 0) (row :: rows) k := by
      obtain ⟨k, hk⟩ := ih m
      exact ⟨k + 1, hk.cons⟩
    -- only with no further match to find does a matching row end the search
    cases hrow : p row with
    | false =>
      rw [hrow] at hmore
      exact hmore n
    | true =>
      rw [hrow] at hmore
      cases n with
      | zero => exact ⟨1, last hrow rows⟩
      | succ n => exact hmore n

theorem of_map {f : γ → β} {rows : List γ} (h : UpToMatch (p ∘ f) n rows k) :
    UpToMatch p n (rows.map f) k where
  le := by rw [List.length_map]; exact h.le
  enough := by rw [← List.map_take, List.countP_map, List.length_map]; exact h.enough
  needed j hj := by rw [← List.map_take, List.countP_map]; exact h.needed j hj

/-- If every row matches, the first `n` rows are enough. -/
theorem eq_min (h : UpToMatch (fun _ => true) n rows k) : k = min n rows.length := by
  have hcount (j : Nat) : (rows.take j).countP (fun _ => true) = min j rows.length := by
    rw [List.countP_true, List.length_take]
  refine h.unique ⟨Nat.min_le_right _ _, ?_, fun j hj => ?_⟩
  · rw [hcount]
    omega
  · rw [hcount]
    omega

/-- Looking for a first match even if none is asked for makes a difference if there are rows. -/
theorem iff_of_max (h : UpToMatch p (max n 1) rows k) :
    UpToMatch p n rows k ↔ 0 < n ∨ rows = [] := by
  constructor
  · intro hn
    rcases Nat.eq_zero_or_pos n with rfl | hpos
    · have hk : k = 0 := Nat.eq_zero_of_not_pos fun hk => Nat.not_lt_zero _ (hn.needed 0 hk)
      subst hk
      rcases h.enough with henough | hall
      · rw [List.take_zero, List.countP_nil] at henough
        exact absurd henough (by omega)
      · exact .inr (List.eq_nil_of_length_eq_zero hall.symm)
    · exact .inl hpos
  · rintro (hpos | rfl)
    · rwa [Nat.max_eq_left hpos] at h
    · rw [Nat.le_zero.1 h.le]
      exact nil p n

/-- A match beyond those asked for is among the rows if none is asked for and there is one. -/
theorem forall_match_needed_iff (h : UpToMatch p (max n 1) rows k) :
    (∀ j < k, ∀ row, rows[j]? = some row → p row = true → (rows.take j).countP p < n) ↔
      0 < n ∨ ∀ row ∈ rows, p row = false := by
  constructor
  · intro hneeded
    rcases Nat.eq_zero_or_pos n with rfl | hpos
    · refine .inr fun row hrow => Bool.eq_false_iff.2 fun hmatch => ?_
      -- the first match is among the rows, since one is looked for
      have hfirst : 0 < (rows.take k).countP p := by
        rcases h.enough with henough | rfl
        · exact henough
        · rw [List.take_length]
          exact List.countP_pos_iff.2 ⟨row, hrow, hmatch⟩
      obtain ⟨first, hfirst, hmatch⟩ := List.countP_pos_iff.1 hfirst
      obtain ⟨j, hj, hget⟩ := List.mem_take_iff_getElem.1 hfirst
      have hsome : rows[j]? = some first := List.getElem?_eq_some_iff.2 ⟨_, hget⟩
      exact Nat.not_lt_zero _ (hneeded j (Nat.lt_of_lt_of_le hj (Nat.min_le_left _ _)) first hsome
        hmatch)
    · exact .inl hpos
  · rintro (hpos | hnone) j hj row hrow hmatch
    · rw [Nat.max_eq_left hpos] at h
      exact h.needed j hj
    · exact absurd hmatch (Bool.eq_false_iff.1 (hnone row (List.mem_of_getElem? hrow)))

end UpToMatch

/-! ## Consumers that count down -/

/-- States of consumers by the number of further matching rows with the last of which they ask to
    stop, for rows with a property `P`. -/
structure Countdown (α : Type) {σ : Type} [Consumer (Session α) σ] (P : Row → Prop)
    (p : Row → Bool) (D : Nat → σ → Prop) : Prop where
  more {m : Nat} {row : Row} {s : σ} (w : Session α) : P row →
    D (m + 1 + if p row then 1 else 0) s →
      ∃ s' w', Consumer.consume row s w = (.ok .more, s', w') ∧ D (m + 1) s'
  last {row : Row} {s : σ} (w : Session α) : P row → p row = true → D 1 s →
    ∃ s' w', Consumer.consume row s w = (.ok .stop, s', w')

namespace Countdown

section
variable {σ : Type} [Consumer (Session α) σ] {P : Row → Prop} {p : Row → Bool} {D : Nat → σ → Prop}
  (options : Options α) {width : Nat}

/-- A run pulls the rows up to the one with which the consumer asks to stop. -/
theorem pushAll (h : Countdown α P p D) (htouch : TouchesEnd α σ) {rows : List Row}
    (hrows : ∀ row ∈ rows, row.length = width ∧ P row) {m : Nat} {s : σ} (hs : D (m + 1) s)
    (pulled : Nat) (w : Session α) :
    ∃ k s' w', RowFlow.pushAll options width (rows.map .ok) pulled s w = (.ok (), s', w') ∧
      UpToMatch p (m + 1) rows k ∧ w'.counters.rowsPulled = w.counters.rowsPulled + k := by
  induction rows generalizing m s pulled w with
  | nil => exact ⟨0, s, w, rfl, .nil p _, rfl⟩
  | cons row rows ih =>
    obtain ⟨⟨hrow, hP⟩, hrows⟩ := List.forall_mem_cons.1 hrows
    -- the consumer does not count the row again
    have htouched := (htouch.consume row s w.pulled).rowsPulled
    have hmore {m : Nat} (hs : D (m + 1 + if p row then 1 else 0) s) :
        ∃ k s' w', RowFlow.pushAll options width ((row :: rows).map .ok) pulled s w =
            (.ok (), s', w') ∧
          UpToMatch p (m + 1 + if p row then 1 else 0) (row :: rows) k ∧
            w'.counters.rowsPulled = w.counters.rowsPulled + k := by
      obtain ⟨s', w', hconsume, hs'⟩ := h.more w.pulled hP hs
      obtain ⟨k, s'', w'', hpush, hk, hsum⟩ := ih hrows hs' (pulled + 1) w'
      refine ⟨k + 1, s'', w'', ?_, hk.cons, ?_⟩
      · simp only [List.map_cons, RowFlow.pushAll, pushRow_of_more hrow hconsume]
        exact hpush
      · rw [hconsume] at htouched
        rw [hsum, htouched, Session.rowsPulled_pulled, Nat.add_right_comm, Nat.add_assoc]
    -- the consumer goes on unless this is the last match that it waits for
    cases hmatch : p row with
    | false =>
      rw [hmatch] at hmore
      exact hmore hs
    | true =>
      rw [hmatch] at hmore
      cases m with
      | succ m => exact hmore hs
      | zero =>
        obtain ⟨s', w', hconsume⟩ := h.last w.pulled hP hmatch hs
        refine ⟨1, s', w'.stopped options (pulled + 1), ?_, .last hmatch rows, ?_⟩
        · simp only [List.map_cons, RowFlow.pushAll, pushRow_of_stop hrow hconsume]
        · rw [hconsume] at htouched
          rw [Session.stopped, Session.counters_report]
          exact htouched

theorem pushAndClose (h : Countdown α P p D) (htouch : TouchesEnd α σ) {rows : List Row}
    (hrows : ∀ row ∈ rows, row.length = width ∧ P row) {m k : Nat} {s : σ} (hs : D (m + 1) s)
    (hk : UpToMatch p (m + 1) rows k) (w : Session α) :
    (RowFlow.pushAndClose options width (rows.map .ok) s w).2.counters.rowsPulled =
      w.counters.rowsPulled + k := by
  obtain ⟨k', s', w', hpush, hk', hsum⟩ := h.pushAll options htouch hrows hs 0 w
  obtain rfl := hk.unique hk'
  rw [RowFlow.pushAndClose, hpush, ← hsum]
  exact (htouch.close s' w').rowsPulled

end

/-! ## Limits and filters -/

section
variable {width : Nat} {state : List Row → Collector} {output : List Row → Output}

/-- A limit asks to stop with its last row, or with the first one if it takes none. -/
theorem limit (h : Gathers width state output) (n : Nat) :
    Countdown α (·.length = width) (fun _ => true) fun m s => ∃ seen held,
      s = Link.start (Stage.limit n seen) (Guarded.start (Metered.mk (state held))) ∧
        m + seen = max n 1 where
  more := by
    rintro m row _ w hrow ⟨seen, held, rfl, hseen⟩
    -- with more matches to come, the limit has not been reached and is not reached now
    have hroom : ¬ n ≤ seen ∧ seen + 1 ≠ n := by
      simp only [if_true] at hseen
      omega
    have hhandle : (Stage.limit n seen).handle row = .forward row fun answer =>
        .done (answer, .limit n (seen + 1)) := by
      simp only [Stage.handle, if_neg hroom.1, if_neg hroom.2]
    refine ⟨_, _, Link.consume_of_forward id hhandle (h.consume_end held hrow w), seen + 1,
      held ++ [row], rfl, ?_⟩
    simp only [if_true] at hseen
    omega
  last := by
    rintro row _ w hrow - ⟨seen, held, rfl, hseen⟩
    by_cases hfull : n ≤ seen
    -- a limit is full before its first row only if it takes none
    · have hhandle : (Stage.limit n seen).handle row = .done (.ok .stop, .limit n seen) := by
        simp only [Stage.handle, if_pos hfull]
      exact ⟨_, _, Link.consume_of_done hhandle _ w⟩
    -- otherwise this is the row that makes it full
    · have hlast : seen + 1 = n := by omega
      have hhandle : (Stage.limit n seen).handle row = .forward row fun answer =>
          .done (answer.map fun _ => .stop, .limit n (seen + 1)) := by
        simp only [Stage.handle, if_neg hfull, if_pos hlast]
      exact ⟨_, _, Link.consume_of_forward (Except.map fun _ => .stop) hhandle
        (h.consume_end held hrow w)⟩

/-- In front of a consumer that counts down rows, a filter counts down the rows it keeps. -/
theorem filter {σ : Type} [Consumer (Session α) σ] {P : Row → Prop} {D : Nat → σ → Prop}
    (h : Countdown α P (fun _ => true) D) (evaluator : Evaluator) (truth : List Value → Bool) :
    Countdown α (fun row => P row ∧ evaluator.evalTruth row.values = .ok (truth row.values))
      (truth ∘ Row.values) fun m s => ∃ d,
        s = Link.start (Stage.each (.filter evaluator false)) d ∧ D m d where
  more := by
    rintro m row _ w ⟨hP, htruth⟩ ⟨d, rfl, hd⟩
    cases hmatch : truth row.values with
    -- a row that does not match goes no further, and the count stays
    | false =>
      have hhandle : (Stage.each (.filter evaluator false)).handle row =
          .done (.ok .more, .each (.filter evaluator false)) := by
        simp only [Stage.handle, RowRule.apply, htruth, hmatch, bind, Except.bind, pure,
          Except.pure, if_true]
      rw [Function.comp_apply, hmatch] at hd
      exact ⟨_, _, Link.consume_of_done hhandle d w, d, rfl, hd⟩
    | true =>
      have hhandle : (Stage.each (.filter evaluator false)).handle row =
          .forward row fun answer => .done (answer, .each (.filter evaluator false)) := by
        simp only [Stage.handle, RowRule.apply, htruth, hmatch, bind, Except.bind, pure,
          Except.pure, Bool.true_eq_false, if_false]
      rw [Function.comp_apply, hmatch] at hd
      obtain ⟨d', w', hconsume, hd'⟩ := h.more w hP hd
      exact ⟨_, _, Link.consume_of_forward id hhandle hconsume, d', rfl, hd'⟩
  last := by
    rintro row _ w ⟨hP, htruth⟩ hmatch ⟨d, rfl, hd⟩
    have hhandle : (Stage.each (.filter evaluator false)).handle row =
        .forward row fun answer => .done (answer, .each (.filter evaluator false)) := by
      simp only [Stage.handle, RowRule.apply, htruth, show truth row.values = true from hmatch,
        bind, Except.bind, pure, Except.pure, Bool.true_eq_false, if_false]
    obtain ⟨d', w', hconsume⟩ := h.last w hP rfl hd
    exact ⟨_, _, Link.consume_of_forward id hhandle hconsume⟩

end

end Countdown

/-! ## Runs over tables -/

namespace Pipeline

section
variable {table : Table} {stages : List Stage} {collector : Option Collector} {schema : Schema}
  {k : Nat}

/-- A run over a table pulls what its chain pulls. -/
theorem rowsPulled_run {pipeline : Pipeline Step α} {session : Session α}
    (hsource : pipeline.source = .table table)
    (hassembly : pipeline.assembly session.fresh session.files =
      .ok (table.schema.width, ⟨stages, collector, schema⟩))
    (hpulls : ∀ w : Session α, (pushAndClose pipeline.options table.schema.width
      (table.numberedRows.map .ok) (Chain.connect stages (Guarded.start (Metered.mk
        (collector.getD (.table schema []))))) w).2.counters.rowsPulled =
          w.counters.rowsPulled + k) :
    (pipeline.run session).2.counters.rowsPulled = session.counters.rowsPulled + k := by
  have hitems : (pipeline.source.openOn session.files session.spent).1 =
      .ok (table.numberedRows.map .ok) := by
    rw [hsource]
    rfl
  -- only what happens in between pulls rows
  have hbegun := (Session.Logged.begun pipeline pipeline.length schema session).rowsPulled
  rw [run_of_opened hassembly hitems, ← hbegun]
  exact (Session.Logged.closeRun pipeline.options _ _).rowsPulled.trans (hpulls _)

end

/-- A run of a pipeline pulls a number of rows, whether it makes a table, counts or collects the
    rows, or has a reader who asks until there are no more. -/
structure Pulls (pipeline : Pipeline Step α) (session : Session α) (k : Nat) : Prop where
  run : (pipeline.run session).2.counters.rowsPulled = session.counters.rowsPulled + k
  toTable : (pipeline.toTable session).2.counters.rowsPulled = session.counters.rowsPulled + k
  count : (pipeline.count session).2.counters.rowsPulled = session.counters.rowsPulled + k
  collectRows : (pipeline.collectRows session).2.counters.rowsPulled =
    session.counters.rowsPulled + k
  read : ∃ n it opened asked, pipeline.iterate session = (.ok ⟨n, it⟩, opened) ∧
    ∀ more, (it.ask (asked + more) opened).1.getLast? = some none ∧
      (it.ask (asked + more) opened).2.2.counters.rowsPulled = session.counters.rowsPulled + k

section
variable {table : Table} {ts : List Transform} {stages : List Stage} {schema : Schema} {k : Nat}
  {options : Options α} {session : Session α}
  (hassembly : (ofTransforms (.table table) ts options).assembly session.fresh session.files =
    .ok (table.schema.width, ⟨stages, none, schema⟩))
  (hpulls : ∀ {state : List Row → Collector} {output : List Row → Output},
    Gathers schema.width state output → ∀ w : Session α,
      (pushAndClose options table.schema.width (table.numberedRows.map .ok)
        (Chain.connect stages (Guarded.start (Metered.mk (state [])))) w).2.counters.rowsPulled =
          w.counters.rowsPulled + k)
include hassembly hpulls

theorem rowsPulled_collect {c : Collection} (opened : Schema → Collector)
    {state : List Row → Collector} {output : List Row → Output}
    (hc : ∀ schema, c.openOn schema = .ok (opened schema)) (hstate : opened schema = state [])
    (hgathers : Gathers schema.width state output) :
    (((ofTransforms (.table table) ts options).append (.collect c)).run session
      ).2.counters.rowsPulled = session.counters.rowsPulled + k := by
  have happend : ((ofTransforms (.table table) ts options).append (.collect c)).assembly
      session.fresh session.files =
        .ok (table.schema.width, ⟨stages, some (opened schema), schema⟩) := by
    rw [assembly_append_collect hc, hassembly]
    rfl
  refine rowsPulled_run rfl happend ?_
  rw [Option.getD_some, hstate]
  exact hpulls hgathers

theorem pulls_of_gathering {rows : List Row}
    (hrows : ((ofTransforms (.table table) ts options).collectRows session).1 = .ok rows) :
    (ofTransforms (.table table) ts options).Pulls session k := by
  have htable : ((ofTransforms (.table table) ts options).toTable session).2.counters.rowsPulled =
      session.counters.rowsPulled + k :=
    rowsPulled_collect hassembly hpulls (fun schema => .table schema []) (fun _ => rfl) rfl
      (gathers_table schema)
  have hcount : ((ofTransforms (.table table) ts options).count session).2.counters.rowsPulled =
      session.counters.rowsPulled + k :=
    rowsPulled_collect hassembly hpulls (fun _ => .count 0) (fun _ => rfl) rfl
      (gathers_count schema.width)
  have hcollect : ((ofTransforms (.table table) ts options).collectRows session
      ).2.counters.rowsPulled = session.counters.rowsPulled + k :=
    rowsPulled_collect hassembly hpulls (fun schema => .rows schema.width []) (fun _ => rfl) rfl
      (gathers_rows schema.width)
  refine ⟨rowsPulled_run rfl hassembly (hpulls (gathers_table schema)), htable, hcount, hcollect,
    ?_⟩
  -- a reader does to the counters what collecting the rows does
  have hsource : (Source.table table).Rereadable := trivial
  obtain ⟨n, it, opened, hiterate, hasked⟩ :=
    gives_of_collectRows hsource rfl (.refl _ session.fresh) hrows
  refine ⟨n, it, opened, rows.length + 1, hiterate, fun more => ?_⟩
  obtain ⟨hanswers, hstep⟩ := hasked more
  obtain ⟨added, hs, ht⟩ := hstep.counters
  refine ⟨?_, ?_⟩
  · rw [hanswers, List.replicate_succ', ← List.append_assoc, List.getLast?_concat]
  · rw [ht, ← hs]
    exact hcollect

end

/-! ## Filters in front of limits -/

section
variable {table : Table} {e : Expr} {evaluator : Evaluator} {truth : List Value → Bool}

theorem assemble_filterLimit {entropy : Entropy} {schema : Schema}
    (hprep : e.prepare schema = .ok evaluator) (n : Nat) :
    assemble entropy 0 schema ([Transform.filter e false, .limit n].map Step.transform) =
      .ok ⟨[.each (.filter evaluator false), .limit n 0], none, schema⟩ := by
  rw [List.map_cons, assemble_transform]
  simp only [Transform.openOn, hprep, bind, Except.bind, pure, Except.pure]
  rfl

/-- The first rows of a table on which a predicate is true. -/
theorem collectRows_filterLimit (hprep : e.prepare table.schema = .ok evaluator)
    (hwidth : ∀ row ∈ table.rows, row.length = table.schema.width)
    (htruth : ∀ row ∈ table.rows, evaluator.evalTruth row = .ok (truth row)) (n : Nat)
    (options : Options α) (session : Session α) :
    ((ofTransforms (.table table) [.filter e false, .limit n] options).collectRows session).1 =
      .ok ((table.numberedRows.filter fun row => truth row.values).take n) := by
  have hopening : (ofTransforms (.table table) [.filter e false, .limit n] options).opening
      session.fresh session.files session.spent = .ok ⟨table.schema.width,
        [.each (.filter evaluator false), .limit n 0], table.schema,
        table.numberedRows.map .ok⟩ := by
    rw [opening_table, assemble_filterLimit hprep]
    rfl
  have hrows := RowStream.ofItems_map_ok (Table.forall_mem_numberedRows.2 hwidth)
  rw [collectRows_of_opening hopening, Launch.stream, RowStream.through, List.foldl_cons,
    List.foldl_cons, List.foldl_nil, Stage.onStream, Stage.onStream, hrows,
    RowStream.mapRows_filter (Table.forall_mem_numberedRows.2 htruth)]
  exact RowStream.result_limit (RowStream.result_ofRows _) n

/-- **Rows are pulled up to the last match.** The first `n` rows of a table on which a predicate is
    true are found by pulling the rows up to and including the last one of them, and by pulling all
    rows if there are fewer; the first `n` rows by pulling them alone. But if no row is asked for,
    the first one that the limit could take is awaited: then and only then a row is pulled that it
    discards. -/
theorem pulls_up_to_match (hprep : e.prepare table.schema = .ok evaluator)
    (hwidth : ∀ row ∈ table.rows, row.length = table.schema.width)
    (htruth : ∀ row ∈ table.rows, evaluator.evalTruth row = .ok (truth row)) (n : Nat)
    (options : Options α) (session : Session α) :
    ∃ k, ((ofTransforms (.table table) [] options).filterLimit e n).Pulls session k ∧
      UpToMatch truth (max n 1) table.rows k ∧
      (UpToMatch truth n table.rows k ↔ 0 < n ∨ table.rows = []) ∧
      ((∀ j < k, ∀ row, table.rows[j]? = some row → truth row = true →
        (table.rows.take j).countP truth < n) ↔ 0 < n ∨ ∀ row ∈ table.rows, truth row = false) ∧
      ((ofTransforms (.table table) [] options).head n session).2.counters.rowsPulled =
        session.counters.rowsPulled + min (max n 1) table.rows.length := by
  -- one match is looked for even if none is asked for
  obtain ⟨m, hm⟩ : ∃ m, max n 1 = m + 1 := ⟨max n 1 - 1, by omega⟩
  obtain ⟨k, hk⟩ := UpToMatch.exists_succ (truth ∘ Row.values) m table.numberedRows
  have hmatch : UpToMatch truth (max n 1) table.rows k := by
    have hvalues := hk.of_map
    rwa [Table.numberedRows, map_values_numbered, ← hm] at hvalues
  have hnumbered : ∀ row ∈ table.numberedRows, row.length = table.schema.width :=
    Table.forall_mem_numberedRows.2 hwidth
  have htruths : ∀ row ∈ table.numberedRows,
      evaluator.evalTruth row.values = .ok (truth row.values) :=
    Table.forall_mem_numberedRows.2 htruth
  refine ⟨k, ?_, hmatch, hmatch.iff_of_max, hmatch.forall_match_needed_iff, ?_⟩
  · have hassembly : (ofTransforms (.table table) [.filter e false, .limit n] options).assembly
        session.fresh session.files = .ok (table.schema.width,
          ⟨[.each (.filter evaluator false), .limit n 0], none, table.schema⟩) :=
      assembly_eq_ok_iff.2 ⟨table.schema, rfl, assemble_filterLimit hprep n, rfl⟩
    refine pulls_of_gathering hassembly (fun hgathers w => ?_)
      (collectRows_filterLimit hprep hwidth htruth n options session)
    -- the filter counts down the rows that it lets through to the limit
    exact ((Countdown.limit hgathers n).filter evaluator truth).pushAndClose options
      (Chain.touchesEnd 2) (fun row hrow => ⟨hnumbered row hrow, hnumbered row hrow,
        htruths row hrow⟩) ⟨_, rfl, 0, [], rfl, hm.symm⟩ hk w
  · obtain ⟨k, hk⟩ := UpToMatch.exists_succ (fun _ => true) m table.numberedRows
    have hmin : k = min (max n 1) table.rows.length := by
      rw [hk.eq_min, hm, ← map_values_numbered table.rows, List.length_map, Table.numberedRows]
    rw [← hmin]
    have hassembly : (ofTransforms (.table table) [.limit n] options).assembly session.fresh
        session.files = .ok (table.schema.width, ⟨[.limit n 0], none, table.schema⟩) := rfl
    refine rowsPulled_collect hassembly (fun hgathers w => ?_) (fun schema => .table schema [])
      (fun _ => rfl) rfl (gathers_table table.schema)
    exact (Countdown.limit hgathers n).pushAndClose options (Chain.touchesEnd 1)
      (fun row hrow => ⟨hnumbered row hrow, hnumbered row hrow⟩) ⟨0, [], rfl, hm.symm⟩ hk w

/-- Orders of two customers. -/
def orders : Table :=
  ⟨⟨[⟨"customer", .int64⟩]⟩, [[.int64 1], [.int64 7], [.int64 7], [.int64 1], [.int64 7]]⟩

/-- The first two orders of the second customer are found by pulling three rows. -/
theorem orders_pulled_to_second :
    ∃ (evaluator : Evaluator) (truth : List Value → Bool),
      (Expr.columnIs (.name "customer") (.int64 7)).prepare orders.schema = .ok evaluator ∧
      (∀ row ∈ orders.rows, row.length = orders.schema.width) ∧
      (∀ row ∈ orders.rows, evaluator.evalTruth row = .ok (truth row)) ∧
      ((ofTransforms (.table orders) [] .unobserved).filterLimit
        (.columnIs (.name "customer") (.int64 7)) 2).Pulls (.start .empty ()) 3 := by
  have hcolumn : orders.schema.resolve (.name "customer") = .ok 0 := rfl
  have hwidth : ∀ row ∈ orders.rows, row.length = orders.schema.width := by decide
  obtain ⟨evaluator, hprep, heval⟩ := Expr.prepare_columnIs hcolumn (.int64 7)
  have htruth : ∀ row ∈ orders.rows, evaluator.evalTruth row =
      .ok (Operator.equal? (row.getD 0 .null) (.int64 7) == some true) := fun row hrow =>
    heval row (hwidth row hrow)
  obtain ⟨k, hpulls, hmatch, -⟩ :=
    pulls_up_to_match hprep hwidth htruth 2 .unobserved (.start .empty ())
  have hthree : UpToMatch (fun row : List Value =>
      Operator.equal? (row.getD 0 .null) (.int64 7) == some true) 2 orders.rows 3 :=
    ⟨by decide, .inl (by decide +kernel), by decide +kernel⟩
  obtain rfl : k = 3 := hmatch.unique hthree
  exact ⟨evaluator, _, hprep, hwidth, htruth, hpulls⟩

/-- For no orders at all, one row is pulled, and for none of the second customer two are. -/
theorem orders_pulled_for_none :
    ((ofTransforms (.table orders) [] .unobserved).head 0 (.start .empty ())
        ).2.counters.rowsPulled = 1 ∧
      (((ofTransforms (.table orders) [] .unobserved).filterLimit
        (.columnIs (.name "customer") (.int64 7)) 0).toTable (.start .empty ())
          ).2.counters.rowsPulled = 2 := by
  refine ⟨by decide +kernel, by decide +kernel⟩

end

end Pipeline

end RowFlow
