import RowFlow.Proofs.Expr.Validation
import RowFlow.Proofs.Pipeline.Contract
import RowFlow.Proofs.Stream.Delivery

/-!
# Refusing Rows of Other Widths

A step is opened against a schema, and a row of another width that reaches it has been built by
somebody else. A step that checks widths answers such a row with a mismatch, whatever has come
before, and nothing changes: the row is not passed on, not held, not counted and not written. A
limit, a renaming, a sample and a row counter do not look at the width. These are the only ones that
let the row in (`Step.refuses_iff_checksWidth`).
-/

namespace RowFlow

/-! ## Mismatches -/

/-- The error of a row that does not have a width. -/
def Row.mismatch (row : Row) (width : Nat) : Error := .schemaMismatch (.rowWidth row.length width)

variable {row : Row} {width : Nat}

/-- A row of another width is a mismatch. -/
theorem expectWidth_of_ne (h : row.length ≠ width) :
    expectWidth row.values width = .error (row.mismatch width) :=
  if_neg h

/-- A prepared expression checks the width before it looks at any value. -/
theorem Expr.eval_of_width_ne {schema : Schema} {e : Expr} {evaluator : Evaluator}
    (hprep : e.prepare schema = .ok evaluator) (h : row.length ≠ schema.width) :
    evaluator.eval row.values = .error (row.mismatch schema.width) := by
  rw [← width_of_prepare hprep] at h ⊢
  rw [Evaluator.eval, expectWidth_of_ne h]
  rfl

/-! ## Stages that guard a width -/

/-- A rule that fails on rows of other widths, with the mismatch. -/
def RowRule.Guards (width : Nat) (rule : RowRule) : Prop :=
  ∀ row : Row, row.length ≠ width → rule.apply row = .error (row.mismatch width)

/-- A rule guards the width that it checks before it does anything else. -/
theorem RowRule.Guards.of_checked {rule : RowRule} {width : Nat}
    {rest : Row → Unit → Except Error (Option Row)}
    (h : ∀ row : Row, rule.apply row = expectWidth row.values width >>= rest row) :
    rule.Guards width := by
  intro row hrow
  rw [h, expectWidth_of_ne hrow]
  rfl

namespace Stage

/-- A stage that takes in rows of one width only. -/
def Guards (width : Nat) : Stage → Prop
  | .each rule => rule.Guards width
  | .limit _ _ | .sample _ => False
  | .sort own _ _ _ => own = width

/-- A stage answers a row of another width by itself, and stays as it is. -/
theorem handle_of_width_ne {stage : Stage} (h : stage.Guards width) (hrow : row.length ≠ width) :
    stage.handle row = .done (.error (row.mismatch width), stage) := by
  cases stage with
  | each rule => simp only [handle, h row hrow]
  | limit _ _ => exact h.elim
  | sample _ => exact h.elim
  | sort own keys descending held =>
    obtain rfl : own = width := h
    simp only [handle, expectWidth_of_ne hrow]

/-- A stage that guards a width still does so after any row. -/
theorem handle_guards {stage : Stage} (h : stage.Guards width) (row : Row) :
    (stage.handle row).Sends (fun _ => True) fun r => r.2.Guards width := by
  cases stage with
  | each rule =>
    simp only [handle]
    split
    · exact h
    · exact h
    · -- whatever the image of the row is answered with, the rule is the same
      exact ⟨trivial, fun _ => h⟩
  | limit _ _ => exact h.elim
  | sample _ => exact h.elim
  | sort own keys descending held =>
    simp only [handle]
    split
    · exact h
    · exact h

/-- A stage that drains still guards its width. -/
theorem drain_guards {stage : Stage} (h : stage.Guards width) :
    stage.drain.Sends (fun _ => True) fun r => r.2.Guards width := by
  cases stage with
  | each rule => exact h
  | limit _ _ => exact h.elim
  | sample _ => exact h.elim
  | sort own keys descending held =>
    exact Feed.Sends.map (Feed.sends_ofRows (fun _ _ => trivial) fun _ => h)

end Stage

/-! ## Collectors that guard a width -/

namespace Collector

/-- A collector that takes in rows of one width only. -/
def Guards (width : Nat) (collector : Collector) : Prop := collector.width? = some width

/-- A collector answers a row of another width with the mismatch, and neither it nor the files
    change. -/
theorem consume_of_width_ne {collector : Collector} (h : collector.Guards width)
    (hrow : row.length ≠ width) (files : Files) :
    Consumer.consume row collector files = (.error (row.mismatch width), collector, files) := by
  have hwidth : collector.width? = some width := h
  simp only [Consumer.consume, consume, hwidth, Option.map_some, Option.getD_some,
    expectWidth_of_ne hrow]

/-- Taking in a row does not change the width that a collector checks. -/
theorem width?_take (row : Row) (collector : Collector) (files : Files) :
    (collector.take row files).2.1.width? = collector.width? := by
  cases collector with
  | csvFile writer =>
    exact congrArg some (writer.put_within (F := fun _ => True) row.values files).2
  | _ => rfl

/-- Closing does not change it either. -/
theorem width?_close (collector : Collector) (files : Files) :
    (collector.close files).2.1.width? = collector.width? := by
  cases collector with
  | csvFile writer => exact congrArg some (writer.create_within (F := fun _ => True) files).2
  | _ => rfl

/-- A collector that guards a width still does so after any row. -/
theorem consume_guards {collector : Collector} (h : collector.Guards width) (row : Row)
    (files : Files) : (Consumer.consume row collector files).2.1.Guards width := by
  simp only [Consumer.consume, consume]
  split
  · exact h
  · exact (width?_take row collector files).trans h

end Collector

/-! ## Requests -/

section
variable {ω σ : Type} [Consumer ω σ]

/-- States that no call leads out of honour the contract that promises nothing. -/
theorem Honours.of_kept {I : σ → Prop}
    (hconsume : ∀ (row : Row) (s : σ) (w : ω), I s → I (Consumer.consume row s w).2.1)
    (hclose : ∀ (s : σ) (w : ω), I s → I (Consumer.close s w).2.1) :
    Honours ω (fun _ => True) (fun _ => True) (fun _ => True) I where
  consume row s w _ hs := ⟨fun _ _ _ => trivial, hconsume row s w hs⟩
  close s w hs := ⟨fun _ _ _ => trivial, fun _ _ => trivial, hclose s w hs⟩

/-- What a feed ends with whatever it is answered, it ends with for all answers. -/
theorem Feed.Sends.ends {α : Type} {P : Row → Prop} {Q : α → Prop} {feed : Feed α}
    (h : feed.Sends P Q) (E : Error → Prop) : feed.Ends E Q := by
  induction feed with
  | done result => exact h
  | forward row next ih => exact fun answer _ => ih answer (h.2 answer)

/-- Whatever is asked of states that no call leads out of, they stay among themselves. -/
theorem Honours.serve_kept {I : σ → Prop}
    (h : Honours ω (fun _ => True) (fun _ => True) (fun _ => True) I) {s : σ} (hs : I s)
    (requests : List (Request ω)) : I (RowFlow.serve requests s).2 := by
  have hhanded : ∀ request ∈ requests, request.Hands fun _ => True := by
    intro request _
    cases request <;> trivial
  exact (h.serve hhanded hs).2

/-- Stages that guard a width put up with any consumer behind them. -/
theorem Stage.supplies_guards (width : Nat) :
    Supplies (fun _ => True) (fun _ => True) (fun _ => True) (Stage.Guards width) where
  handle row stage _ h := by
    have hsends := handle_guards h row
    refine ⟨hsends.imp fun _ _ => trivial, (hsends.ends _).imp fun _ hguards => ⟨?_, hguards⟩⟩
    -- the contract promises nothing of answers, so only the states count
    exact fun _ _ _ => trivial
  drain stage h := by
    have hsends := drain_guards h
    refine ⟨hsends.imp fun _ _ => trivial, (hsends.ends _).imp fun _ hguards => ⟨?_, hguards⟩⟩
    exact fun _ _ _ => trivial

/-- Whatever is asked of a link, its stage goes on to guard its width. -/
theorem Link.serve_guards {stage : Stage} (h : stage.Guards width) (downstream : σ)
    (requests : List (Request ω)) :
    (serve requests (Link.start stage downstream)).2.producer.Guards width := by
  -- nothing is asked of the consumer behind the link
  have hbehind : Honours ω (fun _ => True) (fun _ => True) (fun _ => True) fun _ : σ => True :=
    .of_kept (fun _ _ _ _ => trivial) fun _ _ _ => trivial
  have hlink := Honours.link (Stage.supplies_guards width) hbehind
  have hkept := hlink.serve_kept (s := Link.start stage downstream) ⟨h, trivial⟩ requests
  exact hkept.1

/-- Whatever is asked of a collector, it goes on to guard its width. -/
theorem Collector.serve_guards {collector : Collector} (h : collector.Guards width)
    (requests : List (Request Files)) : (serve requests collector).2.Guards width := by
  have hkept : Honours Files (fun _ => True) (fun _ => True) (fun _ => True) (Guards width) :=
    .of_kept (fun row _ files hs => consume_guards hs row files)
      fun s files hs => (width?_close s files).trans hs
  exact hkept.serve_kept h requests

end

/-! ## Steps -/

/-- Whether a step looks at the width of a row before it lets it in. -/
def Step.checksWidth : Step → Bool
  | .transform (.limit _) | .transform (.rename _ _) | .transform (.sample _ _)
  | .collect .count => false
  | _ => true

/-- A consumer answers a row with a mismatch, and neither it nor the world changes. -/
def Repels (ω : Type) {σ : Type} [Consumer ω σ] (width : Nat) (row : Row) (s : σ) : Prop :=
  ∀ w : ω, Consumer.consume row s w = (.error (row.mismatch width), s, w)

namespace Opened

/-- A freshly opened step refuses a row: a producer passes nothing on to the consumer behind it,
    whatever this is. -/
def RefusesFirst (width : Nat) (row : Row) : Opened Stage Collector → Prop
  | .producer stage _ => ∀ (ω σ : Type) [Consumer ω σ] (downstream : σ),
    Repels ω width row (Link.start stage downstream)
  | .collector state => Repels Files width row state

/-- Whatever has been asked of an opened step, it refuses all rows of other widths. This is said of
    a producer until it is closed or the consumer behind it wants no more rows. -/
def RefusesAlways (width : Nat) : Opened Stage Collector → Prop
  | .producer stage _ => ∀ (ω σ : Type) [Consumer ω σ] (downstream : σ)
      (requests : List (Request ω)) (row : Row),
    let link := (serve requests (Link.start stage downstream)).2
    link.closed = false → link.stopped = false → row.length ≠ width → Repels ω width row link
  | .collector state => ∀ (requests : List (Request Files)) (row : Row),
    row.length ≠ width → Repels Files width row (serve requests state).2

/-- What is always refused is refused at first. -/
theorem RefusesAlways.first {opened : Opened Stage Collector} (h : opened.RefusesAlways width)
    (hrow : row.length ≠ width) : opened.RefusesFirst width row := by
  cases opened with
  | producer stage _ => exact fun ω σ _ downstream => h ω σ downstream [] row rfl rfl hrow
  | collector state => exact h [] row hrow

end Opened

/-- A stage that guards a width refuses rows of others, behind any history. -/
theorem Stage.Guards.refusesAlways {stage : Stage} (h : stage.Guards width) (output : Schema) :
    (Opened.producer stage output : Opened Stage Collector).RefusesAlways width := by
  intro ω σ _ downstream requests row link hclosed hstopped hrow w
  have hguards : link.producer.Guards width := Link.serve_guards h downstream requests
  -- only what the link is now counts, not how it has come to be so
  clear_value link
  obtain ⟨stage, downstream, closed, stopped⟩ := link
  obtain rfl : closed = false := hclosed
  obtain rfl : stopped = false := hstopped
  exact Link.consume_of_done (handle_of_width_ne hguards hrow) downstream w

/-- So does a collector. -/
theorem Collector.Guards.refusesAlways {collector : Collector} (h : collector.Guards width) :
    (Opened.collector collector : Opened Stage Collector).RefusesAlways width :=
  fun requests _ hrow files => consume_of_width_ne (serve_guards h requests) hrow files

/-- A transform that checks widths opens as a stage that guards the width of its input. -/
theorem Transform.guards_of_openOn {entropy : Entropy} {schema output : Schema} {t : Transform}
    {stage : Stage} (h : t.openOn entropy schema = .ok (stage, output))
    (hchecks : (Step.transform t).checksWidth = true) :
    stage.Guards schema.width := by
  cases opens_of_openOn h with
  | filter hprep =>
    -- the expression refuses the row before it looks at a value
    intro row hrow
    simp only [RowRule.apply, Evaluator.evalTruth, Expr.eval_of_width_ne hprep hrow]
    rfl
  | update _ hprep =>
    intro row hrow
    simp only [RowRule.apply, Expr.eval_of_width_ne hprep hrow]
    rfl
  | select _ _ _ | move _ | insert _ _ | typecast _ _ =>
    exact RowRule.Guards.of_checked fun _ => rfl
  | sort _ => rfl
  | limit _ | rename _ _ _ | sample _ _ => cases hchecks

/-- A collection that checks widths opens as a collector that does. -/
theorem Collection.guards_of_openOn {schema : Schema} {c : Collection} {collector : Collector}
    (h : c.openOn schema = .ok collector) (hchecks : (Step.collect c).checksWidth = true) :
    collector.Guards schema.width := by
  cases c with
  | table | rows | csvFile _ _ => exact Except.ok.inj h ▸ rfl
  | distinct columns =>
    simp only [openOn] at h
    split at h
    · exact Except.ok.inj h ▸ rfl
    · obtain ⟨_, _, h⟩ := bind_eq_ok_iff.1 h
      exact Except.ok.inj h ▸ rfl
  | reduce _ _ =>
    obtain ⟨_, _, h⟩ := bind_eq_ok_iff.1 h
    exact Except.ok.inj h ▸ rfl
  | count => cases hchecks

namespace Step

/-- A step that checks widths refuses rows of others from the start and later. -/
theorem refusesAlways_of_checksWidth {entropy : Entropy} {schema : Schema} {step : Step}
    {opened : Opened Stage Collector} (hopen : step.openOn entropy schema = .ok opened)
    (hchecks : step.checksWidth = true) : opened.RefusesAlways schema.width := by
  cases step with
  | transform t =>
    obtain ⟨⟨stage, output⟩, ht, hopen⟩ := bind_eq_ok_iff.1 hopen
    obtain rfl := Except.ok.inj hopen
    exact (t.guards_of_openOn ht hchecks).refusesAlways output
  | collect c =>
    obtain ⟨collector, hc, hopen⟩ := bind_eq_ok_iff.1 hopen
    obtain rfl := Except.ok.inj hopen
    exact (Collection.guards_of_openOn hc hchecks).refusesAlways

/-- A step that does not check widths refuses no row, whatever its width is. -/
theorem not_refusesFirst {entropy : Entropy} {schema : Schema} {step : Step}
    {opened : Opened Stage Collector} (hopen : step.openOn entropy schema = .ok opened)
    (hchecks : step.checksWidth = false) (row : Row) :
    ¬ opened.RefusesFirst schema.width row := by
  intro hrefuses
  -- a consumer that takes everything shows what is passed on
  have hanswer {stage : Stage} {output : Schema} (hstage : opened = .producer stage output) :
      (Consumer.consume row (Link.start stage (Outbox.mk [])) ()).1 =
        .error (row.mismatch schema.width) := by
    rw [hstage] at hrefuses
    exact congrArg Prod.fst (hrefuses Unit Outbox ⟨[]⟩ ())
  -- each of the four kinds answers the row in its own way, but never with a mismatch
  cases step with
  | transform t =>
    obtain ⟨⟨stage, output⟩, ht, hopen⟩ := bind_eq_ok_iff.1 hopen
    have hanswer := hanswer (Except.ok.inj hopen).symm
    cases Transform.opens_of_openOn ht with
    | limit n =>
      rcases n with _ | _ | n <;> cases hanswer
    | rename _ _ _ => cases hanswer
    | sample _ _ => cases hanswer
    | _ => cases hchecks
  | collect c =>
    cases c with
    | count =>
      obtain rfl := Except.ok.inj hopen
      cases congrArg Prod.fst (hrefuses Files.empty)
    | _ => cases hchecks

/-- **Which steps refuse rows of other widths.** A step that has been opened on a schema answers the
    first row of another width with the mismatch, and passes on, holds, counts and writes nothing,
    if and only if it is no limit, no renaming, no sample and no row counter. It does so whatever
    rows have come before. -/
theorem refuses_iff_checksWidth {entropy : Entropy} {schema : Schema} {step : Step}
    {opened : Opened Stage Collector} (hopen : step.openOn entropy schema = .ok opened) :
    (∀ row : Row, row.length ≠ schema.width →
      (opened.RefusesFirst schema.width row ↔ step.checksWidth = true)) ∧
    (step.checksWidth = true → opened.RefusesAlways schema.width) := by
  refine ⟨fun row hrow => ⟨fun hrefuses => ?_, fun hchecks => ?_⟩,
    refusesAlways_of_checksWidth hopen⟩
  · cases hchecks : step.checksWidth with
    | true => rfl
    | false => exact absurd hrefuses (not_refusesFirst hopen hchecks row)
  · exact (refusesAlways_of_checksWidth hopen hchecks).first hrow

/-- A schema of one column. -/
def numbersOnly : Schema := ⟨[⟨"n", .int64⟩]⟩

/-- A row with a value more than it has columns. -/
def overlong : Row := ⟨0, [.int64 1, .int64 2]⟩

/-- A sort refuses the overlong row, first or later. -/
theorem overlong_refused_by_sort :
    ∃ opened, openOn (.seeded 0) numbersOnly (.transform (.sort [.name "n"] false)) = .ok opened ∧
      overlong.length ≠ numbersOnly.width ∧
      opened.RefusesFirst numbersOnly.width overlong ∧
      opened.RefusesAlways numbersOnly.width := by
  have hopen : openOn (.seeded 0) numbersOnly (.transform (.sort [.name "n"] false)) =
      .ok (.producer (.sort 1 [0] false []) numbersOnly) := rfl
  have hrow : overlong.length ≠ numbersOnly.width := by decide
  obtain ⟨hfirst, halways⟩ := refuses_iff_checksWidth hopen
  exact ⟨_, hopen, hrow, (hfirst overlong hrow).2 rfl, halways rfl⟩

/-- The overlong row is counted, passed on by a renaming and by a limit, and held by a sample until
    this passes it on. -/
theorem overlong_let_in :
    overlong.length ≠ numbersOnly.width ∧
      openOn (.seeded 0) numbersOnly (.collect .count) = .ok (.collector (.count 0)) ∧
      Consumer.consume overlong (Collector.count 0) Files.empty =
        (.ok .more, .count 1, .empty) ∧
      openOn (.seeded 0) numbersOnly (.transform (.rename [.name "n"] ["m"])) =
        .ok (.producer (.each .keep) ⟨[⟨"m", .int64⟩]⟩) ∧
      Consumer.consume overlong (Link.start (Stage.each .keep) (Outbox.mk [])) () =
        (.ok .more, Link.start (.each .keep) ⟨[overlong]⟩, ()) ∧
      openOn (.seeded 0) numbersOnly (.transform (.limit 1)) =
        .ok (.producer (.limit 1 0) numbersOnly) ∧
      Consumer.consume overlong (Link.start (Stage.limit 1 0) (Outbox.mk [])) () =
        (.ok .stop, Link.start (.limit 1 1) ⟨[overlong]⟩, ()) ∧
      openOn (.seeded 0) numbersOnly (.transform (.sample 1 (some 7))) =
        .ok (.producer (.sample (.start 1 (.seeded 7))) numbersOnly) ∧
      (Consumer.close (Consumer.consume overlong
        (Link.start (Stage.sample (.start 1 (.seeded 7))) (Outbox.mk [])) ()).2.1
          ()).2.1.downstream = ⟨[overlong]⟩ := by
  refine ⟨by decide, rfl, rfl, rfl, rfl, rfl, rfl, rfl, ?_⟩
  have hoffer : (Reservoir.start 1 (KeyStream.seeded 7)).offer overlong =
      ⟨1, 1, [(0, overlong)], .seeded 7⟩ := rfl
  have hrows : (Reservoir.mk 1 1 [(0, overlong)] (KeyStream.seeded 7)).rows = [overlong] := by
    simp [Reservoir.rows]
  have hhandle : (Stage.sample (.start 1 (.seeded 7))).handle overlong =
      .done (.ok .more, .sample ⟨1, 1, [(0, overlong)], .seeded 7⟩) := by
    rw [Stage.handle, hoffer]
  rw [Link.consume_of_done hhandle]
  simp only [Consumer.close, Link.close, Link.start, Producer.drain, Stage.drain, hrows]
  rfl

end Step

end RowFlow
