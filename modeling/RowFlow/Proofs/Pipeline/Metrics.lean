import Mathlib.Algebra.GroupWithZero.Nat
import RowFlow.Proofs.Chain.Budget
import RowFlow.Proofs.Pipeline.Interviews
import RowFlow.Proofs.Pipeline.Scenes

/-!
# Counters of Sessions

Runs and readers that share a session share its counters. Whatever is played in a scene, the
counters add up what has been done (`Scene.counters_play`), and no more rows are collected than are
pulled if the steps are those of this library (`Scene.covers_play`, `Step.frugalSteps`).
-/

namespace RowFlow

variable {ι π κ α : Type}

/-! ## What is done in a scene -/

/-- Whether an act begins a run. -/
def Act.begins : Act ι α → Bool
  | .run _ | .iterate _ => true
  | _ => false

/-- All rows that have come out have been fetched. -/
def Scene.Fetched (scene : Scene π α) : Prop := ∀ it ∈ scene.readers, it.2.Fetched

/-- A reader that has been asked takes its own place again. -/
theorem Scene.Fetched.set {scene : Scene π α} (h : scene.Fetched) (reader : Nat) {n : Nat}
    {it : RowIterator π α n} (hit : it.Fetched) (session : Session α) :
    (Scene.mk session (scene.readers.set reader ⟨n, it⟩)).Fetched := by
  intro other hother
  rcases List.mem_or_eq_of_mem_set hother with hother | rfl
  · exact h other hother
  · exact hit

section
variable [StepKind ι π κ] [Producer π] [Consumer Files κ]

/-- What is done in an act. -/
def Act.deed (act : Act ι α) (scene : Scene π α) : Deed :=
  match act with
  | .run pipeline => pipeline.deed scene.session
  | .iterate pipeline => pipeline.openingDeed scene.session
  | .ask reader =>
    match scene.readers[reader]? with
    | some it => it.2.deed scene.session
    | none => .none
  | .edit _ | .turn _ => .none

/-- What is done in one act after another. -/
def Scene.deeds : List (Act ι α) → Scene π α → List Deed
  | [], _ => []
  | act :: acts, scene => act.deed scene :: deeds acts (act.perform scene).2

/-- What an act leaves behind: its deed has been counted, all rows that have come out have been
    fetched, and a one-shot source that has been read stays so unless another one takes its
    place. -/
structure Act.Leaves (act : Act ι α) (scene : Scene π α) : Prop where
  counters : (act.perform scene).2.session.counters = scene.session.counters +
    (act.deed scene).counters (if act.begins then 1 else 0)
      (act.perform scene).1.error?.toList.length
  fetched : (act.perform scene).2.Fetched
  spent : act.SameSource → scene.session.spent = true →
    (act.perform scene).2.session.spent = true

/-- Every act leaves its deed counted. -/
theorem Act.leaves (act : Act ι α) {scene : Scene π α} (h : scene.Fetched) : act.Leaves scene := by
  cases act with
  | run pipeline =>
    -- the account of a run says how it has moved the counters
    have hlogged := (pipeline.run_account scene.session).logged
    rcases hrun : pipeline.run scene.session with ⟨result, after⟩
    rw [hrun] at hlogged
    refine ⟨?_, ?_, ?_⟩ <;> rw [perform_run hrun]
    · cases result with
      | error e => exact hlogged.counters
      | ok _ => exact hlogged.counters
    · exact h
    · exact fun _ => hlogged.spent
  | iterate pipeline =>
    have hcases := (pipeline.openingDeed_cases scene.session).1
    rcases hiterate : pipeline.iterate scene.session with ⟨result, after⟩
    rw [hiterate] at hcases
    -- either the reader is refused and the error is counted, or it joins the others
    obtain ⟨e, hresult, -, hlogged⟩ | ⟨it, hresult, -, hfetched, -, hlogged⟩ := hcases
    · obtain rfl : result = .error e := hresult
      refine ⟨?_, ?_, ?_⟩ <;> rw [perform_iterate_error hiterate]
      · exact hlogged.counters
      · exact h
      · exact fun _ => hlogged.spent
    · obtain rfl : result = .ok it := hresult
      refine ⟨?_, ?_, ?_⟩ <;> rw [perform_iterate_ok hiterate]
      · exact hlogged.counters
      · exact List.forall_mem_append.2 ⟨h, List.forall_mem_singleton.2 hfetched⟩
      · exact fun _ => hlogged.spent
  | ask reader =>
    rcases hreader : scene.readers[reader]? with _ | ⟨n, it⟩
    · -- nobody is there to be asked
      refine ⟨?_, ?_, ?_⟩ <;> rw [perform_ask_none hreader]
      · rw [deed, hreader]
        rfl
      · exact h
      · exact fun _ => id
    · have hit : it.Fetched := h ⟨n, it⟩ (List.mem_of_getElem? hreader)
      have hlogged := RowIterator.next_logged hit scene.session
      have hafter := RowIterator.fetched_next hit scene.session
      rcases hnext : it.next scene.session with ⟨answer, next, after⟩
      rw [hnext] at hlogged hafter
      refine ⟨?_, ?_, ?_⟩ <;> rw [perform_ask hreader hnext]
      · rw [deed, hreader]
        rcases answer with _ | _ | _
        -- only an answer that is an error counts as a failure
        all_goals exact hlogged.counters
      · exact h.set reader hafter _
      · exact fun _ => hlogged.spent
  | edit files => exact ⟨rfl, h, fun _ => id⟩
  | turn spent => exact ⟨rfl, h, False.elim⟩

/-- The counters of a session add up what is done in it: the runs that are begun, the errors that
    are answered, and the rows and the requests to stop of all runs. -/
theorem Scene.counters_play (acts : List (Act ι α)) {scene : Scene π α} (h : scene.Fetched) :
    (scene.play acts).2.session.counters = scene.session.counters +
      (Deed.all (scene.deeds acts)).counters (acts.countP Act.begins)
        ((scene.play acts).1.filterMap Answer.error?).length := by
  -- one act at a time: begun runs, errors and deeds add up separately
  induction acts generalizing scene with
  | nil => rfl
  | cons act acts ih =>
    obtain ⟨hact, hfetched, -⟩ := act.leaves h
    have hbegins : (act :: acts).countP Act.begins =
        (if act.begins then 1 else 0) + acts.countP Act.begins :=
      List.countP_cons.trans (Nat.add_comm _ _)
    -- only answers that are errors are kept, so the first may or may not be among them
    have herrors : ((scene.play (act :: acts)).1.filterMap Answer.error?).length =
        (act.perform scene).1.error?.toList.length +
          (((act.perform scene).2.play acts).1.filterMap Answer.error?).length := by
      simp only [play, List.filterMap_cons]
      cases (act.perform scene).1.error? with
      | none => exact (Nat.zero_add _).symm
      | some e => exact Nat.add_comm _ 1
    rw [hbegins, herrors, deeds, Deed.counters_all_cons, ← Counters.add_assoc, ← hact]
    exact ih hfetched

/-- After a play all rows that have come out have been fetched. -/
theorem Scene.fetched_play (acts : List (Act ι α)) {scene : Scene π α} (h : scene.Fetched) :
    (scene.play acts).2.Fetched := by
  induction acts generalizing scene with
  | nil => exact h
  | cons act acts ih => exact ih (act.leaves h).fetched

end

/-! ## Rows collected and rows pulled -/

/-- As many rows have been pulled as have been collected and are owed besides. -/
def Session.Covers (session : Session α) (owed : Nat) : Prop :=
  owed + session.counters.rowsCollected ≤ session.counters.rowsPulled

namespace Session.Covers

variable {w w' : Session α} {owed owed' : Nat}

/-- What covers more covers less. -/
theorem mono (h : w.Covers owed) (howed : owed' ≤ owed) : w.Covers owed' :=
  Nat.le_trans (Nat.add_le_add_right howed _) h

/-- Nothing has been pulled or collected. -/
theorem of_logged (h : w.Covers owed) {options : Options α} {notices : List Notice}
    {runs failed stops : Nat}
    (hlogged : Session.Logged options notices ⟨runs, failed, 0, 0, stops⟩ w w') :
    w'.Covers owed := by
  rw [Covers, hlogged.counters]
  exact h

end Session.Covers

/-- Collectors count the rows that they are handed. -/
theorem budgeted_collected [Consumer Files κ] :
    Budgeted fun (_ : Guarded (Metered κ)) (w : Session α) => w.counters.rowsCollected where
  consume := by
    rintro row ⟨⟨inner⟩, closed⟩ w
    cases closed with
    -- a closed collector refuses the row, which is not counted then
    | true => exact Nat.le_succ _
    | false => exact Nat.le_refl _
  close := by
    rintro ⟨⟨inner⟩, closed⟩ w
    cases closed <;> exact Nat.le_refl _

section
variable [Producer π] [Consumer Files κ] {held : π → Nat} (hheld : Frugal held) {n more : Nat}
  {w : Session α} {chain : Chain π (Guarded (Metered κ)) n}
  (h : w.Covers (Chain.load held n chain + more))
include hheld h

/-- A row that is pushed pays for what comes of it. -/
theorem Session.Covers.consume (row : Row) :
    (Consumer.consume row chain w.pulled).2.2.Covers
      (Chain.load held n (Consumer.consume row chain w.pulled).2.1 + more) := by
  -- the chain collects no more than it held and the new row; one row has been pulled
  have hbudget := (Chain.budgeted hheld (budgeted_collected (α := α) (κ := κ)) n).consume row chain
    w.pulled
  have hpulled := ((Chain.touchesEnd n).consume row chain w.pulled).rowsPulled
  have hcollected : w.pulled.counters.rowsCollected = w.counters.rowsCollected := rfl
  rw [Session.rowsPulled_pulled] at hpulled
  rw [hcollected] at hbudget
  rw [Session.Covers] at h ⊢
  -- both sides now speak of the same two counters
  omega

/-- Closing a chain lets out no more than it has held back. -/
theorem Session.Covers.close :
    (Consumer.close chain w).2.2.Covers
      (Chain.load held n (Consumer.close chain w).2.1 + more) := by
  have hbudget := (Chain.budgeted hheld (budgeted_collected (α := α) (κ := κ)) n).close chain w
  have hpulled := ((Chain.touchesEnd n).close chain w).rowsPulled
  rw [Session.Covers] at h ⊢
  omega

/-- Pushing rows keeps the account, row by row. -/
theorem Session.Covers.pushUntil (options : Options α) (width : Nat)
    (out : Chain π (Guarded (Metered κ)) n → Bool) (items : List (Except Error Row))
    (pulled : Nat) :
    (RowFlow.pushUntil options width out items pulled chain w).2.2.2.Covers
      (Chain.load held n (RowFlow.pushUntil options width out items pulled chain w).2.2.1 +
        more) := by
  refine pushUntil_kept options width
    (I := fun (c : Chain π (Guarded (Metered κ)) n) (v : Session α) =>
      v.Covers (Chain.load held n c + more)) (fun row _ _ hc => hc.consume hheld row) ?_ out items
    pulled h
  -- a request to stop counts no rows
  intro c v now hv
  rw [Session.Covers, Session.stopped, Session.counters_report]
  exact hv

/-- A run that is over owes nothing for its chain. -/
theorem Session.Covers.pushAndClose (options : Options α) (width : Nat)
    (items : List (Except Error Row)) :
    (RowFlow.pushAndClose options width items chain w).2.Covers more := by
  have hpushed := h.pushUntil hheld options width (fun _ => false) items 0
  simp only [RowFlow.pushAndClose, pushAll_eq]
  generalize RowFlow.pushUntil options width (fun _ => false) items 0 chain w = run at hpushed ⊢
  obtain ⟨halt, pulled, chain', w'⟩ := run
  cases halt.result with
  -- the chain is left unclosed, with rows that will never come out
  | error e => exact hpushed.mono (Nat.le_add_left more _)
  | ok _ => exact (hpushed.close hheld).mono (Nat.le_add_left more _)

end

/-! ### Readers and runs -/

/-- What the chain of a reader holds back. -/
def RowIterator.load (held : π → Nat) {n : Nat} (it : RowIterator π α n) : Nat :=
  match it.chain with
  | some chain => Chain.load held n chain
  | none => 0

section
variable {held : π → Nat} {n more : Nat} {w : Session α}

/-- A row that was waiting had come out before. -/
theorem RowIterator.giveWaiting_covers {it : RowIterator π α n}
    (h : w.Covers (it.load held + more)) :
    (it.giveWaiting w).2.2.Covers ((it.giveWaiting w).2.1.load held + more) := by
  obtain ⟨answer, waiting, hanswer, -⟩ := exists_giveWaiting it w
  rw [hanswer]
  exact h

variable [Producer π] (hheld : Frugal held)
include hheld

/-- What a closed chain holds back is not owed any more. -/
theorem RowIterator.finish_covers {chain : FetchedChain π n}
    (h : w.Covers (Chain.load held n chain + more)) (options : Options α) (width pulled : Nat) :
    (finish chain ⟨options, width, [], none, pulled, []⟩ w).2.2.Covers
      ((finish chain ⟨options, width, [], none, pulled, []⟩ w).2.1.load held + more) := by
  have hclosed := (h.close hheld).mono (Nat.add_le_add_right (Nat.zero_le _) more)
  rcases hclose : Consumer.close chain w with ⟨_ | _, closed, after⟩
  all_goals
    rw [hclose] at hclosed
    simp only [finish, hclose]
  · -- closing failed, which is counted as a failure only
    exact hclosed.of_logged (.fail options _ after)
  · exact giveWaiting_covers (hclosed.of_logged (.succeed options after))

/-- Asking a reader for a row keeps the account. -/
theorem RowIterator.next_covers {it : RowIterator π α n} (hfetched : it.Fetched)
    (h : w.Covers (it.load held + more)) :
    (it.next w).2.2.Covers ((it.next w).2.1.load held + more) := by
  rw [next_eq it hfetched]
  split
  -- no row is waiting, so rows are pushed until one comes out
  · next chain _ hchain =>
    rw [load, hchain] at h
    have hpushed := h.pushUntil hheld it.options it.width hasEmitted it.items it.pulled
    generalize pushUntil it.options it.width hasEmitted it.items it.pulled chain w = run
      at hpushed ⊢
    obtain ⟨halt, pulled, chain', w'⟩ := run
    -- fetching the rows that have come out leaves the producers as they are
    have hready (items : List (Except Error Row)) : w'.Covers
        ((RowIterator.mk it.options it.width items (some (fetched chain')) pulled
          (emitted chain')).load held + more) := by
      change w'.Covers (Chain.load held n (fetched chain') + more)
      rwa [fetched, Chain.load_mapTerminal]
    -- the four ways in which pushing ends: an error, a row to give, the end of the source, a
    -- request to stop
    cases halt with
    | failed e =>
      -- the chain is dropped with all that it holds
      have hend := hpushed.mono (Nat.add_le_add_right (Nat.zero_le _) more)
      exact hend.of_logged (.fail it.options e w')
    | ready rest => exact giveWaiting_covers (hready rest)
    | ended => exact finish_covers hheld hpushed it.options it.width pulled
    | stopped =>
      simp only [resume]
      split
      · exact giveWaiting_covers (hready [])
      · exact finish_covers hheld hpushed it.options it.width pulled
  · exact giveWaiting_covers h

end

/-! ### Runs -/

/-- Steps that pass on rows only for rows, and hold none back before the first. -/
structure FrugalSteps (ι : Type) {π κ : Type} [StepKind ι π κ] [Producer π] (held : π → Nat) :
    Prop where
  frugal : Frugal held
  fresh {entropy : Entropy} {schema output : Schema} {step : ι} {state : π} :
    StepKind.openOn entropy schema step = .ok (.producer state output) → held state = 0

section
variable [StepKind ι π κ] [Producer π] {held : π → Nat} (hsteps : FrugalSteps ι held)
include hsteps

/-- Steps hold nothing back when they have been opened. -/
theorem FrugalSteps.assemble {entropy : Entropy} {position : Nat} {schema : Schema}
    {steps : List ι} {assembly : Assembly π κ}
    (h : RowFlow.assemble entropy position schema steps = .ok assembly) :
    ∀ p ∈ assembly.producers, held p = 0 := by
  induction steps generalizing entropy position schema assembly with
  | nil =>
    rw [← Except.ok.inj h]
    exact nofun
  | cons step rest ih =>
    obtain ⟨state, output, behind, hopen, hbehind, rfl⟩ | ⟨state, -, -, rfl⟩ :=
      assemble_cons_cases h
    · exact List.forall_mem_cons.2 ⟨hsteps.fresh hopen, ih hbehind⟩
    · exact nofun

/-- A pipeline holds nothing back when it has been opened. -/
theorem FrugalSteps.assembly {pipeline : Pipeline ι α} {entropy : Entropy} {files : Files}
    {width : Nat} {assembly : Assembly π κ}
    (h : pipeline.assembly entropy files = .ok (width, assembly)) :
    ∀ p ∈ assembly.producers, held p = 0 := by
  obtain ⟨schema, -, hassemble, -⟩ := Pipeline.assembly_eq_ok_iff.1 h
  exact hsteps.assemble hassemble

/-- A run pays for the rows that it collects. -/
theorem Pipeline.run_covers [Consumer Files κ] (pipeline : Pipeline ι α) {session : Session α}
    {owed : Nat} (h : session.Covers owed) : (pipeline.run session).2.Covers owed := by
  -- a run that does not open its steps or its source moves no rows
  rcases hassembly : (pipeline.assembly session.fresh session.files :
      Except Error (Nat × Assembly π κ)) with e | ⟨width, assembly⟩
  · rw [run_of_not_assembled hassembly]
    exact h.of_logged (.unopened pipeline.options e session)
  · rcases hitems : (pipeline.source.openOn session.files session.spent).1 with e | items
    · rw [run_of_not_opened hassembly hitems]
      exact h.of_logged (.unread pipeline pipeline.length assembly.schema e session)
    · rw [run_of_opened hassembly hitems]
      -- fresh steps hold nothing back, so the run begins without a load
      have hload : Chain.load held _ (assembly.chain ι) = 0 :=
        Chain.load_connect (hsteps.assembly hassembly) _
      have hbegun := h.of_logged (.begun pipeline pipeline.length assembly.schema session)
      rw [← Nat.zero_add owed, ← hload] at hbegun
      exact (hbegun.pushAndClose hsteps.frugal pipeline.options width items).of_logged
        (.closeRun pipeline.options _ _)

/-- A reader that has not been asked holds nothing back. -/
theorem Pipeline.iterate_covers (pipeline : Pipeline ι α) {session : Session α} {owed : Nat}
    (h : session.Covers owed) : (pipeline.iterate session).2.Covers owed ∧
      ∀ it, (pipeline.iterate session).1 = .ok it → it.2.load held = 0 := by
  rcases hreader : (pipeline.openForReader session.fresh session.files :
      Except Error (Nat × List π × Schema)) with e | ⟨width, producers, schema⟩
  · rw [iterate_of_not_assembled hreader]
    exact ⟨h.of_logged (.unopened pipeline.options e session), nofun⟩
  · rcases hitems : (pipeline.source.openOn session.files session.spent).1 with e | items
    · rw [iterate_of_not_opened hreader hitems]
      exact ⟨h.of_logged (.unread pipeline _ schema e session), nofun⟩
    · rw [iterate_of_opened hreader hitems]
      refine ⟨h.of_logged (.begun pipeline _ schema session), fun it hit => ?_⟩
      cases hit
      exact Chain.load_connect (hsteps.assembly (assembly_of_openForReader hreader)) _

end

/-! ### Scenes -/

/-- What the chains of all readers hold back. -/
def Scene.load (held : π → Nat) (scene : Scene π α) : Nat :=
  (scene.readers.map fun it => it.2.load held).sum

/-- What one reader holds back, and the others besides. -/
theorem sum_map_set {β : Type} (f : β → Nat) {l : List β} {i : Nat} {b : β} (h : l[i]? = some b) :
    ∃ others, (l.map f).sum = f b + others ∧ ∀ b', ((l.set i b').map f).sum = f b' + others := by
  induction l generalizing i with
  | nil => cases h
  | cons a l ih =>
    cases i with
    | zero =>
      cases h
      exact ⟨(l.map f).sum, rfl, fun b' => rfl⟩
    | succ i =>
      obtain ⟨others, hsum, hset⟩ := ih h
      refine ⟨f a + others, ?_, fun b' => ?_⟩
      · rw [List.map_cons, List.sum_cons, hsum, Nat.add_left_comm]
      · rw [List.set_cons_succ, List.map_cons, List.sum_cons, hset, Nat.add_left_comm]

section
variable [StepKind ι π κ] [Producer π] [Consumer Files κ] {held : π → Nat}
  (hsteps : FrugalSteps ι held)
include hsteps

/-- Every act keeps the account of pulled and collected rows. -/
theorem Act.perform_covers (act : Act ι α) {scene : Scene π α} (hfetched : scene.Fetched)
    (h : scene.session.Covers (scene.load held)) :
    (act.perform scene).2.session.Covers ((act.perform scene).2.load held) := by
  cases act with
  | run pipeline => exact pipeline.run_covers hsteps h
  | iterate pipeline =>
    obtain ⟨hcovers, hload⟩ := pipeline.iterate_covers hsteps h
    rcases hiterate : pipeline.iterate scene.session with ⟨e | it, after⟩
    · rw [hiterate] at hcovers
      rw [perform_iterate_error hiterate]
      exact hcovers
    · rw [hiterate] at hcovers hload
      -- a new reader brings no load with it
      have hsum : (Scene.mk after (scene.readers ++ [it])).load held = scene.load held := by
        rw [Scene.load, Scene.load, List.map_append, List.sum_append, List.map_singleton,
          List.sum_singleton, hload it rfl]
        rfl
      rw [perform_iterate_ok hiterate, hsum]
      exact hcovers
  | ask reader =>
    rcases hreader : scene.readers[reader]? with _ | ⟨n, it⟩
    · rw [perform_ask_none hreader]
      exact h
    · have hit : it.Fetched := hfetched ⟨n, it⟩ (List.mem_of_getElem? hreader)
      -- the load of the other readers is owed besides
      obtain ⟨others, hsum, hset⟩ := sum_map_set (fun it => it.2.load held) hreader
      rw [Scene.load, hsum] at h
      rw [perform_ask hreader rfl, Scene.load, hset]
      exact RowIterator.next_covers hsteps.frugal hit h
  | edit files => exact h
  | turn spent => exact h

/-- No more rows are collected than are pulled. -/
theorem Scene.covers_play (acts : List (Act ι α)) {scene : Scene π α} (hfetched : scene.Fetched)
    (h : scene.session.Covers (scene.load held)) :
    (scene.play acts).2.session.Covers ((scene.play acts).2.load held) := by
  induction acts generalizing scene with
  | nil => exact h
  | cons act acts ih =>
    -- acts fetch what comes out, so the next one starts in the same way
    exact ih (act.leaves hfetched).fetched (act.perform_covers hsteps hfetched h)

end

/-- The steps of this library hold nothing back before the first row. -/
theorem Step.frugalSteps : FrugalSteps Step Stage.held where
  frugal := Stage.frugal
  fresh := by
    intro entropy schema output step stage h
    cases step with
    | transform t =>
      obtain ⟨⟨_, _⟩, hopen, h⟩ := bind_eq_ok_iff.1 h
      cases h
      -- no stage starts with rows, not even a sort or a sample
      cases Transform.opens_of_openOn hopen <;> rfl
    | collect c =>
      obtain ⟨collector, _, h⟩ := bind_eq_ok_iff.1 h
      cases h

/-! ## What is told and counted -/

/-- The observer of a run is told what the protocol of runs says, whether the run has a collector or
    a reader, and runs that share a session add up in its counters. -/
theorem Scene.told_and_counted [StepKind ι π κ] [Producer π] [Consumer Files κ] :
    (∀ (pipeline : Pipeline ι α) (session : Session α),
      pipeline.Account session (pipeline.deed session) (pipeline.run session).1
        (pipeline.run session).2) ∧
    (∀ (pipeline : Pipeline ι α) (session : Session α), pipeline.ReaderAccount session) ∧
    (∀ (session : Session α) (acts : List (Act ι α)),
      ((Scene.mk session []).play acts).2.session.counters = session.counters +
        (Deed.all ((Scene.mk session []).deeds acts)).counters (acts.countP Act.begins)
          (((Scene.mk session []).play acts).1.filterMap Answer.error?).length) ∧
    ∀ (session : Session α) (acts : List (Act Step α)),
      session.counters.rowsCollected ≤ session.counters.rowsPulled →
        ((Scene.mk session []).play acts).2.session.counters.rowsCollected ≤
          ((Scene.mk session []).play acts).2.session.counters.rowsPulled := by
  refine ⟨Pipeline.run_account, Pipeline.reader_account, fun session acts => ?_,
    fun session acts h => ?_⟩
  · exact counters_play acts nofun
  -- before the first act there is no reader, so nothing is owed
  · have hcovers : session.Covers (Scene.load Stage.held (Scene.mk session [])) := by
      change 0 + session.counters.rowsCollected ≤ session.counters.rowsPulled
      rwa [Nat.zero_add]
    have hfetched : (Scene.mk session [] : Scene Stage α).Fetched := nofun
    exact Nat.le_trans (Nat.le_add_left _ _)
      (covers_play Step.frugalSteps acts hfetched hcovers)

/-- Three letters. -/
def letters : Table := ⟨⟨[⟨"letter", .utf8⟩]⟩, [[.utf8 "a"], [.utf8 "b"], [.utf8 "c"]]⟩

/-- The first two letters are collected, and read while a run over a column that does not exist
    fails. -/
def lettersRead : List (Act Step (List Notice)) :=
  let first : Pipeline Step (List Notice) :=
    .ofTransforms (.table letters) [.limit 2] ⟨some .recorder, .warning⟩
  let wrong : Pipeline Step (List Notice) :=
    .ofTransforms (.table letters) [.select [.name "digit"] none] ⟨some .recorder, .warning⟩
  [.run first, .iterate first, .ask 0, .run wrong, .ask 0, .ask 0]

theorem lettersRead_counted :
    let after := ((Scene.mk (.start .empty []) []).play lettersRead).2.session.counters
    after = ⟨3, 1, 4, 4, 2⟩ ∧ after.rowsCollected ≤ after.rowsPulled := by
  obtain ⟨-, -, hcounters, hcovers⟩ := Scene.told_and_counted (ι := Step) (α := List Notice)
  refine ⟨(hcounters (.start .empty []) lettersRead).trans ?_,
    hcovers (.start .empty []) lettersRead (Nat.le_refl 0)⟩
  decide +kernel

end RowFlow
