import RowFlow.Proofs.Pipeline.Protocol

/-!
# Interviews

A reader is asked again and again, each time in whatever session there is by then, since other runs
may have come in between. What is told of the run in all follows the protocol of runs, and the
reader answers an error if and only if its run has failed (`Pipeline.reader_account`).
-/

namespace RowFlow

variable {ι π κ α : Type}

namespace RowIterator

variable {n : Nat}

/-! ## Rows that come out -/

/-- The row that an answer gives. -/
def given : Option (Except Error Row) → List Row
  | some (.ok row) => [row]
  | _ => []

theorem exists_giveWaiting (it : RowIterator π α n) (session : Session α) :
    ∃ answer waiting, it.giveWaiting session = (answer, { it with waiting }, session) ∧
      given answer ++ waiting = it.waiting ∧ errorsOf [answer] = [] ∧
      (answer = none → it.waiting = []) := by
  obtain ⟨options, width, items, chain, pulled, waiting⟩ := it
  cases waiting with
  | nil => exact ⟨none, [], rfl, rfl, rfl, fun _ => rfl⟩
  | cons row waiting => exact ⟨some (.ok row), waiting, rfl, rfl, rfl, nofun⟩

theorem hasEmitted_iff {chain : FetchedChain π n} :
    hasEmitted chain = true ↔ emitted chain ≠ [] := by
  simp only [hasEmitted, Bool.not_eq_true', List.isEmpty_eq_false_iff]

/-! ## Progress -/

/-- A question has pushed some rows and has brought the run to where it stands now. -/
structure Advances (options : Options α) (rows : List Row) (pulled : Nat) (stopped : Bool)
    (standing : Standing) (before : Session α)
    (outcome : Option (Except Error Row) × RowIterator π α n × Session α) : Prop where
  own : outcome.2.1.options = options
  count : outcome.2.1.pulled = pulled
  logged : Session.Logged options
    (Notice.ofStop stopped pulled ++ standing.notices options.alertAt)
    ⟨0, standing.errors.length, rows.length, (given outcome.1 ++ outcome.2.1.waiting).length,
      stops (Notice.ofStop stopped pulled ++ standing.notices options.alertAt)⟩ before outcome.2.2
  errors : errorsOf [outcome.1] = standing.errors
  underway : standing = .underway → outcome.1 ≠ none ∧
    ∃ chain, outcome.2.1.chain = some chain ∧ emitted chain = [] ∧
      (stopped = true → outcome.2.1.items = [])
  ended : standing.IsEnd → outcome.2.1.chain = none

section
variable {options : Options α} {width pulled : Nat} {rows : List Row} {stopped : Bool}
  {chain : FetchedChain π n} {w w' : Session α} {e : Error}
  (h : Session.Pushed options rows.length pulled stopped w w')
  (hhanded : w'.counters.rowsCollected = w.counters.rowsCollected + (emitted chain).length)
include h hhanded

theorem advances_giveError (e : Error) (items : List (Except Error Row))
    (held : Option (FetchedChain π n)) :
    Advances options rows pulled stopped (.failed e) w
      (giveError e ⟨options, width, items, held, pulled, emitted chain⟩ w') where
  own := rfl
  count := rfl
  logged := h.logged (.failed e) hhanded (.fail options e w')
  errors := rfl
  underway := nofun
  ended _ := rfl

/-- A row has come out, and the run goes on. -/
theorem advances_giveWaiting {items : List (Except Error Row)} (hout : hasEmitted chain = true)
    (hitems : stopped = true → items = []) :
    Advances options rows pulled stopped .underway w
      (giveWaiting ⟨options, width, items, some (fetched chain), pulled, emitted chain⟩ w') := by
  obtain ⟨answer, waiting, hgive, hgiven, herrors, hnone⟩ := exists_giveWaiting
    ⟨options, width, items, some (fetched chain), pulled, emitted chain⟩ w'
  rw [hgive]
  constructor
  · rfl
  · rfl
  · rw [hgiven]
    exact h.logged .underway hhanded ⟨(options.hear_nil _).symm, rfl, id⟩
  · exact herrors
  · intro _
    exact ⟨fun hanswer => hasEmitted_iff.1 hout (hnone hanswer), _, rfl, emitted_fetched chain,
      hitems⟩
  · exact False.elim

variable [Producer π]

/-- The chain is closed, and the run is over. -/
theorem advances_finish (width : Nat) :
    ∃ standing : Standing, standing.IsEnd ∧ Advances options rows pulled stopped standing w
      (finish chain ⟨options, width, [], none, pulled, []⟩ w') := by
  -- closing may let rows out, which are counted like any others
  have hcollecting := (Chain.touchesEnd (α := α) (κ := Outbox) n).close chain w'
  have htallied := (Chain.unbroken_tallied (α := α) (π := π) Outbox.holds w.counters.rowsCollected
    n).close hhanded
  rcases hclose : Consumer.close chain w' with ⟨result, closed, after⟩
  rw [hclose] at hcollecting htallied
  simp only [finish, hclose]
  cases result with
  -- the run ends with the error, whatever has come out
  | error e => exact ⟨.failed e, trivial,
    advances_giveError (h.close hcollecting) htallied e [] none⟩
  | ok _ =>
    obtain ⟨answer, waiting, hgive, hgiven, herrors, -⟩ := exists_giveWaiting
      (RowIterator.mk options width [] none pulled (emitted closed)) (after.succeed options)
    refine ⟨.finished after.counters, trivial, ?_⟩
    dsimp only
    rw [hgive]
    constructor
    · rfl
    · rfl
    · rw [hgiven]
      exact (h.close hcollecting).logged (.finished _) htallied (.succeed options after)
    · exact herrors
    · intro hunderway
      cases hunderway
    · exact fun _ => rfl

/-- The run goes on or ends, as its halt says. -/
theorem advances_resume (width : Nat) {halt : Halt} (hstop : halt.isStop = stopped)
    (hready : ∀ rest, halt = .ready rest → hasEmitted chain = true) :
    ∃ standing : Standing, (halt = .ended → standing.IsEnd) ∧
      Advances options rows pulled stopped standing w
        (resume options width (halt, pulled, chain, w')) := by
  obtain rfl := hstop
  -- each way to halt leads to one answer: the error, a row, or the end of the chain
  cases halt with
  | failed e =>
    exact ⟨.failed e, Halt.noConfusion, advances_giveError h hhanded e [] none⟩
  | ready rest =>
    exact ⟨.underway, Halt.noConfusion, advances_giveWaiting h hhanded (hready rest rfl)
      Bool.noConfusion⟩
  | ended =>
    obtain ⟨standing, hend, hadvances⟩ := advances_finish h hhanded width
    exact ⟨standing, fun _ => hend, hadvances⟩
  | stopped =>
    simp only [resume]
    split
    · next hout =>
      exact ⟨.underway, Halt.noConfusion, advances_giveWaiting h hhanded hout fun _ => rfl⟩
    · obtain ⟨standing, -, hadvances⟩ := advances_finish h hhanded width
      exact ⟨standing, Halt.noConfusion, hadvances⟩

end

/-! ## One question -/

variable [Producer π]

/-- The rows that a question to a reader moves: those that the head of the chain has been handed,
    and those that have come out at its end. -/
def traffic (it : RowIterator π α n) (session : Session α) : Traffic :=
  match it.waiting, it.chain with
  | [], some chain =>
    let (_, _, head, _) := pushUntil it.options it.width (hasEmitted ∘ Recorded.inner) it.items
      it.pulled (Recorded.start chain) session
    let (answer, after, _) := it.next session
    ⟨head.rows, given answer ++ after.waiting⟩
  | _, _ => .none

/-- What a reader does when it is asked for a row. -/
def deed (it : RowIterator π α n) (session : Session α) : Deed :=
  ⟨it.notices session, it.recorded.traffic session.recorded⟩

/-- The rows that go in until one comes out, read off a record at the head of the chain; each row
    that is counted at the end has come out. -/
theorem exists_pushUntil (options : Options α) (width : Nat) (items : List (Except Error Row))
    (pulled : Nat) {chain : FetchedChain π n} (hfetched : emitted chain = [])
    (session : Session α) :
    ∃ halt head after,
      pushUntil options width (hasEmitted ∘ Recorded.inner) items pulled (Recorded.start chain)
        session = (halt, pulled + head.rows.length, head, after) ∧
      pushUntil options width hasEmitted items pulled chain session =
        (halt, pulled + head.rows.length, head.inner, after) ∧
      head.rows.map Except.ok <+: items ∧ (∀ row ∈ head.rows, row.length = width) ∧
      Session.Pushed options head.rows.length (pulled + head.rows.length) halt.isStop session
        after ∧
      after.counters.rowsCollected =
        session.counters.rowsCollected + (emitted head.inner).length := by
  have htouch : TouchesEnd α (FetchedChain π n) := Chain.touchesEnd n
  obtain ⟨halt, rows, head, after, hpush, hrows, htaken, hwidths, hpushed⟩ :=
    pushUntil_pushed options width hasEmitted htouch items pulled (Recorded.start chain) session
  obtain ⟨_, _, _, _, hrecorded, hplain⟩ :=
    pushUntil_recorded options width hasEmitted items pulled (Recorded.start chain) session
  -- the plain run halts where the recorded one does
  rw [hpush] at hrecorded
  obtain ⟨rfl, rfl, rfl, rfl⟩ := hrecorded
  obtain rfl : head.rows = rows := hrows
  -- nothing waits in the outbox, so all that is in it later has come out now
  have hstart : Tallied Outbox.rows session.counters.rowsCollected (Chain.terminal n chain)
      session :=
    congrArg (fun rows : List Row => session.counters.rowsCollected + rows.length) hfetched.symm
  have hkept := Chain.unbroken_tallied (α := α) (π := π) Outbox.holds
    session.counters.rowsCollected n
  -- counting at the end keeps pace with the outbox, row by row
  have htallied := pushUntil_kept options width
    (I := fun c w => Tallied Outbox.rows session.counters.rowsCollected (Chain.terminal n c) w)
    (fun row _ _ h => hkept.consume row h) (tallied_stopped options) hasEmitted items pulled hstart
  have hplain : pushUntil options width hasEmitted items pulled chain session =
      (halt, pulled + head.rows.length, head.inner, after) := hplain
  rw [hplain] at htallied
  exact ⟨halt, head, after, hpush, hplain, htaken, hwidths, hpushed, htallied⟩

/-- What becomes of a reader that pulls rows. -/
theorem exists_advances (it : RowIterator π α n) (hwaiting : it.waiting = [])
    {chain : FetchedChain π n} (hchain : it.chain = some chain) (hfetched : emitted chain = [])
    (session : Session α) :
    ∃ rows handed, it.traffic session = ⟨rows, handed⟩ ∧
      handed = given (it.next session).1 ++ (it.next session).2.1.waiting ∧
      rows.map Except.ok <+: it.items ∧ (∀ row ∈ rows, row.length = it.width) ∧
      ∃ stopped standing, (it.items = [] → stopped = false ∧ standing.IsEnd) ∧
        Advances it.options rows (it.pulled + rows.length) stopped standing session
          (it.next session) := by
  obtain ⟨halt, head, after, hpush, hplain, htaken, hwidths, hpushed, htallied⟩ :=
    exists_pushUntil it.options it.width it.items it.pulled hfetched session
  -- a reader has one chain at most
  have hall : it.Fetched := fun c hc => by
    rw [hchain] at hc
    exact Option.mem_some.1 hc ▸ hfetched
  have hnext : it.next session =
      resume it.options it.width (halt, it.pulled + head.rows.length, head.inner, after) := by
    rw [next_eq it hall, hwaiting, hchain]
    exact congrArg (resume it.options it.width) hplain
  obtain ⟨standing, hend, hadvances⟩ := advances_resume hpushed htallied it.width rfl
    fun rest hready => pushUntil_ready (hready ▸ hplain)
  refine ⟨head.rows, given (it.next session).1 ++ (it.next session).2.1.waiting, ?_, rfl, htaken,
    hwidths, halt.isStop, standing, ?_, ?_⟩
  · simp only [traffic, hwaiting, hchain, hpush]
  · -- without items the source is at its end, and the chain is closed
    intro hnil
    rw [hnil] at hplain
    obtain rfl : Halt.ended = halt := (Prod.mk.inj hplain).1
    exact ⟨rfl, hend rfl⟩
  · rw [hnext]
    exact hadvances

/-! ## Questions and deeds -/

/-- A reader pulls rows if none is waiting and the run goes on. -/
def Pulls (it : RowIterator π α n) : Prop := it.waiting = [] ∧ it.chain ≠ none

theorem next_of_not_pulls (it : RowIterator π α n) (h : ¬ it.Pulls) (session : Session α) :
    it.next session = it.giveWaiting session ∧ it.traffic session = .none := by
  obtain ⟨options, width, items, chain, pulled, waiting⟩ := it
  cases waiting with
  | cons row waiting => exact ⟨rfl, rfl⟩
  | nil =>
    cases chain with
    | none => exact ⟨rfl, rfl⟩
    | some chain => exact absurd ⟨rfl, Option.some_ne_none chain⟩ h

/-- A question to a reader that does not pull rows gives a waiting row or nothing. -/
theorem deed_of_not_pulls {it : RowIterator π α n} (h : ¬ it.Pulls) (session : Session α) :
    ∃ answer waiting, it.next session = (answer, { it with waiting }, session) ∧
      it.deed session = .none ∧ errorsOf [answer] = [] ∧ (answer = none → it.chain = none) := by
  obtain ⟨answer, waiting, hanswer, -, herrors, hnone⟩ := exists_giveWaiting it session
  have hrecorded := next_of_not_pulls it.recorded h session.recorded
  refine ⟨answer, waiting, (next_of_not_pulls it h session).1.trans hanswer, ?_, herrors,
    fun hno => ?_⟩
  · obtain ⟨_, _, hown, -⟩ := exists_giveWaiting it.recorded session.recorded
    simp only [deed, notices, hrecorded.1, hrecorded.2, hown]
    rfl
  · -- a reader with a chain and nothing to give would pull
    by_contra hchain
    exact h ⟨hnone hno, hchain⟩

/-- A question to a reader that pulls rows brings the run on. -/
theorem deed_of_pulls {it : RowIterator π α n} (h : it.Pulls) (hfetched : it.Fetched)
    (session : Session α) :
    ∃ rows handed stopped standing,
      it.deed session = ⟨Notice.ofStop stopped (it.pulled + rows.length) ++
        standing.notices it.options.alertAt, rows, handed⟩ ∧
      handed = given (it.next session).1 ++ (it.next session).2.1.waiting ∧
      rows.map Except.ok <+: it.items ∧ (∀ row ∈ rows, row.length = it.width) ∧
      (it.items = [] → stopped = false ∧ standing.IsEnd) ∧
      Advances it.options rows (it.pulled + rows.length) stopped standing session
        (it.next session) := by
  obtain ⟨hwaiting, hchain⟩ := h
  obtain ⟨chain, hchain⟩ := Option.ne_none_iff_exists'.1 hchain
  obtain ⟨rows, handed, htraffic, hhanded, htaken, hwidths, stopped, standing, hitems, h⟩ :=
    exists_advances it.recorded hwaiting hchain (hfetched chain hchain) session.recorded
  -- the recorded run holds all notices, since its log was empty
  have hnotices : it.notices session = _ := h.logged.eq_log
  have hdeed : it.deed session = ⟨it.notices session, it.recorded.traffic session.recorded⟩ := rfl
  rw [htraffic, hnotices] at hdeed
  have hnext := next_recorded it session
  refine ⟨rows, handed, stopped, standing, hdeed, ?_, htaken, hwidths, hitems, ?_⟩
  · rw [hhanded, hnext]
    rfl
  -- the reader of the recorded run stands where the reader does
  constructor
  · rw [hnext]
    rfl
  · rw [hnext]
    exact h.count
  · refine ⟨?_, ?_, ?_⟩
    · rw [log_next, hnotices]
      rfl
    · rw [hnext]
      exact h.logged.counters
    · rw [hnext]
      exact h.logged.spent
  · rw [hnext]
    exact h.errors
  · rw [hnext]
    exact h.underway
  · rw [hnext]
    exact h.ended

theorem options_next (it : RowIterator π α n) (session : Session α) :
    (it.next session).2.1.options = it.options := by
  rw [next_recorded]
  rfl

theorem fetched_next {it : RowIterator π α n} (hfetched : it.Fetched) (session : Session α) :
    (it.next session).2.1.Fetched := by
  by_cases hpulls : it.Pulls
  · obtain ⟨rows, handed, stopped, standing, -, -, -, -, -, h⟩ :=
      deed_of_pulls hpulls hfetched session
    intro c hc
    -- a run that is over has no chain left
    rcases standing.isEnd_or_underway with hend | hstanding
    · rw [h.ended hend] at hc
      cases hc
    · obtain ⟨-, chain, hchain, hemitted, -⟩ := h.underway hstanding
      rw [hchain] at hc
      exact Option.mem_some.1 hc ▸ hemitted
  · obtain ⟨answer, waiting, hnext, -⟩ := deed_of_not_pulls hpulls session
    rw [hnext]
    exact hfetched

/-- What a reader tells and counts when it is asked. -/
theorem next_logged {it : RowIterator π α n} (hfetched : it.Fetched) (session : Session α) :
    Session.Logged it.options (it.deed session).notices
      ((it.deed session).counters 0 (errorsOf [(it.next session).1]).length) session
      (it.next session).2.2 := by
  by_cases hpulls : it.Pulls
  · obtain ⟨rows, handed, stopped, standing, hdeed, hhanded, -, -, -, h⟩ :=
      deed_of_pulls hpulls hfetched session
    -- what is handed over is the answer and what waits behind it
    rw [hdeed, h.errors, hhanded]
    exact h.logged
  · obtain ⟨answer, waiting, hnext, hdeed, herrors, -⟩ := deed_of_not_pulls hpulls session
    rw [hdeed, hnext, herrors]
    exact ⟨(it.options.hear_nil session.log).symm, rfl, id⟩

/-! ## All questions -/

/-- What has been told of the run of a reader so far. -/
inductive Telling (it : RowIterator π α n) : Nat → Standing → List Notice → Prop
  | underway {chain : FetchedChain π n} (steps : Nat) (schema : Schema) (stopped : Bool) :
    it.chain = some chain → emitted chain = [] → (stopped = true → it.items = []) →
      Telling it it.pulled .underway (.event .started :: .event (.opened steps schema) ::
        (Notice.ofStop stopped it.pulled ++ Standing.notices it.options.alertAt .underway))
  | ended {pulled : Nat} {standing : Standing} {notices : List Notice} :
    it.chain = none → standing.IsEnd → Told it.options.alertAt pulled standing notices →
      Telling it pulled standing notices

namespace Telling

variable {it : RowIterator π α n} {pulled : Nat} {standing : Standing} {notices : List Notice}

omit [Producer π] in
theorem told (h : it.Telling pulled standing notices) :
    Told it.options.alertAt pulled standing notices := by
  cases h with
  | underway steps schema stopped => exact .opened steps schema stopped it.pulled .underway
  | ended _ _ htold => exact htold

omit [Producer π] in
/-- A question leaves a run that has been opened underway, or ends it. -/
theorem of_advances {options : Options α} {rows : List Row} {stopped : Bool} {before : Session α}
    {outcome : Option (Except Error Row) × RowIterator π α n × Session α}
    (h : Advances options rows pulled stopped standing before outcome) (steps : Nat)
    (schema : Schema) {stopped' : Bool}
    (hitems : standing = .underway → stopped' = true → outcome.2.1.items = []) :
    outcome.2.1.Telling pulled standing (.event .started :: .event (.opened steps schema) ::
      (Notice.ofStop stopped' pulled ++ standing.notices options.alertAt)) := by
  rcases standing.isEnd_or_underway with hend | rfl
  · refine .ended (h.ended hend) hend ?_
    -- the options of the reader are the same after the question
    rw [h.own]
    exact .opened steps schema stopped' pulled standing
  · obtain ⟨-, chain, hchain, hemitted, -⟩ := h.underway rfl
    have htelling := Telling.underway steps schema stopped' hchain hemitted (hitems rfl)
    rwa [h.count, h.own] at htelling

/-- A question goes on with what has been told. -/
theorem next (h : it.Telling pulled standing notices) (session : Session α) :
    ∃ standing', (it.next session).2.1.Telling
        (pulled + (it.deed session).traffic.pushed.length) standing'
        (notices ++ (it.deed session).notices) ∧
      standing'.errors = standing.errors ++ errorsOf [(it.next session).1] ∧
      (standing.IsEnd ∨ (it.next session).1 = none → standing'.IsEnd) := by
  by_cases hpulls : it.Pulls
  · cases h with
    | ended hchain => exact absurd hchain hpulls.2
    | @underway chain steps schema stopped hchain hemitted hitems =>
      have hfetched : it.Fetched := fun c hc => by
        rw [hchain] at hc
        exact Option.mem_some.1 hc ▸ hemitted
      obtain ⟨rows, handed, stopped', standing', hdeed, -, htaken, -, hrest, hadvances⟩ :=
        deed_of_pulls hpulls hfetched session
      -- after a request to stop nothing is pulled any more, and the run ends
      have hnone (hnil : it.items = []) : rows.length = 0 := by
        rw [hnil] at htaken
        rw [← List.length_map Except.ok, List.prefix_nil.1 htaken, List.length_nil]
      -- two requests to stop would be one too many, but nothing is pulled after the first
      have hstop : Notice.ofStop stopped it.pulled ++
          Notice.ofStop stopped' (it.pulled + rows.length) =
            Notice.ofStop (stopped || stopped') (it.pulled + rows.length) :=
        Notice.ofStop_append fun hstopped =>
          ⟨(hrest (hitems hstopped)).1, hnone (hitems hstopped)⟩
      -- after a request to stop there are no items left, whether it came now or before
      have hleft (hunderway : standing' = .underway) (hor : (stopped || stopped') = true) :
          (it.next session).2.1.items = [] := by
        cases stopped with
        | false =>
          obtain ⟨-, _, -, -, hleft⟩ := hadvances.underway hunderway
          exact hleft hor
        | true =>
          subst hunderway
          exact (hrest (hitems rfl)).2.elim
      have htelling := of_advances hadvances steps schema hleft
      rw [← hstop, List.append_assoc] at htelling
      rw [hdeed]
      refine ⟨standing', ?_, hadvances.errors.symm, ?_⟩
      · rwa [Standing.notices, List.append_nil]
      · rintro (hend | hanswer)
        · exact hend.elim
        · exact standing'.isEnd_or_underway.resolve_right fun hstanding =>
            (hadvances.underway hstanding).1 hanswer
  -- a reader that does not pull rows leaves the run where it is
  · obtain ⟨answer, waiting, hnext, hdeed, herrors, hnone⟩ := deed_of_not_pulls hpulls session
    rw [hnext, hdeed]
    refine ⟨standing, ?_, ?_, ?_⟩
    · dsimp only [Deed.none, Traffic.none, List.length_nil]
      rw [List.append_nil]
      cases h with
      | underway steps schema stopped hchain hemitted hitems =>
        exact .underway steps schema stopped hchain hemitted hitems
      | ended hchain hend htold => exact .ended hchain hend htold
    · rw [herrors, List.append_nil]
    · rintro (hend | hanswer)
      · exact hend
      · cases h with
        | underway steps schema stopped hchain => cases hchain.symm.trans (hnone hanswer)
        | ended _ hend => exact hend

end Telling

/-- Asks a reader in one session after another: its answers, what it does, and the reader
    afterwards. -/
def interview : List (Session α) → RowIterator π α n →
    List (Option (Except Error Row)) × List Deed × RowIterator π α n
  | [], it => ([], [], it)
  | session :: sessions, it =>
    let (answers, deeds, last) := interview sessions (it.next session).2.1
    ((it.next session).1 :: answers, it.deed session :: deeds, last)

/-- What has been told of the run of a reader, whenever it has been asked, fits the protocol; the
    reader has answered the error of its run, if there is one, and the run is over if the reader has
    had nothing to give. -/
theorem Telling.interview {it : RowIterator π α n} {pulled : Nat} {standing : Standing}
    {notices : List Notice} (h : it.Telling pulled standing notices)
    (sessions : List (Session α)) :
    ∃ standing', Told it.options.alertAt
        (pulled + (Deed.all (it.interview sessions).2.1).traffic.pushed.length) standing'
        (notices ++ (Deed.all (it.interview sessions).2.1).notices) ∧
      standing'.errors = standing.errors ++ errorsOf (it.interview sessions).1 ∧
      (standing.IsEnd ∨ none ∈ (it.interview sessions).1 → standing'.IsEnd) := by
  -- the reader goes from session to session, and with it what has been told
  induction sessions generalizing it pulled standing notices with
  | nil =>
    refine ⟨standing, ?_, (List.append_nil _).symm, ?_⟩
    · exact (List.append_nil notices).symm ▸ h.told
    · rintro (hend | hnone)
      · exact hend
      · cases hnone
  | cons session sessions ih =>
    obtain ⟨next, htelling, herrors, hend⟩ := h.next session
    obtain ⟨last, htold, hlast, hdone⟩ := ih htelling
    refine ⟨last, ?_, ?_, ?_⟩
    · rw [options_next, Nat.add_assoc, ← List.length_append, List.append_assoc] at htold
      rw [show (it.interview (session :: sessions)).2.1 = it.deed session ::
        ((it.next session).2.1.interview sessions).2.1 from rfl, Deed.all_cons]
      exact htold
    · rw [hlast, herrors, List.append_assoc]
      exact congrArg _ (errorsOf_cons _ _).symm
    -- a run that is over stays so, whatever the reader is asked later
    · rintro (hbefore | hnone)
      · exact hdone (.inl (hend (.inl hbefore)))
      · rcases List.mem_cons.1 hnone with hnow | hlater
        · exact hdone (.inl (hend (.inr hnow.symm)))
        · exact hdone (.inr hlater)

/-- A reader keeps what it has been started with. -/
theorem interview_last {it : RowIterator π α n} (hfetched : it.Fetched)
    (sessions : List (Session α)) :
    (it.interview sessions).2.2.options = it.options ∧ (it.interview sessions).2.2.Fetched := by
  induction sessions generalizing it with
  | nil => exact ⟨rfl, hfetched⟩
  | cons session sessions ih =>
    obtain ⟨hoptions, hlast⟩ := ih (fetched_next hfetched session)
    exact ⟨hoptions.trans (options_next it session), hlast⟩

/-- The rows that a question pushes are the next ones of the source and have its width. -/
theorem pushed_deed {it : RowIterator π α n} (hfetched : it.Fetched) (session : Session α) :
    (it.deed session).traffic.pushed.map Except.ok <+: it.items ∧
      ∀ row ∈ (it.deed session).traffic.pushed, row.length = it.width := by
  by_cases hpulls : it.Pulls
  · obtain ⟨rows, handed, stopped, standing, hdeed, -, htaken, hwidths, -⟩ :=
      deed_of_pulls hpulls hfetched session
    rw [hdeed]
    exact ⟨htaken, hwidths⟩
  · obtain ⟨answer, waiting, -, hdeed, -⟩ := deed_of_not_pulls hpulls session
    rw [hdeed]
    exact ⟨List.nil_prefix, nofun⟩

end RowIterator

/-! ## Runs with a reader -/

namespace Pipeline

variable [StepKind ι π κ] [Producer π] (pipeline : Pipeline ι α) (session : Session α)

/-- What a run does when its reader is started. -/
def openingDeed : Deed := ⟨pipeline.openingNotices session, .none⟩

/-- A run with a reader fails at once, or the reader is about to be asked. -/
theorem openingDeed_cases :
    ((∃ e, (pipeline.iterate session).1 = .error e ∧
      Told pipeline.options.alertAt 0 (.failed e) (pipeline.openingDeed session).notices ∧
      Session.Logged pipeline.options (pipeline.openingDeed session).notices
        ((pipeline.openingDeed session).counters 1 1) session (pipeline.iterate session).2) ∨
    ∃ it : Sigma (RowIterator π α), (pipeline.iterate session).1 = .ok it ∧
      it.2.options = pipeline.options ∧ it.2.Fetched ∧
      it.2.Telling 0 .underway (pipeline.openingDeed session).notices ∧
      Session.Logged pipeline.options (pipeline.openingDeed session).notices
        ((pipeline.openingDeed session).counters 1 0) session (pipeline.iterate session).2) ∧
    (TellsOpened (pipeline.openingDeed session).notices ↔
      ∃ opened, pipeline.openForReader session.fresh session.files = .ok opened) := by
  -- the record of the same opening holds what is told of it
  have hdeed {notices : List Notice} {added : Counters} {result} {after : Session (List Notice)}
      (hopening : pipeline.recorded.iterate session.recorded = (result, after))
      (hlogged : Session.Logged pipeline.options.recorded notices added session.recorded after) :
      pipeline.openingDeed session = ⟨notices, .none⟩ := by
    rw [openingDeed, openingNotices, hopening, ← hlogged.eq_log]
  rcases hreader : (pipeline.openForReader session.fresh session.files :
    Except Error (Nat × List π × Schema)) with e | ⟨width, producers, schema⟩
  · rw [iterate_of_not_assembled hreader,
      hdeed (iterate_of_not_assembled hreader) (.unopened _ e _)]
    exact ⟨.inl ⟨e, rfl, .unopened e, .unopened pipeline.options e session⟩,
      iff_of_false (not_tellsOpened _ e) nofun⟩
  -- recording does not change what is opened
  · have hreader' : pipeline.recorded.openForReader session.recorded.fresh session.recorded.files =
      .ok (width, producers, schema) := hreader
    rcases hitems : (pipeline.source.openOn session.files session.spent).1 with e | items
    · rw [iterate_of_not_opened hreader hitems, hdeed (iterate_of_not_opened hreader' hitems)
        (.unread pipeline.recorded _ schema e _)]
      exact ⟨.inl ⟨e, rfl, .opened _ schema false 0 (.failed e),
        .unread pipeline _ schema e session⟩, iff_of_true (tellsOpened _ _ _) ⟨_, rfl⟩⟩
    · rw [iterate_of_opened hreader hitems, hdeed (iterate_of_opened hreader' hitems)
        (.begun pipeline.recorded _ schema _)]
      have hemitted := RowIterator.emitted_connect producers
      exact ⟨.inr ⟨_, rfl, rfl, fun chain hchain => Option.mem_some.1 hchain ▸ hemitted,
        .underway _ schema false rfl hemitted nofun, .begun pipeline _ schema session⟩,
        iff_of_true (tellsOpened _ _ _) ⟨_, rfl⟩⟩

/-- What is told of a run with a reader, who may be asked in any sessions, and which rows are pushed
    meanwhile. -/
structure ReaderAccount (pipeline : Pipeline ι α) (session : Session α) : Prop where
  heard : (pipeline.iterate session).2.log =
    pipeline.options.hear (pipeline.openingDeed session).notices session.log
  failed (e : Error) : (pipeline.iterate session).1 = .error e →
    Told pipeline.options.alertAt 0 (.failed e) (pipeline.openingDeed session).notices
  told (it : Sigma (RowIterator π α)) (sessions : List (Session α)) :
    (pipeline.iterate session).1 = .ok it →
      ∃ standing, Told pipeline.options.alertAt
          (Deed.all (it.2.interview sessions).2.1).traffic.pushed.length standing
          ((pipeline.openingDeed session).notices ++
            (Deed.all (it.2.interview sessions).2.1).notices) ∧
        standing.errors = errorsOf (it.2.interview sessions).1 ∧
        (none ∈ (it.2.interview sessions).1 → standing.IsEnd)
  heardNext (it : Sigma (RowIterator π α)) (sessions : List (Session α)) (now : Session α) :
    (pipeline.iterate session).1 = .ok it →
      ((it.2.interview sessions).2.2.next now).2.2.log =
        pipeline.options.hear ((it.2.interview sessions).2.2.deed now).notices now.log
  pushed (it : Sigma (RowIterator π α)) (sessions : List (Session α)) (now : Session α) :
    (pipeline.iterate session).1 = .ok it →
      ((it.2.interview sessions).2.2.deed now).traffic.pushed.map Except.ok <+:
          (it.2.interview sessions).2.2.items ∧
        ∀ row ∈ ((it.2.interview sessions).2.2.deed now).traffic.pushed,
          row.length = (it.2.interview sessions).2.2.width

theorem reader_account : pipeline.ReaderAccount session := by
  have hheard : (pipeline.iterate session).2.log =
      pipeline.options.hear (pipeline.openingDeed session).notices session.log :=
    log_iterate pipeline session
  rcases (openingDeed_cases pipeline session).1 with
    ⟨e, hresult, htold, -⟩ | ⟨it, hresult, hoptions, hfetched, htelling, -⟩
  · refine ⟨hheard, ?_, ?_, ?_, ?_⟩
    · rintro e' hfailed
      cases hresult.symm.trans hfailed
      exact htold
    all_goals
      intros
      next hstarted => cases hresult.symm.trans hstarted
  · refine ⟨hheard, ?_, ?_, ?_, ?_⟩
    · intro e hfailed
      cases hresult.symm.trans hfailed
    -- there is one reader that has been started
    · intro it' sessions hstarted
      cases hresult.symm.trans hstarted
      obtain ⟨standing, htold, herrors, hend⟩ := htelling.interview sessions
      rw [hoptions, Nat.zero_add] at htold
      exact ⟨standing, htold, herrors, fun hnone => hend (.inr hnone)⟩
    · intro it' sessions now hstarted
      cases hresult.symm.trans hstarted
      rw [RowIterator.log_next, (RowIterator.interview_last hfetched sessions).1, hoptions]
      rfl
    · intro it' sessions now hstarted
      cases hresult.symm.trans hstarted
      exact RowIterator.pushed_deed (RowIterator.interview_last hfetched sessions).2 now

end Pipeline

end RowFlow
