import RowFlow.Pipeline.Iterator
import RowFlow.Proofs.Chain.Terminal

/-!
# Answers of a Reader

What a reader answers when it is asked again and again. A reader that pushes a row and goes on
answers like the reader after this row (`RowIterator.next_of_more`, `RowIterator.next_of_stop`), so
its answers can be followed one row of the source at a time, however many rows come out at each.
-/

namespace RowFlow

namespace RowIterator

variable {π α : Type} {n : Nat}

/-! ## Fetching -/

/-- Nothing has come out of a chain at the start. -/
theorem emitted_connect (producers : List π) :
    emitted (Chain.connect producers (Guarded.start ⟨⟨[]⟩⟩) : FetchedChain π producers.length) =
      [] := by
  rw [emitted, Chain.terminal_connect]
  rfl

theorem emitted_fetched (chain : FetchedChain π n) : emitted (fetched chain) = [] := by
  unfold emitted fetched
  rw [Chain.terminal_mapTerminal]

theorem fetched_of_emitted_nil {chain : FetchedChain π n} (h : emitted chain = []) :
    fetched chain = chain := by
  refine Chain.mapTerminal_eq_self _ ?_
  unfold emitted at h
  generalize Chain.terminal n chain = terminal at h ⊢
  obtain ⟨⟨⟨rows⟩⟩, closed⟩ := terminal
  obtain rfl : rows = [] := h
  rfl

/-! ## Asking -/

variable [Producer π]

/-- Asks some number of times: the answers, and the reader and the session afterwards. -/
def ask : Nat → RowIterator π α n → Session α →
    List (Option (Except Error Row)) × RowIterator π α n × Session α
  | 0, it, session => ([], it, session)
  | k + 1, it, session =>
    let (answer, it, session) := it.next session
    let (answers, it, session) := ask k it session
    (answer :: answers, it, session)

/-- A reader gives some answers and then nothing more, which leads to a session. -/
inductive Yields : RowIterator π α n → Session α → List (Except Error Row) → Session α → Prop
  | nothing {it it' : RowIterator π α n} {session after : Session α} :
    it.next session = (none, it', after) → it'.waiting = [] → it'.chain = none →
      Yields it session [] after
  | answer {it it' : RowIterator π α n} {session session' after : Session α}
    {answer : Except Error Row} {answers : List (Except Error Row)} :
    it.next session = (some answer, it', session') → Yields it' session' answers after →
      Yields it session (answer :: answers) after

theorem ask_succ {k : Nat} {it it' : RowIterator π α n} {session session' : Session α}
    {answer : Option (Except Error Row)} (h : it.next session = (answer, it', session')) :
    it.ask (k + 1) session =
      (answer :: (it'.ask k session').1, (it'.ask k session').2.1, (it'.ask k session').2.2) := by
  simp only [ask, h]

/-- A reader without rows and without a chain has nothing to give. -/
theorem ask_of_spent {it : RowIterator π α n} (hwaiting : it.waiting = [])
    (hchain : it.chain = none) (session : Session α) (k : Nat) :
    it.ask k session = (List.replicate k none, it, session) := by
  have hnext : it.next session = (none, it, session) := by
    simp only [next, hwaiting, hchain, giveWaiting]
  induction k with
  | zero => rfl
  | succ k ih => rw [ask_succ hnext, ih, List.replicate_succ]

/-- All answers of a reader, however often it is asked. -/
theorem Yields.ask_fst {it : RowIterator π α n} {session after : Session α}
    {answers : List (Except Error Row)} (h : it.Yields session answers after) (k : Nat) :
    (it.ask k session).1 = (answers.map some ++ List.replicate k none).take k := by
  -- one question is used up for each answer, until only nothing is left to give
  induction h generalizing k with
  | nothing hnext hwaiting hchain =>
    cases k with
    | zero => rfl
    | succ k =>
      rw [ask_succ hnext, ask_of_spent hwaiting hchain, List.map_nil, List.nil_append,
        List.take_replicate, Nat.min_self, List.replicate_succ]
  | @answer _ _ _ _ _ _ answers hnext _ ih =>
    cases k with
    | zero => rfl
    | succ k =>
      -- the answers and as many nothings as there are questions left are enough to take from
      have hlength : k ≤ (answers.map some ++ List.replicate k none).length := by
        rw [List.length_append, List.length_replicate]
        exact Nat.le_add_left _ _
      rw [ask_succ hnext, List.map_cons, List.cons_append, List.take_succ_cons,
        List.replicate_succ', ← List.append_assoc, List.take_append_of_le_length hlength, ← ih]

/-- A reader that has given everything answers with nothing. -/
theorem Yields.ask_all {it : RowIterator π α n} {session after : Session α}
    {answers : List (Except Error Row)} (h : it.Yields session answers after) (k : Nat) :
    (it.ask (answers.length + k) session).1 = answers.map some ++ List.replicate k none := by
  have hlength : (answers.map some).length = answers.length := List.length_map _
  rw [h.ask_fst, ← hlength, List.take_length_add_append, List.take_replicate,
    Nat.min_eq_left (Nat.le_add_left _ _)]

/-- A reader that has given everything has brought the session to its end. -/
theorem Yields.ask_session {it : RowIterator π α n} {session after : Session α}
    {answers : List (Except Error Row)} (h : it.Yields session answers after) {k : Nat}
    (hk : answers.length < k) : (it.ask k session).2.2 = after := by
  induction h generalizing k with
  | nothing hnext hwaiting hchain =>
    -- the last question finds nothing, so there has to be one more than there are answers
    cases k with
    | zero => exact absurd hk (Nat.not_lt_zero _)
    | succ k => rw [ask_succ hnext, ask_of_spent hwaiting hchain]
  | answer hnext _ ih =>
    cases k with
    | zero => exact absurd hk (Nat.not_lt_zero _)
    | succ k =>
      rw [ask_succ hnext]
      exact ih (Nat.lt_of_succ_lt_succ hk)

/-- A reader whose next answer is that of another gives the same as that one. -/
theorem Yields.of_next_eq {it it' : RowIterator π α n} {session session' after : Session α}
    {answers : List (Except Error Row)} (h : it'.Yields session' answers after)
    (hnext : it.next session = it'.next session') : it.Yields session answers after := by
  cases h with
  | nothing h hwaiting hchain => exact .nothing (hnext.trans h) hwaiting hchain
  | answer h hrest => exact .answer (hnext.trans h) hrest

/-- Waiting rows come first. -/
theorem Yields.prepend {options : Options α} {width pulled : Nat} {items : List (Except Error Row)}
    {chain : Option (FetchedChain π n)} {session after : Session α}
    {answers : List (Except Error Row)}
    (h : (RowIterator.mk options width items chain pulled []).Yields session answers after)
    (waiting : List Row) :
    (RowIterator.mk options width items chain pulled waiting).Yields session
      (waiting.map .ok ++ answers) after := by
  -- a waiting row is given without looking at the chain or the session
  induction waiting with
  | nil => exact h
  | cons row rest ih => exact .answer rfl ih

/-- A reader without a chain gives the rows that are waiting. -/
theorem yields_waiting {it : RowIterator π α n} (hchain : it.chain = none) (session : Session α) :
    it.Yields session (it.waiting.map Except.ok) session := by
  obtain ⟨options, width, items, chain, pulled, waiting⟩ := it
  obtain rfl : chain = none := hchain
  have hnext : (RowIterator.mk options width items (none : Option (FetchedChain π n)) pulled
      []).next session = (none, RowIterator.mk options width items none pulled [], session) := rfl
  have hall := (Yields.nothing hnext rfl rfl).prepend waiting
  rwa [List.append_nil] at hall

/-! ## One row at a time -/

/-- Pulling does not look at the chain that the reader started with. -/
theorem pull_congr (it : RowIterator π α n) (start : Option (FetchedChain π n))
    (chain : FetchedChain π n) (session : Session α) (items : List (Except Error Row)) :
    { it with chain := start }.pull chain session items = it.pull chain session items := by
  -- the chain that is stored is replaced by the one at hand before it is looked at
  induction items generalizing it chain session with
  | nil => rfl
  | cons item items ih =>
    cases item with
    | error e => rfl
    | ok row =>
      simp only [pull]
      rcases pushRow it.options it.width row it.pulled chain session with
        ⟨e | _ | _, now, chain', session'⟩
      · rfl
      · dsimp only
        split
        · exact ih { it with pulled := now, items := items, waiting := emitted chain' } chain'
            session'
        · rfl
      · rfl

variable {options : Options α} {width : Nat} {row : Row} {pulled now : Nat}
  {chain chain' : FetchedChain π n} {session session' : Session α}

/-- A row that the run fails on ends it. Rows that have come out before are still waiting. -/
theorem next_of_error (rest : List (Except Error Row)) {e : Error}
    (h : pushRow options width row pulled chain session = (.error e, now, chain', session')) :
    (RowIterator.mk options width (.ok row :: rest) (some chain) pulled []).next session =
      (some (.error e), RowIterator.mk options width [] none now (emitted chain'),
        session'.fail options e) := by
  simp only [next, pull, h]
  rfl

/-- A row that is answered with `more` leaves a reader with the rest of the source. -/
theorem next_of_more (rest : List (Except Error Row))
    (h : pushRow options width row pulled chain session = (.ok .more, now, chain', session')) :
    (RowIterator.mk options width (.ok row :: rest) (some chain) pulled []).next session =
      (RowIterator.mk options width rest (some (fetched chain')) now (emitted chain')).next
        session' := by
  simp only [next, pull, h]
  -- with nothing to give the reader pulls on in the same question
  cases hout : emitted chain' with
  | nil =>
    rw [fetched_of_emitted_nil hout]
    exact pull_congr (RowIterator.mk options width rest (some chain') now []) (some chain) chain'
      session' rest
  | cons r out => rfl

/-- A row that is answered with `stop` leaves a reader for whom the source has ended. -/
theorem next_of_stop (rest : List (Except Error Row))
    (h : pushRow options width row pulled chain session = (.ok .stop, now, chain', session')) :
    (RowIterator.mk options width (.ok row :: rest) (some chain) pulled []).next session =
      (RowIterator.mk options width [] (some (fetched chain')) now (emitted chain')).next
        session' := by
  simp only [next, pull, h]
  -- with nothing to give the reader drains the chain in the same question
  cases hout : emitted chain' with
  | nil =>
    rw [fetched_of_emitted_nil hout]
    rfl
  | cons r out => rfl

end RowIterator

/-! ## Errors among answers -/

/-- The errors among some answers. -/
def errorsOf : List (Option (Except Error Row)) → List Error
  | [] => []
  | some (.error e) :: rest => e :: errorsOf rest
  | _ :: rest => errorsOf rest

theorem errorsOf_cons (answer : Option (Except Error Row))
    (rest : List (Option (Except Error Row))) :
    errorsOf (answer :: rest) = errorsOf [answer] ++ errorsOf rest := by
  rcases answer with _ | _ | _ <;> rfl

theorem errorsOf_rows_append (rows : List Row) (rest : List (Option (Except Error Row))) :
    errorsOf (rows.map (some ∘ .ok) ++ rest) = errorsOf rest := by
  induction rows with
  | nil => rfl
  | cons row rows ih => exact ih

theorem errorsOf_nothing (k : Nat) : errorsOf (List.replicate k none) = [] := by
  induction k with
  | zero => rfl
  | succ k ih => exact ih

end RowFlow
