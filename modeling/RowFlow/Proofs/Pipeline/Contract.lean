import RowFlow.Proofs.Chain.Contract
import RowFlow.Proofs.Pipeline.Answers
import RowFlow.Proofs.Reduction.Accumulator
import RowFlow.Proofs.Stream.Basic

/-!
# Contracts of Runs

A collector that has been opened on a schema takes rows of its width without a mismatch, and the
rows in its result have this width too (`Collector.honours`). In front of a chain that honours such
a contract a run, whether it is driven by the source or by a reader, meets no mismatch but those
that the source itself comes with (`pushAndClose_within`, `RowIterator.Sound.ask`).
-/

namespace RowFlow

/-! ## Ends of chains -/

section
variable {ω σ : Type} [Consumer ω σ] {P : Row → Prop} {F : Error → Prop} {O : Option Output → Prop}
  {I : σ → Prop}

/-- Refusing calls after a close breaks no contract. -/
theorem Honours.guarded (h : Honours ω P F O I) :
    Honours ω P F O fun s : Guarded σ => I s.inner where
  consume row s w hrow hs := by
    obtain ⟨inner, closed⟩ := s
    cases closed with
    | true => exact ⟨.error False.elim, hs⟩
    | false => exact h.consume row inner w hrow hs
  close s w hs := by
    obtain ⟨inner, closed⟩ := s
    cases closed with
    | true => exact ⟨.error False.elim, nofun, hs⟩
    | false => exact h.close inner w hs

end

/-- Neither does counting rows. -/
theorem Honours.metered {α κ : Type} [Consumer Files κ] {P : Row → Prop} {F : Error → Prop}
    {O : Option Output → Prop} {I : κ → Prop} (h : Honours Files P F O I) :
    Honours (Session α) P F O fun s : Metered κ => I s.inner where
  consume row s w hrow hs := h.consume row s.inner w.files hrow hs
  close s w hs := h.close s.inner w.files hs

/-- An outbox takes all rows, and holds what it has taken. -/
theorem Outbox.honours {ω : Type} {P : Row → Prop} {F : Error → Prop} :
    Honours ω P F (fun output => output = none)
      fun outbox : Outbox => ∀ row ∈ outbox.rows, P row where
  consume row outbox w hrow hs := by
    refine ⟨.ok _, fun r hr => ?_⟩
    -- the outbox keeps rows in order, the new one at the end
    rcases List.mem_append.1 hr with hr | hr
    · exact hs r hr
    · exact List.mem_singleton.1 hr ▸ hrow
  close outbox w hs := ⟨.ok _, fun _ h => (Except.ok.inj h).symm, hs⟩

/-! ## Collectors -/

/-- A collector that takes rows of a schema and holds such rows. -/
def Collector.Suits (schema : Schema) : Collector → Prop
  | .table own held => own = schema ∧ ∀ values ∈ held, values.length = schema.width
  | .count _ => True
  | .distinct width _ _ | .reduce width _ _ => width = schema.width
  | .rows width held => width = schema.width ∧ ∀ row ∈ held, row.length = schema.width
  | .csvFile writer => writer.width = schema.width

/-- A result whose rows, if it has any, are rows of a schema. -/
def Output.Suits (schema : Schema) : Option Output → Prop
  | some (.table t) => t.schema = schema ∧ ∀ values ∈ t.rows, values.length = schema.width
  | some (.rows held) => ∀ row ∈ held, row.length = schema.width
  | _ => True

/-- A freshly opened collector suits its schema. -/
theorem Collection.suits_of_openOn {schema : Schema} {c : Collection} {collector : Collector}
    (h : c.openOn schema = .ok collector) : collector.Suits schema := by
  cases c with
  -- each collector is opened with nothing in it
  | table => exact Except.ok.inj h ▸ ⟨rfl, nofun⟩
  | count => exact Except.ok.inj h ▸ trivial
  | distinct columns =>
    simp only [openOn] at h
    split at h
    · exact Except.ok.inj h ▸ rfl
    · obtain ⟨positions, _, h⟩ := bind_eq_ok_iff.1 h
      exact Except.ok.inj h ▸ rfl
  | rows => exact Except.ok.inj h ▸ ⟨rfl, nofun⟩
  | reduce column reduction =>
    obtain ⟨position, _, h⟩ := bind_eq_ok_iff.1 h
    exact Except.ok.inj h ▸ rfl
  | csvFile path dialect => exact Except.ok.inj h ▸ rfl

/-- Pushing a value fails with errors of evaluation only. -/
theorem Accumulator.failsWith_push (acc : Accumulator) (value : Value) :
    FailsWith Error.IsEvaluation (acc.push value).1 := by
  intro e he
  obtain ⟨-, sum, n, rfl⟩ := pushed_eq_error (pushed_eq_error_iff.2 he)
  exact trivial

namespace FileWriter

variable {F : Error → Prop} (writer : FileWriter)

/-- Creating a file fails with failures to reach it, and leaves the width of its records. -/
theorem create_within (files : Files) :
    FailsWith (Error.Within F) (writer.create files).1 ∧
      (writer.create files).2.1.width = writer.width := by
  unfold create
  -- the file is open already, or there is a place for it, or there is none
  split
  · exact ⟨.ok _, rfl⟩
  · split
    · exact ⟨.ok _, rfl⟩
    · exact ⟨.error False.elim, rfl⟩

/-- Writing a record fails in no other way than creating the file does. -/
theorem put_within (values : List Value) (files : Files) :
    FailsWith (Error.Within F) (writer.put values files).1 ∧
      (writer.put values files).2.1.width = writer.width := by
  have hcreate := create_within (F := F) writer files
  unfold put
  split
  · rename_i hok
    rw [hok] at hcreate
    exact ⟨.ok _, hcreate.2⟩
  · exact hcreate

end FileWriter

namespace Collector

variable {schema : Schema} {F : Error → Prop} {collector : Collector}

/-- A collector that checks widths checks that of its schema. -/
theorem Suits.width? (h : collector.Suits schema) :
    ∀ width ∈ collector.width?, width = schema.width := by
  cases collector with
  | table own held => exact fun _ hwidth => (Option.some.inj hwidth) ▸ congrArg Schema.width h.1
  | count seen => exact nofun
  | distinct width positions counts => exact fun _ hwidth => (Option.some.inj hwidth) ▸ h
  | rows width held => exact fun _ hwidth => (Option.some.inj hwidth) ▸ h.1
  | reduce width position accumulator => exact fun _ hwidth => (Option.some.inj hwidth) ▸ h
  | csvFile writer => exact fun _ hwidth => (Option.some.inj hwidth) ▸ h

/-- A collector takes in a row of its schema without a mismatch. -/
theorem Suits.take (h : collector.Suits schema) {row : Row} (hrow : row.length = schema.width)
    (files : Files) :
    FailsWith (Error.Within F) (collector.take row files).1 ∧
      (collector.take row files).2.1.Suits schema := by
  cases collector with
  | table own held =>
    refine ⟨.ok _, h.1, fun values hvalues => ?_⟩
    -- rows of the width of the schema join others of it
    rcases List.mem_append.1 hvalues with hvalues | hvalues
    · exact h.2 values hvalues
    · exact List.mem_singleton.1 hvalues ▸ hrow
  | count seen => exact ⟨.ok _, trivial⟩
  | distinct width positions counts => exact ⟨.ok _, h⟩
  | rows width held =>
    refine ⟨.ok _, h.1, fun r hr => ?_⟩
    rcases List.mem_append.1 hr with hr | hr
    · exact h.2 r hr
    · exact List.mem_singleton.1 hr ▸ hrow
  | reduce width position accumulator =>
    -- only an overflowing sum is refused
    have hpush := accumulator.failsWith_push (row.values.getD position .null)
    exact ⟨fun e he => (hpush e he).within, h⟩
  | csvFile writer =>
    obtain ⟨hfails, hwidth⟩ := writer.put_within (F := F) row.values files
    exact ⟨hfails, hwidth.trans h⟩

/-- A collector honours the schema that it has been opened on. -/
theorem honours :
    Honours Files (·.length = schema.width) F (Output.Suits schema) (Suits schema) where
  consume row collector files hrow h := by
    -- the check of the width passes, if the collector has one
    have hwidth : (collector.width?.map (expectWidth row.values)).getD (.ok ()) = .ok () := by
      have hall := h.width?
      cases hc : collector.width? with
      | none => rfl
      | some width => exact expectWidth_eq_ok_iff.2 (hrow.trans (hall width hc).symm)
    obtain ⟨hfails, htaken⟩ := h.take (F := F) hrow files
    simp only [Consumer.consume, consume, hwidth]
    exact ⟨hfails.map _, htaken⟩
  close collector files h := by
    -- closing hands over what is held, and creates the file if no row did
    cases collector with
    | table own held => exact ⟨.ok _, fun _ houtput => Except.ok.inj houtput ▸ h, h.1, nofun⟩
    | count seen => exact ⟨.ok _, fun _ houtput => Except.ok.inj houtput ▸ trivial, trivial⟩
    | distinct width positions counts =>
      exact ⟨.ok _, fun _ houtput => Except.ok.inj houtput ▸ trivial, h⟩
    | rows width held => exact ⟨.ok _, fun _ houtput => Except.ok.inj houtput ▸ h.2, h.1, nofun⟩
    | reduce width position accumulator =>
      exact ⟨.ok _, fun _ houtput => Except.ok.inj houtput ▸ trivial, h⟩
    | csvFile writer =>
      obtain ⟨hfails, hwidth⟩ := writer.create_within (F := F) files
      refine ⟨hfails.map _, fun output houtput => ?_, hwidth.trans h⟩
      -- a file gives no result
      obtain ⟨_, _, rfl⟩ := map_eq_ok_iff.1 houtput
      trivial

end Collector

/-! ## Pushing rows -/

section
variable {α σ : Type} [Consumer (Session α) σ] {F : Error → Prop} {O : Option Output → Prop}
  {I : σ → Prop} {width : Nat}

/-- A stream that fails only in some ways does so at its first row and behind it. -/
theorem RowStream.failsWith_ofItems_cons {row : Row} {rest : List (Except Error Row)}
    (h : FailsWith F (ofItems width (.ok row :: rest)).result) :
    FailsWith F (expectWidth row.values width) ∧
      (row.length = width → FailsWith F (ofItems width rest).result) := by
  constructor
  · intro e he
    refine h e ?_
    simp only [ofItems, he]
    rfl
  · intro hrow e he
    refine h e ?_
    simp only [ofItems, expectWidth_eq_ok_iff.2 hrow]
    rw [RowStream.result, he]
    rfl

/-- A row is refused by the check of its width, or pushed within the contract of the chain. -/
theorem pushRow_within (h : Honours (Session α) (·.length = width) F O I) (options : Options α)
    {row : Row} (hrow : FailsWith F (expectWidth row.values width)) (pulled : Nat) {head : σ}
    (hhead : I head) (session : Session α) :
    FailsWith (Error.Within F) (pushRow options width row pulled head session).1 ∧
      (∀ flow, (pushRow options width row pulled head session).1 = .ok flow →
        row.length = width) ∧
      I (pushRow options width row pulled head session).2.2.1 := by
  simp only [pushRow]
  split
  · rename_i e he
    exact ⟨.error fun _ => hrow e he, nofun, hhead⟩
  -- a row of the right width is handed to the head, after it has been counted
  · rename_i hwidth
    have hlength : row.length = width := expectWidth_eq_ok_iff.1 hwidth
    obtain ⟨hanswer, hafter⟩ := h.consume row head
      (session.count fun c => { c with rowsPulled := c.rowsPulled + 1 }) hlength hhead
    generalize Consumer.consume row head (session.count _) = consumed at hanswer hafter ⊢
    obtain ⟨_ | _ | _, head', session'⟩ := consumed
    · exact ⟨hanswer, fun _ _ => hlength, hafter⟩
    · exact ⟨hanswer, fun _ _ => hlength, hafter⟩
    · exact ⟨hanswer, fun _ _ => hlength, hafter⟩

/-- Pushing the items of a source meets no mismatch but those that these come with. -/
theorem pushAll_within (h : Honours (Session α) (·.length = width) F O I) (options : Options α)
    {items : List (Except Error Row)} (hitems : FailsWith F (RowStream.ofItems width items).result)
    (pulled : Nat) {head : σ} (hhead : I head) (session : Session α) :
    FailsWith (Error.Within F) (pushAll options width items pulled head session).1 ∧
      I (pushAll options width items pulled head session).2.1 := by
  -- rows are pushed as long as the head asks for more
  induction items generalizing pulled head session with
  | nil => exact ⟨.ok _, hhead⟩
  | cons item rest ih =>
    cases item with
    | error e => exact ⟨.error fun _ => hitems e rfl, hhead⟩
    | ok row =>
      obtain ⟨hrow, hrest⟩ := RowStream.failsWith_ofItems_cons hitems
      obtain ⟨hanswer, hwidth, hafter⟩ := pushRow_within h options hrow pulled hhead session
      simp only [pushAll]
      generalize pushRow options width row pulled head session = pushed at hanswer hwidth hafter ⊢
      obtain ⟨answer, now, head', session'⟩ := pushed
      rcases answer with e | _ | _
      · exact ⟨.error (hanswer e rfl), hafter⟩
      · exact ih (hrest (hwidth _ rfl)) now hafter session'
      · exact ⟨.ok _, hafter⟩

/-- A run meets no mismatch but those that the items of its source come with, and its result is one
    of the contract of the chain. -/
theorem pushAndClose_within (h : Honours (Session α) (·.length = width) F O I)
    (options : Options α) {items : List (Except Error Row)}
    (hitems : FailsWith F (RowStream.ofItems width items).result) {head : σ} (hhead : I head)
    (session : Session α) :
    FailsWith (Error.Within F) (pushAndClose options width items head session).1 ∧
      ∀ output, (pushAndClose options width items head session).1 = .ok output → O output := by
  obtain ⟨hpushed, hafter⟩ := pushAll_within h options hitems 0 hhead session
  simp only [pushAndClose]
  generalize pushAll options width items 0 head session = pushed at hpushed hafter ⊢
  obtain ⟨result, head', session'⟩ := pushed
  cases result with
  -- an error leaves the chain unclosed, so there is no result
  | error e => exact ⟨.error (hpushed e rfl), nofun⟩
  | ok _ =>
    obtain ⟨hfails, houtput, -⟩ := h.close head' session' hafter
    exact ⟨hfails, houtput⟩

end

/-! ## Readers -/

namespace Chain

variable {τ : Type} {I I' : τ → Prop} {n : Nat} {input : Schema} {outputs : List Schema}
  {c : Chain Stage τ n}

/-- The terminal consumer of a sound chain is in one of the states asked for. -/
theorem Sound.terminal (h : Sound I n input outputs c) : I (Chain.terminal n c) := by
  induction n generalizing input outputs with
  | zero =>
    cases outputs with
    | nil => exact h
    | cons output outputs => exact h.elim
  | succ n ih =>
    cases outputs with
    | nil => exact h.elim
    | cons output outputs => exact ih h.2

/-- The terminal consumer may be exchanged. -/
theorem Sound.mapTerminal (h : Sound I n input outputs c) {f : τ → τ}
    (hf : I' (f (Chain.terminal n c))) : Sound I' n input outputs (Chain.mapTerminal f n c) := by
  -- the links in front stay as they are
  induction n generalizing input outputs with
  | zero =>
    cases outputs with
    | nil => exact hf
    | cons output outputs => exact h.elim
  | succ n ih =>
    cases outputs with
    | nil => exact h.elim
    | cons output outputs => exact ⟨h.1, ih h.2 hf⟩

end Chain

namespace RowIterator

variable {α : Type} {n : Nat}

/-- An answer of a reader that is no mismatch but one of `F`, and whose row has a width. -/
def Within (F : Error → Prop) (width : Nat) (answer : Option (Except Error Row)) : Prop :=
  ∀ item ∈ answer, FailsWith (Error.Within F) item ∧ ∀ row, item = .ok row → row.length = width

/-- The chain of a reader, whose outbox holds rows of a width. -/
def SoundChain (input : Schema) (outputs : List Schema) (chain : FetchedChain Stage n) : Prop :=
  Chain.Sound (fun outbox => ∀ row ∈ outbox.inner.inner.rows,
    row.length = (outputs.getLastD input).width) n input outputs chain

/-- A reader whose chain leads from a schema through schemas. -/
structure Sound (F : Error → Prop) (input : Schema) (outputs : List Schema)
    (it : RowIterator Stage α n) : Prop where
  width : it.width = input.width
  items : FailsWith F (RowStream.ofItems it.width it.items).result
  chain : ∀ chain ∈ it.chain, SoundChain input outputs chain
  waiting : ∀ row ∈ it.waiting, row.length = (outputs.getLastD input).width

variable {F : Error → Prop} {input : Schema} {outputs : List Schema}

/-- Rows that have come out have the width of the last schema. -/
theorem SoundChain.emitted {chain : FetchedChain Stage n} (h : SoundChain input outputs chain) :
    ∀ row ∈ emitted chain, row.length = (outputs.getLastD input).width :=
  Chain.Sound.terminal h

/-- Fetching them leaves the chain sound. -/
theorem SoundChain.fetched {chain : FetchedChain Stage n} (h : SoundChain input outputs chain) :
    SoundChain input outputs (fetched chain) :=
  Chain.Sound.mapTerminal h nofun

/-- A reader's chain keeps its contract, with an outbox at its end that gives no result. -/
theorem honours_soundChain :
    Honours (Session α) (·.length = input.width) F (fun output => output = none)
      (SoundChain input outputs : FetchedChain Stage n → Prop) :=
  Chain.honours n Outbox.honours.metered.guarded

/-- An answer within the contract, and a reader that goes on to keep it. -/
abbrev Keeps (F : Error → Prop) (input : Schema) (outputs : List Schema)
    (r : Option (Except Error Row) × RowIterator Stage α n × Session α) : Prop :=
  Within F (outputs.getLastD input).width r.1 ∧ r.2.1.Sound F input outputs

variable {it : RowIterator Stage α n}

/-- A row that is waiting is given as it is. -/
theorem Sound.giveWaiting (h : it.Sound F input outputs) (session : Session α) :
    Keeps F input outputs (it.giveWaiting session) := by
  obtain ⟨options, width, items, chain, pulled, waiting⟩ := it
  cases waiting with
  | nil => exact ⟨nofun, h⟩
  | cons row rest =>
    obtain ⟨hrow, hrest⟩ := List.forall_mem_cons.1 h.waiting
    refine ⟨fun item hitem => ?_, h.width, h.items, h.chain, hrest⟩
    obtain rfl := Option.some.inj hitem
    exact ⟨.ok _, fun r hr => Except.ok.inj hr ▸ hrow⟩

/-- A run that ends has nothing left of its source and its chain. -/
theorem Sound.ended {options : Options α} {width pulled : Nat} {waiting : List Row}
    (hwidth : width = input.width)
    (hwaiting : ∀ row ∈ waiting, row.length = (outputs.getLastD input).width) :
    (RowIterator.mk options width [] (none : Option (FetchedChain Stage n)) pulled waiting).Sound F
      input outputs :=
  ⟨hwidth, .ok _, nofun, hwaiting⟩

/-- An error of the contract is an answer of the contract. -/
theorem within_error {e : Error} (h : e.Within F) (width : Nat) :
    Within F width (some (.error e)) := by
  intro item hitem
  obtain rfl := Option.some.inj hitem
  exact ⟨.error h, nofun⟩

/-- Closing the chain of a reader gives the rows that come out then. -/
theorem Sound.finish (h : it.Sound F input outputs) {chain : FetchedChain Stage n}
    (hchain : SoundChain input outputs chain) (session : Session α) :
    Keeps F input outputs (it.finish chain session) := by
  obtain ⟨hfails, -, hclosed⟩ :=
    (honours_soundChain (F := F) (α := α)).close chain session hchain
  simp only [RowIterator.finish]
  generalize Consumer.close chain session = closed at hfails hclosed ⊢
  obtain ⟨result, chain', session'⟩ := closed
  -- what the chain has let out before it failed or was closed is waiting
  have hended : Sound F input outputs
      ({ it with items := [], chain := none, waiting := RowIterator.emitted chain' } :
        RowIterator Stage α n) :=
    .ended h.width hclosed.emitted
  cases result with
  -- the error is answered first
  | error e => exact ⟨within_error (hfails e rfl) _, hended⟩
  | ok _ => exact hended.giveWaiting _

/-- A reader whose source is used up gives what is waiting, and closes its chain after that. -/
theorem Sound.next_of_ended (h : it.Sound F input outputs) (hitems : it.items = [])
    (session : Session α) : Keeps F input outputs (it.next session) := by
  obtain ⟨options, width, items, chain, pulled, waiting⟩ := it
  obtain rfl : items = [] := hitems
  cases waiting with
  | cons row rest => exact h.giveWaiting session
  | nil =>
    cases chain with
    | none => exact h.giveWaiting session
    | some chain => exact h.finish (h.chain chain rfl) session

/-- Being asked once keeps a reader sound. -/
theorem Sound.next (h : it.Sound F input outputs) (session : Session α) :
    Keeps F input outputs (it.next session) := by
  obtain ⟨options, width, items, chain, pulled, waiting⟩ := it
  -- rows are pulled until one comes out, so the induction follows the items of the source
  induction items generalizing chain pulled waiting session with
  | nil => exact h.next_of_ended rfl session
  | cons item rest ih =>
    cases waiting with
    | cons row waiting => exact h.giveWaiting session
    | nil =>
      cases chain with
      | none => exact h.giveWaiting session
      | some chain =>
        obtain rfl : width = input.width := h.width
        cases item with
        | error e => exact ⟨within_error (fun _ => h.items e rfl) _, .ended rfl nofun⟩
        | ok row =>
          obtain ⟨hrow, hrest⟩ := RowStream.failsWith_ofItems_cons h.items
          -- the head is handed one row and answers; what comes out of it waits
          obtain ⟨hanswer, hwidth, hafter⟩ := pushRow_within honours_soundChain options hrow
            pulled (h.chain chain rfl) session
          rcases hpush : pushRow options input.width row pulled chain session with
            ⟨answer, now, chain', session'⟩
          rw [hpush] at hanswer hwidth hafter
          have hchain : ∀ c ∈ some (RowIterator.fetched chain'), SoundChain input outputs c :=
            fun c hc => Option.some.inj hc ▸ SoundChain.fetched hafter
          have hwaiting := SoundChain.emitted hafter
          rcases answer with e | _ | _
          · rw [next_of_error rest hpush]
            exact ⟨within_error (hanswer e rfl) _, .ended rfl hwaiting⟩
          · rw [next_of_more rest hpush]
            exact ih session' _ _ _ ⟨rfl, hrest (hwidth _ rfl), hchain, hwaiting⟩
          · -- the rest of the source is given up
            rw [next_of_stop rest hpush]
            exact Sound.next_of_ended ⟨rfl, .ok _, hchain, hwaiting⟩ rfl session'

/-- However often a reader is asked, it meets no mismatch but those that the items of its source
    come with, and its rows have the width of the last schema. -/
theorem Sound.ask (h : it.Sound F input outputs) (k : Nat) (session : Session α) :
    ∀ answer ∈ (it.ask k session).1, Within F (outputs.getLastD input).width answer := by
  induction k generalizing it session with
  | zero => exact nofun
  | succ k ih =>
    obtain ⟨hanswer, hnext⟩ := h.next session
    -- each question leaves a reader that is as sound as before
    exact List.forall_mem_cons.2 ⟨hanswer, ih hnext _⟩

end RowIterator

end RowFlow
