import RowFlow.Proofs.Pipeline.Ties

/-!
# Scenes

Runs and readers of several pipelines in one session, in any order: a reader may be asked for a row
while another run comes in between. What can be done is an act, and acts are played one after
another in a scene, the session together with the readers that have been started in it.
-/

namespace RowFlow

variable {ι π κ α : Type}

/-! ## Acts -/

/-- What can be done in a session. -/
inductive Act (ι α : Type) where
  | run (pipeline : Pipeline ι α)
  | iterate (pipeline : Pipeline ι α)
  /-- asks one of the readers, in the order in which they were started, for its next row -/
  | ask (reader : Nat)
  /-- changes the files from outside -/
  | edit (files : Files)
  /-- turns to another one-shot source, which has been read or not -/
  | turn (spent : Bool)

/-- An act that leaves the one-shot source the same. -/
def Act.SameSource : Act ι α → Prop
  | .turn _ => False
  | _ => True

/-- What an act answers. -/
inductive Answer where
  | ran (result : Except Error (Option Output))
  | started (result : Except Error Unit)
  | asked (answer : Option (Except Error Row))
  | nothing

/-- The error that an act answers. -/
def Answer.error? : Answer → Option Error
  | .ran (.error e) | .started (.error e) | .asked (some (.error e)) => some e
  | _ => none

/-- A session and the readers that have been started in it. -/
structure Scene (π α : Type) where
  session : Session α
  readers : List (Sigma (RowIterator π α))

section
variable [StepKind ι π κ] [Producer π] [Consumer Files κ]

/-- Performs an act in a scene. -/
def Act.perform (act : Act ι α) (scene : Scene π α) : Answer × Scene π α :=
  match act with
  | .run pipeline =>
    let (result, session) := pipeline.run scene.session
    (.ran result, { scene with session })
  | .iterate pipeline =>
    match pipeline.iterate scene.session with
    | (.error e, session) => (.started (.error e), { scene with session })
    | (.ok it, session) => (.started (.ok ()), ⟨session, scene.readers ++ [it]⟩)
  | .ask reader =>
    match scene.readers[reader]? with
    | none => (.nothing, scene)
    | some ⟨n, it⟩ =>
      let (answer, it, session) := it.next scene.session
      (.asked answer, ⟨session, scene.readers.set reader ⟨n, it⟩⟩)
  | .edit files => (.nothing, { scene with session := { scene.session with files } })
  | .turn spent => (.nothing, { scene with session := { scene.session with spent } })

namespace Act

variable {pipeline : Pipeline ι α} {scene : Scene π α} {session : Session α} {reader : Nat}

theorem perform_run {result : Except Error (Option Output)}
    (h : pipeline.run scene.session = (result, session)) :
    (Act.run pipeline).perform scene = (.ran result, { scene with session }) := by
  rw [perform, h]

theorem perform_iterate_error {e : Error}
    (h : pipeline.iterate scene.session = (.error e, session)) :
    (Act.iterate pipeline).perform scene = (.started (.error e), { scene with session }) := by
  rw [perform, h]

theorem perform_iterate_ok {it : Sigma (RowIterator π α)}
    (h : pipeline.iterate scene.session = (.ok it, session)) :
    (Act.iterate pipeline).perform scene =
      (.started (.ok ()), ⟨session, scene.readers ++ [it]⟩) := by
  rw [perform, h]

theorem perform_ask_none (h : scene.readers[reader]? = none) :
    (Act.ask reader : Act ι α).perform scene = (.nothing, scene) := by
  rw [perform, h]

theorem perform_ask {n : Nat} {it : RowIterator π α n} {answer : Option (Except Error Row)}
    {next : RowIterator π α n} (hreader : scene.readers[reader]? = some ⟨n, it⟩)
    (h : it.next scene.session = (answer, next, session)) :
    (Act.ask reader : Act ι α).perform scene =
      (.asked answer, ⟨session, scene.readers.set reader ⟨n, next⟩⟩) := by
  rw [perform, hreader]
  simp only [h]

end Act

/-- Plays acts one after another. -/
def Scene.play : List (Act ι α) → Scene π α → List Answer × Scene π α
  | [], scene => ([], scene)
  | act :: acts, scene =>
    let (answer, scene) := act.perform scene
    let (answers, scene) := scene.play acts
    (answer :: answers, scene)

/-! ## Tied scenes -/

/-- Scenes with the same readers in tied sessions. -/
def Scene.Tied (S : Session α → Session α → Prop) (scene scene' : Scene π α) : Prop :=
  S scene.session scene'.session ∧ scene.readers = scene'.readers

variable {S : Session α → Session α → Prop}
  (h : ∀ options : Options α, Session.Tie options options S)
include h

theorem Act.perform_tied (act : Act ι α) {scene scene' : Scene π α} (hS : scene.Tied S scene') :
    (act.perform scene).1 = (act.perform scene').1 ∧
      (act.perform scene).2.Tied S (act.perform scene').2 := by
  obtain ⟨hS, hreaders⟩ := hS
  -- what an act does to the session, and what it answers, comes from tied sessions
  cases act with
  | run pipeline =>
    obtain ⟨result, w₁, w₁', hrun, hrun', hafter⟩ := Pipeline.run_tied (h pipeline.options) hS
    have hrun' : pipeline.run scene'.session = (result, w₁') := hrun'
    rw [perform_run hrun, perform_run hrun']
    exact ⟨rfl, hafter, hreaders⟩
  | iterate pipeline =>
    obtain ⟨result, w₁, w₁', hiterate, hiterate', hown, hafter⟩ :=
      Pipeline.iterate_tied (h pipeline.options) hS
    have hiterate' : pipeline.iterate scene'.session =
        (result.map fun it => ⟨it.1, it.2.under pipeline.options⟩, w₁') := hiterate'
    cases result with
    | error e =>
      rw [perform_iterate_error hiterate, perform_iterate_error hiterate']
      exact ⟨rfl, hafter, hreaders⟩
    | ok it =>
      rw [perform_iterate_ok hiterate, perform_iterate_ok hiterate']
      obtain ⟨n, own, width, items, chain, pulled, waiting⟩ := it
      obtain rfl : own = pipeline.options := hown _ rfl
      exact ⟨rfl, hafter, congrArg (· ++ [_]) hreaders⟩
  | ask reader =>
    rcases hreader : scene.readers[reader]? with _ | ⟨n, it⟩
    · rw [perform_ask_none hreader, perform_ask_none (hreaders ▸ hreader)]
      exact ⟨rfl, hS, hreaders⟩
    · -- the reader is the same in both scenes, so it keeps its own observer
      obtain ⟨hanswer, hnext, hown, hafter⟩ := RowIterator.next_tied (h it.options) rfl hS
      have hsame : it.under it.options = it := rfl
      rw [hsame] at hanswer hnext hafter
      rcases hasked : it.next scene.session with ⟨answer, next, w₁⟩
      rcases hasked' : it.next scene'.session with ⟨answer', next', w₁'⟩
      rw [hasked, hasked'] at hanswer hnext hafter
      rw [hasked] at hown
      have hunder : next.under it.options = next' := hnext
      rw [← show next.options = it.options from hown] at hunder
      obtain rfl : answer = answer' := hanswer
      obtain rfl : next = next' := hunder
      rw [perform_ask hreader hasked, perform_ask (hreaders ▸ hreader) hasked']
      exact ⟨rfl, hafter, congrArg (List.set · reader _) hreaders⟩
  | edit files =>
    refine ⟨rfl, ?_, hreaders⟩
    have hused := (h .unobserved).use files scene.session.spent hS
    change S { scene.session with files, spent := scene.session.spent }
      { scene'.session with files, spent := scene'.session.spent }
    rwa [← (h .unobserved).spent hS]
  | turn spent =>
    refine ⟨rfl, ?_, hreaders⟩
    have hused := (h .unobserved).use scene.session.files spent hS
    change S { scene.session with files := scene.session.files, spent }
      { scene'.session with files := scene'.session.files, spent }
    rwa [← (h .unobserved).files hS]

/-- Acts answer the same in tied scenes. -/
theorem Scene.play_tied (acts : List (Act ι α)) {scene scene' : Scene π α}
    (hS : scene.Tied S scene') : (scene.play acts).1 = (scene'.play acts).1 := by
  induction acts generalizing scene scene' with
  | nil => rfl
  | cons act acts ih =>
    obtain ⟨hanswer, hafter⟩ := act.perform_tied h hS
    exact congrArg₂ List.cons hanswer (ih hafter)

end

end RowFlow
