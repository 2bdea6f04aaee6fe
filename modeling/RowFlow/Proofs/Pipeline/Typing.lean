import RowFlow.Proofs.Csv.Typing
import RowFlow.Proofs.Pipeline.Effects
import RowFlow.Proofs.Stream.Congruence

/-!
# Files Typed Late and Early

Columns of a CSV file are text until a typecast converts them, unless the file is read with a schema
that has their types. Record by record both ways give the same row or both fail, so whatever
transforms follow, they give the same rows or both fail (`Pipeline.typed_late_as_early`).
-/

namespace RowFlow

variable {α : Type}

namespace Source

variable {path : String} {dialect : Csv.Dialect} {files : Files} {untyped : Schema}

/-- The records of a file without a schema and of the same file with types for its columns: a
    typecast of each row gives what is read under the types, or both fail. -/
theorem items_agree (entropy : Entropy) {types : List ColumnType}
    {casts : List (Column × ColumnType)}
    (hschema : (Source.csv path none dialect).schema files = .ok untyped)
    (hcasts : untyped.Assigns types casts) :
    ∃ rule rows typedRows,
      Transform.openOn entropy untyped (.typecast casts) =
        .ok (.each rule, untyped.retyped types) ∧
      (Source.csv path none dialect).items files = .ok rows ∧
      (Source.csv path (some (untyped.retyped types)) dialect).items files = .ok typedRows ∧
      List.Forall₂ (fun row typedRow => Agree (row >>= rule.apply) (some <$> typedRow))
        rows typedRows := by
  obtain ⟨content, hcontent, hread⟩ := bind_eq_ok_iff.1 hschema
  obtain ⟨columns, -, hfields⟩ := bind_eq_ok_iff.1 hread
  have hnames : Schema.ofFields untyped.fields = .ok untyped := by
    rw [Csv.fields_of_ofNames hfields]
    exact hfields
  obtain ⟨resolved, hopen, honce, htypes⟩ := hcasts.exists_openOn entropy hnames
  obtain ⟨rows, typedRows, hrows, htyped, hagree⟩ :=
    Csv.rows_agree hread untyped.names hcasts.width honce htypes
  refine ⟨_, rows, typedRows, hopen, ?_, ?_, hagree⟩
  · rw [items, hschema, hcontent]
    exact hrows
  · rw [items, hcontent]
    exact htyped

/-- A file gives rows of the width of its schema. -/
theorem length_of_mem_items {schema : Option Schema} {opened : Schema}
    (hschema : (Source.csv path schema dialect).schema files = .ok opened)
    {items : List (Except Error Row)}
    (h : (Source.csv path schema dialect).items files = .ok items) :
    ∀ row, .ok row ∈ items → row.length = opened.width := by
  obtain ⟨_, hopened, h⟩ := bind_eq_ok_iff.1 h
  obtain rfl := Except.ok.inj (hschema.symm.trans hopened)
  obtain ⟨content, -, hrows⟩ := bind_eq_ok_iff.1 h
  exact Csv.length_of_mem_rows hrows

end Source

namespace Pipeline

/-- **Typing late is typing early.** The columns of a CSV file are assigned types. It is read
    without a schema and all columns are cast to these types, or it is read with the schema that
    gives the columns these types. The typecast leads to this schema. On each record, both ways give
    the same row or both fail. Whatever transforms follow, such as a limit to a number of rows, both
    ways give the same rows or both fail; samples without a seed among them draw alike both ways,
    from the tape of the session. -/
theorem typed_late_as_early {path : String} {dialect : Csv.Dialect} {session : Session α}
    {untyped : Schema} {types : List ColumnType} {casts : List (Column × ColumnType)}
    (hschema : (Source.csv path none dialect).schema session.files = .ok untyped)
    (hcasts : untyped.Assigns types casts) (options : Options α) :
    let late := Source.csv path none dialect
    let early := Source.csv path (some (untyped.retyped types)) dialect
    ∃ rule rows typedRows,
      (∀ entropy, Transform.openOn entropy untyped (.typecast casts) =
        .ok (.each rule, untyped.retyped types)) ∧
      late.items session.files = .ok rows ∧ early.items session.files = .ok typedRows ∧
      List.Forall₂ (fun row typedRow => Agree (row >>= rule.apply) (some <$> typedRow))
        rows typedRows ∧
      ∀ ts, Agree
        ((ofTransforms late (.typecast casts :: ts) options).collectRows session).1
        ((ofTransforms early ts options).collectRows session).1 := by
  intro late early
  obtain ⟨rule, rows, typedRows, hopen, hrows, htyped, hagree⟩ :=
    Source.items_agree session.fresh hschema hcasts
  refine ⟨rule, rows, typedRows, Transform.openOn_each_congr hopen, hrows, htyped, hagree,
    fun ts => ?_⟩
  have hearly : early.schema session.files = .ok (untyped.retyped types) := rfl
  have halike : RowStream.Alike
      ((RowStream.ofItems untyped.width rows).mapRows rule.apply)
      (RowStream.ofItems (untyped.retyped types).width typedRows) :=
    RowStream.alike_ofItems hagree (Source.length_of_mem_items hschema hrows)
      (Source.length_of_mem_items hearly htyped)
  have hlateItems : (late.openOn session.files session.spent).1 = .ok rows := hrows
  have hearlyItems : (early.openOn session.files session.spent).1 = .ok typedRows := htyped
  rw [collectRows_eq_effect, collectRows_eq_effect, hschema, hearly, ok_bind, ok_bind,
    Transform.effect_of_rule hopen, bind_assoc]
  -- behind the typecast both ways open the same stages, and these keep the streams alike
  cases heffect : Transform.effect session.fresh (untyped.retyped types) ts with
  | error e => exact .refl _
  | ok behind =>
    obtain ⟨assembly, -, hbehind⟩ := bind_eq_ok_iff.1 heffect
    obtain rfl := Except.ok.inj hbehind
    simp only [ok_bind, pure_bind, hlateItems, hearlyItems]
    exact (halike.through assembly.producers).result

/-- A file of which the second record has no number. -/
def tickets : Files :=
  ⟨[("tickets.csv", Utf8.encode " id ;paid\n 07 ; yes\nlost;NA\n")]⟩

/-- The tickets with semicolons, a header and a word for nulls. -/
def ticketsUntyped : Source := .csv "tickets.csv" none ⟨';'.toUInt8, true, "NA"⟩

/-- The columns are cast in another order, one by its name and one by its position. -/
def ticketCasts : List (Column × ColumnType) := [(.name "paid", .bool), (.index 0, .int64)]

/-- The first ticket is had both ways, and all tickets are had neither way. -/
theorem tickets_typed :
    let untyped : Schema := ⟨[⟨"id", .utf8⟩, ⟨"paid", .utf8⟩]⟩
    let session := Session.start tickets ()
    ticketsUntyped.schema tickets = .ok untyped ∧ untyped.Assigns [.int64, .bool] ticketCasts ∧
      ((ofTransforms ticketsUntyped [.typecast ticketCasts, .limit 1] .unobserved).collectRows
        session).1 = .ok [⟨0, [.int64 7, .bool true]⟩] ∧
      ∀ rows, ((ofTransforms ticketsUntyped [.typecast ticketCasts] .unobserved).collectRows
        session).1 ≠ .ok rows := by
  intro untyped session
  have hschema : ticketsUntyped.schema session.files = .ok untyped := rfl
  have hcasts : untyped.Assigns [.int64, .bool] ticketCasts := by
    refine ⟨rfl, ?_, by decide⟩
    exact List.forall_mem_cons.2 ⟨⟨1, rfl, rfl⟩, List.forall_mem_cons.2 ⟨⟨0, rfl, rfl⟩, nofun⟩⟩
  obtain ⟨_, _, _, -, -, -, -, hagree⟩ := typed_late_as_early hschema hcasts .unobserved
  refine ⟨hschema, hcasts, (hagree [.limit 1] _).2 rfl, fun rows h => ?_⟩
  exact nomatch (hagree [] rows).1 h

end Pipeline

end RowFlow
