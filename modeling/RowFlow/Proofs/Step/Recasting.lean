import RowFlow.Proofs.Step.Admission
import RowFlow.Proofs.Step.Failures
import RowFlow.Proofs.Step.Names

/-!
# Casts Made Again

A typecast whose casts are of different columns finds its own work done when it comes once more: it
opens to the same stage and schema (`Transform.openOn_typecast_again`), and this stage puts rows
that it has made in place of themselves (`RowRule.apply_cast_again`). Casts of one column to text
and back give rows back (`RowRule.apply_cast_back`).
-/

namespace RowFlow

/-! ## Retyped fields -/

namespace Schema

/-- No two casts are of the same column. -/
def CastsOnce (schema : Schema) (casts : List (Column × ColumnType)) : Prop :=
  (casts.filterMap fun cast => schema.position? cast.1).Nodup

instance (schema : Schema) (casts : List (Column × ColumnType)) :
    Decidable (schema.CastsOnce casts) :=
  inferInstanceAs (Decidable (List.Nodup _))

variable {schema schema' : Schema} {fields out : List Field} {casts : List (Column × ColumnType)}
  {resolved : List (Nat × ColumnType)}

theorem width_congr (h : schema'.names = schema.names) : schema'.width = schema.width := by
  simpa [names, width] using congrArg List.length h

/-- References mean the same under the same names. -/
theorem position?_congr (h : schema'.names = schema.names) (column : Column) :
    schema'.position? column = schema.position? column := by
  cases column with
  | index position => rw [position?, position?, width_congr h]
  | name label =>
    -- a name is looked for among names alone
    have hfind (schema : Schema) :
        schema.indexOf? label = schema.names.findIdx? (· == label) := by
      rw [indexOf?, names, List.findIdx?_map]
      rfl
    rw [position?, position?, hfind, hfind, h]

/-- Casts leave names as they are. -/
theorem names_resolveCasts (h : resolveCasts schema fields casts = .ok (out, resolved)) :
    out.map Field.name = fields.map Field.name := by
  induction casts generalizing fields resolved with
  | nil => exact (Prod.mk.inj (Except.ok.inj h)).1 ▸ rfl
  | cons cast rest ih =>
    obtain ⟨position, behind, -, hbehind, -⟩ := resolveCasts_cons_eq_ok_iff.1 h
    -- retyping a field leaves its name
    have hretyped := map_modify (f := Field.name) (k := id) (fun _ => rfl) fields position
      (g := fun field => { field with type := cast.2 })
    rw [ih hbehind, hretyped, List.modify_id]

theorem lt_width_of_resolveCasts (h : resolveCasts schema fields casts = .ok (out, resolved)) :
    ∀ cast ∈ resolved, cast.1 < schema.width := by
  induction casts generalizing fields resolved with
  | nil => exact (Prod.mk.inj (Except.ok.inj h)).2 ▸ nofun
  | cons cast rest ih =>
    obtain ⟨position, behind, hposition, hbehind, rfl⟩ := resolveCasts_cons_eq_ok_iff.1 h
    exact List.forall_mem_cons.2 ⟨lt_width_of_resolve hposition, ih hbehind⟩

/-- Each column has the type of its cast, if there is one. -/
theorem getElem?_resolveCasts_of_nodup (hdistinct : (resolved.map Prod.fst).Nodup)
    (h : resolveCasts schema fields casts = .ok (out, resolved)) :
    (∀ cast ∈ resolved,
      out[cast.1]? = fields[cast.1]?.map fun field => { field with type := cast.2 }) ∧
      ∀ p, p ∉ resolved.map Prod.fst → out[p]? = fields[p]? := by
  induction casts generalizing fields resolved with
  | nil =>
    obtain ⟨rfl, rfl⟩ := Prod.mk.inj (Except.ok.inj h)
    exact ⟨nofun, fun _ _ => rfl⟩
  | cons cast rest ih =>
    obtain ⟨position, behind, -, hbehind, rfl⟩ := resolveCasts_cons_eq_ok_iff.1 h
    obtain ⟨hnew, hdistinct⟩ := List.nodup_cons.1 hdistinct
    obtain ⟨hcasts, hothers⟩ := ih hdistinct hbehind
    refine ⟨List.forall_mem_cons.2 ⟨?_, fun other hother => ?_⟩, fun p hp => ?_⟩
    · rw [hothers position hnew, List.getElem?_modify_eq]
      rfl
    · -- the other casts are of other columns
      have hmem : other.1 ∈ behind.map Prod.fst := List.mem_map_of_mem hother
      have hne : position ≠ other.1 := ne_of_mem_of_not_mem hmem hnew |>.symm
      rw [hcasts other hother, List.getElem?_modify_ne _ _ hne]
    · obtain ⟨hp, hprest⟩ := not_or.1 (mt List.mem_cons.2 hp)
      rw [hothers p hprest, List.getElem?_modify_ne _ _ (Ne.symm hp)]

/-- Fields that have the types of the casts stay. -/
theorem resolveCasts_of_types (hnames : schema'.names = schema.names)
    {last : List Field} (h : resolveCasts schema fields casts = .ok (last, resolved))
    (htypes : ∀ cast ∈ resolved, ∃ field, out[cast.1]? = some field ∧ field.type = cast.2) :
    resolveCasts schema' out casts = .ok (out, resolved) := by
  induction casts generalizing fields resolved with
  | nil =>
    obtain ⟨rfl, rfl⟩ := Prod.mk.inj (Except.ok.inj h)
    rfl
  | cons cast rest ih =>
    obtain ⟨position, behind, hposition, hbehind, rfl⟩ := resolveCasts_cons_eq_ok_iff.1 h
    obtain ⟨⟨field, hfield, htype⟩, hrest⟩ := List.forall_mem_cons.1 htypes
    -- the column has this type already, since no other cast has changed it
    have hout : (out.modify position fun field => { field with type := cast.2 }) = out := by
      apply List.ext_getElem?
      intro p
      rw [List.getElem?_modify]
      split
      · rename_i heq
        rw [← heq, hfield, ← htype]
        rfl
      · simp
    refine resolveCasts_cons_eq_ok_iff.2 ⟨position, behind, ?_, ?_, rfl⟩
    · rwa [resolve_eq_ok_iff, position?_congr hnames, ← resolve_eq_ok_iff]
    · rw [hout]
      exact ih hbehind hrest

end Schema

/-! ## Typecasts that open again -/

namespace Transform

variable {entropy : Entropy} {schema output : Schema} {casts : List (Column × ColumnType)}
  {stage : Stage}

/-- A typecast of different columns opens behind itself to the same stage and schema. -/
theorem openOn_typecast_again (hdistinct : schema.CastsOnce casts)
    (h : (typecast casts).openOn entropy schema = .ok (stage, output)) (entropy' : Entropy) :
    (typecast casts).openOn entropy' output = .ok (stage, output) := by
  cases opens_of_openOn h with
  | @typecast _ fields resolved _ hcasts houtput =>
    rw [Schema.CastsOnce, filterMap_position?_of_resolveCasts hcasts] at hdistinct
    have hfields := Schema.fields_of_ofFields houtput
    have hnames : output.names = schema.names := by
      rw [Schema.names, hfields]
      exact Schema.names_resolveCasts hcasts
    -- behind the casts, each column has the type that it is cast to
    have htypes : ∀ cast ∈ resolved,
        ∃ field, fields[cast.1]? = some field ∧ field.type = cast.2 := by
      intro cast hcast
      have hfield := List.getElem?_eq_getElem (Schema.lt_width_of_resolveCasts hcasts cast hcast)
      have hretyped := (Schema.getElem?_resolveCasts_of_nodup hdistinct hcasts).1 cast hcast
      rw [hfield] at hretyped
      exact ⟨_, hretyped, rfl⟩
    have hagain := Schema.resolveCasts_of_types hnames hcasts htypes
    rw [openOn, hfields, hagain, ok_bind]
    simp only [houtput, hnames, Schema.width_congr hnames, ok_bind]
    rfl

/-- The rule of a typecast of different columns. -/
theorem exists_rule_of_typecast (hdistinct : schema.CastsOnce casts)
    (h : (typecast casts).openOn entropy schema = .ok (stage, output)) :
    ∃ resolved, stage = .each (.cast schema.width schema.names resolved) ∧
      (resolved.map Prod.fst).Nodup ∧ ∀ cast ∈ resolved, cast.1 < schema.width := by
  cases opens_of_openOn h with
  | typecast hcasts houtput =>
    rw [Schema.CastsOnce, filterMap_position?_of_resolveCasts hcasts] at hdistinct
    exact ⟨_, rfl, hdistinct, Schema.lt_width_of_resolveCasts hcasts⟩

/-- A typecast of one column opens if the column is there, and leaves names as they are. -/
theorem exists_openOn_typecast (entropy : Entropy) (hnames : schema.names.Nodup)
    {column : Column} {position : Nat} (hposition : schema.resolve column = .ok position)
    (type : ColumnType) :
    ∃ output, (typecast [(column, type)]).openOn entropy schema =
        .ok (.each (.cast schema.width schema.names [(position, type)]), output) ∧
      output.names = schema.names := by
  have hcasts : resolveCasts schema schema.fields [(column, type)] =
      .ok (schema.fields.modify position fun field => { field with type }, [(position, type)]) :=
    resolveCasts_cons_eq_ok_iff.2 ⟨position, [], hposition, rfl, rfl⟩
  have hsame := Schema.names_resolveCasts hcasts
  have houtput := Schema.ofFields_of_nodup (by rwa [hsame])
  refine ⟨_, bind_eq_ok_iff.2 ⟨_, hcasts, bind_eq_ok_iff.2 ⟨_, houtput, rfl⟩⟩, hsame⟩

end Transform

/-! ## Rows -/

namespace RowRule

variable {width : Nat} {names : List String} {row image : Row}

theorem apply_cast_eq_ok_iff {casts : List (Nat × ColumnType)} :
    (cast width names casts).apply row = .ok (some image) ↔
      row.length = width ∧ ∃ values, castEach row.id names row.values casts = .ok values ∧
        image = row.withValues values := by
  constructor
  · intro h
    obtain ⟨_, hwidth, h⟩ := bind_eq_ok_iff.1 h
    obtain ⟨values, hvalues, himage⟩ := bind_eq_ok_iff.1 h
    exact ⟨expectWidth_eq_ok_iff.1 hwidth, values, hvalues,
      (Option.some.inj (Except.ok.inj himage)).symm⟩
  · rintro ⟨hwidth, values, hvalues, rfl⟩
    exact bind_eq_ok_iff.2 ⟨_, expectWidth_eq_ok_iff.2 hwidth,
      bind_eq_ok_iff.2 ⟨values, hvalues, rfl⟩⟩

/-- Casts of different columns leave a row that they have made as it is. -/
theorem apply_cast_again {casts : List (Nat × ColumnType)}
    (hdistinct : (casts.map Prod.fst).Nodup) (hrange : ∀ cast ∈ casts, cast.1 < width)
    (h : (cast width names casts).apply row = .ok (some image)) :
    (cast width names casts).apply image = .ok (some image) := by
  obtain ⟨rfl, values, hvalues, rfl⟩ := apply_cast_eq_ok_iff.1 h
  obtain ⟨hlength, hconverted, -⟩ := (castEach_eq_ok_iff hdistinct hrange).1 hvalues
  have hrange : ∀ cast ∈ casts, cast.1 < values.length := fun cast hcast =>
    hlength ▸ hrange cast hcast
  -- what a conversion gives, the same conversion leaves as it is
  have hagain : castEach row.id names values casts = .ok values :=
    (castEach_eq_ok_iff hdistinct hrange).2
      ⟨rfl, fun cast hcast => Csv.convert_of_converted (hconverted cast hcast), fun _ _ => rfl⟩
  exact apply_cast_eq_ok_iff.2 ⟨hlength, values, hagain, rfl⟩

/-- A value that is cast to text and back is the value that it was. -/
theorem apply_cast_back {position : Nat} {type : ColumnType} (hposition : position < width)
    (hfloat : type ≠ .float64) (hrow : row.length = width)
    (hvalue : ∀ v, row.values[position]? = some v → v.Fits type ∧ v.Tidy) :
    ∃ image, (cast width names [(position, .utf8)]).apply row = .ok (some image) ∧
      (cast width names [(position, type)]).apply image = .ok (some row) := by
  obtain rfl : row.values.length = width := hrow
  obtain ⟨hfits, htidy⟩ := hvalue _ (List.getElem?_eq_getElem hposition)
  obtain ⟨text, htext, hback⟩ := Csv.exists_convert_back hfits hfloat htidy
  have hset : position < (row.values.set position text).length := by rwa [List.length_set]
  refine ⟨row.withValues (row.values.set position text), apply_cast_eq_ok_iff.2 ⟨rfl, _, ?_, rfl⟩,
    apply_cast_eq_ok_iff.2 ⟨List.length_set .., row.values, ?_, rfl⟩⟩
  · rw [castEach_cons_eq_ok_iff, List.getD_eq_getElem _ _ hposition]
    exact ⟨text, htext, rfl⟩
  · rw [castEach_cons_eq_ok_iff, Row.withValues, List.getD_eq_getElem _ _ hset,
      List.getElem_set_self]
    refine ⟨_, hback, ?_⟩
    rw [List.set_set, List.set_getElem_self]
    rfl

end RowRule

end RowFlow
