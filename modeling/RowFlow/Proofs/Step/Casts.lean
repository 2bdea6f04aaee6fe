import Mathlib.Data.List.GetD
import Mathlib.Data.List.Perm.Basic
import RowFlow.Proofs.Step.Lineage

/-!
# Casts of All Columns

A typecast that names every column once, by whatever reference and in whatever order, opens to the
schema with the new types, and converts each value to the type of its column. It fails on a row if
and only if one of the values cannot be converted (`castEach_eq_ok_iff`).
-/

namespace RowFlow

/-! ## Conversions -/

theorem castEach_cons_eq_ok_iff {id : Nat} {names : List String} {values out : List Value}
    {cast : Nat × ColumnType} {rest : List (Nat × ColumnType)} :
    castEach id names values (cast :: rest) = .ok out ↔
      ∃ v, Csv.convert cast.2 (values.getD cast.1 .null) = .ok v ∧
        castEach id names (values.set cast.1 v) rest = .ok out := by
  rw [castEach]
  cases Csv.convert cast.2 (values.getD cast.1 .null) with
  | error cause => exact ⟨nofun, fun ⟨_, h, _⟩ => nomatch h⟩
  | ok v => exact ⟨fun h => ⟨v, rfl, h⟩, fun ⟨_, hv, h⟩ => Except.ok.inj hv ▸ h⟩

theorem getD_set_ne {values : List Value} {p q : Nat} (h : p ≠ q) (v : Value) :
    (values.set p v).getD q .null = values.getD q .null := by
  rw [List.getD_eq_getElem?_getD, List.getElem?_set_ne h, List.getD_eq_getElem?_getD]

/-- Conversions at different positions do not get in each other's way. -/
theorem castEach_eq_ok_iff {id : Nat} {names : List String} {values out : List Value}
    {casts : List (Nat × ColumnType)} (hdistinct : (casts.map Prod.fst).Nodup)
    (hrange : ∀ cast ∈ casts, cast.1 < values.length) :
    castEach id names values casts = .ok out ↔
      out.length = values.length ∧
        (∀ cast ∈ casts,
          Csv.convert cast.2 (values.getD cast.1 .null) = .ok (out.getD cast.1 .null)) ∧
        ∀ p, p ∉ casts.map Prod.fst → out[p]? = values[p]? := by
  induction casts generalizing values with
  | nil =>
    refine ⟨fun h => ?_, fun ⟨_, _, hothers⟩ => ?_⟩
    · obtain rfl := Except.ok.inj h
      exact ⟨rfl, nofun, fun _ _ => rfl⟩
    · exact congrArg Except.ok (List.ext_getElem? fun p => (hothers p List.not_mem_nil).symm)
  | cons cast rest ih =>
    obtain ⟨hnew, hdistinct⟩ := List.nodup_cons.1 hdistinct
    obtain ⟨hcast, hrest⟩ := List.forall_mem_cons.1 hrange
    -- the other conversions look at other positions
    have hne : ∀ other ∈ rest, cast.1 ≠ other.1 := fun other hother heq =>
      hnew (heq ▸ List.mem_map_of_mem hother)
    have hset (v : Value) : (values.set cast.1 v)[cast.1]? = some v :=
      List.getElem?_set_self hcast
    have ih (v : Value) := @ih (values.set cast.1 v) hdistinct (by simpa using hrest)
    simp only [List.length_set] at ih
    rw [castEach_cons_eq_ok_iff, List.forall_mem_cons, List.map_cons]
    constructor
    · rintro ⟨v, hv, h⟩
      obtain ⟨hlength, hconverted, hothers⟩ := (ih v).1 h
      have hout : out[cast.1]? = some v := (hothers cast.1 hnew).trans (hset v)
      refine ⟨hlength, ⟨?_, fun other hother => ?_⟩, fun p hp => ?_⟩
      · rw [hv, List.getD_eq_getElem?_getD, hout]
        rfl
      · rw [← hconverted other hother, getD_set_ne (hne other hother)]
      · obtain ⟨hp, hprest⟩ := not_or.1 (mt List.mem_cons.2 hp)
        rw [hothers p hprest, List.getElem?_set_ne (Ne.symm hp)]
    · rintro ⟨hlength, ⟨hv, hconverted⟩, hothers⟩
      refine ⟨_, hv, (ih _).2 ⟨hlength, fun other hother => ?_, fun p hp => ?_⟩⟩
      · rw [getD_set_ne (hne other hother), hconverted other hother]
      · by_cases hself : p = cast.1
        · have hout : cast.1 < out.length := hlength ▸ hcast
          rw [hself, hset, List.getD_eq_getElem _ _ hout, List.getElem?_eq_getElem hout]
        · rw [List.getElem?_set_ne (Ne.symm hself)]
          exact hothers p (mt List.mem_cons.1 (not_or.2 ⟨hself, hp⟩))

/-! ## Schemas -/

/-- The schema with other types. -/
def Schema.retyped (schema : Schema) (types : List ColumnType) : Schema :=
  ⟨schema.fields.zipWith (fun field type => { field with type }) types⟩

/-- Casts that give every column its type: one cast for each column, by any reference and in any
    order. -/
structure Schema.Assigns (schema : Schema) (types : List ColumnType)
    (casts : List (Column × ColumnType)) : Prop where
  width : types.length = schema.width
  cast : ∀ cast ∈ casts, ∃ p, schema.position? cast.1 = some p ∧ types[p]? = some cast.2
  once : (casts.filterMap fun cast => schema.position? cast.1).Perm (List.range schema.width)

namespace Schema

variable {schema : Schema} {types : List ColumnType} {casts : List (Column × ColumnType)}

/-- The columns that casts refer to have the types of the casts, and the others stay. -/
theorem getElem?_resolveCasts {fields out : List Field} {resolved : List (Nat × ColumnType)}
    (htypes : ∀ cast ∈ casts, ∃ p, schema.position? cast.1 = some p ∧ types[p]? = some cast.2)
    (h : resolveCasts schema fields casts = .ok (out, resolved)) :
    (∀ cast ∈ resolved, types[cast.1]? = some cast.2) ∧
      ∀ p, out[p]? = if p ∈ resolved.map Prod.fst
        then fields[p]?.bind fun field => types[p]?.map fun type => { field with type }
        else fields[p]? := by
  induction casts generalizing fields resolved with
  | nil =>
    obtain ⟨rfl, rfl⟩ := Prod.mk.inj (Except.ok.inj h)
    exact ⟨nofun, fun _ => rfl⟩
  | cons cast rest ih =>
    obtain ⟨⟨position, hposition, htype⟩, hrest⟩ := List.forall_mem_cons.1 htypes
    obtain ⟨_, behind, hresolved, hbehind, rfl⟩ := resolveCasts_cons_eq_ok_iff.1 h
    rw [resolve_eq_ok_iff, hposition] at hresolved
    obtain rfl := Option.some.inj hresolved
    obtain ⟨hcasts, hfields⟩ := ih hrest hbehind
    refine ⟨List.forall_mem_cons.2 ⟨htype, hcasts⟩, fun p => ?_⟩
    rw [hfields p, List.map_cons]
    by_cases hp : position = p
    · -- the type is the same if a later cast gives it once more
      subst hp
      rw [List.getElem?_modify_eq]
      cases fields[position]? <;> simp [htype]
    · have hmem : p ∈ position :: behind.map Prod.fst ↔ p ∈ behind.map Prod.fst := by
        rw [List.mem_cons, or_iff_right (Ne.symm hp)]
      rw [List.getElem?_modify_ne _ _ hp]
      simp only [hmem]

theorem exists_resolveCasts (h : ∀ cast ∈ casts, ∃ p, schema.position? cast.1 = some p)
    (fields : List Field) : ∃ out resolved, resolveCasts schema fields casts = .ok (out, resolved) := by
  induction casts generalizing fields with
  | nil => exact ⟨fields, [], rfl⟩
  | cons cast rest ih =>
    obtain ⟨⟨position, hposition⟩, hrest⟩ := List.forall_mem_cons.1 h
    obtain ⟨out, resolved, hresolved⟩ :=
      ih hrest (fields.modify position fun field => { field with type := cast.2 })
    exact ⟨out, (position, cast.2) :: resolved, resolveCasts_cons_eq_ok_iff.2
      ⟨position, resolved, resolve_eq_ok_iff.2 hposition, hresolved, rfl⟩⟩

/-- Whether a name occurs twice does not depend on the types. -/
theorem repeatedName?_congr {fields fields' : List Field}
    (h : fields.map Field.name = fields'.map Field.name) (seen : List String) :
    repeatedName? seen fields = repeatedName? seen fields' := by
  induction fields generalizing fields' seen with
  | nil => rw [List.map_eq_nil_iff.1 h.symm]
  | cons field rest ih =>
    cases fields' with
    | nil => cases h
    | cons field' rest' =>
      obtain ⟨hname, hrest⟩ := List.cons.inj h
      rw [repeatedName?, repeatedName?, hname, ih hrest]

/-- Fields make a schema under any types if they do under some. -/
theorem ofFields_congr {fields fields' : List Field}
    (hnames : fields.map Field.name = fields'.map Field.name) (h : ofFields fields = .ok schema) :
    ofFields fields' = .ok ⟨fields'⟩ := by
  unfold ofFields at h ⊢
  rw [← repeatedName?_congr hnames]
  split at h
  · cases h
  · rfl

theorem getElem?_retyped (types : List ColumnType) (p : Nat) :
    (schema.retyped types).fields[p]? =
      schema.fields[p]?.bind fun field => types[p]?.map fun type => { field with type } := by
  rw [retyped, List.getElem?_zipWith]
  cases schema.fields[p]? <;> cases types[p]? <;> rfl

theorem width_retyped (h : types.length = schema.width) :
    (schema.retyped types).width = schema.width := by
  rw [width] at h ⊢
  rw [retyped, List.length_zipWith, h, Nat.min_self, width]

theorem names_retyped (h : types.length = schema.width) :
    (schema.retyped types).names = schema.names := by
  have hlength : (schema.retyped types).names.length = schema.names.length := by
    rw [names, names, List.length_map, List.length_map]
    exact width_retyped h
  refine List.ext_getElem hlength fun p hp hp' => ?_
  simp only [names, retyped, List.getElem_map, List.getElem_zipWith]

/-- A typecast of all columns opens to the schema with the new types. -/
theorem Assigns.exists_openOn (entropy : Entropy) (h : schema.Assigns types casts)
    (hnames : ofFields schema.fields = .ok schema) :
    ∃ resolved, Transform.openOn entropy schema (.typecast casts) =
        .ok (.each (.cast schema.width schema.names resolved), schema.retyped types) ∧
      (resolved.map Prod.fst).Perm (List.range schema.width) ∧
      ∀ cast ∈ resolved, types[cast.1]? = some cast.2 := by
  have hcolumns : ∀ cast ∈ casts, ∃ p, schema.position? cast.1 = some p := fun cast hcast =>
    (h.cast cast hcast).imp fun _ hp => hp.1
  obtain ⟨out, resolved, hresolved⟩ := exists_resolveCasts hcolumns schema.fields
  obtain ⟨htypes, hfields⟩ := getElem?_resolveCasts h.cast hresolved
  have honce : (resolved.map Prod.fst).Perm (List.range schema.width) :=
    filterMap_position?_of_resolveCasts hresolved ▸ h.once
  have hout : out = (schema.retyped types).fields := by
    apply List.ext_getElem?
    intro p
    rw [hfields p, getElem?_retyped]
    split
    · rfl
    · rename_i hp
      rw [honce.mem_iff, List.mem_range, Nat.not_lt] at hp
      rw [List.getElem?_eq_none hp]
      rfl
  have hschema : ofFields out = .ok (schema.retyped types) := by
    have hsame : schema.fields.map Field.name = out.map Field.name := by
      rw [hout]
      exact (names_retyped h.width).symm
    rw [ofFields_congr hsame hnames, hout]
  refine ⟨resolved, ?_, honce, htypes⟩
  exact bind_eq_ok_iff.2 ⟨(out, resolved), hresolved, bind_eq_ok_iff.2 ⟨_, hschema, rfl⟩⟩

end Schema

end RowFlow
