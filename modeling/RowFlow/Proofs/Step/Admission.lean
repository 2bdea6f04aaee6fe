import RowFlow.Proofs.Csv.Conversion
import RowFlow.Proofs.Step.Casts

/-!
# Well-Typed Rows Between Steps

A schema admits a row if each column holds null or a value of the type that it declares. Steps that
do not compute values turn rows that their input schema admits into rows that their output schema
admits, since they rearrange types and values alike (`Transform.Opens.admits_image`). A typecast may
convert a column several times; the schema keeps the last type, and so does the value.
-/

namespace RowFlow

/-! ## Admission -/

namespace Schema

/-- The types that the columns declare. -/
def types (schema : Schema) : List ColumnType := schema.fields.map Field.type

/-- A row has a value for each column, which is null or of the type that the column declares. -/
def Admits (schema : Schema) (values : List Value) : Prop :=
  List.Forall₂ Value.Fits schema.types values

instance (schema : Schema) (values : List Value) : Decidable (schema.Admits values) :=
  inferInstanceAs (Decidable (List.Forall₂ _ _ _))

theorem Admits.length_eq {schema : Schema} {values : List Value} (h : schema.Admits values) :
    values.length = schema.width := by
  rw [← List.Forall₂.length_eq h, types, List.length_map, width]

theorem types_of_ofFields {fields : List Field} {schema : Schema}
    (h : ofFields fields = .ok schema) : schema.types = fields.map Field.type :=
  congrArg (List.map Field.type) (fields_of_ofFields h)

end Schema

/-! ## Types of rebuilt schemas -/

theorem map_pick {α β : Type} (f : α → β) (positions : List Nat) (items : List α) :
    (pick positions items).map f = pick positions (items.map f) := by
  simp only [pick, List.map_filterMap, List.getElem?_map]

/-- Names have nothing to do with types. -/
theorem types_renameFields {fields out : List Field} {names : List String}
    (h : renameFields fields names = .ok out) : out.map Field.type = fields.map Field.type := by
  unfold renameFields at h
  split at h
  · rename_i hlen
    have hfst : (fields.zip names).map Prod.fst = fields := List.map_fst_zip (Nat.le_of_eq hlen)
    conv => rhs; rw [← hfst]
    rw [← Except.ok.inj h, List.zip]
    simp only [List.map_zipWith]
  · cases h

theorem map_modify {α β : Type} {f : α → β} {g : α → α} {k : β → β} (h : ∀ x, f (g x) = k (f x))
    (items : List α) (p : Nat) : (items.modify p g).map f = (items.map f).modify p k := by
  induction items generalizing p with
  | nil => cases p <;> rfl
  | cons x rest ih =>
    cases p with
    | zero => simp [h]
    | succ p => simp [ih]

theorem types_renameAt {fields out : List Field} {positions : List Nat} {names : List String}
    (h : renameAt fields positions names = .ok out) :
    out.map Field.type = fields.map Field.type := by
  unfold renameAt at h
  split at h
  · rw [← Except.ok.inj h]
    -- each change renames one field, whatever place it has
    generalize positions.zip names = changes
    clear h
    induction changes generalizing fields with
    | nil => rfl
    | cons change rest ih =>
      have hsame := map_modify (f := Field.type) (k := id) (fun _ => rfl) fields change.1
        (g := fun field => { field with name := change.2 })
      rw [List.foldl_cons, ih, hsame, List.modify_id]
  · cases h

/-! ## Lists that match -/

section
variable {α β : Type} {R : α → β → Prop} {xs : List α} {ys : List β}

theorem forall₂_getElem? (h : List.Forall₂ R xs ys) (p : Nat) : Option.Rel R xs[p]? ys[p]? := by
  induction h generalizing p with
  | nil => exact .none
  | cons hxy _ ih =>
    cases p with
    | zero => exact .some hxy
    | succ p => simpa using ih p

theorem forall₂_pick (h : List.Forall₂ R xs ys) (positions : List Nat) :
    List.Forall₂ R (pick positions xs) (pick positions ys) := by
  induction positions with
  | nil => exact .nil
  | cons position rest ih =>
    have hposition := forall₂_getElem? h position
    simp only [pick, List.filterMap_cons] at ih ⊢
    -- a position lies within both lists or beyond both
    cases hx : xs[position]? <;> cases hy : ys[position]? <;> rw [hx, hy] at hposition
    · exact ih
    · cases hposition
    · cases hposition
    · cases hposition with
      | some hxy => exact .cons hxy ih

theorem forall₂_set (h : List.Forall₂ R xs ys) (p : Nat) {x : α} {y : β} (hxy : R x y) :
    List.Forall₂ R (xs.set p x) (ys.set p y) := by
  induction h generalizing p with
  | nil => exact .nil
  | cons hhead htail ih =>
    cases p with
    | zero => exact .cons hxy htail
    | succ p => exact .cons hhead (ih p)

/-- Matching items put between matching others at the same place. -/
theorem forall₂_splice (h : List.Forall₂ R xs ys) (place : Nat) {us : List α} {vs : List β}
    (huv : List.Forall₂ R us vs) :
    List.Forall₂ R (xs.take place ++ us ++ xs.drop place)
      (ys.take place ++ vs ++ ys.drop place) :=
  List.rel_append (List.rel_append (List.forall₂_take place h) huv) (List.forall₂_drop place h)

end

/-! ## Conversions -/

/-- Fields are retyped and values are converted in step, also where a column is named again. -/
theorem forall₂_castEach {schema : Schema} {fields out : List Field}
    {casts : List (Column × ColumnType)} {resolved : List (Nat × ColumnType)}
    (hcasts : resolveCasts schema fields casts = .ok (out, resolved)) {id : Nat}
    {names : List String} {values converted : List Value}
    (hvalues : List.Forall₂ Value.Fits (fields.map Field.type) values)
    (h : castEach id names values resolved = .ok converted) :
    List.Forall₂ Value.Fits (out.map Field.type) converted := by
  -- a conversion may follow another one of its column, so fields and values move on
  induction casts generalizing fields resolved values with
  | nil =>
    obtain ⟨rfl, rfl⟩ := Prod.mk.inj (Except.ok.inj hcasts)
    exact Except.ok.inj h ▸ hvalues
  | cons cast rest ih =>
    obtain ⟨position, behind, -, hbehind, rfl⟩ := resolveCasts_cons_eq_ok_iff.1 hcasts
    obtain ⟨v, hv, h⟩ := castEach_cons_eq_ok_iff.1 h
    -- retyping a field sets one type
    have hretyped : (fields.modify position fun field => { field with type := cast.2 }).map
        Field.type = (fields.map Field.type).set position cast.2 := by
      rw [List.set_eq_modify, map_modify (k := fun _ => cast.2)]
      exact fun _ => rfl
    refine ih hbehind ?_ h
    rw [hretyped]
    exact forall₂_set hvalues position (Csv.fits_of_convert hv)

/-! ## Opened transforms -/

/-- Whether the values of a transform's rows are those of its input, nulls or conversions to the
    types that it declares: nothing is updated, and what is inserted is not computed. -/
def Transform.KeepsTypes : Transform → Prop
  | .update _ _ => False
  | .insert _ _ values => values = []
  | _ => True

/-- A rule of a transform that keeps types puts rows that the output schema admits in the place of
    rows that the input schema admits. -/
theorem Transform.Opens.admits_image {entropy : Entropy} {schema output : Schema} {t : Transform}
    {rule : RowRule} (h : t.Opens entropy schema (.each rule) output) (hkeeps : t.KeepsTypes)
    {row image : Row} (hrow : schema.Admits row.values) (himage : rule.apply row = .ok (some image)) :
    output.Admits image.values := by
  cases h with
  | filter _ =>
    obtain ⟨truth, -, himage⟩ := bind_eq_ok_iff.1 himage
    have hkept := Except.ok.inj himage
    split at hkept
    · cases hkept
    · exact Option.some.inj hkept ▸ hrow
  | @select _ _ positions fields _ hpositions hfields houtput =>
    obtain ⟨-, -, himage⟩ := bind_eq_ok_iff.1 himage
    -- new names leave the types as they were picked
    have htypes : fields.map Field.type = pick positions schema.types := by
      rcases hfields with rfl | ⟨names, hfields⟩
      · exact map_pick _ _ _
      · rw [types_renameFields hfields]
        exact map_pick _ _ _
    rw [← Option.some.inj (Except.ok.inj himage), Schema.Admits, Schema.types_of_ofFields houtput,
      htypes]
    exact forall₂_pick hrow positions
  | rename hpositions hfields houtput =>
    rw [← Option.some.inj (Except.ok.inj himage), Schema.Admits, Schema.types_of_ofFields houtput,
      types_renameAt hfields]
    exact hrow
  | move houtput horder =>
    obtain ⟨-, -, himage⟩ := bind_eq_ok_iff.1 himage
    rw [← Option.some.inj (Except.ok.inj himage), Schema.Admits, Schema.types_of_ofFields houtput,
      map_pick]
    exact forall₂_pick hrow _
  | @insert names position values place cells output hcells houtput hplace =>
    obtain rfl : values = [] := hkeeps
    obtain rfl : Cells.nulls names.length = cells := Except.ok.inj hcells
    obtain ⟨-, -, himage⟩ := bind_eq_ok_iff.1 himage
    -- nulls fit any type, so also that of text
    have hnulls : List.Forall₂ Value.Fits (names.map fun _ => .utf8)
        (List.replicate names.length .null) := by
      rw [← List.map_const', List.forall₂_map_left_iff, List.forall₂_map_right_iff,
        List.forall₂_same]
      exact fun _ _ => .inl rfl
    have htypes : output.types = schema.types.take place ++ (names.map fun _ => .utf8) ++
        schema.types.drop place := by
      rw [Schema.types_of_ofFields houtput]
      simp only [Schema.types, List.map_append, List.map_take, List.map_drop, List.map_map]
      rfl
    rw [← Option.some.inj (Except.ok.inj himage), Schema.Admits, htypes]
    exact forall₂_splice hrow place hnulls
  | update => exact hkeeps.elim
  | typecast hcasts houtput =>
    obtain ⟨-, -, himage⟩ := bind_eq_ok_iff.1 himage
    obtain ⟨values, hvalues, himage⟩ := bind_eq_ok_iff.1 himage
    rw [← Option.some.inj (Except.ok.inj himage), Schema.Admits, Schema.types_of_ofFields houtput]
    exact forall₂_castEach hcasts hrow hvalues

end RowFlow
