import RowFlow.Proofs.Expr.Dependence
import RowFlow.Proofs.Step.Lineage
import RowFlow.Proofs.Step.Names

/-!
# Rearranged Columns

Moving columns, selecting some of them and inserting others changes where columns are, not what they
hold. A column that a transform takes over has its field at the new position, and since names are
distinct its name resolves there. So a row that is passed on shares the values of all columns that
are kept with the row that it was made of (`Transform.sharesAt_of_rearranges`), and an expression of
these columns has the same value on both.
-/

namespace RowFlow

/-! ## Names of fields -/

namespace Schema

variable {schema : Schema} {name : String} {position : Nat}

theorem exists_field_of_indexOf? (h : schema.indexOf? name = some position) :
    ∃ field, schema.fields[position]? = some field ∧ field.name = name := by
  obtain ⟨hlt, hname, -⟩ := List.findIdx?_eq_some_iff_getElem.1 h
  exact ⟨schema.fields[position], List.getElem?_eq_getElem hlt, beq_iff_eq.1 hname⟩

/-- Where names are distinct, the name of a field resolves to the position of that field. -/
theorem indexOf?_of_nodup (hnames : schema.names.Nodup) {field : Field}
    (h : schema.fields[position]? = some field) : schema.indexOf? field.name = some position := by
  obtain ⟨hlt, rfl⟩ := List.getElem?_eq_some_iff.1 h
  refine List.findIdx?_eq_some_iff_getElem.2 ⟨hlt, beq_self_eq_true _, fun j hj hsame => ?_⟩
  -- an earlier field of this name would be the same one
  have hsame : schema.names[j]? = schema.names[position]? := by
    simp only [names, List.getElem?_map, List.getElem?_eq_getElem hlt,
      List.getElem?_eq_getElem (Nat.lt_trans hj hlt), Option.map_some, beq_iff_eq.1 hsame]
  have hlength : j < schema.names.length := by
    rw [names, List.length_map]
    exact Nat.lt_trans hj hlt
  exact Nat.ne_of_lt hj ((List.getElem?_inj hlength hnames).1 hsame)

end Schema

/-! ## Transforms that rearrange columns -/

/-- A transform moves columns, selects columns among which are those that references are to, or
    inserts new ones. -/
inductive Transform.Rearranges (schema : Schema) (references : List Column) : Transform → Prop
  | move (columns : List Column) (position : Nat) :
    Rearranges schema references (.move columns position)
  | select {columns : List Column}
    (hkept : ∀ c ∈ references, ∃ column ∈ columns, schema.position? column = schema.position? c) :
    Rearranges schema references (.select columns none)
  | insert (names : List String) (position : Option Nat) (values : List Expr) :
    Rearranges schema references (.insert names position values)

/-- A rearrangement of all positions has every position. -/
theorem mem_moveOrder {width p : Nat} (moved : List Nat) (place : Nat) (hp : p < width) :
    p ∈ moveOrder width moved place := by
  by_cases hmoved : p ∈ moved
  · simp [moveOrder, hmoved]
  · have hother : p ∈ (List.range width).filter (!moved.contains ·) := by
      simp [hp, hmoved]
    rw [← List.take_append_drop place ((List.range width).filter _), List.mem_append] at hother
    simp only [moveOrder, List.mem_append]
    tauto

namespace Transform

/-- A selection without new names keeps the selected fields. -/
theorem resolved_of_select {entropy : Entropy} {schema output : Schema} {columns : List Column}
    {stage : Stage} (h : (select columns none).openOn entropy schema = .ok (stage, output)) :
    ∃ positions, schema.resolveEach columns = .ok positions ∧
      Schema.ofFields (pick positions schema.fields) = .ok output := by
  simp only [openOn, pure_bind] at h
  obtain ⟨positions, hpositions, h⟩ := bind_eq_ok_iff.1 h
  obtain ⟨schema', hschema, h⟩ := bind_eq_ok_iff.1 h
  obtain ⟨-, rfl⟩ := Prod.mk.inj (Except.ok.inj h)
  exact ⟨positions, hpositions, hschema⟩

section
variable {entropy : Entropy} {schema output : Schema} {references : List Column} {t : Transform}
  {stage : Stage}
  (ht : t.Rearranges schema references) (h : t.openOn entropy schema = .ok (stage, output))
include ht h

/-- The field of a column that has an origin is the field there. -/
theorem fields_of_origin? {p p' : Nat} (horigin : t.origin? schema p' = some p) :
    output.fields[p']? = schema.fields[p]? := by
  cases ht with
  | move columns position =>
    cases opens_of_openOn h with
    | move houtput horder =>
      obtain ⟨moved, hmoved, rfl⟩ := horder
      have hwithin : ∀ q ∈ moveOrder schema.width moved position, q < schema.width :=
        lt_of_mem_moveOrder (Schema.lt_width_of_resolveEach hmoved)
      rw [origin?_move hmoved] at horigin
      rw [Schema.fields_of_ofFields houtput, getElem?_pick hwithin, horigin]
      rfl
  | select hkept =>
    obtain ⟨positions, hpositions, houtput⟩ := resolved_of_select h
    have hwithin := Schema.lt_width_of_resolveEach hpositions
    rw [origin?, Schema.getElem?_bind_position?_of_resolveEach hpositions] at horigin
    rw [Schema.fields_of_ofFields houtput, getElem?_pick hwithin, horigin]
    rfl
  | insert names position values =>
    cases opens_of_openOn h with
    | insert _ houtput hplace =>
      obtain ⟨rfl, hplace⟩ := hplace
      have hfirst : min (position.getD schema.width) schema.fields.length =
          position.getD schema.width := Nat.min_eq_left hplace
      rw [Schema.fields_of_ofFields houtput, getElem?_splice, List.length_map, hfirst]
      -- fields are put between others as values are
      simp only [origin?] at horigin
      split at horigin
      · obtain rfl := Option.some.inj horigin
        rw [if_pos ‹_›]
      · split at horigin
        · cases horigin
        · obtain rfl := Option.some.inj horigin
          rw [if_neg ‹_›, if_neg ‹_›]

/-- A column that a reference is to is the origin of some column. -/
theorem exists_origin? {c : Column} (hc : c ∈ references) {p : Nat}
    (hp : schema.position? c = some p) : ∃ p', t.origin? schema p' = some p := by
  cases ht with
  | move columns position =>
    cases opens_of_openOn h with
    | move houtput horder =>
      obtain ⟨moved, hmoved, rfl⟩ := horder
      have hp : p < schema.width := Schema.lt_width_of_resolve (Schema.resolve_eq_ok_iff.2 hp)
      obtain ⟨p', hp'⟩ := List.mem_iff_getElem?.1 (mem_moveOrder moved position hp)
      exact ⟨p', (origin?_move hmoved position p').trans hp'⟩
  | select hkept =>
    obtain ⟨column, hcolumn, hsame⟩ := hkept c hc
    obtain ⟨p', hp'⟩ := List.mem_iff_getElem?.1 hcolumn
    refine ⟨p', ?_⟩
    rw [origin?, hp', Option.bind_some, hsame, hp]
  | insert names position values =>
    -- columns behind the inserted ones have moved up by their number
    by_cases hfirst : p < position.getD schema.width
    · exact ⟨p, if_pos hfirst⟩
    · refine ⟨p + names.length, ?_⟩
      simp only [origin?]
      rw [if_neg (by omega), if_neg (by omega), Nat.add_sub_cancel]

theorem nodup_of_rearranges : output.names.Nodup := by
  cases ht with
  | move columns position =>
    cases opens_of_openOn h with
    | move houtput _ => exact Schema.nodup_of_ofFields houtput
  | select _ =>
    obtain ⟨_, -, houtput⟩ := resolved_of_select h
    exact Schema.nodup_of_ofFields houtput
  | insert names position values =>
    cases opens_of_openOn h with
    | insert _ houtput _ => exact Schema.nodup_of_ofFields houtput

/-- The name of a column that a reference is to comes along with its field, and resolves to it. -/
theorem exists_resolve_of_rearranges {name : String} (hname : .name name ∈ references) {p : Nat}
    (hp : schema.resolve (.name name) = .ok p) :
    ∃ p', output.resolve (.name name) = .ok p' ∧ t.origin? schema p' = some p := by
  have hposition := Schema.resolve_eq_ok_iff.1 hp
  obtain ⟨p', horigin⟩ := exists_origin? ht h hname hposition
  obtain ⟨field, hfield, rfl⟩ := Schema.exists_field_of_indexOf? hposition
  have hfield' := (fields_of_origin? ht h horigin).trans hfield
  have hposition' : output.position? (.name field.name) = some p' :=
    Schema.indexOf?_of_nodup (nodup_of_rearranges ht h) hfield'
  exact ⟨p', Schema.resolve_eq_ok_iff.2 hposition', horigin⟩

theorem exists_rule_of_rearranges : ∃ rule, stage = .each rule := by
  cases ht <;> cases opens_of_openOn h <;> exact ⟨_, rfl⟩

end

/-! ## Rows and their images -/

/-- Whether a transform inserts values that it computes for each row. -/
def Computes : Transform → Prop
  | .insert _ _ values => values ≠ []
  | _ => False

section
variable {entropy : Entropy} {schema output : Schema} {references : List Column} {t : Transform}
  {rule : RowRule}
  (ht : t.Rearranges schema references) (h : t.openOn entropy schema = .ok (.each rule, output))
  {row image : Row}
include ht h

/-- No row is dropped. -/
theorem exists_image_of_rearranges {passed : Option Row} (hpassed : rule.apply row = .ok passed) :
    ∃ image, passed = some image := by
  cases ht with
  | move columns position =>
    cases opens_of_openOn h with
    | move houtput horder =>
      obtain ⟨_, -, hpassed⟩ := bind_eq_ok_iff.1 hpassed
      exact ⟨_, (Except.ok.inj hpassed).symm⟩
  | select _ =>
    cases opens_of_openOn h with
    | select _ _ _ =>
      obtain ⟨_, -, hpassed⟩ := bind_eq_ok_iff.1 hpassed
      exact ⟨_, (Except.ok.inj hpassed).symm⟩
  | insert names position values =>
    cases opens_of_openOn h with
    | insert _ _ _ =>
      obtain ⟨_, -, hpassed⟩ := bind_eq_ok_iff.1 hpassed
      obtain ⟨_, -, hpassed⟩ := bind_eq_ok_iff.1 hpassed
      exact ⟨_, (Except.ok.inj hpassed).symm⟩

/-- A transform that computes nothing fails on no row of the width of its input. -/
theorem exists_image_of_not_computes (hcomputes : ¬ t.Computes) (hrow : row.length = schema.width) :
    ∃ image, rule.apply row = .ok (some image) := by
  have hwidth : expectWidth row.values schema.width = .ok () := expectWidth_eq_ok_iff.2 hrow
  cases ht with
  | move columns position =>
    cases opens_of_openOn h with
    | move houtput horder =>
      rw [RowRule.apply, hwidth]
      exact ⟨_, rfl⟩
  | select _ =>
    cases opens_of_openOn h with
    | select _ _ _ =>
      rw [RowRule.apply, hwidth]
      exact ⟨_, rfl⟩
  | insert names position values =>
    obtain rfl : values = [] := Decidable.not_not.1 hcomputes
    cases opens_of_openOn h with
    | insert hcells _ _ =>
      obtain rfl := Except.ok.inj hcells
      rw [RowRule.apply, hwidth]
      exact ⟨_, rfl⟩

/-- A row that is passed on shares the values of the columns that references are to, by name, with
    the row that it was made of. -/
theorem sharesAt_of_rearranges (himage : rule.apply row = .ok (some image)) {name : String}
    (hname : .name name ∈ references) (hhas : schema.Has (.name name)) :
    SharesAt schema output row.values image.values (.name name) := by
  obtain ⟨p, hp⟩ := hhas
  obtain ⟨p', hp', horigin⟩ := exists_resolve_of_rearranges ht h hname hp
  exact ⟨p, p', hp, hp', ((descends_of_openOn h himage).values horigin).symm⟩

end

section
variable {entropy : Entropy} {schema output : Schema} {e : Expr} {t : Transform}
  (ht : t.Rearranges schema e.references)
  (hnamed : ∀ c ∈ e.references, ∃ name, c = .name name) {evaluator : Evaluator}
  (hprep : e.prepare schema = .ok evaluator)
include ht hnamed hprep

/-- An expression of columns that are kept can be prepared behind the transform too. -/
theorem exists_prepare_of_rearranges {stage : Stage}
    (h : t.openOn entropy schema = .ok (stage, output)) :
    ∃ evaluator', e.prepare output = .ok evaluator' := by
  obtain ⟨hstreamable, hhas⟩ := (Expr.exists_prepare_iff e).1 ⟨evaluator, hprep⟩
  refine (Expr.exists_prepare_iff e).2 ⟨hstreamable, fun c hc => ?_⟩
  obtain ⟨name, rfl⟩ := hnamed c hc
  obtain ⟨p, hp⟩ := hhas _ hc
  obtain ⟨p', hp', -⟩ := exists_resolve_of_rearranges ht h hc hp
  exact ⟨p', hp'⟩

/-- The truth of an expression of columns that are kept is the same for a row that is passed on as
    for the row that it was made of. -/
theorem evalTruth_eq_of_rearranges {rule : RowRule}
    (h : t.openOn entropy schema = .ok (.each rule, output)) {evaluator' : Evaluator}
    (hprep' : e.prepare output = .ok evaluator') {row image : Row}
    (hrow : row.length = schema.width) (himage : rule.apply row = .ok (some image)) :
    evaluator'.evalTruth image.values = evaluator.evalTruth row.values := by
  obtain ⟨-, hhas⟩ := (Expr.exists_prepare_iff e).1 ⟨evaluator, hprep⟩
  have hwidth : image.length = output.width := fits_of_openOn h row image hrow himage
  have hshares : ∀ c ∈ e.references, SharesAt schema output row.values image.values c := by
    intro c hc
    obtain ⟨name, rfl⟩ := hnamed c hc
    exact sharesAt_of_rearranges ht h himage hc (hhas _ hc)
  rw [Evaluator.evalTruth, Evaluator.evalTruth,
    Expr.eval_eq_of_sharesAt hrow hwidth e hshares hprep hprep']

end

end Transform

end RowFlow
